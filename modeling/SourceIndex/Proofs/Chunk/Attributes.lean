import SourceIndex.Proofs.Chunk.DocComments
import SourceIndex.Proofs.Chunk.Kept

/-!
# Attributes and the item after them

An attribute belongs to the item after it, with blank lines and other
attributes in between.  Comments in between are carried along where they belong
to what follows them: docstrings are wanted, the comment starts its line and no
blank line is behind it.  Any other comment ends the search backwards from the
item, so that the attributes before it are left to the residue.

## Main results

* `Definition.attached_of_chain` — siblings that join one by one are attached.
* `Chunk.ofDefinitions_attributes` — a chunk owns the attribute with its item.
* `Chunk.ofDefinitions_strayed` — no chunk does behind another comment.
-/

namespace SourceIndex

/-! ## Siblings before an item -/

/-- An attribute, the mark of an item behind it: between them stand attributes
and comments, and otherwise blanks only. -/
structure Located.Leads (source : List Char) (item : Located) (mark : Node)
    (between : List Node) : Prop where
  siblings : ∃ parent earlier later, item.parent? = some parent ∧
    parent.children = earlier ++ mark :: between ++ item.node :: later
  kind : mark.kind ∈ Language.rust.attributeKinds
  kinds : ∀ node ∈ between,
    node.kind ∈ Language.rust.attributeKinds ∨ node.kind ∈ Language.rust.commentKinds
  blank : (mark :: between ++ [item.node]).IsChain fun node next =>
    Text.allBlank (Text.slice source node.span.stop next.span.start) = true

/-- Each comment before an item belongs to what follows it: docstrings are
wanted, and it documents the next sibling. -/
def Located.Carried (source : List Char) (docstrings : Bool) (item : Located)
    (between : List Node) : Prop :=
  (between ++ [item.node]).IsChain fun node next =>
    node.kind ∈ Language.rust.commentKinds →
      docstrings = true ∧ node.Documents source .rust next.span.start

/-- Nothing but a sign stands where an attribute starts: no named node, no
comment and no other attribute. -/
def Node.Opens (mark : Node) : Prop :=
  ∀ child ∈ mark.children, child.span.start = mark.span.start →
    child.named = false ∧ child.kind ∉ Language.rust.attachedKinds

instance (mark : Node) : Decidable mark.Opens :=
  inferInstanceAs (Decidable (∀ child ∈ mark.children, _))

/-- No attribute is of a kind of comments. -/
theorem Language.not_mem_commentKinds :
    ∀ kind ∈ Language.rust.attributeKinds, kind ∉ Language.rust.commentKinds := by
  decide

section Items

variable {source : List Char} {options : ChunkOptions}

namespace Definition

/-- Siblings each of which joins what is behind it are attached, whatever is
before them. -/
theorem attached_of_chain {rules : DefinitionRules} (run rest : List Node) :
    ∀ node : Node,
      (node :: run).IsChain
        (fun next earlier => joins source rules earlier next.span.start = true) →
      run <+: attached source rules node.span.start (run ++ rest) := by
  induction run with
  | nil => exact fun _ _ => List.nil_prefix
  | cons first run ih =>
      intro node hChain
      obtain ⟨hJoins, hRun⟩ := List.isChain_cons_cons.mp hChain
      rw [List.cons_append, attached_cons_of_joins (run ++ rest) hJoins]
      exact List.cons_prefix_cons.mpr ⟨rfl, ih first hRun⟩

/-- An attribute joins what is behind blanks. -/
theorem joins_of_attribute {node : Node} {start : Nat}
    (hKind : node.kind ∈ Language.rust.attributeKinds)
    (hBlank : Text.allBlank (Text.slice source node.span.stop start) = true) :
    joins source (.of .rust options) node start = true := by
  rw [joins, DefinitionRules.of, if_pos (by simpa using hKind)]
  exact hBlank

/-- A comment joins what it documents, where docstrings are wanted. -/
theorem joins_of_documents {node : Node} {start : Nat} (hDocstrings : options.docstrings = true)
    (hDocuments : node.Documents source .rust start) :
    joins source (.of .rust options) node start = true := by
  have hKind : node.kind ∈ Language.rust.commentKinds := by simpa using hDocuments.kind
  have hAttribute : ¬ Language.rust.attributeKinds.contains node.kind = true := by
    intro hContains
    exact Language.not_mem_commentKinds node.kind (by simpa using hContains) hKind
  rw [joins, DefinitionRules.of, if_neg hAttribute, isAdjacent]
  simp [hDocstrings, hKind, hDocuments.blank, hDocuments.feeds,
    Text.startsLine_iff.mp hDocuments.line]

/-- Attributes behind which are blanks and comments that are carried join one by
one. -/
theorem joins_chain {item : Node} (nodes : List Node) :
    (∀ node ∈ nodes,
      node.kind ∈ Language.rust.attributeKinds ∨ node.kind ∈ Language.rust.commentKinds) →
    (nodes ++ [item]).IsChain (fun node next =>
      Text.allBlank (Text.slice source node.span.stop next.span.start) = true) →
    (nodes ++ [item]).IsChain (fun node next => node.kind ∈ Language.rust.commentKinds →
      options.docstrings = true ∧ node.Documents source .rust next.span.start) →
    (nodes ++ [item]).IsChain fun node next =>
      joins source (.of .rust options) node next.span.start = true := by
  induction nodes with
  | nil => exact fun _ _ _ => .singleton item
  | cons node rest ih =>
      intro hKinds hBlank hCarried
      rw [List.cons_append, List.isChain_cons] at hBlank hCarried ⊢
      refine ⟨?_, ih (fun other hOther => hKinds other (List.mem_cons_of_mem node hOther))
        hBlank.2 hCarried.2⟩
      intro next hNext
      by_cases hComment : node.kind ∈ Language.rust.commentKinds
      · obtain ⟨hDocstrings, hDocuments⟩ := hCarried.1 next hNext hComment
        exact joins_of_documents hDocstrings hDocuments
      · have hAttribute := (hKinds node List.mem_cons_self).resolve_right hComment
        exact joins_of_attribute hAttribute (hBlank.1 next hNext)

end Definition

/-- A match that is reached through a comment or an attribute is below it. -/
theorem DefinitionRules.below_of_attaches {language : Language} {root child : Node}
    {ancestors : List Node} {other : Located}
    (hOther : other ∈ (DefinitionRules.of language options).outermost root)
    (hAttaches : child.kind ∈ language.attributeKinds ∨ child.kind ∈ language.commentKinds)
    (hThrough : other = ⟨child, ancestors⟩ ∨ other ∈ Located.reachedBelow ancestors child) :
    other ∈ Located.reachedBelow ancestors child := by
  refine hThrough.resolve_left ?_
  rintro rfl
  have hMatch := (Bool.and_eq_true_iff.mp (List.mem_filter.mp hOther).2).1
  have hChild : (DefinitionRules.of language options).attaches child = true := by
    simpa [attaches, Language.attachedKinds, DefinitionRules.of] using hAttaches
  rw [definition?_of_attaches hChild] at hMatch
  cases hMatch

/-! ## The definition of an item -/

namespace Located.Leads

variable {root : Node} {item : Located} {mark : Node} {between : List Node}

/-- The attribute and the item are children of a well-formed node. -/
theorem parent (hRoot : root.WellFormed source) (hItem : item ∈ Located.reachedBelow [] root)
    (h : item.Leads source mark between) :
    ∃ parent upper earlier later, item.ancestors = parent :: upper ∧ parent.WellFormed source ∧
      parent.children = earlier ++ mark :: (between ++ item.node :: later) := by
  obtain ⟨parent, earlier, later, hParent, hChildren⟩ := h.siblings
  obtain ⟨above, upper, hAncestors, _, hWellFormed, _⟩ :=
    (Located.reachedBelow_inside root [] hRoot item hItem).parent
  obtain rfl : above = parent := by
    rw [parent?, hAncestors] at hParent
    exact Option.some.inj hParent
  refine ⟨above, upper, earlier, later, hAncestors, hWellFormed, ?_⟩
  rw [hChildren, List.append_assoc, List.cons_append]

/-- The attribute ends before the item starts. -/
theorem mark_stop_le (hRoot : root.WellFormed source) (hItem : item ∈ Located.reachedBelow [] root)
    (h : item.Leads source mark between) : mark.span.stop ≤ item.node.span.start := by
  obtain ⟨parent, _, earlier, later, _, hWellFormed, hChildren⟩ := h.parent hRoot hItem
  have hOrder := hWellFormed.row.pairwise
  rw [hChildren, List.pairwise_append, List.pairwise_cons] at hOrder
  exact hOrder.2.1.1 item.node (List.mem_append_right _ List.mem_cons_self)

/-- The siblings from the attribute on join one by one. -/
theorem joins_chain (h : item.Leads source mark between)
    (hCarried : item.Carried source options.docstrings between) :
    (mark :: between ++ [item.node]).IsChain fun node next =>
      Definition.joins source (.of .rust options) node next.span.start = true := by
  refine Definition.joins_chain (mark :: between) ?_ h.blank ?_
  · intro node hNode
    rcases List.mem_cons.mp hNode with rfl | hBetween
    · exact .inl h.kind
    · exact h.kinds node hBetween
  · rw [List.cons_append, List.isChain_cons]
    exact ⟨fun _ _ hComment => absurd hComment (Language.not_mem_commentKinds _ h.kind), hCarried⟩

/-- The definition of the item starts no later than the attribute. -/
theorem exists_definition (hRoot : root.WellFormed source)
    (hItem : item ∈ (DefinitionRules.of .rust options).outermost root)
    (h : item.Leads source mark between)
    (hCarried : item.Carried source options.docstrings between) :
    ∃ definition ∈ Definition.all source (.of .rust options) root,
      Span.Within ⟨mark.span.start, item.node.span.stop⟩ definition.span := by
  obtain ⟨hReached, hOutermost⟩ := List.mem_filter.mp hItem
  obtain ⟨parent, upper, earlier, later, hAncestors, _, hChildren⟩ := h.parent hRoot hReached
  obtain ⟨inner, hFound⟩ := DefinitionRules.exists_match_of root [] rfl item hReached hOutermost
    parent upper (earlier ++ mark :: between) later hAncestors
    (by rw [hChildren, List.append_assoc, List.cons_append])
  refine ⟨_, List.mem_map_of_mem hFound, ?_⟩
  have hMatch := (DefinitionRules.of .rust options).matchesBelow_root_wellFormed hRoot _ hFound
  have hRun : (mark :: between).reverse <+: Match.attached source (.of .rust options)
      ⟨item.node, (earlier ++ mark :: between).reverse, inner⟩ := by
    rw [Match.attached, List.reverse_append]
    apply Definition.attached_of_chain
    rw [← List.reverse_concat, List.isChain_reverse]
    simpa using h.joins_chain hCarried
  have hMark : mark ∈ Match.attached source (.of .rust options)
      ⟨item.node, (earlier ++ mark :: between).reverse, inner⟩ := hRun.subset (by simp)
  have hStart := ((hMatch.fill (.of .rust options)).inside mark hMark).1
  rw [Match.ofMatch_span]
  exact ⟨hStart, Nat.le_refl _⟩

/-- A definition inside the attribute starts behind its sign. -/
theorem start_lt {ancestors : List Node} (hWellFormed : mark.WellFormed source)
    (hOpens : mark.Opens) {other : Located} (hBelow : other ∈ Located.reachedBelow ancestors mark)
    {found : Match} (hPlaced : (DefinitionRules.of .rust options).Placed found other) :
    mark.span.start < found.start source (.of .rust options) := by
  rw [Located.reachedBelow_eq] at hBelow
  obtain ⟨child, hChild, hNamed, hReached⟩ := Located.mem_reachedAmong.mp hBelow
  have hBehind : ∀ node ∈ mark.children,
      (node.named = true ∨ node.kind ∈ Language.rust.attachedKinds) →
      mark.span.start < node.span.start := by
    intro node hNode hKind
    have hFrom := (hWellFormed.of_mem_children hNode).2.1
    refine Nat.lt_of_le_of_ne hFrom fun hSame => ?_
    obtain ⟨hUnnamed, hOther⟩ := hOpens node hNode hSame.symm
    rcases hKind with hNamed | hAttached
    · rw [hUnnamed] at hNamed
      cases hNamed
    · exact hOther hAttached
  rcases hReached with rfl | hDeeper
  · obtain ⟨node, hNode, hKind, hStart⟩ := hPlaced.start_cases source rfl
    rw [hStart]
    refine hBehind node hNode ?_
    rcases hKind with rfl | hAttaches
    · exact .inl hNamed
    · exact .inr (by simpa [DefinitionRules.attaches, DefinitionRules.of] using hAttaches)
  · have hStart := hPlaced.reached_start_le (hWellFormed.of_mem_children hChild).1 hDeeper
    exact Nat.lt_of_lt_of_le (hBehind child hChild (.inl hNamed)) hStart

/-- No definition cuts the part of the source from the attribute to the item. -/
theorem spares (hRoot : root.WellFormed source)
    (hItem : item ∈ (DefinitionRules.of .rust options).outermost root)
    (h : item.Leads source mark between) (hOpens : mark.Opens)
    (hSize : mark.span.start < mark.span.stop) :
    ∀ definition ∈ Definition.all source (.of .rust options) root,
      Partition.Spares ⟨mark.span.start, item.node.span.stop⟩ definition := by
  have hReached := (List.mem_filter.mp hItem).1
  obtain ⟨parent, upper, earlier, later, hAncestors, hWellFormed, hChildren⟩ :=
    h.parent hRoot hReached
  -- The siblings come in order: those before the attribute, the attribute, those between it and
  -- the item, the item, and those behind it.
  have hOrder := hWellFormed.row.pairwise
  rw [hChildren, List.pairwise_append, List.pairwise_cons, List.pairwise_append,
    List.pairwise_cons] at hOrder
  obtain ⟨_, ⟨hAfterMark, _, ⟨hAfterItem, _⟩, _⟩, hBeforeMark⟩ := hOrder
  have hMember : ∀ node, node ∈ parent.children ↔
      node ∈ earlier ∨ node = mark ∨ node ∈ between ∨ node = item.node ∨ node ∈ later := by
    intro node
    rw [hChildren]
    simp
  have hMarkWithin := (hWellFormed.of_mem_children ((hMember mark).mpr (.inr (.inl rfl)))).2
  have hItemWithin := (hWellFormed.of_mem_children
    ((hMember item.node).mpr (.inr (.inr (.inr (.inl rfl)))))).2
  refine DefinitionRules.spares_of_children hRoot hReached hAncestors
    ⟨hMarkWithin.1, hItemWithin.2⟩ ?_
  intro child hChild other hOther hThrough found hPlaced
  have hChildWellFormed := (hWellFormed.of_mem_children hChild).1
  obtain ⟨hWithin, hOwnOrder⟩ := Located.span_within hChildWellFormed hThrough
  have hFrom := hWithin.1
  have hTo := hWithin.2
  unfold Partition.Spares
  rw [Match.ofMatch_span, hPlaced.outer]
  dsimp only
  rcases (hMember child).mp hChild with hEarlier | rfl | hBetween | rfl | hLater
  · have hBefore := hBeforeMark child hEarlier mark List.mem_cons_self
    exact .inl (by omega)
  · have hBelow := DefinitionRules.below_of_attaches hOther (.inl h.kind) hThrough
    exact .inr (.inr (start_lt hChildWellFormed hOpens hBelow hPlaced))
  · -- A definition inside a comment in between starts in the middle of the part.
    have hBelow := DefinitionRules.below_of_attaches hOther (h.kinds child hBetween) hThrough
    have hStart := hPlaced.reached_start_le hChildWellFormed hBelow
    have hAfter := hAfterMark child (List.mem_append_left _ hBetween)
    exact .inr (.inr (by omega))
  · rcases hThrough with rfl | hBelow
    · exact .inr (.inl (Nat.le_refl _))
    · rw [← hAncestors] at hBelow
      have hAbove : item.ancestors ≠ [] := by simp [hAncestors]
      exact absurd hOther (DefinitionRules.not_outermost_below _ hItem hAbove hBelow)
  · have hAfter := hAfterItem child hLater
    exact .inr (.inl (by omega))

end Located.Leads

namespace Chunk

/--
**Attributes belong to the item after them.**  In every well-formed tree of
Rust a chunk owns all that is from an attribute to the end of the item behind
it, blank lines, further attributes and comments included, when each of these
comments belongs to what follows it.  Attributes start with a sign and are not
empty.
-/
theorem ofDefinitions_attributes (source filePath : String) (options : ChunkOptions)
    (root : Node) (h : root.WellFormed source.toList)
    {item : Located} (hItem : item ∈ (DefinitionRules.of .rust options).outermost root)
    {mark : Node} {between : List Node} (hLeads : item.Leads source.toList mark between)
    (hOpens : mark.Opens)
    (hCarried : item.Carried source.toList options.docstrings between) :
    ∃ chunks,
      ofDefinitions source filePath .rust options (.clean root) = .ok chunks ∧
      (options.strategy ≠ .wholeFile → Language.ofPath? filePath = some .rust →
        (ChunkedFile.of source filePath options (.clean root)).chunks = chunks) ∧
      (mark.span.start < mark.span.stop →
        ∃ chunk, Owns chunks chunk ⟨mark.span.start, item.node.span.stop⟩) := by
  refine ⟨ofTree source filePath .rust options root, rfl, ofFile_chunks, ?_⟩
  intro hSize
  obtain ⟨definition, hDefinition, hWithin⟩ := hLeads.exists_definition h hItem hCarried
  have hFull : mark.span.start < item.node.span.stop := by
    have hReached := (List.mem_filter.mp hItem).1
    have hBefore := hLeads.mark_stop_le h hReached
    have hOrder := (Located.reachedBelow_inside root [] h item hReached).wellFormed.fits.ordered
    omega
  exact exists_owner h hFull (hLeads.spares h hItem hOpens hSize) ⟨definition, hDefinition, hWithin⟩

end Chunk

end Items

/-! ### A comment that is carried, and one that is not -/

namespace Marked

def leaf (kind : String) (span : Span) : Node :=
  { kind, named := true, span, roles := [], children := [] }

def source : String := "#[a]\n\n// c\n#[b]\nfn f() {}\n"

def function : Node := leaf "function_item" ⟨16, 25⟩

def mark : Node :=
  { kind := "attribute_item", named := true, span := ⟨0, 4⟩, roles := []
    children :=
      [{ kind := "#", named := false, span := ⟨0, 1⟩, roles := [], children := [] },
       leaf "attribute" ⟨2, 3⟩] }

def between : List Node := [leaf "line_comment" ⟨6, 10⟩, leaf "attribute_item" ⟨11, 15⟩]

def tree : Node :=
  { kind := "source_file", named := true, span := ⟨0, 26⟩, roles := []
    children := mark :: between ++ [function] }

def item : Located := ⟨function, [tree]⟩

theorem wellFormed : tree.WellFormed source.toList := by decide

theorem item_outermost : item ∈ (DefinitionRules.of .rust ⟨.functions, true⟩).outermost tree :=
  List.mem_of_getElem? (i := 0) rfl

theorem leads : item.Leads source.toList mark between where
  siblings := ⟨tree, [], [], rfl, rfl⟩
  kind := by decide
  kinds := by decide
  blank := by decide

theorem carried : item.Carried source.toList true between := by
  have hLine : Text.StartsLine source.toList 6 := Text.startsLine_iff.mpr (by decide)
  have hComment : (leaf "line_comment" ⟨6, 10⟩).Documents source.toList .rust 11 :=
    ⟨by decide, hLine, by decide, by decide⟩
  refine .cons_cons (fun _ => ⟨rfl, hComment⟩) (.cons_cons ?_ (.singleton _))
  intro hKind
  exact absurd hKind (by decide)

end Marked

theorem Chunk.ofDefinitions_attributes_marked :
    Marked.tree.WellFormed Marked.source.toList ∧
      Marked.item ∈ (DefinitionRules.of .rust ⟨.functions, true⟩).outermost Marked.tree ∧
      Marked.item.Leads Marked.source.toList Marked.mark Marked.between ∧
      Marked.mark.Opens ∧
      Marked.item.Carried Marked.source.toList true Marked.between ∧
      ∃ chunk, Owns (ChunkedFile.of Marked.source "a.rs" ⟨.functions, true⟩
        (.clean Marked.tree)).chunks chunk ⟨0, 25⟩ := by
  obtain ⟨chunks, _, hFile, hOwner⟩ := ofDefinitions_attributes Marked.source "a.rs"
    ⟨.functions, true⟩ Marked.tree Marked.wellFormed Marked.item_outermost Marked.leads
    (by decide) Marked.carried
  rw [hFile (by decide) (by decide)]
  exact ⟨Marked.wellFormed, Marked.item_outermost, Marked.leads, by decide, Marked.carried,
    hOwner (by decide)⟩

namespace Strayed

def source : String := "#[inline] /* x */ fn f() {}\n"

def function : Node := Marked.leaf "function_item" ⟨18, 27⟩

def mark : Node := Marked.leaf "attribute_item" ⟨0, 9⟩

def comment : Node := Marked.leaf "block_comment" ⟨10, 17⟩

def tree : Node :=
  { kind := "source_file", named := true, span := ⟨0, 28⟩, roles := []
    children := [mark, comment, function] }

def item : Located := ⟨function, [tree]⟩

theorem leads : item.Leads source.toList mark [comment] where
  siblings := ⟨tree, [], [], rfl, rfl⟩
  kind := by decide
  kinds := by decide
  blank := by decide

theorem settled_spans (docstrings : Bool) :
    (Chunk.settled source.toList .rust ⟨.functions, docstrings⟩ tree).map (·.span) =
      [⟨18, 28⟩] := by
  cases docstrings with
  | true =>
      rw [Chunk.settled, Partition.settle_of_sorted (by decide)]
      decide +kernel
  | false =>
      rw [Chunk.settled, Partition.settle_of_sorted (by decide)]
      decide +kernel

/-- No chunk holds both the function and its attribute. -/
def Detached (docstrings : Bool) : Prop :=
  ∀ chunk ∈ (ChunkedFile.of source "a.rs" ⟨.functions, docstrings⟩ (.clean tree)).chunks,
    ¬ (chunk.Holds function.span ∧ chunk.Holds mark.span)

theorem detached (docstrings : Bool) : Detached docstrings := by
  rintro chunk hChunk ⟨hFunction, hMark⟩
  rw [Chunk.ofFile_chunks (show Strategy.functions ≠ .wholeFile by decide)
    (show Language.ofPath? "a.rs" = some .rust by decide)] at hChunk
  have hSpans := Chunk.spans_of_mem_ofTree hChunk
  rw [Partition.residue, settled_spans] at hSpans
  have hCases : chunk.spans = [⟨18, 28⟩] ∨ chunk.spans = [⟨0, 18⟩] := by
    simpa [show Text.byteLength source.toList = 28 by decide, Partition.gaps] using hSpans
  rcases hCases with hHere | hHere
  · exact absurd (hMark.of_spans hHere 0 ⟨by decide, by decide⟩).1 (by decide)
  · exact absurd (hFunction.of_spans hHere 18 ⟨by decide, by decide⟩).2 (by decide)

end Strayed

/-- A comment on the line of the function detaches the attribute before it,
whether docstrings are wanted or not. -/
theorem Chunk.ofDefinitions_strayed :
    Strayed.tree.WellFormed Strayed.source.toList ∧
      Strayed.item.Leads Strayed.source.toList Strayed.mark [Strayed.comment] ∧
      (Strayed.item ∈ (DefinitionRules.of .rust ⟨.functions, true⟩).outermost Strayed.tree ∧
        Strayed.Detached true) ∧
      Strayed.item ∈ (DefinitionRules.of .rust ⟨.functions, false⟩).outermost Strayed.tree ∧
        Strayed.Detached false :=
  ⟨by decide, Strayed.leads, ⟨List.mem_of_getElem? (i := 0) rfl, Strayed.detached true⟩,
    List.mem_of_getElem? (i := 0) rfl, Strayed.detached false⟩

end SourceIndex
