import SourceIndex.Proofs.Chunk.OnePerNode
import SourceIndex.Proofs.Text.Ink

/-!
# What stands before a definition in its chunk

A definition takes with it the siblings that are *attached* to it: the search
walks back over the siblings, and each one that joins what starts behind it
moves the start.  The attached siblings are named here as nodes, apart from the
walk that collects their texts, and are all the ink there is between the start
of the definition and its node.

Settling adds blanks only: those behind the definition, and before the first
one those that start the file.  So this is what a chunk holds before its node.

## Main results

* `Definition.attach_eq` — the walk collects the attached siblings.
* `Definition.attached_fill` — what they leave before the node is blank.
* `Partition.settle_settles` — what settling adds to a definition is blank.
* `Chunk.forall₂_ofTree` — so it is with the chunks of a tree.
-/

namespace SourceIndex

open Text (IsBoundary InkAt Inkless)

variable {source : List Char}

/-! ## Attached siblings -/

namespace Definition

/-- Whether a sibling belongs to what starts at `start` behind it. -/
def joins (source : List Char) (rules : DefinitionRules) (node : Node) (start : Nat) : Bool :=
  if rules.language.attributeKinds.contains node.kind then
    Text.allBlank (Text.slice source node.span.stop start)
  else rules.docstrings && rules.language.commentKinds.contains node.kind &&
    isAdjacent source node start

/-- The siblings attached to what starts at `start`, of those before it; both
lists have the nearest first. -/
def attached (source : List Char) (rules : DefinitionRules) (start : Nat) :
    List Node → List Node
  | [] => []
  | node :: before =>
      if joins source rules node start then node :: attached source rules node.span.start before
      else []

/-- The start of the last of some nodes, or `start` when there are none. -/
def frontier (start : Nat) : List Node → Nat
  | [] => start
  | node :: rest => frontier node.span.start rest

variable {rules : DefinitionRules}

theorem attached_cons_of_joins {node : Node} {start : Nat} (before : List Node)
    (h : joins source rules node start = true) :
    attached source rules start (node :: before) =
      node :: attached source rules node.span.start before :=
  if_pos h

theorem attached_cons_of_not_joins {node : Node} {start : Nat} (before : List Node)
    (h : ¬ joins source rules node start = true) :
    attached source rules start (node :: before) = [] :=
  if_neg h

/-- Attached siblings are the nearest ones. -/
theorem attached_prefix (before : List Node) :
    ∀ start, attached source rules start before <+: before := by
  induction before with
  | nil => exact fun _ => List.prefix_rfl
  | cons node before ih =>
      intro start
      rw [attached]
      split
      · exact List.cons_prefix_cons.mpr ⟨rfl, ih _⟩
      · exact List.nil_prefix

/-- **The walk collects the attached siblings**: where the last of them starts,
and the texts of those that are comments, in the order of the source. -/
theorem attach_eq (before : List Node) :
    ∀ start, attach source rules start before =
      (frontier start (attached source rules start before),
        ((attached source rules start before).reverse.filter fun node =>
          !rules.language.attributeKinds.contains node.kind).map (·.text source)) := by
  induction before with
  | nil => exact fun _ => rfl
  | cons node before ih =>
      intro start
      rw [attach, attached, joins]
      by_cases hAttribute : rules.language.attributeKinds.contains node.kind = true
      · rw [if_pos hAttribute, if_pos hAttribute]
        split
        · rw [ih, frontier, List.reverse_cons, List.filter_append,
            List.filter_cons_of_neg (by simpa using hAttribute), List.filter_nil, List.append_nil]
        · rfl
      · rw [if_neg hAttribute, if_neg hAttribute]
        split
        · rw [ih, frontier, List.reverse_cons, List.filter_append,
            List.filter_cons_of_pos (by simpa using hAttribute), List.filter_nil, List.map_append]
          rfl
        · rfl

/-- Between a sibling that joins and what it joins are blanks only. -/
theorem joins_blank {node : Node} {start : Nat} (h : joins source rules node start = true) :
    Text.allBlank (Text.slice source node.span.stop start) = true := by
  unfold joins at h
  split at h
  · exact h
  · simp only [isAdjacent, Bool.and_eq_true] at h
    exact h.2.1.1

/-- What joins is a comment or an attribute. -/
theorem attaches_of_joins {node : Node} {start : Nat}
    (h : joins source rules node start = true) : rules.attaches node = true := by
  unfold joins at h
  rw [DefinitionRules.attaches, Language.attachedKinds, List.contains_eq_mem,
    decide_eq_true_eq, List.mem_append]
  split at h
  · next hAttribute => exact .inl (by simpa using hAttribute)
  · simp only [Bool.and_eq_true] at h
    exact .inr (by simpa using h.1.2)

/-- What is attached is a comment or an attribute. -/
theorem attaches_of_mem_attached {before : List Node} :
    ∀ {start : Nat}, ∀ node ∈ attached source rules start before, rules.attaches node = true := by
  induction before with
  | nil => exact nofun
  | cons first before ih =>
      intro start node hNode
      rw [attached] at hNode
      split at hNode
      · next hJoins =>
          rcases List.mem_cons.mp hNode with rfl | hEarlier
          · exact attaches_of_joins hJoins
          · exact ih node hEarlier
      · cases hNode

/-- The frontier of some nodes is where one of them starts. -/
theorem frontier_eq_or_mem (start : Nat) (nodes : List Node) :
    frontier start nodes = start ∨ ∃ node ∈ nodes, node.span.start = frontier start nodes := by
  induction nodes generalizing start with
  | nil => exact .inl rfl
  | cons node rest ih =>
      rw [frontier]
      rcases ih node.span.start with hStart | ⟨other, hOther, hFrontier⟩
      · exact .inr ⟨node, List.mem_cons_self, hStart.symm⟩
      · exact .inr ⟨other, List.mem_cons_of_mem node hOther, hFrontier⟩

end Definition

/-- Nodes between two offsets and all the ink that is there. -/
structure Node.Fill (source : List Char) (start stop : Nat) (nodes : List Node) : Prop where
  le : start ≤ stop
  inside : ∀ node ∈ nodes, start ≤ node.span.start ∧ node.span.stop ≤ stop
  ink : ∀ offset, start ≤ offset → offset < stop → InkAt source offset →
    ∃ node ∈ nodes, node.span.Holds offset

/-- Nodes are followed by blanks up to some offset: they fill what is before it. -/
theorem Node.Fill.cons {start stop : Nat} {node : Node} {nodes : List Node}
    (h : Node.Fill source start node.span.start nodes) (hNode : node.span.start ≤ node.span.stop)
    (hStop : node.span.stop ≤ stop) (hBlank : Inkless source node.span.stop stop) :
    Node.Fill source start stop (node :: nodes) := by
  have hStart := h.le
  refine ⟨by omega, ?_, ?_⟩
  · intro other hOther
    rcases List.mem_cons.mp hOther with rfl | hEarlier
    · exact ⟨hStart, hStop⟩
    · obtain ⟨hFrom, hTo⟩ := h.inside other hEarlier
      exact ⟨hFrom, by omega⟩
  · intro offset hFrom hTo hInk
    by_cases hBefore : offset < node.span.start
    · obtain ⟨other, hOther, hHolds⟩ := h.ink offset hFrom hBefore hInk
      exact ⟨other, List.mem_cons_of_mem node hOther, hHolds⟩
    · by_cases hInside : offset < node.span.stop
      · exact ⟨node, List.mem_cons_self, Nat.le_of_not_lt hBefore, hInside⟩
      · exact absurd hInk (hBlank offset (Nat.le_of_not_lt hInside) hTo)

/-- Blanks before what nodes fill change nothing. -/
theorem Node.Fill.extend {start stop earlier : Nat} {nodes : List Node}
    (h : Node.Fill source start stop nodes) (hLe : earlier ≤ start)
    (hBlank : Inkless source earlier start) : Node.Fill source earlier stop nodes := by
  have hStop := h.le
  refine ⟨by omega, ?_, ?_⟩
  · intro node hNode
    obtain ⟨hFrom, hTo⟩ := h.inside node hNode
    exact ⟨by omega, hTo⟩
  · intro offset hFrom hTo hInk
    by_cases hBefore : offset < start
    · exact absurd hInk (hBlank offset hFrom hBefore)
    · exact h.ink offset (Nat.le_of_not_lt hBefore) hTo hInk

theorem Node.Fill.reverse {start stop : Nat} {nodes : List Node}
    (h : Node.Fill source start stop nodes) : Node.Fill source start stop nodes.reverse where
  le := h.le
  inside node hNode := h.inside node (List.mem_reverse.mp hNode)
  ink offset hFrom hTo hInk := by
    obtain ⟨node, hNode, hHolds⟩ := h.ink offset hFrom hTo hInk
    exact ⟨node, List.mem_reverse.mpr hNode, hHolds⟩

/-- **Attached siblings are all the ink** from the first of them on. -/
theorem Definition.attached_fill (rules : DefinitionRules) {before : List Node} :
    ∀ {start : Nat}, IsBoundary source start → Node.Preceding source start before →
      Node.Fill source (frontier start (attached source rules start before)) start
        (attached source rules start before) := by
  have hNone : ∀ start, Node.Fill source (frontier start []) start [] := fun start =>
    ⟨Nat.le_refl _, nofun, fun offset hFrom hTo hInk =>
      absurd hInk (Text.inkless_self source start offset hFrom hTo)⟩
  induction before with
  | nil => exact fun _ _ => hNone _
  | cons node before ih =>
      intro start hStart hBefore
      obtain ⟨hNode, hStop, hPreceding⟩ := hBefore
      by_cases hJoins : joins source rules node start = true
      · rw [attached_cons_of_joins before hJoins, frontier]
        refine (ih hNode.fits.start hPreceding).cons hNode.fits.ordered hStop ?_
        exact (Text.allBlank_slice_iff hNode.fits.stop hStart hStop).mp (joins_blank hJoins)
      · rw [attached_cons_of_not_joins before hJoins]
        exact hNone start

/-! ## The start of a match -/

namespace Match

variable (source) (rules : DefinitionRules) (found : Match)

/-- The siblings attached to a match, the nearest first. -/
def attached : List Node := Definition.attached source rules found.outer.span.start found.before

/-- Where the definition of a match starts: at the last of the attached
siblings, or at the matching node. -/
def start : Nat := Definition.frontier found.outer.span.start (found.attached source rules)

variable {source rules found}

theorem ofMatch_span :
    (Definition.ofMatch source rules found).span =
      ⟨found.start source rules, found.outer.span.stop⟩ := by
  rw [Definition.ofMatch, Definition.attach_eq]
  rfl

theorem WellFormed.fill (h : found.WellFormed source) (rules : DefinitionRules) :
    Node.Fill source (found.start source rules) found.outer.span.start
      (found.attached source rules) :=
  Definition.attached_fill rules h.outer.fits.start h.before

end Match

/-! ### Ink where definitions start -/

/-- The comments and attributes among the siblings of a node start with ink. -/
def DefinitionRules.InkBeside (rules : DefinitionRules) (source : List Char)
    (located : Located) : Prop :=
  ∀ parent ∈ located.parent?, ∀ node ∈ parent.children, rules.attaches node = true →
    node.span.InkFirst source

instance (rules : DefinitionRules) (source : List Char) (located : Located) :
    Decidable (rules.InkBeside source located) :=
  inferInstanceAs (Decidable (∀ parent ∈ located.parent?, _))

namespace Match

variable {rules : DefinitionRules} {found : Match} {located : Located}

/-- What is attached to a match is one of the comments and attributes beside
its node. -/
theorem mem_children_of_attached (h : rules.Placed found located) {node : Node}
    (hNode : node ∈ found.attached source rules) :
    rules.attaches node = true ∧
      ∃ parent, located.parent? = some parent ∧ node ∈ parent.children := by
  obtain ⟨parent, after, hParent, hChildren⟩ := h.siblings
  refine ⟨Definition.attaches_of_mem_attached node hNode, parent, hParent, ?_⟩
  have hBefore := (Definition.attached_prefix found.before _).subset hNode
  rw [hChildren]
  exact List.mem_append_left _ (List.mem_reverse.mpr hBefore)

/-- The definition of a match starts behind its node's siblings with ink, or
where the node starts. -/
theorem start_eq_or_ink (hFound : found.WellFormed source) (h : rules.Placed found located)
    (hBeside : rules.InkBeside source located) :
    found.start source rules = found.outer.span.start ∨
      InkAt source (found.start source rules) := by
  rcases Definition.frontier_eq_or_mem found.outer.span.start (found.attached source rules) with
    hSame | ⟨node, hNode, hStart⟩
  · exact .inl hSame
  · obtain ⟨hAttaches, parent, hParent, hChild⟩ := mem_children_of_attached h hNode
    have hFits : node.span.Fits source := by
      have hBefore := (Definition.attached_prefix found.before _).subset hNode
      exact (hFound.before.mem hBefore).fits
    have hInk := ((hBeside parent hParent node hChild hAttaches).ink hFits).2
    rw [hStart] at hInk
    exact .inr hInk

end Match

namespace Partition

/-! ## What settling adds -/

/-- Settling leaves a definition what it is and adds blanks to its span: some
behind it, and before it those that start the file or none. -/
structure Settles (source : List Char) (definition settled : Definition) : Prop where
  same : settled = { definition with span := settled.span }
  start : settled.span.start = definition.span.start ∨
    settled.span.start = 0 ∧ Inkless source 0 definition.span.start
  stop : definition.span.stop ≤ settled.span.stop
  blank : Inkless source definition.span.stop settled.span.stop

theorem settles_ownBlanks {definitions : List Definition} {start : Nat}
    (h : Settled source start definitions) :
    List.Forall₂ (Settles source) definitions (ownBlanks source definitions) := by
  induction definitions generalizing start with
  | nil => exact .nil
  | cons definition rest ih =>
      obtain ⟨⟨_, _, hFits⟩, hRest⟩ := settled_cons.mp h
      obtain ⟨hLimit, hLe, _⟩ := hRest.limit
      rw [ownBlanks_cons]
      exact .cons
        { same := rfl
          start := .inl rfl
          stop := Nat.le_add_right _ _
          blank := (Text.blanks_end hFits.stop hLimit hLe).1 } (ih hRest)

theorem settles_ownPrologue {definitions settled : List Definition}
    (hFit : ∀ definition ∈ settled, definition.span.Fits source)
    (h : List.Forall₂ (Settles source) definitions settled) :
    List.Forall₂ (Settles source) definitions (ownPrologue source settled) := by
  cases h with
  | nil => exact .nil
  | @cons definition first definitions rest hHere hRest =>
      rw [ownPrologue]
      split
      · next hBlank =>
          have hStart := (hFit first List.mem_cons_self).start
          have hInkless := (Text.allBlank_takeBytes_iff hStart).mp hBlank
          refine .cons ⟨?_, .inr ⟨rfl, ?_⟩, hHere.stop, hHere.blank⟩ hRest
          · rw [hHere.same]
          · rcases hHere.start with hSame | ⟨_, hBefore⟩
            · rwa [← hSame]
            · exact hBefore
      · exact .cons hHere hRest

/-- **What settling adds to a definition is blank**, when the definitions are
apart and fit the source. -/
theorem settle_settles {definitions : List Definition} {stop : Nat}
    (hApart : Span.Apart 0 stop (definitions.map (·.span)))
    (hFit : ∀ definition ∈ definitions, definition.span.Fits source) :
    List.Forall₂ (Settles source) definitions (settle source definitions) := by
  have hSettled := disjoint_sorted_apart hFit
  rw [disjoint_sorted_eq_self hApart] at hSettled
  rw [settle, disjoint_sorted_eq_self hApart]
  exact settles_ownPrologue (ownBlanks_apart hSettled).fit (settles_ownBlanks hSettled)

end Partition

namespace Chunk

/-! ## The chunk of a match -/

/-- A chunk is that of a match: it tells what the definition of the match
tells, and its one span is that of the definition but for blanks. -/
structure OfMatch (source : List Char) (rules : DefinitionRules) (found : Match) (chunk : Chunk) :
    Prop where
  spans : chunk.spans = [chunk.range]
  fits : chunk.range.Fits source
  text : chunk.text.toList = chunk.range.text source
  docstring : chunk.docstring = (Definition.ofMatch source rules found).docstring
  start : chunk.range.start = found.start source rules ∨
    chunk.range.start = 0 ∧ Inkless source 0 (found.start source rules)
  stop : found.outer.span.stop ≤ chunk.range.stop
  blank : Inkless source found.outer.span.stop chunk.range.stop

theorem OfMatch.start_le {rules : DefinitionRules} {found : Match} {chunk : Chunk}
    (h : OfMatch source rules found chunk) : chunk.range.start ≤ found.start source rules := by
  rcases h.start with hSame | ⟨hZero, _⟩
  · exact Nat.le_of_eq hSame
  · omega

variable {filePath : String} {language : Language} {options : ChunkOptions} {root : Node}

/-- What relates the definitions of a tree to the settled ones relates its
matches to their chunks. -/
theorem forall₂_of_settled {source : String} (h : root.WellFormed source.toList)
    {R : Definition → Definition → Prop}
    (hSettled : List.Forall₂ R
      (Definition.all source.toList (DefinitionRules.of language options) root)
      (settled source.toList language options root)) :
    List.Forall₂
      (fun found chunk => ∃ definition,
        R (Definition.ofMatch source.toList (DefinitionRules.of language options) found)
          definition ∧
        definition.span.Fits source.toList ∧
        chunk = ofDefinition source.toList filePath language options.strategy definition)
      ((DefinitionRules.of language options).matchesBelow [] root)
      ((ofTree source filePath language options root).filter (·.granularity ≠ .residue)) := by
  have hFit : ∀ definition ∈ settled source.toList language options root,
      definition.span.Fits source.toList := (settled_apart h).fit
  rw [filter_ofTree h, List.forall₂_map_right_iff]
  rw [Definition.all, List.forall₂_map_left_iff] at hSettled
  have hBoth := ((List.forall₂_and_left _ _).mpr ⟨hFit, hSettled.flip⟩).flip
  exact hBoth.imp fun found definition hHere => ⟨definition, hHere.2, hHere.1, rfl⟩

/-- **The chunks that are no residue are those of the matches**, one by one, in
a tree with plain matches. -/
theorem forall₂_ofTree {source : String} (h : root.WellFormed source.toList)
    (hPlain : ∀ located ∈ (DefinitionRules.of language options).outermost root,
      (DefinitionRules.of language options).Plain located) :
    List.Forall₂ (OfMatch source.toList (DefinitionRules.of language options))
      ((DefinitionRules.of language options).matchesBelow [] root)
      ((ofTree source filePath language options root).filter (·.granularity ≠ .residue)) := by
  have hSettles := Partition.settle_settles (Definition.all_apart h hPlain) (Definition.all_fit _ h)
  refine (forall₂_of_settled h hSettles).imp ?_
  rintro found chunk ⟨definition, ⟨hSame, hStart, hStop, hBlank⟩, hFits, rfl⟩
  rw [Match.ofMatch_span] at hStart hStop hBlank
  have hDocstring := congrArg Definition.docstring hSame
  exact
    { spans := rfl
      fits := hFits
      text := String.toList_ofList
      docstring := hDocstring
      start := hStart
      stop := hStop
      blank := hBlank }

end Chunk

/-! ### The file with an accent and a comment -/

namespace Accent

theorem wellFormed : tree.WellFormed Accent.source.toList := by decide

theorem plain : ∀ located ∈ (DefinitionRules.of .python ⟨.functions, true⟩).outermost tree,
    (DefinitionRules.of .python ⟨.functions, true⟩).Plain located := by decide

/-- Its functions and the comment before them start with ink. -/
theorem inkFirst : ∀ located ∈ (DefinitionRules.of .python ⟨.functions, true⟩).outermost tree,
    located.node.span.InkFirst Accent.source.toList ∧
      (DefinitionRules.of .python ⟨.functions, true⟩).InkBeside Accent.source.toList located := by
  decide

theorem language : Language.ofPath? "a.py" = some .python := by decide

end Accent

end SourceIndex
