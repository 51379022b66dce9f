import SourceIndex.Proofs.Chunk.Attached
import SourceIndex.Proofs.Pairing

/-!
# What is kept in one chunk

Settling may trim a definition or drop it, where another one reaches over it.
A part of the source that some definition holds still stays in one chunk as
long as no definition that starts before it ends in the middle of it.  Whether
one does is a question about the tree: another match lies before the node in
question or after it, or else it is reached through the same children.  This
needs no assumption on where comments and attributes stand, and also holds for
nodes without a byte.

## Main results

* `Located.reached_cases` — where another node can be.
* `DefinitionRules.exists_outermost` — what matches is inside something outermost.
* `Partition.settle_keeps` — settling keeps what no definition cuts.
* `DefinitionRules.spares_of_children` — what the definitions of a tree cut.
* `Chunk.exists_owner` — and a chunk owns it.
-/

namespace SourceIndex

variable {source : List Char}

theorem Span.Within.trans {inner middle outer : Span} (h : inner.Within middle)
    (hOuter : middle.Within outer) : inner.Within outer :=
  ⟨Nat.le_trans hOuter.1 h.1, Nat.le_trans h.2 hOuter.2⟩

/-- Of items in the order of their spans, two are the same or one of them ends
before the other starts. -/
theorem Span.pair_of_pairwise {α : Type} (span : α → Span) {items : List α}
    (h : items.Pairwise fun a b => (span a).stop ≤ (span b).start) {first second : α}
    (hFirst : first ∈ items) (hSecond : second ∈ items) :
    first = second ∨ (span first).stop ≤ (span second).start ∨
      (span second).stop ≤ (span first).start :=
  List.Pairwise.forall_of_forall_of_flip
    (R := fun a b => a = b ∨ (span a).stop ≤ (span b).start ∨ (span b).stop ≤ (span a).start)
    (fun _ _ => .inl rfl) (h.imp fun hBefore => .inr (.inl hBefore))
    (h.imp fun hBefore => .inr (.inr hBefore)) hFirst hSecond

/-! ## Places of nodes -/

/-- Siblings come in order. -/
theorem Node.Row.pairwise {nodes : List Node} {start stop : Nat}
    (h : Node.Row source start stop nodes) :
    nodes.Pairwise fun a b => a.span.stop ≤ b.span.start := by
  induction nodes generalizing start with
  | nil => exact .nil
  | cons node rest ih =>
      refine List.pairwise_cons.mpr ⟨?_, ih h.2.2⟩
      exact fun later hLater => (h.2.2.mem hLater).2.1

namespace Located

/-- A node that is reached lies inside the node from which it is, and so does
its parent. -/
structure Inside (source : List Char) (node : Node) (located : Located) : Prop where
  wellFormed : located.node.WellFormed source
  within : located.node.span.Within node.span
  parent : ∃ parent upper, located.ancestors = parent :: upper ∧
    located.node ∈ parent.children ∧ parent.WellFormed source ∧ parent.span.Within node.span

theorem reachedBelow_inside (node : Node) :
    ∀ ancestors : List Node, node.WellFormed source →
      ∀ located ∈ reachedBelow ancestors node, located.Inside source node := by
  induction node using Node.childInduction with
  | step node ih =>
      intro ancestors hNode located hLocated
      rw [reachedBelow_eq] at hLocated
      obtain ⟨child, hChild, _, hReached⟩ := mem_reachedAmong.mp hLocated
      obtain ⟨hWellFormed, hWithin⟩ := hNode.of_mem_children hChild
      rcases hReached with rfl | hDeeper
      · exact ⟨hWellFormed, hWithin, node, ancestors, rfl, hChild, hNode, Nat.le_refl _,
          Nat.le_refl _⟩
      · have hInside := ih child hChild (node :: ancestors) hWellFormed located hDeeper
        obtain ⟨parent, upper, hAncestors, hMem, hParent, hAbove⟩ := hInside.parent
        exact ⟨hInside.wellFormed, hInside.within.trans hWithin, parent, upper, hAncestors, hMem,
          hParent, hAbove.trans hWithin⟩

/-- A node and what it reaches lie inside it. -/
theorem span_within {node : Node} (h : node.WellFormed source) {ancestors : List Node}
    {located : Located}
    (hReached : located = ⟨node, ancestors⟩ ∨ located ∈ reachedBelow ancestors node) :
    located.node.span.Within node.span ∧ located.node.span.start ≤ located.node.span.stop := by
  rcases hReached with rfl | hBelow
  · exact ⟨⟨Nat.le_refl _, Nat.le_refl _⟩, h.fits.ordered⟩
  · have hInside := reachedBelow_inside node ancestors h located hBelow
    exact ⟨hInside.within, hInside.wellFormed.fits.ordered⟩

/-- **Where another node can be**: it ends before the parent of a reached node
starts, or not before this parent ends, or it is reached through one of the
children of this parent. -/
theorem reached_cases (node : Node) :
    ∀ ancestors : List Node, node.WellFormed source →
      ∀ located ∈ reachedBelow ancestors node, ∀ other ∈ reachedBelow ancestors node,
      ∀ parent upper, located.ancestors = parent :: upper →
        other.node.span.stop ≤ parent.span.start ∨ parent.span.stop ≤ other.node.span.stop ∨
          ∃ child ∈ parent.children,
            other = ⟨child, parent :: upper⟩ ∨ other ∈ reachedBelow (parent :: upper) child := by
  induction node using Node.childInduction with
  | step node ih =>
      intro ancestors hNode located hLocated other hOther parent upper hAncestors
      rw [reachedBelow_eq] at hLocated hOther
      obtain ⟨child, hChild, _, hReached⟩ := mem_reachedAmong.mp hLocated
      obtain ⟨second, hSecond, _, hOtherReached⟩ := mem_reachedAmong.mp hOther
      rcases hReached with rfl | hDeeper
      · obtain ⟨rfl, rfl⟩ := List.cons.inj hAncestors
        exact .inr (.inr ⟨second, hSecond, hOtherReached⟩)
      · have hChildWellFormed := (hNode.of_mem_children hChild).1
        have hParent : parent.span.Within child.span := by
          obtain ⟨above, _, hAbove, _, _, hWithin⟩ := (reachedBelow_inside child
            (node :: ancestors) hChildWellFormed located hDeeper).parent
          obtain ⟨rfl, _⟩ := List.cons.inj (hAbove.symm.trans hAncestors)
          exact hWithin
        obtain ⟨hOtherWithin, hOrder⟩ :=
          span_within (hNode.of_mem_children hSecond).1 hOtherReached
        have hFrom := hParent.1
        have hTo := hParent.2
        have hOtherFrom := hOtherWithin.1
        have hOtherTo := hOtherWithin.2
        rcases Span.pair_of_pairwise Node.span hNode.row.pairwise hChild hSecond with
          rfl | hAfter | hBefore
        · rcases hOtherReached with rfl | hBelow
          · exact .inr (.inl hTo)
          · exact ih child hChild (node :: ancestors) hChildWellFormed located hDeeper other
              hBelow parent upper hAncestors
        · exact .inr (.inl (by omega))
        · exact .inl (by omega)

end Located

/-! ## Outermost matches -/

namespace DefinitionRules

variable (rules : DefinitionRules)

/-- What matches is outermost or below something that is. -/
theorem exists_outermost_of (node : Node) :
    ∀ ancestors : List Node, rules.isOpen (node :: ancestors) = true →
      ∀ located ∈ Located.reachedBelow ancestors node,
        (rules.definition? located).isSome = true →
        ∃ top ∈ Located.reachedBelow ancestors node, rules.isOutermost top = true ∧
          (located = top ∨ located ∈ Located.reachedBelow top.ancestors top.node) := by
  induction node using Node.childInduction with
  | step node ih =>
      intro ancestors hOpen located hLocated hMatch
      rw [Located.reachedBelow_eq] at hLocated ⊢
      obtain ⟨child, hChild, hNamed, hReached⟩ := Located.mem_reachedAmong.mp hLocated
      by_cases hHere : (rules.definition? ⟨child, node :: ancestors⟩).isSome = true
      · refine ⟨⟨child, node :: ancestors⟩, ?_, ?_, hReached⟩
        · exact Located.mem_reachedAmong.mpr ⟨child, hChild, hNamed, .inl rfl⟩
        · rwa [rules.isOutermost_of_isOpen hOpen]
      · have hNone : rules.definition? ⟨child, node :: ancestors⟩ = none := by
          simpa using hHere
        rcases hReached with rfl | hDeeper
        · exact absurd hMatch hHere
        · obtain ⟨top, hTop, hOutermost, hBelow⟩ := ih child hChild (node :: ancestors)
            (rules.isOpen_below (List.cons_ne_nil node ancestors) hOpen hNone) located hDeeper
            hMatch
          refine ⟨top, ?_, hOutermost, hBelow⟩
          exact Located.mem_reachedAmong.mpr ⟨child, hChild, hNamed, .inr hTop⟩

/-- **What matches is inside something outermost.** -/
theorem exists_outermost {root : Node} (h : root.WellFormed source) {located : Located}
    (hLocated : located ∈ Located.reachedBelow [] root)
    (hMatch : (rules.definition? located).isSome = true) :
    ∃ top ∈ rules.outermost root, located.node.span.Within top.node.span := by
  obtain ⟨top, hTop, hOutermost, hBelow⟩ :=
    rules.exists_outermost_of root [] rfl located hLocated hMatch
  refine ⟨top, List.mem_filter.mpr ⟨hTop, hOutermost⟩, ?_⟩
  have hWellFormed := (Located.reachedBelow_inside root [] h top hTop).wellFormed
  exact (Located.span_within hWellFormed hBelow).1

variable {rules} in
/-- What encloses an outermost match does not match. -/
theorem definition?_of_enclosing {located outer : Located}
    (h : rules.isOutermost located = true) (hOuter : outer ∈ located.enclosing) :
    rules.definition? outer = none := by
  have hNone := List.all_eq_true.mp (Bool.and_eq_true_iff.mp h).2 outer hOuter
  exact Option.isNone_iff_eq_none.mp hNone

/-- Nothing that an outermost match reaches is outermost. -/
theorem not_outermost_below {root : Node} {top other : Located}
    (hTop : top ∈ rules.outermost root) (hAncestors : top.ancestors ≠ [])
    (hBelow : other ∈ Located.reachedBelow top.ancestors top.node) :
    other ∉ rules.outermost root := by
  intro hOther
  have hMatch := (Bool.and_eq_true_iff.mp (List.mem_filter.mp hTop).2).1
  have hNone : rules.definition? top = none :=
    definition?_of_enclosing (List.mem_filter.mp hOther).2 (Located.mem_enclosing hAncestors hBelow)
  rw [hNone] at hMatch
  cases hMatch

/-! ### Matches of siblings -/

variable {rules}

theorem matchesAmong_append (ancestors : List Node) (front rest : List Node) :
    ∀ before, rules.matchesAmong ancestors before (front ++ rest) =
      rules.matchesAmong ancestors before front ++
        rules.matchesAmong ancestors (front.reverse ++ before) rest := by
  induction front with
  | nil =>
      intro before
      rw [matchesAmong]
      rfl
  | cons node front ih =>
      intro before
      rw [List.cons_append, matchesAmong_cons, matchesAmong_cons, ih, List.append_assoc,
        List.reverse_cons, List.append_assoc]
      rfl

/-- What is found at a sibling is found among the siblings. -/
theorem matchesAt_subset {ancestors siblings front later : List Node} {node : Node}
    (hSiblings : siblings = front ++ node :: later) :
    rules.matchesAt ancestors front.reverse node ⊆ rules.matchesAmong ancestors [] siblings := by
  intro found hFound
  rw [hSiblings, matchesAmong_append, List.append_nil, matchesAmong_cons]
  exact List.mem_append_right _ (List.mem_append_left _ hFound)

/-- **The walk returns a match for each place of an outermost node** among the
children of its parent. -/
theorem exists_match_of (node : Node) :
    ∀ ancestors : List Node, rules.isOpen (node :: ancestors) = true →
      ∀ item ∈ Located.reachedBelow ancestors node, rules.isOutermost item = true →
      ∀ parent upper front later, item.ancestors = parent :: upper →
        parent.children = front ++ item.node :: later →
        ∃ inner, ⟨item.node, front.reverse, inner⟩ ∈ rules.matchesBelow ancestors node := by
  induction node using Node.childInduction with
  | step node ih =>
      intro ancestors hOpen item hItem hOutermost parent upper front later hAncestors hChildren
      rw [Located.reachedBelow_eq] at hItem
      rw [matchesBelow_eq]
      obtain ⟨child, hChild, hNamed, hReached⟩ := Located.mem_reachedAmong.mp hItem
      have hPath := List.cons_ne_nil node ancestors
      rcases hReached with rfl | hDeeper
      · obtain ⟨rfl, rfl⟩ := List.cons.inj hAncestors
        rw [rules.isOutermost_of_isOpen hOpen] at hOutermost
        obtain ⟨inner, hInner⟩ := Option.isSome_iff_exists.mp hOutermost
        refine ⟨inner, matchesAt_subset hChildren ?_⟩
        rw [matchesAt, if_pos hNamed, hInner]
        exact List.mem_singleton.mpr rfl
      · have hNone : rules.definition? ⟨child, node :: ancestors⟩ = none :=
          definition?_of_enclosing hOutermost (Located.mem_enclosing hPath hDeeper)
        obtain ⟨inner, hFound⟩ := ih child hChild (node :: ancestors)
          (rules.isOpen_below hPath hOpen hNone) item hDeeper hOutermost parent upper front later
          hAncestors hChildren
        obtain ⟨before, after, hSplit⟩ := List.append_of_mem hChild
        refine ⟨inner, matchesAt_subset hSplit ?_⟩
        rw [matchesAt, if_pos hNamed, hNone]
        exact hFound

/-! ### Where definitions start -/

variable (source) in
/-- A definition starts with the node that matched, or with a comment or an
attribute beside it. -/
theorem Placed.start_cases {found : Match} {located : Located} (h : rules.Placed found located)
    {parent : Node} (hParent : located.parent? = some parent) :
    ∃ node ∈ parent.children, (node = located.node ∨ rules.attaches node = true) ∧
      found.start source rules = node.span.start := by
  rcases Definition.frontier_eq_or_mem found.outer.span.start (found.attached source rules) with
    hSame | ⟨node, hNode, hStart⟩
  · obtain ⟨above, after, hAbove, hChildren⟩ := h.siblings
    obtain rfl : parent = above := Option.some.inj (hParent.symm.trans hAbove)
    refine ⟨located.node, ?_, .inl rfl, ?_⟩
    · rw [hChildren]
      exact List.mem_append_right _ List.mem_cons_self
    · rw [← h.outer]
      exact hSame
  · obtain ⟨hAttaches, above, hAbove, hChild⟩ := Match.mem_children_of_attached h hNode
    obtain rfl : parent = above := Option.some.inj (hParent.symm.trans hAbove)
    exact ⟨node, hChild, .inr hAttaches, hStart.symm⟩

/-- A definition starts inside the parent of the node that matched. -/
theorem Placed.parent_start_le {found : Match} {located : Located}
    (h : rules.Placed found located) {parent : Node} (hParent : located.parent? = some parent)
    (hWellFormed : parent.WellFormed source) :
    parent.span.start ≤ found.start source rules := by
  obtain ⟨node, hNode, _, hStart⟩ := h.start_cases source hParent
  rw [hStart]
  exact (hWellFormed.of_mem_children hNode).2.1

/-- A definition that is reached from a node starts inside it. -/
theorem Placed.reached_start_le {found : Match} {other : Located}
    (h : rules.Placed found other) {node : Node} (hWellFormed : node.WellFormed source)
    {ancestors : List Node} (hBelow : other ∈ Located.reachedBelow ancestors node) :
    node.span.start ≤ found.start source rules := by
  obtain ⟨parent, _, hAncestors, _, hParentWellFormed, hInside⟩ :=
    (Located.reachedBelow_inside node ancestors hWellFormed other hBelow).parent
  have hParent : other.parent? = some parent := by
    rw [Located.parent?, hAncestors]
    rfl
  have hStart := h.parent_start_le hParent hParentWellFormed
  exact Nat.le_trans hInside.1 hStart

end DefinitionRules

/-! ## What settling keeps -/

namespace Partition

/-- A definition does not cut a part of the source: it ends before this part,
or not before the part does, or it starts in the middle of it. -/
def Spares (target : Span) (definition : Definition) : Prop :=
  definition.span.stop ≤ target.start ∨ target.stop ≤ definition.span.stop ∨
    target.start < definition.span.start

variable {target : Span} {definitions : List Definition}

/-- Among definitions in the order of their starts, one that holds a part of
the source keeps it when none of them cuts it. -/
theorem disjoint_keeps (hSize : target.start < target.stop) :
    ∀ {previous : Nat}, previous ≤ target.start →
      definitions.Pairwise (fun a b => a.span.start ≤ b.span.start) →
      (∀ definition ∈ definitions, Spares target definition) →
      (∃ definition ∈ definitions, target.Within definition.span) →
      ∃ kept ∈ disjoint previous definitions, target.Within kept.span := by
  induction definitions with
  | nil => exact fun _ _ _ hHolds => absurd hHolds (by simp)
  | cons definition rest ih =>
      intro previous hPrevious hOrder hSpares hHolds
      obtain ⟨hFirst, hRestOrder⟩ := List.pairwise_cons.mp hOrder
      have hStart : definition.span.start ≤ target.start := by
        obtain ⟨holder, hHolder, hWithin⟩ := hHolds
        have hFrom := hWithin.1
        rcases List.mem_cons.mp hHolder with rfl | hLater
        · exact hFrom
        · have hBefore := hFirst holder hLater
          omega
      have hRestSpares : ∀ other ∈ rest, Spares target other := fun other hOther =>
        hSpares other (List.mem_cons_of_mem definition hOther)
      rw [disjoint]
      by_cases hStop : target.stop ≤ definition.span.stop
      · have hKept : max definition.span.start previous < definition.span.stop := by omega
        have hFrom : max definition.span.start previous ≤ target.start := by omega
        rw [if_pos hKept]
        exact ⟨_, List.mem_cons_self, hFrom, hStop⟩
      · -- The first definition ends before the part, so one of the others holds it.
        have hEnd : definition.span.stop ≤ target.start := by
          have hHere := hSpares definition List.mem_cons_self
          unfold Spares at hHere
          omega
        have hRest : ∃ other ∈ rest, target.Within other.span := by
          obtain ⟨holder, hHolder, hWithin⟩ := hHolds
          rcases List.mem_cons.mp hHolder with rfl | hLater
          · exact absurd hWithin.2 hStop
          · exact ⟨holder, hLater, hWithin⟩
        split
        · obtain ⟨kept, hKept, hWithin⟩ := ih hEnd hRestOrder hRestSpares hRest
          exact ⟨kept, List.mem_cons_of_mem _ hKept, hWithin⟩
        · exact ih hPrevious hRestOrder hRestSpares hRest

/-- **Settling keeps in one definition what one of them holds and none cuts.** -/
theorem settle_keeps (hFit : ∀ definition ∈ definitions, definition.span.Fits source)
    (hSize : target.start < target.stop)
    (hSpares : ∀ definition ∈ definitions, Spares target definition)
    (hHolds : ∃ definition ∈ definitions, target.Within definition.span) :
    ∃ kept ∈ settle source definitions, target.Within kept.span := by
  have hSettled := disjoint_sorted_apart hFit
  obtain ⟨kept, hKept, hWithin⟩ := disjoint_keeps hSize (Nat.zero_le _)
    (Sorting.pairwise_sortBy (fun definition : Definition => definition.span.start) definitions)
    (fun definition hMem => hSpares definition (List.mem_mergeSort.mp hMem))
    (by simpa only [List.mem_mergeSort] using hHolds)
  have hSettles := settles_ownPrologue (ownBlanks_apart hSettled).fit (settles_ownBlanks hSettled)
  obtain ⟨owner, hOwner, hOwns⟩ := Pairing.exists_right hSettles hKept
  have hFrom := hWithin.1
  have hTo := hWithin.2
  have hStart := hOwns.start
  have hStop := hOwns.stop
  exact ⟨owner, hOwner, by omega, by omega⟩

/-- Definitions in the order of their starts need no sorting. -/
theorem settle_of_sorted (h : definitions.Pairwise fun a b => a.span.start ≤ b.span.start) :
    settle source definitions = ownPrologue source (ownBlanks source (disjoint 0 definitions)) := by
  rw [settle, Sorting.sortBy_eq_self (fun definition : Definition => definition.span.start) h]

end Partition

namespace DefinitionRules

variable {rules : DefinitionRules}

/-- **What the definitions of a tree do not cut**: a part of the parent of a
node, when those that are reached through the children of this parent do not
cut it. -/
theorem spares_of_children {root : Node} (h : root.WellFormed source) {located : Located}
    (hLocated : located ∈ Located.reachedBelow [] root) {parent : Node} {upper : List Node}
    (hAncestors : located.ancestors = parent :: upper) {target : Span}
    (hTarget : target.Within parent.span)
    (hChildren : ∀ child ∈ parent.children, ∀ other ∈ rules.outermost root,
      (other = ⟨child, parent :: upper⟩ ∨
        other ∈ Located.reachedBelow (parent :: upper) child) →
      ∀ found, rules.Placed found other →
        Partition.Spares target (Definition.ofMatch source rules found)) :
    ∀ definition ∈ Definition.all source rules root, Partition.Spares target definition := by
  intro definition hDefinition
  obtain ⟨found, hFound, rfl⟩ := List.mem_map.mp hDefinition
  obtain ⟨other, hOther, hPlaced⟩ := Pairing.exists_right (rules.matchesBelow_placed root) hFound
  have hFrom := hTarget.1
  have hTo := hTarget.2
  rcases Located.reached_cases root [] h located hLocated other (List.mem_filter.mp hOther).1
    parent upper hAncestors with hBefore | hBehind | ⟨child, hChild, hReached⟩
  · left
    rw [Match.ofMatch_span, hPlaced.outer]
    exact Nat.le_trans hBefore hFrom
  · right; left
    rw [Match.ofMatch_span, hPlaced.outer]
    exact Nat.le_trans hTo hBehind
  · exact hChildren child hChild other hOther hReached found hPlaced

end DefinitionRules

namespace Chunk

/-! ## What chunks own -/

/-- A chunk of a definition owns a part of the source: it holds all of it, and
no other chunk holds a byte of it. -/
structure Owns (chunks : List Chunk) (chunk : Chunk) (target : Span) : Prop where
  mem : chunk ∈ chunks
  definition : chunk.granularity ≠ .residue
  spans : chunk.spans = [chunk.range]
  inside : target.Within chunk.range
  others : ∀ other ∈ chunks, other ≠ chunk → ∀ span ∈ other.spans, ∀ byte,
    target.Holds byte → ¬ span.Holds byte

theorem Owns.mono {chunks : List Chunk} {chunk : Chunk} {target part : Span}
    (h : Owns chunks chunk target) (hPart : part.Within target) : Owns chunks chunk part where
  mem := h.mem
  definition := h.definition
  spans := h.spans
  inside := hPart.trans h.inside
  others other hOther hNe span hSpan byte hByte := by
    have hFrom := hPart.1
    have hTo := hPart.2
    obtain ⟨hStart, hStop⟩ := hByte
    exact h.others other hOther hNe span hSpan byte ⟨by omega, by omega⟩

variable {filePath : String} {language : Language} {strategy : Strategy}

/-- The chunk of a settled definition owns what the definition holds. -/
theorem owns_of_settled {definitions : List Definition}
    (h : Partition.Settled source 0 definitions) {definition : Definition}
    (hDefinition : definition ∈ definitions) {target : Span}
    (hWithin : target.Within definition.span) :
    Owns ((unsorted source filePath language strategy definitions).mergeSort
        fun a b => a.range.start ≤ b.range.start)
      (ofDefinition source filePath language strategy definition) target := by
  have hFrom := hWithin.1
  have hTo := hWithin.2
  refine ⟨?_, granularity_ofStrategy strategy, rfl, hWithin, ?_⟩
  · exact List.mem_mergeSort.mpr (List.mem_append_left _ (List.mem_map_of_mem hDefinition))
  · intro other hOther hNe span hSpan byte hByte hHolds
    obtain ⟨hStart, hStop⟩ := hByte
    obtain ⟨hSpanStart, hSpanStop⟩ := hHolds
    rcases mem_unsorted (List.mem_mergeSort.mp hOther) with ⟨second, hSecond, rfl⟩ | hResidue
    · have hSpans : span = second.span := List.mem_singleton.mp hSpan
      rw [hSpans] at hSpanStart hSpanStop
      rcases Span.pair_of_pairwise Definition.span (List.pairwise_map.mp h.apart.pairwise)
        hDefinition hSecond with rfl | hApart
      · exact hNe rfl
      · omega
    · rw [(ofResidue?_eq_some hResidue).1] at hSpan
      have hOutside := Span.gaps_outside h.apart (List.mem_map_of_mem hDefinition) hSpan
      omega

variable {options : ChunkOptions} {root : Node}

/-- The spans of a chunk are that of a settled definition, or the residue. -/
theorem spans_of_mem_ofTree {text : String} {chunk : Chunk}
    (h : chunk ∈ ofTree text filePath language options root) :
    (∃ span ∈ (settled text.toList language options root).map (·.span), chunk.spans = [span]) ∨
      chunk.spans = Partition.residue text.toList (settled text.toList language options root) := by
  rw [ofTree_eq_sorted, List.mem_mergeSort] at h
  rcases mem_unsorted h with ⟨definition, hDefinition, rfl⟩ | hResidue
  · exact .inl ⟨definition.span, List.mem_map_of_mem hDefinition, rfl⟩
  · exact .inr (ofResidue?_eq_some hResidue).1

/-- A chunk holds all bytes of a part of the source. -/
def Holds (chunk : Chunk) (part : Span) : Prop :=
  ∀ byte, part.Holds byte → ∃ span ∈ chunk.spans, span.Holds byte

theorem Holds.of_spans {chunk : Chunk} {part span : Span} (h : chunk.Holds part)
    (hSpans : chunk.spans = [span]) (byte : Nat) (hByte : part.Holds byte) : span.Holds byte := by
  obtain ⟨own, hOwn, hHolds⟩ := h byte hByte
  rw [hSpans, List.mem_singleton] at hOwn
  exact hOwn ▸ hHolds

/-- **A chunk owns what a definition of the tree holds and none cuts.** -/
theorem exists_owner {text : String}
    (h : root.WellFormed text.toList) {target : Span} (hSize : target.start < target.stop)
    (hSpares : ∀ definition ∈ Definition.all text.toList (.of language options) root,
      Partition.Spares target definition)
    (hHolds : ∃ definition ∈ Definition.all text.toList (.of language options) root,
      target.Within definition.span) :
    ∃ chunk, Owns (ofTree text filePath language options root) chunk target := by
  obtain ⟨kept, hKept, hWithin⟩ :=
    Partition.settle_keeps (Definition.all_fit _ h) hSize hSpares hHolds
  rw [ofTree_eq_sorted]
  exact ⟨_, owns_of_settled (settled_apart h) hKept hWithin⟩

end Chunk

end SourceIndex
