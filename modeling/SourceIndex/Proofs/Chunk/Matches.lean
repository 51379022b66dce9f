import SourceIndex.Chunk.Definition
import SourceIndex.Proofs.SyntaxTree.WellFormed

/-!
# Matches in well-formed trees

A match keeps three nodes of the tree: the matching node, the siblings before
it, and the definition that it is or wraps.  In a well-formed tree all of them
are well formed, and the siblings before a match lie before it, each one
before the next.  This is all that the rules on names, comments and
boundaries need to know about the tree, so no module after this one looks at
the tree walk again for it.

## Main results

* `DefinitionRules.definition?_wellFormed` — what a node is or wraps.
* `DefinitionRules.matchesBelow_wellFormed` — every match of a tree.
-/

namespace SourceIndex

namespace Node

/-- Well-formed siblings before an offset, the nearest first, each of which
ends before the one after it starts. -/
def Preceding (source : List Char) (start : Nat) : List Node → Prop
  | [] => True
  | node :: before =>
      node.WellFormed source ∧ node.span.stop ≤ start ∧
        Preceding source node.span.start before

theorem Preceding.mono {source : List Char} {start start' : Nat} {before : List Node}
    (h : Preceding source start before) (hLe : start ≤ start') :
    Preceding source start' before := by
  cases before with
  | nil => trivial
  | cons node before =>
      obtain ⟨hNode, hStop, hBefore⟩ := h
      exact ⟨hNode, by omega, hBefore⟩

/-- Siblings before an offset are well formed. -/
theorem Preceding.mem {source : List Char} {start : Nat} {before : List Node}
    (h : Preceding source start before) {node : Node} (hMem : node ∈ before) :
    node.WellFormed source := by
  induction before generalizing start with
  | nil => cases hMem
  | cons first before ih =>
      obtain ⟨hFirst, _, hBefore⟩ := h
      rcases List.mem_cons.mp hMem with rfl | hEarlier
      · exact hFirst
      · exact ih hBefore hEarlier

end Node

/-- A match whose nodes are well formed and in the order of the source. -/
structure Match.WellFormed (source : List Char) (found : Match) : Prop where
  outer : found.outer.WellFormed source
  before : Node.Preceding source found.outer.span.start found.before
  inner : found.inner.WellFormed source

namespace DefinitionRules

variable {source : List Char} (rules : DefinitionRules)

/-! ## The definition of a node -/

theorem bound?_wellFormed {located found : Located} (h : located.WellFormed source)
    (hFound : rules.bound? located = some found) : found.WellFormed source := by
  unfold bound? at hFound
  split at hFound
  · exact h.of_mem_namedChildren (List.mem_of_find?_eq_some hFound)
  · cases hFound

theorem direct?_wellFormed {located found : Located} (h : located.WellFormed source)
    (hFound : rules.direct? located = some found) : found.WellFormed source := by
  unfold direct? at hFound
  split at hFound
  · cases hFound
    exact h
  · exact rules.bound?_wellFormed h hFound

/-- What a well-formed node is or wraps is well formed. -/
theorem definition?_wellFormed {located found : Located} (h : located.WellFormed source)
    (hFound : rules.definition? located = some found) : found.WellFormed source := by
  unfold definition? at hFound
  split at hFound
  · next hDirect =>
      cases hFound
      exact rules.direct?_wellFormed h hDirect
  · split at hFound
    · split at hFound
      · next hWrapped =>
          cases hFound
          obtain ⟨child, hChild, hDirect⟩ := List.exists_of_findSome?_eq_some hWrapped
          exact rules.direct?_wellFormed (h.of_mem_namedChildren hChild) hDirect
      · exact h.of_child? (Option.filter_eq_some_iff.mp hFound).1
    · cases hFound

/-! ## The walk -/

theorem matchesBelow_eq (ancestors : List Node) (node : Node) :
    rules.matchesBelow ancestors node =
      rules.matchesAmong (node :: ancestors) [] node.children := by
  cases node with
  | mk => rw [matchesBelow]

/-- The matches of one sibling: itself, or those below it. -/
def matchesAt (ancestors before : List Node) (node : Node) : List Match :=
  if node.named then
    match rules.definition? ⟨node, ancestors⟩ with
    | some inner => [⟨node, before, inner⟩]
    | none => rules.matchesBelow ancestors node
  else []

theorem matchesAmong_cons (ancestors before : List Node) (node : Node) (rest : List Node) :
    rules.matchesAmong ancestors before (node :: rest) =
      rules.matchesAt ancestors before node ++
        rules.matchesAmong ancestors (node :: before) rest := by
  rw [matchesAmong]
  rfl

/-- The matches among siblings are well formed, given that the matches below
each of them are. -/
private theorem matchesAmong_wellFormed {ancestors : List Node}
    (hAncestors : ∀ ancestor ∈ ancestors, ancestor.WellFormed source)
    {parent : Node} (hParent : ancestors.head? = some parent) :
    ∀ (siblings before : List Node) (start : Nat),
      (∀ node ∈ siblings, node.span.Within parent.span ∧
        ∀ found ∈ rules.matchesBelow ancestors node, found.WellFormed source) →
      Node.Row source start parent.span.stop siblings →
      Node.Preceding source start before →
      ∀ found ∈ rules.matchesAmong ancestors before siblings, found.WellFormed source := by
  intro siblings
  induction siblings with
  | nil =>
      intro before start _ _ _ found hFound
      simp [matchesAmong] at hFound
  | cons node rest ih =>
      intro before start hBelow hRow hBefore found hFound
      obtain ⟨hStart, hNode, hRest⟩ := hRow
      have hPreceding : Node.Preceding source node.span.start before := hBefore.mono hStart
      rw [matchesAmong_cons] at hFound
      rcases List.mem_append.mp hFound with hHere | hLater
      · unfold matchesAt at hHere
        split at hHere
        · split at hHere
          · next inner hInner =>
              have hLocated : (Located.mk node ancestors).WellFormed source := by
                refine ⟨hNode, hAncestors, ?_⟩
                intro above hAbove
                have hEq : parent = above := Option.some.inj (hParent.symm.trans hAbove)
                exact hEq ▸ (hBelow node List.mem_cons_self).1
              obtain rfl := List.mem_singleton.mp hHere
              exact ⟨hNode, hPreceding, rules.definition?_wellFormed hLocated hInner⟩
          · exact (hBelow node List.mem_cons_self).2 found hHere
        · cases hHere
      · refine ih (node :: before) node.span.stop ?_ hRest ?_ found hLater
        · exact fun other hOther => hBelow other (List.mem_cons_of_mem node hOther)
        · exact ⟨hNode, Nat.le_refl _, hPreceding⟩

/-- **The matches of a well-formed tree are well formed.** -/
theorem matchesBelow_wellFormed (node : Node) :
    ∀ ancestors : List Node, node.WellFormed source →
      (∀ ancestor ∈ ancestors, ancestor.WellFormed source) →
      ∀ found ∈ rules.matchesBelow ancestors node, found.WellFormed source := by
  induction node using Node.childInduction with
  | step node ih =>
      intro ancestors hNode hAncestors found hFound
      have hPath : ∀ ancestor ∈ node :: ancestors, ancestor.WellFormed source := by
        intro ancestor hAncestor
        rcases List.mem_cons.mp hAncestor with rfl | hAbove
        · exact hNode
        · exact hAncestors ancestor hAbove
      rw [matchesBelow_eq] at hFound
      refine rules.matchesAmong_wellFormed hPath rfl node.children [] node.span.start ?_
        hNode.row trivial found hFound
      intro child hChild
      obtain ⟨hWellFormed, hWithin⟩ := hNode.of_mem_children hChild
      exact ⟨hWithin, ih child hChild (node :: ancestors) hWellFormed hPath⟩

theorem matchesBelow_root_wellFormed {root : Node} (h : root.WellFormed source) :
    ∀ found ∈ rules.matchesBelow [] root, found.WellFormed source :=
  rules.matchesBelow_wellFormed root [] h nofun

end DefinitionRules

end SourceIndex
