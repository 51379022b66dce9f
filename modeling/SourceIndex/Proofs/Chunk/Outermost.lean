import Mathlib.Data.List.Forall2
import SourceIndex.Proofs.Chunk.Matches

/-!
# The outermost matching nodes

The walk over a tree stops at each node that matches, so it never meets a
match inside another one.  What it returns is said here without the walk: list
the nodes below the root that named children lead to, parents before their
children, and keep those that match and of whose ancestors below the root none
does.

## Main results

* `Located.mem_enclosing` — a node below the root encloses what it reaches.
* `DefinitionRules.matchesBelow_placed` — the walk returns a match for each
  outermost matching node, in order.
-/

namespace SourceIndex

namespace Located

mutual

/-- The nodes below a node that named children lead to, parents first. -/
def reachedBelow (ancestors : List Node) : Node → List Located
  | ⟨kind, named, span, roles, children⟩ =>
      reachedAmong (⟨kind, named, span, roles, children⟩ :: ancestors) children

/-- Siblings that are named, and the nodes below each of them. -/
def reachedAmong (ancestors : List Node) : List Node → List Located
  | [] => []
  | node :: rest =>
      (if node.named then ⟨node, ancestors⟩ :: reachedBelow ancestors node else []) ++
        reachedAmong ancestors rest

end

/-- The ancestors of a node below the root, the nearest first, each with its
own ancestors. -/
def above : List Node → List Located
  | [] => []
  | [_] => []
  | node :: parent :: rest => ⟨node, parent :: rest⟩ :: above (parent :: rest)

/-- The nodes below the root that enclose a node. -/
def enclosing (located : Located) : List Located := above located.ancestors

theorem reachedBelow_eq (ancestors : List Node) (node : Node) :
    reachedBelow ancestors node = reachedAmong (node :: ancestors) node.children := by
  cases node with
  | mk => rw [reachedBelow]

theorem above_cons {ancestors : List Node} (hBelow : ancestors ≠ []) (node : Node) :
    above (node :: ancestors) = ⟨node, ancestors⟩ :: above ancestors := by
  cases ancestors with
  | nil => exact absurd rfl hBelow
  | cons parent rest => rfl

/-- Among siblings, the walk reaches the named ones and what is below them. -/
theorem mem_reachedAmong {ancestors siblings : List Node} {located : Located} :
    located ∈ reachedAmong ancestors siblings ↔
      ∃ node ∈ siblings, node.named = true ∧
        (located = ⟨node, ancestors⟩ ∨ located ∈ reachedBelow ancestors node) := by
  induction siblings with
  | nil =>
      rw [reachedAmong]
      constructor
      · exact fun h => by cases h
      · rintro ⟨node, hNode, _⟩
        cases hNode
  | cons first rest ih =>
      rw [reachedAmong, List.mem_append, ih]
      constructor
      · rintro (hHere | ⟨node, hNode, hReached⟩)
        · split at hHere
          · next hNamed =>
              exact ⟨first, List.mem_cons_self, hNamed, List.mem_cons.mp hHere⟩
          · cases hHere
        · exact ⟨node, List.mem_cons_of_mem first hNode, hReached⟩
      · rintro ⟨node, hNode, hNamed, hReached⟩
        rcases List.mem_cons.mp hNode with rfl | hLater
        · left
          rw [if_pos hNamed]
          exact List.mem_cons.mpr hReached
        · exact .inr ⟨node, hLater, hNamed, hReached⟩

/-- What encloses a node, and the node itself, enclose what it reaches. -/
theorem enclosing_mono (node : Node) :
    ∀ ancestors : List Node, ∀ located ∈ reachedBelow ancestors node,
      ∀ outer ∈ above (node :: ancestors), outer ∈ located.enclosing := by
  induction node using Node.childInduction with
  | step node ih =>
      intro ancestors located hLocated outer hOuter
      rw [reachedBelow_eq] at hLocated
      obtain ⟨child, hChild, _, rfl | hDeeper⟩ := mem_reachedAmong.mp hLocated
      · exact hOuter
      · refine ih child hChild (node :: ancestors) located hDeeper outer ?_
        rw [above_cons (List.cons_ne_nil node ancestors)]
        exact List.mem_cons_of_mem _ hOuter

/-- A node below the root encloses what it reaches. -/
theorem mem_enclosing {ancestors : List Node} (hBelow : ancestors ≠ []) {node : Node}
    {located : Located} (h : located ∈ reachedBelow ancestors node) :
    ⟨node, ancestors⟩ ∈ located.enclosing := by
  refine enclosing_mono node ancestors located h _ ?_
  rw [above_cons hBelow]
  exact List.mem_cons_self

end Located

namespace DefinitionRules

variable (rules : DefinitionRules)

/-- Whether a node matches and no node below the root that encloses it does. -/
def isOutermost (located : Located) : Bool :=
  (rules.definition? located).isSome &&
    located.enclosing.all fun outer => (rules.definition? outer).isNone

/-- The outermost matching nodes below a root, in preorder. -/
def outermost (root : Node) : List Located :=
  (Located.reachedBelow [] root).filter rules.isOutermost

/-- Whether no node among some ancestors, the root apart, matches. -/
def isOpen (ancestors : List Node) : Bool :=
  (Located.above ancestors).all fun outer => (rules.definition? outer).isNone

variable {ancestors : List Node}

theorem isOpen_cons (hBelow : ancestors ≠ []) (node : Node) :
    rules.isOpen (node :: ancestors) =
      ((rules.definition? ⟨node, ancestors⟩).isNone && rules.isOpen ancestors) := by
  rw [isOpen, Located.above_cons hBelow, List.all_cons, isOpen]

/-- Below a node that is no match itself, open ancestors stay open. -/
theorem isOpen_below (hBelow : ancestors ≠ []) (hOpen : rules.isOpen ancestors = true)
    {node : Node} (hNone : rules.definition? ⟨node, ancestors⟩ = none) :
    rules.isOpen (node :: ancestors) = true := by
  rw [rules.isOpen_cons hBelow, hNone, hOpen]
  rfl

/-- Where the ancestors are open, a match is outermost. -/
theorem isOutermost_of_isOpen (hOpen : rules.isOpen ancestors = true) (node : Node) :
    rules.isOutermost ⟨node, ancestors⟩ = (rules.definition? ⟨node, ancestors⟩).isSome := by
  have hEnclosing : ((Located.mk node ancestors).enclosing.all fun outer =>
      (rules.definition? outer).isNone) = true := hOpen
  rw [isOutermost, hEnclosing, Bool.and_true]

/-! ## The walk returns them -/

/-- Nothing below a match is outermost. -/
private theorem filter_below_match (hBelow : ancestors ≠ []) {node : Node}
    (hMatch : (rules.definition? ⟨node, ancestors⟩).isSome = true) :
    (Located.reachedBelow ancestors node).filter rules.isOutermost = [] := by
  rw [List.filter_eq_nil_iff]
  intro located hLocated hOutermost
  have hEncloses := Located.mem_enclosing hBelow hLocated
  have hNone := List.all_eq_true.mp (Bool.and_eq_true_iff.mp hOutermost).2 _ hEncloses
  rw [Option.isNone_iff_eq_none] at hNone
  rw [hNone] at hMatch
  cases hMatch

/-- A match is that of a node below its ancestors: it keeps the node, what this
is or wraps, and the siblings before it. -/
structure Placed (found : Match) (located : Located) : Prop where
  outer : found.outer = located.node
  inner : rules.definition? located = some found.inner
  siblings : ∃ parent after, located.parent? = some parent ∧
    parent.children = found.before.reverse ++ located.node :: after

variable {rules}

/-- What stands for some nodes keeps these. -/
theorem map_outer_of_placed {matched : List Match} {nodes : List Located}
    (h : List.Forall₂ rules.Placed matched nodes) :
    matched.map (·.outer) = nodes.map (·.node) := by
  induction h with
  | nil => rfl
  | cons hHere _ ih => rw [List.map_cons, List.map_cons, hHere.outer, ih]

/-- Siblings whose ancestors are open, given that the walk below each of them
that is no match itself returns what is outermost. -/
private theorem matchesAmong_placed {parent : Node} {upper : List Node}
    (hOpen : rules.isOpen (parent :: upper) = true) :
    ∀ siblings before : List Node, parent.children = before.reverse ++ siblings →
      (∀ node ∈ siblings, rules.definition? ⟨node, parent :: upper⟩ = none →
        List.Forall₂ rules.Placed (rules.matchesBelow (parent :: upper) node)
          ((Located.reachedBelow (parent :: upper) node).filter rules.isOutermost)) →
      List.Forall₂ rules.Placed (rules.matchesAmong (parent :: upper) before siblings)
        ((Located.reachedAmong (parent :: upper) siblings).filter rules.isOutermost) := by
  have hBelow := List.cons_ne_nil parent upper
  intro siblings
  induction siblings with
  | nil =>
      intro before _ _
      rw [matchesAmong, Located.reachedAmong]
      exact .nil
  | cons node rest ih =>
      intro before hSiblings hNodes
      have hOutermost := rules.isOutermost_of_isOpen hOpen node
      have hLater : parent.children = (node :: before).reverse ++ rest := by
        rw [List.reverse_cons, List.append_assoc]
        exact hSiblings
      have hRest := ih (node :: before) hLater
        fun other hOther => hNodes other (List.mem_cons_of_mem node hOther)
      rw [matchesAmong_cons, Located.reachedAmong, List.filter_append]
      refine List.rel_append ?_ hRest
      rw [matchesAt]
      split
      · cases hDefinition : rules.definition? ⟨node, parent :: upper⟩ with
        | some inner =>
            have hMatch : (rules.definition? ⟨node, parent :: upper⟩).isSome = true := by
              rw [hDefinition]
              rfl
            rw [List.filter_cons_of_pos (hOutermost.trans hMatch),
              rules.filter_below_match hBelow hMatch]
            exact .cons ⟨rfl, hDefinition, parent, rest, rfl, hSiblings⟩ .nil
        | none =>
            have hNo : ¬ rules.isOutermost ⟨node, parent :: upper⟩ = true := by
              rw [hOutermost, hDefinition]
              exact Bool.false_ne_true
            rw [List.filter_cons_of_neg hNo]
            exact hNodes node List.mem_cons_self hDefinition
      · exact .nil

variable (rules)

/-- The walk below a node returns what is outermost below it, where the node
and its ancestors are open. -/
theorem matchesBelow_placed_of (node : Node) :
    ∀ ancestors : List Node, rules.isOpen (node :: ancestors) = true →
      List.Forall₂ rules.Placed (rules.matchesBelow ancestors node)
        ((Located.reachedBelow ancestors node).filter rules.isOutermost) := by
  induction node using Node.childInduction with
  | step node ih =>
      intro ancestors hOpen
      rw [matchesBelow_eq, Located.reachedBelow_eq]
      apply matchesAmong_placed hOpen node.children [] rfl
      intro child hChild hNone
      exact ih child hChild (node :: ancestors)
        (rules.isOpen_below (List.cons_ne_nil node ancestors) hOpen hNone)

/-- The nodes that the walk returns are those that are outermost. -/
theorem matchesBelow_outermost_of (node : Node) (ancestors : List Node)
    (hOpen : rules.isOpen (node :: ancestors) = true) :
    (rules.matchesBelow ancestors node).map (·.outer) =
      ((Located.reachedBelow ancestors node).filter rules.isOutermost).map (·.node) :=
  map_outer_of_placed (rules.matchesBelow_placed_of node ancestors hOpen)

/-- **The walk over a tree returns a match for each outermost matching node**,
in preorder, with the siblings before the node. -/
theorem matchesBelow_placed (root : Node) :
    List.Forall₂ rules.Placed (rules.matchesBelow [] root) (rules.outermost root) :=
  rules.matchesBelow_placed_of root [] rfl

/-- **The walk over a tree returns its outermost matching nodes**, in
preorder. -/
theorem matchesBelow_outermost (root : Node) :
    (rules.matchesBelow [] root).map (·.outer) = (rules.outermost root).map (·.node) :=
  rules.matchesBelow_outermost_of root [] rfl

end DefinitionRules

end SourceIndex
