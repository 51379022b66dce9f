import SourceIndex.Proofs.Text.Boundaries
import SourceIndex.SyntaxTree

/-!
# Well-formed syntax trees

What every parser promises about the spans of its trees: the ends of a node
are boundaries of the source and come in order, children lie inside their
parent, and siblings come in order and share no byte.  Nodes may be empty,
and siblings may leave gaps between them.

The predicate is a recursion along the tree.  `Node.Row` carries the end of
the sibling before, so the conditions on one row of siblings are read off
from left to right; `Node.Row.mem` turns a row back into facts about its
members.

## Main results

* `Node.childInduction` — induction over trees, from the children to the node.
* `Node.WellFormed.of_mem_children` — children are well formed and inside.
* `Located.WellFormed.below` — so are they as nodes below their ancestors.
-/

namespace SourceIndex

namespace Node

mutual

/-- A node that fits the source, with well-formed children inside it. -/
def WellFormed (source : List Char) : Node → Prop
  | ⟨_, _, span, _, children⟩ => span.Fits source ∧ Row source span.start span.stop children

/-- Well-formed siblings in order, which share no byte, from `start` to `stop`. -/
def Row (source : List Char) (start stop : Nat) : List Node → Prop
  | [] => start ≤ stop
  | node :: rest =>
      start ≤ node.span.start ∧ WellFormed source node ∧ Row source node.span.stop stop rest

end

mutual

/-- Well-formedness is decided along the tree. -/
def decidableWellFormed (source : List Char) : (node : Node) → Decidable (WellFormed source node)
  | ⟨_, _, span, _, children⟩ =>
      match decidableRow source span.start span.stop children with
      | isTrue hRow =>
          decidable_of_iff (span.Fits source) ⟨fun hFits => ⟨hFits, hRow⟩, fun h => h.1⟩
      | isFalse hRow => isFalse fun h => hRow h.2

/-- A row is decided from left to right. -/
def decidableRow (source : List Char) (start stop : Nat) :
    (nodes : List Node) → Decidable (Row source start stop nodes)
  | [] => inferInstanceAs (Decidable (start ≤ stop))
  | node :: rest =>
      match decidableWellFormed source node, decidableRow source node.span.stop stop rest with
      | isTrue hNode, isTrue hRest =>
          decidable_of_iff (start ≤ node.span.start)
            ⟨fun hStart => ⟨hStart, hNode, hRest⟩, fun h => h.1⟩
      | isFalse hNode, _ => isFalse fun h => hNode h.2.1
      | _, isFalse hRest => isFalse fun h => hRest h.2.2

end

instance (source : List Char) (node : Node) : Decidable (WellFormed source node) :=
  decidableWellFormed source node

/-- Induction over a tree: what holds of a node when it holds of its
children holds of every node. -/
theorem childInduction {motive : Node → Prop}
    (step : ∀ node : Node, (∀ child ∈ node.children, motive child) → motive node) :
    ∀ node, motive node
  | ⟨kind, named, span, roles, children⟩ =>
      step ⟨kind, named, span, roles, children⟩ fun child _ => childInduction step child

variable {source : List Char} {node child : Node}

theorem WellFormed.fits (h : WellFormed source node) : node.span.Fits source := by
  cases node with
  | mk => exact h.1

theorem WellFormed.row (h : WellFormed source node) :
    Row source node.span.start node.span.stop node.children := by
  cases node with
  | mk => exact h.2

/-- A row reaches no further back than it starts. -/
theorem Row.start_le_stop {nodes : List Node} {start stop : Nat}
    (h : Row source start stop nodes) : start ≤ stop := by
  induction nodes generalizing start with
  | nil => exact h
  | cons node rest ih =>
      obtain ⟨hStart, hNode, hRest⟩ := h
      have hOrder := hNode.fits.ordered
      have hStop := ih hRest
      omega

/-- The members of a row are well formed and lie between its ends. -/
theorem Row.mem {nodes : List Node} {start stop : Nat} (h : Row source start stop nodes)
    (hMem : node ∈ nodes) :
    WellFormed source node ∧ start ≤ node.span.start ∧ node.span.stop ≤ stop := by
  induction nodes generalizing start with
  | nil => cases hMem
  | cons first rest ih =>
      obtain ⟨hStart, hFirst, hRest⟩ := h
      have hOrder := hFirst.fits.ordered
      rcases List.mem_cons.mp hMem with rfl | hLater
      · exact ⟨hFirst, hStart, hRest.start_le_stop⟩
      · obtain ⟨hNode, hFrom, hTo⟩ := ih hRest hLater
        exact ⟨hNode, by omega, hTo⟩

/-- A child is well formed and lies inside its parent. -/
theorem WellFormed.of_mem_children (h : WellFormed source node) (hMem : child ∈ node.children) :
    WellFormed source child ∧ child.span.Within node.span := by
  obtain ⟨hChild, hStart, hStop⟩ := h.row.mem hMem
  exact ⟨hChild, hStart, hStop⟩

theorem mem_children_of_namedChildren (h : child ∈ node.namedChildren) :
    child ∈ node.children :=
  (List.mem_filter.mp h).1

theorem mem_children_of_child? {role : Role} (h : node.child? role = some child) :
    child ∈ node.children :=
  List.mem_of_find?_eq_some h

end Node

/-- A parse whose tree is well formed, if it has one. -/
def Parse.WellFormed (source : List Char) : Parse → Prop
  | .withErrors => True
  | .clean root => root.WellFormed source

instance (source : List Char) : (parse : Parse) → Decidable (parse.WellFormed source)
  | .withErrors => inferInstanceAs (Decidable True)
  | .clean root => inferInstanceAs (Decidable (root.WellFormed source))

namespace Located

/-- A well-formed node below well-formed ancestors, inside the nearest of them. -/
structure WellFormed (source : List Char) (located : Located) : Prop where
  node : located.node.WellFormed source
  ancestors : ∀ ancestor ∈ located.ancestors, ancestor.WellFormed source
  inside : ∀ parent, located.parent? = some parent → located.node.span.Within parent.span

variable {source : List Char} {parent located : Located}

theorem WellFormed.below (h : parent.WellFormed source) {child : Node}
    (hMem : child ∈ parent.node.children) : (parent.below child).WellFormed source := by
  obtain ⟨hChild, hWithin⟩ := h.node.of_mem_children hMem
  refine ⟨hChild, ?_, ?_⟩
  · intro ancestor hAncestor
    rcases List.mem_cons.mp hAncestor with rfl | hAbove
    · exact h.node
    · exact h.ancestors ancestor hAbove
  · intro above hAbove
    cases hAbove
    exact hWithin

theorem WellFormed.of_mem_namedChildren (h : parent.WellFormed source)
    (hMem : located ∈ parent.namedChildren) : located.WellFormed source := by
  obtain ⟨child, hChild, rfl⟩ := List.mem_map.mp hMem
  exact h.below (Node.mem_children_of_namedChildren hChild)

theorem WellFormed.of_child? (h : parent.WellFormed source) {role : Role}
    (hChild : parent.child? role = some located) : located.WellFormed source := by
  obtain ⟨child, hFound, rfl⟩ := Option.map_eq_some_iff.mp hChild
  exact h.below (Node.mem_children_of_child? hFound)

end Located

end SourceIndex
