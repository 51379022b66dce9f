import Mathlib.Data.List.Forall2
import SourceIndex.Proofs.Chunk.Outermost
import SourceIndex.Proofs.Chunk.Settling
import SourceIndex.Proofs.Sorting

/-!
# Definitions that are apart from the start

A definition takes the comments and attributes in front of it, and these are
looked for among all the siblings before it.  Where no comment and no
attribute contains a definition, this never reaches a neighbour: the search
stops at the first sibling that is neither, and only such a sibling can be, or
contain, the definition before.  So the definitions of a tree are apart before
any boundary is settled, settling drops none of them and trims none.

The invariant is a *floor*, the end of the last definition so far: whatever
could be attached next lies above it.

## Main results

* `Language.attached_no_definition` — comments and attributes are no definitions.
* `Definition.attach_floor` — what is attached stays above the floor.
* `DefinitionRules.matchesBelow_apart` — the definitions of a tree are apart.
* `Partition.hold_settle` — settling keeps every node inside its definition.
-/

namespace SourceIndex

open Text (IsBoundary)

/-! ## Comments and attributes -/

/-- The kinds of nodes that may be attached to the definition after them. -/
def Language.attachedKinds (language : Language) : List String :=
  language.attributeKinds ++ language.commentKinds

/-- No node that may be attached is of a kind that makes a definition. -/
theorem Language.attached_no_definition (language : Language) (strategy : Strategy) :
    ∀ kind ∈ language.attachedKinds, kind ∉ language.definitionKinds strategy ∧
      kind ∉ language.bindingKinds ∧ kind ∉ language.wrapperKinds := by
  cases language <;> cases strategy <;> decide

namespace DefinitionRules

variable (rules : DefinitionRules)

/-- Whether a node may be attached to the definition after it. -/
def attaches (node : Node) : Bool := rules.language.attachedKinds.contains node.kind

theorem definition?_eq_none {rules : DefinitionRules} {located : Located}
    (hKinds : located.node.kind ∉ rules.kinds)
    (hBinding : located.node.kind ∉ rules.language.bindingKinds)
    (hWrapper : located.node.kind ∉ rules.language.wrapperKinds) :
    rules.definition? located = none := by
  have hDirect : rules.direct? located = none := by
    rw [direct?, bound?, if_neg (by simpa using hKinds), if_neg (by simpa using hBinding)]
  rw [definition?, hDirect]
  exact if_neg (by simpa using hWrapper)

/-- What may be attached is no definition. -/
theorem definition?_of_attaches {language : Language} {options : ChunkOptions}
    {located : Located} (h : (DefinitionRules.of language options).attaches located.node) :
    (DefinitionRules.of language options).definition? located = none := by
  have hKind : located.node.kind ∈ language.attachedKinds := by
    simpa [attaches, DefinitionRules.of] using h
  obtain ⟨hKinds, hBinding, hWrapper⟩ :=
    language.attached_no_definition options.strategy _ hKind
  exact definition?_eq_none hKinds hBinding hWrapper

end DefinitionRules

variable {source : List Char}

namespace Definition

variable {rules : DefinitionRules}

/-- Attaching stays above a floor that is below all that could be attached. -/
theorem attach_floor {before : List Node} {floor : Nat} :
    ∀ {start : Nat}, floor ≤ start →
      (∀ node ∈ before.takeWhile rules.attaches, floor ≤ node.span.start) →
      floor ≤ (attach source rules start before).1 := by
  induction before with
  | nil => exact fun hStart _ => hStart
  | cons node before ih =>
      intro start hStart hBefore
      by_cases hAttaches : rules.attaches node = true
      · rw [List.takeWhile_cons_of_pos hAttaches] at hBefore
        have hNext := ih (hBefore node List.mem_cons_self)
          fun other hOther => hBefore other (List.mem_cons_of_mem node hOther)
        rw [attach]
        split
        · split
          · exact hNext
          · exact hStart
        · split
          · exact hNext
          · exact hStart
      · have hKinds : node.kind ∉ rules.language.attributeKinds ∧
            node.kind ∉ rules.language.commentKinds := by
          simpa [DefinitionRules.attaches, Language.attachedKinds] using hAttaches
        rw [attach, if_neg (by simpa using hKinds.1), if_neg (by simp [hKinds.2])]
        exact hStart

end Definition

namespace DefinitionRules

/-! ## The definitions of a tree -/

variable (rules : DefinitionRules)

/-- The spans of the definitions that some matches become. -/
def spans (source : List Char) (found : List Match) : List Span :=
  found.map fun each => (Definition.ofMatch source rules each).span

/-- A sibling whose definitions are where they should be: there are none in
what may be attached, and those below a node that is no match lie inside it. -/
structure Tame (source : List Char) (ancestors : List Node) (node : Node) : Prop where
  attached : ∀ before, rules.attaches node = true → rules.matchesAt ancestors before node = []
  below : node.named = true → rules.definition? ⟨node, ancestors⟩ = none →
    Span.Apart node.span.start node.span.stop
      (rules.spans source (rules.matchesBelow ancestors node))

variable {rules}

/-- The definitions of one sibling that is not attached lie between the floor
and the end of the sibling. -/
theorem matchesAt_apart {ancestors before : List Node} {node : Node} {floor : Nat}
    (hNode : node.WellFormed source) (hFloor : floor ≤ node.span.start)
    (hBefore : ∀ other ∈ before.takeWhile rules.attaches, floor ≤ other.span.start)
    (hFound : ∀ found ∈ rules.matchesAt ancestors before node,
      found.WellFormed source ∧ found.outer.span.start < found.outer.span.stop)
    (hTame : rules.Tame source ancestors node) :
    Span.Apart floor node.span.stop
      (rules.spans source (rules.matchesAt ancestors before node)) := by
  have hOrder := hNode.fits.ordered
  have hEmpty : floor ≤ node.span.stop := Nat.le_trans hFloor hOrder
  revert hFound
  unfold matchesAt
  split
  · next hNamed =>
      split
      · next inner hInner =>
          intro hFound
          obtain ⟨hMatch, hSize⟩ := hFound _ (List.mem_singleton.mpr rfl)
          have hStart := (Definition.attach_fits rules hMatch.outer.fits.start hMatch.before).2
          exact ⟨Definition.attach_floor hFloor hBefore, Nat.lt_of_le_of_lt hStart hSize,
            Nat.le_refl _⟩
      · next hNone => exact fun _ => (hTame.below hNamed hNone).mono hFloor
  · exact fun _ => hEmpty

/-- The definitions among tame siblings lie above the floor. -/
theorem matchesAmong_apart {ancestors : List Node} {stop : Nat} :
    ∀ (siblings before : List Node) (start floor : Nat),
      Node.Row source start stop siblings → floor ≤ start →
      (∀ other ∈ before.takeWhile rules.attaches, floor ≤ other.span.start) →
      (∀ found ∈ rules.matchesAmong ancestors before siblings,
        found.WellFormed source ∧ found.outer.span.start < found.outer.span.stop) →
      (∀ node ∈ siblings, rules.Tame source ancestors node) →
      Span.Apart floor stop
        (rules.spans source (rules.matchesAmong ancestors before siblings)) := by
  intro siblings
  induction siblings with
  | nil =>
      intro before start floor hRow hFloor _ _ _
      have hEnd : start ≤ stop := hRow
      rw [matchesAmong]
      exact Nat.le_trans hFloor hEnd
  | cons node rest ih =>
      intro before start floor hRow hFloor hBefore hFound hTame
      obtain ⟨hStart, hNode, hRest⟩ := hRow
      have hOrder := hNode.fits.ordered
      have hOwn := hTame node List.mem_cons_self
      have hTameRest : ∀ other ∈ rest, rules.Tame source ancestors other :=
        fun other hOther => hTame other (List.mem_cons_of_mem node hOther)
      rw [matchesAmong_cons] at hFound ⊢
      have hFoundRest := fun found hLater => hFound found (List.mem_append_right _ hLater)
      by_cases hAttaches : rules.attaches node = true
      · -- What is attached holds no definition, so the floor stays where it is.
        have hNext : ∀ other ∈ (node :: before).takeWhile rules.attaches,
            floor ≤ other.span.start := by
          rw [List.takeWhile_cons_of_pos hAttaches]
          intro other hOther
          rcases List.mem_cons.mp hOther with rfl | hEarlier
          · omega
          · exact hBefore other hEarlier
        rw [hOwn.attached before hAttaches, List.nil_append]
        exact ih (node :: before) node.span.stop floor hRest (by omega) hNext hFoundRest hTameRest
      · -- Nothing before this sibling can be attached to what comes after it.
        have hNext : ∀ other ∈ (node :: before).takeWhile rules.attaches,
            node.span.stop ≤ other.span.start := by
          rw [List.takeWhile_cons_of_neg hAttaches]
          exact fun _ hMem => by cases hMem
        have hHere := matchesAt_apart hNode (Nat.le_trans hFloor hStart) hBefore
          (fun found hHere => hFound found (List.mem_append_left _ hHere)) hOwn
        have hAfter := ih (node :: before) node.span.stop node.span.stop hRest (Nat.le_refl _)
          hNext hFoundRest hTameRest
        rw [spans, List.map_append]
        exact hHere.append hAfter

/-- What the definitions of a tree are asked for so that none reaches a
neighbour: none is empty, and no node that may be attached contains one. -/
structure Plain (rules : DefinitionRules) (located : Located) : Prop where
  size : located.node.span.start < located.node.span.stop
  bare : ∀ outer ∈ located.enclosing, rules.attaches outer.node = false

instance (rules : DefinitionRules) (located : Located) : Decidable (rules.Plain located) :=
  decidable_of_iff (located.node.span.start < located.node.span.stop ∧
      ∀ outer ∈ located.enclosing, rules.attaches outer.node = false)
    ⟨fun h => ⟨h.1, h.2⟩, fun h => ⟨h.size, h.bare⟩⟩

/-- Nodes that may be attached have no matches below them. -/
private theorem matchesAt_of_attaches {ancestors before : List Node} (hBelow : ancestors ≠ [])
    {node : Node} (hOpen : rules.isOpen ancestors = true)
    (hNone : rules.definition? ⟨node, ancestors⟩ = none) (hAttaches : rules.attaches node = true)
    (hPlain : node.named = true → ∀ located ∈ Located.reachedBelow ancestors node,
      rules.isOutermost located = true → rules.Plain located) :
    rules.matchesAt ancestors before node = [] := by
  unfold matchesAt
  split
  · next hNamed =>
      have hWalk := rules.matchesBelow_outermost_of node ancestors
        (rules.isOpen_below hBelow hOpen hNone)
      have hNothing : (Located.reachedBelow ancestors node).filter rules.isOutermost = [] := by
        rw [List.filter_eq_nil_iff]
        intro located hLocated hOutermost
        have hBare := (hPlain hNamed located hLocated hOutermost).bare _
          (Located.mem_enclosing hBelow hLocated)
        rw [hAttaches] at hBare
        cases hBare
      rw [hNothing] at hWalk
      rw [hNone]
      exact List.map_eq_nil_iff.mp hWalk
  · rfl

/-- Matches below a node are not empty where the outermost ones are plain. -/
private theorem size_of_plain {ancestors : List Node} {node : Node}
    (hOpen : rules.isOpen (node :: ancestors) = true)
    (hPlain : ∀ located ∈ Located.reachedBelow ancestors node,
      rules.isOutermost located = true → rules.Plain located) :
    ∀ found ∈ rules.matchesBelow ancestors node,
      found.outer.span.start < found.outer.span.stop := by
  intro found hFound
  have hOuter : found.outer ∈ (rules.matchesBelow ancestors node).map (·.outer) :=
    List.mem_map_of_mem hFound
  rw [rules.matchesBelow_outermost_of node ancestors hOpen] at hOuter
  obtain ⟨located, hLocated, hEq⟩ := List.mem_map.mp hOuter
  obtain ⟨hReached, hOutermost⟩ := List.mem_filter.mp hLocated
  rw [← hEq]
  exact (hPlain located hReached hOutermost).size

/-- **The definitions of a tree are apart**, when its outermost matches are
plain. -/
theorem matchesBelow_apart (rules : DefinitionRules)
    (hSeparate : ∀ located : Located, rules.attaches located.node = true →
      rules.definition? located = none) (node : Node) :
    ∀ ancestors : List Node, node.WellFormed source →
      (∀ ancestor ∈ ancestors, ancestor.WellFormed source) →
      rules.isOpen (node :: ancestors) = true →
      (∀ located ∈ Located.reachedBelow ancestors node, rules.isOutermost located = true →
        rules.Plain located) →
      Span.Apart node.span.start node.span.stop
        (rules.spans source (rules.matchesBelow ancestors node)) := by
  induction node using Node.childInduction with
  | step node ih =>
      intro ancestors hNode hAncestors hOpen hPlain
      have hPath := List.cons_ne_nil node ancestors
      have hFound := rules.matchesBelow_wellFormed node ancestors hNode hAncestors
      have hSize := size_of_plain hOpen hPlain
      have hAbove : ∀ ancestor ∈ node :: ancestors, ancestor.WellFormed source := by
        intro ancestor hAncestor
        rcases List.mem_cons.mp hAncestor with rfl | hFurther
        · exact hNode
        · exact hAncestors ancestor hFurther
      have hChildren : ∀ child ∈ node.children, child.named = true →
          ∀ located ∈ Located.reachedBelow (node :: ancestors) child,
            rules.isOutermost located = true → rules.Plain located := by
        intro child hChild hNamed located hLocated
        apply hPlain located
        rw [Located.reachedBelow_eq]
        exact Located.mem_reachedAmong.mpr ⟨child, hChild, hNamed, .inr hLocated⟩
      rw [matchesBelow_eq] at hFound hSize ⊢
      refine matchesAmong_apart node.children [] node.span.start node.span.start hNode.row
        (Nat.le_refl _) (fun _ hMem => by cases hMem)
        (fun found hMem => ⟨hFound found hMem, hSize found hMem⟩) ?_
      intro child hChild
      constructor
      · intro before hAttaches
        exact matchesAt_of_attaches hPath hOpen (hSeparate ⟨child, node :: ancestors⟩ hAttaches)
          hAttaches (hChildren child hChild)
      · intro hNamed hNone
        exact ih child hChild (node :: ancestors) (hNode.of_mem_children hChild).1 hAbove
          (rules.isOpen_below hPath hOpen hNone) (hChildren child hChild hNamed)

end DefinitionRules

namespace Partition

/-! ## Settling moves no boundary into a node -/

/-- Definitions that are apart already are left alone. -/
theorem disjoint_eq_self {definitions : List Definition} {previous stop : Nat}
    (h : Span.Apart previous stop (definitions.map (·.span))) :
    disjoint previous definitions = definitions := by
  induction definitions generalizing previous with
  | nil => rfl
  | cons definition rest ih =>
      obtain ⟨hStart, hSize, hRest⟩ := h
      have hMax : max definition.span.start previous = definition.span.start :=
        Nat.max_eq_left hStart
      rw [disjoint]
      rw [hMax, if_pos hSize, ih hRest]

/-- Sorting and separating definitions that are apart changes nothing. -/
theorem disjoint_sorted_eq_self {definitions : List Definition} {stop : Nat}
    (h : Span.Apart 0 stop (definitions.map (·.span))) :
    disjoint 0 (definitions.mergeSort fun a b => a.span.start ≤ b.span.start) =
      definitions := by
  have hStarts : definitions.Pairwise fun a b => a.span.start ≤ b.span.start :=
    (List.pairwise_map.mp h.starts).imp Nat.le_of_lt
  rw [Sorting.sortBy_eq_self (fun definition : Definition => definition.span.start) hStarts]
  exact disjoint_eq_self h

/-- Definitions each of which contains the node that it is for. -/
def Hold (nodes : List Node) (definitions : List Definition) : Prop :=
  List.Forall₂ (fun node definition => node.span.Within definition.span) nodes definitions

theorem Hold.at {nodes : List Node} {definitions : List Definition}
    (h : Hold nodes definitions) {place : Nat} {node : Node} {definition : Definition}
    (hNode : nodes[place]? = some node) (hDefinition : definitions[place]? = some definition) :
    node.span.Within definition.span := by
  have hPairs : (nodes.zip definitions)[place]? = some (node, definition) :=
    List.getElem?_zip_eq_some.mpr ⟨hNode, hDefinition⟩
  exact List.forall₂_zip h (List.mem_of_getElem? hPairs)

theorem Hold.exists_at {nodes : List Node} {definitions : List Definition}
    (h : Hold nodes definitions) {place : Nat} {node : Node} (hNode : nodes[place]? = some node) :
    ∃ definition, definitions[place]? = some definition := by
  obtain ⟨hPlace, _⟩ := List.getElem?_eq_some_iff.mp hNode
  rw [h.length_eq] at hPlace
  exact ⟨definitions[place], List.getElem?_eq_getElem hPlace⟩

/-- Of two definitions that are apart, the earlier one stops before the later
one starts. -/
theorem apart_at {definitions : List Definition} {start stop : Nat}
    (h : Span.Apart start stop (definitions.map (·.span))) {first second : Nat}
    (hOrder : first < second) {a b : Definition} (hFirst : definitions[first]? = some a)
    (hSecond : definitions[second]? = some b) : a.span.stop ≤ b.span.start := by
  have hPairwise := List.pairwise_iff_getElem.mp (List.pairwise_map.mp h.pairwise)
  obtain ⟨hFirstLt, rfl⟩ := List.getElem?_eq_some_iff.mp hFirst
  obtain ⟨hSecondLt, rfl⟩ := List.getElem?_eq_some_iff.mp hSecond
  exact hPairwise first second hFirstLt hSecondLt hOrder

/-- Owning blanks moves ends forward only. -/
theorem hold_ownBlanks {nodes : List Node} {definitions : List Definition}
    (h : Hold nodes definitions) : Hold nodes (ownBlanks source definitions) := by
  induction h with
  | nil => exact .nil
  | @cons node definition nodes rest hHere _ ih =>
      rw [ownBlanks_cons]
      exact .cons ⟨hHere.1, Nat.le_trans hHere.2 (Nat.le_add_right _ _)⟩ ih

/-- Owning the prologue moves the first start back only. -/
theorem hold_ownPrologue {nodes : List Node} {definitions : List Definition}
    (h : Hold nodes definitions) : Hold nodes (ownPrologue source definitions) := by
  cases h with
  | nil => exact .nil
  | @cons node first nodes rest hHere hRest =>
      rw [ownPrologue]
      split
      · exact .cons ⟨Nat.zero_le _, hHere.2⟩ hRest
      · exact .cons hHere hRest

/-- **Settling keeps every node inside its definition**, when the definitions
are apart. -/
theorem hold_settle {nodes : List Node} {definitions : List Definition} {stop : Nat}
    (hApart : Span.Apart 0 stop (definitions.map (·.span))) (h : Hold nodes definitions) :
    Hold nodes (settle source definitions) := by
  rw [settle, disjoint_sorted_eq_self hApart]
  exact hold_ownPrologue (hold_ownBlanks h)

end Partition

end SourceIndex
