import SourceIndex.Proofs.Chunk.Gaps
import SourceIndex.Proofs.Chunk.Matches

/-!
# Settled boundaries

From the definitions of a tree to spans that are apart, pass by pass.  The
invariant has two halves: the spans fit the source, and from `disjoint` on
they are apart between the start and the end of the source.  `disjoint` sets
up the second half whatever order the definitions are in; the passes that own
blanks keep it, because the blanks after a definition end where the next one
starts, and those before the first one are before all of them.

## Main results

* `Definition.attach_fits` — attached comments move a start back to a boundary.
* `Definition.all_fit` — the definitions of a well-formed tree fit the source.
* `Partition.disjoint_apart`, `Partition.ownBlanks_apart`,
  `Partition.ownPrologue_apart` — one step each.
* `Partition.settle_apart` — settled definitions are apart and fit.
-/

namespace SourceIndex

open Text (IsBoundary)

variable {source : List Char}

namespace Definition

/-- Attaching moves the start of a definition back, to a boundary. -/
theorem attach_fits (rules : DefinitionRules) {before : List Node} :
    ∀ {start : Nat}, IsBoundary source start → Node.Preceding source start before →
      IsBoundary source (attach source rules start before).1 ∧
        (attach source rules start before).1 ≤ start := by
  induction before with
  | nil =>
      intro start hStart _
      exact ⟨hStart, Nat.le_refl _⟩
  | cons node before ih =>
      intro start hStart hBefore
      obtain ⟨hNode, hStop, hPreceding⟩ := hBefore
      have hOrder := hNode.fits.ordered
      obtain ⟨hFirst, hLe⟩ := ih hNode.fits.start hPreceding
      rw [attach]
      split
      · split
        · exact ⟨hFirst, by omega⟩
        · exact ⟨hStart, Nat.le_refl _⟩
      · split
        · exact ⟨hFirst, by show (attach source rules node.span.start before).1 ≤ start; omega⟩
        · exact ⟨hStart, Nat.le_refl _⟩

theorem ofMatch_fits {rules : DefinitionRules} {found : Match} (h : found.WellFormed source) :
    (ofMatch source rules found).span.Fits source := by
  have hOuter := h.outer.fits
  have hOrder := hOuter.ordered
  obtain ⟨hStart, hLe⟩ := attach_fits rules hOuter.start h.before
  exact ⟨hStart, hOuter.stop, Nat.le_trans hLe hOrder⟩

/-- The definitions of a well-formed tree fit the source. -/
theorem all_fit (rules : DefinitionRules) {root : Node} (h : root.WellFormed source) :
    ∀ definition ∈ all source rules root, definition.span.Fits source := by
  intro definition hDefinition
  obtain ⟨found, hFound, rfl⟩ := List.mem_map.mp hDefinition
  exact ofMatch_fits (rules.matchesBelow_root_wellFormed h found hFound)

end Definition

namespace Partition

/-- Definitions whose spans are apart and fit the source. -/
structure Settled (source : List Char) (start : Nat) (definitions : List Definition) : Prop where
  apart : Span.Apart start (Text.byteLength source) (definitions.map (·.span))
  fit : ∀ definition ∈ definitions, definition.span.Fits source

theorem Settled.mono {start start' : Nat} {definitions : List Definition}
    (h : Settled source start definitions) (hLe : start' ≤ start) :
    Settled source start' definitions :=
  ⟨h.apart.mono hLe, h.fit⟩

theorem settled_cons {start : Nat} {definition : Definition} {rest : List Definition} :
    Settled source start (definition :: rest) ↔
      (start ≤ definition.span.start ∧ definition.span.start < definition.span.stop ∧
        definition.span.Fits source) ∧ Settled source definition.span.stop rest := by
  constructor
  · rintro ⟨⟨hStart, hSize, hRest⟩, hFit⟩
    exact ⟨⟨hStart, hSize, hFit definition List.mem_cons_self⟩, hRest,
      fun other hOther => hFit other (List.mem_cons_of_mem definition hOther)⟩
  · rintro ⟨⟨hStart, hSize, hFits⟩, hRest, hFit⟩
    refine ⟨⟨hStart, hSize, hRest⟩, ?_⟩
    intro other hOther
    rcases List.mem_cons.mp hOther with rfl | hLater
    · exact hFits
    · exact hFit other hLater

/-- Where the blanks after a definition must end: at the next definition, or
at the end of the source. -/
def limit (source : List Char) : List Definition → Nat
  | next :: _ => next.span.start
  | [] => Text.byteLength source

/-- The limit before settled definitions is a boundary, and they are settled
from there on. -/
theorem Settled.limit {start : Nat} {definitions : List Definition}
    (h : Settled source start definitions) :
    IsBoundary source (limit source definitions) ∧ start ≤ limit source definitions ∧
      Settled source (limit source definitions) definitions := by
  cases definitions with
  | nil =>
      have hLe : start ≤ Text.byteLength source := h.apart
      exact ⟨Text.isBoundary_byteLength source, hLe, Nat.le_refl _, h.fit⟩
  | cons next rest =>
      obtain ⟨⟨hStart, hSize, hFits⟩, hRest⟩ := settled_cons.mp h
      exact ⟨hFits.start, hStart, settled_cons.mpr ⟨⟨Nat.le_refl _, hSize, hFits⟩, hRest⟩⟩

/-- What a definition extended over the blanks after it reaches. -/
def blankEnd (source : List Char) (stop limit : Nat) : Nat :=
  stop + leadingBlanks (Text.slice source stop limit)

theorem ownBlanks_cons (definition : Definition) (rest : List Definition) :
    ownBlanks source (definition :: rest) =
      { definition with
        span := ⟨definition.span.start,
          blankEnd source definition.span.stop (limit source rest)⟩ } ::
        ownBlanks source rest := by
  cases rest with
  | nil => rfl
  | cons next rest => rfl

theorem blankEnd_fits {stop limit : Nat} (hStop : IsBoundary source stop)
    (hLimit : IsBoundary source limit) (hLe : stop ≤ limit) :
    IsBoundary source (blankEnd source stop limit) ∧ stop ≤ blankEnd source stop limit ∧
      blankEnd source stop limit ≤ limit := by
  obtain ⟨hBoundary, hEnd⟩ := Text.isBoundary_add_leading Text.isBlank hStop hLimit hLe
  exact ⟨hBoundary, Nat.le_add_right _ _, hEnd⟩

/-! ## The passes -/

/-- Definitions that fit are settled once each starts no earlier than the one
before it ends, whatever order they are in. -/
theorem disjoint_apart {definitions : List Definition} {previous : Nat}
    (hPrevious : IsBoundary source previous)
    (hFit : ∀ definition ∈ definitions, definition.span.Fits source) :
    Settled source previous (disjoint previous definitions) := by
  induction definitions generalizing previous with
  | nil => exact ⟨hPrevious.le_byteLength, fun _ hMem => by cases hMem⟩
  | cons definition rest ih =>
      have hOwn := hFit definition List.mem_cons_self
      have hRest : ∀ other ∈ rest, other.span.Fits source := fun other hOther =>
        hFit other (List.mem_cons_of_mem definition hOther)
      rw [disjoint]
      split
      · next hSize =>
          have hStart : IsBoundary source (max definition.span.start previous) :=
            hOwn.start.max hPrevious
          exact settled_cons.mpr ⟨⟨Nat.le_max_right _ _, hSize, hStart, hOwn.stop,
            Nat.le_of_lt hSize⟩, ih hOwn.stop hRest⟩
      · exact ih hPrevious hRest

/-- Sorting them first changes nothing about it. -/
theorem disjoint_sorted_apart {definitions : List Definition}
    (hFit : ∀ definition ∈ definitions, definition.span.Fits source) :
    Settled source 0
      (disjoint 0 (definitions.mergeSort fun a b => a.span.start ≤ b.span.start)) := by
  refine disjoint_apart (Text.isBoundary_zero source) ?_
  intro definition hDefinition
  exact hFit definition (List.mem_mergeSort.mp hDefinition)

/-- Owning blanks keeps definitions settled. -/
theorem ownBlanks_apart {definitions : List Definition} {start : Nat}
    (h : Settled source start definitions) :
    Settled source start (ownBlanks source definitions) := by
  induction definitions generalizing start with
  | nil => exact h
  | cons definition rest ih =>
      obtain ⟨⟨hStart, hSize, hFits⟩, hRest⟩ := settled_cons.mp h
      obtain ⟨hLimit, hLe, hFromLimit⟩ := hRest.limit
      obtain ⟨hEnd, hStop, hEndLe⟩ := blankEnd_fits hFits.stop hLimit hLe
      rw [ownBlanks_cons]
      refine settled_cons.mpr ⟨⟨hStart, ?_, hFits.start, hEnd, ?_⟩,
        (ih hFromLimit).mono hEndLe⟩
      · show definition.span.start <
          blankEnd source definition.span.stop (Partition.limit source rest)
        omega
      · show definition.span.start ≤
          blankEnd source definition.span.stop (Partition.limit source rest)
        omega

/-- Owning the prologue keeps definitions settled. -/
theorem ownPrologue_apart {definitions : List Definition} (h : Settled source 0 definitions) :
    Settled source 0 (ownPrologue source definitions) := by
  cases definitions with
  | nil => exact h
  | cons first rest =>
      obtain ⟨⟨_, hSize, hFits⟩, hRest⟩ := settled_cons.mp h
      rw [ownPrologue]
      split
      · have hStop : 0 < first.span.stop := Nat.lt_of_le_of_lt (Nat.zero_le _) hSize
        exact settled_cons.mpr ⟨⟨Nat.le_refl _, hStop, Text.isBoundary_zero source, hFits.stop,
          Nat.zero_le _⟩, hRest⟩
      · exact h

/-- **Settled definitions are apart and fit the source.** -/
theorem settle_apart {definitions : List Definition}
    (hFit : ∀ definition ∈ definitions, definition.span.Fits source) :
    Settled source 0 (settle source definitions) :=
  ownPrologue_apart (ownBlanks_apart (disjoint_sorted_apart hFit))

/-! ## The residue -/

/-- Gaps run from boundary to boundary. -/
private theorem gaps_fit {definitions : List Definition} {cursor : Nat}
    (hCursor : IsBoundary source cursor) (h : Settled source cursor definitions) :
    ∀ gap ∈ gaps (Text.byteLength source) cursor (definitions.map (·.span)),
      gap.Fits source := by
  induction definitions generalizing cursor with
  | nil =>
      intro gap hGap
      rw [List.map_nil, gaps] at hGap
      split at hGap
      · next hLt =>
          obtain rfl := List.mem_singleton.mp hGap
          exact ⟨hCursor, Text.isBoundary_byteLength source, Nat.le_of_lt hLt⟩
      · cases hGap
  | cons definition rest ih =>
      obtain ⟨⟨_, _, hFits⟩, hRest⟩ := settled_cons.mp h
      intro gap hGap
      rw [List.map_cons, Span.gaps_cons] at hGap
      rcases List.mem_append.mp hGap with hHere | hLater
      · split at hHere
        · next hLt =>
            obtain rfl := List.mem_singleton.mp hHere
            exact ⟨hCursor, hFits.start, Nat.le_of_lt hLt⟩
        · cases hHere
      · exact ih hFits.stop hRest gap hLater

variable {settled : List Definition}

theorem Settled.residue_fit (h : Settled source 0 settled) :
    ∀ gap ∈ residue source settled, gap.Fits source :=
  gaps_fit (Text.isBoundary_zero source) h

/-- No gap is empty. -/
theorem Settled.residue_size (h : Settled source 0 settled) {gap : Span}
    (hGap : gap ∈ residue source settled) : gap.start < gap.stop :=
  (Span.mem_gaps h.apart hGap).2.1

/-- The residue reaches from the start of its first gap to the end of its last. -/
theorem Settled.residue_ends (h : Settled source 0 settled) {first last : Span}
    (hFirst : (residue source settled).head? = some first)
    (hLast : (residue source settled).getLast? = some last) : first.start < last.stop :=
  Span.first_lt_last (fun _ hGap => h.residue_size hGap) (Span.pairwise_gaps h.apart) hFirst hLast

end Partition

end SourceIndex
