import SourceIndex.Proofs.Text.Boundaries

/-!
# Spans apart, and spans that tile

Two properties of a list of spans.  Spans are *apart* when none is empty and
each starts no earlier than the one before it stops; they *tile* a range when
each starts where the one before it stops.  The definitions of a source are
apart once their boundaries are settled, its chunks tile it, and the batches
of some texts tile their positions.

## Main results

* `Apart.mem`, `Apart.pairwise` — what holds of one span, and of two of them.
* `Tiles.covered` — tiles hold each place of their range exactly once.
* `Tiles.flatMap_text` — the texts of tiles join to the text of their range.
-/

namespace SourceIndex.Span

/-- Spans that cover the bytes from `start` to `stop`, each one starting where
the one before it stops. -/
def Tiles (start stop : Nat) : List Span → Prop
  | [] => start = stop
  | span :: rest => span.start = start ∧ span.start ≤ span.stop ∧ Tiles span.stop stop rest

/-- Spans between `start` and `stop` that are not empty, come in order and
share no byte. -/
def Apart (start stop : Nat) : List Span → Prop
  | [] => start ≤ stop
  | span :: rest =>
      start ≤ span.start ∧ span.start < span.stop ∧ Apart span.stop stop rest

/-- Whether a byte lies in a span. -/
def Holds (span : Span) (byte : Nat) : Prop := span.start ≤ byte ∧ byte < span.stop

/-! ## Spans apart -/

theorem Apart.start_le_stop {spans : List Span} {start stop : Nat}
    (h : Apart start stop spans) : start ≤ stop := by
  induction spans generalizing start with
  | nil => exact h
  | cons span rest ih =>
      obtain ⟨hStart, hSize, hRest⟩ := h
      have hStop := ih hRest
      omega

theorem Apart.mono {spans : List Span} {start start' stop : Nat}
    (h : Apart start stop spans) (hLe : start' ≤ start) : Apart start' stop spans := by
  cases spans with
  | nil => exact Nat.le_trans hLe h
  | cons span rest => exact ⟨Nat.le_trans hLe h.1, h.2⟩

theorem Apart.mem {spans : List Span} {start stop : Nat} (h : Apart start stop spans)
    {span : Span} (hMem : span ∈ spans) :
    start ≤ span.start ∧ span.start < span.stop ∧ span.stop ≤ stop := by
  induction spans generalizing start with
  | nil => cases hMem
  | cons first rest ih =>
      obtain ⟨hStart, hSize, hRest⟩ := h
      rcases List.mem_cons.mp hMem with rfl | hLater
      · exact ⟨hStart, hSize, hRest.start_le_stop⟩
      · obtain ⟨hFrom, hSpan, hTo⟩ := ih hRest hLater
        exact ⟨by omega, hSpan, hTo⟩

/-- Spans apart up to where others begin are apart together with them. -/
theorem Apart.append {spans others : List Span} {start middle stop : Nat}
    (h : Apart start middle spans) (hOthers : Apart middle stop others) :
    Apart start stop (spans ++ others) := by
  induction spans generalizing start with
  | nil => exact hOthers.mono h
  | cons span rest ih =>
      obtain ⟨hStart, hSize, hRest⟩ := h
      exact ⟨hStart, hSize, ih hRest⟩

/-- Each of some spans apart stops before any later one starts. -/
theorem Apart.pairwise {spans : List Span} {start stop : Nat} (h : Apart start stop spans) :
    spans.Pairwise fun a b => a.stop ≤ b.start := by
  induction spans generalizing start with
  | nil => exact List.Pairwise.nil
  | cons span rest ih =>
      obtain ⟨hStart, hSize, hRest⟩ := h
      exact List.pairwise_cons.mpr ⟨fun other hOther => (hRest.mem hOther).1, ih hRest⟩

/-- The starts of spans apart grow. -/
theorem Apart.starts {spans : List Span} {start stop : Nat} (h : Apart start stop spans) :
    spans.Pairwise fun a b => a.start < b.start := by
  induction spans generalizing start with
  | nil => exact List.Pairwise.nil
  | cons span rest ih =>
      obtain ⟨hStart, hSize, hRest⟩ := h
      refine List.pairwise_cons.mpr ⟨fun other hOther => ?_, ih hRest⟩
      have hFrom := (hRest.mem hOther).1
      omega

/-! ## Tilings -/

theorem Tiles.start_le_stop {spans : List Span} {start stop : Nat}
    (h : Tiles start stop spans) : start ≤ stop := by
  induction spans generalizing start with
  | nil => exact Nat.le_of_eq h
  | cons span rest ih =>
      obtain ⟨rfl, hSize, hRest⟩ := h
      exact Nat.le_trans hSize (ih hRest)

/-- A tiling reaches no further back than its start. -/
theorem Tiles.start_le {spans : List Span} {start stop : Nat}
    (h : Tiles start stop spans) {span : Span} (hMem : span ∈ spans) : start ≤ span.start := by
  induction spans generalizing start with
  | nil => cases hMem
  | cons first rest ih =>
      obtain ⟨rfl, hSize, hRest⟩ := h
      rcases List.mem_cons.mp hMem with rfl | hLater
      · exact Nat.le_refl _
      · exact Nat.le_trans hSize (ih hRest hLater)

/-- Nor does it reach further than its end. -/
theorem Tiles.stop_le {spans : List Span} {start stop : Nat}
    (h : Tiles start stop spans) {span : Span} (hMem : span ∈ spans) : span.stop ≤ stop := by
  induction spans generalizing start with
  | nil => cases hMem
  | cons first rest ih =>
      obtain ⟨_, _, hRest⟩ := h
      rcases List.mem_cons.mp hMem with rfl | hLater
      · exact hRest.start_le_stop
      · exact ih hRest hLater

/--
**Each byte of a tiled range lies in exactly one tile**: no byte is in a gap
and none is in two tiles.
-/
theorem Tiles.covered {spans : List Span} {start stop : Nat} (h : Tiles start stop spans)
    {byte : Nat} (hStart : start ≤ byte) (hStop : byte < stop) :
    ∃ before span after, spans = before ++ span :: after ∧ span.Holds byte ∧
      ∀ other ∈ before ++ after, ¬ other.Holds byte := by
  induction spans generalizing start with
  | nil =>
      have hEmpty : start = stop := h
      omega
  | cons first rest ih =>
      obtain ⟨rfl, hSize, hRest⟩ := h
      by_cases hFirst : byte < first.stop
      · refine ⟨[], first, rest, rfl, ⟨hStart, hFirst⟩, ?_⟩
        intro other hOther hHolds
        have hLater := hRest.start_le hOther
        exact absurd hHolds.1 (by omega)
      · obtain ⟨before, span, after, hEq, hHolds, hOthers⟩ := ih hRest (by omega)
        refine ⟨first :: before, span, after, by rw [hEq, List.cons_append], hHolds, ?_⟩
        intro other hOther
        rcases List.mem_cons.mp hOther with rfl | hTail
        · exact fun hFirstHolds => hFirst hFirstHolds.2
        · exact hOthers other hTail

/-- The texts of spans that tile a range join to the text of the range. -/
theorem Tiles.flatMap_text {source : List Char} {spans : List Span} {start stop : Nat}
    (h : Tiles start stop spans) (hStop : Text.IsBoundary source stop)
    (hFits : ∀ span ∈ spans, span.Fits source) :
    spans.flatMap (·.text source) = Text.slice source start stop := by
  induction spans generalizing start with
  | nil =>
      have hEmpty : start = stop := h
      rw [hEmpty, Text.slice_self]
      rfl
  | cons span rest ih =>
      obtain ⟨rfl, hSize, hRest⟩ := h
      have hSpan := hFits span List.mem_cons_self
      have hFitsRest : ∀ other ∈ rest, other.Fits source := fun other hOther =>
        hFits other (List.mem_cons_of_mem span hOther)
      rw [List.flatMap_cons, ih hRest hFitsRest]
      exact Text.slice_append_slice hSpan.start hSpan.stop hStop hSize hRest.start_le_stop

end SourceIndex.Span
