import SourceIndex.Chunk.Partition
import SourceIndex.Proofs.Text.Tiling

/-!
# Gaps

What is apart can be completed: spans with their gaps, in order, tile.  The
residue of a source is the list of the gaps between its settled definitions,
so this is where no byte of a source is lost.

## Main results

* `tiles_completed` — spans apart tile together with their gaps.
* `completed_perm` — completing spans adds their gaps and nothing else.
* `pairwise_gaps` — gaps come in order and no two of them touch.
* `gaps_outside`, `gaps_cover` — gaps hold what no span holds, and nothing else.
-/

namespace SourceIndex.Span

/-- Some spans with the gaps between them, from `cursor` to `stop`. -/
def completed (stop cursor : Nat) : List Span → List Span
  | [] => Partition.gaps stop cursor []
  | span :: rest =>
      (if cursor < span.start then [⟨cursor, span.start⟩] else []) ++
        span :: completed stop span.stop rest

theorem gaps_cons (stop cursor : Nat) (span : Span) (rest : List Span) :
    Partition.gaps stop cursor (span :: rest) =
      (if cursor < span.start then [⟨cursor, span.start⟩] else []) ++
        Partition.gaps stop span.stop rest := by
  rw [Partition.gaps]
  split <;> rfl

/-- Completing some spans adds their gaps and nothing else. -/
theorem completed_perm (stop cursor : Nat) (spans : List Span) :
    (spans ++ Partition.gaps stop cursor spans).Perm (completed stop cursor spans) := by
  induction spans generalizing cursor with
  | nil => exact List.Perm.refl _
  | cons span rest ih =>
      rw [gaps_cons, completed]
      generalize (if cursor < span.start then [(⟨cursor, span.start⟩ : Span)] else []) = gap
      have hSwap : (span :: rest ++ (gap ++ Partition.gaps stop span.stop rest)).Perm
          (gap ++ (span :: rest ++ Partition.gaps stop span.stop rest)) := by
        rw [← List.append_assoc, ← List.append_assoc]
        exact List.perm_append_comm.append_right _
      exact hSwap.trans ((List.Perm.cons span (ih span.stop)).append_left gap)

/-- **Spans apart tile together with their gaps.** -/
theorem tiles_completed {spans : List Span} {stop cursor : Nat} (h : Apart cursor stop spans) :
    Tiles cursor stop (completed stop cursor spans) := by
  induction spans generalizing cursor with
  | nil =>
      have hLe : cursor ≤ stop := h
      rw [completed, Partition.gaps]
      split
      · exact ⟨rfl, hLe, rfl⟩
      · show cursor = stop
        omega
  | cons span rest ih =>
      obtain ⟨hStart, hSize, hRest⟩ := h
      have hTail := ih hRest
      rw [completed]
      split
      · exact ⟨rfl, hStart, rfl, Nat.le_of_lt hSize, hTail⟩
      · exact ⟨by omega, Nat.le_of_lt hSize, hTail⟩

/-- A completed list is apart itself. -/
theorem apart_completed {spans : List Span} {stop cursor : Nat} (h : Apart cursor stop spans) :
    Apart cursor stop (completed stop cursor spans) := by
  induction spans generalizing cursor with
  | nil =>
      have hLe : cursor ≤ stop := h
      rw [completed, Partition.gaps]
      split
      · next hGap => exact ⟨Nat.le_refl _, hGap, Nat.le_refl _⟩
      · exact hLe
  | cons span rest ih =>
      obtain ⟨hStart, hSize, hRest⟩ := h
      have hTail := ih hRest
      rw [completed]
      split
      · next hGap => exact ⟨Nat.le_refl _, hGap, Nat.le_refl _, hSize, hTail⟩
      · exact ⟨hStart, hSize, hTail⟩

/-- Gaps lie between the ends and are not empty. -/
theorem mem_gaps {spans : List Span} {stop cursor : Nat} (h : Apart cursor stop spans)
    {gap : Span} (hMem : gap ∈ Partition.gaps stop cursor spans) :
    cursor ≤ gap.start ∧ gap.start < gap.stop ∧ gap.stop ≤ stop := by
  refine (apart_completed h).mem ((completed_perm stop cursor spans).mem_iff.mp ?_)
  exact List.mem_append_right spans hMem

/-- **Gaps come in order, and between two of them lies a span**, so no two
of them touch. -/
theorem pairwise_gaps {spans : List Span} {stop cursor : Nat} (h : Apart cursor stop spans) :
    (Partition.gaps stop cursor spans).Pairwise fun a b => a.stop < b.start := by
  induction spans generalizing cursor with
  | nil =>
      rw [Partition.gaps]
      split
      · exact List.pairwise_singleton _ _
      · exact List.Pairwise.nil
  | cons span rest ih =>
      obtain ⟨hStart, hSize, hRest⟩ := h
      rw [gaps_cons]
      split
      · refine List.pairwise_cons.mpr ⟨fun later hLater => ?_, ih hRest⟩
        have hFrom := (mem_gaps hRest hLater).1
        show span.start < later.start
        omega
      · exact ih hRest

/-- Gaps share no byte with the spans between which they are. -/
theorem gaps_outside {spans : List Span} {stop cursor : Nat} (h : Apart cursor stop spans)
    {span gap : Span} (hSpan : span ∈ spans) (hGap : gap ∈ Partition.gaps stop cursor spans) :
    span.stop ≤ gap.start ∨ gap.stop ≤ span.start := by
  have hCompleted : (completed stop cursor spans).Pairwise fun a b =>
      a.stop ≤ b.start ∨ b.stop ≤ a.start :=
    (apart_completed h).pairwise.imp .inl
  rw [← (completed_perm stop cursor spans).pairwise_iff fun hab => hab.symm] at hCompleted
  exact (List.pairwise_append.mp hCompleted).2.2 span hSpan gap hGap

/-- Gaps hold what no span holds. -/
theorem gaps_cover {spans : List Span} {stop cursor byte : Nat} (h : Apart cursor stop spans)
    (hFrom : cursor ≤ byte) (hTo : byte < stop) (hNone : ∀ span ∈ spans, ¬ span.Holds byte) :
    ∃ gap ∈ Partition.gaps stop cursor spans, gap.Holds byte := by
  obtain ⟨before, span, after, hEq, hHolds, _⟩ := (tiles_completed h).covered hFrom hTo
  have hMem : span ∈ completed stop cursor spans := by
    rw [hEq]
    exact List.mem_append_right before List.mem_cons_self
  rw [← (completed_perm stop cursor spans).mem_iff] at hMem
  rcases List.mem_append.mp hMem with hSpan | hGap
  · exact absurd hHolds (hNone span hSpan)
  · exact ⟨span, hGap, hHolds⟩

/-- Spans that come in order reach from the start of the first to the end of
the last. -/
theorem first_lt_last {spans : List Span} (hSize : ∀ span ∈ spans, span.start < span.stop)
    (hOrder : spans.Pairwise fun a b => a.stop < b.start) {first last : Span}
    (hFirst : spans.head? = some first) (hLast : spans.getLast? = some last) :
    first.start < last.stop := by
  cases spans with
  | nil => cases hFirst
  | cons span rest =>
      obtain rfl : span = first := Option.some.inj hFirst
      have hOwn := hSize span List.mem_cons_self
      have hMem : last ∈ span :: rest := List.mem_of_getLast? hLast
      rcases List.mem_cons.mp hMem with rfl | hLater
      · exact hOwn
      · have hAfter := (List.pairwise_cons.mp hOrder).1 last hLater
        have hLastSize := hSize last hMem
        omega

end SourceIndex.Span
