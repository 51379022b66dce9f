import SourceIndex.Embedding.Batches
import SourceIndex.Proofs.Text.Tiling

/-!
# Planned batches

Whatever the limits are, the planned batches cut the positions of the texts
into consecutive parts, none of them empty.  The open batch of `planFrom`
starts at or before the next text, and it is closed only when it holds at
least one text, because a batch of no texts is never full.

## Main results

* `Batches.plan_tiles` — batches tile the positions of the texts.
* `Batches.plan_nonempty` — each batch has a text.
-/

namespace SourceIndex.Embedding

namespace Batches

/-- The batches from the open one on are not empty and reach to the end. -/
private theorem planFrom_tiles {maxSize : Nat} (maxChars : Nat) (hSize : 0 < maxSize) :
    ∀ (lengths : List Nat) (next start chars : Nat), start ≤ next →
      Span.Tiles start (next + lengths.length)
          (planFrom maxSize maxChars lengths next start chars) ∧
        ∀ range ∈ planFrom maxSize maxChars lengths next start chars,
          range.start < range.stop := by
  intro lengths
  induction lengths with
  | nil =>
      intro next start chars hStart
      rw [planFrom]
      split
      · next hOpen =>
          refine ⟨⟨rfl, hStart, rfl⟩, ?_⟩
          intro range hRange
          rw [List.mem_singleton.mp hRange]
          exact hOpen
      · refine ⟨?_, fun _ hMem => by cases hMem⟩
        show start = next + 0
        omega
  | cons length rest ih =>
      intro next start chars hStart
      have hCount : next + (length :: rest).length = (next + 1) + rest.length := by
        rw [List.length_cons]
        omega
      rw [planFrom, hCount]
      split
      · next hFull =>
          -- A full batch holds `maxSize` texts or at least the one before.
          have hOpen : start < next := by
            simp only [Bool.or_eq_true, Bool.and_eq_true, decide_eq_true_eq] at hFull
            omega
          obtain ⟨hTiles, hRest⟩ := ih (next + 1) next length (Nat.le_succ next)
          refine ⟨⟨rfl, hStart, hTiles⟩, ?_⟩
          intro range hRange
          rcases List.mem_cons.mp hRange with rfl | hLater
          · exact hOpen
          · exact hRest range hLater
      · exact ih (next + 1) start (chars + length) (by omega)

/-- **Batches tile the positions of the texts.** -/
theorem plan_tiles (lengths : List Nat) (maxSize maxChars : Nat) :
    Span.Tiles 0 lengths.length (plan lengths maxSize maxChars) := by
  have h := (planFrom_tiles maxChars (Nat.lt_of_lt_of_le Nat.zero_lt_one
    (Nat.le_max_right maxSize 1)) lengths 0 0 0 (Nat.le_refl 0)).1
  rw [Nat.zero_add] at h
  exact h

/-- Each batch has a text. -/
theorem plan_nonempty (lengths : List Nat) (maxSize maxChars : Nat) :
    ∀ range ∈ plan lengths maxSize maxChars, range.start < range.stop :=
  (planFrom_tiles maxChars (Nat.lt_of_lt_of_le Nat.zero_lt_one (Nat.le_max_right maxSize 1))
    lengths 0 0 0 (Nat.le_refl 0)).2

end Batches

/-- A batch inside some texts has as many texts as its range says. -/
theorem Range.length_pick {α : Type} {range : Range} {texts : List α}
    (h : range.stop ≤ texts.length) : (range.pick texts).length = range.stop - range.start := by
  rw [Range.pick, List.length_take, List.length_drop]
  omega

end SourceIndex.Embedding
