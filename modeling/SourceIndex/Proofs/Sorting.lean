/-!
# Sorting by a key

Definitions, chunks and the items of a reply are sorted by a number that each
of them carries.  Sorting by a key is stable and its result is sorted; where
the keys differ, the result is the only sorted arrangement, so it can be
given in advance.

## Main results

* `pairwise_sortBy` — the result is sorted.
* `pairwise_lt_sortBy` — it is strictly sorted where the keys differ.
* `sortBy_eq_of_perm` — it is any strictly sorted permutation of the input.
-/

namespace SourceIndex.Sorting

variable {α : Type} (key : α → Nat)

/-- The result of sorting is sorted. -/
theorem pairwise_sortBy (items : List α) :
    (items.mergeSort fun a b => key a ≤ key b).Pairwise fun a b => key a ≤ key b := by
  have hTrans : ∀ a b c : α, decide (key a ≤ key b) = true → decide (key b ≤ key c) = true →
      decide (key a ≤ key c) = true := by
    intro a b c hab hbc
    simp only [decide_eq_true_eq] at hab hbc ⊢
    omega
  have hTotal : ∀ a b : α, (decide (key a ≤ key b) || decide (key b ≤ key a)) = true := by
    intro a b
    simp only [Bool.or_eq_true, decide_eq_true_eq]
    omega
  exact (List.pairwise_mergeSort hTrans hTotal items).imp fun hab => of_decide_eq_true hab

/-- Sorting leaves a sorted list alone. -/
theorem sortBy_eq_self {items : List α} (h : items.Pairwise fun a b => key a ≤ key b) :
    (items.mergeSort fun a b => key a ≤ key b) = items :=
  List.mergeSort_of_pairwise (h.imp fun hab => decide_eq_true hab)

/-- Where the keys differ the result is strictly sorted. -/
theorem pairwise_lt_sortBy {items : List α} (h : (items.map key).Nodup) :
    (items.mergeSort fun a b => key a ≤ key b).Pairwise fun a b => key a < key b := by
  have hPerm := List.mergeSort_perm items fun a b => decide (key a ≤ key b)
  have hNodup : ((items.mergeSort fun a b => key a ≤ key b).map key).Nodup :=
    (hPerm.map key).nodup_iff.mpr h
  have hNe := List.pairwise_map.mp hNodup
  refine ((pairwise_sortBy key items).and hNe).imp ?_
  intro a b hab
  omega

/-- Strictly sorted lists with the same members are the same. -/
theorem eq_of_perm {items others : List α} (hPerm : items.Perm others)
    (hItems : items.Pairwise fun a b => key a < key b)
    (hOthers : others.Pairwise fun a b => key a < key b) : items = others := by
  refine List.Perm.eq_of_pairwise ?_ hItems hOthers hPerm
  intro a b _ _ hab hba
  omega

/--
**A strictly sorted permutation is the result of sorting.**  Two members with
one key cannot both stand in it, so no question of stability arises.
-/
theorem sortBy_eq_of_perm {items sorted : List α} (hPerm : items.Perm sorted)
    (hSorted : sorted.Pairwise fun a b => key a < key b) :
    (items.mergeSort fun a b => key a ≤ key b) = sorted := by
  have hKeys : (sorted.map key).Nodup :=
    List.pairwise_map.mpr (hSorted.imp Nat.ne_of_lt)
  have hResult := pairwise_lt_sortBy key ((hPerm.map key).nodup_iff.mpr hKeys)
  exact eq_of_perm key ((List.mergeSort_perm _ _).trans hPerm) hResult hSorted

end SourceIndex.Sorting
