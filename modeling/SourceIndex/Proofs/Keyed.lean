import Mathlib.Algebra.GroupWithZero.Nat
import SourceIndex.Keyed

/-!
# Look-ups in keyed lists

A keyed list holds each key once, in the order of the keys, and `set` keeps it
so.  Values that carry their own keys can be put in one after the other; as
long as these keys differ, no value displaces another and each is found again.

## Main results

* `ordered_set` — putting a value under a key keeps the keys in order.
* `mem_ofValues` — nothing is found but the values that were put in.
* `get?_ofValues_eq_some_iff` — values with distinct keys are all found.
* `get?_tally`, `total_tally` — what is counted of each name, and in all.
-/

namespace SourceIndex.Keyed

variable {α : Type} {key : String} {value : α} {map : Keyed α}

/-- The keys stand in their order, none twice. -/
def Ordered (map : Keyed α) : Prop := map.Pairwise fun a b => a.1 < b.1

theorem mem_of_get? (h : get? key map = some value) : (key, value) ∈ map := by
  induction map with
  | nil => cases h
  | cons first rest ih =>
      obtain ⟨found, other⟩ := first
      rw [get?] at h
      split at h
      · next hFound =>
          cases h
          rw [hFound]
          exact List.mem_cons_self
      · exact List.mem_cons_of_mem _ (ih h)

theorem mem_set {entry : String × α} (h : entry ∈ set key value map) :
    entry = (key, value) ∨ entry ∈ map := by
  induction map with
  | nil => exact .inl (List.mem_singleton.mp h)
  | cons first rest ih =>
      obtain ⟨found, old⟩ := first
      rw [set] at h
      split at h
      · exact (List.mem_cons.mp h).imp_right (List.mem_cons_of_mem _)
      · split at h
        · exact List.mem_cons.mp h
        · rcases List.mem_cons.mp h with rfl | hLater
          · exact .inr List.mem_cons_self
          · exact (ih hLater).imp_right (List.mem_cons_of_mem _)

/-- **Putting a value under a key keeps the keys in order.** -/
theorem ordered_set (key : String) (value : α) (h : Ordered map) :
    Ordered (set key value map) := by
  induction map with
  | nil => exact List.pairwise_singleton _ _
  | cons first rest ih =>
      obtain ⟨found, old⟩ := first
      obtain ⟨hBefore, hRest⟩ := List.pairwise_cons.mp h
      rw [set]
      split
      · next hFound =>
          rw [← hFound]
          exact List.pairwise_cons.mpr ⟨hBefore, hRest⟩
      · next hOther =>
          split
          · next hLess =>
              refine List.pairwise_cons.mpr ⟨?_, h⟩
              intro entry hEntry
              rcases List.mem_cons.mp hEntry with rfl | hLater
              · exact hLess
              · exact String.lt_trans hLess (hBefore entry hLater)
          · next hNotLess =>
              refine List.pairwise_cons.mpr ⟨?_, ih hRest⟩
              intro entry hEntry
              rcases mem_set hEntry with rfl | hLater
              · exact Std.lt_of_le_of_ne (String.not_lt.mp hNotLess) hOther
              · exact hBefore entry hLater

/-! ## Values with their own keys -/

/-- Puts values under the keys that they carry, the first value first. -/
def putAll (keyOf : α → String) (values : List α) (map : Keyed α) : Keyed α :=
  values.foldl (fun found value => set (keyOf value) value found) map

/-- Values under the keys that they carry. -/
def ofValues (keyOf : α → String) (values : List α) : Keyed α := putAll keyOf values []

section Values

variable {keyOf : α → String} {values : List α}

theorem ordered_putAll (h : Ordered map) : Ordered (putAll keyOf values map) := by
  induction values generalizing map with
  | nil => exact h
  | cons first rest ih => exact ih (ordered_set _ _ h)

theorem ordered_ofValues (keyOf : α → String) (values : List α) :
    Ordered (ofValues keyOf values) :=
  ordered_putAll List.Pairwise.nil

theorem mem_putAll {entry : String × α} (h : entry ∈ putAll keyOf values map) :
    (∃ value ∈ values, entry = (keyOf value, value)) ∨ entry ∈ map := by
  induction values generalizing map with
  | nil => exact .inr h
  | cons first rest ih =>
      rcases ih h with ⟨found, hFound, rfl⟩ | hSet
      · exact .inl ⟨found, List.mem_cons_of_mem _ hFound, rfl⟩
      · rcases mem_set hSet with rfl | hMap
        · exact .inl ⟨first, List.mem_cons_self, rfl⟩
        · exact .inr hMap

/-- Nothing is found but the values that were put in. -/
theorem mem_ofValues {entry : String × α} (h : entry ∈ ofValues keyOf values) :
    ∃ value ∈ values, entry = (keyOf value, value) :=
  (mem_putAll h).resolve_right List.not_mem_nil

/-- A key that no value carries keeps what it had. -/
theorem get?_putAll_of_not_mem (h : key ∉ values.map keyOf) :
    get? key (putAll keyOf values map) = get? key map := by
  induction values generalizing map with
  | nil => rfl
  | cons first rest ih =>
      rw [List.map_cons, List.mem_cons, not_or] at h
      rw [show putAll keyOf (first :: rest) map =
        putAll keyOf rest (set (keyOf first) first map) from rfl, ih h.2,
        get?_set_of_ne h.1]

theorem get?_putAll_of_mem (hKeys : (values.map keyOf).Nodup) (h : value ∈ values) :
    get? (keyOf value) (putAll keyOf values map) = some value := by
  induction values generalizing map with
  | nil => cases h
  | cons first rest ih =>
      rw [List.map_cons, List.nodup_cons] at hKeys
      rw [show putAll keyOf (first :: rest) map =
        putAll keyOf rest (set (keyOf first) first map) from rfl]
      rcases List.mem_cons.mp h with rfl | hLater
      · rw [get?_putAll_of_not_mem hKeys.1, get?_set_self]
      · exact ih hKeys.2 hLater

/-- **Values with distinct keys are all found.** -/
theorem get?_ofValues_eq_some_iff (hKeys : (values.map keyOf).Nodup) :
    get? key (ofValues keyOf values) = some value ↔ value ∈ values ∧ keyOf value = key := by
  constructor
  · intro h
    obtain ⟨found, hFound, hEq⟩ := mem_ofValues (mem_of_get? h)
    cases hEq
    exact ⟨hFound, rfl⟩
  · rintro ⟨hMem, rfl⟩
    exact get?_putAll_of_mem hKeys hMem

end Values

/-! ## Counting -/

section Counting

variable {counts : Keyed Nat}

/-- A key that is none of those in a list has no value there. -/
theorem get?_eq_none (h : ∀ entry ∈ map, entry.1 ≠ key) : get? key map = none := by
  induction map with
  | nil => rfl
  | cons first rest ih =>
      have hFirst := h first List.mem_cons_self
      rw [get?, if_neg hFirst]
      exact ih fun entry hEntry => h entry (List.mem_cons_of_mem _ hEntry)

/-- The sum of all counts. -/
def total (counts : Keyed Nat) : Nat := (counts.map (·.2)).sum

theorem total_cons (first : String × Nat) (rest : Keyed Nat) :
    total (first :: rest) = first.2 + total rest := List.sum_cons

/-- Another count of one key changes the sum by the difference. -/
theorem total_set (key : String) (n : Nat) (h : Ordered counts) :
    total (set key n counts) + (get? key counts).getD 0 = total counts + n := by
  induction counts with
  | nil => simp [set, get?, total]
  | cons first rest ih =>
      obtain ⟨found, old⟩ := first
      obtain ⟨hBefore, hRest⟩ := List.pairwise_cons.mp h
      by_cases hFound : found = key
      · simp only [set, get?, if_pos hFound, total_cons, Option.getD_some]
        omega
      · by_cases hLess : key < found
        · -- The key belongs before all others, so it is not there yet.
          have hNone : get? key rest = none := by
            apply get?_eq_none
            intro entry hEntry hSame
            have hAfter := String.lt_trans hLess (hBefore entry hEntry)
            rw [hSame] at hAfter
            exact String.lt_irrefl key hAfter
          simp only [set, get?, if_neg hFound, if_pos hLess, hNone, total_cons, Option.getD_none]
          omega
        · have hLater := ih hRest
          simp only [set, get?, if_neg hFound, if_neg hLess, total_cons]
          omega

theorem ordered_count (h : Ordered counts) : Ordered (count key counts) := ordered_set _ _ h

theorem total_count (h : Ordered counts) : total (count key counts) = total counts + 1 := by
  have hSet := total_set key ((get? key counts).getD 0 + 1) h
  rw [count]
  omega

/-- Counts names, the first name first. -/
def countAll (names : List String) (counts : Keyed Nat) : Keyed Nat :=
  names.foldl (fun counts name => count name counts) counts

/-- How often each name is there. -/
def tally (names : List String) : Keyed Nat := countAll names []

theorem get?_countAll (names : List String) :
    (get? key (countAll names counts)).getD 0 = (get? key counts).getD 0 + names.count key := by
  induction names generalizing counts with
  | nil => simp [countAll]
  | cons name rest ih =>
      show (get? key (countAll rest (count name counts))).getD 0 = _
      rw [ih, List.count_cons]
      by_cases hSame : name = key
      · rw [hSame, count, get?_set_self, if_pos (beq_self_eq_true key), Option.getD_some]
        omega
      · rw [count, get?_set_of_ne (Ne.symm hSame), if_neg (by simpa using hSame)]
        omega

theorem total_countAll (names : List String) (h : Ordered counts) :
    total (countAll names counts) = total counts + names.length := by
  induction names generalizing counts with
  | nil => rfl
  | cons name rest ih =>
      show total (countAll rest (count name counts)) = _
      rw [ih (ordered_count h), total_count h, List.length_cons]
      omega

/-- **Each name counts as often as it is there.** -/
theorem get?_tally (names : List String) :
    (get? key (tally names)).getD 0 = names.count key := by
  rw [tally, get?_countAll, get?, Option.getD_none, Nat.zero_add]

/-- **All counts together are the number of names.** -/
theorem total_tally (names : List String) : total (tally names) = names.length := by
  rw [tally, total_countAll names List.Pairwise.nil]
  exact Nat.zero_add _

end Counting

end SourceIndex.Keyed
