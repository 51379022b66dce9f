import Mathlib.Data.List.Basic

/-!
# Distinct members in the order of first appearance

Where members are listed once each, a list is given up for the distinct
members of it.  `FirstAppearances` says which list that is, and it leaves no
choice: no member twice, none missing, none added, and each before those that
appear first after it.

## Main results

* `firstAppearances_eraseDups` — erasing later duplicates lists the members so.
-/

namespace SourceIndex

/-- The members of a list, each once, in the order in which they first appear. -/
structure FirstAppearances {α : Type} [BEq α] (found all : List α) : Prop where
  nodup : found.Nodup
  mem : ∀ member, member ∈ found ↔ member ∈ all
  order : found.Pairwise fun a b => all.idxOf a < all.idxOf b

section Erase

variable {α : Type} [BEq α] [LawfulBEq α]

/-- Which of two members appears first does not hang on the others. -/
theorem idxOf_lt_of_filter {a b c : α} (hb : b ≠ a) (hc : c ≠ a) {all : List α}
    (h : (all.filter fun other => !other == a).idxOf b <
      (all.filter fun other => !other == a).idxOf c) : all.idxOf b < all.idxOf c := by
  induction all with
  | nil => exact h
  | cons first rest ih =>
      by_cases hFirst : first = a
      · rw [List.filter_cons_of_neg (by simpa using hFirst)] at h
        rw [hFirst, List.idxOf_cons_ne rest hb.symm, List.idxOf_cons_ne rest hc.symm]
        exact Nat.succ_lt_succ (ih h)
      · rw [List.filter_cons_of_pos (by simpa using hFirst)] at h
        by_cases hSecond : first = c
        · rw [hSecond, List.idxOf_cons_self] at h
          exact absurd h (Nat.not_lt_zero _)
        · by_cases hThird : first = b
          · rw [hThird, List.idxOf_cons_self, List.idxOf_cons_ne rest (hThird ▸ hSecond)]
            exact Nat.succ_pos _
          · rw [List.idxOf_cons_ne _ hThird, List.idxOf_cons_ne _ hSecond] at h
            rw [List.idxOf_cons_ne rest hThird, List.idxOf_cons_ne rest hSecond]
            exact Nat.succ_lt_succ (ih (Nat.lt_of_succ_lt_succ h))

/-- **Erasing later duplicates lists the members as they first appear.** -/
theorem firstAppearances_eraseDups (all : List α) : FirstAppearances all.eraseDups all := by
  -- The duplicates of the first member are erased from the rest before all else.
  induction hLength : all.length using Nat.strongRecOn generalizing all with
  | ind length ih =>
      cases all with
      | nil =>
          rw [List.eraseDups_nil]
          exact ⟨List.nodup_nil, fun _ => Iff.rfl, List.Pairwise.nil⟩
      | cons first rest =>
          have hShorter : (rest.filter fun other => !other == first).length < length := by
            have hFilter := List.length_filter_le (fun other => !other == first) rest
            rw [List.length_cons] at hLength
            omega
          obtain ⟨hNodup, hMem, hOrder⟩ := ih _ hShorter _ rfl
          have hOther : ∀ member ∈ (rest.filter fun other => !other == first).eraseDups,
              member ≠ first := by
            intro member hMember
            have hFilter := (List.mem_filter.mp ((hMem member).mp hMember)).2
            simpa using hFilter
          refine ⟨?_, fun member => List.mem_eraseDups, ?_⟩
          · rw [List.eraseDups_cons, List.nodup_cons]
            exact ⟨fun hSelf => hOther first hSelf rfl, hNodup⟩
          · rw [List.eraseDups_cons, List.pairwise_cons]
            constructor
            · intro member hMember
              rw [List.idxOf_cons_self, List.idxOf_cons_ne rest (hOther member hMember).symm]
              exact Nat.succ_pos _
            · refine List.Pairwise.imp_of_mem ?_ hOrder
              intro a b ha hb hLess
              rw [List.idxOf_cons_ne rest (hOther a ha).symm,
                List.idxOf_cons_ne rest (hOther b hb).symm]
              exact Nat.succ_lt_succ (idxOf_lt_of_filter (hOther a ha) (hOther b hb) hLess)

end Erase

end SourceIndex
