import Mathlib.Data.List.Forall2

/-!
# Lists paired member by member

The walk over a tree, the definitions it finds and their chunks are lists of
one length whose members belong together.  `List.Forall₂` says so; what it
tells of single members, and of two lists paired with a third one, is here.

## Main results

* `exists_right`, `exists_left` — every member has its partner.
* `exists_partners` — members that have partners make a paired list.
* `compose` — two lists paired with one list are paired with each other.
-/

namespace SourceIndex.Pairing

variable {α β γ : Type} {R : α → β → Prop} {S : α → γ → Prop}

theorem exists_right {items : List α} {partners : List β} (h : List.Forall₂ R items partners)
    {item : α} (hMem : item ∈ items) : ∃ partner ∈ partners, R item partner := by
  induction h with
  | nil => cases hMem
  | @cons first partner rest others hHere _ ih =>
      rcases List.mem_cons.mp hMem with rfl | hLater
      · exact ⟨partner, List.mem_cons_self, hHere⟩
      · obtain ⟨other, hOther, hRelated⟩ := ih hLater
        exact ⟨other, List.mem_cons_of_mem partner hOther, hRelated⟩

theorem exists_left {items : List α} {partners : List β} (h : List.Forall₂ R items partners)
    {partner : β} (hMem : partner ∈ partners) : ∃ item ∈ items, R item partner :=
  exists_right h.flip hMem

/-- Members that have partners, each for itself, make a list that is paired. -/
theorem exists_partners {items : List α} (h : ∀ item ∈ items, ∃ partner, R item partner) :
    ∃ partners, List.Forall₂ R items partners := by
  induction items with
  | nil => exact ⟨[], .nil⟩
  | cons item items ih =>
      rw [List.forall_mem_cons] at h
      obtain ⟨partner, hHere⟩ := h.1
      obtain ⟨partners, hRest⟩ := ih h.2
      exact ⟨partner :: partners, .cons hHere hRest⟩

/-- The first members are partners. -/
theorem head {items : List α} {partners : List β} (h : List.Forall₂ R items partners)
    {item : α} {partner : β} (hItem : items.head? = some item)
    (hPartner : partners.head? = some partner) : R item partner := by
  cases h with
  | nil => cases hItem
  | cons hHere _ =>
      cases hItem
      cases hPartner
      exact hHere

/-- Members paired with the members of one list are paired with each other. -/
theorem compose {items : List α} {partners : List β} {others : List γ}
    (h : List.Forall₂ R items partners) (hOthers : List.Forall₂ S items others) :
    List.Forall₂ (fun partner other => ∃ item ∈ items, R item partner ∧ S item other)
      partners others := by
  induction h generalizing others with
  | nil =>
      cases hOthers
      exact .nil
  | @cons item partner items partners hHere _ ih =>
      cases hOthers with
      | cons hOther hRest =>
          refine .cons ⟨item, List.mem_cons_self, hHere, hOther⟩ ((ih hRest).imp ?_)
          rintro next other ⟨source, hSource, hRelated⟩
          exact ⟨source, List.mem_cons_of_mem item hSource, hRelated⟩

end SourceIndex.Pairing
