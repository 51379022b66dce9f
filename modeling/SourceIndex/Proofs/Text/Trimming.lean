import SourceIndex.Proofs.Text.Cuts

/-!
# What trimming leaves

Trimming is a walk over the characters of a text, from each of its ends.  Here
it is said without a walk what it leaves: a part of the text, with nothing but
blanks before and after it, that itself neither begins nor ends with a blank.
There is only one such part (`trims_iff`), whatever the text is.

## Main results

* `strips_iff`, `trims_iff` — what is left at one end, and between both.
* `spells_iff` — which texts are read as a name.
-/

namespace SourceIndex.Text

/-- What is left of a text behind its leading characters of some sort. -/
structure Strips (p : Char → Bool) (text rest : List Char) : Prop where
  parts : ∃ before, text = before ++ rest ∧ ∀ c ∈ before, p c = true
  first : ∀ c ∈ rest.head?, p c = false

/-- What is left of a text between its leading and its trailing blanks. -/
structure Trims (text inner : List Char) : Prop where
  parts : ∃ before after, text = before ++ inner ++ after ∧
    (∀ c ∈ before, isBlank c = true) ∧ ∀ c ∈ after, isBlank c = true
  first : ∀ c ∈ inner.head?, isBlank c = false
  last : ∀ c ∈ inner.getLast?, isBlank c = false

/-- What is left of a text in front of its trailing blanks. -/
structure Bares (text kept : List Char) : Prop where
  parts : ∃ after, text = kept ++ after ∧ ∀ c ∈ after, isBlank c = true
  last : ∀ c ∈ kept.getLast?, isBlank c = false

/-- A text is read as a name: without its outer blanks and with the letters A to
Z lowered it is the name. -/
def Spells (text name : String) : Prop :=
  ∃ inner, Trims text.toList inner ∧ inner.map Char.toLower = name.toList

section Ends

variable {p : Char → Bool} {text rest : List Char}

theorem dropWhile_of_head? (h : ∀ c ∈ text.head?, p c = false) : text.dropWhile p = text := by
  cases text with
  | nil => rfl
  | cons c rest =>
      have hFirst : p c = false := h c rfl
      simp [hFirst]

/-- **What is left behind leading characters.** -/
theorem strips_iff : Strips p text rest ↔ text.dropWhile p = rest := by
  constructor
  · rintro ⟨⟨before, rfl, hBefore⟩, hFirst⟩
    rw [List.dropWhile_append_of_pos hBefore, dropWhile_of_head? hFirst]
  · rintro rfl
    refine ⟨⟨text.takeWhile p, List.takeWhile_append_dropWhile.symm, ?_⟩, ?_⟩
    · exact List.all_eq_true.mp List.all_takeWhile
    · intro c hc
      have hHead := List.head?_dropWhile_not p text
      rw [Option.mem_def.mp hc] at hHead
      exact hHead

/-- Trailing characters are cut off. -/
theorem trimEndWhere_append_of_pos (text : List Char) {after : List Char}
    (h : ∀ c ∈ after, p c = true) : trimEndWhere p (text ++ after) = trimEndWhere p text := by
  induction text with
  | nil =>
      induction after with
      | nil => rfl
      | cons c rest ih =>
          have hRest : trimEndWhere p rest = [] :=
            ih fun d hd => h d (List.mem_cons_of_mem c hd)
          have hFirst : p c = true := h c List.mem_cons_self
          rw [List.nil_append, trimEndWhere_cons, hRest, hFirst]
          rfl
  | cons c rest ih => rw [List.cons_append, trimEndWhere_cons, trimEndWhere_cons, ih]

/-- Nothing else is cut off. -/
theorem exists_trimEndWhere_append (p : Char → Bool) (text : List Char) :
    ∃ after, text = trimEndWhere p text ++ after ∧ ∀ c ∈ after, p c = true := by
  induction text with
  | nil => exact ⟨[], rfl, by simp⟩
  | cons c rest ih =>
      obtain ⟨after, hRest, hAfter⟩ := ih
      by_cases hCut : ((trimEndWhere p rest).isEmpty && p c) = true
      · rw [trimEndWhere_cons, if_pos hCut]
        simp only [Bool.and_eq_true, List.isEmpty_iff] at hCut
        rw [hCut.1, List.nil_append] at hRest
        refine ⟨c :: rest, rfl, ?_⟩
        intro d hd
        rcases List.mem_cons.mp hd with rfl | hLater
        · exact hCut.2
        · exact hAfter d (hRest ▸ hLater)
      · rw [trimEndWhere_cons, if_neg hCut]
        exact ⟨after, by rw [List.cons_append, ← hRest], hAfter⟩

end Ends

variable {text inner : List Char}

/-- **What is left between the blanks at both ends.** -/
theorem trims_iff : Trims text inner ↔ trim text = inner := by
  constructor
  · rintro ⟨⟨before, after, rfl, hBefore, hAfter⟩, hFirst, hLast⟩
    rw [trim, trimEnd, trimStart, List.append_assoc, List.dropWhile_append_of_pos hBefore]
    cases inner with
    | nil =>
        have hNone : after.dropWhile isBlank = [] :=
          strips_iff.mp ⟨⟨after, (List.append_nil after).symm, hAfter⟩, by simp⟩
        rw [List.nil_append, hNone]
        rfl
    | cons c rest =>
        have hHead : ∀ d ∈ (c :: rest ++ after).head?, isBlank d = false := hFirst
        rw [dropWhile_of_head? hHead, trimEndWhere_append_of_pos _ hAfter,
          trimEndWhere_of_getLast? hLast]
  · rintro rfl
    obtain ⟨⟨before, hBefore, hBlank⟩, hFirst⟩ :=
      strips_iff.mpr (rfl : text.dropWhile isBlank = trimStart text)
    obtain ⟨after, hAfter, hTrailing⟩ := exists_trimEndWhere_append isBlank (trimStart text)
    refine ⟨⟨before, after, ?_, hBlank, hTrailing⟩, ?_, getLast?_trimEndWhere isBlank _⟩
    · rw [List.append_assoc, trim, trimEnd, ← hAfter]
      exact hBefore
    · intro c hc
      have hHead : (trimStart text).head? = some c := by
        rw [hAfter, List.head?_append, Option.or_eq_some_iff]
        exact .inl hc
      exact hFirst c hHead

/-- Nothing else is left of a text when there are blanks around it. -/
theorem Trims.padded {before after : List Char} (h : Trims text inner)
    (hBefore : ∀ c ∈ before, isBlank c = true) (hAfter : ∀ c ∈ after, isBlank c = true) :
    Trims (before ++ text ++ after) inner := by
  obtain ⟨⟨front, back, rfl, hFront, hBack⟩, hFirst, hLast⟩ := h
  refine ⟨⟨before ++ front, back ++ after, by simp only [List.append_assoc], ?_, ?_⟩, hFirst, hLast⟩
  · exact List.forall_mem_append.mpr ⟨hBefore, hFront⟩
  · exact List.forall_mem_append.mpr ⟨hBack, hAfter⟩

/-- Nothing more is trimmed of what is left. -/
theorem Trims.again (h : Trims text inner) : Trims inner inner :=
  ⟨⟨[], [], by rw [List.nil_append, List.append_nil], nofun, nofun⟩, h.first, h.last⟩

/-- Of blanks, and of nothing else, nothing is left. -/
theorem trims_nil_iff : Trims text [] ↔ ∀ c ∈ text, isBlank c = true := by
  constructor
  · rintro ⟨⟨before, after, rfl, hBefore, hAfter⟩, _, _⟩
    rw [List.append_nil]
    exact List.forall_mem_append.mpr ⟨hBefore, hAfter⟩
  · intro hBlank
    exact ⟨⟨text, [], by rw [List.append_nil, List.append_nil], hBlank, nofun⟩, nofun, nofun⟩

theorem bares_trimEnd (text : List Char) : Bares text (trimEnd text) :=
  ⟨exists_trimEndWhere_append isBlank text, getLast?_trimEndWhere isBlank text⟩

theorem trims_trimmed (text : String) : Trims text.toList (trimmed text).toList := by
  rw [trims_iff, trimmed, String.toList_ofList]

/-- **Which texts are read as a name.** -/
theorem spells_iff {text name : String} : Spells text name ↔ normalizedName text = name := by
  have hName : normalizedName text = name ↔ (trim text.toList).map Char.toLower = name.toList := by
    rw [normalizedName, asciiLower, trimmed, String.toList_ofList, ← String.toList_inj,
      String.toList_ofList]
  rw [hName]
  constructor
  · rintro ⟨inner, hInner, hLowered⟩
    rwa [trims_iff.mp hInner]
  · intro hLowered
    exact ⟨trim text.toList, trims_iff.mpr rfl, hLowered⟩

end SourceIndex.Text
