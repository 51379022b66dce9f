import SourceIndex.Text.Blank

/-!
# Cutting a text that goes on

What a cut makes of a text that goes on behind a character at which it cuts:
the pieces before this character are those of the text before it, and nothing
behind it has a part in them.

## Main results

* `splitWhere_append`, `dropWhile_append_cons` — the pieces and the beginning of a
  text that goes on.
* `splitWhere_joined` — the pieces of a text that was joined from pieces.
* `trimEndWhere_of_getLast?` — a text without an ending to cut.
-/

namespace SourceIndex.Text

variable {p : Char → Bool} {cut : Char} {before after text : List Char}

theorem splitWhere_cons_of_pos {c : Char} (h : p c = true) (rest : List Char) :
    splitWhere p (c :: rest) = [] :: splitWhere p rest := by
  rw [splitWhere, if_pos h]

/-- A character that does not cut stands in the first piece. -/
theorem splitWhere_cons_of_neg {c : Char} (h : ¬ p c = true) {rest piece : List Char}
    {others : List (List Char)} (hRest : splitWhere p rest = piece :: others) :
    splitWhere p (c :: rest) = (c :: piece) :: others := by
  rw [splitWhere, if_neg h, hRest]

/-- There is always a first piece. -/
theorem exists_splitWhere_eq_cons (p : Char → Bool) (text : List Char) :
    ∃ piece others, splitWhere p text = piece :: others :=
  List.exists_cons_of_ne_nil (splitWhere_ne_nil p text)

/-- **The pieces of a text that goes on behind a cut.** -/
theorem splitWhere_append (hCut : p cut = true) (before after : List Char) :
    splitWhere p (before ++ cut :: after) = splitWhere p before ++ splitWhere p after := by
  induction before with
  | nil => exact splitWhere_cons_of_pos hCut after
  | cons c rest ih =>
      by_cases h : p c = true
      · rw [List.cons_append, splitWhere_cons_of_pos h, splitWhere_cons_of_pos h, ih,
          List.cons_append]
      · obtain ⟨piece, others, hRest⟩ := exists_splitWhere_eq_cons p rest
        rw [hRest, List.cons_append] at ih
        rw [List.cons_append, splitWhere_cons_of_neg h ih, splitWhere_cons_of_neg h hRest,
          List.cons_append]

/-- A text without a cut is one piece. -/
theorem splitWhere_of_forall (h : ∀ c ∈ text, p c = false) : splitWhere p text = [text] := by
  induction text with
  | nil => rfl
  | cons c rest ih =>
      obtain ⟨hFirst, hRest⟩ := List.forall_mem_cons.mp h
      exact splitWhere_cons_of_neg (by simp [hFirst]) (ih hRest)

/-- **Texts that are joined by cuts are the pieces again.** -/
theorem splitWhere_joined (hCut : p cut = true) {parts : List (List Char)} (hSome : parts ≠ [])
    (h : ∀ part ∈ parts, ∀ c ∈ part, p c = false) :
    splitWhere p ([cut].intercalate parts) = parts := by
  induction parts with
  | nil => exact absurd rfl hSome
  | cons part rest ih =>
      obtain ⟨hPart, hRest⟩ := List.forall_mem_cons.mp h
      cases rest with
      | nil => rw [List.intercalate_singleton, splitWhere_of_forall hPart]
      | cons next rest =>
          rw [List.intercalate_cons_cons, List.append_assoc, List.singleton_append,
            splitWhere_append hCut, splitWhere_of_forall hPart, ih (by simp) hRest,
            List.singleton_append]

/-! ## Beginnings and endings -/

/-- What is dropped before a character that is kept does not depend on what
follows it. -/
theorem dropWhile_append_cons (hCut : p cut = false) (before after : List Char) :
    (before ++ cut :: after).dropWhile p = before.dropWhile p ++ cut :: after := by
  induction before with
  | nil => rw [List.nil_append, List.dropWhile_cons_of_neg (by simp [hCut])]; rfl
  | cons c rest ih =>
      by_cases h : p c = true
      · rw [List.cons_append, List.dropWhile_cons_of_pos h, List.dropWhile_cons_of_pos h, ih]
      · rw [List.cons_append, List.dropWhile_cons_of_neg h, List.dropWhile_cons_of_neg h,
          List.cons_append]

/-- What is dropped before a character that is kept does not depend on what
follows it. -/
theorem dropWhile_append_of_mem (hCut : p cut = false) (h : cut ∈ before) (after : List Char) :
    (before ++ after).dropWhile p = before.dropWhile p ++ after := by
  obtain ⟨first, rest, rfl⟩ := List.append_of_mem h
  rw [List.append_assoc, List.cons_append, dropWhile_append_cons hCut, dropWhile_append_cons hCut,
    List.append_assoc, List.cons_append]

theorem trimEndWhere_cons (p : Char → Bool) (c : Char) (rest : List Char) :
    trimEndWhere p (c :: rest) =
      if (trimEndWhere p rest).isEmpty && p c then [] else c :: trimEndWhere p rest := rfl

/-- A text stays whole when its last character does. -/
theorem trimEndWhere_of_getLast? (h : ∀ last ∈ text.getLast?, p last = false) :
    trimEndWhere p text = text := by
  induction text with
  | nil => rfl
  | cons c rest ih =>
      cases rest with
      | nil =>
          have hLast : p c = false := h c rfl
          rw [trimEndWhere_cons, hLast, Bool.and_false]
          rfl
      | cons d other =>
          have hRest : trimEndWhere p (d :: other) = d :: other := ih h
          rw [trimEndWhere_cons, hRest]
          rfl

/-- What is left of a text does not end in what was cut off. -/
theorem getLast?_trimEndWhere (p : Char → Bool) (text : List Char) :
    ∀ last ∈ (trimEndWhere p text).getLast?, p last = false := by
  induction text with
  | nil =>
      intro last hLast
      cases hLast
  | cons c rest ih =>
      intro last hLast
      rw [trimEndWhere_cons] at hLast
      cases hRest : trimEndWhere p rest with
      | nil =>
          rw [hRest] at hLast
          cases hCut : p c with
          | true =>
              rw [hCut] at hLast
              cases hLast
          | false =>
              rw [hCut] at hLast
              cases hLast
              exact hCut
      | cons d other =>
          rw [hRest] at hLast ih
          exact ih last hLast

/-- A trimmed text does not end in a blank. -/
theorem getLast?_trimmed (text : String) :
    ∀ last ∈ (trimmed text).toList.getLast?, isBlank last = false := by
  rw [trimmed, String.toList_ofList]
  exact getLast?_trimEndWhere isBlank _

end SourceIndex.Text
