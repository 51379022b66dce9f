import Mathlib.Data.List.Basic
import SourceIndex.Proofs.Text.Cuts

/-!
# Words with single spaces between them

Collapsing a text keeps its characters that are no blanks, in their order, and
puts a single space wherever blanks stood between two of them.  Both are said
here without words: what is kept is the text without its blanks (`inked`), and
where a blank may stand is a condition on each blank of the result (`Spaced`).

## Main results

* `inked_collapse` — collapsing keeps all that is no blank.
* `spaced_collapse` — the blanks of a collapsed text are single spaces.
* `Spaced.beginning` — so are those of its beginning, up to a character that is
  no blank.
-/

namespace SourceIndex.Text

/-- A text without its blanks. -/
def inked (text : List Char) : List Char := text.filter (!isBlank ·)

/-- Each blank of a text is a space between two characters that are no blanks. -/
def Spaced (text : List Char) : Prop :=
  ∀ before c after, text = before ++ c :: after → isBlank c = true →
    c = ' ' ∧ (∃ left, before.getLast? = some left ∧ isBlank left = false) ∧
      ∃ right, after.head? = some right ∧ isBlank right = false

variable {text word : List Char}

/-! ## What is kept -/

theorem inked_append (before after : List Char) :
    inked (before ++ after) = inked before ++ inked after :=
  List.filter_append ..

theorem inked_eq_nil (h : ∀ c ∈ text, isBlank c = true) : inked text = [] :=
  List.filter_eq_nil_iff.mpr fun c hc => by simp [h c hc]

theorem inked_eq_self (h : ∀ c ∈ text, isBlank c = false) : inked text = text :=
  List.filter_eq_self.mpr fun c hc => by simp [h c hc]

/-- The pieces between the characters at which a text is cut are made of all the
others. -/
theorem flatten_splitWhere (p : Char → Bool) (text : List Char) :
    (splitWhere p text).flatten = text.filter (!p ·) := by
  induction text with
  | nil => rfl
  | cons c rest ih =>
      by_cases hCut : p c = true
      · rw [splitWhere_cons_of_pos hCut, List.flatten_cons, List.nil_append, ih,
          List.filter_cons_of_neg (by simp [hCut])]
      · obtain ⟨piece, others, hRest⟩ := exists_splitWhere_eq_cons p rest
        rw [hRest, List.flatten_cons] at ih
        rw [splitWhere_cons_of_neg hCut hRest, List.flatten_cons, List.cons_append, ih,
          List.filter_cons_of_pos (by simp [hCut])]

/-- No piece holds a character at which the text is cut. -/
theorem not_of_mem_splitWhere {p : Char → Bool} {piece : List Char}
    (h : piece ∈ splitWhere p text) {c : Char} (hc : c ∈ piece) : p c = false := by
  have hFlat : c ∈ (splitWhere p text).flatten := List.mem_flatten.mpr ⟨piece, h, hc⟩
  rw [flatten_splitWhere, List.mem_filter] at hFlat
  simpa using hFlat.2

/-- A word is not empty and holds no blank. -/
theorem ink_of_mem_words (h : word ∈ words text) :
    word ≠ [] ∧ ∀ c ∈ word, isBlank c = false := by
  obtain ⟨hPiece, hSome⟩ := List.mem_filter.mp h
  exact ⟨by simpa using hSome, fun c hc => not_of_mem_splitWhere hPiece hc⟩

theorem flatten_words (text : List Char) : (words text).flatten = inked text := by
  rw [words, List.flatten_filter_not_isEmpty, flatten_splitWhere]
  rfl

/-- The spaces between words are left out again. -/
theorem inked_joined {parts : List (List Char)}
    (h : ∀ part ∈ parts, ∀ c ∈ part, isBlank c = false) :
    inked ([' '].intercalate parts) = parts.flatten := by
  induction parts with
  | nil => rfl
  | cons part rest ih =>
      rw [List.forall_mem_cons] at h
      cases rest with
      | nil => simp [inked_eq_self h.1]
      | cons next rest =>
          have hSpace : inked [' '] = [] := by decide
          rw [List.intercalate_cons_cons, inked_append, inked_append, hSpace, List.append_nil,
            inked_eq_self h.1, ih h.2]
          rfl

/-- **Collapsing keeps all that is no blank.** -/
theorem inked_collapse (text : List Char) : inked (collapse text) = inked text := by
  rw [collapse, inked_joined fun word hWord => (ink_of_mem_words hWord).2, flatten_words]

/-! ## Where blanks stand -/

/-- A text without blanks. -/
theorem Spaced.of_ink (h : ∀ c ∈ text, isBlank c = false) : Spaced text := by
  rintro before c after rfl hBlank
  rw [h c (by simp)] at hBlank
  cases hBlank

/-- A word in front of such a text. -/
theorem Spaced.append {c : Char} {rest : List Char} (hWord : word ≠ [])
    (hInk : ∀ d ∈ word, isBlank d = false) (hFirst : isBlank c = false)
    (h : Spaced (c :: rest)) : Spaced (word ++ ' ' :: c :: rest) := by
  intro before d after hText hBlank
  rcases List.append_eq_append_iff.mp hText with ⟨between, rfl, hRest⟩ | ⟨between, rfl, hRest⟩
  · cases between with
    | nil =>
        -- It is the space behind the word.
        obtain ⟨rfl, rfl⟩ := List.cons.inj hRest
        refine ⟨rfl, ⟨word.getLast hWord, ?_, hInk _ (List.getLast_mem hWord)⟩, c, rfl, hFirst⟩
        rw [List.append_nil]
        exact List.getLast?_eq_some_getLast hWord
    | cons e between =>
        rw [List.cons_append] at hRest
        obtain ⟨rfl, hTail⟩ := List.cons.inj hRest
        obtain ⟨hSpace, ⟨left, hLeft, hLeftInk⟩, hRight⟩ := h between d after hTail hBlank
        refine ⟨hSpace, ⟨left, ?_, hLeftInk⟩, hRight⟩
        have hSome : between ≠ [] := by
          rintro rfl
          cases hLeft
        rw [List.getLast?_append_of_ne_nil _ (List.cons_ne_nil _ _),
          List.getLast?_cons_of_ne_nil hSome, hLeft]
  · cases between with
    | nil =>
        rw [List.nil_append] at hRest
        obtain ⟨rfl, rfl⟩ := List.cons.inj hRest
        refine ⟨rfl, ⟨before.getLast (by simpa using hWord), ?_, ?_⟩, c, rfl, hFirst⟩
        · exact List.getLast?_eq_some_getLast _
        · exact hInk _ (List.mem_append_left _ (List.getLast_mem _))
    | cons e between =>
        rw [List.cons_append] at hRest
        obtain ⟨rfl, _⟩ := List.cons.inj hRest
        rw [hInk d (by simp)] at hBlank
        cases hBlank

/-- Words begin with a character that is no blank, and so do joined ones. -/
theorem exists_joined_eq_cons {parts : List (List Char)}
    (h : ∀ part ∈ word :: parts, part ≠ [] ∧ ∀ c ∈ part, isBlank c = false) :
    ∃ c rest, [' '].intercalate (word :: parts) = c :: rest ∧ isBlank c = false := by
  obtain ⟨hSome, hInk⟩ := h word List.mem_cons_self
  obtain ⟨c, others, rfl⟩ := List.exists_cons_of_ne_nil hSome
  have hFirst := hInk c List.mem_cons_self
  cases parts with
  | nil => exact ⟨c, others, by simp, hFirst⟩
  | cons next parts =>
      rw [List.intercalate_cons_cons]
      exact ⟨c, _, rfl, hFirst⟩

theorem spaced_joined {parts : List (List Char)}
    (h : ∀ part ∈ parts, part ≠ [] ∧ ∀ c ∈ part, isBlank c = false) :
    Spaced ([' '].intercalate parts) := by
  induction parts with
  | nil => exact .of_ink (by simp)
  | cons part rest ih =>
      obtain ⟨⟨hSome, hInk⟩, hRest⟩ := List.forall_mem_cons.mp h
      cases rest with
      | nil => simpa using Spaced.of_ink hInk
      | cons next rest =>
          obtain ⟨c, others, hJoined, hFirst⟩ := exists_joined_eq_cons hRest
          have hSpaced := ih hRest
          rw [hJoined] at hSpaced
          rw [List.intercalate_cons_cons, hJoined, List.append_assoc, List.singleton_append]
          exact .append hSome hInk hFirst hSpaced

/-- **The blanks of a collapsed text are single spaces** between others. -/
theorem spaced_collapse (text : List Char) : Spaced (collapse text) :=
  spaced_joined fun _ hWord => ink_of_mem_words hWord

/-- The beginning of such a text, up to a character that is no blank. -/
theorem Spaced.beginning {rest : List Char} (h : Spaced (text ++ rest))
    (hLast : ∀ last ∈ text.getLast?, isBlank last = false) : Spaced text := by
  rintro before c after rfl hBlank
  obtain ⟨hSpace, hLeft, right, hRight, hInk⟩ :=
    h before c (after ++ rest) (by simp) hBlank
  refine ⟨hSpace, hLeft, right, ?_, hInk⟩
  have hSome : after ≠ [] := by
    rintro rfl
    rw [hLast c (by simp)] at hBlank
    cases hBlank
  rw [List.head?_append_of_ne_nil _ hSome] at hRight
  exact hRight

end SourceIndex.Text
