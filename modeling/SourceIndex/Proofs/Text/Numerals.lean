import SourceIndex.Text.Decimal

/-!
# Numerals

A number is read from a text exactly when the text names it and it is not too
large: digits, with at most one plus sign before them.

## Main results

* `readNat?_eq_some_iff` — what is read.
-/

namespace SourceIndex.Text

/-- A text that names a number: digits, maybe with a plus sign before them. -/
def Names (text : List Char) (value : Nat) : Prop :=
  ∃ digits, (text = digits ∨ text = '+' :: digits) ∧ digits ≠ [] ∧
    (∀ c ∈ digits, c.isDigit = true) ∧ digitsValue digits = value

/-- A text without its plus sign. -/
def unsigned (text : List Char) : List Char :=
  match text with
  | '+' :: rest => rest
  | other => other

theorem eq_unsigned (text : List Char) : text = unsigned text ∨ text = '+' :: unsigned text := by
  unfold unsigned
  split
  · exact .inr rfl
  · exact .inl rfl

/-- Digits with or without a sign are what is left without it. -/
theorem unsigned_eq {text digits : List Char} (hText : text = digits ∨ text = '+' :: digits)
    (hDigits : ∀ c ∈ digits, c.isDigit = true) : unsigned text = digits := by
  cases hText with
  | inr hSigned => rw [hSigned, unsigned]
  | inl hPlain =>
      rw [hPlain]
      unfold unsigned
      split
      · exact absurd (hDigits '+' List.mem_cons_self) (by decide)
      · rfl

theorem names_iff {text : List Char} {value : Nat} :
    Names text value ↔ unsigned text ≠ [] ∧ (∀ c ∈ unsigned text, c.isDigit = true) ∧
      digitsValue (unsigned text) = value := by
  constructor
  · rintro ⟨digits, hText, hParts⟩
    rwa [unsigned_eq hText hParts.2.1]
  · intro hParts
    exact ⟨unsigned text, eq_unsigned text, hParts⟩

theorem readNat?_eq_some_iff {largest value : Nat} {text : List Char} :
    readNat? largest text = some value ↔ Names text value ∧ value ≤ largest := by
  have hRead : readNat? largest text =
      if (unsigned text).isEmpty || !(unsigned text).all Char.isDigit then none
      else if digitsValue (unsigned text) ≤ largest then some (digitsValue (unsigned text))
      else none := rfl
  have hNumeral : ((unsigned text).isEmpty || !(unsigned text).all Char.isDigit) = false ↔
      unsigned text ≠ [] ∧ ∀ c ∈ unsigned text, c.isDigit = true := by
    simp
  rw [hRead, names_iff, ← and_assoc, ← hNumeral]
  cases (unsigned text).isEmpty || !(unsigned text).all Char.isDigit with
  | true => simp
  | false =>
      simp only [Bool.false_eq_true, if_false, Option.ite_none_right_eq_some, Option.some.injEq,
        true_and]
      constructor
      · rintro ⟨hLargest, rfl⟩
        exact ⟨rfl, hLargest⟩
      · rintro ⟨rfl, hLargest⟩
        exact ⟨hLargest, rfl⟩

end SourceIndex.Text
