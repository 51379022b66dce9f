import SourceIndex.Text.Utf8

/-!
# Texts that tell their parts

A text that is written as parts with signs between them can be read again when
no sign is taken for another: the first that a part cannot hold ends this part,
and the last that the rest cannot hold starts the rest.  Numerals hold digits
alone, so any other sign may stand next to them.

## Main results

* `Utf8.encode_inj` — bytes tell their text.
* `append_cons_inj`, `append_cons_inj_last` — the first and the last sign.
* `toDigits_inj` — numerals tell their number.
-/

namespace SourceIndex

/-- Texts with the same bytes are the same. -/
theorem Utf8.encode_inj {first second : List Char} (h : encode first = encode second) :
    first = second := by
  have hBytes : (String.ofList first).toByteArray = (String.ofList second).toByteArray := by
    rw [String.toByteArray_ofList, String.toByteArray_ofList]
    exact congrArg List.toByteArray h
  exact String.ofList_inj.mp (String.toByteArray_inj.mp hBytes)

namespace Text

/-! ## Two parts with a sign between them -/

section Signs

variable {sign : Char} {before other after rest : List Char}

/-- Where a sign is not in the first part, it tells where this part ends. -/
theorem append_cons_inj (hBefore : sign ∉ before) (hOther : sign ∉ other)
    (h : before ++ sign :: after = other ++ sign :: rest) : before = other ∧ after = rest := by
  induction before generalizing other with
  | nil =>
      cases other with
      | nil => exact ⟨rfl, (List.cons.inj h).2⟩
      | cons c others =>
          obtain ⟨rfl, _⟩ := List.cons.inj h
          exact absurd List.mem_cons_self hOther
  | cons c others ih =>
      cases other with
      | nil =>
          obtain ⟨rfl, _⟩ := List.cons.inj h
          exact absurd List.mem_cons_self hBefore
      | cons d more =>
          obtain ⟨rfl, hTail⟩ := List.cons.inj h
          rw [List.mem_cons, not_or] at hBefore hOther
          obtain ⟨rfl, hRest⟩ := ih hBefore.2 hOther.2 hTail
          exact ⟨rfl, hRest⟩

/-- Where a sign is not in the last part, it tells where this part starts. -/
theorem append_cons_inj_last (hAfter : sign ∉ after) (hRest : sign ∉ rest)
    (h : before ++ sign :: after = other ++ sign :: rest) : before = other ∧ after = rest := by
  have hReversed := congrArg List.reverse h
  rw [List.reverse_append, List.reverse_append, List.reverse_cons, List.reverse_cons,
    List.append_assoc, List.append_assoc, List.singleton_append, List.singleton_append] at hReversed
  obtain ⟨hLast, hFirst⟩ := append_cons_inj (by rwa [List.mem_reverse])
    (by rwa [List.mem_reverse]) hReversed
  exact ⟨List.reverse_inj.mp hFirst, List.reverse_inj.mp hLast⟩

end Signs

/-! ## Numerals -/

section Numerals

variable {sign : Char} {n m : Nat}

/-- A numeral holds digits alone. -/
theorem not_mem_toDigits (h : sign.isDigit = false) (n : Nat) : sign ∉ Nat.toDigits 10 n := by
  intro hMem
  rw [Nat.isDigit_of_mem_toDigits (by decide) (by decide) hMem] at h
  cases h

/-- A numeral tells its number. -/
theorem toDigits_inj (h : Nat.toDigits 10 n = Nat.toDigits 10 m) : n = m := by
  calc
    n = Nat.ofDigitChars 10 (Nat.toDigits 10 n) 0 := Nat.ofDigitChars_ten_toDigits.symm
    _ = Nat.ofDigitChars 10 (Nat.toDigits 10 m) 0 := by rw [h]
    _ = m := Nat.ofDigitChars_ten_toDigits

/-- Two numerals that other signs follow. -/
theorem toDigits_append_inj {after rest : List Char} (hSign : sign.isDigit = false)
    (h : Nat.toDigits 10 n ++ sign :: after = Nat.toDigits 10 m ++ sign :: rest) :
    n = m ∧ after = rest := by
  obtain ⟨hDigits, hAfter⟩ :=
    append_cons_inj (not_mem_toDigits hSign n) (not_mem_toDigits hSign m) h
  exact ⟨toDigits_inj hDigits, hAfter⟩

end Numerals

end Text

end SourceIndex
