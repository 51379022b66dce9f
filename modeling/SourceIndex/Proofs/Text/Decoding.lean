import SourceIndex.Proofs.Text.Encoding

/-!
# Only the bytes of a text are read as a text

Reading bytes checks where each byte of a character may lie.  The ranges are
exactly those that writing a character reaches: what would be a longer form of
a character, a surrogate or a number beyond the last character does not pass.
So bytes that are read as a text are the bytes of this text, and what can be
read at all is what core's `ByteArray.IsValidUTF8` calls valid.

## Main results

* `encode_of_readSymbol` — a character is read from its own bytes only.
* `decode?_eq_some_iff` — bytes are read as the text that they are the bytes of.
* `decode?_eq_none_iff` — bytes that are no valid UTF-8 are not read.
-/

namespace SourceIndex.Utf8

/-! ## One character -/

section Character

variable {c : Char} {n bits low high missing : Nat} {byte lead : UInt8} {rest after : List UInt8}

theorem toNat_ofNat (h : n.isValidChar) : (Char.ofNat n).toNat = n := by
  rw [Char.ofNat, dif_pos h]
  rfl

theorem ofNat_eq_of_toNat (h : byte.toNat = n) : UInt8.ofNat n = byte := by
  rw [← h, UInt8.ofNat_toNat]

theorem continueFrom_zero_eq_some (h : continueFrom 0 bits low high rest = (some c, after)) :
    Char.ofNat bits = c ∧ rest = after := by
  rw [continueFrom, Prod.mk.injEq, Option.some.injEq] at h
  exact h

/-- Another byte of a character lies in its range. -/
theorem continueFrom_succ_eq_some
    (h : continueFrom (missing + 1) bits low high rest = (some c, after)) :
    ∃ byte more, rest = byte :: more ∧ low ≤ byte.toNat ∧ byte.toNat ≤ high ∧
      continueFrom missing (bits * 64 + byte.toNat % 64) 0x80 0xBF more = (some c, after) := by
  cases rest with
  | nil =>
      rw [continueFrom, Prod.mk.injEq] at h
      cases h.1
  | cons byte more =>
      rw [continueFrom] at h
      split at h
      · next hRange => exact ⟨byte, more, rfl, hRange.1, hRange.2, h⟩
      · cases (Prod.mk.inj h).1

/-- How many bytes follow the first one, and where the next of them may lie. -/
theorem continuation?_cases (h : continuation? n = some (missing, low, high)) :
    (missing = 1 ∧ 0xC2 ≤ n ∧ n ≤ 0xDF ∧ low = 0x80 ∧ high = 0xBF) ∨
      (missing = 2 ∧ 0xE0 ≤ n ∧ n ≤ 0xEF ∧ low = (if n = 0xE0 then 0xA0 else 0x80) ∧
        high = if n = 0xED then 0x9F else 0xBF) ∨
      (missing = 3 ∧ 0xF0 ≤ n ∧ n ≤ 0xF4 ∧ low = (if n = 0xF0 then 0x90 else 0x80) ∧
        high = if n = 0xF4 then 0x8F else 0xBF) := by
  have hBounds : 0xC2 ≤ n ∧ n ≤ 0xF4 := by grind [continuation?]
  by_cases hTwo : n ≤ 0xDF
  · rw [continuation?_two hBounds.1 hTwo] at h
    cases h
    exact .inl ⟨rfl, hBounds.1, hTwo, rfl, rfl⟩
  · by_cases hThree : n ≤ 0xEF
    · rw [continuation?_three (by omega) hThree] at h
      cases h
      exact .inr (.inl ⟨rfl, by omega, hThree, rfl, rfl⟩)
    · rw [continuation?_four (by omega) hBounds.2] at h
      cases h
      exact .inr (.inr ⟨rfl, by omega, hBounds.2, rfl, rfl⟩)

private theorem encode_of_two (h : 0xC2 ≤ lead.toNat) (hLe : lead.toNat ≤ 0xDF)
    (hRead : continueFrom 1 (lead.toNat % 32) 0x80 0xBF rest = (some c, after)) :
    lead :: rest = String.utf8EncodeChar c ++ after := by
  obtain ⟨second, _, rfl, hLow, hHigh, hRead⟩ := continueFrom_succ_eq_some hRead
  obtain ⟨hChar, rfl⟩ := continueFrom_zero_eq_some hRead
  have hNumber : c.toNat = lead.toNat % 32 * 64 + second.toNat % 64 := by
    rw [← hChar, toNat_ofNat (.inl (by omega))]
  have hLead : UInt8.ofNat (c.toNat / 64 + 0xC0) = lead := ofNat_eq_of_toNat (by omega)
  have hSecond : UInt8.ofNat (c.toNat % 64 + 0x80) = second := ofNat_eq_of_toNat (by omega)
  rw [encode_two (by omega) (by omega), hLead, hSecond]
  rfl

private theorem encode_of_three (h : 0xE0 ≤ lead.toNat) (hLe : lead.toNat ≤ 0xEF)
    (hRead : continueFrom 2 (lead.toNat % 16) (if lead.toNat = 0xE0 then 0xA0 else 0x80)
      (if lead.toNat = 0xED then 0x9F else 0xBF) rest = (some c, after)) :
    lead :: rest = String.utf8EncodeChar c ++ after := by
  obtain ⟨second, _, rfl, hLow, hHigh, hRead⟩ := continueFrom_succ_eq_some hRead
  obtain ⟨third, _, rfl, hThird, hThirdLe, hRead⟩ := continueFrom_succ_eq_some hRead
  obtain ⟨hChar, rfl⟩ := continueFrom_zero_eq_some hRead
  -- The ranges of the second byte leave out longer forms and surrogates.
  have hShort : 0x800 ≤ lead.toNat % 16 * 4096 + second.toNat % 64 * 64 := by
    split at hLow <;> split at hHigh <;> omega
  have hScalar : lead.toNat % 16 * 4096 + second.toNat % 64 * 64 < 0xD800 ∨
      0xE000 ≤ lead.toNat % 16 * 4096 + second.toNat % 64 * 64 := by
    split at hLow <;> split at hHigh <;> omega
  have hNumber : c.toNat =
      (lead.toNat % 16 * 64 + second.toNat % 64) * 64 + third.toNat % 64 := by
    rw [← hChar, toNat_ofNat (by unfold Nat.isValidChar; omega)]
  have hBound : second.toNat ≤ 0xBF := by split at hHigh <;> omega
  have hSecondLow : 0x80 ≤ second.toNat := by split at hLow <;> omega
  have hLead : UInt8.ofNat (c.toNat / 4096 + 0xE0) = lead := ofNat_eq_of_toNat (by omega)
  have hSecond : UInt8.ofNat (c.toNat / 64 % 64 + 0x80) = second := ofNat_eq_of_toNat (by omega)
  have hThirdByte : UInt8.ofNat (c.toNat % 64 + 0x80) = third := ofNat_eq_of_toNat (by omega)
  rw [encode_three (by omega) (by omega), hLead, hSecond, hThirdByte]
  rfl

private theorem encode_of_four (h : 0xF0 ≤ lead.toNat) (hLe : lead.toNat ≤ 0xF4)
    (hRead : continueFrom 3 (lead.toNat % 8) (if lead.toNat = 0xF0 then 0x90 else 0x80)
      (if lead.toNat = 0xF4 then 0x8F else 0xBF) rest = (some c, after)) :
    lead :: rest = String.utf8EncodeChar c ++ after := by
  obtain ⟨second, _, rfl, hLow, hHigh, hRead⟩ := continueFrom_succ_eq_some hRead
  obtain ⟨third, _, rfl, hThird, hThirdLe, hRead⟩ := continueFrom_succ_eq_some hRead
  obtain ⟨fourth, _, rfl, hFourth, hFourthLe, hRead⟩ := continueFrom_succ_eq_some hRead
  obtain ⟨hChar, rfl⟩ := continueFrom_zero_eq_some hRead
  have hBound : second.toNat ≤ 0xBF := by split at hHigh <;> omega
  have hSecondLow : 0x80 ≤ second.toNat := by split at hLow <;> omega
  -- The ranges of the second byte leave out longer forms and what lies beyond the last character.
  have hShort : 0x10000 ≤ lead.toNat % 8 * 262144 + second.toNat % 64 * 4096 := by
    split at hLow <;> omega
  have hScalar : lead.toNat % 8 * 262144 + second.toNat % 64 * 4096 < 0x110000 := by
    split at hHigh <;> omega
  have hNumber : c.toNat = ((lead.toNat % 8 * 64 + second.toNat % 64) * 64 +
      third.toNat % 64) * 64 + fourth.toNat % 64 := by
    rw [← hChar, toNat_ofNat (by unfold Nat.isValidChar; omega)]
  have hLead : UInt8.ofNat (c.toNat / 262144 + 0xF0) = lead := ofNat_eq_of_toNat (by omega)
  have hSecond : UInt8.ofNat (c.toNat / 4096 % 64 + 0x80) = second := ofNat_eq_of_toNat (by omega)
  have hThirdByte : UInt8.ofNat (c.toNat / 64 % 64 + 0x80) = third := ofNat_eq_of_toNat (by omega)
  have hFourthByte : UInt8.ofNat (c.toNat % 64 + 0x80) = fourth := ofNat_eq_of_toNat (by omega)
  rw [encode_four (by omega), hLead, hSecond, hThirdByte, hFourthByte]
  rfl

/-- **A character is read from its own bytes only.** -/
theorem encode_of_readSymbol (h : readSymbol lead rest = (some c, after)) :
    lead :: rest = String.utf8EncodeChar c ++ after := by
  have hByte : lead.toNat < 256 := lead.toNat_lt
  unfold readSymbol at h
  split at h
  · next hOne =>
      rw [Prod.mk.injEq, Option.some.injEq] at h
      obtain ⟨hChar, rfl⟩ := h
      have hNumber : c.toNat = lead.toNat := by
        rw [← hChar, toNat_ofNat (.inl (by omega))]
      rw [encode_one (by omega), ofNat_eq_of_toNat hNumber.symm]
      rfl
  · split at h
    · cases (Prod.mk.inj h).1
    · next missing low high hContinuation =>
        rcases continuation?_cases hContinuation with
          ⟨rfl, hLow, hHigh, rfl, rfl⟩ | ⟨rfl, hLow, hHigh, rfl, rfl⟩ | ⟨rfl, hLow, hHigh, rfl, rfl⟩
        · exact encode_of_two hLow hHigh h
        · exact encode_of_three hLow hHigh h
        · exact encode_of_four hLow hHigh h

end Character

/-! ## Texts -/

section Texts

variable {input : List UInt8} {text : String}

/-- Bytes without an ill-formed part are those of the characters that are read
from them. -/
theorem encode_symbols (h : ∀ found ∈ symbols input, found.isSome = true) :
    encode ((symbols input).filterMap id) = input := by
  fun_induction symbols input with
  | case1 => rfl
  | case2 lead rest ih =>
      obtain ⟨c, hChar⟩ := Option.isSome_iff_exists.mp (h _ List.mem_cons_self)
      have hRest := ih fun found hFound => h found (List.mem_cons_of_mem _ hFound)
      rw [hChar, List.filterMap_cons_some (show id (some c) = some c from rfl), encode_cons, hRest]
      exact (encode_of_readSymbol (Prod.ext hChar rfl)).symm

/-- The bytes of a text are those that core keeps of it. -/
theorem bytes_eq_iff : bytes text = input ↔ text.toByteArray = input.toByteArray := by
  have hText : text.toByteArray = (bytes text).toByteArray := by
    rw [← String.ofList_toList (s := text), String.toByteArray_ofList, String.ofList_toList]
    rfl
  rw [hText, List.toByteArray_inj]

/-- **Bytes are read as the text that they are the bytes of.** -/
theorem decode?_eq_some_iff :
    decode? input = some text ↔ text.toByteArray = input.toByteArray := by
  rw [← bytes_eq_iff]
  constructor
  · intro h
    unfold decode? at h
    dsimp only at h
    split at h
    · next hAll =>
        rw [Option.some.injEq] at h
        rw [bytes, ← h, String.toList_ofList]
        exact encode_symbols (List.all_eq_true.mp hAll)
    · cases h
  · rintro rfl
    rw [bytes, decode?_encode, String.ofList_toList]

/-- **Bytes that are no valid UTF-8 are not read**, and all others are. -/
theorem decode?_eq_none_iff : decode? input = none ↔ ¬ input.toByteArray.IsValidUTF8 := by
  rw [Option.eq_none_iff_forall_ne_some]
  constructor
  · rintro hNone ⟨chars, hChars⟩
    refine hNone (String.ofList chars) ?_
    rw [decode?_eq_some_iff, String.toByteArray_ofList, hChars]
  · intro hInvalid text hRead
    rw [decode?_eq_some_iff] at hRead
    exact hInvalid (hRead ▸ text.isValidUTF8)

end Texts

end SourceIndex.Utf8
