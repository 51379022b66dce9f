import SourceIndex.Text.Utf8

/-!
# Texts are found again in their bytes

A character is written as one to four bytes, and the first of them tells how
many there are and where the second one may lie.  The ranges leave out what
would be written with fewer bytes, surrogates and what lies beyond the last
character, so the bytes of a character are always within them.

## Main results

* `readSymbol_encode` — a character is read from its bytes.
* `decode?_encode` — a text is found again in its bytes.
-/

namespace SourceIndex.Utf8

/-! ## Bytes of characters -/

section Bytes

variable {c : Char}

/-- What a character's number can be. -/
theorem toNat_cases (c : Char) : c.toNat < 0xD800 ∨ 0xDFFF < c.toNat ∧ c.toNat < 0x110000 :=
  c.valid

theorem encode_one (h : c.toNat < 0x80) :
    String.utf8EncodeChar c = [UInt8.ofNat c.toNat] :=
  if_pos (Nat.le_of_lt_succ h)

theorem encode_two (h : 0x80 ≤ c.toNat) (hLt : c.toNat < 0x800) :
    String.utf8EncodeChar c =
      [UInt8.ofNat (c.toNat / 64 + 0xC0), UInt8.ofNat (c.toNat % 64 + 0x80)] := by
  have hOne : ¬ c.val.toNat ≤ 0x7F := Nat.not_le.mpr h
  have hTwo : c.val.toNat ≤ 0x7FF := Nat.le_of_lt_succ hLt
  have hLead : c.toNat / 64 % 32 = c.toNat / 64 := Nat.mod_eq_of_lt (by omega)
  rw [String.utf8EncodeChar, if_neg hOne, if_pos hTwo]
  show [UInt8.ofNat (c.toNat / 64 % 32 + 0xC0), UInt8.ofNat (c.toNat % 64 + 0x80)] = _
  rw [hLead]

theorem encode_three (h : 0x800 ≤ c.toNat) (hLt : c.toNat < 0x10000) :
    String.utf8EncodeChar c =
      [UInt8.ofNat (c.toNat / 4096 + 0xE0), UInt8.ofNat (c.toNat / 64 % 64 + 0x80),
        UInt8.ofNat (c.toNat % 64 + 0x80)] := by
  have hOne : ¬ c.val.toNat ≤ 0x7F := fun hLe => absurd (show c.toNat ≤ 0x7F from hLe) (by omega)
  have hTwo : ¬ c.val.toNat ≤ 0x7FF := Nat.not_le.mpr h
  have hThree : c.val.toNat ≤ 0xFFFF := Nat.le_of_lt_succ hLt
  have hLead : c.toNat / 4096 % 16 = c.toNat / 4096 := Nat.mod_eq_of_lt (by omega)
  rw [String.utf8EncodeChar, if_neg hOne, if_neg hTwo, if_pos hThree]
  show [UInt8.ofNat (c.toNat / 4096 % 16 + 0xE0), UInt8.ofNat (c.toNat / 64 % 64 + 0x80),
    UInt8.ofNat (c.toNat % 64 + 0x80)] = _
  rw [hLead]

theorem encode_four (h : 0x10000 ≤ c.toNat) :
    String.utf8EncodeChar c =
      [UInt8.ofNat (c.toNat / 262144 + 0xF0), UInt8.ofNat (c.toNat / 4096 % 64 + 0x80),
        UInt8.ofNat (c.toNat / 64 % 64 + 0x80), UInt8.ofNat (c.toNat % 64 + 0x80)] := by
  have hOne : ¬ c.val.toNat ≤ 0x7F := fun hLe => absurd (show c.toNat ≤ 0x7F from hLe) (by omega)
  have hTwo : ¬ c.val.toNat ≤ 0x7FF := fun hLe => absurd (show c.toNat ≤ 0x7FF from hLe) (by omega)
  have hThree : ¬ c.val.toNat ≤ 0xFFFF := Nat.not_le.mpr h
  have hLead : c.toNat / 262144 % 8 = c.toNat / 262144 := by
    have hCases := toNat_cases c
    exact Nat.mod_eq_of_lt (by omega)
  rw [String.utf8EncodeChar, if_neg hOne, if_neg hTwo, if_neg hThree]
  show [UInt8.ofNat (c.toNat / 262144 % 8 + 0xF0), UInt8.ofNat (c.toNat / 4096 % 64 + 0x80),
    UInt8.ofNat (c.toNat / 64 % 64 + 0x80), UInt8.ofNat (c.toNat % 64 + 0x80)] = _
  rw [hLead]

end Bytes

/-! ## Reading them -/

section Reading

variable {bits low high missing n : Nat} {rest : List UInt8}

theorem continueFrom_ofNat (hByte : n < 256) (hLow : low ≤ n) (hHigh : n ≤ high) :
    continueFrom (missing + 1) bits low high (UInt8.ofNat n :: rest) =
      continueFrom missing (bits * 64 + n % 64) 0x80 0xBF rest := by
  have hValue : (UInt8.ofNat n).toNat = n := UInt8.toNat_ofNat_of_lt' hByte
  rw [continueFrom, hValue, if_pos ⟨hLow, hHigh⟩]

theorem readSymbol_ofNat (hByte : n < 256) (hLead : 0x80 ≤ n)
    (h : continuation? n = some (missing, low, high)) :
    readSymbol (UInt8.ofNat n) rest =
      continueFrom missing (n % Nat.pow 2 (6 - missing)) low high rest := by
  have hValue : (UInt8.ofNat n).toNat = n := UInt8.toNat_ofNat_of_lt' hByte
  rw [readSymbol, hValue, if_neg (Nat.not_lt.mpr hLead), h]

/-- The first byte of two. -/
theorem continuation?_two (h : 0xC2 ≤ n) (hLe : n ≤ 0xDF) :
    continuation? n = some (1, 0x80, 0xBF) :=
  if_pos ⟨h, hLe⟩

/-- The first byte of three, and where the second one may lie. -/
theorem continuation?_three (h : 0xE0 ≤ n) (hLe : n ≤ 0xEF) :
    continuation? n =
      some (2, if n = 0xE0 then 0xA0 else 0x80, if n = 0xED then 0x9F else 0xBF) := by
  unfold continuation?
  split
  · omega
  · split
    · next hFirst => rw [hFirst]; rfl
    · next hFirst =>
        split
        · rfl
        · rw [if_pos ⟨by omega, hLe⟩]

/-- The first byte of four, and where the second one may lie. -/
theorem continuation?_four (h : 0xF0 ≤ n) (hLe : n ≤ 0xF4) :
    continuation? n =
      some (3, if n = 0xF0 then 0x90 else 0x80, if n = 0xF4 then 0x8F else 0xBF) := by
  obtain rfl | rfl | rfl | rfl | rfl : n = 0xF0 ∨ n = 0xF1 ∨ n = 0xF2 ∨ n = 0xF3 ∨ n = 0xF4 := by
    omega
  all_goals rfl

end Reading

section Characters

variable {c : Char}

private theorem readSymbol_two (h : 0x80 ≤ c.toNat) (hLt : c.toNat < 0x800) (rest : List UInt8) :
    readSymbol (UInt8.ofNat (c.toNat / 64 + 0xC0))
      (UInt8.ofNat (c.toNat % 64 + 0x80) :: rest) = (some c, rest) := by
  have hBits : (c.toNat / 64 + 0xC0) % 32 * 64 + (c.toNat % 64 + 0x80) % 64 = c.toNat := by omega
  rw [readSymbol_ofNat (by omega) (by omega) (continuation?_two (by omega) (by omega)),
    continueFrom_ofNat (by omega) (by omega) (by omega), continueFrom]
  show (some (Char.ofNat ((c.toNat / 64 + 0xC0) % 32 * 64 + (c.toNat % 64 + 0x80) % 64)), rest) = _
  rw [hBits, Char.ofNat_toNat]

private theorem readSymbol_three (h : 0x800 ≤ c.toNat) (hLt : c.toNat < 0x10000)
    (rest : List UInt8) :
    readSymbol (UInt8.ofNat (c.toNat / 4096 + 0xE0))
      (UInt8.ofNat (c.toNat / 64 % 64 + 0x80) :: UInt8.ofNat (c.toNat % 64 + 0x80) :: rest) =
        (some c, rest) := by
  have hCases := toNat_cases c
  have hBits : ((c.toNat / 4096 + 0xE0) % 16 * 64 + (c.toNat / 64 % 64 + 0x80) % 64) * 64 +
      (c.toNat % 64 + 0x80) % 64 = c.toNat := by omega
  rw [readSymbol_ofNat (by omega) (by omega) (continuation?_three (by omega) (by omega)),
    continueFrom_ofNat (by omega) (by split <;> omega) (by split <;> omega),
    continueFrom_ofNat (by omega) (by omega) (by omega), continueFrom]
  show (some (Char.ofNat (((c.toNat / 4096 + 0xE0) % 16 * 64 +
    (c.toNat / 64 % 64 + 0x80) % 64) * 64 + (c.toNat % 64 + 0x80) % 64)), rest) = _
  rw [hBits, Char.ofNat_toNat]

private theorem readSymbol_four (h : 0x10000 ≤ c.toNat) (rest : List UInt8) :
    readSymbol (UInt8.ofNat (c.toNat / 262144 + 0xF0))
      (UInt8.ofNat (c.toNat / 4096 % 64 + 0x80) :: UInt8.ofNat (c.toNat / 64 % 64 + 0x80) ::
        UInt8.ofNat (c.toNat % 64 + 0x80) :: rest) = (some c, rest) := by
  have hCases := toNat_cases c
  have hBits : (((c.toNat / 262144 + 0xF0) % 8 * 64 + (c.toNat / 4096 % 64 + 0x80) % 64) * 64 +
      (c.toNat / 64 % 64 + 0x80) % 64) * 64 + (c.toNat % 64 + 0x80) % 64 = c.toNat := by omega
  rw [readSymbol_ofNat (by omega) (by omega) (continuation?_four (by omega) (by omega)),
    continueFrom_ofNat (by omega) (by split <;> omega) (by split <;> omega),
    continueFrom_ofNat (by omega) (by omega) (by omega),
    continueFrom_ofNat (by omega) (by omega) (by omega), continueFrom]
  show (some (Char.ofNat ((((c.toNat / 262144 + 0xF0) % 8 * 64 +
    (c.toNat / 4096 % 64 + 0x80) % 64) * 64 + (c.toNat / 64 % 64 + 0x80) % 64) * 64 +
      (c.toNat % 64 + 0x80) % 64)), rest) = _
  rw [hBits, Char.ofNat_toNat]

end Characters

/-- **A character is read from its bytes.** -/
theorem readSymbol_encode (c : Char) (rest : List UInt8) :
    ∃ lead more, String.utf8EncodeChar c = lead :: more ∧
      readSymbol lead (more ++ rest) = (some c, rest) := by
  by_cases hOne : c.toNat < 0x80
  · refine ⟨_, _, encode_one hOne, ?_⟩
    have hValue : (UInt8.ofNat c.toNat).toNat = c.toNat :=
      UInt8.toNat_ofNat_of_lt' (Nat.lt_trans hOne (by decide))
    rw [readSymbol, hValue, if_pos hOne, Char.ofNat_toNat, List.nil_append]
  · by_cases hTwo : c.toNat < 0x800
    · exact ⟨_, _, encode_two (Nat.le_of_not_lt hOne) hTwo,
        readSymbol_two (Nat.le_of_not_lt hOne) hTwo rest⟩
    · by_cases hThree : c.toNat < 0x10000
      · exact ⟨_, _, encode_three (Nat.le_of_not_lt hTwo) hThree,
          readSymbol_three (Nat.le_of_not_lt hTwo) hThree rest⟩
      · exact ⟨_, _, encode_four (Nat.le_of_not_lt hThree),
          readSymbol_four (Nat.le_of_not_lt hThree) rest⟩

/-! ## Texts -/

theorem encode_cons (c : Char) (text : List Char) :
    encode (c :: text) = String.utf8EncodeChar c ++ encode text :=
  List.flatMap_cons

theorem encode_append (before after : List Char) :
    encode (before ++ after) = encode before ++ encode after :=
  List.flatMap_append

/-- A text has at least as many bytes as characters. -/
theorem length_le_length_encode (text : List Char) : text.length ≤ (encode text).length := by
  induction text with
  | nil => exact Nat.zero_le _
  | cons c rest ih =>
      have hSize := c.utf8Size_pos
      rw [encode_cons, List.length_append, String.length_utf8EncodeChar, List.length_cons]
      omega

theorem symbols_encode (text : List Char) : symbols (encode text) = text.map some := by
  induction text with
  | nil => rw [encode, List.flatMap_nil, symbols, List.map_nil]
  | cons c rest ih =>
      obtain ⟨lead, more, hBytes, hSymbol⟩ := readSymbol_encode c (encode rest)
      rw [encode_cons, hBytes, List.cons_append, symbols, hSymbol, ih, List.map_cons]

/-- **A text is found again in its bytes.** -/
theorem decode?_encode (text : List Char) : decode? (encode text) = some (String.ofList text) := by
  have hAll : ((text.map some).all (·.isSome)) = true := by
    rw [List.all_map]
    exact List.all_eq_true.mpr fun _ _ => rfl
  have hText : (text.map some).filterMap id = text := by
    rw [List.filterMap_map]
    exact List.filterMap_some
  rw [decode?, symbols_encode]
  exact (if_pos hAll).trans (congrArg (fun found => some (String.ofList found)) hText)

/-- Nothing is replaced in the bytes of a text. -/
theorem decodeLossy_bytes (text : String) : decodeLossy (bytes text) = text := by
  have hText : (text.toList.map some).map (·.getD '\uFFFD') = text.toList := by
    rw [List.map_map]
    exact List.map_id _
  rw [decodeLossy, bytes, symbols_encode, hText, String.ofList_toList]

end SourceIndex.Utf8
