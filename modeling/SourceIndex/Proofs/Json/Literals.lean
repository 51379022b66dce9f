import SourceIndex.Json.Reader
import SourceIndex.Json.Writer
import SourceIndex.Proofs.Text.Encoding

/-!
# String literals are read back

A literal is written character by character: the quote, the backslash and the
control characters as escapes, the others as themselves.  The reader takes
bytes and escapes one at a time, and none of the bytes of a character that
stands for itself is a quote, a backslash or a control character, so it goes
through a written literal in the same steps.

## Main results

* `literal_escaped` — a character is read from what it is written as.
* `literal_flatMap` — a text is read from its literal.
* `lineFeed_not_mem_quoted` — a literal is on one line.
-/

namespace SourceIndex

namespace Utf8

/-- The bytes of a character beyond ASCII are no ASCII characters. -/
theorem high_of_mem {c : Char} (h : 0x80 ≤ c.toNat) {byte : UInt8}
    (hMem : byte ∈ String.utf8EncodeChar c) : 0x80 ≤ byte.toNat := by
  have hCases := toNat_cases c
  have hHigh : ∀ n < 256, 0x80 ≤ n → byte = UInt8.ofNat n → 0x80 ≤ byte.toNat := by
    rintro n hLt hLe rfl
    rw [UInt8.toNat_ofNat_of_lt' hLt]
    exact hLe
  by_cases hTwo : c.toNat < 0x800
  · rw [encode_two h hTwo] at hMem
    simp only [List.mem_cons, List.not_mem_nil, or_false] at hMem
    rcases hMem with hByte | hByte <;> exact hHigh _ (by omega) (by omega) hByte
  · by_cases hThree : c.toNat < 0x10000
    · rw [encode_three (by omega) hThree] at hMem
      simp only [List.mem_cons, List.not_mem_nil, or_false] at hMem
      rcases hMem with hByte | hByte | hByte <;> exact hHigh _ (by omega) (by omega) hByte
    · rw [encode_four (by omega)] at hMem
      simp only [List.mem_cons, List.not_mem_nil, or_false] at hMem
      rcases hMem with hByte | hByte | hByte | hByte <;> exact hHigh _ (by omega) (by omega) hByte

/-- An ASCII character is one byte. -/
theorem encode_ascii_cons {c : Char} (h : c.toNat < 0x80) (text : List Char) :
    encode (c :: text) = UInt8.ofNat c.toNat :: encode text := by
  rw [encode_cons, encode_one h, List.singleton_append]

end Utf8

namespace Hex

theorem toNat_digit_lt {n : Nat} (h : n < 16) : (digit n).toNat < 0x80 := by
  revert n
  decide

theorem value?_digit_self {n : Nat} (h : n < 16) : value? (digit n) = some n := by
  revert n
  decide

theorem digit_ne_lineFeed {n : Nat} (h : n < 16) : digit n ≠ '\n' := by
  revert n
  decide

end Hex

namespace Json

variable {byte : UInt8} {rest left read bytes : List UInt8} {first : Option Fault} {c : Char}

theorem ascii_ofNat (h : c.toNat < 0x80) : ascii (UInt8.ofNat c.toNat) = c := by
  have hValue : (UInt8.ofNat c.toNat).toNat = c.toNat :=
    UInt8.toNat_ofNat_of_lt' (Nat.lt_trans h (by decide))
  rw [ascii, hValue, Char.ofNat_toNat]

/-! ## Steps through a literal -/

theorem literal_of_byte {value : UInt8} (h : piece (byte :: rest) = (.byte value, left)) :
    literal read first (byte :: rest) = literal (value :: read) first left := by
  rw [literal, h]

theorem literal_of_char (h : piece (byte :: rest) = (.char c, left)) :
    literal read first (byte :: rest) =
      literal ((String.utf8EncodeChar c).reverse ++ read) first left := by
  rw [literal, h]

theorem literal_of_close (h : piece (byte :: rest) = (.close, left)) :
    literal read first (byte :: rest) = (closedLiteral read.reverse first, some left) := by
  rw [literal, h]

theorem toNat_ascii (byte : UInt8) : (ascii byte).toNat = byte.toNat := by
  have hByte : byte.toNat < 256 := byte.toNat_lt
  have hValid : byte.toNat.isValidChar := .inl (Nat.lt_trans hByte (by decide))
  rw [ascii, Char.ofNat, dif_pos hValid]
  rfl

/-- Such a byte stands for itself. -/
def IsPlain (byte : UInt8) : Prop :=
  ascii byte ≠ '"' ∧ ascii byte ≠ '\\' ∧ 32 ≤ byte.toNat

theorem literal_of_plain (h : IsPlain byte) (rest : List UInt8) :
    literal read first (byte :: rest) = literal (byte :: read) first rest := by
  obtain ⟨hQuote, hBackslash, hControl⟩ := h
  apply literal_of_byte
  rw [piece, if_neg hQuote, if_neg hBackslash, if_neg (Nat.not_lt.mpr hControl)]

theorem literal_of_plain_append (h : ∀ byte ∈ bytes, IsPlain byte) (rest : List UInt8) :
    literal read first (bytes ++ rest) = literal (bytes.reverse ++ read) first rest := by
  induction bytes generalizing read with
  | nil => rfl
  | cons byte bytes ih =>
      rw [List.cons_append, literal_of_plain (h byte List.mem_cons_self),
        ih fun other hOther => h other (List.mem_cons_of_mem byte hOther),
        List.reverse_cons, List.append_assoc, List.singleton_append]

/-- The bytes of a character that needs no escape stand for themselves. -/
theorem isPlain_of_mem (hQuote : c ≠ '"') (hBackslash : c ≠ '\\') (hControl : 32 ≤ c.toNat)
    (hMem : byte ∈ String.utf8EncodeChar c) : IsPlain byte := by
  by_cases hAscii : c.toNat < 0x80
  · rw [Utf8.encode_one hAscii, List.mem_singleton] at hMem
    have hByte : ascii byte = c := hMem ▸ ascii_ofNat hAscii
    refine ⟨hByte ▸ hQuote, hByte ▸ hBackslash, ?_⟩
    rw [← toNat_ascii, hByte]
    exact hControl
  · have hHigh := Utf8.high_of_mem (Nat.le_of_not_lt hAscii) hMem
    have hOther : ∀ sign : Char, sign.toNat < 0x80 → ascii byte ≠ sign := by
      rintro sign hSign rfl
      rw [toNat_ascii] at hSign
      omega
    exact ⟨hOther '"' (by decide), hOther '\\' (by decide), by omega⟩

/-! ## Written literals -/

/-- An escape of four digits is read as the character with that number. -/
theorem piece_unicode {n : Nat} (h : n < 32) (rest : List UInt8) :
    piece (Utf8.encode ['\\', 'u', '0', '0', Hex.digit (n / 16), Hex.digit (n % 16)] ++ rest) =
      (.char (Char.ofNat n), rest) := by
  have hHigh : n / 16 < 16 := by omega
  have hLow : n % 16 < 16 := by omega
  have hValue : 4096 * 0 + 256 * 0 + 16 * (n / 16) + n % 16 = n := by omega
  have hFour : hex4 (UInt8.ofNat '0'.toNat :: UInt8.ofNat '0'.toNat ::
      UInt8.ofNat (Hex.digit (n / 16)).toNat :: UInt8.ofNat (Hex.digit (n % 16)).toNat :: rest) =
        .ok (n, rest) := by
    have hZero : Hex.value? (ascii (UInt8.ofNat '0'.toNat)) = some 0 := by decide
    rw [hex4, hZero, ascii_ofNat (Hex.toNat_digit_lt hHigh), ascii_ofNat (Hex.toNat_digit_lt hLow),
      Hex.value?_digit_self hHigh, Hex.value?_digit_self hLow]
    dsimp only
    rw [hValue]
  have hBytes : Utf8.encode ['\\', 'u', '0', '0', Hex.digit (n / 16), Hex.digit (n % 16)] ++ rest =
      UInt8.ofNat '\\'.toNat :: UInt8.ofNat 'u'.toNat :: UInt8.ofNat '0'.toNat ::
        UInt8.ofNat '0'.toNat :: UInt8.ofNat (Hex.digit (n / 16)).toNat ::
          UInt8.ofNat (Hex.digit (n % 16)).toNat :: rest := by
    rw [Utf8.encode_ascii_cons (by decide), Utf8.encode_ascii_cons (by decide),
      Utf8.encode_ascii_cons (by decide), Utf8.encode_ascii_cons (by decide),
      Utf8.encode_ascii_cons (Hex.toNat_digit_lt hHigh),
      Utf8.encode_ascii_cons (Hex.toNat_digit_lt hLow)]
    rfl
  rw [hBytes]
  show unicodeEscape _ = _
  rw [unicodeEscape, hFour]
  dsimp only
  rw [if_neg (by omega), if_neg (by omega)]

/-- A character is written as a backslash and a mark, as a backslash and its
number, or as itself. -/
theorem escaped_cases (c : Char) :
    (∃ mark, mark.toNat < 0x80 ∧ escaped c = ['\\', mark] ∧
      ∀ rest, escape (UInt8.ofNat mark.toNat :: rest) = (.char c, rest)) ∨
    (c.toNat < 32 ∧
      escaped c = ['\\', 'u', '0', '0', Hex.digit (c.toNat / 16), Hex.digit (c.toNat % 16)]) ∨
    (c ≠ '"' ∧ c ≠ '\\' ∧ 32 ≤ c.toNat ∧ escaped c = [c]) := by
  by_cases hMark : c ∈ ['"', '\\', '\n', '\r', '\t', '\x08', '\x0c']
  · simp only [List.mem_cons, List.not_mem_nil, or_false] at hMark
    rcases hMark with rfl | rfl | rfl | rfl | rfl | rfl | rfl
    all_goals exact .inl ⟨_, by decide, rfl, fun _ => rfl⟩
  · simp only [List.mem_cons, List.not_mem_nil, or_false, not_or] at hMark
    obtain ⟨hQuote, hBackslash, hFeed, hReturn, hTab, hBack, hForm⟩ := hMark
    rw [escaped, if_neg hQuote, if_neg hBackslash, if_neg hFeed, if_neg hReturn, if_neg hTab,
      if_neg hBack, if_neg hForm]
    by_cases hControl : c.toNat < 32
    · exact .inr (.inl ⟨hControl, if_pos hControl⟩)
    · exact .inr (.inr ⟨hQuote, hBackslash, Nat.le_of_not_lt hControl, if_neg hControl⟩)

/-- **A character is read from what it is written as.** -/
theorem literal_escaped (c : Char) (rest : List UInt8) :
    literal read first (Utf8.encode (escaped c) ++ rest) =
      literal ((String.utf8EncodeChar c).reverse ++ read) first rest := by
  rcases escaped_cases c with ⟨mark, hMark, hEscaped, hEscape⟩ | ⟨hControl, hEscaped⟩ |
    ⟨hQuote, hBackslash, hControl, hEscaped⟩
  · rw [hEscaped, Utf8.encode_ascii_cons (by decide), Utf8.encode_ascii_cons hMark]
    exact literal_of_char (hEscape rest)
  · have hPiece := piece_unicode hControl rest
    rw [← hEscaped, Char.ofNat_toNat] at hPiece
    rw [hEscaped, Utf8.encode_ascii_cons (by decide)] at hPiece ⊢
    exact literal_of_char hPiece
  · rw [hEscaped, Utf8.encode, List.flatMap_singleton]
    exact literal_of_plain_append
      (fun _ hMem => isPlain_of_mem hQuote hBackslash hControl hMem) rest

/-- A closed literal has the text that its bytes encode. -/
theorem closedLiteral_encode (text : List Char) :
    closedLiteral (Utf8.encode text) none = .text (String.ofList text) := by
  rw [closedLiteral, Utf8.decode?_encode]

theorem literal_flatMap_of (text : List Char) (rest : List UInt8) :
    literal read none (Utf8.encode (text.flatMap escaped ++ ['"']) ++ rest) =
      (closedLiteral (read.reverse ++ Utf8.encode text) none, some rest) := by
  induction text generalizing read with
  | nil =>
      rw [List.flatMap_nil, List.nil_append, Utf8.encode_ascii_cons (by decide), Utf8.encode,
        List.flatMap_nil, List.append_nil]
      exact literal_of_close rfl
  | cons c text ih =>
      rw [List.flatMap_cons, List.append_assoc, Utf8.encode_append, List.append_assoc,
        literal_escaped, ih, List.reverse_append, List.reverse_reverse, List.append_assoc,
        ← Utf8.encode_cons]

/-- **A text is read from its literal**, whatever follows it. -/
theorem literal_flatMap (text : List Char) (rest : List UInt8) :
    literal [] none (Utf8.encode (text.flatMap escaped ++ ['"']) ++ rest) =
      (.text (String.ofList text), some rest) := by
  rw [literal_flatMap_of, List.reverse_nil, List.nil_append, closedLiteral_encode]

/-! ## Literals on a line -/

theorem lineFeed_not_mem_escaped (c : Char) : '\n' ∉ escaped c := by
  rcases escaped_cases c with ⟨mark, _, hEscaped, hEscape⟩ | ⟨hNumber, hEscaped⟩ |
    ⟨_, _, hControl, hEscaped⟩
  · -- A line feed is no mark: as one it would be read as a fault.
    rw [hEscaped, List.mem_cons, List.mem_singleton]
    rintro (hBackslash | rfl)
    · exact absurd hBackslash (by decide)
    · cases hEscape []
  · have hHigh := Hex.digit_ne_lineFeed (show c.toNat / 16 < 16 by omega)
    have hLow := Hex.digit_ne_lineFeed (show c.toNat % 16 < 16 by omega)
    simp [hEscaped, hHigh.symm, hLow.symm]
  · rw [hEscaped, List.mem_singleton]
    rintro rfl
    exact absurd hControl (by decide)

/-- A literal is on one line. -/
theorem lineFeed_not_mem_quoted (text : List Char) : '\n' ∉ quoted text := by
  rw [quoted, List.cons_append, List.mem_cons, List.mem_append, List.mem_flatMap]
  rintro (hQuote | ⟨c, _, hMem⟩ | hQuote)
  · exact absurd hQuote (by decide)
  · exact lineFeed_not_mem_escaped c hMem
  · exact absurd hQuote (by decide)

end Json

end SourceIndex
