import SourceIndex.Proofs.Text.Parts
import SourceIndex.Url.Percent

/-!
# Encoded texts tell what they encode

A percent sign before two hexadecimal digits stands for a byte, in an encoded
text and in the text itself: both `é` and `%C3%A9` are written `%C3%A9`.  A
text without such signs is *plain*, and plain texts are told apart by what they
are encoded as.

## Main results

* `decode_encode` — a plain text is found again, as its bytes.
* `encode_inj` — plain texts that are encoded alike are the same.
-/

namespace SourceIndex

namespace Hex

theorem value?_digit {n : Nat} (h : n < 16) : value? (digit n).toUpper = some n := by
  revert n
  decide

end Hex

namespace Url.Percent

/-- A text starts with a percent sign before two digits. -/
def opensEscape : List Char → Bool
  | '%' :: high :: low :: _ => (Hex.value? high).isSome && (Hex.value? low).isSome
  | _ => false

/-- No percent sign of a text stands before two digits. -/
def Plain : List Char → Prop
  | [] => True
  | c :: rest => opensEscape (c :: rest) = false ∧ Plain rest

instance decidablePlain : (text : List Char) → Decidable (Plain text)
  | [] => isTrue trivial
  | c :: rest =>
      have := decidablePlain rest
      inferInstanceAs (Decidable (opensEscape (c :: rest) = false ∧ Plain rest))

/-! ## Plain texts -/

section Plain

variable {text before after : List Char} {c : Char}

theorem plain_cons : Plain (c :: text) ↔ opensEscape (c :: text) = false ∧ Plain text := Iff.rfl

/-- What a text opens with is not changed by what follows it. -/
theorem opensEscape_append (after : List Char) (h : opensEscape before = true) :
    opensEscape (before ++ after) = true := by
  unfold opensEscape at h
  split at h
  · exact h
  · cases h

theorem Plain.of_append (h : Plain (before ++ after)) : Plain before ∧ Plain after := by
  induction before with
  | nil => exact ⟨trivial, h⟩
  | cons c rest ih =>
      rw [List.cons_append, plain_cons] at h
      obtain ⟨hRest, hAfter⟩ := ih h.2
      refine ⟨plain_cons.mpr ⟨?_, hRest⟩, hAfter⟩
      cases hOpens : opensEscape (c :: rest) with
      | false => rfl
      | true =>
          have hLonger := opensEscape_append after hOpens
          rw [List.cons_append, h.1] at hLonger
          cases hLonger

end Plain

/-! ## Decoding -/

section Decoding

variable {refused : Char → Bool} {c : Char} {text : List Char}

theorem decode_byte (value : UInt8) (text : List Char) :
    decode (byte value ++ text) = value :: decode text := by
  have hValue : value.toNat < 256 := value.toNat_lt
  have hHigh := Hex.value?_digit (show value.toNat / 16 < 16 by omega)
  have hLow := Hex.value?_digit (show value.toNat % 16 < 16 by omega)
  have hSum : 16 * (value.toNat / 16) + value.toNat % 16 = value.toNat := by omega
  show decode ('%' :: _ :: _ :: text) = _
  rw [decode, hHigh, hLow]
  dsimp only
  rw [hSum, UInt8.ofNat_toNat]

theorem decode_bytes (bytes : List UInt8) (text : List Char) :
    decode (bytes.flatMap byte ++ text) = bytes ++ decode text := by
  induction bytes with
  | nil => rfl
  | cons value rest ih =>
      rw [List.flatMap_cons, List.append_assoc, decode_byte, ih, List.cons_append]

/-- A character that opens no escape stands for itself. -/
theorem decode_cons (h : opensEscape (c :: text) = false) :
    decode (c :: text) = Utf8.encode [c] ++ decode text := by
  unfold opensEscape at h
  split at h
  · next high low rest hText =>
      cases hText
      rw [decode]
      cases hHigh : Hex.value? high with
      | none => rfl
      | some _ =>
          cases hLow : Hex.value? low with
          | none => rfl
          | some _ =>
              rw [hHigh, hLow] at h
              cases h
  · next hNone =>
      rw [decode]
      rintro high low rest rfl rfl
      exact hNone high low rest rfl

/-- A digit at the start of an encoded text is there from the beginning: an
encoded character starts with a percent sign. -/
theorem encode_eq_cons {digit : Char} {rest : List Char} (hDigit : (Hex.value? digit).isSome = true)
    (h : encode refused text = digit :: rest) :
    ∃ later, text = digit :: later ∧ rest = encode refused later := by
  cases text with
  | nil => cases h
  | cons first later =>
      rw [encode_cons, symbol] at h
      by_cases hRefused : refused first = true
      · rw [if_pos hRefused] at h
        cases hBytes : Utf8.encode [first] with
        | nil =>
            rw [Utf8.encode, List.flatMap_singleton] at hBytes
            exact absurd hBytes String.utf8EncodeChar_ne_nil
        | cons value others =>
            rw [hBytes] at h
            obtain ⟨rfl, _⟩ := List.cons.inj h
            exact absurd hDigit (by decide)
      · rw [if_neg hRefused, List.singleton_append] at h
        obtain ⟨rfl, rfl⟩ := List.cons.inj h
        exact ⟨later, rfl, rfl⟩

/-- Encoding makes no escape of what is none. -/
theorem opensEscape_encode (h : opensEscape (c :: text) = false) :
    opensEscape (c :: encode refused text) = false := by
  cases hOpens : opensEscape (c :: encode refused text) with
  | false => rfl
  | true =>
      unfold opensEscape at hOpens
      split at hOpens
      · next high low rest hText =>
          obtain ⟨rfl, hEncoded⟩ := List.cons.inj hText
          rw [Bool.and_eq_true] at hOpens
          obtain ⟨later, rfl, hLater⟩ := encode_eq_cons hOpens.1 hEncoded
          obtain ⟨last, rfl, _⟩ := encode_eq_cons hOpens.2 hLater.symm
          rw [opensEscape, hOpens.1, hOpens.2] at h
          cases h
      · cases hOpens

/-- **A plain text is found again, as its bytes.** -/
theorem decode_encode (h : Plain text) :
    decode (encode refused text) = Utf8.encode text := by
  induction text with
  | nil => rfl
  | cons c rest ih =>
      obtain ⟨hOpens, hRest⟩ := plain_cons.mp h
      have hBytes : Utf8.encode (c :: rest) = Utf8.encode [c] ++ Utf8.encode rest := by
        simp [Utf8.encode]
      rw [encode_cons, symbol, hBytes, ← ih hRest]
      by_cases hRefused : refused c = true
      · rw [if_pos hRefused, decode_bytes]
      · rw [if_neg hRefused, List.singleton_append,
          decode_cons (opensEscape_encode hOpens)]

theorem not_mem_byte (hSign : c ≠ '%') (hDigits : ∀ n < 16, c ≠ (Hex.digit n).toUpper)
    (value : UInt8) : c ∉ byte value := by
  have hValue : value.toNat < 256 := value.toNat_lt
  rw [byte, List.mem_cons, List.mem_cons, List.mem_singleton, not_or, not_or]
  exact ⟨hSign, hDigits _ (by omega), hDigits _ (by omega)⟩

/-- What is refused is not in an encoded text, unless bytes are written with
it. -/
theorem not_mem_encode (hRefused : refused c = true) (hSign : c ≠ '%')
    (hDigits : ∀ n < 16, c ≠ (Hex.digit n).toUpper) (text : List Char) :
    c ∉ encode refused text := by
  intro hMem
  obtain ⟨d, _, hSymbol⟩ := List.mem_flatMap.mp hMem
  rw [symbol] at hSymbol
  split at hSymbol
  · obtain ⟨value, _, hByte⟩ := List.mem_flatMap.mp hSymbol
    exact not_mem_byte hSign hDigits value hByte
  · next hAdmitted =>
      obtain rfl := List.mem_singleton.mp hSymbol
      exact hAdmitted hRefused

theorem encode_append (refused : Char → Bool) (before after : List Char) :
    encode refused (before ++ after) = encode refused before ++ encode refused after :=
  List.flatMap_append

/-- **Plain texts that are encoded alike are the same.** -/
theorem encode_inj {other : List Char} (hText : Plain text) (hOther : Plain other)
    (h : encode refused text = encode refused other) : text = other := by
  apply Utf8.encode_inj
  rw [← decode_encode hText, ← decode_encode hOther, h]

/-- So are parts that may be missing. -/
theorem map_encode_inj {part other : Option (List Char)} (hPart : ∀ text ∈ part, Plain text)
    (hOther : ∀ text ∈ other, Plain text)
    (h : part.map (encode refused) = other.map (encode refused)) : part = other := by
  cases part with
  | none =>
      cases other with
      | none => rfl
      | some _ => cases h
  | some text =>
      cases other with
      | none => cases h
      | some second =>
          exact congrArg some (encode_inj (hPart text rfl) (hOther second rfl) (Option.some.inj h))

end Decoding

end Url.Percent

end SourceIndex
