import SourceIndex.Proofs.Json.Literals
import SourceIndex.Proofs.Text.Parts

/-!
# Numbers are read back

A number is read greedily: its digits end where the text has none, its fraction
and its exponent are there when the text goes on with their signs.  So what is
behind a number must not look like more of it.

## Main results

* `Number.Sound` — digits that a number may be written with.
* `numberValue_encode` — a sound number is read from its text.
* `Number.sound_ofNat`, `Number.sound_ofDecimal` — numbers that are printed are
  sound.
-/

/-! ## Shortest decimals -/

namespace SourceIndex.Decimal

namespace Rounded

variable {x : Rounded} {grid : Int} {k : Nat}

theorem ne_zero_of_contains (h : x.contains grid k = true) : k ≠ 0 := by
  rw [contains, Bool.and_eq_true] at h
  exact bne_iff_ne.mp h.1

/-- The nearest number on a grid is one of its numbers in the interval. -/
theorem contains_of_nearest? (h : x.nearest? grid = some k) : x.contains grid k = true := by
  unfold nearest? at h
  dsimp only at h
  split at h
  · next hBelow _ => exact Option.some.inj h ▸ hBelow
  · next _ hAbove => exact Option.some.inj h ▸ hAbove
  · cases h
  · next hBelow hAbove =>
      split at h
      · exact Option.some.inj h ▸ hBelow
      · exact Option.some.inj h ▸ hAbove

theorem ne_zero_of_search {fuel : Nat} {found : Int}
    (h : x.search fuel grid = some (k, found)) : k ≠ 0 := by
  induction fuel generalizing grid with
  | zero => cases h
  | succ fuel ih =>
      rw [search] at h
      split at h
      · next hNearest =>
          cases h
          exact ne_zero_of_contains (contains_of_nearest? hNearest)
      · exact ih h

end Rounded

/-- The shortest decimal of a zero has no exponent. -/
theorem ofBits?_zero {format : BinaryFormat} {bits : Nat} {value : Decimal}
    (h : ofBits? format bits = some value) : value.digits ≠ 0 ∨ value.exponent = 0 := by
  unfold ofBits? at h
  dsimp only at h
  split at h
  · cases h
  · split at h
    · obtain rfl := Option.some.inj h
      exact .inr rfl
    · obtain ⟨⟨digits, exponent⟩, hShortest, rfl⟩ := Option.map_eq_some_iff.mp h
      exact .inl (Rounded.ne_zero_of_search hShortest)

end SourceIndex.Decimal

namespace SourceIndex.Json

/-! ## Sound numbers -/

/-- A number that JSON can write: it has whole digits, with no zero before
others, and its digits are digits. -/
structure Number.Sound (number : Number) : Prop where
  whole : number.whole ≠ []
  leading : number.whole.head? = some '0' → number.whole.length = 1
  wholeDigits : ∀ c ∈ number.whole, c.isDigit = true
  fractionDigits : ∀ c ∈ number.fraction, c.isDigit = true

/-- Bytes that do not go on with the number before them. -/
def EndsNumber (rest : List UInt8) : Prop :=
  ∀ byte ∈ rest.head?, (ascii byte).isDigit = false ∧ ascii byte ≠ '.' ∧ ascii byte ≠ 'e' ∧
    ascii byte ≠ 'E'

theorem endsNumber_nil : EndsNumber [] := by
  intro byte hByte
  cases hByte

/-! ## Digits -/

section Digits

variable {text : List Char} {rest : List UInt8}

theorem toNat_lt_of_isDigit {c : Char} (h : c.isDigit = true) : c.toNat < 0x80 := by
  have hRange := Char.isDigit_iff_toNat.mp h
  exact Nat.lt_of_le_of_lt hRange.2 (by decide)

theorem digits_of_end (h : ∀ byte ∈ rest.head?, (ascii byte).isDigit = false) :
    digits rest = ([], rest) := by
  cases rest with
  | nil => rfl
  | cons byte rest =>
      rw [digits, if_neg]
      rw [h byte rfl]
      exact Bool.false_ne_true

/-- Digits are read to their end. -/
theorem digits_encode (hDigits : ∀ c ∈ text, c.isDigit = true)
    (hEnd : ∀ byte ∈ rest.head?, (ascii byte).isDigit = false) :
    digits (Utf8.encode text ++ rest) = (text, rest) := by
  induction text with
  | nil => exact digits_of_end hEnd
  | cons c text ih =>
      have hDigit := hDigits c List.mem_cons_self
      have hAscii := toNat_lt_of_isDigit hDigit
      rw [Utf8.encode_ascii_cons hAscii, List.cons_append, digits, ascii_ofNat hAscii,
        if_pos hDigit, ih fun d hMem => hDigits d (List.mem_cons_of_mem c hMem)]

theorem someDigits_encode (hSome : text ≠ []) (hDigits : ∀ c ∈ text, c.isDigit = true)
    (hEnd : ∀ byte ∈ rest.head?, (ascii byte).isDigit = false) :
    someDigits (Utf8.encode text ++ rest) = .ok (text, rest) := by
  rw [someDigits, digits_encode hDigits hEnd]
  cases text with
  | nil => exact absurd rfl hSome
  | cons c text => rfl

theorem digitsValue_toDigits (n : Nat) : Text.digitsValue (Nat.toDigits 10 n) = n :=
  Nat.ofDigitChars_ten_toDigits

/-- A positive number is written without a zero in front. -/
theorem head?_toDigits {n : Nat} (h : 0 < n) : (Nat.toDigits 10 n).head? ≠ some '0' := by
  induction n using Nat.strongRecOn with
  | ind n ih =>
      by_cases hLt : n < 10
      · have hDigit : ∀ n < 10, 0 < n → Nat.digitChar n ≠ '0' := by decide
        rw [Nat.toDigits_of_lt_base hLt, List.head?_cons]
        exact fun hZero => hDigit n hLt h (Option.some.inj hZero)
      · have hShorter := ih (n / 10) (by omega) (by omega)
        rw [Nat.toDigits_of_base_le (by decide) (Nat.le_of_not_lt hLt)]
        cases hDigits : Nat.toDigits 10 (n / 10) with
        | nil => exact absurd hDigits Nat.toDigits_ne_nil
        | cons first rest =>
            rw [hDigits] at hShorter
            exact hShorter

theorem isDigit_of_mem_toDigits {n : Nat} : ∀ c ∈ Nat.toDigits 10 n, c.isDigit = true :=
  fun _ hMem => Nat.isDigit_of_mem_toDigits (by decide) (by decide) hMem

end Digits

/-! ## Numbers -/

section Parts

variable {number : Number} {rest : List UInt8}

theorem wholePart_encode {whole : List Char} (hSome : whole ≠ [])
    (hLeading : whole.head? = some '0' → whole.length = 1)
    (hDigits : ∀ c ∈ whole, c.isDigit = true)
    (hEnd : ∀ byte ∈ rest.head?, (ascii byte).isDigit = false) :
    wholePart (Utf8.encode whole ++ rest) = .ok (whole, rest) := by
  have hZero : ¬ (whole.head? = some '0' ∧ 1 < whole.length) := by
    rintro ⟨hHead, hLength⟩
    rw [hLeading hHead] at hLength
    exact absurd hLength (by decide)
  rw [wholePart, someDigits_encode hSome hDigits hEnd]
  exact if_neg hZero

/-- The text of a fraction, with its point. -/
def fractionText (fraction : List Char) : List Char :=
  if fraction.isEmpty then [] else '.' :: fraction

theorem fractionPart_encode {fraction : List Char} (hDigits : ∀ c ∈ fraction, c.isDigit = true)
    (hEnd : ∀ byte ∈ rest.head?, (ascii byte).isDigit = false ∧ ascii byte ≠ '.') :
    fractionPart (Utf8.encode (fractionText fraction) ++ rest) = .ok (fraction, rest) := by
  cases fraction with
  | nil =>
      show fractionPart rest = _
      cases rest with
      | nil => rfl
      | cons byte rest => exact if_neg (hEnd byte rfl).2
  | cons c fraction =>
      show fractionPart (Utf8.encode ('.' :: c :: fraction) ++ rest) = _
      rw [Utf8.encode_ascii_cons (by decide), List.cons_append, fractionPart, if_pos (by decide)]
      exact someDigits_encode (List.cons_ne_nil c fraction) hDigits
        fun byte hMem => (hEnd byte hMem).1

/-- The text of an exponent that may be missing. -/
def exponentText? (exponent : Option Int) : List Char :=
  match exponent with
  | some exponent => Number.exponentText exponent
  | none => []

theorem exponentPart_signed {sign : Char} {negative : Bool} (hSign : sign.toNat < 0x80)
    (h : ∀ after, signPart (UInt8.ofNat sign.toNat :: after) = (negative, after)) (n : Nat)
    (hEnd : EndsNumber rest) :
    exponentPart (Utf8.encode ('e' :: sign :: Nat.toDigits 10 n) ++ rest) =
      .ok (some (if negative then -(n : Int) else n), rest) := by
  have hDigits := someDigits_encode (Nat.toDigits_ne_nil (b := 10) (n := n))
    isDigit_of_mem_toDigits fun byte hMem => (hEnd byte hMem).1
  rw [Utf8.encode_ascii_cons (by decide), Utf8.encode_ascii_cons hSign, List.cons_append,
    List.cons_append, exponentPart, if_pos (.inl rfl), h]
  simp only [hDigits, digitsValue_toDigits, bind, Except.bind, pure, Except.pure]

theorem exponentPart_encode (exponent : Option Int) (hEnd : EndsNumber rest) :
    exponentPart (Utf8.encode (exponentText? exponent) ++ rest) = .ok (exponent, rest) := by
  cases exponent with
  | none =>
      show exponentPart rest = _
      cases rest with
      | nil => rfl
      | cons byte rest =>
          obtain ⟨_, _, hSmall, hLarge⟩ := hEnd byte rfl
          exact if_neg (not_or.mpr ⟨hSmall, hLarge⟩)
  | some exponent =>
      rw [exponentText?, Number.exponentText]
      by_cases hNegative : exponent < 0
      · have hValue : -(exponent.natAbs : Int) = exponent := by omega
        rw [if_pos hNegative, exponentPart_signed (by decide) (fun _ => rfl) _ hEnd, if_pos rfl,
          hValue]
      · have hValue : (exponent.natAbs : Int) = exponent := by omega
        rw [if_neg hNegative, exponentPart_signed (by decide) (fun _ => rfl) _ hEnd,
          if_neg Bool.false_ne_true, hValue]

/-- What a fraction or the end of a number starts with is no digit. -/
theorem no_digit_exponentText? (exponent : Option Int) (hEnd : EndsNumber rest) :
    ∀ byte ∈ (Utf8.encode (exponentText? exponent) ++ rest).head?,
      (ascii byte).isDigit = false ∧ ascii byte ≠ '.' := by
  cases exponent with
  | none => exact fun byte hMem => ⟨(hEnd byte hMem).1, (hEnd byte hMem).2.1⟩
  | some exponent =>
      rw [exponentText?, Number.exponentText, Utf8.encode_ascii_cons (by decide), List.cons_append]
      intro byte hMem
      obtain rfl := Option.some.inj hMem
      decide

theorem no_digit_fractionText (fraction : List Char) {after : List UInt8}
    (h : ∀ byte ∈ after.head?, (ascii byte).isDigit = false) :
    ∀ byte ∈ (Utf8.encode (fractionText fraction) ++ after).head?,
      (ascii byte).isDigit = false := by
  cases fraction with
  | nil => exact h
  | cons c fraction =>
      show ∀ byte ∈ (Utf8.encode ('.' :: c :: fraction) ++ after).head?, _
      rw [Utf8.encode_ascii_cons (by decide), List.cons_append]
      intro byte hMem
      obtain rfl := Option.some.inj hMem
      decide

/-- The text of a number behind its sign. -/
def Number.unsignedText (number : Number) : List Char :=
  number.whole ++ (fractionText number.fraction ++ exponentText? number.exponent)

theorem Number.text_eq (number : Number) :
    number.text = (if number.negative then ['-'] else []) ++ number.unsignedText := by
  rw [text, unsignedText, fractionText, List.append_assoc, List.append_assoc]
  rfl

/-- **A sound number is read from its text.** -/
theorem unsignedNumber_encode (h : number.Sound) (hEnd : EndsNumber rest) :
    unsignedNumber number.negative (Utf8.encode number.unsignedText ++ rest) =
      .ok (number, rest) := by
  have hPoint := no_digit_exponentText? number.exponent hEnd
  have hNoDigit := no_digit_fractionText number.fraction fun byte hMem => (hPoint byte hMem).1
  have hWhole := wholePart_encode h.whole h.leading h.wholeDigits hNoDigit
  have hFraction := fractionPart_encode h.fractionDigits hPoint
  have hExponent := exponentPart_encode number.exponent hEnd
  rw [Number.unsignedText, Utf8.encode_append, Utf8.encode_append, List.append_assoc,
    List.append_assoc]
  simp only [unsignedNumber, hWhole, hFraction, hExponent, bind, Except.bind, pure, Except.pure]

theorem numberValue_encode (h : number.Sound) (hEnd : EndsNumber rest) :
    numberValue number.negative (Utf8.encode number.unsignedText ++ rest) =
      (.number number, some rest) := by
  rw [numberValue, unsignedNumber_encode h hEnd]

end Parts

/-! ## Numbers that are printed -/

namespace Number

/-- No zero is in front of the other digits of a numeral. -/
theorem length_toDigits_of_head? {n : Nat} (h : (Nat.toDigits 10 n).head? = some '0') :
    (Nat.toDigits 10 n).length = 1 := by
  rcases Nat.eq_zero_or_pos n with rfl | hPos
  · rfl
  · exact absurd h (head?_toDigits hPos)

theorem sound_ofNat (n : Nat) : (ofNat n).Sound where
  whole := Nat.toDigits_ne_nil
  leading := length_toDigits_of_head?
  wholeDigits := isDigit_of_mem_toDigits
  fractionDigits := nofun

/-- A natural number of 64 bits is its own value. -/
theorem scalar?_ofNat {n : Nat} (h : n ≤ Text.largest64) :
    (ofNat n).scalar? = some (.natural n) := by
  have hValue : Text.digitsValue (ofNat n).whole = n := digitsValue_toDigits n
  rw [scalar?, hValue]
  exact if_pos ⟨rfl, rfl, h, .inl rfl⟩

/-- The first digits of a numeral before a point. -/
theorem sound_take {n count : Nat} (hCount : 0 < count) (negative : Bool) {fraction : List Char}
    (hFraction : ∀ c ∈ fraction, c.isDigit = true) (exponent : Option Int) :
    Sound ⟨negative, (Nat.toDigits 10 n).take count, fraction, exponent⟩ := by
  have hLength := Nat.length_toDigits_pos (b := 10) (n := n)
  refine ⟨?_, ?_, fun c hMem => isDigit_of_mem_toDigits c (List.mem_of_mem_take hMem), hFraction⟩
  · refine List.ne_nil_of_length_pos ?_
    rw [List.length_take]
    omega
  · intro hHead
    rw [List.head?_take, if_neg (Nat.ne_of_gt hCount)] at hHead
    have hOne := length_toDigits_of_head? hHead
    show ((Nat.toDigits 10 n).take count).length = 1
    rw [List.length_take, hOne]
    omega

/-- A whole number with zeros behind its digits. -/
theorem sound_zeros {n count : Nat} (h : n ≠ 0 ∨ count = 0) (negative : Bool) :
    Sound ⟨negative, Nat.toDigits 10 n ++ List.replicate count '0', ['0'], none⟩ := by
  refine ⟨List.append_ne_nil_of_left_ne_nil Nat.toDigits_ne_nil _, ?_, ?_,
    fun c hMem => List.mem_singleton.mp hMem ▸ rfl⟩
  · intro hHead
    obtain ⟨first, rest, hDigits⟩ :=
      List.exists_cons_of_ne_nil (Nat.toDigits_ne_nil (b := 10) (n := n))
    have hZero : (Nat.toDigits 10 n).head? = some '0' := by
      rw [hDigits] at hHead ⊢
      exact hHead
    have hCount : count = 0 := by
      refine h.resolve_left fun hNonzero => ?_
      exact head?_toDigits (Nat.pos_of_ne_zero hNonzero) hZero
    show (Nat.toDigits 10 n ++ List.replicate count '0').length = 1
    rw [hCount, List.replicate_zero, List.append_nil]
    exact length_toDigits_of_head? hZero
  · intro c hMem
    rcases List.mem_append.mp hMem with hDigit | hZero
    · exact isDigit_of_mem_toDigits c hDigit
    · exact List.eq_of_mem_replicate hZero ▸ rfl

/-- A decimal is written soundly unless it is zero with an exponent. -/
theorem sound_ofDecimal {value : Decimal} (h : value.digits ≠ 0 ∨ value.exponent = 0) :
    (ofDecimal value).Sound := by
  have hDrop : ∀ count : Nat, ∀ c ∈ (Nat.toDigits 10 value.digits).drop count,
      c.isDigit = true :=
    fun _ c hMem => isDigit_of_mem_toDigits c (List.mem_of_mem_drop hMem)
  rw [ofDecimal]
  split
  · exact sound_zeros (h.imp_right fun hZero => by rw [hZero]; rfl) _
  · split
    · exact sound_take (by omega) _ (hDrop _) _
    · split
      · refine ⟨List.cons_ne_nil _ _, fun _ => rfl, fun c hMem => List.mem_singleton.mp hMem ▸ rfl,
          fun c hMem => ?_⟩
        rcases List.mem_append.mp hMem with hZero | hDigit
        · exact List.eq_of_mem_replicate hZero ▸ rfl
        · exact isDigit_of_mem_toDigits c hDigit
      · exact sound_take (by decide) _ (hDrop _) _

end Number

end SourceIndex.Json
