import SourceIndex.Proofs.Json.Numbers

/-!
# What a reader has used

A reader that meets no fault has used the start of its bytes, and nothing else
matters to it: in front of other bytes the same start is read as the same, with
those bytes left.  Two things have to be watched.  A number goes on as long as
it can, so what follows must not look like more of it.  And after the first
half of a surrogate pair the reader of a literal looks ahead, at most over one
more escape; but a literal that is closed has used that escape as well.

## Main results

* `skipBlanks_eq_cons`, `literal_local`, `numberValue_local`, `word_local` — what
  is read depends on what was used.
-/

namespace SourceIndex.Json

variable {bytes rest left used : List UInt8}

/-! ### Blanks -/

/-- Bytes that are blanks. -/
def AllBlank (bytes : List UInt8) : Prop := skipBlanks bytes = []

theorem skipBlanks_append (hBlank : AllBlank bytes) (other : List UInt8) :
    skipBlanks (bytes ++ other) = skipBlanks other := by
  induction bytes with
  | nil => rfl
  | cons byte bytes ih =>
      rw [AllBlank, skipBlanks] at hBlank
      split at hBlank
      next hByte => rw [List.cons_append, skipBlanks, if_pos hByte, ih hBlank]
      next => cases hBlank

/-- What is left behind blanks starts with no blank. -/
theorem skipBlanks_idem (bytes : List UInt8) :
    skipBlanks (skipBlanks bytes) = skipBlanks bytes := by
  induction bytes with
  | nil => rfl
  | cons byte bytes ih =>
      rw [skipBlanks]
      split
      next => exact ih
      next hByte => rw [skipBlanks, if_neg hByte]

/-- Only blanks are skipped, up to a byte that is none. -/
theorem skipBlanks_eq_cons {byte : UInt8} {more : List UInt8}
    (hBytes : skipBlanks bytes = byte :: more) :
    ∃ blanks, AllBlank blanks ∧ bytes = blanks ++ byte :: more ∧
      ∀ other, skipBlanks (byte :: other) = byte :: other := by
  induction bytes with
  | nil => cases hBytes
  | cons first bytes ih =>
      rw [skipBlanks] at hBytes
      split at hBytes
      next hBlank =>
          obtain ⟨blanks, hBlanks, rfl, hByte⟩ := ih hBytes
          refine ⟨first :: blanks, ?_, rfl, hByte⟩
          rw [AllBlank, skipBlanks, if_pos hBlank]
          exact hBlanks
      next hOther =>
          obtain ⟨rfl, rfl⟩ := List.cons.inj hBytes
          exact ⟨[], rfl, rfl, fun _ => by rw [skipBlanks, if_neg hOther]⟩

/-! ### Literals -/

theorem hex4_local {n : Nat} (hHex : hex4 bytes = .ok (n, left)) :
    ∃ used, used.length = 4 ∧ bytes = used ++ left ∧
      ∀ other, hex4 (used ++ other) = .ok (n, other) := by
  unfold hex4 at hHex
  split at hHex
  next a b c d after =>
      split at hHex
      next ha hb hc hd =>
          obtain ⟨hValue, rfl⟩ := Prod.mk.inj (Except.ok.inj hHex)
          refine ⟨[a, b, c, d], rfl, rfl, fun other => ?_⟩
          show hex4 (a :: b :: c :: d :: other) = _
          rw [hex4, ha, hb, hc, hd]
          exact congrArg (fun n => Except.ok (n, other)) hValue
      next => cases hHex
  next => cases hHex

theorem piece_backslash {a : UInt8} (hBackslash : ascii a = '\\') (bytes : List UInt8) :
    piece (a :: bytes) = escape bytes := by
  rw [piece, if_neg (by rw [hBackslash]; decide), if_pos hBackslash]

theorem escape_unicode {a : UInt8} (hUnicode : ascii a = 'u') (bytes : List UInt8) :
    escape (a :: bytes) = unicodeEscape bytes := by
  rw [escape, hUnicode]
  rfl

theorem length_escape_cons_le (byte : UInt8) (bytes : List UInt8) :
    (escape (byte :: bytes)).2.length ≤ bytes.length := by
  rw [escape]
  split
  all_goals first
    | exact Nat.le_refl _
    | exact Nat.zero_le _
    | exact length_unicodeEscape_le _

theorem length_unicodeEscape_of_hex4 {n : Nat} (hHex : hex4 bytes = .ok (n, left)) :
    (unicodeEscape bytes).2.length ≤ left.length := by
  rw [unicodeEscape, hHex]
  dsimp only
  split
  next => exact Nat.le_refl _
  next =>
      split
      next => exact length_trailSurrogate_le n left
      next => exact Nat.le_refl _

/-- A start that leaves no more than `more` goes beyond what is before `more`. -/
theorem exists_of_length_le (before : List UInt8) {more : List UInt8}
    (hSame : before ++ more = used ++ rest) (hLength : rest.length ≤ more.length) :
    ∃ middle, used = before ++ middle := by
  rcases List.append_eq_append_iff.mp hSame with ⟨middle, hUsed, _⟩ | ⟨middle, hBefore, hRest⟩
  · exact ⟨middle, hUsed⟩
  · rw [hRest, List.length_append] at hLength
    obtain rfl : middle = [] := List.eq_nil_of_length_eq_zero (by omega)
    exact ⟨[], by rw [hBefore, List.append_nil, List.append_nil]⟩

/-- Whether a reader of a literal goes on after a piece. -/
def Piece.GoesOn : Piece → Prop
  | .stop _ => False
  | _ => True

theorem nothing_ne_close {fault : Fault} : Piece.nothing fault ≠ .close := by
  intro hClose
  cases hClose

/-- A reader of pieces that has used the start of its bytes, and has looked at no
more behind it than the next piece there. -/
def PieceLocal (read : List UInt8 → Piece × List UInt8) : Prop :=
  ∀ {bytes left found}, read bytes = (found, left) → found.GoesOn →
    ∃ head, bytes = head ++ left ∧ ∀ {used rest}, left = used ++ rest →
      found = .close ∨ rest.length ≤ (piece left).2.length →
      ∀ other, read (head ++ (used ++ other)) = (found, used ++ other)

section Surrogates

variable {lead trail : Nat} {a b : UInt8}

theorem trailSurrogate_other (hOther : ascii a ≠ '\\') (bytes : List UInt8) :
    trailSurrogate lead (a :: bytes) = (.nothing .missingSurrogate, a :: bytes) :=
  if_pos hOther

theorem trailSurrogate_escape (hBackslash : ¬ ascii a ≠ '\\') (hOther : ascii b ≠ 'u')
    (bytes : List UInt8) :
    trailSurrogate lead (a :: b :: bytes) = (.nothing .missingSurrogate, a :: b :: bytes) := by
  rw [trailSurrogate, if_neg hBackslash]
  exact if_pos hOther

theorem trailSurrogate_unicode (hBackslash : ¬ ascii a ≠ '\\') (hUnicode : ¬ ascii b ≠ 'u')
    (hHex : hex4 bytes = .ok (trail, left)) :
    trailSurrogate lead (a :: b :: bytes) =
      if 0xDC00 ≤ trail ∧ trail ≤ 0xDFFF then
        (.char (Char.ofNat (0x10000 + (lead - 0xD800) * 0x400 + (trail - 0xDC00))), left)
      else (.nothing .loneSurrogate, a :: b :: bytes) := by
  rw [trailSurrogate, if_neg hBackslash]
  exact (if_neg hUnicode).trans (by rw [hHex])

end Surrogates

theorem trailSurrogate_local (lead : Nat) : PieceLocal (trailSurrogate lead) := by
  intro bytes left found hTrail hGoes
  unfold trailSurrogate at hTrail
  split at hTrail
  next =>
      cases hTrail
      exact hGoes.elim
  next a after =>
      split at hTrail
      next hOther =>
          -- No escape follows, which its first byte tells.
          cases hTrail
          refine ⟨[], rfl, fun {used rest} hLeft hLook other => ?_⟩
          have hLength := Nat.le_trans (hLook.resolve_left nothing_ne_close)
            (length_piece_le a after)
          obtain ⟨middle, rfl⟩ := exists_of_length_le [a] hLeft hLength
          exact trailSurrogate_other hOther _
      next hBackslash =>
          have hEscape (more : List UInt8) : piece (a :: more) = escape more :=
            piece_backslash (Decidable.not_not.mp hBackslash) more
          split at hTrail
          next =>
              cases hTrail
              exact hGoes.elim
          next b after =>
              split at hTrail
              next hOther =>
                  -- Another escape follows, which its second byte tells.
                  cases hTrail
                  refine ⟨[], rfl, fun {used rest} hLeft hLook other => ?_⟩
                  have hLength := hLook.resolve_left nothing_ne_close
                  rw [hEscape] at hLength
                  obtain ⟨middle, rfl⟩ := exists_of_length_le [a, b] hLeft
                    (Nat.le_trans hLength (length_escape_cons_le b after))
                  exact trailSurrogate_escape hBackslash hOther _
              next hUnicode =>
                  split at hTrail
                  next =>
                      cases hTrail
                      exact hGoes.elim
                  next trail four hHex =>
                      obtain ⟨digits, _, rfl, hLocal⟩ := hex4_local hHex
                      split at hTrail
                      next hRange =>
                          cases hTrail
                          refine ⟨a :: b :: digits, rfl, fun {used rest} _ _ other => ?_⟩
                          exact (trailSurrogate_unicode hBackslash hUnicode (hLocal _)).trans
                            (if_pos hRange)
                      next hRange =>
                          -- Another escape follows that is no second half.
                          cases hTrail
                          refine ⟨[], rfl, fun {used rest} hLeft hLook other => ?_⟩
                          have hLength := hLook.resolve_left nothing_ne_close
                          rw [hEscape, escape_unicode (Decidable.not_not.mp hUnicode)] at hLength
                          obtain ⟨middle, rfl⟩ := exists_of_length_le (a :: b :: digits)
                            hLeft (Nat.le_trans hLength (length_unicodeEscape_of_hex4 hHex))
                          have hMore := hLocal (middle ++ other)
                          rw [← List.append_assoc] at hMore
                          exact (trailSurrogate_unicode hBackslash hUnicode hMore).trans
                            (if_neg hRange)

theorem unicodeEscape_local : PieceLocal unicodeEscape := by
  intro bytes left found hUnicode hGoes
  unfold unicodeEscape at hUnicode
  split at hUnicode
  next =>
      cases hUnicode
      exact hGoes.elim
  next n four hHex =>
      obtain ⟨digits, _, rfl, hLocal⟩ := hex4_local hHex
      split at hUnicode
      next hTrail =>
          cases hUnicode
          refine ⟨digits, rfl, fun _ _ other => ?_⟩
          rw [unicodeEscape, hLocal]
          exact if_pos hTrail
      next hTrail =>
          split at hUnicode
          next hLead =>
              obtain ⟨head, rfl, hHead⟩ := trailSurrogate_local n hUnicode hGoes
              refine ⟨digits ++ head, (List.append_assoc ..).symm, fun hLeft hLook other => ?_⟩
              rw [unicodeEscape, List.append_assoc, hLocal]
              dsimp only
              rw [if_neg hTrail, if_pos hLead, hHead hLeft hLook]
          next hLead =>
              cases hUnicode
              refine ⟨digits, rfl, fun _ _ other => ?_⟩
              rw [unicodeEscape, hLocal]
              exact (if_neg hTrail).trans (if_neg hLead)

/-- A mark other than that of a number stands for a character whatever follows. -/
theorem escape_mark {byte : UInt8} {found : Piece} (hOther : ascii byte ≠ 'u')
    (hEscape : escape (byte :: bytes) = (found, left)) (hGoes : found.GoesOn) :
    bytes = left ∧ ∀ other, escape (byte :: other) = (found, other) := by
  rw [escape] at hEscape
  split at hEscape
  case h_9 hMark => exact absurd hMark hOther
  case h_10 =>
      cases hEscape
      exact hGoes.elim
  all_goals
    next hMark =>
        cases hEscape
        refine ⟨rfl, fun other => ?_⟩
        rw [escape, hMark]
        rfl

theorem escape_local : PieceLocal escape := by
  intro bytes left found hEscape hGoes
  cases bytes with
  | nil =>
      cases hEscape
      exact hGoes.elim
  | cons byte bytes =>
      by_cases hUnicode : ascii byte = 'u'
      · rw [escape_unicode hUnicode] at hEscape
        obtain ⟨head, rfl, hHead⟩ := unicodeEscape_local hEscape hGoes
        refine ⟨byte :: head, rfl, fun hLeft hLook other => ?_⟩
        rw [List.cons_append, escape_unicode hUnicode, hHead hLeft hLook]
      · obtain ⟨rfl, hMark⟩ := escape_mark hUnicode hEscape hGoes
        exact ⟨[byte], rfl, fun _ _ other => hMark _⟩

theorem piece_local : PieceLocal piece := by
  intro bytes left found hPiece hGoes
  cases bytes with
  | nil =>
      cases hPiece
      exact hGoes.elim
  | cons byte bytes =>
      rw [piece] at hPiece
      split at hPiece
      next hQuote =>
          cases hPiece
          exact ⟨[byte], rfl, fun _ _ _ => if_pos hQuote⟩
      next hQuote =>
          split at hPiece
          next hBackslash =>
              obtain ⟨head, rfl, hHead⟩ := escape_local hPiece hGoes
              refine ⟨byte :: head, rfl, fun hLeft hLook other => ?_⟩
              rw [List.cons_append, piece_backslash hBackslash, hHead hLeft hLook]
          next hBackslash =>
              split at hPiece
              next =>
                  cases hPiece
                  exact hGoes.elim
              next hControl =>
                  cases hPiece
                  refine ⟨[byte], rfl, fun _ _ other => ?_⟩
                  exact (if_neg hQuote).trans ((if_neg hBackslash).trans (if_neg hControl))

/-- A piece has used its first byte. -/
theorem piece_cons_local {byte : UInt8} {found : Piece}
    (hPiece : piece (byte :: bytes) = (found, left)) (hGoes : found.GoesOn) :
    ∃ head, bytes = head ++ left ∧ ∀ {used rest}, left = used ++ rest →
      found = .close ∨ rest.length ≤ (piece left).2.length →
      ∀ other, piece (byte :: (head ++ (used ++ other))) = (found, used ++ other) := by
  obtain ⟨head, hBytes, hLocal⟩ := piece_local hPiece hGoes
  have hShort := length_piece_le byte bytes
  rw [hPiece] at hShort
  cases head with
  | nil =>
      rw [List.nil_append] at hBytes
      rw [← hBytes, List.length_cons] at hShort
      omega
  | cons first head =>
      obtain ⟨rfl, hTail⟩ := List.cons.inj hBytes
      exact ⟨head, hTail, hLocal⟩

/-- How the reader of a literal goes on after a piece. -/
def afterPiece (read : List UInt8) (first : Option Fault) (left : List UInt8) :
    Piece → Literal × Option (List UInt8)
  | .close => (closedLiteral read.reverse first, some left)
  | .byte value => literal (value :: read) first left
  | .char value => literal ((String.utf8EncodeChar value).reverse ++ read) first left
  | .nothing fault => literal read (first <|> some fault) left
  | .stop fault => (.faulty (first.getD fault) (some fault), none)

theorem literal_cons (read : List UInt8) (first : Option Fault) (byte : UInt8)
    (bytes : List UInt8) :
    literal read first (byte :: bytes) =
      afterPiece read first (piece (byte :: bytes)).2 (piece (byte :: bytes)).1 := by
  rw [literal]
  cases (piece (byte :: bytes)).1 <;> rfl

/-- A piece closes the literal, or stops its reader, or is followed by more of it. -/
theorem afterPiece_cases (read : List UInt8) (first : Option Fault) (found : Piece) :
    found = .close ∨ (∀ left, (afterPiece read first left found).2 = none) ∨
      (found.GoesOn ∧
        ∃ next known, ∀ left, afterPiece read first left found = literal next known left) := by
  cases found with
  | close => exact .inl rfl
  | stop fault => exact .inr (.inl fun _ => rfl)
  | byte value => exact .inr (.inr ⟨trivial, _, _, fun _ => rfl⟩)
  | char value => exact .inr (.inr ⟨trivial, _, _, fun _ => rfl⟩)
  | nothing fault => exact .inr (.inr ⟨trivial, _, _, fun _ => rfl⟩)

/-- **A literal is read from the bytes up to its quote.** -/
theorem literal_local {read : List UInt8} {first : Option Fault} {found : Literal}
    (hRead : literal read first bytes = (found, some rest)) :
    rest.length ≤ (piece bytes).2.length ∧ (∃ all fault, found = closedLiteral all fault) ∧
      ∃ used, bytes = used ++ rest ∧
        ∀ other, literal read first (used ++ other) = (found, some other) := by
  induction hLength : bytes.length using Nat.strongRecOn generalizing bytes read first with
  | ind length ih =>
      cases bytes with
      | nil =>
          rw [literal] at hRead
          cases hRead
      | cons byte bytes =>
          have hShort := length_piece_le byte bytes
          rw [literal_cons] at hRead
          cases hPiece : piece (byte :: bytes) with
          | mk next left =>
              rw [hPiece] at hRead hShort
              rcases afterPiece_cases read first next with
                rfl | hStop | ⟨hGoes, more, known, hMore⟩
              · obtain ⟨rfl, hLeft⟩ := Prod.mk.inj hRead
                obtain rfl := Option.some.inj hLeft
                obtain ⟨head, rfl, hLocal⟩ := piece_cons_local hPiece trivial
                refine ⟨Nat.le_refl _, ⟨_, _, rfl⟩, byte :: head, rfl, fun other => ?_⟩
                have hQuote := hLocal (List.nil_append left).symm (.inl rfl) other
                rw [List.cons_append, literal_cons, ← List.nil_append other, hQuote]
                rfl
              · have hNone := hStop left
                rw [hRead] at hNone
                cases hNone
              · rw [hMore] at hRead
                obtain ⟨hLook, hClosed, used, rfl, hUsed⟩ :=
                  ih left.length (by rw [← hLength]; exact Nat.lt_succ_of_le hShort) hRead rfl
                obtain ⟨head, rfl, hLocal⟩ := piece_cons_local hPiece hGoes
                refine ⟨by simp, hClosed, byte :: (head ++ used), by simp, fun other => ?_⟩
                rw [List.cons_append, List.append_assoc, literal_cons,
                  hLocal rfl (.inr hLook) other, hMore, hUsed]

/-! ### Numbers -/

/-- Bytes that do not start with a digit. -/
def NoDigit (rest : List UInt8) : Prop := ∀ byte ∈ rest.head?, (ascii byte).isDigit = false

/-- Bytes that start neither with a digit nor with a point. -/
def NoPoint (rest : List UInt8) : Prop := ∀ byte ∈ rest.head?, ascii byte ≠ '.'

theorem EndsNumber.noDigit (hEnd : EndsNumber rest) : NoDigit rest :=
  fun byte hByte => (hEnd byte hByte).1

theorem EndsNumber.noPoint (hEnd : EndsNumber rest) : NoPoint rest :=
  fun byte hByte => (hEnd byte hByte).2.1

theorem ofNat_ascii (byte : UInt8) : UInt8.ofNat (ascii byte).toNat = byte := by
  rw [toNat_ascii, UInt8.ofNat_toNat]

theorem digits_split {found : List Char} (hDigits : digits bytes = (found, rest)) :
    bytes = Utf8.encode found ++ rest ∧ ∀ c ∈ found, c.isDigit = true := by
  induction bytes generalizing found with
  | nil =>
      obtain ⟨rfl, rfl⟩ := Prod.mk.inj hDigits
      exact ⟨rfl, nofun⟩
  | cons byte bytes ih =>
      rw [digits] at hDigits
      split at hDigits
      next hDigit =>
          obtain ⟨rfl, rfl⟩ := Prod.mk.inj hDigits
          obtain ⟨hBytes, hAll⟩ := ih rfl
          rw [Utf8.encode_ascii_cons (toNat_lt_of_isDigit hDigit), ofNat_ascii, List.cons_append,
            ← hBytes]
          exact ⟨rfl, List.forall_mem_cons.mpr ⟨hDigit, hAll⟩⟩
      next =>
          obtain ⟨rfl, rfl⟩ := Prod.mk.inj hDigits
          exact ⟨rfl, nofun⟩

theorem someDigits_split {found : List Char} (hSome : someDigits bytes = .ok (found, rest)) :
    found ≠ [] ∧ bytes = Utf8.encode found ++ rest ∧ ∀ c ∈ found, c.isDigit = true := by
  rw [someDigits] at hSome
  split at hSome
  next => cases hSome
  next => cases hSome
  next hEmpty =>
      have hDigits := Except.ok.inj hSome
      refine ⟨?_, digits_split hDigits⟩
      rintro rfl
      exact hEmpty rest hDigits

/-- Digits are read from themselves and what ends them. -/
theorem someDigits_local {found : List Char} (hSome : someDigits bytes = .ok (found, rest)) :
    ∃ used, used ≠ [] ∧ bytes = used ++ rest ∧
      ∀ other, NoDigit other → someDigits (used ++ other) = .ok (found, other) := by
  obtain ⟨hFound, hBytes, hDigits⟩ := someDigits_split hSome
  refine ⟨Utf8.encode found, ?_, hBytes, fun other hEnd => someDigits_encode hFound hDigits hEnd⟩
  have hLength := Utf8.length_le_length_encode found
  have hPos := List.length_pos_iff.mpr hFound
  exact List.length_pos_iff.mp (Nat.lt_of_lt_of_le hPos hLength)

theorem wholePart_eq_ok_iff {found : List Char} :
    wholePart bytes = .ok (found, rest) ↔
      someDigits bytes = .ok (found, rest) ∧ ¬ (found.head? = some '0' ∧ 1 < found.length) := by
  rw [wholePart]
  cases someDigits bytes with
  | error fault =>
      constructor
      · intro hPair
        cases hPair
      · rintro ⟨hPair, _⟩
        cases hPair
  | ok pair =>
      simp only [bind, Except.bind]
      split
      next hZero =>
          constructor
          · intro hPair
            cases hPair
          · rintro ⟨hPair, hNot⟩
            obtain rfl := Except.ok.inj hPair
            exact absurd hZero hNot
      next hZero =>
          constructor
          · intro hPair
            have hSame : pair = (found, rest) := Except.ok.inj hPair
            rw [hSame] at hZero ⊢
            exact ⟨rfl, hZero⟩
          · exact fun hPair => hPair.1

theorem wholePart_local {found : List Char} (hWhole : wholePart bytes = .ok (found, rest)) :
    ∃ used, used ≠ [] ∧ bytes = used ++ rest ∧
      ∀ other, NoDigit other → wholePart (used ++ other) = .ok (found, other) := by
  obtain ⟨hSome, hZero⟩ := wholePart_eq_ok_iff.mp hWhole
  obtain ⟨used, hUsed, hBytes, hLocal⟩ := someDigits_local hSome
  exact ⟨used, hUsed, hBytes, fun other hEnd => wholePart_eq_ok_iff.mpr ⟨hLocal other hEnd, hZero⟩⟩

theorem fractionPart_of_noPoint (hEnd : NoPoint rest) : fractionPart rest = .ok ([], rest) := by
  cases rest with
  | nil => rfl
  | cons byte rest => exact if_neg (hEnd byte rfl)

theorem fractionPart_local {found : List Char}
    (hFraction : fractionPart bytes = .ok (found, rest)) :
    ∃ used, bytes = used ++ rest ∧ ∀ other, NoDigit other → NoPoint other →
      NoDigit (used ++ other) ∧ fractionPart (used ++ other) = .ok (found, other) := by
  by_cases hPoint : NoPoint bytes
  · rw [fractionPart_of_noPoint hPoint] at hFraction
    obtain ⟨rfl, rfl⟩ := Prod.mk.inj (Except.ok.inj hFraction)
    exact ⟨[], rfl, fun other hDigit hPoint => ⟨hDigit, fractionPart_of_noPoint hPoint⟩⟩
  · cases bytes with
    | nil => exact absurd nofun hPoint
    | cons byte bytes =>
        rw [fractionPart] at hFraction
        split at hFraction
        next hByte =>
            obtain ⟨used, _, rfl, hLocal⟩ := someDigits_local hFraction
            refine ⟨byte :: used, rfl, fun other hDigit _ => ⟨?_, ?_⟩⟩
            · intro first hFirst
              obtain rfl := Option.some.inj hFirst
              rw [hByte]
              decide
            · rw [List.cons_append, fractionPart, if_pos hByte, hLocal other hDigit]
        next hByte =>
            refine absurd (fun first hFirst => ?_) hPoint
            obtain rfl := Option.some.inj hFirst
            exact hByte

theorem exponentPart_of_end (hEnd : EndsNumber rest) : exponentPart rest = .ok (none, rest) := by
  cases rest with
  | nil => rfl
  | cons byte rest =>
      obtain ⟨_, _, hSmall, hLarge⟩ := hEnd byte rfl
      exact if_neg (not_or.mpr ⟨hSmall, hLarge⟩)

/-- A sign is there, or the bytes start with none. -/
theorem signPart_cases {negative : Bool} (hSign : signPart bytes = (negative, left)) :
    (∃ sign, bytes = sign :: left ∧ ∀ other, signPart (sign :: other) = (negative, other)) ∨
      (bytes = left ∧ ∀ byte more, bytes = byte :: more →
        ∀ other, signPart (byte :: other) = (negative, byte :: other)) := by
  cases bytes with
  | nil =>
      obtain ⟨rfl, rfl⟩ := Prod.mk.inj hSign
      exact .inr ⟨rfl, nofun⟩
  | cons byte bytes =>
      rw [signPart] at hSign
      split at hSign
      next hMinus =>
          obtain ⟨rfl, rfl⟩ := Prod.mk.inj hSign
          exact .inl ⟨byte, rfl, fun _ => if_pos hMinus⟩
      next hMinus =>
          split at hSign
          next hPlus =>
              obtain ⟨rfl, rfl⟩ := Prod.mk.inj hSign
              exact .inl ⟨byte, rfl, fun _ => (if_neg hMinus).trans (if_pos hPlus)⟩
          next hPlus =>
              obtain ⟨rfl, rfl⟩ := Prod.mk.inj hSign
              refine .inr ⟨rfl, fun first more hBytes other => ?_⟩
              obtain ⟨rfl, _⟩ := List.cons.inj hBytes
              exact (if_neg hMinus).trans (if_neg hPlus)

/-- Digits behind a sign that may be missing. -/
theorem signedDigits_local {negative : Bool} {found : List Char}
    (hSign : signPart bytes = (negative, left)) (hSome : someDigits left = .ok (found, rest)) :
    ∃ used, bytes = used ++ rest ∧ ∀ other, NoDigit other →
      ∃ more, signPart (used ++ other) = (negative, more) ∧
        someDigits more = .ok (found, other) := by
  obtain ⟨used, hUsed, rfl, hLocal⟩ := someDigits_local hSome
  rcases signPart_cases hSign with ⟨sign, rfl, hSigned⟩ | ⟨rfl, hUnsigned⟩
  · exact ⟨sign :: used, rfl, fun other hEnd => ⟨used ++ other, hSigned _, hLocal other hEnd⟩⟩
  · obtain ⟨first, more, rfl⟩ := List.exists_cons_of_ne_nil hUsed
    exact ⟨first :: more, rfl, fun other hEnd =>
      ⟨first :: (more ++ other), hUnsigned first (more ++ rest) rfl _, hLocal other hEnd⟩⟩

section Exponents

variable {byte : UInt8} {negative : Bool} (hMark : ascii byte = 'e' ∨ ascii byte = 'E')
  (hSign : signPart bytes = (negative, left))

include hMark hSign

theorem exponentPart_of_error {fault : Fault} (hSome : someDigits left = .error fault) :
    exponentPart (byte :: bytes) = .error fault := by
  rw [exponentPart, if_pos hMark, hSign]
  dsimp only
  rw [hSome]
  rfl

theorem exponentPart_of_ok {digits : List Char} (hSome : someDigits left = .ok (digits, rest)) :
    exponentPart (byte :: bytes) =
      .ok (some (if negative then -(Text.digitsValue digits : Int) else Text.digitsValue digits),
        rest) := by
  rw [exponentPart, if_pos hMark, hSign]
  dsimp only
  rw [hSome]
  rfl

end Exponents

theorem exponentPart_local {found : Option Int}
    (hExponent : exponentPart bytes = .ok (found, rest)) :
    ∃ used, bytes = used ++ rest ∧ ∀ other, EndsNumber other →
      NoDigit (used ++ other) ∧ NoPoint (used ++ other) ∧
        exponentPart (used ++ other) = .ok (found, other) := by
  cases bytes with
  | nil =>
      obtain ⟨rfl, rfl⟩ := Prod.mk.inj (Except.ok.inj hExponent)
      exact ⟨[], rfl, fun other hEnd => ⟨hEnd.noDigit, hEnd.noPoint, exponentPart_of_end hEnd⟩⟩
  | cons byte bytes =>
      by_cases hMark : ascii byte = 'e' ∨ ascii byte = 'E'
      · cases hSome : someDigits (signPart bytes).2 with
        | error fault =>
            rw [exponentPart_of_error hMark rfl hSome] at hExponent
            cases hExponent
        | ok pair =>
            obtain ⟨digits, after⟩ := pair
            rw [exponentPart_of_ok hMark rfl hSome] at hExponent
            obtain ⟨rfl, rfl⟩ := Prod.mk.inj (Except.ok.inj hExponent)
            obtain ⟨used, rfl, hLocal⟩ := signedDigits_local rfl hSome
            have hOther : (ascii byte).isDigit = false ∧ ascii byte ≠ '.' := by
              rcases hMark with hSmall | hLarge
              · rw [hSmall]
                decide
              · rw [hLarge]
                decide
            refine ⟨byte :: used, rfl, fun other hEnd => ⟨?_, ?_, ?_⟩⟩
            · intro first hFirst
              exact Option.some.inj hFirst ▸ hOther.1
            · intro first hFirst
              exact Option.some.inj hFirst ▸ hOther.2
            · obtain ⟨more, hSign, hDigits⟩ := hLocal other hEnd.noDigit
              exact exponentPart_of_ok hMark hSign hDigits
      · have hNone : exponentPart (byte :: bytes) = .ok (none, byte :: bytes) := if_neg hMark
        rw [hNone] at hExponent
        obtain ⟨rfl, rfl⟩ := Prod.mk.inj (Except.ok.inj hExponent)
        exact ⟨[], rfl, fun other hEnd =>
          ⟨hEnd.noDigit, hEnd.noPoint, exponentPart_of_end hEnd⟩⟩

theorem unsignedNumber_eq_ok_iff {negative : Bool} {value : Number} :
    unsignedNumber negative bytes = .ok (value, rest) ↔
      ∃ wholeLeft fractionLeft, value.negative = negative ∧
        wholePart bytes = .ok (value.whole, wholeLeft) ∧
        fractionPart wholeLeft = .ok (value.fraction, fractionLeft) ∧
        exponentPart fractionLeft = .ok (value.exponent, rest) := by
  simp only [unsignedNumber, bind, Except.bind, pure, Except.pure]
  constructor
  · intro hNumber
    split at hNumber
    next => cases hNumber
    next whole hWhole =>
        split at hNumber
        next => cases hNumber
        next fraction hFraction =>
            split at hNumber
            next => cases hNumber
            next exponent hExponent =>
                obtain ⟨rfl, rfl⟩ := Prod.mk.inj (Except.ok.inj hNumber)
                exact ⟨whole.2, fraction.2, rfl, hWhole, hFraction, hExponent⟩
  · rintro ⟨wholeLeft, fractionLeft, rfl, hWhole, hFraction, hExponent⟩
    simp only [hWhole, hFraction, hExponent]

/-- **A number is read from itself and what ends it.** -/
theorem numberValue_local {negative : Bool} {found : Json}
    (hRead : numberValue negative bytes = (found, some rest)) :
    (∃ value, found = .number value) ∧ ∃ used, used ≠ [] ∧ bytes = used ++ rest ∧
      ∀ other, EndsNumber other → numberValue negative (used ++ other) = (found, some other) := by
  rw [numberValue] at hRead
  split at hRead
  next value after hNumber =>
      obtain ⟨rfl, hAfter⟩ := Prod.mk.inj hRead
      obtain rfl := Option.some.inj hAfter
      obtain ⟨_, _, hNegative, hWhole, hFraction, hExponent⟩ := unsignedNumber_eq_ok_iff.mp hNumber
      obtain ⟨whole, hSome, rfl, hWholeLocal⟩ := wholePart_local hWhole
      obtain ⟨fraction, rfl, hFractionLocal⟩ := fractionPart_local hFraction
      obtain ⟨exponent, rfl, hExponentLocal⟩ := exponentPart_local hExponent
      refine ⟨⟨value, rfl⟩, whole ++ (fraction ++ exponent),
        List.append_ne_nil_of_left_ne_nil hSome _, by simp, fun other hEnd => ?_⟩
      obtain ⟨hDigit, hPoint, hExponent⟩ := hExponentLocal other hEnd
      obtain ⟨hDigit, hFraction⟩ := hFractionLocal (exponent ++ other) hDigit hPoint
      have hWhole := hWholeLocal (fraction ++ (exponent ++ other)) hDigit
      rw [List.append_assoc, List.append_assoc, numberValue,
        unsignedNumber_eq_ok_iff.mpr ⟨_, _, hNegative, hWhole, hFraction, hExponent⟩]
  next => cases hRead

/-! ### Words -/

theorem word_local {value found : Json} {letters : List Char}
    (hRead : word value letters bytes = (found, some rest)) :
    found = value ∧ ∃ used, bytes = used ++ rest ∧
      ∀ other, word value letters (used ++ other) = (found, some other) := by
  induction letters generalizing bytes with
  | nil =>
      obtain ⟨rfl, hRest⟩ := Prod.mk.inj hRead
      obtain rfl := Option.some.inj hRest
      exact ⟨rfl, [], rfl, fun _ => rfl⟩
  | cons letter letters ih =>
      cases bytes with
      | nil => cases hRead
      | cons byte bytes =>
          rw [word] at hRead
          split at hRead
          next hByte =>
              obtain ⟨hFound, used, rfl, hLocal⟩ := ih hRead
              refine ⟨hFound, byte :: used, rfl, fun other => ?_⟩
              rw [List.cons_append, word, if_pos hByte, hLocal]
          next => cases hRead

end SourceIndex.Json
