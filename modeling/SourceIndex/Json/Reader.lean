import SourceIndex.Digest.Hex
import SourceIndex.Json.Basic
import SourceIndex.Text.Utf8

/-!
# Reading JSON

A document is read from bytes. Reading never fails: where the text stops being JSON the value
ends in a `broken` leaf and the rest of the text is not looked at. Every reader of this module
returns what it has read with the bytes that follow, or with none when it met a fault.
-/

namespace SourceIndex.Json

/-- A byte as the character with that number, to be compared with ASCII characters. -/
def ascii (byte : UInt8) : Char := Char.ofNat byte.toNat

/-- The bytes after leading blanks. -/
def skipBlanks : List UInt8 → List UInt8
  | [] => []
  | byte :: rest =>
    if [' ', '\t', '\n', '\r'].contains (ascii byte) then skipBlanks rest else byte :: rest

/-! ### String literals -/

/-- One step through a string literal. -/
inductive Piece where
  /-- The closing quote. -/
  | close
  /-- A byte that stands for itself. -/
  | byte (value : UInt8)
  /-- An escape. -/
  | char (value : Char)
  /-- An escape that stands for nothing, but may be passed over. -/
  | nothing (fault : Fault)
  /-- The literal ends here. -/
  | stop (fault : Fault)

/-- Four hexadecimal digits, with the bytes after them. -/
def hex4 : List UInt8 → Except Fault (Nat × List UInt8)
  | a :: b :: c :: d :: rest =>
    match Hex.value? (ascii a), Hex.value? (ascii b), Hex.value? (ascii c),
        Hex.value? (ascii d) with
    | some a, some b, some c, some d => .ok (4096 * a + 256 * b + 16 * c + d, rest)
    | _, _, _, _ => .error .invalidEscape
  | _ => .error .endInString

theorem length_of_hex4 {bytes rest : List UInt8} {n : Nat} (h : hex4 bytes = .ok (n, rest)) :
    rest.length < bytes.length := by
  unfold hex4 at h
  split at h
  · split at h
    · simp only [Except.ok.injEq, Prod.mk.injEq] at h
      simp only [← h.2, List.length_cons]
      omega
    · simp at h
  · simp at h

/-- The second half of a surrogate pair whose first half is `lead`. -/
def trailSurrogate (lead : Nat) : List UInt8 → Piece × List UInt8
  | [] => (.stop .endInString, [])
  | a :: rest =>
    if ascii a ≠ '\\' then (.nothing .missingSurrogate, a :: rest)
    else match rest with
      | [] => (.stop .endInString, [])
      | b :: after =>
        if ascii b ≠ 'u' then (.nothing .missingSurrogate, a :: b :: after)
        else match hex4 after with
          | .error fault => (.stop fault, [])
          | .ok (trail, left) =>
            if 0xDC00 ≤ trail ∧ trail ≤ 0xDFFF then
              (.char (Char.ofNat (0x10000 + (lead - 0xD800) * 0x400 + (trail - 0xDC00))), left)
            else (.nothing .loneSurrogate, a :: b :: after)

theorem length_trailSurrogate_le (lead : Nat) (bytes : List UInt8) :
    (trailSurrogate lead bytes).2.length ≤ bytes.length := by
  unfold trailSurrogate
  split
  · simp
  · split
    · simp
    · split
      · simp
      · split
        · simp
        · split
          · simp
          · next h =>
            have := length_of_hex4 h
            split
            · simp; omega
            · simp

/-- What follows `\u`. -/
def unicodeEscape (bytes : List UInt8) : Piece × List UInt8 :=
  match hex4 bytes with
  | .error fault => (.stop fault, [])
  | .ok (n, rest) =>
    if 0xDC00 ≤ n ∧ n ≤ 0xDFFF then (.nothing .loneSurrogate, rest)
    else if 0xD800 ≤ n ∧ n ≤ 0xDBFF then trailSurrogate n rest
    else (.char (Char.ofNat n), rest)

theorem length_unicodeEscape_le (bytes : List UInt8) :
    (unicodeEscape bytes).2.length ≤ bytes.length := by
  unfold unicodeEscape
  split
  · simp
  · next h =>
    have := length_of_hex4 h
    split
    · simp; omega
    · split
      · exact Nat.le_trans (length_trailSurrogate_le ..) (Nat.le_of_lt this)
      · simp; omega

/-- What follows a backslash. -/
def escape : List UInt8 → Piece × List UInt8
  | [] => (.stop .endInString, [])
  | byte :: rest =>
    match ascii byte with
    | '"' => (.char '"', rest)
    | '\\' => (.char '\\', rest)
    | '/' => (.char '/', rest)
    | 'b' => (.char '\x08', rest)
    | 'f' => (.char '\x0c', rest)
    | 'n' => (.char '\n', rest)
    | 'r' => (.char '\r', rest)
    | 't' => (.char '\t', rest)
    | 'u' => unicodeEscape rest
    | _ => (.stop .invalidEscape, [])

theorem length_escape_le (bytes : List UInt8) : (escape bytes).2.length ≤ bytes.length := by
  unfold escape
  split
  · simp
  · split <;> first
      | (simp; done)
      | exact Nat.le_trans (length_unicodeEscape_le _) (by simp)

/-- The next piece of a literal. -/
def piece : List UInt8 → Piece × List UInt8
  | [] => (.stop .endInString, [])
  | byte :: rest =>
    if ascii byte = '"' then (.close, rest)
    else if ascii byte = '\\' then escape rest
    else if byte.toNat < 32 then (.stop .controlCharacter, [])
    else (.byte byte, rest)

theorem length_piece_le (byte : UInt8) (rest : List UInt8) :
    (piece (byte :: rest)).2.length ≤ rest.length := by
  simp only [piece]
  split
  · simp
  · split
    · exact length_escape_le rest
    · split <;> simp

/-- The literal that closes, given its bytes and the first of its faults. -/
def closedLiteral (bytes : List UInt8) : Option Fault → Literal
  | some fault => .faulty fault none
  | none =>
    match Utf8.decode? bytes with
    | some value => .text value
    | none => .faulty .invalidCharacter none

/-- Reads a literal to its closing quote, given its bytes so far, the last one first. -/
def literal (read : List UInt8) (first : Option Fault) :
    List UInt8 → Literal × Option (List UInt8)
  | [] => (.faulty (first.getD .endInString) (some .endInString), none)
  | byte :: rest =>
    let left := (piece (byte :: rest)).2
    match (piece (byte :: rest)).1 with
    | .close => (closedLiteral read.reverse first, some left)
    | .byte value => literal (value :: read) first left
    | .char value => literal ((String.utf8EncodeChar value).reverse ++ read) first left
    | .nothing fault => literal read (first <|> some fault) left
    | .stop fault => (.faulty (first.getD fault) (some fault), none)
termination_by bytes => bytes.length
decreasing_by
  all_goals
    have := length_piece_le byte rest
    simp
    omega

/-! ### Numbers -/

/-- The digits that bytes start with, and the bytes after them. -/
def digits : List UInt8 → List Char × List UInt8
  | [] => ([], [])
  | byte :: rest =>
    if (ascii byte).isDigit then
      let (more, after) := digits rest
      (ascii byte :: more, after)
    else ([], byte :: rest)

/-- One or more digits. -/
def someDigits (bytes : List UInt8) : Except Fault (List Char × List UInt8) :=
  match digits bytes with
  | ([], []) => .error .endInNumber
  | ([], _) => .error .invalidNumber
  | found => .ok found

/-- The digits before the point: a zero alone, or digits that start with no zero. -/
def wholePart (bytes : List UInt8) : Except Fault (List Char × List UInt8) := do
  let (found, rest) ← someDigits bytes
  if found.head? = some '0' ∧ 1 < found.length then throw .invalidNumber
  return (found, rest)

/-- The digits after a point, none when there is no point. -/
def fractionPart : List UInt8 → Except Fault (List Char × List UInt8)
  | [] => .ok ([], [])
  | byte :: rest => if ascii byte = '.' then someDigits rest else .ok ([], byte :: rest)

/-- A sign, true for minus. -/
def signPart : List UInt8 → Bool × List UInt8
  | [] => (false, [])
  | byte :: rest =>
    if ascii byte = '-' then (true, rest)
    else if ascii byte = '+' then (false, rest)
    else (false, byte :: rest)

/-- An exponent, none when there is no `e`. -/
def exponentPart : List UInt8 → Except Fault (Option Int × List UInt8)
  | [] => .ok (none, [])
  | byte :: rest =>
    if ascii byte = 'e' ∨ ascii byte = 'E' then do
      let (negative, unsigned) := signPart rest
      let (found, after) ← someDigits unsigned
      let magnitude : Int := Text.digitsValue found
      return (some (if negative then -magnitude else magnitude), after)
    else .ok (none, byte :: rest)

/-- A number after its sign. -/
def unsignedNumber (negative : Bool) (bytes : List UInt8) :
    Except Fault (Number × List UInt8) := do
  let (whole, rest) ← wholePart bytes
  let (fraction, rest) ← fractionPart rest
  let (exponent, rest) ← exponentPart rest
  return (⟨negative, whole, fraction, exponent⟩, rest)

/-- A number as a value. -/
def numberValue (negative : Bool) (bytes : List UInt8) : Json × Option (List UInt8) :=
  match unsignedNumber negative bytes with
  | .ok (value, rest) => (number value, some rest)
  | .error fault => (broken fault, none)

/-! ### Values -/

/-- A word that stands for a value, without its first letter. -/
def word (value : Json) : List Char → List UInt8 → Json × Option (List UInt8)
  | [], rest => (value, some rest)
  | _ :: _, [] => (broken .endOfText, none)
  | c :: more, byte :: rest =>
    if ascii byte = c then word value more rest else (broken .expectedIdentifier, none)

/-- A member that is no member, at the place of a fault. -/
def brokenMember (fault : Fault) : Literal × Json :=
  (.faulty fault (some fault.whenSkipped), broken fault)

mutual

/-- Reads a value. Three units of fuel for each byte are enough. -/
def readValue : (fuel : Nat) → List UInt8 → Json × Option (List UInt8)
  | 0, _ => (broken .endOfText, none)
  | fuel + 1, bytes =>
    match skipBlanks bytes with
    | [] => (broken .endOfText, none)
    | byte :: rest =>
      match ascii byte with
      | 'n' => word null ['u', 'l', 'l'] rest
      | 't' => word (bool true) ['r', 'u', 'e'] rest
      | 'f' => word (bool false) ['a', 'l', 's', 'e'] rest
      | '-' => numberValue true rest
      | '"' =>
        let (value, after) := literal [] none rest
        (string value, after)
      | '[' =>
        let (items, after) := readItems fuel true rest
        (array items, after)
      | '\x7b' =>
        let (members, after) := readMembers fuel true rest
        (object members, after)
      | c => if c.isDigit then numberValue false (byte :: rest) else (broken .expectedValue, none)

/-- Reads the items of a list, or those after the first one. -/
def readItems : (fuel : Nat) → (first : Bool) → List UInt8 → List Json × Option (List UInt8)
  | 0, _, _ => ([broken .endInList], none)
  | fuel + 1, first, bytes =>
    match skipBlanks bytes with
    | [] => ([broken .endInList], none)
    | byte :: rest =>
      if ascii byte = ']' then ([], some rest)
      else if first then readItem fuel (byte :: rest)
      else if ascii byte = ',' then
        match skipBlanks rest with
        | [] => ([broken .endOfText], none)
        | next :: after =>
          if ascii next = ']' then ([broken .commaBeforeListEnd], none)
          else readItem fuel (next :: after)
      else ([broken .expectedListEnd], none)

/-- Reads one item and those after it. -/
def readItem : (fuel : Nat) → List UInt8 → List Json × Option (List UInt8)
  | 0, _ => ([broken .endInList], none)
  | fuel + 1, bytes =>
    match readValue fuel bytes with
    | (item, none) => ([item], none)
    | (item, some rest) =>
      let (items, after) := readItems fuel false rest
      (item :: items, after)

/-- Reads the members of an object, or those after the first one. -/
def readMembers : (fuel : Nat) → (first : Bool) → List UInt8 →
    List (Literal × Json) × Option (List UInt8)
  | 0, _, _ => ([brokenMember .endInObject], none)
  | fuel + 1, first, bytes =>
    match skipBlanks bytes with
    | [] => ([brokenMember .endInObject], none)
    | byte :: rest =>
      if ascii byte = '\x7d' then ([], some rest)
      else if first then readMember fuel (byte :: rest)
      else if ascii byte = ',' then
        match skipBlanks rest with
        | [] => ([brokenMember .endAfterMember], none)
        | next :: after =>
          if ascii next = '\x7d' then ([brokenMember .commaBeforeObjectEnd], none)
          else readMember fuel (next :: after)
      else ([brokenMember .expectedObjectEnd], none)

/-- Reads one member and those after it. -/
def readMember : (fuel : Nat) → List UInt8 → List (Literal × Json) × Option (List UInt8)
  | 0, _ => ([brokenMember .endInObject], none)
  | _ + 1, [] => ([brokenMember .endInObject], none)
  | fuel + 1, byte :: rest =>
    if ascii byte ≠ '"' then ([brokenMember .expectedKey], none)
    else match literal [] none rest with
      | (key, none) => ([(key, null)], none)
      | (key, some rest) =>
        match skipBlanks rest with
        | [] => ([(key, broken .endInObject)], none)
        | colon :: rest =>
          if ascii colon ≠ ':' then ([(key, broken .expectedColon)], none)
          else match readValue fuel rest with
            | (value, none) => ([(key, value)], none)
            | (value, some rest) =>
              let (members, after) := readMembers fuel false rest
              ((key, value) :: members, after)

end

/-- Reads a document from bytes. -/
def Document.ofBytes (bytes : List UInt8) : Document :=
  match readValue (3 * bytes.length + 3) bytes with
  | (value, none) => ⟨value, false⟩
  | (value, some rest) => ⟨value, !(skipBlanks rest).isEmpty⟩

/-- Reads a document from a text. -/
def Document.ofString (text : String) : Document := .ofBytes (Utf8.bytes text)

end SourceIndex.Json
