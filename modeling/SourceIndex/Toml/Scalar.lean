import SourceIndex.Digest.Hex
import SourceIndex.Text.Decimal
import SourceIndex.Text.Pieces
import SourceIndex.Toml.Basic

/-!
# TOML numbers, truth values and times

Values that are written without quotes and brackets.
-/

namespace SourceIndex.Toml.Scalar

/-- The text without underscores, when each stands between two characters. -/
def withoutUnderscores? (text : List Char) : Option (List Char) :=
  let pieces := Text.splitWhere (· == '_') text
  if pieces.any (·.isEmpty) then none else some pieces.flatten

/-- The value of digits in a base. -/
def valueIn (base : Nat) (digits : List Char) : Option Nat :=
  digits.foldlM (fun value c => do
    let digit ← Hex.value? c
    if digit < base then some (base * value + digit) else none) 0

/-- One or more digits in a base, with underscores between them. -/
def basedNat? (base : Nat) (text : List Char) : Option Nat := do
  let digits ← withoutUnderscores? text
  valueIn base digits

/-- Decimal digits without a superfluous zero at the start. -/
def decimalNat? (text : List Char) : Option Nat := do
  let value ← basedNat? 10 text
  if text.head? = some '0' ∧ 1 < text.length then none else some value

/-- The sign of a number, true for minus, and what follows it. -/
def sign : List Char → Bool × List Char
  | '-' :: rest => (true, rest)
  | '+' :: rest => (false, rest)
  | text => (false, text)

/-- An integer, with or without a sign. -/
def integer? (text : List Char) : Option Value :=
  match text with
  | '0' :: 'x' :: digits => (basedNat? 16 digits).map fun n => .integer n
  | '0' :: 'o' :: digits => (basedNat? 8 digits).map fun n => .integer n
  | '0' :: 'b' :: digits => (basedNat? 2 digits).map fun n => .integer n
  | _ =>
    let (negative, digits) := sign text
    (decimalNat? digits).map fun n => .integer (if negative then -n else n)

/-- Digits that may start with zeros. -/
def digitsOnly (text : List Char) : Bool := (basedNat? 10 text).isSome

/-- The exponent of a float, without its letter. -/
def exponent? (text : List Char) : Option Int := do
  let (negative, digits) := sign text
  let value ← basedNat? 10 digits
  return if negative then -value else value

/-- The digits of a float before its exponent, and how many of them are behind the point. -/
def significand? (text : List Char) : Option (List Char × Nat) := do
  let (whole, fraction) ← match Text.splitWhere (· == '.') text with
    | [whole] => some (whole, [])
    | [whole, fraction] => if digitsOnly fraction then some (whole, fraction) else none
    | _ => none
  let _ ← decimalNat? whole
  let fraction ← if fraction.isEmpty then some [] else withoutUnderscores? fraction
  return ((← withoutUnderscores? whole) ++ fraction, fraction.length)

/-- The power of ten below which a number that is not zero lies, none for zero. -/
def magnitude? (digits : List Char) (places : Nat) (exponent : Int) : Option Int :=
  let significant := digits.dropWhile (· == '0')
  if significant.isEmpty then none else some (significant.length - places + exponent)

/-- Whether a number is nearer to two to the 1024th than to the largest float below. -/
def isTooLarge (digits : List Char) (places : Nat) (exponent : Int) : Bool :=
  match magnitude? digits places exponent with
  | none => false
  | some magnitude =>
    if magnitude < 309 then false
    else if 309 < magnitude then true
    else
      let shift := exponent - places
      let bound := (0x40000000000000 - 1) * Nat.pow 2 970
      bound * Nat.pow 10 (-shift).toNat ≤ Text.digitsValue digits * Nat.pow 10 shift.toNat

/-- A float. -/
def float? (text : List Char) : Option Value :=
  let unsigned := (sign text).2
  if [['i', 'n', 'f'], ['n', 'a', 'n']].contains unsigned then some (.float false)
  else
    match Text.splitWhere (fun c => c == 'e' || c == 'E') unsigned with
    | [plain] => do
      if !plain.contains '.' then none
      let (digits, places) ← significand? plain
      return .float (isTooLarge digits places 0)
    | [plain, exponent] => do
      let (digits, places) ← significand? plain
      return .float (isTooLarge digits places (← exponent? exponent))
    | _ => none

/-! ### Dates and times -/

/-- A number of exactly `width` digits between two bounds. -/
def field? (width low high : Nat) (text : List Char) : Option Nat :=
  if text.length = width ∧ text.all Char.isDigit then
    let value := Text.digitsValue text
    if low ≤ value ∧ value ≤ high then some value else none
  else none

/-- The number of days of a month. -/
def daysIn (year month : Nat) : Nat :=
  if month = 2 then
    if year % 4 = 0 ∧ (year % 100 ≠ 0 ∨ year % 400 = 0) then 29 else 28
  else if month = 4 ∨ month = 6 ∨ month = 9 ∨ month = 11 then 30
  else 31

/-- A date. -/
def isDate (text : List Char) : Bool :=
  match Text.splitWhere (· == '-') text with
  | [year, month, day] =>
    match field? 4 0 9999 year, field? 2 1 12 month with
    | some year, some month => (field? 2 1 (daysIn year month) day).isSome
    | _, _ => false
  | _ => false

/-- Seconds, with an optional fraction. -/
def isSeconds (text : List Char) : Bool :=
  match Text.splitWhere (· == '.') text with
  | [whole] => (field? 2 0 60 whole).isSome
  | [whole, fraction] =>
    (field? 2 0 60 whole).isSome && !fraction.isEmpty && fraction.all Char.isDigit
  | _ => false

/-- A time of the day; seconds may be left out. -/
def isTime (text : List Char) : Bool :=
  match Text.splitWhere (· == ':') text with
  | [hour, minute] => (field? 2 0 23 hour).isSome && (field? 2 0 59 minute).isSome
  | [hour, minute, second] =>
    (field? 2 0 23 hour).isSome && (field? 2 0 59 minute).isSome && isSeconds second
  | _ => false

/-- An offset from universal time, without its sign. -/
def isOffset (text : List Char) : Bool :=
  match Text.splitWhere (· == ':') text with
  | [hour, minute] => (field? 2 0 23 hour).isSome && (field? 2 0 59 minute).isSome
  | _ => false

/-- A time of the day with an optional offset. -/
def isOffsetTime (text : List Char) : Bool :=
  match text.getLast? with
  | some 'Z' | some 'z' => isTime text.dropLast
  | _ =>
    match Text.splitWhere (fun c => c == '+' || c == '-') text with
    | [time] => isTime time
    | [time, offset] => isTime time && isOffset offset
    | _ => false

/-- A date, a time, or both. -/
def dateTime? (text : List Char) : Option Value :=
  let date := text.take 10
  let valid := match text.drop 10 with
    | [] => isDate date || isTime text
    | mark :: time =>
      isTime text ||
        ((mark == 'T' || mark == 't' || mark == ' ') && isDate date && isOffsetTime time)
  if valid then some .dateTime else none

/-- Characters that can stand in a value without quotes. -/
def isScalarChar (c : Char) : Bool :=
  c.isAlphanum || c == '+' || c == '-' || c == '_' || c == '.' || c == ':'

/-- The text of a value without quotes, and what follows it. A date and a time after one blank
are one value. -/
def token (text : List Char) : List Char × List Char :=
  let first := text.takeWhile isScalarChar
  let rest := text.dropWhile isScalarChar
  match isDate first, rest with
  | true, ' ' :: c :: more =>
    if c.isDigit then
      (first ++ ' ' :: (c :: more).takeWhile isScalarChar, (c :: more).dropWhile isScalarChar)
    else (first, rest)
  | _, _ => (first, rest)

/-- The value that such a text stands for. -/
def value? (text : List Char) : Option Value :=
  if text = ['t', 'r', 'u', 'e'] then some (.boolean true)
  else if text = ['f', 'a', 'l', 's', 'e'] then some (.boolean false)
  else integer? text <|> float? text <|> dateTime? text

end SourceIndex.Toml.Scalar
