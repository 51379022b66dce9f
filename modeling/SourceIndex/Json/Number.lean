import SourceIndex.Decimal.Shortest
import SourceIndex.Text.Decimal

/-!
# JSON numbers

A number is kept as it is written: sign, whole digits, fraction digits and exponent. `scalar?`
gives its value: a natural number of 64 bits, a negative integer of 64 bits, or else a
floating-point number, computed from the leading digits that fit into 64 bits and a power of
ten. Numbers beyond the largest floating-point number have no value.
-/

namespace SourceIndex.Json

/-- A number as it is written. -/
structure Number where
  negative : Bool
  whole : List Char
  /-- Digits after the point; empty when there is no point. -/
  fraction : List Char
  exponent : Option Int
deriving Repr, DecidableEq

/-- The value of a number. -/
inductive Scalar where
  | natural (n : Nat)
  /-- The integer `-n`. -/
  | negative (n : Nat)
  | float (x : Float)
deriving Repr

/-- The number of 32 bits nearest to a value. -/
def Scalar.toFloat32 : Scalar → Float32
  | natural n => (UInt64.ofNat n).toFloat32
  | negative n => -(UInt64.ofNat n).toFloat32
  | float x => x.toFloat32

namespace Number

/-- A natural number in decimal digits. -/
def ofNat (n : Nat) : Number := ⟨false, Nat.toDigits 10 n, [], none⟩

/-- A decimal as it is written: with a point when the number has at most sixteen whole digits
and at most four zeros after the point, with one whole digit and an exponent otherwise. -/
def ofDecimal (value : Decimal) : Number :=
  let digits := Nat.toDigits 10 value.digits
  let point : Int := digits.length + value.exponent
  if 0 ≤ value.exponent ∧ point ≤ 16 then
    ⟨value.negative, digits ++ List.replicate value.exponent.toNat '0', ['0'], none⟩
  else if 0 < point ∧ point ≤ 16 then
    ⟨value.negative, digits.take point.toNat, digits.drop point.toNat, none⟩
  else if -5 < point ∧ point ≤ 0 then
    ⟨value.negative, ['0'], List.replicate (-point).toNat '0' ++ digits, none⟩
  else ⟨value.negative, digits.take 1, digits.drop 1, some (point - 1)⟩

/-- An exponent: its sign and its digits. -/
def exponentText (exponent : Int) : List Char :=
  'e' :: (if exponent < 0 then '-' else '+') :: Nat.toDigits 10 exponent.natAbs

/-- The text of a number. -/
def text (number : Number) : List Char :=
  (if number.negative then ['-'] else []) ++ number.whole ++
    (if number.fraction.isEmpty then [] else '.' :: number.fraction) ++
    (match number.exponent with
      | some exponent => exponentText exponent
      | none => [])

/-- Reads digits into a number of 64 bits as far as they fit; what does not fit is left. -/
def significand (value : Nat) : List Char → Nat × List Char
  | [] => (value, [])
  | c :: rest =>
    let next := 10 * value + Text.digitValue c
    if next ≤ Text.largest64 then significand next rest else (value, c :: rest)

/-- The largest exponent of ten that is taken as a number. -/
def largestExponent : Nat := 0x7FFFFFFF

/-- Divides by ten to the 308th as long as the exponent is below that, then by the rest. -/
def scaleDown : (fuel : Nat) → Float → Nat → Float
  | 0, x, _ => x
  | fuel + 1, x, exponent =>
    if exponent ≤ 308 then x / Float.ofScientific 1 false exponent
    else if x == 0.0 then x
    else scaleDown fuel (x / 1e308) (exponent - 308)

/-- The floating-point number nearest to a significand, scaled by a power of ten. -/
def scale? (significand : Nat) (exponent : Int) : Option Float :=
  let x := (UInt64.ofNat significand).toFloat
  if exponent < 0 then some (scaleDown 4 x exponent.natAbs)
  else if exponent ≤ 308 then
    let scaled := x * Float.ofScientific 1 false exponent.toNat
    if scaled.isInf then none else some scaled
  else if significand = 0 then some x
  else none

/-- The magnitude of a number with a fraction, an exponent or too many digits. -/
def magnitude? (number : Number) : Option Float :=
  let (whole, wholeLeft) := significand 0 number.whole
  let (value, fractionLeft) := significand whole number.fraction
  let shift : Int := wholeLeft.length - (number.fraction.length - fractionLeft.length : Nat)
  match number.exponent with
  | none => scale? value shift
  | some exponent =>
    if largestExponent < exponent.natAbs then
      if value = 0 ∨ exponent < 0 then some 0.0 else none
    else scale? value (shift + exponent)

/-- The value of a number, none when it is out of range. -/
def scalar? (number : Number) : Option Scalar :=
  let value := Text.digitsValue number.whole
  if number.fraction.isEmpty ∧ number.exponent = none ∧ value ≤ Text.largest64 ∧
      (number.negative = false ∨ 0 < value ∧ value ≤ 0x8000000000000000) then
    some (if number.negative then .negative value else .natural value)
  else (magnitude? number).map fun x => .float (if number.negative then -x else x)

end Number

/-- The text of a floating-point number that is finite. -/
def floatText (x : Float) : List Char :=
  match Decimal.ofFloat? x with
  | some decimal => (Number.ofDecimal decimal).text
  | none => []

end SourceIndex.Json
