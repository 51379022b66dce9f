/-!
# Decimal numerals

Natural numbers read from decimal digits, with one optional leading plus sign and a largest
value: the form in which environment variables, reply headers and file sizes hold them.
-/

namespace SourceIndex.Text

/-- The value of a decimal digit. -/
def digitValue (c : Char) : Nat := c.toNat - '0'.toNat

/-- The value of a string of decimal digits. -/
def digitsValue (digits : List Char) : Nat :=
  digits.foldl (fun value c => 10 * value + digitValue c) 0

/-- One or more digits after an optional plus sign, of a value at most `largest`. -/
def readNat? (largest : Nat) (text : List Char) : Option Nat :=
  let digits := match text with
    | '+' :: rest => rest
    | other => other
  if digits.isEmpty || !digits.all Char.isDigit then none
  else
    let value := digitsValue digits
    if value ≤ largest then some value else none

/-- The largest number of 32 bits. -/
def largest32 : Nat := 0xFFFFFFFF

/-- The largest number of 64 bits. -/
def largest64 : Nat := 0xFFFFFFFFFFFFFFFF

end SourceIndex.Text
