import SourceIndex.Digest.Hex
import SourceIndex.Text.Decimal
import SourceIndex.Text.Pieces

/-!
# Addresses

Hosts that are numbers. An address of four bytes is written with one to four parts, each decimal,
octal or hexadecimal, of which the last fills all the bytes that are left. An address of eight
words is written with colons; two colons stand for the words that are left out, all zero.

Each address has one written form: four decimal bytes, or lower-case hexadecimal words with two
colons in the place of the first longest run of two or more zero words.
-/

namespace SourceIndex.Url.Address

/-! ### Four bytes -/

/-- The value of digits to the given base. -/
def digitsTo (base : Nat) (digits : List Char) : Option Nat :=
  digits.foldlM (fun value c => (Hex.value? c).bind fun digit =>
    if digit < base then some (base * value + digit) else none) 0

/-- A part of an address: the digits after `0x` are hexadecimal, those after a zero octal. -/
def part? : List Char → Option Nat
  | [] => none
  | ['0'] => some 0
  | '0' :: 'x' :: digits | '0' :: 'X' :: digits => digitsTo 16 digits
  | '0' :: digits => digitsTo 8 digits
  | digits => digitsTo 10 digits

/-- The parts of a host between its dots. One dot at the end separates nothing. -/
def parts (host : List Char) : List (List Char) :=
  let pieces := Text.splitWhere (· == '.') host
  if 1 < pieces.length ∧ pieces.getLast? = some [] then pieces.dropLast else pieces

/-- Whether a host has to be an address: its last part is a number. -/
def isNumeric (host : List Char) : Bool :=
  match (parts host).getLast? with
  | some last => (!last.isEmpty && last.all Char.isDigit) || (part? last).isSome
  | none => false

/-- The number that the parts of an address stand for. The last part fills the bytes that the
others leave, of which there are `left`. -/
def combine : (left : Nat) → List Nat → Option Nat
  | _, [] => none
  | left, [last] => if last < Nat.pow 256 left then some last else none
  | left, first :: rest => do
    if 256 ≤ first then none
    return first * Nat.pow 256 (left - 1) + (← combine (left - 1) rest)

/-- Reads an address of four bytes. -/
def readBytes? (host : List Char) : Option Nat := do
  let found := parts host
  if 4 < found.length then none
  combine 4 (← found.mapM part?)

/-- A natural number in decimal digits. -/
def decimal (n : Nat) : List Char := Nat.toDigits 10 n

/-- The written form of an address of four bytes. -/
def writeBytes (address : Nat) : List Char :=
  ['.'].intercalate ([3, 2, 1, 0].map fun place => decimal (address / Nat.pow 256 place % 256))

/-! ### Eight words -/

/-- A byte in decimal digits without leading zeros. -/
def plainByte? (digits : List Char) : Option Nat :=
  if digits.isEmpty || !digits.all Char.isDigit || (1 < digits.length && digits.head? == some '0')
  then none
  else
    let value := Text.digitsValue digits
    if value < 256 then some value else none

/-- Two words written as four bytes. -/
def wordPair? (text : List Char) : Option (List Nat) := do
  match ← (Text.splitWhere (· == '.') text).mapM plainByte? with
  | [a, b, c, d] => some [256 * a + b, 256 * c + d]
  | _ => none

/-- One word of up to four digits. -/
def word? (digits : List Char) : Option Nat :=
  if digits.isEmpty || 4 < digits.length then none else digitsTo 16 digits

/-- The words between colons; the last two may be written as four bytes. -/
def words? (bytesAllowed : Bool) : List (List Char) → Option (List Nat)
  | [] => some []
  | [last] =>
    if bytesAllowed && last.contains '.' then wordPair? last else (word? last).map ([·])
  | first :: rest => do return (← word? first) :: (← words? bytesAllowed rest)

/-- The words of one side of an address. -/
def side? (bytesAllowed : Bool) (text : List Char) : Option (List Nat) :=
  if text.isEmpty then some [] else words? bytesAllowed (Text.splitWhere (· == ':') text)

/-- The texts before and after the first two colons. -/
def splitDouble? : List Char → Option (List Char × List Char)
  | [] => none
  | ':' :: ':' :: rest => some ([], rest)
  | c :: rest => (splitDouble? rest).map fun (before, after) => (c :: before, after)

/-- Reads an address of eight words. -/
def readWords? (text : List Char) : Option (List Nat) :=
  match splitDouble? text with
  | none => (words? true (Text.splitWhere (· == ':') text)).filter (·.length == 8)
  | some (before, after) => do
    let left ← side? false before
    let right ← side? true after
    if 7 < left.length + right.length then none
    return left ++ List.replicate (8 - left.length - right.length) 0 ++ right

/-- The longest run of zeros from word number `place` on, as its start and length; of runs of
the same length, the first. -/
def longestZeros (place : Nat) : List Nat → Nat × Nat
  | [] => (place, 0)
  | word :: rest =>
    let here := ((word :: rest).takeWhile (· == 0)).length
    let later := longestZeros (place + 1) rest
    if later.2 ≤ here then (place, here) else later

/-- Words in lower-case hexadecimal digits with colons between them. -/
def joined (words : List Nat) : List Char := [':'].intercalate (words.map (Nat.toDigits 16))

/-- The written form of an address of eight words. -/
def writeWords (words : List Nat) : List Char :=
  let (start, length) := longestZeros 0 words
  if length < 2 then joined words
  else joined (words.take start) ++ [':', ':'] ++ joined (words.drop (start + length))

end SourceIndex.Url.Address
