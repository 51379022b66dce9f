/-!
# Punycode

A host label with characters outside ASCII is written with ASCII characters alone: first those
of its own, then the places and numbers of the others, as numerals of varying length whose
digits are letters and decimal digits. `encode` writes a label so, `decode?` reads it.
-/

namespace SourceIndex.Url.Punycode

/-- The digit for a number below 36: the letters come first. -/
def digit (n : Nat) : Char := Char.ofNat (if n < 26 then 0x61 + n else 0x30 + (n - 26))

/-- The least value that a digit must have for another one to follow it. -/
def threshold (place bias : Nat) : Nat := min 26 (max 1 (place - bias))

theorem threshold_pos (place bias : Nat) : 1 ≤ threshold place bias := by
  unfold threshold
  omega

/-- The digits of a number, from the given place on. -/
def numeral (bias place n : Nat) : List Char :=
  let least := threshold place bias
  if n < least then [digit n]
  else digit (least + (n - least) % (36 - least)) ::
    numeral bias (place + 36) ((n - least) / (36 - least))
termination_by n
decreasing_by
  have hLeast := threshold_pos place bias
  have hDiv := Nat.div_le_self (n - threshold place bias) (36 - threshold place bias)
  change ¬n < threshold place bias at *
  omega

/-- Halves a number until a numeral of it is short, and counts the places saved. -/
def settle (delta places : Nat) : Nat :=
  if 455 < delta then settle (delta / 35) (places + 36) else places + 36 * delta / (delta + 38)
termination_by delta

/-- The bias after a number, when `count` characters are done. -/
def adapt (delta count : Nat) (first : Bool) : Nat :=
  let halved := if first then delta / 700 else delta / 2
  settle (halved + halved / count) 0

/-- What the numerals so far have led to. -/
structure State where
  /-- The numerals so far. -/
  output : List Char
  /-- The steps passed since the last numeral. -/
  delta : Nat
  bias : Nat
  /-- The number of characters that are done. -/
  count : Nat

/-- Passes one character of the label while the character number `code` is placed. -/
def pass (ownCount code : Nat) (state : State) (c : Char) : State :=
  if c.toNat < code then { state with delta := state.delta + 1 }
  else if c.toNat = code then
    { output := state.output ++ numeral state.bias 36 state.delta, delta := 0
      bias := adapt state.delta (state.count + 1) (state.count == ownCount)
      count := state.count + 1 }
  else state

/-- Places the characters with the given numbers, in ascending order, when those below `next`
are done. -/
def place (label : List Char) (ownCount : Nat) : List Nat → (next : Nat) → State → State
  | [], _, state => state
  | code :: codes, next, state =>
    let ready := { state with delta := state.delta + (code - next) * (state.count + 1) }
    let placed := label.foldl (pass ownCount code) ready
    place label ownCount codes (code + 1) { placed with delta := placed.delta + 1 }

/-- The written form of a label. -/
def encode (label : List Char) : List Char :=
  let own := label.filter (·.toNat < 0x80)
  let codes := ((label.filter (0x80 ≤ ·.toNat)).map Char.toNat).mergeSort.eraseDups
  let placed := place label own.length codes 0x80
    { output := [], delta := 0, bias := 72, count := own.length }
  own ++ (if own.isEmpty then [] else ['-']) ++ placed.output

/-! ### Reading -/

/-- The value of a digit. -/
def digitValue? (c : Char) : Option Nat :=
  if 'a' ≤ c ∧ c ≤ 'z' then some (c.toNat - 0x61)
  else if c.isDigit then some (26 + (c.toNat - 0x30))
  else none

/-- Reads the digits of a numeral from the given place on, each of which counts `weight` times. -/
def readNumeral? (bias : Nat) : (place weight : Nat) → List Char → Option (Nat × List Char)
  | _, _, [] => none
  | place, weight, c :: rest => do
    let value ← digitValue? c
    let least := threshold place bias
    if value < least then return (value * weight, rest)
    let (more, rest) ← readNumeral? bias (place + 36) (weight * (36 - least)) rest
    return (value * weight + more, rest)

/-- Puts the characters that at most `fuel` numerals stand for between those so far. The last one
had the number `code` and was put before place `next`. -/
def insertAll : (fuel : Nat) → (output : List Char) → (code next bias : Nat) → (first : Bool) →
    List Char → Option (List Char)
  | _, output, _, _, _, _, [] => some output
  | 0, _, _, _, _, _, _ :: _ => none
  | fuel + 1, output, code, next, bias, first, text@(_ :: _) => do
    let (delta, rest) ← readNumeral? bias 36 1 text
    let count := output.length + 1
    let code := code + (next + delta) / count
    let place := (next + delta) % count
    if h : code.isValidChar then
      insertAll fuel (output.take place ++ Char.ofNatAux code h :: output.drop place) code
        (place + 1) (adapt delta count first) false rest
    else none

/-- The label with a written form. -/
def decode? (text : List Char) : Option (List Char) :=
  let numerals := (text.reverse.takeWhile (· ≠ '-')).reverse
  match text.reverse.dropWhile (· ≠ '-') with
  | [] => insertAll text.length [] 0x80 0 72 true numerals
  | [_] => none
  | _ :: own => insertAll text.length own.reverse 0x80 0 72 true numerals

end SourceIndex.Url.Punycode
