/-!
# Shortest decimals

A binary floating-point number stands for all reals that round to it. `shortest?` finds the
decimal in that interval with the fewest digits, and among those the one nearest to the number:
it looks at coarser grids of decimals first and takes the first grid with a point in the
interval. On each grid only the two neighbours of the number can be such points.
-/

namespace SourceIndex

/-- The number `digits * 10 ^ exponent`, negated when `negative` is set. -/
structure Decimal where
  negative : Bool
  digits : Nat
  exponent : Int
deriving Repr, DecidableEq

/-- The widths of a binary floating-point format. -/
structure BinaryFormat where
  fractionBits : Nat
  exponentBits : Nat

namespace BinaryFormat

def single : BinaryFormat := ⟨23, 8⟩
def double : BinaryFormat := ⟨52, 11⟩

end BinaryFormat

namespace Decimal

/-- The positive number `mantissa * 2 ^ exponent` with the interval of reals that round to it.
The interval reaches half a unit to both sides, and a quarter below where the numbers below are
twice as dense. Its ends belong to it when the mantissa is even. -/
structure Rounded where
  mantissa : Nat
  exponent : Int
  denseBelow : Bool

namespace Rounded

/-- Four times the mantissa at the lower end of the interval. -/
def low (x : Rounded) : Nat := 4 * x.mantissa - if x.denseBelow then 1 else 2

/-- Four times the mantissa at the upper end of the interval. -/
def high (x : Rounded) : Nat := 4 * x.mantissa + 2

/-- The factors that turn a multiple of a quarter unit and a multiple of `10 ^ grid` into
multiples of one common unit. -/
def factors (x : Rounded) (grid : Int) : Nat × Nat :=
  let shift := x.exponent - 2
  (Nat.pow 2 shift.toNat * Nat.pow 10 (-grid).toNat,
    Nat.pow 10 grid.toNat * Nat.pow 2 (-shift).toNat)

/-- Whether `k * 10 ^ grid` is a positive number in the interval. -/
def contains (x : Rounded) (grid : Int) (k : Nat) : Bool :=
  let (quarter, unit) := x.factors grid
  k != 0 &&
    if x.mantissa % 2 = 0 then x.low * quarter ≤ k * unit && k * unit ≤ x.high * quarter
    else x.low * quarter < k * unit && k * unit < x.high * quarter

/-- The number on a grid that is nearest to `x`, if the interval contains one. A tie goes to
the even number. -/
def nearest? (x : Rounded) (grid : Int) : Option Nat :=
  let (quarter, unit) := x.factors grid
  let value := 4 * x.mantissa * quarter
  let below := value / unit
  let toBelow := value - below * unit
  let toAbove := (below + 1) * unit - value
  match x.contains grid below, x.contains grid (below + 1) with
  | true, false => some below
  | false, true => some (below + 1)
  | false, false => none
  | true, true =>
    if toBelow < toAbove || (toBelow == toAbove && below % 2 == 0) then some below
    else some (below + 1)

/-- Looks for a point on the grid `10 ^ grid` and then on up to `fuel` finer ones. -/
def search (x : Rounded) : (fuel : Nat) → (grid : Int) → Option (Nat × Int)
  | 0, _ => none
  | fuel + 1, grid =>
    match x.nearest? grid with
    | some k => some (k, grid)
    | none => search x fuel (grid - 1)

/-- A grid that is too coarse for any point in the interval but the next power of ten. -/
def coarsest (x : Rounded) : Int :=
  let bits : Int := Nat.log2 x.mantissa + 2 + x.exponent
  if bits < 0 then 1 - (-bits) * 3 / 10 else bits * 31 / 100 + 1

/-- The shortest decimal in the interval. -/
def shortest? (x : Rounded) : Option (Nat × Int) := x.search 400 x.coarsest

end Rounded

/-- The shortest decimal for a floating-point number given by its bits; none when the number is
not finite. -/
def ofBits? (format : BinaryFormat) (bits : Nat) : Option Decimal :=
  let fraction := bits % Nat.pow 2 format.fractionBits
  let biased := bits / Nat.pow 2 format.fractionBits % Nat.pow 2 format.exponentBits
  let negative := bits / Nat.pow 2 (format.fractionBits + format.exponentBits) % 2 == 1
  let bias : Int := Nat.pow 2 (format.exponentBits - 1) - 1
  if biased = Nat.pow 2 format.exponentBits - 1 then none
  else if biased = 0 ∧ fraction = 0 then some ⟨negative, 0, 0⟩
  else
    let x : Rounded :=
      if biased = 0 then ⟨fraction, 1 - bias - format.fractionBits, false⟩
      else ⟨Nat.pow 2 format.fractionBits + fraction, biased - bias - format.fractionBits,
        fraction == 0 && biased != 1⟩
    x.shortest?.map fun (digits, exponent) => ⟨negative, digits, exponent⟩

/-- The shortest decimal for a number of 64 bits. -/
def ofFloat? (x : Float) : Option Decimal := ofBits? .double x.toBits.toNat

/-- The shortest decimal for a number of 32 bits. -/
def ofFloat32? (x : Float32) : Option Decimal := ofBits? .single x.toBits.toNat

end Decimal

end SourceIndex
