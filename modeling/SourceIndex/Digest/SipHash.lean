/-!
# SipHash-1-3

The keyed hash SipHash with one round for each word of the input and three at the end, here
with the key zero. Words are eight bytes, the low byte first; the last word carries the length
of the input modulo 256 in its high byte.
-/

namespace SourceIndex.SipHash

/-- The internal state. -/
structure State where
  v0 : UInt64
  v1 : UInt64
  v2 : UInt64
  v3 : UInt64

def rotateLeft (x n : UInt64) : UInt64 := (x <<< n) ||| (x >>> (64 - n))

/-- One round. -/
def State.round (s : State) : State :=
  let v0 := s.v0 + s.v1
  let v1 := rotateLeft s.v1 13 ^^^ v0
  let v0 := rotateLeft v0 32
  let v2 := s.v2 + s.v3
  let v3 := rotateLeft s.v3 16 ^^^ v2
  let v0 := v0 + v3
  let v3 := rotateLeft v3 21 ^^^ v0
  let v2 := v2 + v1
  let v1 := rotateLeft v1 17 ^^^ v2
  let v2 := rotateLeft v2 32
  ⟨v0, v1, v2, v3⟩

/-- Takes in one word. -/
def State.absorb (s : State) (word : UInt64) : State :=
  let mixed := State.round { s with v3 := s.v3 ^^^ word }
  { mixed with v0 := mixed.v0 ^^^ word }

/-- The state for the key zero. -/
def start : State :=
  ⟨0x736f6d6570736575, 0x646f72616e646f6d, 0x6c7967656e657261, 0x7465646279746573⟩

/-- The number whose bytes are given, the low byte first. -/
def littleEndian (bytes : List UInt8) : UInt64 :=
  bytes.foldr (fun byte value => value * 256 + byte.toUInt64) 0

/-- Takes in the words of the rest of an input whose whole length is `length`. -/
def absorbAll (length : Nat) (s : State) : List UInt8 → State
  | b0 :: b1 :: b2 :: b3 :: b4 :: b5 :: b6 :: b7 :: rest =>
    absorbAll length (s.absorb (littleEndian [b0, b1, b2, b3, b4, b5, b6, b7])) rest
  | rest => s.absorb (littleEndian rest ||| ((UInt64.ofNat length) <<< 56))

/-- The hash of a byte string. -/
def hash (input : List UInt8) : UInt64 :=
  let s := absorbAll input.length start input
  let s := { s with v2 := s.v2 ^^^ 0xFF }
  let s := s.round.round.round
  s.v0 ^^^ s.v1 ^^^ s.v2 ^^^ s.v3

end SourceIndex.SipHash
