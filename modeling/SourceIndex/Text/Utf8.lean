/-!
# UTF-8

`encode` writes characters as bytes. `symbols` reads bytes as characters, with one gap for each
maximal ill-formed part: a part is the longest start of a well-formed sequence, or one byte
where no sequence can start. `decode?` accepts bytes without a gap; `decodeLossy` puts the
replacement character in the place of each gap.
-/

namespace SourceIndex.Utf8

/-- The bytes of a text. -/
def encode (text : List Char) : List UInt8 := text.flatMap String.utf8EncodeChar

/-- The bytes of a string. -/
def bytes (text : String) : List UInt8 := encode text.toList

/-- The number of bytes after a lead byte, with the range of the first of them. -/
def continuation? (lead : Nat) : Option (Nat × Nat × Nat) :=
  if 0xC2 ≤ lead ∧ lead ≤ 0xDF then some (1, 0x80, 0xBF)
  else if lead = 0xE0 then some (2, 0xA0, 0xBF)
  else if lead = 0xED then some (2, 0x80, 0x9F)
  else if 0xE1 ≤ lead ∧ lead ≤ 0xEF then some (2, 0x80, 0xBF)
  else if lead = 0xF0 then some (3, 0x90, 0xBF)
  else if 0xF1 ≤ lead ∧ lead ≤ 0xF3 then some (3, 0x80, 0xBF)
  else if lead = 0xF4 then some (3, 0x80, 0x8F)
  else none

/-- Reads `missing` more bytes of a sequence whose bits so far are `bits`. The next byte lies in
the given range and those after it from `80` to `BF`. The result is the character, or none when
a byte does not fit, with the bytes that follow. -/
def continueFrom : (missing bits low high : Nat) → List UInt8 → Option Char × List UInt8
  | 0, bits, _, _, rest => (some (Char.ofNat bits), rest)
  | _ + 1, _, _, _, [] => (none, [])
  | missing + 1, bits, low, high, byte :: rest =>
    if low ≤ byte.toNat ∧ byte.toNat ≤ high then
      continueFrom missing (bits * 64 + byte.toNat % 64) 0x80 0xBF rest
    else (none, byte :: rest)

theorem length_continueFrom_snd_le (missing bits low high : Nat) (rest : List UInt8) :
    (continueFrom missing bits low high rest).2.length ≤ rest.length := by
  fun_induction continueFrom missing bits low high rest with
  | case1 => simp
  | case2 => simp
  | case3 missing bits low high byte rest h ih => simp; omega
  | case4 => simp

/-- Reads the character that a lead byte starts, or a gap, with the bytes that follow. -/
def readSymbol (lead : UInt8) (rest : List UInt8) : Option Char × List UInt8 :=
  if lead.toNat < 0x80 then (some (Char.ofNat lead.toNat), rest)
  else match continuation? lead.toNat with
    | none => (none, rest)
    | some (missing, low, high) =>
      continueFrom missing (lead.toNat % Nat.pow 2 (6 - missing)) low high rest

theorem length_readSymbol_snd_le (lead : UInt8) (rest : List UInt8) :
    (readSymbol lead rest).2.length ≤ rest.length := by
  unfold readSymbol
  split
  · simp
  · split
    · simp
    · exact length_continueFrom_snd_le ..

/-- The characters of a byte string, with `none` for each ill-formed part. -/
def symbols : List UInt8 → List (Option Char)
  | [] => []
  | lead :: rest => (readSymbol lead rest).1 :: symbols (readSymbol lead rest).2
termination_by bytes => bytes.length
decreasing_by
  have := length_readSymbol_snd_le lead rest
  simp
  omega

/-- The text that well-formed bytes encode. -/
def decode? (input : List UInt8) : Option String :=
  let found := symbols input
  if found.all (·.isSome) then some (String.ofList (found.filterMap id)) else none

/-- The text of any bytes, with `U+FFFD` for each ill-formed part. -/
def decodeLossy (input : List UInt8) : String :=
  String.ofList ((symbols input).map (·.getD '\uFFFD'))

end SourceIndex.Utf8
