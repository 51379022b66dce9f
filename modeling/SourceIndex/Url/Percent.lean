import SourceIndex.Digest.Hex
import SourceIndex.Text.Utf8

/-!
# Percent encoding

A part of a URL may hold any character. Those that the part does not admit are written as their
bytes in UTF-8, each as a percent sign and two upper-case hexadecimal digits.
-/

namespace SourceIndex.Url.Percent

/-- Control characters and the characters outside ASCII. -/
def control (c : Char) : Bool := c.toNat < 0x20 || 0x7F ≤ c.toNat

/-- The characters that a fragment does not admit. -/
def fragment (c : Char) : Bool := control c || [' ', '"', '<', '>', '`'].contains c

/-- The characters that a path does not admit. -/
def path (c : Char) : Bool := fragment c || ['#', '?', '\x7b', '\x7d'].contains c

/-- The characters that a name or password does not admit. -/
def user (c : Char) : Bool :=
  path c || ['/', ':', ';', '=', '@', '[', '\\', ']', '^', '|'].contains c

/-- The characters that a query does not admit. -/
def query (c : Char) : Bool := control c || [' ', '"', '#', '<', '>'].contains c

/-- The characters that a query does not admit where schemes have a standard port. -/
def specialQuery (c : Char) : Bool := query c || c == '\''

/-- A byte as a percent sign and two digits. -/
def byte (value : UInt8) : List Char :=
  ['%', (Hex.digit (value.toNat / 16)).toUpper, (Hex.digit (value.toNat % 16)).toUpper]

/-- A character, encoded when it has to be. -/
def symbol (refused : Char → Bool) (c : Char) : List Char :=
  if refused c then (Utf8.encode [c]).flatMap byte else [c]

/-- A text without the refused characters. -/
def encode (refused : Char → Bool) (text : List Char) : List Char := text.flatMap (symbol refused)

theorem encode_cons (refused : Char → Bool) (c : Char) (text : List Char) :
    encode refused (c :: text) = symbol refused c ++ encode refused text := by
  simp [encode]

/-- The bytes of a text in which each percent sign before two digits stands for a byte. -/
def decode : List Char → List UInt8
  | [] => []
  | '%' :: high :: low :: rest =>
    match Hex.value? high, Hex.value? low with
    | some h, some l => UInt8.ofNat (16 * h + l) :: decode rest
    | _, _ => Utf8.encode ['%'] ++ decode (high :: low :: rest)
  | c :: rest => Utf8.encode [c] ++ decode rest

end SourceIndex.Url.Percent
