import SourceIndex.Json.Number

/-!
# JSON documents

A JSON value keeps what its text says: the order of members, repeated members, and the digits of
numbers. Text that stops being JSON somewhere is a value too: it ends in a leaf `broken` where
the fault is, so a reader that goes through a value in order meets the faults of the text and
the faults of its contents in the order in which they stand there.

A value that is only passed over is held to less than one that is read: what an escape stands
for and how large a number is do not matter then.
-/

namespace SourceIndex

/-- Where a text stops being JSON. -/
inductive Fault where
  | endOfText
  | endInNumber
  | endInString
  | endInList
  | endInObject
  | endAfterMember
  | expectedColon
  | expectedListEnd
  | expectedObjectEnd
  | expectedIdentifier
  | expectedValue
  | expectedKey
  | commaBeforeListEnd
  | commaBeforeObjectEnd
  | invalidEscape
  | invalidNumber
  | invalidCharacter
  | controlCharacter
  | loneSurrogate
  | missingSurrogate
  | numberOutOfRange
  | tooDeep
  | trailingCharacters
deriving Repr, DecidableEq

/-- Whether a value is read or passed over. -/
inductive Attention where
  | reading
  | skipping
deriving Repr, DecidableEq

namespace Fault

/-- What a fault is called when a value that was passed over has it and its name differs. -/
def whenSkipped : Fault → Fault
  | endInNumber => invalidNumber
  | endAfterMember => endInObject
  | commaBeforeListEnd => expectedValue
  | commaBeforeObjectEnd => expectedKey
  | other => other

/-- The wording of a fault. -/
def message : Fault → String
  | endOfText | endInNumber | endAfterMember => "EOF while parsing a value"
  | endInString => "EOF while parsing a string"
  | endInList => "EOF while parsing a list"
  | endInObject => "EOF while parsing an object"
  | expectedColon => "expected `:`"
  | expectedListEnd => "expected `,` or `]`"
  | expectedObjectEnd => "expected `,` or `\x7d`"
  | expectedIdentifier => "expected ident"
  | expectedValue => "expected value"
  | expectedKey => "key must be a string"
  | commaBeforeListEnd | commaBeforeObjectEnd => "trailing comma"
  | invalidEscape => "invalid escape"
  | invalidNumber => "invalid number"
  | invalidCharacter => "invalid unicode code point"
  | controlCharacter => "control character (\\u0000-\\u001F) found while parsing a string"
  | loneSurrogate => "lone leading surrogate in hex escape"
  | missingSurrogate => "unexpected end of hex escape"
  | numberOutOfRange => "number out of range"
  | tooDeep => "recursion limit exceeded"
  | trailingCharacters => "trailing characters"

/-- Whether more text could mend the fault. -/
def isEnd : Fault → Bool
  | endOfText | endInNumber | endAfterMember | endInString | endInList | endInObject => true
  | _ => false

end Fault

namespace Json

/-- A string literal. One that has no text may still be passed over, unless it is not closed. -/
inductive Literal where
  | text (value : String)
  /-- A literal without a text, and the fault that is left when it is passed over. -/
  | faulty (fault : Fault) (whenSkipped : Option Fault)
deriving Repr, DecidableEq

end Json

/-- A JSON value, or as much of one as its text has. -/
inductive Json where
  | null
  | bool (value : Bool)
  | number (value : Json.Number)
  | string (value : Json.Literal)
  | array (items : List Json)
  | object (members : List (Json.Literal × Json))
  /-- The text stops being JSON here. -/
  | broken (fault : Fault)
deriving Repr, Inhabited

namespace Json

/-- A JSON text: a value, and whether anything but blanks follows it. -/
structure Document where
  value : Json
  trailing : Bool

/-- A string value. -/
def text (value : String) : Json := string (.text value)

/-- A natural number. -/
def nat (n : Nat) : Json := number (.ofNat n)

/-- A number of 32 bits in its shortest form; one that is not finite is null. -/
def float32 (x : Float32) : Json :=
  match Decimal.ofFloat32? x with
  | some decimal => number (.ofDecimal decimal)
  | none => null

/-- A value that may be absent, as null. -/
def orNull (value : Option Json) : Json := value.getD null

/-- A list of strings. -/
def texts (values : List String) : Json := array (values.map text)

/-- An object with the given members. -/
def record (members : List (String × Json)) : Json :=
  object (members.map fun (key, value) => (.text key, value))

/-- A member that is left out when its value is absent. -/
def member? (key : String) (value : Option Json) : List (String × Json) :=
  match value with
  | some present => [(key, present)]
  | none => []

/-- The value of the first member with the given key. -/
def get? (json : Json) (key : String) : Option Json :=
  match json with
  | object members => (members.find? fun member => decide (member.1 = .text key)).map (·.2)
  | _ => none

end Json

end SourceIndex
