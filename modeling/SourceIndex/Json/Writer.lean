import SourceIndex.Digest.Hex
import SourceIndex.Json.Basic

/-!
# Writing JSON

Values are written without blanks. In strings, the quote, the backslash and the control
characters are escaped, the others stand for themselves.
-/

namespace SourceIndex.Json

/-- A character inside a string literal. -/
def escaped (c : Char) : List Char :=
  if c = '"' then ['\\', '"']
  else if c = '\\' then ['\\', '\\']
  else if c = '\n' then ['\\', 'n']
  else if c = '\r' then ['\\', 'r']
  else if c = '\t' then ['\\', 't']
  else if c = '\x08' then ['\\', 'b']
  else if c = '\x0c' then ['\\', 'f']
  else if c.toNat < 32 then
    ['\\', 'u', '0', '0', Hex.digit (c.toNat / 16), Hex.digit (c.toNat % 16)]
  else [c]

/-- A string literal. -/
def quoted (text : List Char) : List Char := '"' :: text.flatMap escaped ++ ['"']

/-- A literal is written with its text; one without a text as the empty string. -/
def Literal.written : Literal → List Char
  | .text value => quoted value.toList
  | .faulty _ _ => quoted []

mutual

/-- The text of a value. -/
def written : Json → List Char
  | null => "null".toList
  | bool true => "true".toList
  | bool false => "false".toList
  | number value => value.text
  | string value => value.written
  | array [] => ['[', ']']
  | array (first :: rest) => '[' :: written first ++ writtenItems rest
  | object [] => ['\x7b', '\x7d']
  | object ((key, value) :: rest) =>
    '\x7b' :: key.written ++ ':' :: written value ++ writtenMembers rest
  | broken _ => "null".toList

/-- The items after the first one, and the end of the list. -/
def writtenItems : List Json → List Char
  | [] => [']']
  | item :: rest => ',' :: written item ++ writtenItems rest

/-- The members after the first one, and the end of the object. -/
def writtenMembers : List (Literal × Json) → List Char
  | [] => ['\x7d']
  | (key, value) :: rest =>
    ',' :: key.written ++ ':' :: written value ++ writtenMembers rest

end

/-- The text of a value as a string. -/
def render (json : Json) : String := String.ofList json.written

/-- Whether the key of a member comes before that of another. -/
def keyBefore : Literal × Json → Literal × Json → Bool
  | (.text a, _), (.text b, _) => decide (a < b) || a == b
  | (.text _, _), _ => true
  | (.faulty _ _, _), (.text _, _) => false
  | (.faulty _ _, _), (.faulty _ _, _) => true

mutual

/-- The value with the members of every object in the order of their keys. -/
def sorted : Json → Json
  | array items => array (sortedItems items)
  | object members => object ((sortedMembers members).mergeSort keyBefore)
  | other => other

def sortedItems : List Json → List Json
  | [] => []
  | item :: rest => sorted item :: sortedItems rest

def sortedMembers : List (Literal × Json) → List (Literal × Json)
  | [] => []
  | (key, value) :: rest => (key, sorted value) :: sortedMembers rest

end

end SourceIndex.Json
