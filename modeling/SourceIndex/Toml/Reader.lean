import SourceIndex.Toml.Scalar

/-!
# Reading TOML

A document is a sequence of lines: key and value, header of a table, comment, or nothing. Every
reader of this module returns what it has read with the text that follows, or none where the
text is not TOML (version 1.1).
-/

namespace SourceIndex.Toml

/-- Control characters other than the tab stand nowhere in a document but in line ends. -/
def isForbidden (c : Char) : Bool := (c.toNat < 0x20 && c != '\t') || c.toNat == 0x7F

/-- The text after leading spaces and tabs. -/
def skipSpaces (text : List Char) : List Char := text.dropWhile fun c => c == ' ' || c == '\t'

/-- The text after a line end, when it starts with one. -/
def newline? : List Char → Option (List Char)
  | '\n' :: rest => some rest
  | '\r' :: '\n' :: rest => some rest
  | _ => none

/-- The text after a comment, when it starts with one and the comment is well formed. -/
def skipComment : List Char → Option (List Char)
  | '#' :: rest =>
    let after := rest.dropWhile fun c => !isForbidden c
    match after with
    | [] => some []
    | _ => (newline? after).map fun _ => after
  | text => some text

/-- Skips blanks, comments and line ends, at most `fuel` of each. -/
def skipLines : (fuel : Nat) → List Char → Option (List Char)
  | 0, text => some text
  | fuel + 1, text => do
    let after ← skipComment (skipSpaces text)
    match newline? after with
    | some rest => skipLines fuel rest
    | none => some after

/-! ### Strings -/

/-- A character given by hexadecimal digits. -/
def hexChar? (digits : List Char) : Option Char := do
  let n ← Scalar.valueIn 16 digits
  if h : n.isValidChar then some (Char.ofNatAux n h) else none

/-- What follows a backslash: the character it stands for. -/
def escape : List Char → Option (Char × List Char)
  | 'b' :: rest => some ('\x08', rest)
  | 't' :: rest => some ('\t', rest)
  | 'n' :: rest => some ('\n', rest)
  | 'f' :: rest => some ('\x0c', rest)
  | 'r' :: rest => some ('\r', rest)
  | 'e' :: rest => some ('\x1b', rest)
  | '"' :: rest => some ('"', rest)
  | '\\' :: rest => some ('\\', rest)
  | 'x' :: a :: b :: rest => (hexChar? [a, b]).map (·, rest)
  | 'u' :: a :: b :: c :: d :: rest => (hexChar? [a, b, c, d]).map (·, rest)
  | 'U' :: a :: b :: c :: d :: e :: f :: g :: h :: rest =>
    (hexChar? [a, b, c, d, e, f, g, h]).map (·, rest)
  | _ => none

/-- The rest of a string in double quotes on one line. -/
def basicString : (fuel : Nat) → List Char → Option (List Char × List Char)
  | 0, _ | _, [] => none
  | fuel + 1, c :: rest =>
    if c = '"' then some ([], rest)
    else if c = '\\' then do
      let (char, rest) ← escape rest
      let (chars, rest) ← basicString fuel rest
      return (char :: chars, rest)
    else if isForbidden c then none
    else do
      let (chars, rest) ← basicString fuel rest
      return (c :: chars, rest)

/-- The rest of a string in single quotes on one line. -/
def literalString : List Char → Option (List Char × List Char)
  | [] => none
  | c :: rest =>
    if c = '\'' then some ([], rest)
    else if isForbidden c then none
    else do
      let (chars, rest) ← literalString rest
      return (c :: chars, rest)

/-- The number of quotes that a text starts with, up to five. -/
def quoteCount (quote : Char) (text : List Char) : Nat :=
  ((text.take 5).takeWhile (· == quote)).length

/-- The text after leading spaces, tabs and line ends. -/
def skipBlanks : List Char → List Char
  | ' ' :: rest | '\t' :: rest | '\n' :: rest | '\r' :: '\n' :: rest => skipBlanks rest
  | text => text

/-- What follows a backslash at the end of a line: the blanks up to the next text are dropped. -/
def lineContinuation? (text : List Char) : Option (List Char) :=
  (newline? (skipSpaces text)).map skipBlanks

/-- The rest of a string in three quotes. In double quotes, escapes have their meaning. -/
def longString (quote : Char) : (fuel : Nat) → List Char → Option (List Char × List Char)
  | 0, _ | _, [] => none
  | fuel + 1, c :: rest =>
    let keep (text : List Char) (kept : List Char) : Option (List Char × List Char) := do
      let (chars, rest) ← longString quote fuel text
      return (kept ++ chars, rest)
    if c = quote then
      let count := quoteCount quote (c :: rest)
      if 3 ≤ count then
        some (List.replicate (count - 3) quote, (c :: rest).drop count)
      else keep rest [c]
    else if c = '\\' ∧ quote = '"' then
      match escape rest with
      | some (char, rest) => keep rest [char]
      | none => do keep (← lineContinuation? rest) []
    else
      match newline? (c :: rest) with
      | some after => keep after ((c :: rest).take ((c :: rest).length - after.length))
      | none => if isForbidden c then none else keep rest [c]

/-- A string of any form. -/
def stringValue : List Char → Option (String × List Char)
  | '"' :: '"' :: '"' :: rest =>
    let body := (newline? rest).getD rest
    (longString '"' (body.length + 1) body).map fun (chars, rest) => (String.ofList chars, rest)
  | '\'' :: '\'' :: '\'' :: rest =>
    let body := (newline? rest).getD rest
    (longString '\'' (body.length + 1) body).map fun (chars, rest) => (String.ofList chars, rest)
  | '"' :: rest =>
    (basicString (rest.length + 1) rest).map fun (chars, rest) => (String.ofList chars, rest)
  | '\'' :: rest => (literalString rest).map fun (chars, rest) => (String.ofList chars, rest)
  | _ => none

/-! ### Keys -/

/-- Characters of keys without quotes. -/
def isBareKeyChar (c : Char) : Bool := c.isAlphanum || c == '_' || c == '-'

/-- One part of a key. -/
def simpleKey : List Char → Option (String × List Char)
  | '"' :: rest =>
    (basicString (rest.length + 1) rest).map fun (chars, rest) => (String.ofList chars, rest)
  | '\'' :: rest => (literalString rest).map fun (chars, rest) => (String.ofList chars, rest)
  | text =>
    let key := text.takeWhile isBareKeyChar
    if key.isEmpty then none else some (String.ofList key, text.dropWhile isBareKeyChar)

/-- A key: its parts before the last one, and the last one. -/
def dottedKey : (fuel : Nat) → List Char → Option ((List String × String) × List Char)
  | 0, _ => none
  | fuel + 1, text => do
    let (part, rest) ← simpleKey (skipSpaces text)
    match skipSpaces rest with
    | '.' :: rest =>
      let ((path, last), rest) ← dottedKey fuel rest
      return ((part :: path, last), rest)
    | rest => return (([], part), rest)

/-! ### Values -/

/-- The number of levels to which arrays and inline tables may be nested. -/
def maxDepth : Nat := 80

mutual

/-- A value with at most `depth` levels of arrays and inline tables. -/
def readValue (depth : Nat) : (fuel : Nat) → List Char → Option (Value × List Char)
  | 0, _ => none
  | fuel + 1, text =>
    match text, depth with
    | '[' :: _, 0 | '\x7b' :: _, 0 => none
    | '[' :: rest, depth + 1 => do
      let (items, rest) ← readItems depth fuel rest
      return (.array items, rest)
    | '\x7b' :: rest, depth + 1 => do
      let (entries, rest) ← readEntries depth fuel [] rest
      return (.table (entriesToValues entries), rest)
    | '"' :: _, _ | '\'' :: _, _ => do
      let (text, rest) ← stringValue text
      return (.string text, rest)
    | _, _ => do
      let (text, rest) := Scalar.token text
      return (← Scalar.value? text, rest)

/-- The rest of an array. -/
def readItems (depth : Nat) : (fuel : Nat) → List Char → Option (List Value × List Char)
  | 0, _ => none
  | fuel + 1, text => do
    match ← skipLines text.length text with
    | ']' :: rest => some ([], rest)
    | text =>
      let (item, rest) ← readValue depth fuel text
      match ← skipLines rest.length rest with
      | ',' :: rest =>
        let (items, rest) ← readItems depth fuel rest
        return (item :: items, rest)
      | ']' :: rest => return ([item], rest)
      | _ => none

/-- The rest of an inline table, given its entries so far. -/
def readEntries (depth : Nat) :
    (fuel : Nat) → Entries → List Char → Option (Entries × List Char)
  | 0, _, _ => none
  | fuel + 1, entries, text => do
    match ← skipLines text.length text with
    | '\x7d' :: rest => some (entries, rest)
    | text =>
      let ((path, key), rest) ← dottedKey text.length text
      match ← skipLines rest.length rest with
      | '=' :: rest =>
        let (value, rest) ← readValue depth fuel (← skipLines rest.length rest)
        let entries ← entries.insert key value path
        match ← skipLines rest.length rest with
        | ',' :: rest => readEntries depth fuel entries rest
        | '\x7d' :: rest => return (entries, rest)
        | _ => none
      | _ => none

end

/-! ### Documents -/

/-- A document that is being read: its entries, and the table that keys are added to. -/
structure State where
  root : Entries
  current : List String

/-- A header, after its first bracket. -/
def readHeader (state : State) : List Char → Option (State × List Char)
  | '[' :: rest => do
    let ((path, key), rest) ← dottedKey rest.length rest
    match rest with
    | ']' :: ']' :: rest =>
      let root ← state.root.change (Entries.appendTable key) path
      return (⟨root, path ++ [key]⟩, rest)
    | _ => none
  | text => do
    let ((path, key), rest) ← dottedKey text.length text
    match rest with
    | ']' :: rest =>
      let root ← state.root.change (Entries.openTable key) path
      return (⟨root, path ++ [key]⟩, rest)
    | _ => none

/-- A key and its value. -/
def readKeyValue (state : State) (text : List Char) : Option (State × List Char) := do
  let ((path, key), rest) ← dottedKey text.length text
  match rest with
  | '=' :: rest =>
    let (value, rest) ← readValue maxDepth (2 * rest.length + 2) (skipSpaces rest)
    let root ← state.root.change (Entries.insert key value path) state.current
    return (⟨root, state.current⟩, rest)
  | _ => none

/-- Reads lines to the end of the document. -/
def readLines : (fuel : Nat) → State → List Char → Option State
  | 0, _, _ => none
  | fuel + 1, state, text => do
    match ← skipLines text.length text with
    | [] => some state
    | text =>
      let (state, rest) ← match text with
        | '[' :: rest => readHeader state rest
        | _ => readKeyValue state text
      match ← skipComment (skipSpaces rest) with
      | [] => some state
      | rest => readLines fuel state (← newline? rest)

/-- The table that a document stands for, none when it is no TOML. A byte order mark may come
before it. -/
def read? (text : String) : Option Value := do
  let chars := match text.toList with
    | '\uFEFF' :: rest => rest
    | chars => chars
  let state ← readLines (chars.length + 1) ⟨[], []⟩ chars
  return .table (entriesToValues state.root)

end SourceIndex.Toml
