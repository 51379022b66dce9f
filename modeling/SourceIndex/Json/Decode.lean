import SourceIndex.Json.Reader
import SourceIndex.Text.Quoted

/-!
# Reading records from JSON

Typed values are read from a document in the order of its text, so of several errors the first
in the text is reported, whether it is a fault of the text or a value of the wrong kind.

A `Record` says which fields a record has and how each is read. An object and an array of the
same fields in their declared order read alike; members under other keys are passed over; a
field that is given twice is an error.
-/

namespace SourceIndex.Json

/-- Why a document does not read as a value of some type. -/
inductive DecodeError where
  /-- The text has a fault, met in a value that was read or passed over. -/
  | fault (fault : Fault)
  /-- The text is fine, its contents are not. -/
  | data (detail : String)
deriving Repr, DecidableEq

namespace DecodeError

/-- The wording of an error. -/
def message : DecodeError → String
  | fault found => found.message
  | data detail => detail

end DecodeError

/-! ### Faults -/

mutual

/-- The first fault of a value that is passed over. -/
def skipFault? : Json → Option Fault
  | null | bool _ | number _ | string (.text _) => none
  | string (.faulty _ rest) => rest
  | array items => skipFaultOfItems? items
  | object members => skipFaultOfMembers? members
  | broken fault => some fault.whenSkipped

def skipFaultOfItems? : List Json → Option Fault
  | [] => none
  | item :: rest => skipFault? item <|> skipFaultOfItems? rest

def skipFaultOfMembers? : List (Literal × Json) → Option Fault
  | [] => none
  | (.text _, value) :: rest => skipFault? value <|> skipFaultOfMembers? rest
  | (.faulty _ found, value) :: rest => found <|> skipFault? value <|> skipFaultOfMembers? rest

end

mutual

/-- The first fault of a value that is read whatever its type, when containers may be nested to
less than `depth` levels. -/
def readFault? (depth : Nat) : Json → Option Fault
  | null | bool _ | string (.text _) => none
  | number value => if value.scalar?.isNone then some .numberOutOfRange else none
  | string (.faulty fault _) => some fault
  | array items => if depth ≤ 1 then some .tooDeep else readFaultOfItems? (depth - 1) items
  | object members => if depth ≤ 1 then some .tooDeep else readFaultOfMembers? (depth - 1) members
  | broken fault => some fault

def readFaultOfItems? (depth : Nat) : List Json → Option Fault
  | [] => none
  | item :: rest => readFault? depth item <|> readFaultOfItems? depth rest

def readFaultOfMembers? (depth : Nat) : List (Literal × Json) → Option Fault
  | [] => none
  | (.text _, value) :: rest => readFault? depth value <|> readFaultOfMembers? depth rest
  | (.faulty fault _, _) :: _ => some fault

end

/-- The number of levels to which containers of any type may be nested. -/
def maxDepth : Nat := 128

/-! ### Values of basic types -/

/-- What a value is called in an error; a value with a fault has no name. -/
def kindName : Json → Except Fault String
  | null => .ok "null"
  | bool true => .ok "boolean `true`"
  | bool false => .ok "boolean `false`"
  | number value =>
    match value.scalar? with
    | some (.natural n) => .ok s!"integer `{n}`"
    | some (.negative n) => .ok s!"integer `-{n}`"
    | some (.float x) => .ok ("floating point `" ++ String.ofList (floatText x) ++ "`")
    | none => .error .numberOutOfRange
  | string (.text value) => .ok ("string " ++ Text.quoted value)
  | string (.faulty fault _) => .error fault
  | array _ => .ok "sequence"
  | object _ => .ok "map"
  | broken fault => .error fault

/-- The error for a value of another kind than expected. -/
def wrongKind (expected : String) (json : Json) : DecodeError :=
  match json.kindName with
  | .ok name => .data ("invalid type: " ++ name ++ ", expected " ++ expected)
  | .error fault => .fault fault

/-- Reads a value of some type. -/
abbrev Decoder (α : Type) := Json → Except DecodeError α

namespace Decoder

/-- A string. -/
def string : Decoder String
  | .string (.text value) => .ok value
  | other => .error (wrongKind "a string" other)

/-- A truth value. -/
def bool : Decoder Bool
  | .bool value => .ok value
  | other => .error (wrongKind "a boolean" other)

/-- A natural number of 64 bits, called by the given name in errors. -/
def nat (name : String) : Decoder Nat
  | .number value =>
    match value.scalar? with
    | some (.natural n) => .ok n
    | some (.negative n) => .error (.data s!"invalid value: integer `-{n}`, expected {name}")
    | _ => .error (wrongKind name (.number value))
  | other => .error (wrongKind name other)

/-- A number of 32 bits. -/
def float32 : Decoder Float32
  | .number value =>
    match value.scalar? with
    | some scalar => .ok scalar.toFloat32
    | none => .error (.fault .numberOutOfRange)
  | other => .error (wrongKind "f32" other)

/-- A value that may be null. -/
def optional (decoder : Decoder α) : Decoder (Option α)
  | .null => .ok none
  | other => (decoder other).map some

/-- A list. -/
def list (decoder : Decoder α) : Decoder (List α)
  | .array items => items.mapM decoder
  | other => .error (wrongKind "a sequence" other)

end Decoder

/-! ### Records -/

/-- The values of fields, under their names. -/
abbrev Fields := List (String × Json)

/-- How a record is read. -/
structure Record (α : Type) where
  /-- The fields in their declared order, each with a check that its value can be read. -/
  fields : List (String × (Json → Except DecodeError Unit))
  /-- Puts the record together from its fields, given the error for a missing field. -/
  assemble : (missing : String → DecodeError) → Fields → Except DecodeError α

namespace Record

/-- A record without fields. -/
def pure (value : α) : Record α := { fields := [], assemble := fun _ _ => .ok value }

/-- Adds the fields of a second record after those of a first one. -/
def seq (first : Record (α → β)) (second : Record α) : Record β where
  fields := first.fields ++ second.fields
  assemble missing found := do
    let function ← first.assemble missing found
    let value ← second.assemble missing found
    return function value

/-- A field that has to be there. -/
def required (name : String) (decoder : Decoder α) : Record α where
  fields := [(name, fun value => (decoder value).map fun _ => ())]
  assemble missing found :=
    match found.lookup name with
    | some value => decoder value
    | none => .error (missing name)

/-- A field with a standard value. -/
def withDefault (name : String) (decoder : Decoder α) (standard : α) : Record α where
  fields := [(name, fun value => (decoder value).map fun _ => ())]
  assemble _ found :=
    match found.lookup name with
    | some value => decoder value
    | none => .ok standard

/-- Reads the members of an object into fields, given the fields found so far. -/
def readMembers (record : Record α) (found : Fields) :
    List (Literal × Json) → Except DecodeError Fields
  | [] => .ok found
  | (.faulty fault _, _) :: _ => .error (.fault fault)
  | (.text key, value) :: rest =>
    match record.fields.lookup key with
    | none =>
      match value.skipFault? with
      | some fault => .error (.fault fault)
      | none => readMembers record found rest
    | some check =>
      if (found.lookup key).isSome then .error (.data ("duplicate field `" ++ key ++ "`"))
      else do
        check value
        readMembers record (found ++ [(key, value)]) rest

/-- The error when an array goes on after the last field. -/
def afterLast : Json → DecodeError
  | .broken .endInList => .fault .endInList
  | .broken .commaBeforeListEnd => .fault .commaBeforeListEnd
  | _ => .fault .trailingCharacters

/-- Reads the items of an array into fields, in the declared order. -/
def readItems : List (String × (Json → Except DecodeError Unit)) → List Json →
    Except DecodeError Fields
  | _, [] => .ok []
  | [], item :: _ => .error (afterLast item)
  | (name, check) :: fields, item :: rest => do
    check item
    let others ← readItems fields rest
    return (name, item) :: others

/-- Reads a record called by the given name in errors. -/
def decoder (name : String) (record : Record α) : Decoder α
  | .object members => do
    let found ← record.readMembers [] members
    record.assemble (fun field => .data ("missing field `" ++ field ++ "`")) found
  | .array items => do
    let found ← readItems record.fields (items.take record.fields.length)
    let whole ← record.assemble (fun _ =>
      let given := items.length
      let needed := record.fields.length
      .data s!"invalid length {given}, expected struct {name} with {needed} elements") found
    match items.drop record.fields.length with
    | [] => return whole
    | item :: _ => throw (afterLast item)
  | other => .error (wrongKind ("struct " ++ name) other)

end Record

/-- Reads a whole document. -/
def Document.decode (document : Document) (decoder : Decoder α) : Except DecodeError α := do
  let value ← decoder document.value
  if document.trailing then throw (.fault .trailingCharacters)
  return value

end SourceIndex.Json
