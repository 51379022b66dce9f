/-!
# TOML values

What a TOML document says: a table of values. While a document is read, tables remember how they
came to be, because that decides what may still be added to them.

* A table with a header of its own may get no second header.
* A table that stands above one with a header may still get a header of its own.
* A table that dotted keys made may get further dotted keys, and tables below it, but no header.
* An inline table, like any other value, is complete where it is written.
-/

namespace SourceIndex.Toml

/-- A value of a document. -/
inductive Value where
  | string (text : String)
  | integer (n : Int)
  /-- A float; those that are written as numbers may be too large for any. -/
  | float (tooLarge : Bool)
  | boolean (value : Bool)
  | dateTime
  | array (items : List Value)
  | table (entries : List (String × Value))
deriving Repr, Inhabited

mutual

/-- Whether all numbers of a value can be held: integers in 128 bits, floats in 64. -/
def Value.isHeld : Value → Bool
  | .integer n => -0x80000000000000000000000000000000 ≤ n && n < 0x100000000000000000000000000000000
  | .float tooLarge => !tooLarge
  | .string _ | .boolean _ | .dateTime => true
  | .array items => areHeld items
  | .table entries => entriesHeld entries

def areHeld : List Value → Bool
  | [] => true
  | value :: rest => value.isHeld && areHeld rest

def entriesHeld : List (String × Value) → Bool
  | [] => true
  | (_, value) :: rest => value.isHeld && entriesHeld rest

end

/-- How a table came to be. -/
inductive Origin where
  /-- It has a header. -/
  | header
  /-- A table below it has a header. -/
  | above
  /-- Dotted keys lead through it. -/
  | dotted
deriving Repr, DecidableEq

/-- An entry of a table that is being read. -/
inductive Item where
  | value (value : Value)
  | table (origin : Origin) (entries : List (String × Item))
  /-- Tables under a repeated header, the last one first. -/
  | tables (elements : List (List (String × Item)))
deriving Inhabited

/-- The entries of a table that is being read. -/
abbrev Entries := List (String × Item)

namespace Entries

/-- The entries with the item under a key replaced. -/
def replace (key : String) (item : Item) (entries : Entries) : Entries :=
  entries.map fun (found, old) => if found = key then (found, item) else (found, old)

/-- Adds a value under a dotted key, `path` leading to the table that gets it. -/
def insert (key : String) (value : Value) : (path : List String) → Entries → Option Entries
  | [], entries =>
    if (entries.lookup key).isSome then none else some (entries ++ [(key, .value value)])
  | next :: path, entries =>
    match entries.lookup next with
    | none => do
      let inner ← insert key value path []
      return entries ++ [(next, .table .dotted inner)]
    | some (.table origin inner) =>
      if origin = .header ∨ (path = [] ∧ origin ≠ .dotted) then none
      else do
        let inner ← insert key value path inner
        return replace next (.table origin inner) entries
    | some _ => none

/-- Changes the table at the end of a path. Tables on the way that are missing are made; of a
repeated table, the last one is meant. -/
def change (update : Entries → Option Entries) : (path : List String) → Entries → Option Entries
  | [], entries => update entries
  | next :: path, entries =>
    match entries.lookup next with
    | none => do
      let inner ← change update path []
      return entries ++ [(next, .table .above inner)]
    | some (.table origin inner) => do
      let inner ← change update path inner
      return replace next (.table origin inner) entries
    | some (.tables (last :: others)) => do
      let last ← change update path last
      return replace next (.tables (last :: others)) entries
    | some _ => none

/-- Gives a table its header. -/
def openTable (key : String) (entries : Entries) : Option Entries :=
  match entries.lookup key with
  | none => some (entries ++ [(key, .table .header [])])
  | some (.table .above inner) => some (replace key (.table .header inner) entries)
  | some _ => none

/-- Adds a table under a repeated header. -/
def appendTable (key : String) (entries : Entries) : Option Entries :=
  match entries.lookup key with
  | none => some (entries ++ [(key, .tables [[]])])
  | some (.tables elements) => some (replace key (.tables ([] :: elements)) entries)
  | some _ => none

end Entries

mutual

/-- The value of an item. -/
def Item.toValue : Item → Value
  | .value value => value
  | .table _ entries => .table (entriesToValues entries)
  | .tables elements => .array (elementsToValues elements).reverse

def entriesToValues : List (String × Item) → List (String × Value)
  | [] => []
  | (key, item) :: rest => (key, item.toValue) :: entriesToValues rest

def elementsToValues : List (List (String × Item)) → List Value
  | [] => []
  | entries :: rest => .table (entriesToValues entries) :: elementsToValues rest

end

end SourceIndex.Toml
