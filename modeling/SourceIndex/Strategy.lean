import SourceIndex.Text.Blank

/-!
# Strategies and granularities

A strategy says along which definitions a file is split; a granularity says what one chunk
holds.
-/

namespace SourceIndex

/-- How files are split: not at all, or along the definitions of one sort. -/
inductive Strategy where
  | wholeFile
  | classes
  | functions
deriving Repr, DecidableEq, Inhabited

namespace Strategy

/-- The name of a strategy in requests. -/
def name : Strategy → String
  | wholeFile => "file"
  | classes => "class"
  | functions => "function"

/-- Reads a strategy's name; outer blanks and the case of letters do not matter. -/
def ofName? (text : String) : Option Strategy :=
  match Text.normalizedName text with
  | "file" => some wholeFile
  | "class" => some classes
  | "function" => some functions
  | _ => none

end Strategy

/-- What a chunk holds: one definition, a whole file, or what the definitions of a file leave. -/
inductive Granularity where
  | function
  | classLike
  | wholeFile
  | residue
deriving Repr, DecidableEq, Inhabited

namespace Granularity

/-- The name of a granularity in chunk records. -/
def name : Granularity → String
  | function => "function"
  | classLike => "class"
  | wholeFile => "file"
  | residue => "module"

/-- The granularity with the given name. -/
def ofName? (text : String) : Option Granularity :=
  [function, classLike, wholeFile, residue].find? (·.name == text)

/-- The word for a granularity in embedding texts. -/
def label : Granularity → String
  | function => "Function"
  | classLike => "Class"
  | wholeFile => "File"
  | residue => "Module"

/-- The granularity of the definition chunks that a strategy makes. -/
def ofStrategy : Strategy → Granularity
  | .wholeFile => wholeFile
  | .classes => classLike
  | .functions => function

end Granularity

end SourceIndex
