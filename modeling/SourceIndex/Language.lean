import SourceIndex.Text.Pieces

/-!
# Languages

The languages whose sources are split along their syntax, and how a file's path tells its
language: by the extension of its last component, whatever the case of its letters.
-/

namespace SourceIndex

/-- A language with a grammar. -/
inductive Language where
  | rust
  | python
  | javascript
  | typescript
  | tsx
  | go
  | java
  | c
  | cpp
deriving Repr, DecidableEq, Inhabited

namespace Language

/-- All languages, in the order of their declaration. -/
def all : List Language := [.rust, .python, .javascript, .typescript, .tsx, .go, .java, .c, .cpp]

/-- The name of a language in chunk records and in language counts. -/
def id : Language → String
  | rust => "rust"
  | python => "python"
  | javascript => "javascript"
  | typescript => "typescript"
  | tsx => "tsx"
  | go => "go"
  | java => "java"
  | c => "c"
  | cpp => "cpp"

/-- The language with the given name. -/
def ofId? (name : String) : Option Language := all.find? (·.id == name)

/-- The language of files with the given extension, in lower case and without a dot. -/
def ofExtension? : String → Option Language
  | "rs" => some rust
  | "py" | "pyi" => some python
  | "js" | "jsx" | "mjs" | "cjs" => some javascript
  | "ts" | "mts" | "cts" => some typescript
  | "tsx" => some tsx
  | "go" => some go
  | "java" => some java
  | "c" | "h" => some c
  | "cc" | "cpp" | "cxx" | "hpp" | "hh" | "hxx" => some cpp
  | _ => none

end Language

namespace Path

/-- The last component of a path. Empty components and single dots are no components, and a
path that ends in two dots names no file. -/
def fileName? (path : List Char) : Option (List Char) :=
  let components := (Text.splitWhere (· == '/') path).filter fun part => part != [] && part != ['.']
  match components.getLast? with
  | some name => if name = ['.', '.'] then none else some name
  | none => none

/-- What follows the last dot of a file name. A dot that starts the name begins no extension. -/
def extensionOfName? (name : List Char) : Option (List Char) :=
  match (Text.splitWhere (· == '.') name).reverse with
  | extension :: earlier :: others =>
    if earlier.isEmpty && others.isEmpty then none else some extension
  | _ => none

/-- The extension of a path's file, in lower case and without its dot. -/
def extension? (path : String) : Option String :=
  ((fileName? path.toList).bind extensionOfName?).map fun extension =>
    Text.asciiLower (String.ofList extension)

end Path

/-- The language of the file at a path. -/
def Language.ofPath? (path : String) : Option Language :=
  (Path.extension? path).bind Language.ofExtension?

end SourceIndex
