import SourceIndex.Chunk.Basic
import SourceIndex.Text.Blank
import SourceIndex.Text.Lines

/-!
# Embedding texts

The text of a chunk that is embedded: a header that tells where the chunk comes from and what
it defines, one fact a line, then as much of the code as fits.
-/

namespace SourceIndex.EmbeddingText

/-- The most bytes of code in an embedding text. -/
def maxCodeBytes : Nat := 65536

/-- A line of the header. -/
def headerLine (text : List Char) : List Char := '#' :: ' ' :: text ++ ['\n']

/-- The line of a fact that a chunk may have. -/
def factLine (label : String) : Option String → List Char
  | some value => headerLine (label.toList ++ ':' :: ' ' :: value.toList)
  | none => []

/-- The lines above the code. They do not depend on the code. -/
def header (chunk : Chunk) : List Char :=
  headerLine chunk.filePath.toList ++
    factLine chunk.granularity.label chunk.name ++
    factLine "In" chunk.parent ++
    factLine "Signature" chunk.signature ++
    factLine "Language" (chunk.language.map (·.id)) ++
    ((Text.lines (chunk.docstring.getD "").toList).flatMap fun line =>
      headerLine (Text.trimEnd line))

/-- The text of a chunk that is embedded. -/
def of (chunk : Chunk) : String :=
  String.ofList (header chunk ++ Text.takeBytes maxCodeBytes chunk.text.toList)

end SourceIndex.EmbeddingText
