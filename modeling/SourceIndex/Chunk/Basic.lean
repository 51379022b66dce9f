import SourceIndex.Language
import SourceIndex.Strategy
import SourceIndex.Text.Bytes

/-!
# Chunks

A chunk is a part of one source file with what is known about it: its place in bytes and in
lines, what it holds, and the name, signature, parent and docstring of its definition.
-/

namespace SourceIndex

/-- First and last line of a chunk, counted from one. -/
structure LineRange where
  first : Nat
  last : Nat
deriving Repr, DecidableEq, Inhabited

/-- A part of a source file. -/
structure Chunk where
  id : String
  filePath : String
  /-- From the first byte of the chunk to its last. -/
  range : Span
  /-- The parts of the source that the chunk is made of, in order. -/
  spans : List Span
  lines : LineRange
  granularity : Granularity
  name : Option String
  /-- The header of the definition on one line. -/
  signature : Option String
  /-- The name of the enclosing container. -/
  parent : Option String
  /-- The source text of the spans. -/
  text : String
  docstring : Option String
  language : Option Language
deriving Repr, DecidableEq, Inhabited

/-- How files are chunked. -/
structure ChunkOptions where
  strategy : Strategy
  /-- Doc comments belong to the definition after them. -/
  docstrings : Bool
deriving Repr, DecidableEq, Inhabited

end SourceIndex
