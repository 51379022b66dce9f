import SourceIndex.Chunk.Split
import SourceIndex.Keyed
import SourceIndex.Repository.Basic
import SourceIndex.Run.Context
import SourceIndex.Text.Lines

/-!
# Chunking the files of a run

The chunks of all files in their order, with what is counted on the way. A file that cannot be
split is kept whole; that is a failure only when its syntax tree has errors.
-/

namespace SourceIndex

/-- A fetched file with its chunks. -/
structure SplitFile where
  file : SourceFile
  chunked : ChunkedFile
deriving Repr

namespace SplitFile

/-- Splits a file whose syntax tree is given by `parse`. -/
def of (options : ChunkOptions) (parse : SourceFile → Parse) (file : SourceFile) : SplitFile :=
  { file, chunked := ChunkedFile.of file.content file.path options (parse file) }

/-- The number of lines of a file. -/
def lineCount (split : SplitFile) : Nat := (Text.lines split.file.content.toList).length

/-- What a file counts as in the breakdown by languages. -/
def languageName (split : SplitFile) : String :=
  match split.chunked.language with
  | some language => language.id
  | none => "unknown"

/-- The failure of a file whose syntax tree has errors. -/
def failure? (split : SplitFile) : Option SoftFailure :=
  match split.chunked.fallback with
  | some (.parseFailed cause) =>
    some { stage := .chunking, files := [split.file.path], batch := none, message := cause.message }
  | _ => none

end SplitFile

/-- What chunking has made of the files of a run. -/
structure ChunkReport where
  chunks : List Chunk
  /-- The files that were kept whole because they could not be split. -/
  fallbackFiles : List String
  /-- The number of files of each language. -/
  languageBreakdown : Keyed Nat
  totalLines : Nat
  failures : List SoftFailure
deriving Repr

namespace ChunkReport

/-- The report on some files. -/
def ofSplit (files : List SplitFile) : ChunkReport :=
  { chunks := files.flatMap (·.chunked.chunks)
    fallbackFiles := (files.filter (·.chunked.fallback.isSome)).map (·.file.path)
    languageBreakdown := files.foldl (fun counts split => Keyed.count split.languageName counts) []
    totalLines := files.foldr (fun split lines => split.lineCount + lines) 0
    failures := files.filterMap (·.failure?) }

/-- Chunks files and reports on them. -/
def of (options : ChunkOptions) (parse : SourceFile → Parse) (files : List SourceFile) :
    ChunkReport :=
  ofSplit (files.map (SplitFile.of options parse))

end ChunkReport

end SourceIndex
