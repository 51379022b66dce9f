import SourceIndex.Chunk.Basic
import SourceIndex.Embedding.Output
import SourceIndex.Keyed
import SourceIndex.Repository.Basic
import SourceIndex.Run.Context
import SourceIndex.Run.Format

/-!
# Results

The result of a run is shaped by its output format: the format decides which chunks, which
embeddings and which parts of the metadata are shown, and nothing else.
-/

namespace SourceIndex

/-- The embedding of a chunk. -/
structure ChunkEmbedding where
  chunkId : String
  provider : String
  dimension : Nat
  values : Embedding.Components
deriving Repr, Inhabited

/-- How the chunks of a run were embedded. -/
structure EmbeddingSummary where
  provider : String
  model : String
  /-- Absent when no batch gave a vector. -/
  dimension : Option Nat
deriving Repr, DecidableEq, Inhabited

/-- What is known about a run as a whole. -/
structure Metadata where
  ownerRepo : String
  branch : String
  commitSha : String
  fileCount : Nat
  /-- The number of chunks that were made, whether they are shown or not. -/
  chunkCount : Nat
  /-- More files matched than the request allows. -/
  truncated : Bool
  /-- The listing itself was cut short. -/
  treeTruncated : Bool
  softFailureCount : Nat
  softFailures : Option (List SoftFailure)
  /-- Files that were kept whole because they could not be split. -/
  fallbackFiles : List String
  skippedFiles : List SkippedFile
  /-- The number of files of each language. -/
  languageBreakdown : Keyed Nat
  totalLines : Nat
  embedding : Option EmbeddingSummary
deriving Repr, DecidableEq, Inhabited

/-- The result of a run. -/
structure RunResult where
  format : OutputFormat
  metadata : Metadata
  chunks : List Chunk
  /-- Embeddings under the identifiers of their chunks. -/
  embeddings : Keyed ChunkEmbedding
deriving Repr, Inhabited

namespace OutputFormat

/-- The metadata that a format shows. The list of failures is counted before it is dropped. -/
def shapeMetadata (format : OutputFormat) (chunkCount : Nat) (metadata : Metadata) : Metadata :=
  { metadata with
    chunkCount
    softFailureCount := match metadata.softFailures with
      | some failures => failures.length
      | none => metadata.softFailureCount
    softFailures := if format = .full then metadata.softFailures else none
    embedding := if format.needsEmbeddings then metadata.embedding else none }

/-- The chunks that a format shows. -/
def shapeChunks (format : OutputFormat) (chunks : List Chunk) : List Chunk :=
  match format with
  | .metadata => []
  | .chunks => chunks.map fun chunk => { chunk with docstring := none }
  | .chunksEmbeddings | .full => chunks

end OutputFormat

/-- The result that a format makes of what a run has found. -/
def RunResult.assemble (format : OutputFormat) (metadata : Metadata) (chunks : List Chunk)
    (embeddings : Keyed ChunkEmbedding) : RunResult :=
  { format
    metadata := format.shapeMetadata chunks.length metadata
    chunks := format.shapeChunks chunks
    embeddings := if format.needsEmbeddings then embeddings else [] }

end SourceIndex
