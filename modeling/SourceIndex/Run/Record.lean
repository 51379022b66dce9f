import SourceIndex.Json.Basic
import SourceIndex.Run.Result

/-!
# Results as JSON

The records in which results are printed. Facts that a chunk does not have are left out of its
record.
-/

namespace SourceIndex

/-- A span as a record. -/
def Span.record (span : Span) : Json :=
  .record [("start", .nat span.start), ("end", .nat span.stop)]

/-- A chunk as a record. -/
def Chunk.record (chunk : Chunk) : Json :=
  .record (
    [("id", .text chunk.id),
     ("filePath", .text chunk.filePath),
     ("range", chunk.range.record),
     ("spans", .array (chunk.spans.map (·.record))),
     ("lines", .record [("start", .nat chunk.lines.first), ("end", .nat chunk.lines.last)]),
     ("granularity", .text chunk.granularity.name)] ++
    Json.member? "name" (chunk.name.map .text) ++
    Json.member? "signature" (chunk.signature.map .text) ++
    Json.member? "parent" (chunk.parent.map .text) ++
    [("text", .text chunk.text)] ++
    Json.member? "docstring" (chunk.docstring.map .text) ++
    Json.member? "language" (chunk.language.map fun language => .text language.id))

/-- A failure as a record. -/
def SoftFailure.record (failure : SoftFailure) : Json :=
  .record (
    [("stage", .text failure.stage.name), ("files", .texts failure.files)] ++
    Json.member? "batch" (failure.batch.map .nat) ++
    [("message", .text failure.message)])

/-- A skipped file as a record. -/
def SkippedFile.record (file : SkippedFile) : Json :=
  .record [("path", .text file.path), ("reason", .text file.reason)]

/-- A summary of the embeddings as a record. -/
def EmbeddingSummary.record (summary : EmbeddingSummary) : Json :=
  .record
    [("provider", .text summary.provider), ("model", .text summary.model),
     ("dimension", .orNull (summary.dimension.map .nat))]

/-- Metadata as a record. -/
def Metadata.record (metadata : Metadata) : Json :=
  .record (
    [("ownerRepo", .text metadata.ownerRepo),
     ("branch", .text metadata.branch),
     ("commitSha", .text metadata.commitSha),
     ("fileCount", .nat metadata.fileCount),
     ("chunkCount", .nat metadata.chunkCount),
     ("truncated", .bool metadata.truncated),
     ("treeTruncated", .bool metadata.treeTruncated),
     ("softFailureCount", .nat metadata.softFailureCount)] ++
    Json.member? "softFailures"
      (metadata.softFailures.map fun failures => .array (failures.map (·.record))) ++
    [("fallbackFiles", .texts metadata.fallbackFiles),
     ("skippedFiles", .array (metadata.skippedFiles.map (·.record))),
     ("languageBreakdown",
       .record (metadata.languageBreakdown.map fun (name, count) => (name, .nat count))),
     ("totalLines", .nat metadata.totalLines)] ++
    Json.member? "embedding" (metadata.embedding.map (·.record)))

/-- The components of a vector. -/
def Embedding.Components.record (values : Embedding.Components) : Json :=
  .array (values.map .float32)

/-- An embedding as a record. -/
def ChunkEmbedding.record (embedding : ChunkEmbedding) : Json :=
  .record
    [("chunkId", .text embedding.chunkId), ("provider", .text embedding.provider),
     ("dimension", .nat embedding.dimension),
     ("values", Embedding.Components.record embedding.values)]

/-- A result as a record. -/
def RunResult.record (result : RunResult) : Json :=
  .record
    [("format", .text result.format.name),
     ("metadata", result.metadata.record),
     ("chunks", .array (result.chunks.map (·.record))),
     ("embeddings", .record (result.embeddings.map fun (id, entry) => (id, entry.record)))]

end SourceIndex
