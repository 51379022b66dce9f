import SourceIndex.Chunk.EmbeddingText
import SourceIndex.Embedding.Embedder
import SourceIndex.Run.Result

/-!
# Embedding the chunks of a run

The embeddings of the chunks under their identifiers. Each batch that failed is one failure of
the run, which names the files of its chunks.
-/

namespace SourceIndex

/-- What embedding has made of the chunks of a run. -/
structure EmbeddingReport where
  embeddings : Keyed ChunkEmbedding
  summary : EmbeddingSummary
  failures : List SoftFailure
deriving Repr

namespace EmbeddingReport

/-- The text of a chunk that is embedded. -/
def textOf (contextualize : Bool) (chunk : Chunk) : String :=
  if contextualize then EmbeddingText.of chunk else chunk.text

/-- The failure of a batch. -/
def failureOf (chunks : List Chunk) (failure : Embedding.BatchFailure) : SoftFailure :=
  { stage := .embedding
    files := ((failure.range.pick chunks).map (·.filePath)).eraseDups
    batch := some failure.batch
    message := failure.message }

/-- The embedding of a chunk that has a vector. -/
def embeddingOf? (provider : String) : Chunk × Option Embedding.Components → Option ChunkEmbedding
  | (chunk, some values) =>
    some { chunkId := chunk.id, provider, dimension := values.length, values }
  | (_, none) => none

/-- The report on an output of an embedder for all chunks. -/
def ofOutput (provider model : String) (chunks : List Chunk) (output : Embedding.Output) :
    EmbeddingReport :=
  { embeddings := ((chunks.zip output.vectors).filterMap (embeddingOf? provider)).foldl
      (fun found entry => Keyed.set entry.chunkId entry found) []
    summary := { provider, model, dimension := output.dimension? }
    failures := output.failures.map (failureOf chunks) }

/-- Embeds the chunks of a run. Without chunks the embedder is not asked. -/
def of (embedder : Embedding.Embedder) (world : Http.World) (contextualize : Bool)
    (chunks : List Chunk) :
    StateM Http.Session (Except EmbedError EmbeddingReport × Embedding.Embedder) := do
  if chunks.isEmpty then
    let empty : Embedding.Output := { vectors := [], failures := [] }
    return (.ok (ofOutput embedder.name embedder.model [] empty), embedder)
  let (result, after) ← embedder.embed world (chunks.map (textOf contextualize))
  return (result.map (ofOutput embedder.name embedder.model chunks), after)

end EmbeddingReport

end SourceIndex
