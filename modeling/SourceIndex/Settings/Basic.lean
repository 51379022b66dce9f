/-!
# Settings

How repositories are fetched and chunks are embedded, apart from what a request asks for, with
the standard value of each field.
-/

namespace SourceIndex

/-- How repositories are fetched. -/
structure FetchSettings where
  apiUrl : String
  timeoutSecs : Nat
  maxRetries : Nat
  maxBackoffSecs : Nat
  /-- How many files are fetched at the same time. -/
  concurrency : Nat
  /-- Larger files are skipped. -/
  maxFileBytes : Nat
deriving Repr, DecidableEq, Inhabited

/-- How requests for embeddings are shaped. -/
structure EmbeddingLimits where
  maxBatchSize : Nat
  maxBatchChars : Nat
  /-- Longer texts are cut. -/
  maxInputChars : Nat
  /-- How many batches are requested at the same time. -/
  concurrency : Nat
  maxRetries : Nat
  timeoutSecs : Nat
deriving Repr, DecidableEq, Inhabited

/-- How chunks are embedded. -/
structure EmbeddingSettings where
  openaiBaseUrl : String
  openaiModel : String
  localModel : String
  limits : EmbeddingLimits
  localWorkers : Nat
  /-- Chunks are embedded together with where they come from. -/
  contextualize : Bool
deriving Repr, DecidableEq, Inhabited

/-- All settings. -/
structure Settings where
  github : FetchSettings
  embedding : EmbeddingSettings
deriving Repr, DecidableEq, Inhabited

/-! ### Standard values -/

/-- The standard way of fetching. -/
def FetchSettings.standard : FetchSettings :=
  { apiUrl := "https://api.github.com", timeoutSecs := 30, maxRetries := 3, maxBackoffSecs := 30
    concurrency := 8, maxFileBytes := 5 * 1024 * 1024 }

/-- The standard limits of embedding requests. -/
def EmbeddingLimits.standard : EmbeddingLimits :=
  { maxBatchSize := 100, maxBatchChars := 200000, maxInputChars := 16000, concurrency := 4
    maxRetries := 3, timeoutSecs := 60 }

/-- The standard way of embedding, with a worker for each processor. -/
def EmbeddingSettings.standard (processors : Nat) : EmbeddingSettings :=
  { openaiBaseUrl := "https://api.openai.com/v1", openaiModel := "text-embedding-3-small"
    localModel := "sentence-transformers/all-MiniLM-L6-v2", limits := .standard
    localWorkers := processors, contextualize := true }

/-- The standard settings. -/
def Settings.standard (processors : Nat) : Settings :=
  { github := .standard, embedding := .standard processors }

end SourceIndex
