import SourceIndex.File
import SourceIndex.RunPlan
import SourceIndex.Settings.Basic
import SourceIndex.Text.Decimal
import SourceIndex.Toml.Reader

/-!
# Loading settings

Each field of the settings may be set by a settings file, and may be set again by its own
environment variable. A variable whose value does not make sense for the field changes nothing.
-/

namespace SourceIndex

/-! ### The settings file -/

namespace Settings

open Toml (Value)

/-- A section of a file: a table, or an array with the values of the fields in their order. -/
inductive Part where
  | table (entries : List (String × Value))
  | array (items : List Value)

/-- The value that a section has for the field with the given place and name. -/
def Part.value? (part : Part) (place : Nat) (name : String) : Option Value :=
  match part with
  | .table entries => entries.lookup name
  | .array items => items[place]?

/-- Whether the fields of a section other than the named ones, which are passed over, can be held.
What is behind the fields of an array is not even looked at. -/
def Part.othersHeld (part : Part) (names : List String) : Bool :=
  match part with
  | .table entries => entries.all fun (name, value) => names.contains name || value.isHeld
  | .array _ => true

/-- A section of a file. It is empty when it is missing, and a date or time has no fields. -/
def part? (entries : List (String × Value)) (name : String) : Option Part :=
  match entries.lookup name with
  | none => some (.table [])
  | some (.table found) => some (.table found)
  | some (.array items) => some (.array items)
  | some .dateTime => some (.table [])
  | some _ => none

/-- Reads a field: its standard value when it is missing, none when it has the wrong type. -/
def field (part : Part) (place : Nat) (name : String) (read : Value → Option α) (standard : α) :
    Option α :=
  match part.value? place name with
  | none => some standard
  | some value => read value

/-- A string of a file. -/
def textOf : Value → Option String
  | .string text => some text
  | _ => none

/-- A natural number of a file up to the given one. -/
def natOf (largest : Nat) : Value → Option Nat
  | .integer n => if 0 ≤ n ∧ n ≤ largest then some n.toNat else none
  | _ => none

/-- A truth value of a file. -/
def boolOf : Value → Option Bool
  | .boolean value => some value
  | _ => none

/-- Reads the section on fetching. -/
def fetchOf (part : Part) (standard : FetchSettings) : Option FetchSettings := do
  return {
    apiUrl := ← field part 0 "api_url" textOf standard.apiUrl
    timeoutSecs := ← field part 1 "timeout_secs" (natOf Text.largest64) standard.timeoutSecs
    maxRetries := ← field part 2 "max_retries" (natOf Text.largest32) standard.maxRetries
    maxBackoffSecs :=
      ← field part 3 "max_backoff_secs" (natOf Text.largest64) standard.maxBackoffSecs
    concurrency := ← field part 4 "concurrency" (natOf Text.largest64) standard.concurrency
    maxFileBytes := ← field part 5 "max_file_bytes" (natOf Text.largest64) standard.maxFileBytes }

/-- Reads the limits in the section on embedding. -/
def limitsOf (part : Part) (standard : EmbeddingLimits) : Option EmbeddingLimits := do
  return {
    maxBatchSize := ← field part 3 "max_batch_size" (natOf Text.largest64) standard.maxBatchSize
    maxBatchChars := ← field part 4 "max_batch_chars" (natOf Text.largest64) standard.maxBatchChars
    maxInputChars := ← field part 5 "max_input_chars" (natOf Text.largest64) standard.maxInputChars
    concurrency := ← field part 6 "concurrency" (natOf Text.largest64) standard.concurrency
    maxRetries := ← field part 7 "max_retries" (natOf Text.largest32) standard.maxRetries
    timeoutSecs := ← field part 8 "timeout_secs" (natOf Text.largest64) standard.timeoutSecs }

/-- Reads the section on embedding. -/
def embeddingOf (part : Part) (standard : EmbeddingSettings) : Option EmbeddingSettings := do
  return {
    openaiBaseUrl := ← field part 0 "openai_base_url" textOf standard.openaiBaseUrl
    openaiModel := ← field part 1 "openai_model" textOf standard.openaiModel
    localModel := ← field part 2 "local_model" textOf standard.localModel
    limits := ← limitsOf part standard.limits
    localWorkers := ← field part 9 "local_workers" (natOf Text.largest64) standard.localWorkers
    contextualize := ← field part 10 "contextualize" boolOf standard.contextualize }

/-- The fields of the section on fetching. -/
def fetchNames : List String :=
  ["api_url", "timeout_secs", "max_retries", "max_backoff_secs", "concurrency", "max_file_bytes"]

/-- The fields of the section on embedding. -/
def embeddingNames : List String :=
  ["openai_base_url", "openai_model", "local_model", "max_batch_size", "max_batch_chars",
   "max_input_chars", "concurrency", "max_retries", "timeout_secs", "local_workers",
   "contextualize"]

/-- Reads the values of a settings file. -/
def ofToml? (processors : Nat) : Value → Option Settings
  | .table entries => do
    let fetching ← part? entries "github"
    let embedding ← part? entries "embedding"
    let others := Part.table entries
    if !(others.othersHeld ["github", "embedding"] && fetching.othersHeld fetchNames &&
        embedding.othersHeld embeddingNames) then none
    return { github := ← fetchOf fetching .standard
             embedding := ← embeddingOf embedding (.standard processors) }
  | _ => none

/-! ### Environment variables -/

/-- The value of a variable where it makes sense, or else the value so far. -/
def override (given : Option String) (accept : String → Option α) (current : α) : α :=
  (given.bind accept).getD current

/-- Any natural number up to the given one. -/
def anyNat (largest : Nat) (text : String) : Option Nat := Text.readNat? largest text.toList

/-- A natural number up to the given one other than zero. -/
def positiveNat (largest : Nat) (text : String) : Option Nat := (anyNat largest text).filter (0 < ·)

/-- A truth value. -/
def truth : String → Option Bool
  | "true" => some true
  | "false" => some false
  | _ => none

/-- Lets environment variables change how repositories are fetched. -/
def overrideFetch (environment : Environment) (settings : FetchSettings) : FetchSettings :=
  { apiUrl := override (environment "REPODEX_GITHUB_API_URL") some settings.apiUrl
    timeoutSecs := override (environment "REPODEX_GITHUB_TIMEOUT_SECS")
      (anyNat Text.largest64) settings.timeoutSecs
    maxRetries := override (environment "REPODEX_GITHUB_MAX_RETRIES")
      (anyNat Text.largest32) settings.maxRetries
    maxBackoffSecs := override (environment "REPODEX_GITHUB_MAX_BACKOFF_SECS")
      (anyNat Text.largest64) settings.maxBackoffSecs
    concurrency := override (environment "REPODEX_GITHUB_CONCURRENCY")
      (positiveNat Text.largest64) settings.concurrency
    maxFileBytes := override (environment "REPODEX_GITHUB_MAX_FILE_BYTES")
      (anyNat Text.largest64) settings.maxFileBytes }

/-- Lets environment variables change how requests for embeddings are shaped. -/
def overrideLimits (environment : Environment) (limits : EmbeddingLimits) : EmbeddingLimits :=
  { maxBatchSize := override (environment "REPODEX_EMBED_BATCH_SIZE")
      (positiveNat Text.largest64) limits.maxBatchSize
    maxBatchChars := override (environment "REPODEX_EMBED_BATCH_CHARS")
      (anyNat Text.largest64) limits.maxBatchChars
    maxInputChars := override (environment "REPODEX_EMBED_MAX_INPUT_CHARS")
      (anyNat Text.largest64) limits.maxInputChars
    concurrency := override (environment "REPODEX_EMBED_CONCURRENCY")
      (positiveNat Text.largest64) limits.concurrency
    maxRetries := override (environment "REPODEX_EMBED_MAX_RETRIES")
      (anyNat Text.largest32) limits.maxRetries
    timeoutSecs := override (environment "REPODEX_EMBED_TIMEOUT_SECS")
      (anyNat Text.largest64) limits.timeoutSecs }

/-- Lets environment variables change how chunks are embedded. -/
def overrideEmbedding (environment : Environment) (settings : EmbeddingSettings) :
    EmbeddingSettings :=
  { openaiBaseUrl := override (environment "REPODEX_OPENAI_BASE_URL") some settings.openaiBaseUrl
    openaiModel := override (environment "REPODEX_OPENAI_MODEL") some settings.openaiModel
    localModel := override (environment "REPODEX_LOCAL_MODEL") some settings.localModel
    limits := overrideLimits environment settings.limits
    localWorkers := override (environment "REPODEX_EMBED_LOCAL_WORKERS")
      (positiveNat Text.largest64) settings.localWorkers
    contextualize := override (environment "REPODEX_EMBED_CONTEXTUALIZE") truth
      settings.contextualize }

/-- Lets environment variables change settings. -/
def overrideAll (environment : Environment) (settings : Settings) : Settings :=
  { github := overrideFetch environment settings.github
    embedding := overrideEmbedding environment settings.embedding }

/-! ### Loading -/

/-- Why settings could not be loaded. -/
inductive LoadError where
  | unreadable (cause : FileError)
  | malformed
deriving Repr, DecidableEq

namespace LoadError

/-- The wording of an error. -/
def message : LoadError → String
  | unreadable _ => "failed to read settings file"
  | malformed => "failed to parse settings file"

/-- The wording of an error with its cause. -/
def explained : LoadError → String
  | unreadable cause => message (unreadable cause) ++ ": " ++ cause.message
  | malformed => malformed.message

end LoadError

/-- The settings of a file, standard ones when there is no file. -/
def ofFile (processors : Nat) : File → Except LoadError Settings
  | .ok content =>
    match (Toml.read? content).bind (ofToml? processors) with
    | some settings => .ok settings
    | none => .error .malformed
  | .error cause =>
    if cause.isAbsence then .ok (.standard processors) else .error (.unreadable cause)

/-- The settings of a file and the environment. -/
def load (processors : Nat) (environment : Environment) (file : File) :
    Except LoadError Settings :=
  (ofFile processors file).map (overrideAll environment)

/-- The settings of the environment alone. -/
def ofEnvironment (processors : Nat) (environment : Environment) : Settings :=
  overrideAll environment (.standard processors)

end Settings

end SourceIndex
