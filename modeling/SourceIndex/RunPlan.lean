import SourceIndex.Chunk.Basic
import SourceIndex.IndexRequest
import SourceIndex.Repository.Basic
import SourceIndex.Run.Error
import SourceIndex.Run.Format
import SourceIndex.Selection

/-!
# Plans

A request that makes sense, ready to run. Validation looks for the first thing that is wrong
with a request, in a fixed order; tokens that a request does not give come from the environment.
-/

namespace SourceIndex

/-- The values of environment variables. -/
abbrev Environment := String → Option String

/-- A request that was found valid. -/
structure RunPlan where
  repository : RepositoryRef
  /-- Possibly blank, which is refused before anything is requested. -/
  githubToken : Secret
  openaiApiKey : Option Secret
  provider : Provider
  format : OutputFormat
  maxFiles : Nat
  filter : FileFilter
  options : ChunkOptions
deriving Repr, DecidableEq, Inhabited

namespace RunPlan

/-- The first secret that is not blank. -/
def firstNonBlank? (sources : List (Option Secret)) : Option Secret :=
  (sources.filterMap id).find? fun secret => !secret.isBlank

/-- A field whose value is blank is refused. -/
def requireText (field value : String) : Except RunError Unit :=
  if Text.isBlankText value then .error (.config ("`" ++ field ++ "` must not be empty"))
  else .ok ()

/-- A name that is not known is refused, with the names that are. -/
def requireName (field name choices : String) : Option α → Except RunError α
  | some value => .ok value
  | none =>
    .error (.config ("unknown " ++ field ++ " `" ++ name ++ "` (expected " ++ choices ++ ")"))

/-- Remote embeddings are asked for without a key. -/
def missingKey : RunError := .config "an OpenAI API key is required for openai embeddings"

/-- Where the GitHub token of a request comes from, the first source first. -/
def githubSources (request : IndexRequest) (environment : Environment) : List (Option Secret) :=
  [request.credentials.githubToken, request.githubToken, (environment "GITHUB_TOKEN").map .mk]

/-- Where the OpenAI key of a request comes from, the first source first. -/
def openaiSources (request : IndexRequest) (environment : Environment) : List (Option Secret) :=
  [request.credentials.openaiApiKey, request.openaiApiKey, (environment "OPENAI_API_KEY").map .mk]

/-- Finds a request valid, or the first thing that is wrong with it. -/
def ofRequest (request : IndexRequest) (environment : Environment) : Except RunError RunPlan := do
  requireText "owner" request.owner
  requireText "repo" request.repo
  requireText "branch" request.branch
  let strategy ← requireName "chunkStrategy" request.chunkStrategy "file, class or function"
    (Strategy.ofName? request.chunkStrategy)
  let format ← requireName "outputFormat" request.outputFormat
    "metadata, chunks, chunks_embeddings or full" (OutputFormat.ofName? request.outputFormat)
  let provider ← requireName "embeddingProvider" request.embeddingProvider "local or openai"
    (Provider.ofName? request.embeddingProvider)
  let filter ←
    (FileFilter.ofLists request.fileExtensions request.excludePatterns).mapError .ofIndex
  let openaiApiKey := firstNonBlank? (openaiSources request environment)
  if provider = .openAi ∧ format.needsEmbeddings ∧ openaiApiKey = none then throw missingKey
  return {
    repository :=
      { owner := Text.trimmed request.owner, repo := Text.trimmed request.repo
        branch := Text.trimmed request.branch }
    githubToken := (firstNonBlank? (githubSources request environment)).getD ⟨""⟩
    openaiApiKey
    provider
    format
    maxFiles := request.maxFiles
    filter
    options := { strategy, docstrings := request.includeDocstrings } }

end RunPlan

end SourceIndex
