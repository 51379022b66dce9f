import SourceIndex.Repository.GitHub
import SourceIndex.Run.Chunking
import SourceIndex.Run.Embedding
import SourceIndex.Run.Error
import SourceIndex.RunPlan

/-!
# Runs

A run fetches a listing, selects files, chunks and embeds them, and assembles the result that
its format asks for. The embedder is chosen before any file is fetched, so a run that cannot
embed ends early. The first error ends a run; failures that concern single files or batches are
part of the result instead.
-/

namespace SourceIndex

/-- What a run works with besides its plan. -/
structure Workbench where
  settings : Settings
  /-- The syntax tree of a file. -/
  parse : SourceFile → Parse

/-- What a run changes. -/
structure RunState where
  session : Http.Session
  /-- The embedder that stands in for the one that the plan asks for. -/
  standIn : Option Embedding.Mock
deriving Repr

/-- A stage of a run. -/
abbrev Run (α : Type) := ExceptT RunError (StateM RunState) α

namespace Run

open SourceIndex.Embedding (Embedder Mock OpenAi)

/-- A stage that takes place in the session. -/
def inSession (action : StateM Http.Session α) : Run α := do
  let state ← get
  let (value, session) := action.run state.session
  set { state with session }
  return value

/-- A stage that takes place in the session and may fail. -/
def online (convert : ε → RunError) (action : Http.Online ε α) : Run α := do
  let result ← inSession action.run
  MonadExcept.ofExcept (result.mapError convert)

/-- The embedder of a run that needs one. -/
def embedderFor (bench : Workbench) (plan : RunPlan) : Option Mock → Except RunError Embedder
  | some mock => .ok (.mock mock)
  | none =>
    let settings := bench.settings.embedding
    match plan.provider with
    | .openAi =>
      match plan.openaiApiKey with
      | some key =>
        .ok (.openAi (.connect key settings.openaiBaseUrl settings.openaiModel settings.limits))
      | none => .error RunPlan.missingKey
    | .localModel => .error (.ofEmbed (Embedder.modelMissing settings.localModel))

/-- Chooses the embedder, when the format of the plan needs one. -/
def chooseEmbedder (bench : Workbench) (plan : RunPlan) : Run (Option Embedder) := do
  if plan.format.needsEmbeddings then
    return some (← MonadExcept.ofExcept (embedderFor bench plan (← get).standIn))
  else return none

/-- Embeds the chunks of a run, when it has an embedder. -/
def embedChunks (bench : Workbench) (world : Http.World) (chunks : List Chunk) :
    Option Embedder → Run (Option EmbeddingReport)
  | none => return none
  | some embedder => do
    let (result, after) ←
      inSession (EmbeddingReport.of embedder world bench.settings.embedding.contextualize chunks)
    if let .mock mock := after then
      modify fun state => { state with standIn := some mock }
    return some (← MonadExcept.ofExcept (result.mapError .ofEmbed))

/-- What a run that has come to its end has found. -/
def metadata (plan : RunPlan) (snapshot : Snapshot) (selection : Selection ListedFile)
    (skipped : List SkippedFile) (chunked : ChunkReport) (embedded : Option EmbeddingReport) :
    Metadata :=
  let failures := chunked.failures ++ (embedded.map (·.failures)).getD []
  { ownerRepo := plan.repository.fullName
    branch := plan.repository.branch
    commitSha := snapshot.commitSha
    fileCount := selection.files.length
    chunkCount := chunked.chunks.length
    truncated := selection.truncated
    treeTruncated := snapshot.truncated
    softFailureCount := failures.length
    softFailures := some failures
    fallbackFiles := chunked.fallbackFiles
    skippedFiles := skipped
    languageBreakdown := chunked.languageBreakdown
    totalLines := chunked.totalLines
    embedding := embedded.map (·.summary) }

/-- The stages of a run. -/
def stages (bench : Workbench) (world : Http.World) (plan : RunPlan) : Run RunResult := do
  let service ← MonadExcept.ofExcept
    ((GitHub.connect plan.githubToken bench.settings.github).mapError .ofFetch)
  let snapshot ← online .ofFetch (service.snapshot world plan.repository)
  let selection := select plan.filter plan.maxFiles (·.path) snapshot.files
  let embedder ← chooseEmbedder bench plan
  let fetched ← online .ofFetch (service.fetchFiles world plan.repository selection.files)
  let chunked := ChunkReport.of plan.options bench.parse fetched.files
  let embedded ← embedChunks bench world chunked.chunks embedder
  return RunResult.assemble plan.format
    (metadata plan snapshot selection fetched.skipped chunked embedded) chunked.chunks
    ((embedded.map (·.embeddings)).getD [])

end Run

/-- Runs a plan. A run that was cancelled before asks for nothing. -/
def RunPlan.run (plan : RunPlan) (bench : Workbench) (world : Http.World) (state : RunState) :
    Except RunError RunResult × RunState :=
  if state.session.cancelled then (.error .cancelled, state)
  else (Run.stages bench world plan).run.run state

/-- Validates a request and runs it. -/
def IndexRequest.run (request : IndexRequest) (environment : Environment) (bench : Workbench)
    (world : Http.World) (state : RunState) : Except RunError RunResult × RunState :=
  match RunPlan.ofRequest request environment with
  | .ok plan => plan.run bench world state
  | .error error => (.error error, state)

end SourceIndex
