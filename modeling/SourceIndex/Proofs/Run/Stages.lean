import SourceIndex.Proofs.Embedding.Requests
import SourceIndex.Proofs.Repository.Requests
import SourceIndex.Run.Pipeline

/-!
# The stages of a run

A run changes its session and, in its last stage, the embedder that stands in
for another.  Nothing that is asked depends on what that embedder becomes, so
for its result and its session a run is an action of the session alone:
`planned`, which is the stages one after the other.

## Main results

* `Keeps.bind` — stages that only change the session are composed as actions.
* `run_shows` — a run is `planned`, in its session.
-/

namespace SourceIndex.Run

open Http Http.Online
open SourceIndex.Embedding (Embedder Mock OpenAi)

variable {α β : Type}

/-! ## Stages as actions of the session -/

/-- For its result and the session, a stage is an action of the session. -/
def Shows (stage : Run α) (action : Online RunError α) (state : RunState) : Prop :=
  (stage.run.run state).1 = (action.run state.session).1 ∧
    (stage.run.run state).2.session = (action.run state.session).2

/-- A stage is an action of the session and changes nothing else. -/
def Keeps (stage : Run α) (action : Online RunError α) (state : RunState) : Prop :=
  stage.run.run state =
    ((action.run state.session).1, { state with session := (action.run state.session).2 })

theorem run_bind (first : Run α) (second : α → Run β) (state : RunState) :
    (first >>= second).run.run state =
      match first.run.run state with
      | (.ok value, after) => (second value).run.run after
      | (.error error, after) => (.error error, after) := by
  show ExceptT.bindCont second (first.run.run state).1 (first.run.run state).2 = _
  rcases first.run.run state with ⟨_ | value, after⟩
  · rfl
  · rfl

section Rules

variable {first : Run α} {second : α → Run β} {action : Online RunError α}
  {rest : α → Online RunError β} {state : RunState}

/-- A stage that only changes the session leaves the others to be judged in
the session that it leaves. -/
theorem Keeps.bind (hFirst : Keeps first action state)
    (hSecond : ∀ value session, Shows (second value) (rest value) { state with session }) :
    Shows (first >>= second) (action >>= rest) state := by
  unfold Shows
  rw [run_bind, show first.run.run state = _ from hFirst, Online.run_bind]
  rcases action.run state.session with ⟨error | value, after⟩
  · exact ⟨rfl, rfl⟩
  · exact hSecond value after

/-- The last step of a stage may be a value that is made of its result. -/
theorem Shows.map (h : Shows first action state) (make : α → β) :
    Shows (first >>= fun value => pure (make value)) (action >>= fun value => pure (make value))
      state := by
  obtain ⟨hResult, hSession⟩ := h
  unfold Shows
  rw [run_bind, Online.run_bind]
  rcases hStage : first.run.run state with ⟨error | value, after⟩
  · rw [hStage] at hResult hSession
    rcases hAction : action.run state.session with ⟨found | other, left⟩
    · rw [hAction] at hResult hSession
      exact ⟨congrArg _ (Except.error.inj hResult), hSession⟩
    · rw [hAction] at hResult
      cases hResult
  · rw [hStage] at hResult hSession
    rcases hAction : action.run state.session with ⟨found | other, left⟩
    · rw [hAction] at hResult
      cases hResult
    · rw [hAction] at hResult hSession
      exact ⟨congrArg _ (congrArg make (Except.ok.inj hResult)), hSession⟩

theorem keeps_ofExcept (result : Except RunError α) (state : RunState) :
    Keeps (MonadExcept.ofExcept result) (MonadExcept.ofExcept result) state := by
  cases result with
  | error error => rfl
  | ok value => rfl

theorem keeps_online {ε : Type} (convert : ε → RunError) (action : Online ε α)
    (state : RunState) : Keeps (online convert action) (mapError convert action) state := by
  unfold Keeps
  rw [run_mapError]
  have hRun : (online convert action).run.run state =
      (MonadExcept.ofExcept ((action.run state.session).1.mapError convert) : Run α).run.run
        { state with session := (action.run state.session).2 } := rfl
  rw [hRun]
  cases (action.run state.session).1 with
  | error error => rfl
  | ok value => rfl

end Rules

/-! ## The stages -/

/-- The embedder that a plan needs, if it needs one. -/
def chosen (bench : Workbench) (plan : RunPlan) (standIn : Option Mock) :
    Except RunError (Option Embedder) :=
  if plan.format.needsEmbeddings then (embedderFor bench plan standIn).map some else .ok none

theorem keeps_chooseEmbedder (bench : Workbench) (plan : RunPlan) (state : RunState) :
    Keeps (chooseEmbedder bench plan) (MonadExcept.ofExcept (chosen bench plan state.standIn))
      state := by
  unfold Keeps chooseEmbedder chosen
  rw [run_ofExcept]
  split
  · have hRun : (do return some (← MonadExcept.ofExcept
          (embedderFor bench plan (← get).standIn)) : Run (Option Embedder)).run.run state =
        (do return some (← MonadExcept.ofExcept
          (embedderFor bench plan state.standIn)) : Run (Option Embedder)).run.run state := rfl
    rw [hRun]
    cases embedderFor bench plan state.standIn with
    | error error => rfl
    | ok embedder => rfl
  · rfl

/-- What an embedder reports on chunks, whatever becomes of the embedder. -/
def reported (embedder : Embedder) (contextualize : Bool) (chunks : List Chunk) (world : World) :
    Online EmbedError EmbeddingReport :=
  ExceptT.mk do return (← EmbeddingReport.of embedder world contextualize chunks).1

/-- The stage that embeds chunks. -/
def embedding (bench : Workbench) (chunks : List Chunk) (embedder : Option Embedder)
    (world : World) : Online RunError (Option EmbeddingReport) :=
  match embedder with
  | none => pure none
  | some embedder =>
      mapError .ofEmbed
          (reported embedder bench.settings.embedding.contextualize chunks world) >>=
        fun report => pure (some report)

theorem run_inSession (action : StateM Session α) (state : RunState) :
    (inSession action).run.run state =
      (.ok (action.run state.session).1,
        { state with session := (action.run state.session).2 }) := rfl

theorem run_reported (embedder : Embedder) (contextualize : Bool) (chunks : List Chunk)
    (world : World) (session : Session) :
    (reported embedder contextualize chunks world).run session =
      (((EmbeddingReport.of embedder world contextualize chunks).run session).1.1,
        ((EmbeddingReport.of embedder world contextualize chunks).run session).2) := rfl

theorem shows_embedChunks (bench : Workbench) (world : World) (chunks : List Chunk)
    (embedder : Option Embedder) (state : RunState) :
    Shows (embedChunks bench world chunks embedder) (embedding bench chunks embedder world)
      state := by
  cases embedder with
  | none => exact ⟨rfl, rfl⟩
  | some embedder =>
      unfold Shows embedChunks embedding
      rw [run_bind, run_inSession, Online.run_bind, run_mapError, run_reported]
      rcases (EmbeddingReport.of embedder world bench.settings.embedding.contextualize
        chunks).run state.session with ⟨⟨result, after⟩, session⟩
      -- The embedder that is left decides who stands in later, and nothing else.
      cases after with
      | openAi service =>
          cases result with
          | error error => exact ⟨rfl, rfl⟩
          | ok report => exact ⟨rfl, rfl⟩
      | mock mock =>
          cases result with
          | error error => exact ⟨rfl, rfl⟩
          | ok report => exact ⟨rfl, rfl⟩

/-! ## Runs -/

/-- Access to the service that a plan is about. -/
def connected (bench : Workbench) (plan : RunPlan) : Except RunError GitHub :=
  (GitHub.connect plan.githubToken bench.settings.github).mapError .ofFetch

/-- The files of a listing that a plan selects. -/
def selected (plan : RunPlan) (files : List ListedFile) : List ListedFile :=
  (select plan.filter plan.maxFiles (·.path) files).files

/-- What a plan makes of the texts of files. -/
def chunked (bench : Workbench) (plan : RunPlan) (sources : List SourceFile) : ChunkReport :=
  ChunkReport.of plan.options bench.parse sources

/-- The result of a run that has come to its end. -/
def concluded (bench : Workbench) (plan : RunPlan) (snapshot : Snapshot) (fetched : FetchedFiles)
    (embedded : Option EmbeddingReport) : RunResult :=
  RunResult.assemble plan.format
    (metadata plan snapshot (select plan.filter plan.maxFiles (·.path) snapshot.files)
      fetched.skipped (chunked bench plan fetched.files) embedded)
    (chunked bench plan fetched.files).chunks ((embedded.map (·.embeddings)).getD [])

/-- What is left of a run that has its snapshot. -/
def building (bench : Workbench) (plan : RunPlan) (standIn : Option Mock) (service : GitHub)
    (snapshot : Snapshot) (world : World) : Online RunError RunResult := do
  let embedder ← MonadExcept.ofExcept (chosen bench plan standIn)
  let fetched ← mapError .ofFetch
    (service.fetchFiles world plan.repository (selected plan snapshot.files))
  let embedded ← embedding bench (chunked bench plan fetched.files).chunks embedder world
  return concluded bench plan snapshot fetched embedded

/-- What is left of a run that has resolved its branch. -/
def proceeding (bench : Workbench) (plan : RunPlan) (standIn : Option Mock) (service : GitHub)
    (commit : GitHub.Commit) (world : World) : Online RunError RunResult := do
  let listing ← mapError .ofFetch (service.list world plan.repository commit)
  building bench plan standIn service (GitHub.snapshotOf plan.repository commit listing) world

/-- The stages of a run as an action of its session. -/
def staged (bench : Workbench) (plan : RunPlan) (standIn : Option Mock) (world : World) :
    Online RunError RunResult := do
  let service ← MonadExcept.ofExcept (connected bench plan)
  let commit ← mapError .ofFetch (service.resolve world plan.repository)
  proceeding bench plan standIn service commit world

/-- A run as an action of its session. -/
def planned (bench : Workbench) (plan : RunPlan) (standIn : Option Mock) (world : World) :
    Online RunError RunResult := do
  checkCancelled .cancelled
  staged bench plan standIn world

section Shown

variable (bench : Workbench) (world : World) (plan : RunPlan) (session : Session)
  (standIn : Option Mock)

theorem mapError_snapshot (service : GitHub) (repository : RepositoryRef)
    (rest : Snapshot → Online RunError α) :
    mapError .ofFetch (service.snapshot world repository) >>= rest =
      mapError .ofFetch (service.resolve world repository) >>= fun commit =>
        mapError .ofFetch (service.list world repository commit) >>= fun listing =>
          rest (GitHub.snapshotOf repository commit listing) := by
  rw [GitHub.snapshot_eq]
  simp only [mapError_bind, bind_assoc]
  rfl

theorem shows_building (service : GitHub) (snapshot : Snapshot) :
    Shows
      (do
        let embedder ← chooseEmbedder bench plan
        let fetched ← online .ofFetch
          (service.fetchFiles world plan.repository (selected plan snapshot.files))
        let embedded ← embedChunks bench world (chunked bench plan fetched.files).chunks embedder
        return concluded bench plan snapshot fetched embedded)
      (building bench plan standIn service snapshot world) ⟨session, standIn⟩ := by
  refine (keeps_chooseEmbedder bench plan ⟨session, standIn⟩).bind fun embedder session => ?_
  refine (keeps_online .ofFetch (service.fetchFiles world plan.repository
    (selected plan snapshot.files)) _).bind fun fetched session => ?_
  exact (shows_embedChunks bench world (chunked bench plan fetched.files).chunks embedder _).map
    (concluded bench plan snapshot fetched)

theorem shows_stages :
    Shows (stages bench world plan) (staged bench plan standIn world) ⟨session, standIn⟩ := by
  refine (keeps_ofExcept (connected bench plan) _).bind fun service session => ?_
  have hStages := (keeps_online .ofFetch (service.snapshot world plan.repository)
    ⟨session, standIn⟩).bind fun snapshot session =>
      shows_building bench world plan session standIn service snapshot
  rw [mapError_snapshot] at hStages
  exact hStages

end Shown

/-- **A run is an action of its session.** -/
theorem run_shows (plan : RunPlan) (bench : Workbench) (world : World) (state : RunState) :
    (plan.run bench world state).1 =
        ((planned bench plan state.standIn world).run state.session).1 ∧
      (plan.run bench world state).2.session =
        ((planned bench plan state.standIn world).run state.session).2 := by
  unfold RunPlan.run planned
  rw [run_checkCancelled]
  split
  · exact ⟨rfl, rfl⟩
  · exact shows_stages bench world plan state.session state.standIn

end SourceIndex.Run
