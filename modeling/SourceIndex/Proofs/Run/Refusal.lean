import SourceIndex.Proofs.Run.Blame
import SourceIndex.Proofs.Run.Confidential

/-!
# Runs that are refused early

What can be refused without asking is refused before anything is asked: a
request that is not valid, and a plan without a token.  A missing model is
found out only when an embedder is chosen, which comes after the snapshot and
before the files; so such a run lists the repository and ends.

A missing key is looked for twice, in validation and where the embedder is
chosen.  Validation looks first and looks at all plans that need a key, so a
valid plan is never refused for its configuration.

## Main results

* `run_of_blank` — a plan without a token.
* `Asked.surveys`, `run_of_unchosen` — a plan without an embedder.
* `chosen_of_ofRequest`, `run_ne_config` — a valid plan has its key.
* `run_refused` — all of these, of a request.
-/

namespace SourceIndex

open Http (World)

namespace RunPlan

variable {request : IndexRequest} {environment : Environment} {plan : RunPlan}

/-- A valid plan that will ask for embeddings has a key for them. -/
theorem exists_key_of_ofRequest (h : ofRequest request environment = .ok plan)
    (hProvider : plan.provider = .openAi) (hNeeds : plan.format.needsEmbeddings = true) :
    ∃ key, plan.openaiApiKey = some key := by
  obtain ⟨_, _, _, strategy, format, provider, filter, _, _, _, _, hKey, rfl⟩ :=
    ofRequest_eq_ok_iff.mp h
  exact Option.ne_none_iff_exists'.mp fun hNone => hKey ⟨hProvider, hNeeds, hNone⟩

end RunPlan

namespace Run

open SourceIndex.Embedding (Embedder Mock OpenAi)

/-! ## Plans without a token -/

section Tokens

variable {bench : Workbench} {plan : RunPlan} {world : World} {state : RunState}

/-- **Without a token a run ends where it starts.** -/
theorem run_of_blank (hRunning : state.session.cancelled = false)
    (hBlank : plan.githubToken.isBlank = true) :
    plan.run bench world state = (.error (.auth "a GitHub token is required"), state) := by
  have hConnect : GitHub.connect plan.githubToken bench.settings.github =
      .error (.auth "a GitHub token is required") := by
    rw [GitHub.connect, if_pos hBlank]
  rw [RunPlan.run, if_neg (by simp [hRunning]), stages, hConnect]
  rfl

/-- With a token a run has access to the repository. -/
theorem exists_connected (bench : Workbench) (hToken : plan.githubToken.isBlank = false) :
    ∃ service, connected bench plan = .ok service := by
  unfold connected GitHub.connect
  rw [if_neg (by simp [hToken])]
  exact ⟨_, rfl⟩

end Tokens

/-! ## Plans without an embedder -/

/-- A request for a commit or for a listing.  It asks neither for a file nor
for embeddings. -/
structure Surveys (service : GitHub) (repository : RepositoryRef) (request : Http.Request) :
    Prop where
  drafted :
    (∃ url, (service.draft .json (service.commitUrl repository)).prepare = .ok (url, request)) ∨
      ∃ sha url, (service.draft .json (service.treeUrl repository sha)).prepare = .ok (url, request)
  noFile : ∀ sha url,
    (service.draft .raw (service.blobUrl repository sha)).prepare ≠ .ok (url, request)
  noEmbedding : ∀ (embedder : OpenAi) batch url,
    (embedder.draft batch).prepare ≠ .ok (url, request)

section Surveys

variable {service : GitHub} {repository : RepositoryRef} {request : Http.Request}

/-- Contents of files are asked for in a form of their own. -/
theorem draft_raw_ne {address other : String} {url found : Url}
    (h : (service.draft .json address).prepare = .ok (url, request)) :
    (service.draft .raw other).prepare ≠ .ok (found, request) := by
  intro hFile
  have hHeaders := (Http.Online.request_of_prepare hFile).2
  rw [(Http.Online.request_of_prepare h).2] at hHeaders
  simp [GitHub.draft, GitHub.Media.name] at hHeaders

/-- Embeddings are posted. -/
theorem draft_batch_ne {address : String} {embedder : OpenAi} {batch : List String}
    {url found : Url} (h : (service.draft .json address).prepare = .ok (url, request)) :
    (embedder.draft batch).prepare ≠ .ok (found, request) := by
  intro hPost
  have hMethod := (Http.Online.request_of_prepare hPost).1
  rw [(Http.Online.request_of_prepare h).1] at hMethod
  cases hMethod

theorem Surveys.commit {url : Url}
    (h : (service.draft .json (service.commitUrl repository)).prepare = .ok (url, request)) :
    Surveys service repository request :=
  ⟨.inl ⟨url, h⟩, fun _ _ => draft_raw_ne h, fun _ _ _ => draft_batch_ne h⟩

theorem Surveys.tree {sha : String} {url : Url}
    (h : (service.draft .json (service.treeUrl repository sha)).prepare = .ok (url, request)) :
    Surveys service repository request :=
  ⟨.inr ⟨sha, url, h⟩, fun _ _ => draft_raw_ne h, fun _ _ _ => draft_batch_ne h⟩

end Surveys

/-- A run that takes its snapshot and ends with an error, that of the snapshot
or the given one. -/
structure Stops (bench : Workbench) (plan : RunPlan) (world : World) (state : RunState)
    (service : GitHub) (refusal : RunError) : Prop where
  connected : connected bench plan = .ok service
  session : (plan.run bench world state).2.session =
    ((service.snapshot world plan.repository).run state.session).2
  failed : ∀ error, ((service.snapshot world plan.repository).run state.session).1 = .error error →
    (plan.run bench world state).1 = .error (.ofFetch error)
  listed : ∀ snapshot,
    ((service.snapshot world plan.repository).run state.session).1 = .ok snapshot →
      (plan.run bench world state).1 = .error refusal
  asked : ∃ sent, (plan.run bench world state).2.session.log = state.session.log ++ sent ∧
    ∀ entry ∈ sent, Surveys service plan.repository entry.request

section Stops

variable {bench : Workbench} {plan : RunPlan} {world : World} {state : RunState}
  {standIn : Option Mock} {service : GitHub} {refusal : RunError}

/-- Such a run never succeeds. -/
theorem Stops.not_ok (h : Stops bench plan world state service refusal) (result : RunResult) :
    (plan.run bench world state).1 ≠ .ok result := by
  intro hRun
  cases hSnapshot : ((service.snapshot world plan.repository).run state.session).1 with
  | error error =>
      rw [h.failed error hSnapshot] at hRun
      cases hRun
  | ok snapshot =>
      rw [h.listed snapshot hSnapshot] at hRun
      cases hRun

/-- The snapshot is all that a run does for which no embedder can be chosen. -/
theorem run_planned_of_unchosen (hRunning : state.session.cancelled = false)
    (hConnected : connected bench plan = .ok service)
    (hChosen : chosen bench plan standIn = .error refusal) :
    (planned bench plan standIn world).run state.session =
      (match ((service.snapshot world plan.repository).run state.session).1 with
        | .error error => .error (.ofFetch error)
        | .ok _ => .error refusal,
      ((service.snapshot world plan.repository).run state.session).2) := by
  rw [planned, Http.Online.run_checkCancelled, hRunning, staged_eq, hConnected]
  show (Http.Online.mapError RunError.ofFetch (service.snapshot world plan.repository) >>=
    fun snapshot => building bench plan standIn service snapshot world).run state.session = _
  rw [Http.Online.run_bind, Http.Online.run_mapError]
  rcases (service.snapshot world plan.repository).run state.session with ⟨error | snapshot, after⟩
  · rfl
  · show (building bench plan standIn service snapshot world).run after = _
    rw [building, hChosen]
    rfl

/-- Without an embedder a run asks for a commit and its listing alone. -/
theorem Asked.surveys {request : Http.Request} (h : Asked bench plan standIn request)
    (hConnected : connected bench plan = .ok service)
    (hChosen : chosen bench plan standIn = .error refusal) :
    Surveys service plan.repository request := by
  cases h with
  | commit hService hPrepare =>
      rw [hConnected] at hService
      cases hService
      exact .commit hPrepare
  | tree hService hPrepare =>
      rw [hConnected] at hService
      cases hService
      exact .tree hPrepare
  | blob _ hSome _ =>
      rw [hChosen] at hSome
      cases hSome
  | batch hSome _ =>
      rw [hChosen] at hSome
      cases hSome

/-- **Without an embedder a run takes its snapshot and ends.** -/
theorem run_of_unchosen (hRunning : state.session.cancelled = false)
    (hConnected : connected bench plan = .ok service)
    (hChosen : chosen bench plan state.standIn = .error refusal) :
    Stops bench plan world state service refusal := by
  obtain ⟨hResult, hSession⟩ := run_shows plan bench world state
  rw [run_planned_of_unchosen hRunning hConnected hChosen] at hResult hSession
  obtain ⟨sent, hLog, hAsked⟩ := run_asked bench plan world state
  refine
    { connected := hConnected
      session := hSession
      failed := fun error hError => ?_
      listed := fun snapshot hSnapshot => ?_
      asked := ⟨sent, hLog, fun entry hEntry =>
        (hAsked entry hEntry).surveys hConnected hChosen⟩ }
  · rw [hResult, hError]
  · rw [hResult, hSnapshot]

/-- There is no model to embed on this machine. -/
theorem chosen_of_localModel (bench : Workbench) (hNeeds : plan.format.needsEmbeddings = true)
    (hProvider : plan.provider = .localModel) :
    chosen bench plan none =
      .error (.ofEmbed (Embedder.modelMissing bench.settings.embedding.localModel)) := by
  unfold chosen embedderFor
  rw [if_pos hNeeds, hProvider]
  rfl

end Stops

/-! ## Plans without a key -/

section Keys

variable {request : IndexRequest} {environment : Environment} {bench : Workbench} {plan : RunPlan}
  {world : World} {state : RunState}

/-- **An embedder is chosen for a valid plan, or its model is missing.** -/
theorem chosen_of_ofRequest (bench : Workbench) (standIn : Option Mock)
    (h : RunPlan.ofRequest request environment = .ok plan) :
    (∃ embedder, chosen bench plan standIn = .ok embedder) ∨
      ∃ detail, chosen bench plan standIn = .error (.modelLoad detail) := by
  cases hNeeds : plan.format.needsEmbeddings with
  | false => exact .inl ⟨none, chosen_of_unembedded standIn hNeeds⟩
  | true =>
      unfold chosen embedderFor
      rw [if_pos hNeeds]
      cases standIn with
      | some mock => exact .inl ⟨_, rfl⟩
      | none =>
          cases hProvider : plan.provider with
          | localModel => exact .inr ⟨_, rfl⟩
          | openAi =>
              obtain ⟨key, hKey⟩ := RunPlan.exists_key_of_ofRequest h hProvider hNeeds
              rw [hKey]
              exact .inl ⟨_, rfl⟩

/-- A valid plan is not refused for its configuration. -/
theorem run_ne_config (h : RunPlan.ofRequest request environment = .ok plan) (detail : String) :
    (plan.run bench world state).1 ≠ .error (.config detail) := by
  intro hRun
  have hConfig := (run_blamed hRun).config
  rcases chosen_of_ofRequest bench state.standIn h with ⟨embedder, hOk⟩ | ⟨found, hError⟩
  · rw [hOk] at hConfig
    cases hConfig
  · rw [hError] at hConfig
    cases hConfig

end Keys

/--
**What can be refused early is.**  A request that is not valid is a bad
configuration and asks for nothing; a valid one without a token is not
authorised and asks for nothing.  With a token, but without the model that it
needs, a run takes its snapshot, asks for no file and no embeddings, and ends
with the error of the snapshot or else with that of the model.  The key that an
embedder needs is there in every valid plan.
-/
theorem run_refused (request : IndexRequest) (environment : Environment) (bench : Workbench)
    (world : World) (state : RunState) (hRunning : state.session.cancelled = false) :
    (∀ error, RunPlan.ofRequest request environment = .error error →
      (∃ detail, error = .config detail) ∧
        request.run environment bench world state = (.error error, state)) ∧
    ∀ plan, RunPlan.ofRequest request environment = .ok plan →
      (plan.githubToken.isBlank = true → request.run environment bench world state =
        (.error (.auth "a GitHub token is required"), state)) ∧
      (plan.githubToken.isBlank = false → plan.format.needsEmbeddings = true →
        plan.provider = .localModel → state.standIn = none →
        request.run environment bench world state = plan.run bench world state ∧
        (∀ result, (plan.run bench world state).1 ≠ .ok result) ∧
        ∃ service detail, Stops bench plan world state service (.modelLoad detail)) ∧
      (∀ standIn, chosen bench plan standIn ≠ .error RunPlan.missingKey) ∧
      ∀ detail, (request.run environment bench world state).1 ≠ .error (.config detail) := by
  constructor
  · intro error hInvalid
    refine ⟨(RunPlan.fault_of_ofRequest hInvalid).config, ?_⟩
    rw [IndexRequest.run, hInvalid]
  · intro plan hPlan
    have hRun : request.run environment bench world state = plan.run bench world state := by
      rw [IndexRequest.run, hPlan]
    rw [hRun]
    refine ⟨run_of_blank hRunning, ?_, ?_, run_ne_config hPlan⟩
    · intro hToken hNeeds hProvider hAlone
      obtain ⟨service, hConnected⟩ := exists_connected bench hToken
      have hChosen := chosen_of_localModel bench hNeeds hProvider
      rw [← hAlone] at hChosen
      have hStops : Stops bench plan world state service _ :=
        run_of_unchosen hRunning hConnected hChosen
      exact ⟨rfl, hStops.not_ok, service, _, hStops⟩
    · intro standIn
      rcases chosen_of_ofRequest bench standIn hPlan with ⟨embedder, hOk⟩ | ⟨detail, hError⟩
      · rw [hOk]
        exact nofun
      · rw [hError]
        exact nofun

/-! ### Requests without a key, without a token and without a model -/

namespace Moving

def keylessRequest : IndexRequest := { request with openaiApiKey := none }

def tokenlessRequest : IndexRequest :=
  { request with credentials := { githubToken := some ⟨" "⟩, openaiApiKey := none } }

def tokenlessPlan : RunPlan := { plan with githubToken := ⟨""⟩, openaiApiKey := some ⟨"k"⟩ }

def modellessRequest : IndexRequest := { request with embeddingProvider := " Local" }

def modellessPlan : RunPlan :=
  { plan with githubToken := ⟨" t "⟩, openaiApiKey := some ⟨"k"⟩, provider := .localModel }

theorem ofRequest_keyless :
    RunPlan.ofRequest keylessRequest (fun _ => none) = .error RunPlan.missingKey := by rfl

theorem ofRequest_tokenless :
    RunPlan.ofRequest tokenlessRequest (fun _ => none) = .ok tokenlessPlan := by rfl

theorem ofRequest_modelless :
    RunPlan.ofRequest modellessRequest (fun _ => none) = .ok modellessPlan := by rfl

end Moving

open Moving in
theorem run_refused_moving :
    (RunState.mk (.start false) none).session.cancelled = false ∧
    (RunPlan.ofRequest keylessRequest (fun _ => none) = .error RunPlan.missingKey ∧
      keylessRequest.run (fun _ => none) bench world ⟨.start false, none⟩ =
        (.error RunPlan.missingKey, ⟨.start false, none⟩)) ∧
    (RunPlan.ofRequest tokenlessRequest (fun _ => none) = .ok tokenlessPlan ∧
      tokenlessPlan.githubToken.isBlank = true ∧
      tokenlessRequest.run (fun _ => none) bench world ⟨.start false, none⟩ =
        (.error (.auth "a GitHub token is required"), ⟨.start false, none⟩)) ∧
    (RunPlan.ofRequest modellessRequest (fun _ => none) = .ok modellessPlan ∧
      modellessPlan.githubToken.isBlank = false ∧
      modellessPlan.format.needsEmbeddings = true ∧ modellessPlan.provider = .localModel ∧
      ∃ service detail,
        Stops bench modellessPlan world ⟨.start false, none⟩ service (.modelLoad detail)) ∧
    ∀ detail, (tokenlessRequest.run (fun _ => none) bench world ⟨.start false, none⟩).1 ≠
      .error (.config detail) := by
  obtain ⟨hKeyless, _⟩ :=
    run_refused keylessRequest (fun _ => none) bench world ⟨.start false, none⟩ rfl
  obtain ⟨_, hTokenless⟩ :=
    run_refused tokenlessRequest (fun _ => none) bench world ⟨.start false, none⟩ rfl
  obtain ⟨_, hModelless⟩ :=
    run_refused modellessRequest (fun _ => none) bench world ⟨.start false, none⟩ rfl
  obtain ⟨hBlank, _, _, hConfig⟩ := hTokenless tokenlessPlan ofRequest_tokenless
  obtain ⟨_, hModel, _⟩ := hModelless modellessPlan ofRequest_modelless
  have hToken : modellessPlan.githubToken.isBlank = false := by decide
  exact ⟨rfl, ⟨ofRequest_keyless, (hKeyless _ ofRequest_keyless).2⟩,
    ⟨ofRequest_tokenless, by decide, hBlank (by decide)⟩,
    ⟨ofRequest_modelless, hToken, rfl, rfl, (hModel hToken rfl rfl rfl).2.2⟩, hConfig⟩

end Run

end SourceIndex
