import SourceIndex.Proofs.Run.Blame
import SourceIndex.Proofs.Run.Confidential

/-!
# Runs without embeddings

A request for metadata or chunks tells a provider, a key and settings for
embeddings as well, and takes no notice of them.  Validation looks at the key
only for a format that needs embeddings, and so does the run before it chooses
an embedder: that both look at the same formats is what makes two such
requests the same.

## Main results

* `RunPlan.ofRequest_embeddedBy` — such requests are validated alike.
* `Run.stages_embeddedBy` — their plans have the same stages.
* `Run.Asked.get` — nothing is posted.
* `Run.run_unembedded` — such requests are run alike.
-/

namespace SourceIndex

open Http (World)

/-- A request without what only embeddings need. -/
def IndexRequest.withoutEmbeddings (request : IndexRequest) : IndexRequest :=
  { request with
    credentials := { request.credentials with openaiApiKey := none }
    openaiApiKey := none
    embeddingProvider := "" }

/-- Two requests in two environments, for metadata or chunks, that differ in
how they would embed chunks alone. -/
structure IndexRequest.Unembedded (request other : IndexRequest)
    (environment elsewhere : Environment) : Prop where
  rest : request.withoutEmbeddings = other.withoutEmbeddings
  environment : ∀ name, name ≠ "OPENAI_API_KEY" → environment name = elsewhere name
  format : OutputFormat.ofName? request.outputFormat = some .metadata ∨
    OutputFormat.ofName? request.outputFormat = some .chunks
  provider : (Provider.ofName? request.embeddingProvider).isSome = true
  otherProvider : (Provider.ofName? other.embeddingProvider).isSome = true

/-- Two workbenches that differ in the settings for embeddings alone. -/
structure Workbench.FetchesAs (bench other : Workbench) : Prop where
  github : bench.settings.github = other.settings.github
  parse : bench.parse = other.parse

namespace RunPlan

/-- The same plan with another way of embedding. -/
def embeddedBy (plan : RunPlan) (provider : Provider) (key : Option Secret) : RunPlan :=
  { plan with provider, openaiApiKey := key }

/-- A plan without what only embeddings need. -/
def withoutEmbeddings (plan : RunPlan) : RunPlan := plan.embeddedBy .localModel none

/-! ## Validation -/

section Validation

variable {request other : IndexRequest} {environment elsewhere : Environment}

theorem needsEmbeddings_of_unembedded
    (h : request.Unembedded other environment elsewhere) :
    ∃ format, OutputFormat.ofName? request.outputFormat = some format ∧
      format.needsEmbeddings = false := by
  rcases h.format with hFormat | hFormat
  · exact ⟨.metadata, hFormat, rfl⟩
  · exact ⟨.chunks, hFormat, rfl⟩

/-- **Without embeddings the way of embedding is not validated**, as long as
the provider has a known name. -/
theorem ofRequest_embeddedBy (h : request.Unembedded other environment elsewhere) :
    ∃ provider key, ofRequest other elsewhere =
      (ofRequest request environment).map (·.embeddedBy provider key) := by
  obtain ⟨format, hFormat, hNeeds⟩ := needsEmbeddings_of_unembedded h
  obtain ⟨provider, hProvider⟩ := Option.isSome_iff_exists.mp h.provider
  obtain ⟨otherProvider, hOtherProvider⟩ := Option.isSome_iff_exists.mp h.otherProvider
  have hRest := h.rest
  unfold IndexRequest.withoutEmbeddings at hRest
  rw [IndexRequest.mk.injEq, Credentials.mk.injEq] at hRest
  obtain ⟨hOwner, hRepo, hBranch, ⟨hGiven, -⟩, hToken, -, -, hOutput, hFiles, hExtensions,
    hExclude, hDocstrings, hStrategy⟩ := hRest
  have hSources : githubSources request environment = githubSources other elsewhere := by
    rw [githubSources, githubSources, hGiven, hToken, h.environment "GITHUB_TOKEN" (by decide)]
  refine ⟨otherProvider, firstNonBlank? (openaiSources other elsewhere), ?_⟩
  unfold ofRequest
  rw [hSources, hFormat, hProvider, hOtherProvider, ← hOutput, hFormat, hOwner, hRepo, hBranch,
    hFiles, hExtensions, hExclude, hDocstrings, hStrategy]
  rcases requireText "owner" other.owner with error | _
  · rfl
  rcases requireText "repo" other.repo with error | _
  · rfl
  rcases requireText "branch" other.branch with error | _
  · rfl
  rcases requireName "chunkStrategy" other.chunkStrategy "file, class or function"
    (Strategy.ofName? other.chunkStrategy) with error | strategy
  · rfl
  rcases (FileFilter.ofLists other.fileExtensions other.excludePatterns).mapError
    RunError.ofIndex with error | filter
  · rfl
  -- No key is asked for, whoever would embed the chunks.
  have hSkipped : ∀ (asked : Provider) (key : Option Secret),
      ¬ (asked = .openAi ∧ format.needsEmbeddings = true ∧ key = none) := by
    simp [hNeeds]
  show (if _ then _ else _) = Except.map _ (if _ then _ else _)
  rw [if_neg (hSkipped otherProvider _), if_neg (hSkipped provider _)]
  rfl

/-- Such requests are validated alike: both or neither has a plan, and the
plans differ in how they would embed chunks alone. -/
theorem ofRequest_withoutEmbeddings (h : request.Unembedded other environment elsewhere) :
    (ofRequest request environment).map withoutEmbeddings =
      (ofRequest other elsewhere).map withoutEmbeddings := by
  obtain ⟨provider, key, hOther⟩ := ofRequest_embeddedBy h
  rw [hOther]
  cases ofRequest request environment with
  | error error => rfl
  | ok plan => rfl

end Validation

end RunPlan

namespace Run

open SourceIndex.Embedding (Mock)

/-! ## Stages -/

section Stages

variable {bench other : Workbench} {plan : RunPlan} {standIn : Option Mock} {world : World}

theorem chooseEmbedder_of_unembedded (bench : Workbench)
    (hNeeds : plan.format.needsEmbeddings = false) : chooseEmbedder bench plan = pure none := by
  rw [chooseEmbedder, if_neg (by simp [hNeeds])]

/-- **Without embeddings a run has the same stages** whoever would embed. -/
theorem stages_embeddedBy (hNeeds : plan.format.needsEmbeddings = false)
    (hBenches : bench.FetchesAs other) (world : World) (provider : Provider)
    (key : Option Secret) :
    stages bench world plan = stages other world (plan.embeddedBy provider key) := by
  have hOther : (plan.embeddedBy provider key).format.needsEmbeddings = false := hNeeds
  unfold stages
  rw [chooseEmbedder_of_unembedded bench hNeeds, chooseEmbedder_of_unembedded other hOther,
    hBenches.github, hBenches.parse]
  simp only [pure_bind]
  rfl

theorem run_embeddedBy (hNeeds : plan.format.needsEmbeddings = false)
    (hBenches : bench.FetchesAs other) (world : World) (state : RunState) (provider : Provider)
    (key : Option Secret) :
    plan.run bench world state = (plan.embeddedBy provider key).run other world state := by
  rw [RunPlan.run, RunPlan.run, stages_embeddedBy hNeeds hBenches world provider key]

/-- Without embeddings nothing is posted. -/
theorem Asked.get {request : Http.Request} (h : Asked bench plan standIn request)
    (hNeeds : plan.format.needsEmbeddings = false) : request.method = .get := by
  cases h with
  | commit _ hPrepare => exact (Http.Online.request_of_prepare hPrepare).1
  | tree _ hPrepare => exact (Http.Online.request_of_prepare hPrepare).1
  | blob _ _ hPrepare => exact (Http.Online.request_of_prepare hPrepare).1
  | batch hChosen _ =>
      rw [chosen_of_unembedded standIn hNeeds] at hChosen
      cases hChosen

end Stages

/-! ## Requests -/

section Requests

variable {request other : IndexRequest} {environment elsewhere : Environment}

/-- The plan of such a request needs no embeddings. -/
theorem needsEmbeddings_of_ofRequest {plan : RunPlan}
    (h : request.Unembedded other environment elsewhere)
    (hPlan : RunPlan.ofRequest request environment = .ok plan) :
    plan.format.needsEmbeddings = false := by
  obtain ⟨format, hFormat, hNeeds⟩ := RunPlan.needsEmbeddings_of_unembedded h
  obtain ⟨_, _, _, _, found, _, _, _, hFound, _, _, _, rfl⟩ := RunPlan.ofRequest_eq_ok_iff.mp hPlan
  rw [hFormat] at hFound
  cases hFound
  exact hNeeds

/-- The errors of such a request: another fault than a missing key, cancelling,
and the errors of the repository. -/
theorem errs_of_unembedded {error : RunError} (bench : Workbench) (world : World)
    (state : RunState) (h : request.Unembedded other environment elsewhere)
    (hError : (request.run environment bench world state).1 = .error error) :
    error ≠ RunPlan.missingKey ∧
      (RunPlan.ofRequest request environment = .error error ∨ error = .cancelled ∨
        ∃ found, error = .ofFetch found) := by
  unfold IndexRequest.run at hError
  cases hPlan : RunPlan.ofRequest request environment with
  | error found =>
      rw [hPlan] at hError
      cases hError
      refine ⟨?_, .inl rfl⟩
      rintro rfl
      obtain ⟨format, hFormat, hNeeds⟩ := RunPlan.needsEmbeddings_of_unembedded h
      obtain ⟨found, hFound, hNeeded⟩ := (RunPlan.fault_of_ofRequest hPlan).needsEmbeddings
      rw [hFormat] at hFound
      cases hFound
      rw [hNeeds] at hNeeded
      cases hNeeded
  | ok plan =>
      rw [hPlan] at hError
      rcases (run_blamed hError).of_unembedded (needsEmbeddings_of_ofRequest h hPlan) with
        rfl | ⟨found, rfl⟩
      · exact ⟨RunError.noConfusion, .inr (.inl rfl)⟩
      · refine ⟨?_, .inr (.inr ⟨found, rfl⟩)⟩
        cases found <;> exact RunError.noConfusion

/--
**Runs without embeddings do not depend on how they would embed.**  Two
requests for metadata or chunks that differ in their providers, their keys and
the settings for embeddings alone are validated alike and run alike: they have
the same outcome and leave the same log.  They post nothing, and neither a
missing key nor a missing model nor an embedder is to blame where they fail.
-/
theorem run_unembedded {bench otherBench : Workbench} (world : World) (state : RunState)
    (hRequests : request.Unembedded other environment elsewhere)
    (hBenches : bench.FetchesAs otherBench) :
    (RunPlan.ofRequest request environment).map RunPlan.withoutEmbeddings =
        (RunPlan.ofRequest other elsewhere).map RunPlan.withoutEmbeddings ∧
      request.run environment bench world state = other.run elsewhere otherBench world state ∧
      (∃ sent, (request.run environment bench world state).2.session.log =
          state.session.log ++ sent ∧ ∀ entry ∈ sent, entry.request.method = .get) ∧
      ∀ error, (request.run environment bench world state).1 = .error error →
        error ≠ RunPlan.missingKey ∧
          (RunPlan.ofRequest request environment = .error error ∨ error = .cancelled ∨
            ∃ found, error = .ofFetch found) := by
  refine ⟨RunPlan.ofRequest_withoutEmbeddings hRequests, ?_, ?_,
    fun error => errs_of_unembedded bench world state hRequests⟩
  · obtain ⟨provider, key, hOther⟩ := RunPlan.ofRequest_embeddedBy hRequests
    unfold IndexRequest.run
    rw [hOther]
    cases hPlan : RunPlan.ofRequest request environment with
    | error error => rfl
    | ok plan =>
        exact run_embeddedBy (needsEmbeddings_of_ofRequest hRequests hPlan) hBenches world state
          provider key
  · unfold IndexRequest.run
    cases hPlan : RunPlan.ofRequest request environment with
    | error error => exact ⟨[], (List.append_nil _).symm, fun _ h => (by cases h)⟩
    | ok plan =>
        obtain ⟨sent, hLog, hAsked⟩ := run_asked bench plan world state
        exact ⟨sent, hLog, fun entry hEntry =>
          (hAsked entry hEntry).get (needsEmbeddings_of_ofRequest hRequests hPlan)⟩

end Requests

/-! ### Chunks for a request with a key and one without -/

namespace Moving

def chunksRequest : IndexRequest := { request with outputFormat := "chunks" }

/-- No key is told, and there is no model. -/
def localRequest : IndexRequest :=
  { chunksRequest with openaiApiKey := none, embeddingProvider := "local" }

/-- Nothing can be posted to this workbench. -/
def unusableBench : Workbench :=
  { bench with
    settings := { bench.settings with
      embedding := { bench.settings.embedding with openaiBaseUrl := ":" } } }

theorem unembedded :
    chunksRequest.Unembedded localRequest (fun _ => none) (fun _ => none) :=
  { rest := rfl
    environment := fun _ _ => rfl
    format := .inr (by decide)
    provider := by decide
    otherProvider := by decide }

theorem fetchesAs : bench.FetchesAs unusableBench := ⟨rfl, rfl⟩

end Moving

open Moving (bench world chunksRequest localRequest unusableBench) in
theorem run_unembedded_moving :
    (chunksRequest.Unembedded localRequest (fun _ => none) (fun _ => none) ∧
        bench.FetchesAs unusableBench) ∧
      (RunPlan.ofRequest chunksRequest fun _ => none).map RunPlan.withoutEmbeddings =
        (RunPlan.ofRequest localRequest fun _ => none).map RunPlan.withoutEmbeddings ∧
      chunksRequest.run (fun _ => none) bench world ⟨.start false, none⟩ =
        localRequest.run (fun _ => none) unusableBench world ⟨.start false, none⟩ ∧
      (∃ sent, (chunksRequest.run (fun _ => none) bench world ⟨.start false, none⟩).2.session.log =
          [] ++ sent ∧ ∀ entry ∈ sent, entry.request.method = .get) ∧
      ∀ error,
        (chunksRequest.run (fun _ => none) bench world ⟨.start false, none⟩).1 = .error error →
        error ≠ RunPlan.missingKey ∧
          (RunPlan.ofRequest chunksRequest (fun _ => none) = .error error ∨ error = .cancelled ∨
            ∃ found, error = .ofFetch found) :=
  ⟨⟨Moving.unembedded, Moving.fetchesAs⟩,
    run_unembedded world ⟨.start false, none⟩ Moving.unembedded Moving.fetchesAs⟩

end Run

end SourceIndex
