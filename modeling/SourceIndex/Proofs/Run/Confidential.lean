import SourceIndex.Proofs.Http.Blind
import SourceIndex.Proofs.Run.Trace
import SourceIndex.Proofs.Run.Validation

/-!
# Secrets stay in their headers

A run uses a token for the repository and a key for embeddings.  Two runs that
differ in these alone match, stage by stage, in every world that does not look
at them: the services are asked the same, receive the same and make the same
of it.  So neither a result nor an error nor any part of a request tells
anything of a secret, the header apart that is there to carry it.

## Main results

* `GitHub.fetchFiles_matching`, `OpenAi.embed_matching` — services with two
  secrets.
* `planned_matching` — plans with two pairs of secrets.
* `ofRequest_withSecrets` — validation takes no notice of what a secret is.
* `Asked.carries` — which secret a request carries.
* `run_confidential` — requests with two pairs of secrets.
-/

namespace SourceIndex

open Http Http.Online

/-! ## The repository -/

namespace GitHub

/-- The same service with another token. -/
def withToken (service : GitHub) (token : String) : GitHub := { service with token }

section Tokens

variable {service : GitHub} {token : String} {world : World}

/-- A request is the same with another token, as long as both can be sent. -/
theorem draft_twins (hToken : Draft.isHeaderValue service.token = true)
    (hOther : Draft.isHeaderValue token = true) (media : Media) (url : String) :
    (service.draft media url).Twins ((service.withToken token).draft media url) :=
  ⟨hToken, hOther, rfl⟩

variable (hBlind : world.Blind) (hToken : Draft.isHeaderValue service.token = true)
  (hOther : Draft.isHeaderValue token = true)
include hBlind hToken hOther

theorem get_matching (media : Media) (url : String) :
    Matching (service.get world media url) ((service.withToken token).get world media url) :=
  retry_matching hBlind (draft_twins hToken hOther media url) FetchError.cancelled
    (service.judge url) service.settings.maxRetries 0

theorem getJson_matching {α : Type} (decoder : Json.Decoder α) (url : String) :
    Matching (service.getJson world decoder url)
      ((service.withToken token).getJson world decoder url) := by
  rw [getJson_eq, getJson_eq]
  exact (get_matching hBlind hToken hOther .json url).bind fun body =>
    Matching.ofExcept (decoded decoder url body)

theorem resolve_matching (repository : RepositoryRef) :
    Matching (service.resolve world repository)
      ((service.withToken token).resolve world repository) :=
  getJson_matching hBlind hToken hOther _ _

theorem list_matching (repository : RepositoryRef) (commit : Commit) :
    Matching (service.list world repository commit)
      ((service.withToken token).list world repository commit) :=
  getJson_matching hBlind hToken hOther _ _

theorem fetchFile_matching (repository : RepositoryRef) (file : ListedFile) :
    Matching (service.fetchFile world repository file)
      ((service.withToken token).fetchFile world repository file) := by
  by_cases hLarge : service.settings.maxFileBytes < file.size
  · have hSame : (service.withToken token).settings.maxFileBytes < file.size := hLarge
    rw [fetchFile_large world hLarge, fetchFile_large world hSame]
    exact Matching.pure _
  · have hSame : ¬ (service.withToken token).settings.maxFileBytes < file.size := hLarge
    rw [fetchFile_fits world hLarge, fetchFile_fits world hSame]
    exact (get_matching hBlind hToken hOther .raw (service.blobUrl repository file.sha)).bind
      fun body => Matching.pure (sorted file body)

theorem fetchFiles_matching (repository : RepositoryRef) (files : List ListedFile) :
    Matching (service.fetchFiles world repository files)
      ((service.withToken token).fetchFiles world repository files) := by
  induction files with
  | nil => exact Matching.pure _
  | cons file rest ih =>
      rw [fetchFiles_cons, fetchFiles_cons]
      exact (fetchFile_matching hBlind hToken hOther repository file).bind fun found =>
        ih.bind fun others => Matching.pure (joined found others)

end Tokens

end GitHub

/-! ## Embeddings -/

namespace Embedding

namespace OpenAi

/-- The same service with another key. -/
def withKey (service : OpenAi) (key : Secret) : OpenAi := { service with key }

section Keys

variable {service : OpenAi} {key : Secret} {world : World}

theorem draft_twins (hKey : Draft.isHeaderValue service.key.exposed = true)
    (hOther : Draft.isHeaderValue key.exposed = true) (texts : List String) :
    (service.draft texts).Twins ((service.withKey key).draft texts) :=
  ⟨hKey, hOther, rfl⟩

variable (hBlind : world.Blind) (hKey : Draft.isHeaderValue service.key.exposed = true)
  (hOther : Draft.isHeaderValue key.exposed = true)
include hBlind hKey hOther

theorem embedBatch_matching (texts : List String) :
    Matching (service.embedBatch world texts) ((service.withKey key).embedBatch world texts) :=
  Matching.bind
    (retry_matching hBlind (draft_twins hKey hOther texts) EmbedError.cancelled judge
      service.limits.maxRetries 0)
    fun reply => Matching.ofExcept (read texts.length reply)

theorem embedBatches_matching (texts : List String) (ranges : List Range) :
    Mirrored (fun session => (service.embedBatches world texts ranges).run session)
      fun session => ((service.withKey key).embedBatches world texts ranges).run session := by
  induction ranges with
  | nil =>
      intro session other hSame
      exact ⟨rfl, hSame⟩
  | cons range rest ih =>
      intro session other hSame
      obtain ⟨hResult, hAfter⟩ :=
        embedBatch_matching hBlind hKey hOther (range.pick texts) session other hSame
      obtain ⟨hResults, hLeft⟩ := ih _ _ hAfter
      dsimp only at hResult hResults hLeft ⊢
      rw [embedBatches_cons, embedBatches_cons]
      refine ⟨?_, hLeft⟩
      rw [hResult, hResults]

theorem embed_matching (texts : List String) :
    Matching (service.embed world texts) ((service.withKey key).embed world texts) := by
  intro session other hSame
  obtain ⟨hResults, hAfter⟩ := embedBatches_matching hBlind hKey hOther (service.inputs texts)
    (service.batches (service.inputs texts)) session other hSame
  dsimp only
  rw [embed_eq, embed_eq]
  exact ⟨congrArg (fun found => (found.mapM soften).map Output.collect) hResults, hAfter⟩

end Keys

end OpenAi

/-- Embedders that differ in a key alone, if they have one. -/
inductive Embedder.Twins : Embedder → Embedder → Prop where
  | openAi {service : OpenAi} {key : Secret} :
      Draft.isHeaderValue service.key.exposed = true → Draft.isHeaderValue key.exposed = true →
      Twins (.openAi service) (.openAi (service.withKey key))
  | mock (mock : Mock) : Twins (.mock mock) (.mock mock)

theorem Embedder.Twins.embed_matching {embedder twin : Embedder} {world : World}
    (hBlind : world.Blind) (h : embedder.Twins twin) (texts : List String) :
    Mirrored (fun session => (((embedder.embed world texts).run session).1.1,
        ((embedder.embed world texts).run session).2))
      fun session => (((twin.embed world texts).run session).1.1,
        ((twin.embed world texts).run session).2) := by
  cases h with
  | openAi hKey hOther => exact OpenAi.embed_matching hBlind hKey hOther texts
  | mock mock =>
      intro session other hSame
      refine ⟨?_, hSame⟩
      show (mock.embed session.cancelled texts).1 = (mock.embed other.cancelled texts).1
      rw [Session.cancelled_eq hSame]

end Embedding

namespace RunPlan

/-- The same plan with other secrets. -/
def withSecrets (plan : RunPlan) (token : Secret) (key : Option Secret) : RunPlan :=
  { plan with githubToken := token, openaiApiKey := key }

end RunPlan

/-- A token that a service takes: it is not blank and can be sent in a header. -/
def Secret.IsToken (secret : Secret) : Prop :=
  secret.isBlank = false ∧ Draft.isHeaderValue (Text.trimmed secret.exposed) = true

/-- Neither of two runs has a key, or both have one that can be sent. -/
inductive Secret.SameKey : Option Secret → Option Secret → Prop where
  | none : SameKey none none
  | some {key other : Secret} :
      Draft.isHeaderValue key.exposed = true → Draft.isHeaderValue other.exposed = true →
      SameKey (some key) (some other)

theorem Secret.SameKey.isSome_eq {key other : Option Secret} (h : SameKey key other) :
    key.isSome = other.isSome := by
  cases h with
  | none => rfl
  | some _ _ => rfl

namespace Run

open SourceIndex.Embedding (Embedder Mock OpenAi)

/-! ## Stages -/

section Stages

variable {bench : Workbench} {plan : RunPlan} {standIn : Option Mock} {world : World}
  (hBlind : world.Blind)
include hBlind

theorem reported_matching {embedder twin : Embedder} (h : embedder.Twins twin)
    (contextualize : Bool) (chunks : List Chunk) :
    Matching (reported embedder contextualize chunks world)
      (reported twin contextualize chunks world) := by
  have hName : embedder.name = twin.name := by
    cases h with
    | openAi _ _ => rfl
    | mock _ => rfl
  have hModel : embedder.model = twin.model := by
    cases h with
    | openAi _ _ => rfl
    | mock _ => rfl
  by_cases hChunks : chunks = []
  · subst hChunks
    rw [reported_nil, reported_nil, hName, hModel]
    exact Matching.pure _
  · intro session other hSame
    obtain ⟨hOutput, hAfter⟩ :=
      h.embed_matching hBlind (textsOf contextualize chunks) session other hSame
    dsimp only at hOutput hAfter ⊢
    rw [run_reported_cons _ _ _ _ hChunks, run_reported_cons _ _ _ _ hChunks, hName, hModel]
    exact ⟨congrArg (Except.map _) hOutput, hAfter⟩

theorem embedding_matching {embedder twin : Embedder} (h : embedder.Twins twin)
    (chunks : List Chunk) :
    Matching (embedding bench chunks (some embedder) world)
      (embedding bench chunks (some twin) world) :=
  ((reported_matching hBlind h bench.settings.embedding.contextualize chunks).mapError
    RunError.ofEmbed).bind fun report => Matching.pure (some report)

end Stages

section Plans

variable {bench : Workbench} {plan : RunPlan} {standIn : Option Mock} {world : World}
  {token : Secret} {key : Option Secret}

/-- A token is all that access to the repository needs. -/
theorem connected_withSecrets (bench : Workbench) (key : Option Secret)
    (hToken : plan.githubToken.IsToken) (hOther : token.IsToken) :
    ∃ service, connected bench plan = .ok service ∧
      service.token = Text.trimmed plan.githubToken.exposed ∧
      connected bench (plan.withSecrets token key) =
        .ok (service.withToken (Text.trimmed token.exposed)) := by
  refine ⟨{ base := GitHub.withoutSlashes bench.settings.github.apiUrl
            token := Text.trimmed plan.githubToken.exposed
            settings := bench.settings.github }, ?_, rfl, ?_⟩
  · rw [connected, GitHub.connect, hToken.1]
    rfl
  · rw [connected, GitHub.connect, show (plan.withSecrets token key).githubToken = token from rfl,
      hOther.1]
    rfl

/-- Which embedder is chosen does not depend on what its key is. -/
theorem chosen_withSecrets (hKey : Secret.SameKey plan.openaiApiKey key) :
    (∃ error, chosen bench plan standIn = .error error ∧
      chosen bench (plan.withSecrets token key) standIn = .error error) ∨
    (chosen bench plan standIn = .ok none ∧
      chosen bench (plan.withSecrets token key) standIn = .ok none) ∨
    ∃ embedder twin, chosen bench plan standIn = .ok (some embedder) ∧
      chosen bench (plan.withSecrets token key) standIn = .ok (some twin) ∧
      embedder.Twins twin := by
  have hFormat : (plan.withSecrets token key).format = plan.format := rfl
  unfold chosen embedderFor
  rw [hFormat]
  cases plan.format.needsEmbeddings with
  | false => exact .inr (.inl ⟨rfl, rfl⟩)
  | true =>
      rw [if_pos rfl, if_pos rfl]
      cases standIn with
      | some mock => exact .inr (.inr ⟨_, _, rfl, rfl, .mock mock⟩)
      | none =>
          have hProvider : (plan.withSecrets token key).provider = plan.provider := rfl
          have hOpenAi : (plan.withSecrets token key).openaiApiKey = key := rfl
          dsimp only
          rw [hProvider, hOpenAi]
          generalize plan.openaiApiKey = planKey at hKey
          cases plan.provider with
          | localModel => exact .inl ⟨_, rfl, rfl⟩
          | openAi =>
              cases hKey with
              | none => exact .inl ⟨_, rfl, rfl⟩
              | some hSent hOther => exact .inr (.inr ⟨_, _, rfl, rfl, .openAi hSent hOther⟩)

variable (hBlind : world.Blind)
include hBlind

theorem building_matching {service : GitHub} {other : String}
    (hToken : Draft.isHeaderValue service.token = true)
    (hOther : Draft.isHeaderValue other = true)
    (hKey : Secret.SameKey plan.openaiApiKey key) (snapshot : Snapshot) :
    Matching (building bench plan standIn service snapshot world)
      (building bench (plan.withSecrets token key) standIn (service.withToken other) snapshot
        world) := by
  have hFetch := (GitHub.fetchFiles_matching hBlind hToken hOther plan.repository
    (selected plan snapshot.files)).mapError RunError.ofFetch
  unfold building
  rcases chosen_withSecrets hKey with
    ⟨error, hChosen, hTwin⟩ | ⟨hChosen, hTwin⟩ | ⟨embedder, twin, hChosen, hTwin, hTwins⟩
  · rw [hChosen, hTwin]
    exact Matching.bind_error error
  · rw [hChosen, hTwin]
    refine Matching.bind_ok (hFetch.bind fun fetched => ?_)
    exact (Matching.pure (none : Option EmbeddingReport)).bind fun embedded =>
      Matching.pure (concluded bench plan snapshot fetched embedded)
  · rw [hChosen, hTwin]
    refine Matching.bind_ok (hFetch.bind fun fetched => ?_)
    exact (embedding_matching hBlind hTwins (chunked bench plan fetched.files).chunks).bind
      fun embedded => Matching.pure (concluded bench plan snapshot fetched embedded)

/-- **Plans with two pairs of secrets match.** -/
theorem planned_matching (hToken : plan.githubToken.IsToken) (hOther : token.IsToken)
    (hKey : Secret.SameKey plan.openaiApiKey key) :
    Matching (planned bench plan standIn world)
      (planned bench (plan.withSecrets token key) standIn world) := by
  obtain ⟨service, hConnected, hService, hTwin⟩ :=
    connected_withSecrets bench key hToken hOther
  have hSent : Draft.isHeaderValue service.token = true := by
    rw [hService]
    exact hToken.2
  unfold planned staged proceeding
  refine Matching.checkCancelled RunError.cancelled ?_
  rw [hConnected, hTwin]
  refine Matching.bind_ok ?_
  refine ((GitHub.resolve_matching hBlind hSent hOther.2 plan.repository).mapError
    RunError.ofFetch).bind fun commit => ?_
  refine ((GitHub.list_matching hBlind hSent hOther.2 plan.repository commit).mapError
    RunError.ofFetch).bind fun listing => ?_
  exact building_matching hBlind hSent hOther.2 hKey _

/-- **Other secrets change neither the outcome of a plan nor what is asked.** -/
theorem run_withSecrets (hToken : plan.githubToken.IsToken) (hOther : token.IsToken)
    (hKey : Secret.SameKey plan.openaiApiKey key) (bench : Workbench) (state : RunState) :
    (plan.run bench world state).1 = ((plan.withSecrets token key).run bench world state).1 ∧
      (plan.run bench world state).2.session.anonymous =
        ((plan.withSecrets token key).run bench world state).2.session.anonymous := by
  have hMatching : Matching (planned bench plan state.standIn world)
      (planned bench (plan.withSecrets token key) state.standIn world) :=
    planned_matching hBlind hToken hOther hKey
  obtain ⟨hSame, hAfter⟩ := hMatching state.session state.session rfl
  obtain ⟨hResult, hSession⟩ := run_shows plan bench world state
  obtain ⟨hOtherResult, hOtherSession⟩ :=
    run_shows (plan.withSecrets token key) bench world state
  rw [hResult, hSession, hOtherResult, hOtherSession]
  exact ⟨hSame, hAfter⟩

end Plans

end Run

/-! ## Requests -/

/-- A request without its secrets. -/
def IndexRequest.withoutSecrets (request : IndexRequest) : IndexRequest :=
  { request with
    credentials := { githubToken := none, openaiApiKey := none }
    githubToken := none
    openaiApiKey := none }

namespace RunPlan

theorem ofRequest_withSecrets {request other : IndexRequest} {environment elsewhere : Environment}
    {token : Secret}
    (hRest : request.withoutSecrets = other.withoutSecrets)
    (hToken : firstNonBlank? (githubSources other elsewhere) = some token)
    (hKey : (firstNonBlank? (openaiSources request environment)).isSome =
      (firstNonBlank? (openaiSources other elsewhere)).isSome) :
    ofRequest other elsewhere =
      (ofRequest request environment).map
        (·.withSecrets token (firstNonBlank? (openaiSources other elsewhere))) := by
  unfold IndexRequest.withoutSecrets at hRest
  rw [IndexRequest.mk.injEq] at hRest
  obtain ⟨hOwner, hRepo, hBranch, -, -, -, hProvider, hFormat, hFiles, hExtensions, hExclude,
    hDocstrings, hStrategy⟩ := hRest
  unfold ofRequest
  rw [hOwner, hRepo, hBranch, hProvider, hFormat, hFiles, hExtensions, hExclude, hDocstrings,
    hStrategy, hToken]
  -- The checks before the one for a key do not look at secrets.
  rcases requireText "owner" other.owner with error | _
  · rfl
  rcases requireText "repo" other.repo with error | _
  · rfl
  rcases requireText "branch" other.branch with error | _
  · rfl
  rcases requireName "chunkStrategy" other.chunkStrategy "file, class or function"
    (Strategy.ofName? other.chunkStrategy) with error | strategy
  · rfl
  rcases requireName "outputFormat" other.outputFormat
    "metadata, chunks, chunks_embeddings or full" (OutputFormat.ofName? other.outputFormat) with
    error | format
  · rfl
  rcases requireName "embeddingProvider" other.embeddingProvider "local or openai"
    (Provider.ofName? other.embeddingProvider) with error | provider
  · rfl
  rcases (FileFilter.ofLists other.fileExtensions other.excludePatterns).mapError
    RunError.ofIndex with error | filter
  · rfl
  generalize firstNonBlank? (openaiSources request environment) = key at hKey
  generalize firstNonBlank? (openaiSources other elsewhere) = otherKey at hKey
  -- That one does, but only whether there is any.
  cases key with
  | none =>
      obtain rfl : otherKey = none := Option.not_isSome_iff_eq_none.mp (by simp [← hKey])
      cases provider <;> cases format <;> rfl
  | some key =>
      obtain ⟨found, rfl⟩ := Option.isSome_iff_exists.mp hKey.symm
      cases provider <;> cases format <;> rfl

theorem isBlank_of_firstNonBlank? {sources : List (Option Secret)} {secret : Secret}
    (h : firstNonBlank? sources = some secret) : secret.isBlank = false := by
  have hFound := List.find?_some h
  simpa using hFound

end RunPlan

/-- Two requests in two environments that differ in their secrets alone: each
finds a token, and either both find a key or neither does, all of which can be
sent. -/
structure IndexRequest.Twins (request other : IndexRequest) (environment elsewhere : Environment) :
    Prop where
  rest : request.withoutSecrets = other.withoutSecrets
  token : ∃ token, RunPlan.firstNonBlank? (RunPlan.githubSources request environment) = some token ∧
    Draft.isHeaderValue (Text.trimmed token.exposed) = true
  otherToken : ∃ token,
    RunPlan.firstNonBlank? (RunPlan.githubSources other elsewhere) = some token ∧
      Draft.isHeaderValue (Text.trimmed token.exposed) = true
  key : Secret.SameKey (RunPlan.firstNonBlank? (RunPlan.openaiSources request environment))
    (RunPlan.firstNonBlank? (RunPlan.openaiSources other elsewhere))

namespace Run

open SourceIndex.Embedding (Mock OpenAi)

/-! ## Where secrets are sent -/

/-- The secrets that a request carries. -/
def bearers (request : Request) : List String :=
  (request.headers.filter (·.1 = "authorization")).map (·.2)

/-- A request for contents carries the token and one for embeddings the key;
no request carries both. -/
inductive Carries (token : Secret) (key : Option Secret) (request : Request) : Prop where
  | token : request.method = .get →
      bearers request = ["Bearer " ++ Text.trimmed token.exposed] → Carries token key request
  | key {found : Secret} : key = some found → request.method = .post →
      bearers request = ["Bearer " ++ found.exposed] → Carries token key request

section Carried

variable {bench : Workbench} {plan : RunPlan} {standIn : Option Mock}

theorem carries_token {service : GitHub} {media : GitHub.Media} {address : String} {url : Url}
    {request : Request} (hConnected : connected bench plan = .ok service)
    (h : (service.draft media address).prepare = .ok (url, request)) :
    Carries plan.githubToken plan.openaiApiKey request := by
  obtain ⟨hMethod, hHeaders⟩ := request_of_prepare h
  have hService : service.token = Text.trimmed plan.githubToken.exposed := by
    unfold connected GitHub.connect at hConnected
    split at hConnected
    · cases hConnected
    · cases hConnected
      rfl
  refine .token hMethod ?_
  rw [bearers, hHeaders, ← hService]
  rfl

theorem carries_key {service : OpenAi} {texts : List String} {url : Url} {request : Request}
    (hChosen : chosen bench plan standIn = .ok (some (.openAi service)))
    (h : (service.draft texts).prepare = .ok (url, request)) :
    Carries plan.githubToken plan.openaiApiKey request := by
  obtain ⟨hMethod, hHeaders⟩ := request_of_prepare h
  have hKey : plan.openaiApiKey = some service.key := by
    have hFor := (needsEmbeddings_of_chosen hChosen).2
    unfold embedderFor at hFor
    split at hFor
    · cases hFor
    · dsimp only at hFor
      split at hFor
      · split at hFor
        · next key hFound =>
            cases hFor
            exact hFound
        · cases hFor
      · cases hFor
  refine .key hKey hMethod ?_
  rw [bearers, hHeaders]
  rfl

/-- **Each request of a run carries the one secret that is meant for it.** -/
theorem Asked.carries {request : Request} (h : Asked bench plan standIn request) :
    Carries plan.githubToken plan.openaiApiKey request := by
  cases h with
  | commit hConnected hPrepare => exact carries_token hConnected hPrepare
  | tree hConnected hPrepare => exact carries_token hConnected hPrepare
  | blob hConnected _ hPrepare => exact carries_token hConnected hPrepare
  | batch hChosen hPrepare => exact carries_key hChosen hPrepare

end Carried

/-- The requests of a run carry the secrets that its request finds, each the
one that is meant for it. -/
def SendsItsOwn (request : IndexRequest) (environment : Environment) (bench : Workbench)
    (world : World) (state : RunState) : Prop :=
  ∃ token sent, RunPlan.firstNonBlank? (RunPlan.githubSources request environment) = some token ∧
    (request.run environment bench world state).2.session.log = state.session.log ++ sent ∧
    ∀ entry ∈ sent,
      Carries token (RunPlan.firstNonBlank? (RunPlan.openaiSources request environment))
        entry.request

theorem sendsItsOwn {request : IndexRequest} {environment : Environment} {token : Secret}
    (bench : Workbench) (world : World) (state : RunState)
    (hToken : RunPlan.firstNonBlank? (RunPlan.githubSources request environment) = some token) :
    SendsItsOwn request environment bench world state := by
  unfold SendsItsOwn IndexRequest.run
  cases hPlan : RunPlan.ofRequest request environment with
  | error error =>
      exact ⟨token, [], hToken, (List.append_nil _).symm, fun _ h => (by cases h)⟩
  | ok plan =>
      obtain ⟨sent, hLog, hAsked⟩ := run_asked bench plan world state
      obtain ⟨hFound, hKey⟩ := RunPlan.secrets_of_ofRequest hPlan
      rw [hToken, Option.getD_some] at hFound
      refine ⟨token, sent, hToken, hLog, ?_⟩
      intro entry hEntry
      rw [← hFound, ← hKey]
      exact (hAsked entry hEntry).carries

/--
**Secrets stay in their headers.**  In a world that does not look at secrets,
two requests that differ in these alone have the same outcome, ask the same
apart from the header for secrets, and wait the same.  There each of their
requests carries the one secret that is meant for it.
-/
theorem run_confidential {request other : IndexRequest} {environment elsewhere : Environment}
    (bench : Workbench) (world : World) (state : RunState) (hBlind : world.Blind)
    (hTwins : request.Twins other environment elsewhere) :
    (request.run environment bench world state).1 = (other.run elsewhere bench world state).1 ∧
      (request.run environment bench world state).2.session.anonymous =
        (other.run elsewhere bench world state).2.session.anonymous ∧
      SendsItsOwn request environment bench world state ∧
      SendsItsOwn other elsewhere bench world state := by
  obtain ⟨token, hToken, hSent⟩ := hTwins.token
  obtain ⟨otherToken, hOtherToken, hOtherSent⟩ := hTwins.otherToken
  have hOwn : SendsItsOwn request environment bench world state :=
    sendsItsOwn bench world state hToken
  have hOtherOwn : SendsItsOwn other elsewhere bench world state :=
    sendsItsOwn bench world state hOtherToken
  have hOther := RunPlan.ofRequest_withSecrets hTwins.rest hOtherToken hTwins.key.isSome_eq
  unfold IndexRequest.run
  rw [hOther]
  cases hPlan : RunPlan.ofRequest request environment with
  | error error => exact ⟨rfl, rfl, hOwn, hOtherOwn⟩
  | ok plan =>
      obtain ⟨hFound, hKey⟩ := RunPlan.secrets_of_ofRequest hPlan
      rw [hToken, Option.getD_some] at hFound
      have hIsToken : plan.githubToken.IsToken := by
        rw [hFound]
        exact ⟨RunPlan.isBlank_of_firstNonBlank? hToken, hSent⟩
      have hIsOther : otherToken.IsToken :=
        ⟨RunPlan.isBlank_of_firstNonBlank? hOtherToken, hOtherSent⟩
      have hSameKey : Secret.SameKey plan.openaiApiKey
          (RunPlan.firstNonBlank? (RunPlan.openaiSources other elsewhere)) := by
        rw [hKey]
        exact hTwins.key
      obtain ⟨hResult, hSession⟩ :=
        run_withSecrets hBlind hIsToken hIsOther hSameKey bench state
      exact ⟨hResult, hSession, hOwn, hOtherOwn⟩

/-! ### Secrets from two sources -/

namespace Moving

/-- The token and the key come with the request. -/
def request : IndexRequest :=
  { owner := "o", repo := "r", branch := "main"
    credentials := { githubToken := some ⟨" t "⟩, openaiApiKey := none }
    githubToken := none, openaiApiKey := some ⟨"k"⟩, embeddingProvider := "openai"
    outputFormat := "full", maxFiles := 0, fileExtensions := ["txt"], excludePatterns := []
    includeDocstrings := false, chunkStrategy := "file" }

/-- Another key comes with the request, and the token from its environment. -/
def elsewhere : Environment := fun name => if name = "GITHUB_TOKEN" then some "u" else none

def otherRequest : IndexRequest :=
  { request with
    credentials := { githubToken := some ⟨" "⟩, openaiApiKey := some ⟨"l"⟩ }
    openaiApiKey := none }

theorem twins : request.Twins otherRequest (fun _ => none) elsewhere :=
  { rest := rfl
    token := ⟨⟨" t "⟩, by decide, by decide⟩
    otherToken := ⟨⟨"u"⟩, by decide, by decide⟩
    key := .some (by decide) (by decide) }

/-- Requests for the commit are told apart by their number, all others by
their URL alone. -/
theorem blind : world.Blind := by
  intro before earlier request other hBefore hRequest
  have hMethod : request.method = other.method := (Request.mk.inj hRequest).1
  have hUrl : request.url = other.url := (Request.mk.inj hRequest).2.1
  have hLength : before.length = earlier.length := by
    have hMapped := congrArg List.length hBefore
    rwa [List.length_map, List.length_map] at hMapped
  have hCommit : commitOutcome before = commitOutcome earlier := by
    unfold commitOutcome
    simp only [← List.length_eq_zero_iff, hLength]
  unfold world
  dsimp only
  rw [hMethod, hUrl, hCommit]

end Moving

open Moving (bench world) in
theorem run_confidential_moving :
    (world.Blind ∧ Moving.request.Twins Moving.otherRequest (fun _ => none) Moving.elsewhere) ∧
      (Moving.request.run (fun _ => none) bench world ⟨.start false, none⟩).1 =
        (Moving.otherRequest.run Moving.elsewhere bench world ⟨.start false, none⟩).1 ∧
      (Moving.request.run (fun _ => none) bench world ⟨.start false, none⟩).2.session.anonymous =
        (Moving.otherRequest.run Moving.elsewhere bench world
          ⟨.start false, none⟩).2.session.anonymous ∧
      SendsItsOwn Moving.request (fun _ => none) bench world ⟨.start false, none⟩ ∧
      SendsItsOwn Moving.otherRequest Moving.elsewhere bench world ⟨.start false, none⟩ :=
  ⟨⟨Moving.blind, Moving.twins⟩,
    run_confidential bench world ⟨.start false, none⟩ Moving.blind Moving.twins⟩

end Run

end SourceIndex
