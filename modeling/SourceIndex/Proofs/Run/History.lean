import SourceIndex.Proofs.Run.Stages

/-!
# What a run does

The events of a run, with its result: the stages follow each other until one
of them ends the run.  Each stage is told what the one before it has received,
and of its own events it says what is known of that stage.

## Main results

* `reported_acts` — what is asked to embed chunks.
* `planned_acts`, `run_ran` — what a run does in its session.
* `Planning.asked`, `run_asked` — what each of its requests asks for.
-/

namespace SourceIndex.Run

open Http Http.Online
open SourceIndex.Embedding (Embedder Mock OpenAi)

/-! ## Embedding -/

/-- The texts of chunks that are embedded. -/
def textsOf (contextualize : Bool) (chunks : List Chunk) : List String :=
  chunks.map (EmbeddingReport.textOf contextualize)

/-- What is asked to embed chunks: the planned batches of their texts, by an
embedder that asks for anything. -/
inductive Posted (contextualize : Bool) (chunks : List Chunk) :
    Option Embedder → List Event → Prop where
  | none : Posted contextualize chunks none []
  | mock (mock : Mock) : Posted contextualize chunks (some (.mock mock)) []
  | openAi {service : OpenAi} {events : List Event} :
      service.Posts (service.inputs (textsOf contextualize chunks))
        (service.batches (service.inputs (textsOf contextualize chunks))) events →
      Posted contextualize chunks (some (.openAi service)) events

section Embedding

variable (embedder : Embedder) (contextualize : Bool) {chunks : List Chunk}

/-- Without chunks the embedder is not asked. -/
theorem reported_nil (world : World) :
    reported embedder contextualize [] world =
      pure (EmbeddingReport.ofOutput embedder.name embedder.model [] ⟨[], []⟩) := rfl

/-- The report on chunks is made of the output for their texts. -/
theorem run_reported_cons (world : World) (session : Session) (h : chunks ≠ []) :
    (reported embedder contextualize chunks world).run session =
      (((embedder.embed world (textsOf contextualize chunks)).run session).1.1.map
          (EmbeddingReport.ofOutput embedder.name embedder.model chunks),
        ((embedder.embed world (textsOf contextualize chunks)).run session).2) := by
  rw [run_reported, EmbeddingReport.of, if_neg (by simpa using h)]
  rfl

theorem run_reported_openAi (service : OpenAi) (world : World) (session : Session)
    (h : chunks ≠ []) :
    (reported (.openAi service) contextualize chunks world).run session =
      (service.embed world (textsOf contextualize chunks) >>= fun output =>
        pure (EmbeddingReport.ofOutput OpenAi.name service.model chunks output)).run session := by
  have hEmbed : (Embedder.embed (.openAi service) world (textsOf contextualize chunks)).run
      session = ((((service.embed world (textsOf contextualize chunks)).run session).1,
        .openAi service), ((service.embed world (textsOf contextualize chunks)).run session).2) :=
    rfl
  rw [run_reported_cons _ _ _ _ h, Online.run_bind, hEmbed]
  rcases (service.embed world (textsOf contextualize chunks)).run session with
    ⟨error | output, after⟩
  · rfl
  · rfl

theorem reported_acts (chunks : List Chunk) :
    Acts .cancelled (fun world => reported embedder contextualize chunks world)
      fun events _ => Posted contextualize chunks (some embedder) events := by
  by_cases hChunks : chunks = []
  · subst hChunks
    refine (Acts.pure EmbedError.cancelled
      (EmbeddingReport.ofOutput embedder.name embedder.model [] ⟨[], []⟩)).mono ?_
    rintro events result ⟨rfl, rfl⟩
    cases embedder with
    | openAi service => exact .openAi .nil
    | mock mock => exact .mock mock
  · cases embedder with
    | openAi service =>
        refine Acts.congr
          (fun world session => run_reported_openAi contextualize service world session hChunks) ?_
        refine ((service.embed_acts (textsOf contextualize chunks)).bind fun output =>
          Acts.pure EmbedError.cancelled
            (EmbeddingReport.ofOutput OpenAi.name service.model chunks output)).mono ?_
        rintro events result (⟨error, hPosts, _⟩ | ⟨output, first, _, rfl, hPosts, rfl, _⟩)
        · exact .openAi hPosts
        · rw [List.append_nil]
          exact .openAi hPosts
    | mock mock =>
        intro world session
        exact ⟨[], .nothing (fun cancelled => (mock.embed cancelled
          (textsOf contextualize chunks)).1.map (EmbeddingReport.ofOutput Mock.name Mock.name chunks))
            (fun world session => run_reported_cons _ contextualize world session hChunks) world
            session, .mock mock⟩

end Embedding

theorem embedding_acts (bench : Workbench) (chunks : List Chunk) (embedder : Option Embedder) :
    Acts .cancelled (fun world => embedding bench chunks embedder world)
      fun events _ => Posted bench.settings.embedding.contextualize chunks embedder events := by
  cases embedder with
  | none =>
      refine (Acts.pure RunError.cancelled (none : Option EmbeddingReport)).mono ?_
      rintro events result ⟨rfl, rfl⟩
      exact .none
  | some embedder =>
      refine (((reported_acts embedder bench.settings.embedding.contextualize chunks).mapError
        RunError.ofEmbed).bind fun report =>
          Acts.pure RunError.cancelled (some report)).mono ?_
      rintro events result
        (⟨error, ⟨_, hPosted, _⟩, _⟩ | ⟨report, first, _, rfl, ⟨_, hPosted, _⟩, rfl, _⟩)
      · exact hPosted
      · rw [List.append_nil]
        exact hPosted

/-! ## The stages of a run -/

section Stages

variable (bench : Workbench) (plan : RunPlan) (standIn : Option Mock)

/-- The events of what is left of a run that has its snapshot, with the
result. -/
inductive Building (service : GitHub) (snapshot : Snapshot) :
    List Event → Except RunError RunResult → Prop where
  | choosing {error : RunError} : chosen bench plan standIn = .error error →
      Building service snapshot [] (.error error)
  | fetching {embedder : Option Embedder} {events : List Event} {error : FetchError} :
      chosen bench plan standIn = .ok embedder →
      service.Fetching plan.repository (selected plan snapshot.files) events (.error error) →
      Building service snapshot events (.error (.ofFetch error))
  | embedding {embedder : Option Embedder} {fetched : FetchedFiles} {first second : List Event}
      {result : Except RunError RunResult} :
      chosen bench plan standIn = .ok embedder →
      service.Fetching plan.repository (selected plan snapshot.files) first (.ok fetched) →
      Posted bench.settings.embedding.contextualize (chunked bench plan fetched.files).chunks
        embedder second →
      (∀ found, result = .ok found →
        ∃ embedded, found = concluded bench plan snapshot fetched embedded) →
      Building service snapshot (first ++ second) result

/-- The events of what is left of a run that has resolved its branch, with the
result. -/
inductive Proceeding (service : GitHub) (commit : GitHub.Commit) :
    List Event → Except RunError RunResult → Prop where
  | listing {events : List Event} {error : FetchError} :
      service.Listed plan.repository commit events (.error error) →
      Proceeding service commit events (.error (.ofFetch error))
  | building {listing : GitHub.Listing} {first second : List Event}
      {result : Except RunError RunResult} :
      service.Listed plan.repository commit first (.ok listing) →
      Building bench plan standIn service (GitHub.snapshotOf plan.repository commit listing) second
        result →
      Proceeding service commit (first ++ second) result

/-- The events of a run, with the result. -/
inductive Planning : List Event → Except RunError RunResult → Prop where
  | refused {error : RunError} : Planning [] (.error error)
  | resolving {service : GitHub} {events : List Event} {error : FetchError} :
      connected bench plan = .ok service →
      service.Resolving plan.repository events (.error error) →
      Planning events (.error (.ofFetch error))
  | proceeding {service : GitHub} {commit : GitHub.Commit} {first second : List Event}
      {result : Except RunError RunResult} :
      connected bench plan = .ok service →
      service.Resolving plan.repository first (.ok commit) →
      Proceeding bench plan standIn service commit second result →
      Planning (first ++ second) result

theorem building_acts (service : GitHub) (snapshot : Snapshot) :
    Acts .cancelled (fun world => building bench plan standIn service snapshot world)
      (Building bench plan standIn service snapshot) := by
  refine ((Acts.ofExcept RunError.cancelled (chosen bench plan standIn)).bind fun embedder =>
    ((service.fetchFiles_acts plan.repository (selected plan snapshot.files)).mapError
      RunError.ofFetch).bind fun fetched =>
        (embedding_acts bench (chunked bench plan fetched.files).chunks embedder).bind
          fun embedded => Acts.pure RunError.cancelled
            (concluded bench plan snapshot fetched embedded)).mono ?_
  intro events result h
  rcases h.of_known with ⟨error, hChosen, rfl, rfl⟩ | ⟨embedder, hChosen, h⟩
  · exact .choosing hChosen
  · rcases h.of_mapError with ⟨error, hFetching, rfl⟩ | ⟨fetched, first, rest, rfl, hFetching, h⟩
    · exact .fetching hChosen hFetching
    · rcases h with ⟨error, hPosted, rfl⟩ | ⟨embedded, second, _, rfl, hPosted, rfl, rfl⟩
      · exact .embedding hChosen hFetching hPosted fun _ hOk => (by cases hOk)
      · rw [List.append_nil]
        refine .embedding hChosen hFetching hPosted ?_
        intro found hFound
        cases hFound
        exact ⟨embedded, rfl⟩

theorem proceeding_acts (service : GitHub) (commit : GitHub.Commit) :
    Acts .cancelled (fun world => proceeding bench plan standIn service commit world)
      (Proceeding bench plan standIn service commit) := by
  refine (((service.list_acts plan.repository commit).mapError RunError.ofFetch).bind
    fun listing => building_acts bench plan standIn service
      (GitHub.snapshotOf plan.repository commit listing)).mono ?_
  intro events result h
  rcases h.of_mapError with ⟨error, hListed, rfl⟩ | ⟨listing, first, second, rfl, hListed, hBuilding⟩
  · exact .listing hListed
  · exact .building hListed hBuilding

/-- **What a run does in its session.** -/
theorem planned_acts :
    Acts .cancelled (fun world => planned bench plan standIn world)
      (Planning bench plan standIn) := by
  refine ((Acts.checkCancelled RunError.cancelled).bind fun _ =>
    (Acts.ofExcept RunError.cancelled (connected bench plan)).bind fun service =>
      ((service.resolve_acts plan.repository).mapError RunError.ofFetch).bind fun commit =>
        proceeding_acts bench plan standIn service commit).mono ?_
  rintro events result (⟨error, ⟨rfl, _⟩, rfl⟩ | ⟨_, _, later, rfl, ⟨rfl, _⟩, h⟩)
  · exact .refused
  · rw [List.nil_append]
    rcases h.of_known with ⟨error, _, rfl, rfl⟩ | ⟨service, hService, h⟩
    · exact .refused
    · rcases h.of_mapError with ⟨error, hResolving, rfl⟩ |
        ⟨commit, first, second, rfl, hResolving, hProceeding⟩
      · exact .resolving hService hResolving
      · exact .proceeding hService hResolving hProceeding

/-- What a run does from a state on. -/
structure Ran (world : World) (state : RunState) (events : List Event) : Prop where
  after : (plan.run bench world state).2.session = state.session.after world events
  live : state.session.Live world events
  stopped : state.session.cancelled = false →
    (state.session.after world events).cancelled = true →
      (plan.run bench world state).1 = .error .cancelled
  planning : Planning bench plan state.standIn events (plan.run bench world state).1

theorem run_ran (world : World) (state : RunState) :
    ∃ events, Ran bench plan world state events := by
  obtain ⟨hResult, hSession⟩ := run_shows plan bench world state
  obtain ⟨events, hDoes, hPlanning⟩ :=
    planned_acts bench plan state.standIn world state.session
  refine ⟨events, ⟨hSession.trans hDoes.after, hDoes.live, ?_, ?_⟩⟩
  · rw [hResult]
    exact hDoes.stopped
  · rw [hResult]
    exact hPlanning

end Stages

/-! ## What is asked for -/

section Asked

variable {bench : Workbench} {plan : RunPlan} {standIn : Option Mock}

/-- After its commit a run asks for the listing of this commit, for files, and
for the embeddings of some texts, the last two once it has chosen an
embedder. -/
theorem Proceeding.drafted {service : GitHub} {commit : GitHub.Commit} {events : List Event}
    {result : Except RunError RunResult}
    (h : Proceeding bench plan standIn service commit events result) :
    ∀ entry ∈ entries events,
      (∃ url, (service.draft .json (service.treeUrl plan.repository commit.treeSha)).prepare =
        .ok (url, entry.request)) ∨
      (∃ sha url embedder, chosen bench plan standIn = .ok embedder ∧
        (service.draft .raw (service.blobUrl plan.repository sha)).prepare =
          .ok (url, entry.request)) ∨
      ∃ embedder batch url, chosen bench plan standIn = .ok (some (.openAi embedder)) ∧
        (embedder.draft batch).prepare = .ok (url, entry.request) := by
  intro entry hEntry
  cases h with
  | listing hListed => exact .inl (hListed.asks.drafted entry hEntry)
  | building hListed hBuilding =>
      rw [entries_append] at hEntry
      rcases List.mem_append.mp hEntry with hHere | hLater
      · exact .inl (hListed.asks.drafted entry hHere)
      · right
        cases hBuilding with
        | choosing _ => cases hLater
        | fetching hChosen hFetching =>
            obtain ⟨sha, url, hPrepare⟩ := hFetching.downloading.drafted entry hLater
            exact .inl ⟨sha, url, _, hChosen, hPrepare⟩
        | embedding hChosen hFetching hPosted _ =>
            rw [entries_append] at hLater
            rcases List.mem_append.mp hLater with hFile | hPost
            · obtain ⟨sha, url, hPrepare⟩ := hFetching.downloading.drafted entry hFile
              exact .inl ⟨sha, url, _, hChosen, hPrepare⟩
            · right
              cases hPosted with
              | none => cases hPost
              | mock mock => cases hPost
              | @openAi embedder _ hPosts =>
                  obtain ⟨batch, url, hPrepare⟩ := hPosts.drafted entry hPost
                  exact ⟨embedder, batch, url, hChosen, hPrepare⟩

/-- What a request of a run asks for: the commit, a listing, a file or
embeddings. -/
inductive Asked (bench : Workbench) (plan : RunPlan) (standIn : Option Mock) (request : Request) :
    Prop where
  | commit {service : GitHub} {url : Url} : connected bench plan = .ok service →
      (service.draft .json (service.commitUrl plan.repository)).prepare = .ok (url, request) →
      Asked bench plan standIn request
  | tree {service : GitHub} {sha : String} {url : Url} : connected bench plan = .ok service →
      (service.draft .json (service.treeUrl plan.repository sha)).prepare = .ok (url, request) →
      Asked bench plan standIn request
  | blob {service : GitHub} {sha : String} {url : Url} {embedder : Option Embedder} :
      connected bench plan = .ok service → chosen bench plan standIn = .ok embedder →
      (service.draft .raw (service.blobUrl plan.repository sha)).prepare = .ok (url, request) →
      Asked bench plan standIn request
  | batch {embedder : OpenAi} {texts : List String} {url : Url} :
      chosen bench plan standIn = .ok (some (.openAi embedder)) →
      (embedder.draft texts).prepare = .ok (url, request) → Asked bench plan standIn request

/-- **Each request of a run asks for one of these.** -/
theorem Planning.asked {events : List Event} {result : Except RunError RunResult}
    (h : Planning bench plan standIn events result) :
    ∀ entry ∈ entries events, Asked bench plan standIn entry.request := by
  intro entry hEntry
  cases h with
  | refused => cases hEntry
  | resolving hConnected hResolving =>
      obtain ⟨url, hPrepare⟩ := hResolving.asks.drafted entry hEntry
      exact .commit hConnected hPrepare
  | proceeding hConnected hResolving hProceeding =>
      rw [entries_append] at hEntry
      rcases List.mem_append.mp hEntry with hHere | hLater
      · obtain ⟨url, hPrepare⟩ := hResolving.asks.drafted entry hHere
        exact .commit hConnected hPrepare
      · rcases hProceeding.drafted entry hLater with
          ⟨url, hTree⟩ | ⟨sha, url, embedder, hChosen, hBlob⟩ | ⟨embedder, texts, url, hChosen, hPost⟩
        · exact .tree hConnected hTree
        · exact .blob hConnected hChosen hBlob
        · exact .batch hChosen hPost

/-- What a run adds to the log of its session asks for one of these. -/
theorem run_asked (bench : Workbench) (plan : RunPlan) (world : World) (state : RunState) :
    ∃ sent, (plan.run bench world state).2.session.log = state.session.log ++ sent ∧
      ∀ entry ∈ sent, Asked bench plan state.standIn entry.request := by
  obtain ⟨events, hRan⟩ := run_ran bench plan world state
  refine ⟨entries events, ?_, hRan.planning.asked⟩
  rw [hRan.after, Session.log_after]

end Asked

end SourceIndex.Run
