import SourceIndex.Proofs.Run.History

/-!
# The requests of a run

Every request of a run belongs to one block of requests for one thing: the
commit of the branch, its listing, a file, a batch of texts.  The blocks come
in this order, each holds at most one request and its retries, and after a
block that did not get what it asked for there is none, unless it asked for
embeddings.  What is asked for comes from what was received in earlier blocks.

## Main results

* `Planning.traced` — what a run asks, whether it succeeds or fails.
* `Planning.finished` — what a run has received that succeeds.
* `run_traced` — both, of the requests in the log of a session.
-/

namespace SourceIndex.Run

open Http
open SourceIndex.Embedding (Embedder Mock OpenAi)

/-- The branch of a plan is resolved, the commit is listed, and the selected
files that are not too large are downloaded. -/
structure Gathers (service : GitHub) (plan : RunPlan) (commit : GitHub.Commit)
    (listing : GitHub.Listing) (sources : List SourceFile) (events : List Event) : Prop where
  blocks : ∃ commits trees blobs bodies, events = commits ++ (trees ++ blobs) ∧
    service.Resolves plan.repository commit commits ∧
    service.Lists plan.repository commit listing trees ∧
    service.Downloads plan.repository (service.wanted (selected plan listing.files)) bodies blobs ∧
    sources = GitHub.texts (service.wanted (selected plan listing.files)) bodies

/-- What is asked to embed the chunks of a plan.  Nothing is, unless its format
needs embeddings, there are chunks, and the embedder asks for anything. -/
def Posting (bench : Workbench) (plan : RunPlan) (standIn : Option Mock) (chunks : List Chunk)
    (events : List Event) : Prop :=
  events = [] ∨ plan.format.needsEmbeddings = true ∧ chunks ≠ [] ∧
    ∃ service, embedderFor bench plan standIn = .ok (.openAi service) ∧
      service.Posts (service.inputs (textsOf bench.settings.embedding.contextualize chunks))
        (service.batches
          (service.inputs (textsOf bench.settings.embedding.contextualize chunks))) events

/-- What is asked from the commit on, up to where a run ends. -/
inductive Traced (bench : Workbench) (plan : RunPlan) (standIn : Option Mock) :
    List Event → Prop where
  | refused : Traced bench plan standIn []
  | resolving {service : GitHub} {events : List Event} :
      connected bench plan = .ok service →
      service.Asks .json (service.commitUrl plan.repository) events →
      Traced bench plan standIn events
  | listing {service : GitHub} {commit : GitHub.Commit} {first events : List Event} :
      connected bench plan = .ok service →
      service.Resolves plan.repository commit first →
      service.Asks .json (service.treeUrl plan.repository commit.treeSha) events →
      Traced bench plan standIn (first ++ events)
  | downloading {service : GitHub} {commit : GitHub.Commit} {listing : GitHub.Listing}
      {first second events : List Event} :
      connected bench plan = .ok service →
      service.Resolves plan.repository commit first →
      service.Lists plan.repository commit listing second →
      service.Downloading plan.repository (service.wanted (selected plan listing.files)) events →
      Traced bench plan standIn (first ++ (second ++ events))
  | posting {service : GitHub} {commit : GitHub.Commit} {listing : GitHub.Listing}
      {sources : List SourceFile} {gets posts : List Event} :
      connected bench plan = .ok service →
      Gathers service plan commit listing sources gets →
      Posting bench plan standIn (chunked bench plan sources).chunks posts →
      Traced bench plan standIn (gets ++ posts)

section Stages

variable {bench : Workbench} {plan : RunPlan} {standIn : Option Mock}

/-- The embedder of a run is chosen only for a format that needs it. -/
theorem needsEmbeddings_of_chosen {embedder : Embedder}
    (h : chosen bench plan standIn = .ok (some embedder)) :
    plan.format.needsEmbeddings = true ∧ embedderFor bench plan standIn = .ok embedder := by
  unfold chosen at h
  by_cases hNeeds : plan.format.needsEmbeddings = true
  · rw [if_pos hNeeds] at h
    refine ⟨hNeeds, ?_⟩
    cases hFor : embedderFor bench plan standIn with
    | error error =>
        rw [hFor] at h
        cases h
    | ok found =>
        rw [hFor] at h
        cases h
        rfl
  · rw [if_neg hNeeds] at h
    cases h

/-- Without chunks there is no batch, so nothing is asked. -/
theorem Posted.posting {embedder : Option Embedder} {chunks : List Chunk} {events : List Event}
    (hChosen : chosen bench plan standIn = .ok embedder)
    (h : Posted bench.settings.embedding.contextualize chunks embedder events) :
    Posting bench plan standIn chunks events := by
  cases h with
  | none => exact .inl rfl
  | mock mock => exact .inl rfl
  | @openAi service _ hPosts =>
      obtain ⟨hNeeds, hFor⟩ := needsEmbeddings_of_chosen hChosen
      by_cases hChunks : chunks = []
      · subst hChunks
        cases hPosts
        exact .inl rfl
      · exact .inr ⟨hNeeds, hChunks, service, hFor, hPosts⟩

/-- What a run that goes on after its listing has gathered and asked. -/
theorem Building.gathers {service : GitHub} {commit : GitHub.Commit} {listing : GitHub.Listing}
    {fetched : FetchedFiles} {embedder : Option Embedder} {first second blobs posts : List Event}
    (hResolves : service.Resolves plan.repository commit first)
    (hLists : service.Lists plan.repository commit listing second)
    (hChosen : chosen bench plan standIn = .ok embedder)
    (hFetching : service.Fetching plan.repository (selected plan listing.files) blobs (.ok fetched))
    (hPosted : Posted bench.settings.embedding.contextualize
      (chunked bench plan fetched.files).chunks embedder posts) :
    Gathers service plan commit listing fetched.files (first ++ (second ++ blobs)) ∧
      Posting bench plan standIn (chunked bench plan fetched.files).chunks posts := by
  obtain ⟨bodies, hDownloads, hFiles⟩ := hFetching.fetched fetched rfl
  exact ⟨⟨first, second, blobs, bodies, rfl, hResolves, hLists, hDownloads, hFiles⟩,
    hPosted.posting hChosen⟩

/-- **What a run asks.** -/
theorem Planning.traced {events : List Event} {result : Except RunError RunResult}
    (h : Planning bench plan standIn events result) : Traced bench plan standIn events := by
  cases h with
  | refused => exact .refused
  | resolving hService hResolving => exact .resolving hService hResolving.asks
  | @proceeding service commit first rest _ hService hResolving hProceeding =>
      have hResolves := hResolving.gets commit rfl
      cases hProceeding with
      | listing hListed => exact .listing hService hResolves hListed.asks
      | @building listing second later _ hListed hBuilding =>
          have hLists := hListed.gets listing rfl
          cases hBuilding with
          | choosing _ => exact .downloading hService hResolves hLists .nil
          | fetching _ hFetching =>
              exact .downloading hService hResolves hLists hFetching.downloading
          | @embedding embedder fetched blobs posts _ hChosen hFetching hPosted _ =>
              obtain ⟨hGathers, hPosting⟩ :=
                Building.gathers hResolves hLists hChosen hFetching hPosted
              have hTraced := Traced.posting hService hGathers hPosting
              rw [List.append_assoc, List.append_assoc] at hTraced
              exact hTraced

/-- **What a run has received that succeeds.** -/
theorem Planning.finished {events : List Event} {result : RunResult}
    (h : Planning bench plan standIn events (.ok result)) :
    ∃ service commit listing sources gets posts, connected bench plan = .ok service ∧
      events = gets ++ posts ∧ Gathers service plan commit listing sources gets ∧
      Posting bench plan standIn (chunked bench plan sources).chunks posts := by
  cases h with
  | @proceeding service commit first rest _ hService hResolving hProceeding =>
      cases hProceeding with
      | @building listing second later _ hListed hBuilding =>
          cases hBuilding with
          | @embedding embedder fetched blobs posts _ hChosen hFetching hPosted _ =>
              obtain ⟨hGathers, hPosting⟩ := Building.gathers (hResolving.gets commit rfl)
                (hListed.gets listing rfl) hChosen hFetching hPosted
              refine ⟨service, commit, listing, fetched.files, _, posts, hService, ?_, hGathers,
                hPosting⟩
              rw [List.append_assoc, List.append_assoc]

end Stages

/--
**The requests of a run.**  What a run adds to the log of its session are the
requests of its blocks in their order, whether it succeeds or fails; a run that
succeeds has got the commit, the listing and every file that it wants.
-/
theorem run_traced (bench : Workbench) (plan : RunPlan) (world : World) (state : RunState) :
    ∃ events,
      (plan.run bench world state).2.session.log = state.session.log ++ entries events ∧
        Traced bench plan state.standIn events ∧
        ∀ result, (plan.run bench world state).1 = .ok result →
          ∃ service commit listing sources gets posts, connected bench plan = .ok service ∧
            events = gets ++ posts ∧ Gathers service plan commit listing sources gets ∧
            Posting bench plan state.standIn (chunked bench plan sources).chunks posts := by
  obtain ⟨events, hRan⟩ := run_ran bench plan world state
  refine ⟨events, ?_, hRan.planning.traced, ?_⟩
  · rw [hRan.after, Session.log_after]
  · intro result hResult
    have hPlanning := hRan.planning
    rw [hResult] at hPlanning
    exact hPlanning.finished

/-! ### A branch that moves, on a server that is busy at first -/

namespace Moving

def plan : RunPlan :=
  { repository := { owner := "o", repo := "r", branch := "main" }
    githubToken := ⟨"t"⟩, openaiApiKey := none, provider := .openAi, format := .full, maxFiles := 0
    filter := { endings := [".txt".toList], exclude := [] }
    options := { strategy := .wholeFile, docstrings := false } }

def bench : Workbench :=
  { settings :=
      { github := { FetchSettings.standard with apiUrl := "http://localhost/", maxFileBytes := 9 }
        embedding := .standard 1 }
    parse := fun _ => .withErrors }

def commitUrl : Url :=
  { scheme := "http".toList, user := none, host := some "localhost".toList, port := none
    path := .rooted ["repos".toList, "o".toList, "r".toList, "commits".toList, "main".toList]
    query := none, fragment := none }

def busy : Head := { status := 503, headers := [("retry-after", "0")] }

def granted : Head := { status := 200, headers := [] }

def commitBody (sha : String) : List UInt8 :=
  Utf8.bytes ("\x7b\"sha\":\"" ++ sha ++ "\",\"commit\":\x7b\"tree\":\x7b\"sha\":\"t\"\x7d\x7d\x7d")

/-- Two files, and one that is too large. -/
def listingBody : List UInt8 :=
  Utf8.bytes ("\x7b\"tree\":[" ++
    "\x7b\"path\":\"a.txt\",\"type\":\"blob\",\"sha\":\"x\",\"size\":2\x7d," ++
    "\x7b\"path\":\"b.txt\",\"type\":\"blob\",\"sha\":\"y\",\"size\":2\x7d," ++
    "\x7b\"path\":\"c.txt\",\"type\":\"blob\",\"sha\":\"z\",\"size\":10\x7d]\x7d")

/-- What becomes of a request for the commit, told by the requests before. -/
def commitOutcome (before : List Request) : Outcome :=
  if before = [] then .reply busy []
  else .reply granted (commitBody (if before.length = 1 then "c" else "d"))

def world : World :=
  { answer := fun before request =>
      if request.method = .get ∧ request.url = commitUrl then commitOutcome before
      else if request.url.query = none then .reply granted (Utf8.bytes "hi")
      else .reply granted listingBody
    interrupts := World.patient }

/-- The second of two batches fails. -/
def standIn : Option Mock := some { dimension := 2, batchSize := 1, failing := [1], calls := 0 }

/-- The request for contents of a URL of the repository. -/
def asked (segments : List String) (query : Option (List Char)) (accept : String) : Request :=
  { method := .get
    url :=
      { commitUrl with
        path := .rooted (["repos".toList, "o".toList, "r".toList] ++ segments.map (·.toList))
        query }
    headers :=
      [("user-agent", "repodex/0.3.0"), ("authorization", "Bearer t"), ("accept", accept),
       ("x-github-api-version", "2022-11-28")]
    body := "" }

def commitRequest : Request := asked ["commits", "main"] none "application/vnd.github+json"

def treeRequest : Request :=
  asked ["git", "trees", "t"] (some "recursive=1".toList) "application/vnd.github+json"

def blobRequest (sha : String) : Request :=
  asked ["git", "blobs", sha] none "application/vnd.github.raw+json"

def log : List Entry :=
  [{ request := commitRequest, outcome := .reply busy [] },
   { request := commitRequest, outcome := .reply granted (commitBody "c") },
   { request := treeRequest, outcome := .reply granted listingBody },
   { request := blobRequest "x", outcome := .reply granted (Utf8.bytes "hi") },
   { request := blobRequest "y", outcome := .reply granted (Utf8.bytes "hi") }]

theorem run_log :
    (plan.run bench world ⟨.start false, standIn⟩).1.isOk = true ∧
      (plan.run bench world ⟨.start false, standIn⟩).2.session.log = log := by
  decide +kernel

end Moving

open Moving in
theorem run_traced_moving :
    ∃ gets posts,
      (plan.run bench world ⟨.start false, standIn⟩).2.session.log = entries (gets ++ posts) ∧
        entries (gets ++ posts) = Moving.log ∧
        ∃ service commit listing sources, connected bench plan = .ok service ∧
          Gathers service plan commit listing sources gets ∧
          Posting bench plan standIn (chunked bench plan sources).chunks posts := by
  obtain ⟨events, hLog, _, hFinished⟩ := run_traced bench plan world ⟨.start false, standIn⟩
  obtain ⟨hOk, hSent⟩ := Moving.run_log
  cases hRun : (plan.run bench world ⟨.start false, standIn⟩).1 with
  | error error =>
      rw [hRun] at hOk
      cases hOk
  | ok result =>
      obtain ⟨service, commit, listing, sources, gets, posts, hService, rfl, hGathers, hPosting⟩ :=
        hFinished result hRun
      exact ⟨gets, posts, hLog, hLog.symm.trans hSent, service, commit, listing, sources, hService,
        hGathers, hPosting⟩

end SourceIndex.Run
