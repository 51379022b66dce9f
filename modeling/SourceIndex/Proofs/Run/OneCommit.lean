import SourceIndex.Proofs.Run.Trace

/-!
# A run reads one commit

A branch may move while a run reads it.  A run asks for the commit of its
branch until one complete reply grants it, and never again; what it asks for
afterwards has the names that this commit and its listing give.  So it ends as
it would if the branch had stood at this commit all the time.

The two runs are compared from that reply on.  There both sessions have the
same requests behind them but for those of the commit, so a world whose other
answers do not depend on these acts alike in both.

## Main results

* `agrees_pinned` — a world acts alike when the answer for one URL is pinned
  and nothing asks for it.
* `resolves_once` — the reply that grants a commit ends the asking for it.
* `run_pinned` — a run ends as it would with the commit pinned.
-/

namespace SourceIndex.Http

/-! ## Pinned answers -/

/-- A request that gets the contents of a URL. -/
def Request.Fetches (request : Request) (url : Url) : Prop :=
  request.method = .get ∧ request.url = url

instance (request : Request) (url : Url) : Decidable (request.Fetches url) :=
  inferInstanceAs (Decidable (request.method = .get ∧ request.url = url))

/-- The requests for anything else than a URL. -/
def others (url : Url) (requests : List Request) : List Request :=
  requests.filter fun request => ¬ request.Fetches url

namespace World

/-- What else is answered does not depend on the requests for a URL. -/
def Steady (world : World) (url : Url) : Prop :=
  ∀ before request, ¬ request.Fetches url →
    world.answer before request = world.answer (others url before) request

/-- The world in which a URL is always answered in the same way.  All else is
as it is after the given waits. -/
def pinned (world : World) (url : Url) (outcome : Outcome) (waited : List Nat) : World :=
  { answer := fun before request =>
      if request.Fetches url then outcome else world.answer before request
    interrupts := fun before seconds => world.interrupts (waited ++ before) seconds }

end World

theorem others_append_of_not {url : Url} (before : List Request) {request : Request}
    (h : ¬ request.Fetches url) :
    others url (before ++ [request]) = others url before ++ [request] := by
  rw [others, List.filter_append, List.filter_cons_of_pos (by simpa using h), List.filter_nil]
  rfl

theorem others_eq_nil {url : Url} {requests : List Request}
    (h : ∀ request ∈ requests, request.Fetches url) : others url requests = [] := by
  rw [others, List.filter_eq_nil_iff]
  intro request hRequest
  simpa using h request hRequest

/-- **Pinning the answer for a URL changes nothing** while nothing asks for it:
the sessions may differ in the requests for it and in the waits before. -/
theorem agrees_pinned {world : World} {url : Url} (outcome : Outcome) {waited : List Nat}
    (hSteady : world.Steady url) {events : List Event} :
    ∀ {session mirror : Session}, Agrees world world session session events →
      (∀ entry ∈ entries events, ¬ entry.request.Fetches url) →
      others url mirror.sent = others url session.sent →
      session.waits = waited ++ mirror.waits →
      Agrees world (world.pinned url outcome waited) session mirror events := by
  induction events with
  | nil => exact fun _ _ _ _ => trivial
  | cons event rest ih =>
      intro session mirror hTold hApart hSent hWaits
      cases event with
      | sent entry =>
          rw [entries_sent] at hApart
          have hOther := hApart entry List.mem_cons_self
          have hAnswer : world.answer session.sent entry.request = entry.outcome := hTold.1
          refine ⟨?_, ih hTold.2 ?_ ?_ hWaits⟩
          · show (if entry.request.Fetches url then outcome
              else world.answer mirror.sent entry.request) = entry.outcome
            rw [if_neg hOther, hSteady _ _ hOther, hSent, ← hSteady _ _ hOther, hAnswer]
          · exact fun other hMem => hApart other (List.mem_cons_of_mem _ hMem)
          · have hStep : ∀ (world : World) (session : Session),
                (session.step world (.sent entry)).sent = session.sent ++ [entry.request] := by
              intro world session
              exact List.map_append
            rw [hStep, hStep, others_append_of_not _ hOther, others_append_of_not _ hOther, hSent]
      | waited seconds =>
          refine ⟨?_, ih hTold.2 hApart hSent ?_⟩
          · show world.interrupts (waited ++ mirror.waits) seconds =
              world.interrupts session.waits seconds
            rw [hWaits]
          · show session.waits ++ [seconds] = waited ++ (mirror.waits ++ [seconds])
            rw [hWaits, List.append_assoc]

end SourceIndex.Http

namespace SourceIndex.Run

open Http Http.Online
open SourceIndex.Embedding (Mock OpenAi)

/-! ## The commit of a run -/

/-- What became of a request for a commit grants it: the reply is complete, a
success, and reads as this commit. -/
structure Grants (request : Request) (entry : Entry) (commit : GitHub.Commit) : Prop where
  asked : entry.request = request
  reply : ∃ head body, entry.outcome = .reply head body ∧ head.status.isSuccess = true ∧
    (Json.Document.ofBytes body).decode (GitHub.commitRecord.decoder "CommitInfo") = .ok commit

/-- The URL of a commit is none of the URLs of listings and files that are
asked for in a session: the listings of commits that were granted there, and
files of any name. -/
structure Apart (service : GitHub) (repository : RepositoryRef) (request : Request)
    (session : Session) : Prop where
  trees : ∀ entry ∈ session.log, ∀ commit, Grants request entry commit → ∀ url asked,
    (service.draft .json (service.treeUrl repository commit.treeSha)).prepare = .ok (url, asked) →
      asked.url ≠ request.url
  blobs : ∀ asked ∈ session.sent, ∀ sha url,
    (service.draft .raw (service.blobUrl repository sha)).prepare = .ok (url, asked) →
      asked.url ≠ request.url

section Once

variable {bench : Workbench} {plan : RunPlan} {standIn : Option Mock} {service : GitHub}
  {request : Request} {commit : GitHub.Commit}

/-- Nothing of this is a request for the commit. -/
theorem Proceeding.apart {events : List Event} {result : Except RunError RunResult}
    {session : Session} {granting : Entry}
    (h : Proceeding bench plan standIn service commit events result)
    (hApart : Apart service plan.repository request session) (hMem : granting ∈ session.log)
    (hGrants : Grants request granting commit)
    (hSent : ∀ entry ∈ entries events, entry.request ∈ session.sent) :
    ∀ entry ∈ entries events, ¬ entry.request.Fetches request.url := by
  intro entry hEntry hFetches
  rcases h.drafted entry hEntry with
    ⟨url, hTree⟩ | ⟨sha, url, _, _, hBlob⟩ | ⟨embedder, batch, url, _, hPost⟩
  · exact hApart.trees granting hMem commit hGrants url _ hTree hFetches.2
  · exact hApart.blobs _ (hSent entry hEntry) sha url hBlob hFetches.2
  · have hMethod := (request_of_prepare hPost).1
    rw [hFetches.1] at hMethod
    cases hMethod

/-- What a run has received that succeeds, from its commit on. -/
theorem Proceeding.finished {events : List Event} {result : RunResult}
    (h : Proceeding bench plan standIn service commit events (.ok result)) :
    ∃ listing trees blobs posts bodies fetched embedded, events = trees ++ (blobs ++ posts) ∧
      service.Lists plan.repository commit listing trees ∧
      service.Downloads plan.repository (service.wanted (selected plan listing.files)) bodies
        blobs ∧
      fetched.files = GitHub.texts (service.wanted (selected plan listing.files)) bodies ∧
      result =
        concluded bench plan (GitHub.snapshotOf plan.repository commit listing) fetched embedded := by
  cases h with
  | @building listing trees _ _ hListed hBuilding =>
      cases hBuilding with
      | @embedding _ fetched blobs posts _ _ hFetching _ hResult =>
          obtain ⟨bodies, hDownloads, hFiles⟩ := hFetching.fetched fetched rfl
          obtain ⟨embedded, rfl⟩ := hResult result rfl
          exact ⟨listing, trees, blobs, posts, bodies, fetched, embedded, rfl,
            hListed.gets listing rfl, hDownloads, hFiles, rfl⟩

variable {url : Url} (hRequest :
  (service.draft .json (service.commitUrl plan.repository)).prepare = .ok (url, request))
include hRequest

/-- While it resolves its branch a run asks for nothing else. -/
theorem request_of_resolving {events : List Event} {result : Except FetchError GitHub.Commit}
    (h : service.Resolving plan.repository events result) :
    ∀ entry ∈ entries events, entry.request = request := by
  intro entry hEntry
  obtain ⟨asked, hPrepare⟩ := h.asks.drafted entry hEntry
  rw [hRequest] at hPrepare
  cases hPrepare
  rfl

/-- A branch is resolved by a reply that grants the commit. -/
theorem grants_of_resolving {events : List Event}
    (h : service.Resolving plan.repository events (.ok commit)) :
    ∃ entry ∈ entries events, Grants request entry commit := by
  obtain ⟨body, hGets, hCommit⟩ := h.gets commit rfl
  obtain ⟨earlier, asked, head, rfl, hSuccess⟩ := hGets.granted
  have hMem : (⟨asked, .reply head body⟩ : Entry) ∈
      entries (earlier ++ [.sent ⟨asked, .reply head body⟩]) :=
    mem_entries.mpr (List.mem_append_right _ List.mem_cons_self)
  exact ⟨_, hMem, request_of_resolving hRequest h _ hMem, head, body, rfl, hSuccess, hCommit⟩

theorem fetches_self : request.Fetches request.url :=
  ⟨(request_of_prepare hRequest).1, rfl⟩

variable (hService : connected bench plan = .ok service)
include hService

omit hRequest in
/-- A run that was not cancelled before begins with asking for its commit. -/
theorem planned_run (standIn : Option Mock) (world : World) (session : Session)
    (hRunning : session.cancelled = false) :
    (planned bench plan standIn world).run session =
      (mapError .ofFetch (service.resolve world plan.repository) >>= fun commit =>
        proceeding bench plan standIn service commit world).run session := by
  unfold planned staged
  rw [run_checkCancelled, hRunning, if_neg Bool.false_ne_true, hService]
  rfl

omit hRequest in
/-- Such a run ends without a commit, or it proceeds with the one it got. -/
theorem planned_cases (standIn : Option Mock) (world : World) {session : Session}
    (hRunning : session.cancelled = false) :
    ∃ first,
      (∃ error, service.Resolving plan.repository first (.error error) ∧
        (planned bench plan standIn world).run session =
          (.error (.ofFetch error), session.after world first)) ∨
      ∃ found later, service.Resolving plan.repository first (.ok found) ∧
        (session.after world first).cancelled = false ∧
        (planned bench plan standIn world).run session =
          (proceeding bench plan standIn service found world).run (session.after world first) ∧
        Does (· = .error .cancelled)
          (fun world session => (proceeding bench plan standIn service found world).run session)
          world (session.after world first) later ∧
        Proceeding bench plan standIn service found later
          ((planned bench plan standIn world).run session).1 := by
  have hRun := planned_run hService standIn world session hRunning
  obtain ⟨first, hFirst, hResolving⟩ := service.resolve_acts plan.repository world session
  dsimp only at hResolving
  refine ⟨first, ?_⟩
  have hSame := run_mapError RunError.ofFetch (service.resolve world plan.repository) session
  rw [hFirst.after] at hSame
  cases hResult : ((service.resolve world plan.repository).run session).1 with
  | error error =>
      rw [hResult] at hResolving hSame
      exact .inl ⟨error, hResolving, hRun.trans (run_bind_error _ hSame)⟩
  | ok found =>
      rw [hResult] at hResolving hSame
      obtain ⟨later, hLater, hProceeding⟩ :=
        proceeding_acts bench plan standIn service found world (session.after world first)
      rw [run_bind_ok _ hSame] at hRun
      refine .inr ⟨found, later, hResolving, ?_, hRun, hLater, ?_⟩
      · rw [Bool.eq_false_iff]
        intro hCancelled
        have hStopped := hFirst.stopped hRunning hCancelled
        rw [hResult] at hStopped
        cases hStopped
      · rw [hRun]
        exact hProceeding

/-- **A run resolves its branch once**: the reply that grants a commit ends the
asking for it, and the run proceeds with this commit. -/
theorem resolves_once {world : World} {entry : Entry} (hGrants : Grants request entry commit)
    (hEntry : entry ∈ ((planned bench plan standIn world).run (.start false)).2.log)
    (hApart : Apart service plan.repository request
      ((planned bench plan standIn world).run (.start false)).2) :
    ∃ earlier later,
      (∀ other ∈ entries earlier, other.request = request) ∧
        (∀ other ∈ entries later, ¬ other.request.Fetches request.url) ∧
        ((Session.start false).after world (earlier ++ [.sent entry])).cancelled = false ∧
        (planned bench plan standIn world).run (.start false) =
          (proceeding bench plan standIn service commit world).run
            ((Session.start false).after world (earlier ++ [.sent entry])) ∧
        Does (· = .error .cancelled)
          (fun world session =>
            (proceeding bench plan standIn service commit world).run session) world
          ((Session.start false).after world (earlier ++ [.sent entry])) later ∧
        Proceeding bench plan standIn service commit later
          ((planned bench plan standIn world).run (.start false)).1 := by
  have hLog : ∀ events, ((Session.start false).after world events).log = entries events :=
    fun events => Session.log_after events
  have hGranted : ∀ {first : List Event} {result : Except FetchError GitHub.Commit},
      service.Resolving plan.repository first result → entry ∈ entries first →
        (∃ earlier, first = earlier ++ [.sent entry]) ∧ result = .ok commit := by
    intro first result hResolving hMem
    obtain ⟨head, body, hOutcome, hSuccess, hCommit⟩ := hGrants.reply
    exact hResolving.granted entry hMem head body commit hOutcome hSuccess hCommit
  rcases planned_cases hService standIn world (rfl : (Session.start false).cancelled = false) with
    ⟨first, ⟨error, hResolving, hRun⟩ |
      ⟨found, later, hResolving, hGoesOn, hRun, hLater, hProceeding⟩⟩
  · rw [hRun, hLog] at hEntry
    cases (hGranted hResolving hEntry).2
  · rw [hRun, hLater.after, ← Session.after_append] at hEntry hApart
    obtain ⟨granting, hMem, hFound⟩ := grants_of_resolving hRequest hResolving
    have hOthers := hProceeding.apart hApart
      (by rw [hLog, entries_append]; exact List.mem_append_left _ hMem) hFound (by
        intro other hOther
        rw [Session.sent, hLog, entries_append]
        exact List.mem_map_of_mem (List.mem_append_right _ hOther))
    rw [hLog, entries_append] at hEntry
    have hHere : entry ∈ entries first := by
      rcases List.mem_append.mp hEntry with hHere | hThere
      · exact hHere
      · refine absurd ?_ (hOthers entry hThere)
        rw [hGrants.asked]
        exact fetches_self hRequest
    obtain ⟨⟨earlier, rfl⟩, hSame⟩ := hGranted hResolving hHere
    cases hSame
    refine ⟨earlier, later, ?_, hOthers, hGoesOn, hRun, hLater, hProceeding⟩
    intro other hOther
    apply request_of_resolving hRequest hResolving
    rw [entries_append]
    exact List.mem_append_left _ hOther

/-- With the commit pinned, a run proceeds with it after one request. -/
theorem planned_granted {world : World} {entry : Entry} (standIn : Option Mock)
    (hGrants : Grants request entry commit)
    (hPinned : ∀ before, world.answer before request = entry.outcome) :
    (planned bench plan standIn world).run (.start false) =
      (proceeding bench plan standIn service commit world).run
        ((Session.start false).step world (.sent entry)) := by
  obtain ⟨asked, outcome⟩ := entry
  obtain ⟨head, body, hOutcome, hSuccess, hCommit⟩ := hGrants.reply
  obtain rfl : asked = request := hGrants.asked
  obtain rfl : outcome = .reply head body := hOutcome
  have hResolve : (service.resolve world plan.repository).run (.start false) =
      (.ok commit, (Session.start false).step world (.sent ⟨asked, .reply head body⟩)) :=
    GitHub.getJson_granted rfl hRequest (hPinned _) hSuccess hCommit
  have hSame := run_mapError RunError.ofFetch (service.resolve world plan.repository)
    (.start false)
  rw [hResolve] at hSame
  rw [planned_run hService standIn world _ rfl]
  exact run_bind_ok _ hSame

/-- With the commit pinned, a run does what it did from its commit on. -/
theorem planned_pinned {world : World} {entry : Entry} {earlier later : List Event}
    (hSteady : world.Steady request.url) (hGrants : Grants request entry commit)
    (hEarlier : ∀ other ∈ entries earlier, other.request = request)
    (hOthers : ∀ other ∈ entries later, ¬ other.request.Fetches request.url)
    (hGoesOn : ((Session.start false).after world (earlier ++ [.sent entry])).cancelled = false)
    (hLater : Does (· = .error .cancelled)
      (fun world session => (proceeding bench plan standIn service commit world).run session) world
      ((Session.start false).after world (earlier ++ [.sent entry])) later) :
    (planned bench plan standIn (world.pinned request.url entry.outcome (waits earlier))).run
        (.start false) =
      (((proceeding bench plan standIn service commit world).run
          ((Session.start false).after world (earlier ++ [.sent entry]))).1,
        (Session.start false).after (world.pinned request.url entry.outcome (waits earlier))
          (.sent entry :: later)) := by
  have hFetches := fetches_self hRequest
  have hOwn : entry.request.Fetches request.url := by
    rw [hGrants.asked]
    exact hFetches
  have hAnswers : ∀ before,
      (world.pinned request.url entry.outcome (waits earlier)).answer before request =
        entry.outcome := fun before => if_pos hFetches
  rw [planned_granted hRequest hService standIn hGrants hAnswers]
  apply hLater.replayed _ _ hGoesOn.symm
  -- So far both runs have asked for nothing but the commit.
  refine agrees_pinned entry.outcome hSteady hLater.told hOthers ?_ ?_
  · rw [others_eq_nil, others_eq_nil]
    · rw [Session.sent_after, entries_append, List.map_append]
      intro other hOther
      rcases List.mem_append.mp hOther with hNone | hSent
      · cases hNone
      · rcases List.mem_append.mp hSent with hBefore | hLast
        · obtain ⟨found, hFound, rfl⟩ := List.mem_map.mp hBefore
          rw [hEarlier found hFound]
          exact hFetches
        · obtain rfl := List.mem_singleton.mp hLast
          exact hOwn
    · intro other hOther
      obtain rfl := List.mem_singleton.mp hOther
      exact hOwn
  · rw [Session.waits_after, waits_append]
    rfl

end Once

/--
**A run reads one commit.**  Once a complete reply has granted the commit of
the branch, a run does not ask for it again, and all that follows, the outcome
included, is as if this reply were given always.  The listing of a run that
succeeds is that of this commit, and the files are those of its listing.
-/
theorem run_pinned (bench : Workbench) (plan : RunPlan) (world : World) (standIn : Option Mock)
    {service : GitHub} {url : Url} {request : Request} {entry : Entry} {commit : GitHub.Commit}
    (hService : connected bench plan = .ok service)
    (hRequest :
      (service.draft .json (service.commitUrl plan.repository)).prepare = .ok (url, request))
    (hSteady : world.Steady request.url)
    (hEntry : entry ∈ (plan.run bench world ⟨.start false, standIn⟩).2.session.log)
    (hGrants : Grants request entry commit)
    (hApart : Apart service plan.repository request
      (plan.run bench world ⟨.start false, standIn⟩).2.session) :
    ∃ earlier later,
      (plan.run bench world ⟨.start false, standIn⟩).2.session =
          (Session.start false).after world (earlier ++ .sent entry :: later) ∧
        (∀ other ∈ entries earlier, other.request = request) ∧
        (∀ other ∈ entries later, ¬ other.request.Fetches request.url) ∧
        (plan.run bench (world.pinned request.url entry.outcome (waits earlier))
            ⟨.start false, standIn⟩).1 = (plan.run bench world ⟨.start false, standIn⟩).1 ∧
        (plan.run bench (world.pinned request.url entry.outcome (waits earlier))
            ⟨.start false, standIn⟩).2.session =
          (Session.start false).after (world.pinned request.url entry.outcome (waits earlier))
            (.sent entry :: later) ∧
        ∀ result, (plan.run bench world ⟨.start false, standIn⟩).1 = .ok result →
          result.metadata.commitSha = commit.sha ∧
            ∃ listing trees blobs posts bodies fetched embedded,
              later = trees ++ (blobs ++ posts) ∧
              service.Lists plan.repository commit listing trees ∧
              service.Downloads plan.repository (service.wanted (selected plan listing.files))
                bodies blobs ∧
              fetched.files =
                GitHub.texts (service.wanted (selected plan listing.files)) bodies ∧
              result = concluded bench plan (GitHub.snapshotOf plan.repository commit listing)
                fetched embedded := by
  obtain ⟨hResult, hSession⟩ := run_shows plan bench world ⟨.start false, standIn⟩
  rw [hSession] at hEntry hApart
  obtain ⟨earlier, later, hEarlier, hOthers, hGoesOn, hRun, hLater, hProceeding⟩ :=
    resolves_once hRequest hService hGrants hEntry hApart
  obtain ⟨hOtherResult, hOtherSession⟩ := run_shows plan bench
    (world.pinned request.url entry.outcome (waits earlier)) ⟨.start false, standIn⟩
  have hPinned :=
    planned_pinned hRequest hService hSteady hGrants hEarlier hOthers hGoesOn hLater
  refine ⟨earlier, later, ?_, hEarlier, hOthers, ?_, ?_, ?_⟩
  · rw [hSession, hRun, hLater.after, ← Session.after_append, List.append_assoc]
    rfl
  · rw [hOtherResult, hPinned, hResult, hRun]
  · rw [hOtherSession, hPinned]
  · intro result hOk
    rw [← hResult, hOk] at hProceeding
    obtain ⟨listing, trees, blobs, posts, bodies, fetched, embedded, hEvents, hLists, hDownloads,
      hFiles, rfl⟩ := hProceeding.finished
    exact ⟨rfl, listing, trees, blobs, posts, bodies, fetched, embedded, hEvents, hLists,
      hDownloads, hFiles, rfl⟩

/-! ### The branch has moved when it is asked for again -/

namespace Moving

def service : GitHub :=
  { base := "http://localhost", token := "t", settings := bench.settings.github }

def commit : GitHub.Commit := { sha := "c", treeSha := "t" }

def entry : Entry := { request := commitRequest, outcome := .reply granted (commitBody "c") }

theorem eq_ok_of_toOption {ε α : Type} {result : Except ε α} {value : α}
    (h : result.toOption = some value) : result = .ok value := by
  cases result with
  | error error => cases h
  | ok found =>
      cases h
      rfl

theorem connected_service : connected bench plan = .ok service :=
  eq_ok_of_toOption (by decide +kernel)

theorem prepare_commit :
    (service.draft .json (service.commitUrl plan.repository)).prepare =
      .ok (commitRequest.url, commitRequest) :=
  eq_ok_of_toOption (by decide +kernel)

theorem prepare_tree :
    (service.draft .json (service.treeUrl plan.repository "t")).prepare =
      .ok (treeRequest.url, treeRequest) :=
  eq_ok_of_toOption (by decide +kernel)

theorem decode_commit :
    (Json.Document.ofBytes (commitBody "c")).decode (GitHub.commitRecord.decoder "CommitInfo") =
      .ok commit :=
  eq_ok_of_toOption (by decide +kernel)

/-- Other requests are answered by their URL alone. -/
theorem steady : world.Steady commitRequest.url := by
  rw [show commitRequest.url = commitUrl by decide]
  intro before request hOther
  have hAnswer : ∀ before, world.answer before request =
      if request.url.query = none then .reply granted (Utf8.bytes "hi")
      else .reply granted listingBody := fun before => if_neg hOther
  rw [hAnswer, hAnswer]

theorem mem_log : entry ∈ (plan.run bench world ⟨.start false, standIn⟩).2.session.log := by
  rw [run_log.2]
  decide +kernel

theorem grants : Grants commitRequest entry commit :=
  ⟨rfl, granted, commitBody "c", rfl, rfl, decode_commit⟩

theorem apart :
    Apart service plan.repository commitRequest (plan.run bench world ⟨.start false, standIn⟩).2.session := by
  have hReplies : ∀ other ∈ log, other.request = commitRequest →
      other.outcome = .reply busy [] ∨ other.outcome = .reply granted (commitBody "c") := by
    decide +kernel
  have hRequests : ∀ asked ∈ log.map (·.request), asked.url = commitUrl → asked = commitRequest := by
    decide +kernel
  constructor
  · intro other hOther found hFound url asked hPrepare
    rw [run_log.2] at hOther
    obtain ⟨head, body, hOutcome, hSuccess, hCommit⟩ := hFound.reply
    rcases hReplies other hOther hFound.asked with hBusy | hGranted
    · rw [hOutcome] at hBusy
      cases hBusy
      cases hSuccess
    · rw [hOutcome] at hGranted
      cases hGranted
      rw [decode_commit] at hCommit
      cases hCommit
      rw [show commit.treeSha = "t" from rfl, prepare_tree] at hPrepare
      cases hPrepare
      decide
  · intro asked hAsked sha url hPrepare hSame
    rw [Session.sent, run_log.2] at hAsked
    obtain rfl := hRequests asked hAsked hSame
    -- A file is asked for under another media type than a commit.
    have hHeaders : commitRequest.headers =
        [("user-agent", "repodex/0.3.0"), ("authorization", "Bearer t"),
          ("accept", "application/vnd.github.raw+json"), ("x-github-api-version", "2022-11-28")] :=
      (request_of_prepare hPrepare).2
    exact absurd hHeaders (by decide)

end Moving

open Moving in
theorem run_pinned_moving :
    (connected bench plan = .ok Moving.service ∧
      (Moving.service.draft .json (Moving.service.commitUrl plan.repository)).prepare =
        .ok (commitRequest.url, commitRequest) ∧
      world.Steady commitRequest.url ∧
      entry ∈ (plan.run bench world ⟨.start false, standIn⟩).2.session.log ∧
      Grants commitRequest entry commit ∧
      Apart Moving.service plan.repository commitRequest (plan.run bench world ⟨.start false, standIn⟩).2.session) ∧
    ∃ earlier later,
      (plan.run bench world ⟨.start false, standIn⟩).2.session =
          (Session.start false).after world (earlier ++ .sent entry :: later) ∧
        (∀ other ∈ entries later, ¬ other.request.Fetches commitRequest.url) ∧
        (plan.run bench (world.pinned commitRequest.url entry.outcome (waits earlier))
            ⟨.start false, standIn⟩).1 = (plan.run bench world ⟨.start false, standIn⟩).1 ∧
        ∀ result, (plan.run bench world ⟨.start false, standIn⟩).1 = .ok result →
          result.metadata.commitSha = "c" := by
  refine ⟨⟨connected_service, prepare_commit, steady, mem_log, grants, apart⟩, ?_⟩
  obtain ⟨earlier, later, hSession, _, hOthers, hResult, _, hCommit⟩ :=
    run_pinned bench plan world standIn connected_service prepare_commit steady mem_log grants
      apart
  exact ⟨earlier, later, hSession, hOthers, hResult, fun result hOk => (hCommit result hOk).1⟩

end SourceIndex.Run
