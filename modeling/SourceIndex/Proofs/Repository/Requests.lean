import SourceIndex.Proofs.Http.Attempts
import SourceIndex.Repository.GitHub

/-!
# Requests for a repository

What is asked of GitHub while a branch is resolved, its listing is got and its
files are downloaded.  The contents of a URL are got by one request that may
be retried; they are got when, and only when, a complete reply grants them,
and that reply is the last thing that happens.

Nothing is known about the server.  Each URL is tied to what was received
before it: that of a listing to the commit, those of files to the listing.

## Main results

* `Getting.gets`, `retries_granted` — contents are got by the one reply that
  grants them, and by no other.
* `resolve_acts`, `list_acts`, `fetchFiles_acts` — what is asked, and what a
  success has received.
-/

namespace SourceIndex.GitHub

open Http Http.Online

/-! ## One URL -/

/-- What is asked to get the contents of a URL. -/
def Asks (service : GitHub) (media : Media) (url : String) (events : List Event) : Prop :=
  Online.Asks (service.draft media url)
    (fun number received => (service.judge url number received).again)
    service.settings.maxRetries events

/-- The contents of a URL are got: the last thing that happens is the complete
reply that grants them. -/
structure Gets (service : GitHub) (media : Media) (url : String) (body : List UInt8)
    (events : List Event) : Prop where
  asks : service.Asks media url events
  granted : ∃ earlier request head, events = earlier ++ [.sent ⟨request, .reply head body⟩] ∧
    head.status.isSuccess = true

/-- The events of getting the contents of a URL, with the result. -/
def Getting (service : GitHub) (media : Media) (url : String) :
    List Event → Except FetchError (List UInt8) → Prop :=
  Retries .cancelled (service.draft media url) (service.judge url) service.settings.maxRetries 0

theorem get_acts (service : GitHub) (media : Media) (url : String) :
    Acts .cancelled (fun world => service.get world media url) (service.Getting media url) :=
  retry_acts service.settings.maxRetries 0

section Url

variable {service : GitHub} {media : Media} {url : String} {number left : Nat}
  {received : Received} {body : List UInt8} {events : List Event}
  {result : Except FetchError (List UInt8)}

theorem judge_success {head : Head} (hSuccess : head.status.isSuccess = true) :
    service.judge url number (.whole head body) = { final := .ok body, again := none } :=
  if_pos hSuccess

/-- Contents come from complete replies that grant them. -/
theorem judge_ok (h : (service.judge url number received).final = .ok body) :
    ∃ head, received = .whole head body ∧ head.status.isSuccess = true := by
  cases received with
  | nothing failure => cases h
  | part head failure =>
      have hFinal : (if head.status.isSuccess then
          service.refuse number (.network (url ++ ": body read failed: " ++ failure.message)) none
        else service.refuse number (statusError url head []) head.retryAfter?).final =
          .ok body := h
      split at hFinal
      · cases hFinal
      · cases hFinal
  | whole head found =>
      by_cases hSuccess : head.status.isSuccess = true
      · rw [judge_success hSuccess] at h
        cases h
        exact ⟨head, rfl, hSuccess⟩
      · rw [judge, if_neg hSuccess] at h
        cases h

theorem received_eq_whole {outcome : Outcome} {asked : Url} {head : Head}
    (h : outcome.received asked = .whole head body) : outcome = .reply head body := by
  cases outcome with
  | reply found contents =>
      cases h
      rfl
  | refused => cases h
  | timedOut => cases h
  | dropped => cases h
  | interrupted found => cases h

/-- Contents that were got are those of the last reply. -/
theorem retries_ok
    (h : Retries .cancelled (service.draft media url) (service.judge url) left number events result)
    (hOk : result = .ok body) :
    ∃ earlier request head, events = earlier ++ [.sent ⟨request, .reply head body⟩] ∧
      head.status.isSuccess = true := by
  induction h with
  | stopped => cases hOk
  | last hAttempt _ =>
      obtain ⟨head, rfl, hSuccess⟩ := judge_ok hOk
      generalize hReceived : Received.whole head body = received at hAttempt
      cases hAttempt with
      | unusable _ => cases hReceived
      | sent outcome _ =>
          obtain rfl := received_eq_whole hReceived.symm
          exact ⟨[], _, head, rfl, hSuccess⟩
  | @again _ _ seconds events later _ _ _ _ _ ih =>
      obtain ⟨earlier, request, head, rfl, hSuccess⟩ := ih hOk
      exact ⟨events ++ .waited seconds :: earlier, request, head, by simp, hSuccess⟩

/-- **A reply that grants the contents ends the asking.** -/
theorem retries_granted
    (h : Retries .cancelled (service.draft media url) (service.judge url) left number events result)
    {entry : Entry} {head : Head} (hEntry : entry ∈ entries events)
    (hReply : entry.outcome = .reply head body) (hSuccess : head.status.isSuccess = true) :
    (∃ earlier, events = earlier ++ [.sent entry]) ∧ result = .ok body := by
  have hGranted : ∀ (number : Nat) {attempt : List Event} {received : Received},
      Attempts (service.draft media url) attempt received → entry ∈ entries attempt →
      attempt = [.sent entry] ∧
        service.judge url number received = { final := .ok body, again := none } := by
    intro number attempt received hAttempt hMem
    cases hAttempt with
    | unusable _ => cases hMem
    | sent outcome _ =>
        obtain rfl := List.mem_singleton.mp hMem
        obtain rfl : outcome = .reply head body := hReply
        exact ⟨rfl, judge_success hSuccess⟩
  induction h with
  | stopped => cases hEntry
  | last hAttempt _ =>
      obtain ⟨rfl, hJudge⟩ := hGranted _ hAttempt hEntry
      rw [hJudge]
      exact ⟨⟨[], rfl⟩, rfl⟩
  | @again _ number seconds events later _ _ hAttempt hAgain _ ih =>
      rw [entries_append, entries_waited] at hEntry
      rcases List.mem_append.mp hEntry with hHere | hLater
      · obtain ⟨_, hJudge⟩ := hGranted number hAttempt hHere
        rw [hJudge] at hAgain
        cases hAgain
      · obtain ⟨⟨earlier, rfl⟩, hResult⟩ := ih hLater
        exact ⟨⟨events ++ .waited seconds :: earlier, by simp⟩, hResult⟩

/-- A first reply that grants the contents is the only one. -/
theorem get_granted {world : World} {session : Session} {asked : Url} {request : Request}
    {head : Head} (hRunning : session.cancelled = false)
    (hPrepare : (service.draft media url).prepare = .ok (asked, request))
    (hAnswer : world.answer session.sent request = .reply head body)
    (hSuccess : head.status.isSuccess = true) :
    (service.get world media url).run session =
      (.ok body, session.step world (.sent ⟨request, .reply head body⟩)) := by
  have hAttempted : attempted world (service.draft media url) session =
      (.whole head body, session.step world (.sent ⟨request, .reply head body⟩)) := by
    rw [attempted, hPrepare]
    dsimp only
    rw [hAnswer]
    rfl
  have hFirst := retry_first world FetchError.cancelled (service.draft media url)
    (service.judge url) service.settings.maxRetries hRunning
    (by rw [hAttempted, judge_success hSuccess])
  rw [hAttempted, judge_success hSuccess] at hFirst
  exact hFirst

/-- **Contents are got by a reply that grants them.** -/
theorem Getting.gets (h : service.Getting media url events (.ok body)) :
    service.Gets media url body events :=
  ⟨h.asks, retries_ok h rfl⟩

end Url

/-! ## JSON -/

section Json

variable {α : Type} {service : GitHub} {decoder : Json.Decoder α} {url : String}

/-- The contents of a URL, read as JSON. -/
def decoded (decoder : Json.Decoder α) (url : String) (body : List UInt8) : Except FetchError α :=
  ((Json.Document.ofBytes body).decode decoder).mapError fun error =>
    .invalidResponse (url ++ ": " ++ error.message)

theorem getJson_eq (service : GitHub) (world : World) (decoder : Json.Decoder α) (url : String) :
    service.getJson world decoder url =
      service.get world .json url >>= fun body => MonadExcept.ofExcept (decoded decoder url body) := by
  unfold getJson decoded
  congr 1
  funext body
  cases (Json.Document.ofBytes body).decode decoder with
  | error error => rfl
  | ok value => rfl

/-- A value is got from a URL: the reply that grants its contents reads as
this value. -/
def GetsJson (service : GitHub) (decoder : Json.Decoder α) (url : String) (value : α)
    (events : List Event) : Prop :=
  ∃ body, service.Gets .json url body events ∧
    (Json.Document.ofBytes body).decode decoder = .ok value

/-- The events of getting a value from a URL, with the result. -/
structure GettingJson (service : GitHub) (decoder : Json.Decoder α) (url : String)
    (events : List Event) (result : Except FetchError α) : Prop where
  asks : service.Asks .json url events
  gets : ∀ value, result = .ok value → service.GetsJson decoder url value events
  /-- A reply that grants a value ends the asking. -/
  granted : ∀ entry ∈ entries events, ∀ head body value, entry.outcome = .reply head body →
    head.status.isSuccess = true → (Json.Document.ofBytes body).decode decoder = .ok value →
      (∃ earlier, events = earlier ++ [.sent entry]) ∧ result = .ok value

theorem decoded_eq_ok_iff {body : List UInt8} {value : α} :
    decoded decoder url body = .ok value ↔
      (Json.Document.ofBytes body).decode decoder = .ok value := by
  unfold decoded
  cases (Json.Document.ofBytes body).decode decoder with
  | error error => exact ⟨fun h => (by cases h), fun h => (by cases h)⟩
  | ok found => exact ⟨fun h => (by cases h; rfl), fun h => (by cases h; rfl)⟩

/-- A first reply that grants a value is the only one. -/
theorem getJson_granted {world : World} {session : Session} {asked : Url} {request : Request}
    {head : Head} {body : List UInt8} {value : α} (hRunning : session.cancelled = false)
    (hPrepare : (service.draft .json url).prepare = .ok (asked, request))
    (hAnswer : world.answer session.sent request = .reply head body)
    (hSuccess : head.status.isSuccess = true)
    (hValue : (Json.Document.ofBytes body).decode decoder = .ok value) :
    (service.getJson world decoder url).run session =
      (.ok value, session.step world (.sent ⟨request, .reply head body⟩)) := by
  have hGet := get_granted hRunning hPrepare hAnswer hSuccess
  rw [getJson_eq, run_bind_ok _ hGet, run_ofExcept, decoded_eq_ok_iff.mpr hValue]

theorem getJson_acts (service : GitHub) (decoder : Json.Decoder α) (url : String) :
    Acts .cancelled (fun world => service.getJson world decoder url)
      (service.GettingJson decoder url) := by
  have hActs := (service.get_acts .json url).bind fun body =>
    Acts.ofExcept FetchError.cancelled (decoded decoder url body)
  simp only [getJson_eq]
  refine hActs.mono ?_
  rintro events result (⟨error, hGet, rfl⟩ | ⟨body, first, second, rfl, hGet, rfl, rfl⟩)
  · refine ⟨hGet.asks, fun _ h => (by cases h), ?_⟩
    intro entry hEntry head body value hReply hSuccess _
    cases (retries_granted hGet hEntry hReply hSuccess).2
  · rw [List.append_nil]
    refine ⟨hGet.asks, fun value h => ⟨body, hGet.gets, decoded_eq_ok_iff.mp h⟩, ?_⟩
    intro entry hEntry head found value hReply hSuccess hValue
    obtain ⟨hLast, hBody⟩ := retries_granted hGet hEntry hReply hSuccess
    cases hBody
    exact ⟨hLast, decoded_eq_ok_iff.mpr hValue⟩

end Json

/-! ## Snapshots -/

section Snapshot

variable (service : GitHub) (world : World) (repository : RepositoryRef)

/-- Resolves a branch. -/
def resolve : Online FetchError Commit :=
  service.getJson world (commitRecord.decoder "CommitInfo") (service.commitUrl repository)

/-- Gets the listing of a commit, under the name that the commit gives it. -/
def list (commit : Commit) : Online FetchError Listing :=
  service.getJson world (listingRecord.decoder "TreeListing")
    (service.treeUrl repository commit.treeSha)

/-- The snapshot of a commit and its listing. -/
def snapshotOf (commit : Commit) (listing : Listing) : Snapshot :=
  { repository, commitSha := commit.sha, treeSha := commit.treeSha
    files := listing.files, truncated := listing.truncated }

theorem snapshot_eq :
    service.snapshot world repository =
      service.resolve world repository >>= fun commit =>
        service.list world repository commit >>= fun listing =>
          pure (snapshotOf repository commit listing) := rfl

/-- The events of resolving a branch, with the result. -/
def Resolving : List Event → Except FetchError Commit → Prop :=
  service.GettingJson (commitRecord.decoder "CommitInfo") (service.commitUrl repository)

/-- The events of getting the listing of a commit, with the result. -/
def Listed (commit : Commit) : List Event → Except FetchError Listing → Prop :=
  service.GettingJson (listingRecord.decoder "TreeListing")
    (service.treeUrl repository commit.treeSha)

/-- A branch is resolved to a commit. -/
def Resolves : Commit → List Event → Prop :=
  service.GetsJson (commitRecord.decoder "CommitInfo") (service.commitUrl repository)

/-- The listing of a commit is got. -/
def Lists (commit : Commit) : Listing → List Event → Prop :=
  service.GetsJson (listingRecord.decoder "TreeListing")
    (service.treeUrl repository commit.treeSha)

theorem resolve_acts :
    Acts .cancelled (fun world => service.resolve world repository)
      (service.Resolving repository) :=
  service.getJson_acts _ _

theorem list_acts (commit : Commit) :
    Acts .cancelled (fun world => service.list world repository commit)
      (service.Listed repository commit) :=
  service.getJson_acts _ _

end Snapshot

/-! ## Files -/

/-- The files that are not too large. -/
def wanted (service : GitHub) (files : List ListedFile) : List ListedFile :=
  files.filter fun file => file.size ≤ service.settings.maxFileBytes

/-- Files are downloaded one after the other, and none is left. -/
inductive Downloads (service : GitHub) (repository : RepositoryRef) :
    List ListedFile → List (List UInt8) → List Event → Prop where
  | nil : Downloads service repository [] [] []
  | cons {file : ListedFile} {rest : List ListedFile} {body : List UInt8}
      {bodies : List (List UInt8)} {events later : List Event} :
      service.Gets .raw (service.blobUrl repository file.sha) body events →
      Downloads service repository rest bodies later →
      Downloads service repository (file :: rest) (body :: bodies) (events ++ later)

/-- Files are downloaded one after the other, as long as each of them is
got. -/
inductive Downloading (service : GitHub) (repository : RepositoryRef) :
    List ListedFile → List Event → Prop where
  | nil {files : List ListedFile} : Downloading service repository files []
  | last {file : ListedFile} {rest : List ListedFile} {events : List Event} :
      service.Asks .raw (service.blobUrl repository file.sha) events →
      Downloading service repository (file :: rest) events
  | cons {file : ListedFile} {rest : List ListedFile} {body : List UInt8}
      {events later : List Event} :
      service.Gets .raw (service.blobUrl repository file.sha) body events →
      Downloading service repository rest later →
      Downloading service repository (file :: rest) (events ++ later)

/-- Everything that is asked for is the contents of some file. -/
theorem Downloading.drafted {service : GitHub} {repository : RepositoryRef}
    {files : List ListedFile} {events : List Event}
    (h : service.Downloading repository files events) :
    ∀ entry ∈ entries events, ∃ sha url,
      (service.draft .raw (service.blobUrl repository sha)).prepare = .ok (url, entry.request) := by
  intro entry hEntry
  induction h with
  | nil => cases hEntry
  | last hAsks => exact ⟨_, hAsks.drafted entry hEntry⟩
  | cons hGets _ ih =>
      rw [entries_append] at hEntry
      rcases List.mem_append.mp hEntry with hHere | hLater
      · exact ⟨_, hGets.asks.drafted entry hHere⟩
      · exact ih hLater

/-- A downloaded file, when it is a text. -/
def text? (file : ListedFile) (body : List UInt8) : Option SourceFile :=
  (Utf8.decode? body).map fun content => ⟨file.path, content⟩

/-- The downloaded files that are texts. -/
def texts (files : List ListedFile) (bodies : List (List UInt8)) : List SourceFile :=
  (files.zip bodies).filterMap fun found => text? found.1 found.2

/-- What becomes of a file with the given contents. -/
def sorted (file : ListedFile) (body : List UInt8) : SourceFile ⊕ SkippedFile :=
  match Utf8.decode? body with
  | some content => .inl ⟨file.path, content⟩
  | none => .inr ⟨file.path, "content is not valid UTF-8"⟩

/-- A file together with those after it. -/
def joined (found : SourceFile ⊕ SkippedFile) (others : FetchedFiles) : FetchedFiles :=
  match found with
  | .inl source => { others with files := source :: others.files }
  | .inr skipped => { others with skipped := skipped :: others.skipped }

section Files

variable {service : GitHub} {repository : RepositoryRef} {file : ListedFile}
  {rest : List ListedFile}

/-- A file that is too large is not asked for. -/
theorem fetchFile_large (world : World) (h : service.settings.maxFileBytes < file.size) :
    service.fetchFile world repository file =
      pure (.inr ⟨file.path,
        s!"size {file.size} exceeds limit of {service.settings.maxFileBytes} bytes"⟩) :=
  if_pos h

theorem fetchFile_fits (world : World) (h : ¬ service.settings.maxFileBytes < file.size) :
    service.fetchFile world repository file =
      service.get world .raw (service.blobUrl repository file.sha) >>= fun body =>
        pure (sorted file body) := by
  rw [show service.fetchFile world repository file = _ from if_neg h]
  congr 1
  funext body
  unfold sorted
  cases Utf8.decode? body with
  | none => rfl
  | some content => rfl

theorem fetchFiles_cons (world : World) :
    service.fetchFiles world repository (file :: rest) =
      service.fetchFile world repository file >>= fun found =>
        service.fetchFiles world repository rest >>= fun others => pure (joined found others) := by
  rw [fetchFiles]
  congr 1
  funext found
  congr 1
  funext others
  cases found with
  | inl source => rfl
  | inr skipped => rfl

theorem wanted_large (rest : List ListedFile) (h : service.settings.maxFileBytes < file.size) :
    service.wanted (file :: rest) = service.wanted rest :=
  List.filter_cons_of_neg (by simpa using h)

theorem wanted_fits (rest : List ListedFile) (h : ¬ service.settings.maxFileBytes < file.size) :
    service.wanted (file :: rest) = file :: service.wanted rest :=
  List.filter_cons_of_pos (by simpa using h)

theorem files_joined_sorted (body : List UInt8) (others : FetchedFiles) {files : List ListedFile}
    {bodies : List (List UInt8)} (h : others.files = texts files bodies) :
    (joined (sorted file body) others).files = texts (file :: files) (body :: bodies) := by
  rw [texts, List.zip_cons_cons, List.filterMap_cons]
  unfold sorted text?
  cases Utf8.decode? body with
  | none => exact h
  | some content => exact congrArg (List.cons _) h

/-- The events of fetching files, with the result. -/
structure Fetching (service : GitHub) (repository : RepositoryRef) (files : List ListedFile)
    (events : List Event) (result : Except FetchError FetchedFiles) : Prop where
  downloading : service.Downloading repository (service.wanted files) events
  fetched : ∀ fetched, result = .ok fetched → ∃ bodies,
    service.Downloads repository (service.wanted files) bodies events ∧
      fetched.files = texts (service.wanted files) bodies

/-- **The events of fetching files.** -/
theorem fetchFiles_acts (service : GitHub) (repository : RepositoryRef)
    (files : List ListedFile) :
    Acts .cancelled (fun world => service.fetchFiles world repository files)
      (service.Fetching repository files) := by
  induction files with
  | nil =>
      refine (Acts.pure FetchError.cancelled ({ files := [], skipped := [] } : FetchedFiles)).mono ?_
      rintro events result ⟨rfl, rfl⟩
      refine ⟨.nil, ?_⟩
      intro fetched hFetched
      cases hFetched
      exact ⟨[], .nil, rfl⟩
  | cons file rest ih =>
      have hRest : ∀ found, Acts FetchError.cancelled
          (fun world => service.fetchFiles world repository rest >>= fun others =>
            pure (joined found others)) _ :=
        fun found => ih.bind fun others => Acts.pure FetchError.cancelled (joined found others)
      simp only [fetchFiles_cons]
      by_cases hLarge : service.settings.maxFileBytes < file.size
      · have hWanted := wanted_large rest hLarge
        simp only [fetchFile_large _ hLarge, pure_bind]
        refine (hRest _).mono ?_
        rintro events result (⟨error, hFetch, rfl⟩ | ⟨others, first, _, rfl, hFetch, rfl, rfl⟩)
        · refine ⟨?_, fun _ h => (by cases h)⟩
          rw [hWanted]
          exact hFetch.downloading
        · obtain ⟨bodies, hDownloads, hFiles⟩ := hFetch.fetched others rfl
          rw [List.append_nil]
          refine ⟨?_, ?_⟩
          · rw [hWanted]
            exact hFetch.downloading
          · intro fetched hFetched
            cases hFetched
            rw [hWanted]
            exact ⟨bodies, hDownloads, hFiles⟩
      · have hWanted := wanted_fits rest hLarge
        simp only [fetchFile_fits _ hLarge, bind_assoc, pure_bind]
        refine ((service.get_acts .raw (service.blobUrl repository file.sha)).bind
          fun body => hRest (sorted file body)).mono ?_
        rintro events result (⟨error, hGet, rfl⟩ | ⟨body, first, second, rfl, hGet, hLater⟩)
        · refine ⟨?_, fun _ h => (by cases h)⟩
          rw [hWanted]
          exact .last hGet.asks
        · rcases hLater with ⟨error, hFetch, rfl⟩ | ⟨others, later, _, rfl, hFetch, rfl, rfl⟩
          · refine ⟨?_, fun _ h => (by cases h)⟩
            rw [hWanted]
            exact .cons hGet.gets hFetch.downloading
          · obtain ⟨bodies, hDownloads, hFiles⟩ := hFetch.fetched others rfl
            rw [List.append_nil]
            refine ⟨?_, ?_⟩
            · rw [hWanted]
              exact .cons hGet.gets hFetch.downloading
            · intro fetched hFetched
              cases hFetched
              rw [hWanted]
              exact ⟨body :: bodies, .cons hGet.gets hDownloads, files_joined_sorted body others hFiles⟩

end Files

end SourceIndex.GitHub
