import SourceIndex.Http.Session
import SourceIndex.Json.Decode
import SourceIndex.Repository.Basic
import SourceIndex.Repository.Error
import SourceIndex.Secret
import SourceIndex.Settings.Basic

/-!
# Fetching from GitHub

A branch is resolved to a commit once; the listing and the contents of its files are then asked
for by their own names, so a run sees one commit whatever happens to the branch meanwhile.
Failures of the network and of overloaded servers are retried, all others end the fetching.

Files are got one at a time here, however many downloads the settings allow at once. What comes
of a file depends on the replies to its own requests alone, and both the files and the first
error are told in the order of the files. So as long as a run is not cancelled, downloads at once
change nothing but the order of the requests and how many are under way when one fails. Which
error a cancelled run ends with while several downloads are under way is not told here.
-/

namespace SourceIndex

/-- Access to the service. -/
structure GitHub where
  /-- The URL of the service, without slashes at its end. -/
  base : String
  token : String
  settings : FetchSettings
deriving Repr, DecidableEq

namespace GitHub

open Http Http.Online

/-- A URL without slashes at its end. -/
def withoutSlashes (url : String) : String :=
  String.ofList (Text.trimEndWhere (· == '/') url.toList)

/-- Access with a token, which must not be blank. -/
def connect (token : Secret) (settings : FetchSettings) : Except FetchError GitHub :=
  if token.isBlank then .error (.auth "a GitHub token is required")
  else
    .ok { base := withoutSlashes settings.apiUrl, token := Text.trimmed token.exposed, settings }

/-! ### One request -/

/-- The kinds of contents that are asked for. -/
inductive Media where
  | json
  | raw
deriving Repr, DecidableEq

/-- The name of a kind of contents. -/
def Media.name : Media → String
  | json => "application/vnd.github+json"
  | raw => "application/vnd.github.raw+json"

/-- The request for the contents of a URL. -/
def draft (service : GitHub) (media : Media) (url : String) : Draft :=
  { method := .get, url, bearer := service.token
    headers := [("accept", media.name), ("x-github-api-version", "2022-11-28")], body := "" }

/-- Whether a reply refuses a request because there were too many. -/
def isRateLimit (head : Head) : Bool :=
  head.status == 429 ||
    (head.status == 403 &&
      (head.header? "x-ratelimit-remaining" == some "0" || (head.header? "retry-after").isSome))

/-- The error that a reply other than a success means. -/
def statusError (url : String) (head : Head) (body : List UInt8) : FetchError :=
  let detail := url ++ " returned " ++ head.status.describe ++ ": " ++ quote body
  if isRateLimit head then .rateLimited detail
  else if head.status = 401 ∨ head.status = 403 then .auth detail
  else if head.status = 404 ∨ head.status = 409 ∨ head.status = 422 then .notFound detail
  else if head.status.isServerError then .network detail
  else .invalidResponse detail

/-- An error is final unless another attempt may help. -/
def refuse (service : GitHub) (number : Nat) (error : FetchError) (retryAfter : Option Nat) :
    Verdict FetchError (List UInt8) :=
  { final := .error error
    again :=
      if error.isRetryable then
        some (min service.settings.maxBackoffSecs (retryAfter.getD (backoff number)))
      else none }

/-- What an attempt to get the contents of a URL means. -/
def judge (service : GitHub) (url : String) (number : Nat) :
    Received → Verdict FetchError (List UInt8)
  | .nothing failure => service.refuse number (.network (url ++ ": " ++ failure.message)) none
  | .part head failure =>
    if head.status.isSuccess then
      service.refuse number (.network (url ++ ": body read failed: " ++ failure.message)) none
    else service.refuse number (statusError url head []) head.retryAfter?
  | .whole head body =>
    if head.status.isSuccess then { final := .ok body, again := none }
    else service.refuse number (statusError url head body) head.retryAfter?

/-- Gets the contents of a URL. -/
def get (service : GitHub) (world : World) (media : Media) (url : String) :
    Online FetchError (List UInt8) :=
  retry world .cancelled (service.draft media url) (service.judge url)
    service.settings.maxRetries 0

/-- Gets the contents of a URL and reads them as JSON. -/
def getJson (service : GitHub) (world : World) (decoder : Json.Decoder α) (url : String) :
    Online FetchError α := do
  let body ← service.get world .json url
  match (Json.Document.ofBytes body).decode decoder with
  | .ok value => return value
  | .error error => throw (.invalidResponse (url ++ ": " ++ error.message))

/-! ### The forms of the replies -/

open Json (Decoder Record)

/-- A commit and the listing that it names. -/
structure Commit where
  sha : String
  treeSha : String
deriving Repr, DecidableEq

/-- The name of an object. -/
def objectRecord : Record String := .required "sha" .string

/-- How a commit is read. -/
def commitRecord : Record Commit :=
  let detail : Record String := .required "tree" (objectRecord.decoder "ObjectRef")
  Record.pure Commit.mk
    |>.seq (.required "sha" .string)
    |>.seq (.required "commit" (detail.decoder "CommitDetail"))

/-- An item of a listing: a file, or something else. -/
structure Item where
  path : String
  kind : String
  sha : String
  size : Nat
deriving Repr, DecidableEq

/-- How an item of a listing is read. -/
def itemRecord : Record Item :=
  Record.pure Item.mk
    |>.seq (.required "path" .string)
    |>.seq (.required "type" .string)
    |>.seq (.required "sha" .string)
    |>.seq (.withDefault "size" (.nat "u64") 0)

/-- A listing, and whether it was cut short. -/
structure Listing where
  items : List Item
  truncated : Bool
deriving Repr, DecidableEq

/-- How a listing is read. -/
def listingRecord : Record Listing :=
  Record.pure Listing.mk
    |>.seq (.required "tree" (.list (itemRecord.decoder "TreeItem")))
    |>.seq (.withDefault "truncated" .bool false)

/-- The files of a listing. -/
def Listing.files (listing : Listing) : List ListedFile :=
  (listing.items.filter (·.kind == "blob")).map fun item =>
    { path := item.path, sha := item.sha, size := item.size }

/-! ### Snapshots and files -/

/-- The URL of a repository. -/
def repositoryUrl (service : GitHub) (repository : RepositoryRef) : String :=
  service.base ++ "/repos/" ++ repository.owner ++ "/" ++ repository.repo

/-- The URL of the commit of a branch. -/
def commitUrl (service : GitHub) (repository : RepositoryRef) : String :=
  service.repositoryUrl repository ++ "/commits/" ++ repository.branch

/-- The URL of a listing. -/
def treeUrl (service : GitHub) (repository : RepositoryRef) (sha : String) : String :=
  service.repositoryUrl repository ++ "/git/trees/" ++ sha ++ "?recursive=1"

/-- The URL of the contents of a file. -/
def blobUrl (service : GitHub) (repository : RepositoryRef) (sha : String) : String :=
  service.repositoryUrl repository ++ "/git/blobs/" ++ sha

/-- Resolves a branch and lists the files of its commit. -/
def snapshot (service : GitHub) (world : World) (repository : RepositoryRef) :
    Online FetchError Snapshot := do
  let commit ← service.getJson world (commitRecord.decoder "CommitInfo")
    (service.commitUrl repository)
  let listing ← service.getJson world (listingRecord.decoder "TreeListing")
    (service.treeUrl repository commit.treeSha)
  return {
    repository, commitSha := commit.sha, treeSha := commit.treeSha
    files := listing.files, truncated := listing.truncated }

/-- Gets a file. A file that is too large is skipped and not asked for, one that is no text is
skipped. -/
def fetchFile (service : GitHub) (world : World) (repository : RepositoryRef)
    (file : ListedFile) : Online FetchError (SourceFile ⊕ SkippedFile) := do
  let limit := service.settings.maxFileBytes
  if limit < file.size then
    return .inr ⟨file.path, s!"size {file.size} exceeds limit of {limit} bytes"⟩
  let body ← service.get world .raw (service.blobUrl repository file.sha)
  match Utf8.decode? body with
  | some content => return .inl ⟨file.path, content⟩
  | none => return .inr ⟨file.path, "content is not valid UTF-8"⟩

/-- Gets files one after the other, whatever `concurrency` is; the first error ends the fetching. -/
def fetchFiles (service : GitHub) (world : World) (repository : RepositoryRef) :
    List ListedFile → Online FetchError FetchedFiles
  | [] => return { files := [], skipped := [] }
  | file :: rest => do
    let found ← service.fetchFile world repository file
    let others ← service.fetchFiles world repository rest
    match found with
    | .inl source => return { others with files := source :: others.files }
    | .inr skipped => return { others with skipped := skipped :: others.skipped }

/-- Resolves a branch and gets all its files. -/
def fetch (service : GitHub) (world : World) (repository : RepositoryRef) :
    Online FetchError (Snapshot × FetchedFiles) := do
  let snapshot ← service.snapshot world repository
  return (snapshot, ← service.fetchFiles world repository snapshot.files)

end GitHub

end SourceIndex
