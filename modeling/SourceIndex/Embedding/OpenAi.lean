import SourceIndex.Embedding.Output
import SourceIndex.Http.Session
import SourceIndex.Json.Decode
import SourceIndex.Json.Writer
import SourceIndex.Secret
import SourceIndex.Settings.Basic

/-!
# The OpenAI embedder

Texts are cut to the length that the service takes and sent in batches. A reply is used only if
it has exactly one vector for each text of its batch and all of one dimension; the vectors may
come in any order. A batch without such a reply fails alone; only the cancellation of the run
ends the embedding as a whole.

Batches are sent one at a time here, however many the limits allow at once. All batches are sent,
what comes of each depends on the replies to its own requests alone, and the results are collected
in the order of the batches. So as long as a run is not cancelled, batches at once change nothing
but the order of the requests; in a cancelled run they change which requests are still sent.
-/

namespace SourceIndex.Embedding

/-- Access to a service for embeddings. -/
structure OpenAi where
  /-- The URL of the service, without slashes at its end. -/
  base : String
  key : Secret
  model : String
  limits : EmbeddingLimits
deriving Repr, DecidableEq

namespace OpenAi

open Http Http.Online

/-- The name of the provider. -/
def name : String := "openai"

/-- Access with a key. -/
def connect (key : Secret) (url model : String) (limits : EmbeddingLimits) : OpenAi :=
  { base := String.ofList (Text.trimEndWhere (· == '/') url.toList), key, model, limits }

/-- The URL that embeddings are asked from. -/
def url (service : OpenAi) : String := service.base ++ "/embeddings"

/-- The body of the request for the embeddings of some texts. -/
def body (service : OpenAi) (texts : List String) : Json :=
  .record [("input", .texts texts), ("model", .text service.model)]

/-- The request for the embeddings of some texts. -/
def draft (service : OpenAi) (texts : List String) : Draft :=
  { method := .post, url := service.url, bearer := service.key.exposed
    headers := [("content-type", "application/json")], body := (service.body texts).render }

/-! ### Attempts -/

/-- The longest wait between two attempts, in seconds. -/
def maxWait : Nat := 30

/-- The wait before another attempt. -/
def wait (number : Nat) (retryAfter : Option Nat) : Nat :=
  min maxWait (retryAfter.getD (backoff number))

/-- A whole reply. -/
structure Reply where
  status : Status
  body : List UInt8
deriving Repr, DecidableEq

/-- What an attempt means. -/
def judge (number : Nat) : Received → Verdict EmbedError Reply
  | .nothing failure =>
    { final := .error (.http failure.message)
      again := if failure.isConnection then some (wait number none) else none }
  | .part _ failure =>
    { final := .error (.http failure.message), again := some (wait number none) }
  | .whole head body =>
    { final :=
        if head.status = 429 then .error .rateLimited else .ok { status := head.status, body }
      again :=
        if head.status = 429 || head.status.isServerError then
          some (wait number head.retryAfter?)
        else none }

/-- Asks for the embeddings of some texts. -/
def ask (service : OpenAi) (world : World) (texts : List String) : Online EmbedError Reply :=
  retry world .cancelled (service.draft texts) judge service.limits.maxRetries 0

/-! ### Reading a reply -/

/-- The vector of the text with the given position in its batch. -/
structure Item where
  index : Nat
  embedding : Components
deriving Repr

/-- How a vector is read. -/
def itemRecord : Json.Record Item :=
  Json.Record.pure Item.mk
    |>.seq (.required "index" (.nat "usize"))
    |>.seq (.required "embedding" (.list .float32))

/-- How the vectors of a reply are read. -/
def itemsRecord : Json.Record (List Item) :=
  .required "data" (.list (itemRecord.decoder "EmbeddingData"))

/-- Reads the body of a reply. -/
def readItems (body : List UInt8) : Except EmbedError (List Item) :=
  let document := Json.Document.ofString (Utf8.decodeLossy body)
  (document.decode (itemsRecord.decoder "EmbeddingResponse")).mapError fun error =>
    .json error.message

/-- The vectors in the order of `count` texts, if they are what was asked for. -/
def arrange (count : Nat) (items : List Item) : Except EmbedError (List Components) := do
  let invalid (detail : String) : EmbedError := .invalidResponse name detail
  if items.length ≠ count then
    throw (invalid s!"expected {count} embeddings, got {items.length}")
  let ordered := items.mergeSort fun a b => a.index ≤ b.index
  if ordered.map (·.index) ≠ List.range count then
    throw (invalid "embedding indexes are not a permutation of the input")
  let vectors := ordered.map (·.embedding)
  let dimension := (vectors.head?.map List.length).getD 0
  if dimension = 0 || vectors.any (·.length != dimension) then
    throw (invalid "inconsistent embedding dimension in one batch")
  return vectors

/-- The vectors of `count` texts in a reply. -/
def read (count : Nat) (reply : Reply) : Except EmbedError (List Components) :=
  if reply.status.isSuccess then (readItems reply.body).bind (arrange count)
  else .error (.status name reply.status (quote reply.body))

/-! ### Batches -/

/-- Embeds the texts of one batch. -/
def embedBatch (service : OpenAi) (world : World) (texts : List String) :
    Online EmbedError (List Components) := do
  let reply ← service.ask world texts
  MonadExcept.ofExcept (read texts.length reply)

/-- Embeds batches one after the other, whatever `concurrency` is, and all of them. -/
def embedBatches (service : OpenAi) (world : World) (texts : List String) :
    List Range → StateM Session (List (Range × Except EmbedError (List Components)))
  | [] => return []
  | range :: rest => do
    let result ← (service.embedBatch world (range.pick texts)).run
    return (range, result) :: (← service.embedBatches world texts rest)

/-- The error of a batch is its result, unless it is fatal. -/
def soften : Range × Except EmbedError (List Components) → Except EmbedError (Range × BatchResult)
  | (range, .ok vectors) => .ok (range, .ok vectors)
  | (range, .error error) =>
    if error.isFatal then .error error else .ok (range, .error error.message)

/-- The batches of some texts. -/
def batches (service : OpenAi) (texts : List String) : List Range :=
  Batches.plan (texts.map (·.length)) service.limits.maxBatchSize service.limits.maxBatchChars

/-- Embeds some texts. -/
def embed (service : OpenAi) (world : World) (texts : List String) : Online EmbedError Output := do
  let inputs := texts.map (cut service.limits.maxInputChars)
  let results ← service.embedBatches world inputs (service.batches inputs)
  return Output.collect (← MonadExcept.ofExcept (results.mapM soften))

end OpenAi

end SourceIndex.Embedding
