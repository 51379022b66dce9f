import Mathlib.Data.List.Forall2
import SourceIndex.Proofs.Embedding.Fewest
import SourceIndex.Proofs.Embedding.Requests
import SourceIndex.Proofs.Embedding.Retrying
import SourceIndex.Proofs.Embedding.Transparency
import SourceIndex.Proofs.Run.Records

/-!
# What requests for embeddings carry

The requests of an embedding fall into blocks, one for each planned batch.  All
requests of a block are the same: they carry the texts of their batch, and one
follows another only when what came of it was worth another attempt.  The
batches, taken together in their order, are the texts as they are sent, cut to
their first characters, and each respects the limits, counted in the characters
that are left.

What a request carries is read from the text of its body, as a server reads it.
Which attempts are made is known from the policy of asking, so the induction
over the batches only puts blocks together.

## Main results

* `carried?_of_prepare` — a request carries the texts of its draft.
* `embedBatch_block` — the requests for one batch.
* `embedBatches_blocks` — those for several batches.
* `embed_carries` — those of an embedding.
-/

namespace SourceIndex.Embedding.OpenAi

open Http Http.Online

/-! ## The texts in a body -/

/-- How the texts of a request are read from its body; its other members are
passed over. -/
def inputRecord : Json.Record (List String) := .required "input" (.list .string)

/-- The texts that a request asks about. -/
def carried? (request : Request) : Option (List String) :=
  ((Json.Document.ofString request.body).decode
    (inputRecord.decoder "EmbeddingRequest")).toOption

/-- The URL and the key of a service can be sent. -/
structure Sendable (service : OpenAi) : Prop where
  url : ∃ url, Url.read? service.url = some url ∧ url.withoutUser.hasHost = true ∧
    url.withoutUser.isWeb = true
  key : Draft.isHeaderValue service.key.exposed = true

section Bodies

variable {service : OpenAi} {texts : List String} {url : Url} {request : Request}

theorem list_texts (texts : List String) :
    Json.Decoder.list Json.Decoder.string (.texts texts) = .ok texts := by
  show (texts.map Json.text).mapM Json.Decoder.string = .ok texts
  induction texts with
  | nil => rfl
  | cons text rest ih =>
      rw [List.map_cons, List.mapM_cons, ih]
      rfl

theorem sound_body (service : OpenAi) (texts : List String) : (service.body texts).Sound :=
  .record (show Json.SoundMembers _ by simp)

/-- A body is read as the texts that are written into it. -/
theorem decode_body (service : OpenAi) (texts : List String) :
    (Json.Document.ofString (service.body texts).render).decode
      (inputRecord.decoder "EmbeddingRequest") = .ok texts := by
  have hDecoder : inputRecord.decoder "EmbeddingRequest" (service.body texts) = .ok texts := by
    have hOther : inputRecord.fields.lookup "model" = none := rfl
    have hFields : inputRecord.readMembers []
        [(.text "input", .texts texts), (.text "model", .text service.model)] =
          .ok [("input", .texts texts)] := by
      simp only [Json.Record.readMembers, hOther, Json.skipFault?, Json.text]
      simp [inputRecord, Json.Record.required, list_texts, Except.map, bind, Except.bind]
    show (do
      let found ← inputRecord.readMembers []
        [(.text "input", .texts texts), (.text "model", .text service.model)]
      inputRecord.assemble _ found) = _
    rw [hFields]
    exact list_texts texts
  rw [(sound_body service texts).document_render, Json.Document.decode]
  dsimp only
  rw [hDecoder]
  rfl

theorem body_of_prepare {draft : Draft} (h : draft.prepare = .ok (url, request)) :
    request.body = draft.body := by
  unfold Draft.prepare at h
  split at h
  · cases h
  · split at h
    · cases h
    · split at h
      · cases h
      · split at h
        · cases h
        · cases h
          rfl

/-- **A request carries the texts of its draft.** -/
theorem carried?_of_prepare (h : (service.draft texts).prepare = .ok (url, request)) :
    request.method = .post ∧ carried? request = some texts := by
  refine ⟨(request_of_prepare h).1, ?_⟩
  have hBody : request.body = (service.body texts).render := body_of_prepare h
  rw [carried?, hBody, decode_body]
  rfl

theorem Sendable.prepare (h : service.Sendable) (texts : List String) :
    ∃ url request, (service.draft texts).prepare = .ok (url, request) := by
  obtain ⟨url, hUrl, hHost, hWeb⟩ := h.url
  have hRead : Url.read? (service.draft texts).url = some url := hUrl
  have hKey : Draft.isHeaderValue (service.draft texts).bearer = true := h.key
  simp only [Draft.prepare, hRead, Option.map_some, hHost, hKey, hWeb, Bool.not_true]
  exact ⟨_, _, rfl⟩

end Bodies

/-! ## The requests for one batch -/

/-- What is asked for one batch, and what comes of it. -/
structure Block (service : OpenAi) (batch : List String) (block : List Entry) : Prop where
  /-- All are the one request for this batch, and it carries the texts of it. -/
  drafted : ∀ entry ∈ block, ∃ url, (service.draft batch).prepare = .ok (url, entry.request)
  carries : ∀ entry ∈ block,
    entry.request.method = .post ∧ carried? entry.request = some batch
  count : block.length ≤ service.limits.maxRetries + 1
  /-- Only what was worth another attempt is followed by one. -/
  again : ∀ entry ∈ block.dropLast, ∃ url, Retryable (entry.outcome.received url)

/-- Every request is answered by a complete reply after which no other attempt
is worth while. -/
def Settles (world : World) : Prop :=
  ∀ before request, ∃ head body, world.answer before request = .reply head body ∧
    ¬ Retryable (.whole head body)

section Blocks

variable {service : OpenAi} {world : World} {batch : List String} {session : Session}

theorem Block.nil (service : OpenAi) (batch : List String) : Block service batch [] := by
  refine ⟨?_, ?_, Nat.zero_le _, ?_⟩
  all_goals exact fun _ hMem => absurd hMem List.not_mem_nil

/-- The attempts of a run of retries are a block. -/
theorem Block.of_run {wait : Nat → Nat} {last : Nat} {result : Except EmbedError Reply}
    {after : Session}
    (hRun : policy.Run .cancelled
      ⟨world, service.draft batch, service.limits.maxRetries, session⟩ wait last result after) :
    Block service batch
      ((⟨world, service.draft batch, service.limits.maxRetries, session⟩ : Rounds).entries
        (last + 1)) := by
  have hLast := hRun.last_le
  have hRetryable (number : Nat) (hNumber : number < last) := hRun.retryable_of_lt hNumber
  unfold Rounds.receives at hRetryable
  unfold Rounds.entries
  cases hPrepare : (service.draft batch).prepare with
  | error failure => exact .nil service batch
  | ok prepared =>
      obtain ⟨url, request⟩ := prepared
      simp only [hPrepare] at hRetryable ⊢
      refine ⟨?_, ?_, by simpa using hLast, ?_⟩
      · intro entry hEntry
        obtain ⟨_, _, rfl⟩ := List.mem_map.mp hEntry
        exact ⟨url, hPrepare⟩
      · intro entry hEntry
        obtain ⟨_, _, rfl⟩ := List.mem_map.mp hEntry
        exact carried?_of_prepare hPrepare
      · intro entry hEntry
        rw [List.range_succ, List.map_append, List.map_singleton, List.dropLast_concat] at hEntry
        obtain ⟨number, hNumber, rfl⟩ := List.mem_map.mp hEntry
        exact ⟨url, hRetryable number (List.mem_range.mp hNumber)⟩

/-- What is asked for a batch in a session: its block, which is empty only when
the batch cannot be sent, and which is one request when every reply settles
what it is asked. -/
structure Asked (service : OpenAi) (world : World) (batch : List String) (session : Session)
    (block : List Entry) (after : Session) : Prop where
  shape : Block service batch block
  log : after.log = session.log ++ block
  sent : service.Sendable → session.cancelled = false → block ≠ []
  settled : service.Sendable → Settles world → session.cancelled = false →
    block.length = 1 ∧ after.cancelled = false

theorem embedBatch_run_snd (service : OpenAi) (world : World) (batch : List String)
    (session : Session) :
    ((service.embedBatch world batch).run session).2 =
      ((service.ask world batch).run session).2 := by
  unfold embedBatch
  rw [run_bind]
  rcases (service.ask world batch).run session with ⟨error | reply, after⟩
  · rfl
  · dsimp only
    rw [run_ofExcept]

/-- **The requests for one batch.** -/
theorem embedBatch_block (service : OpenAi) (world : World) (batch : List String)
    (session : Session) :
    ∃ block, Asked service world batch session block
      ((service.embedBatch world batch).run session).2 := by
  rw [embedBatch_run_snd]
  cases hSession : session.cancelled with
  | true =>
      have hAsk : (service.ask world batch).run session = (.error .cancelled, session) :=
        retry_cancelled world EmbedError.cancelled (service.draft batch) judge _ hSession
      rw [hAsk]
      refine ⟨[], .nil service batch, (List.append_nil _).symm, ?_, ?_⟩
      · intro _ hRunning
        rw [hSession] at hRunning
        cases hRunning
      · intro _ _ hRunning
        rw [hSession] at hRunning
        cases hRunning
  | false =>
      obtain ⟨wait, last, hRun⟩ := Rounds.retry_run
        ⟨world, service.draft batch, service.limits.maxRetries, session⟩ .cancelled judge_governs
        hSession
      refine ⟨_, .of_run hRun, hRun.log, ?_, ?_⟩
      · intro hSendable _
        obtain ⟨url, request, hPrepare⟩ := hSendable.prepare batch
        simp [Rounds.entries, hPrepare]
      · intro hSendable hSettles _
        obtain ⟨url, request, hPrepare⟩ := hSendable.prepare batch
        obtain ⟨head, body, hAnswer, hFinal⟩ := hSettles session.sent request
        have hReceived : (⟨world, service.draft batch, service.limits.maxRetries, session⟩ :
            Rounds).receives 0 = .whole head body := by
          simp only [Rounds.receives, hPrepare, List.replicate_zero, List.append_nil, hAnswer]
          rfl
        have hStops : ¬ policy.Retryable ((⟨world, service.draft batch,
            service.limits.maxRetries, session⟩ : Rounds).receives 0) := by
          rw [hReceived]
          exact hFinal
        obtain rfl : last = 0 := Nat.le_zero.mp (hRun.least.2 (.inr (.inl hStops)))
        exact ⟨by simp [Rounds.entries, hPrepare], (hRun.decided (.inr hStops)).2.2⟩

end Blocks

/-! ## The requests for several batches -/

section Batches

variable {service : OpenAi} {world : World}

/-- A run that goes on after a batch went on before it. -/
theorem cancelled_of_embedBatch {texts : List String} {session : Session}
    (h : ((service.embedBatch world texts).run session).2.cancelled = false) :
    session.cancelled = false := by
  obtain ⟨_, hDoes, _⟩ := service.embedBatch_acts texts world session
  exact hDoes.running h

theorem cancelled_of_embedBatches {texts : List String} {ranges : List Range} {session : Session}
    (h : ((service.embedBatches world texts ranges).run session).2.cancelled = false) :
    session.cancelled = false := by
  obtain ⟨_, hDoes, _⟩ := service.embedBatches_acts texts ranges world session
  exact hDoes.running h

/-- What is asked for several batches in a session: one block for each of them. -/
structure AskedAll (service : OpenAi) (world : World) (batches : List (List String))
    (session : Session) (blocks : List (List Entry)) (after : Session) : Prop where
  shapes : List.Forall₂ (Block service) batches blocks
  log : after.log = session.log ++ blocks.flatten
  sent : service.Sendable → after.cancelled = false → ∀ block ∈ blocks, block ≠ []
  settled : service.Sendable → Settles world → session.cancelled = false →
    (∀ block ∈ blocks, block.length = 1) ∧ after.cancelled = false

/-- **The requests for several batches.** -/
theorem embedBatches_blocks (service : OpenAi) (world : World) (texts : List String)
    (ranges : List Range) :
    ∀ session, ∃ blocks, AskedAll service world (ranges.map (·.pick texts)) session blocks
      ((service.embedBatches world texts ranges).run session).2 := by
  induction ranges with
  | nil =>
      intro session
      have hNone : (service.embedBatches world texts []).run session = ([], session) := by
        rw [embedBatches]
        rfl
      rw [hNone]
      refine ⟨[], .nil, (List.append_nil _).symm, ?_, ?_⟩
      · intro _ _ block hBlock
        exact absurd hBlock List.not_mem_nil
      · intro _ _ hRunning
        exact ⟨fun block hBlock => absurd hBlock List.not_mem_nil, hRunning⟩
  | cons range rest ih =>
      intro session
      obtain ⟨block, hBlock⟩ := embedBatch_block service world (range.pick texts) session
      obtain ⟨blocks, hBlocks⟩ := ih ((service.embedBatch world (range.pick texts)).run session).2
      rw [embedBatches_cons]
      refine ⟨block :: blocks, .cons hBlock.shape hBlocks.shapes, ?_, ?_, ?_⟩
      · rw [hBlocks.log, hBlock.log, List.flatten_cons, List.append_assoc]
      · intro hSendable hRunning other hOther
        rcases List.mem_cons.mp hOther with rfl | hLater
        · exact hBlock.sent hSendable
            (cancelled_of_embedBatch (cancelled_of_embedBatches hRunning))
        · exact hBlocks.sent hSendable hRunning other hLater
      · intro hSendable hSettles hRunning
        obtain ⟨hOne, hBetween⟩ := hBlock.settled hSendable hSettles hRunning
        obtain ⟨hOthers, hAfter⟩ := hBlocks.settled hSendable hSettles hBetween
        exact ⟨List.forall_mem_cons.mpr ⟨hOne, hOthers⟩, hAfter⟩

/-- Blocks of one request each carry the batches, one after the other. -/
theorem carried_of_single {batches : List (List String)} {blocks : List (List Entry)}
    (h : List.Forall₂ (Block service) batches blocks)
    (hSingle : ∀ block ∈ blocks, block.length = 1) :
    blocks.flatten.map (fun entry => carried? entry.request) = batches.map some := by
  induction h with
  | nil => rfl
  | @cons batch block batches blocks hBlock _ ih =>
      obtain ⟨hOne, hOthers⟩ := List.forall_mem_cons.mp hSingle
      obtain ⟨entry, rfl⟩ := List.length_eq_one_iff.mp hOne
      rw [List.flatten_cons, List.map_append, ih hOthers, List.map_singleton,
        (hBlock.carries entry List.mem_cons_self).2]
      rfl

end Batches

/-! ## The batches of some texts -/

/-- A batch that may be sent: it has texts, but not too many, and not too many
characters unless it is a single text. -/
structure WithinLimits (limits : EmbeddingLimits) (batch : List String) : Prop where
  nonempty : batch ≠ []
  size : batch.length ≤ max 1 limits.maxBatchSize
  chars : (batch.map String.length).sum ≤ limits.maxBatchChars ∨ batch.length = 1

/-- The texts of batches that tile some positions are the texts at these
positions. -/
theorem flatten_pick {α : Type} (texts : List α) {ranges : List Range} {start stop : Nat}
    (h : Span.Tiles start stop ranges) :
    (ranges.map (·.pick texts)).flatten = (texts.drop start).take (stop - start) := by
  induction ranges generalizing start with
  | nil =>
      have hEnd : start = stop := h
      rw [hEnd, Nat.sub_self]
      rfl
  | cons range rest ih =>
      obtain ⟨rfl, hOrder, hRest⟩ := h
      rw [List.map_cons, List.flatten_cons, ih hRest,
        pick_append texts hOrder hRest.start_le_stop]

theorem plan_allowed (texts : List String) (maxSize maxChars : Nat) :
    ∀ range ∈ Batches.plan (texts.map String.length) maxSize maxChars,
      Batches.Allowed texts maxSize maxChars range :=
  Batches.planFrom_allowed texts List.drop_zero
    ⟨Nat.le_refl 0, by simp [Range.chars, Range.pick], Batches.allowed_empty texts _ _ 0⟩

theorem withinLimits_batches (service : OpenAi) (texts : List String) :
    ∀ batch ∈ (service.batches texts).map (·.pick texts), WithinLimits service.limits batch := by
  intro batch hBatch
  obtain ⟨range, hRange, rfl⟩ := List.mem_map.mp hBatch
  have hLength := service.length_pick_batches texts hRange
  have hSize := Batches.plan_nonempty _ _ _ range hRange
  have hAllowed := plan_allowed texts _ _ range hRange
  refine ⟨?_, ?_, ?_⟩
  · intro hNone
    rw [hNone, List.length_nil] at hLength
    omega
  · rw [hLength]
    exact hAllowed.size
  · rw [hLength]
    exact hAllowed.chars

/--
**What the requests of an embedding carry.**  The texts, cut to their first
characters, fall into batches that respect the limits, and what is asked falls
into one block for each batch, in their order: its requests carry the texts of
the batch, they are no more than allowed, and one follows another only after an
attempt that was worth it.  Each batch is sent unless the run is cancelled, and
when every reply settles what it is asked, each is sent once, so that the
requests carry every text once.
-/
theorem embed_carries (service : OpenAi) (world : World) (texts : List String)
    (session : Session) :
    ∃ batches blocks,
      batches.flatten = texts.map (cut service.limits.maxInputChars) ∧
      (∀ batch ∈ batches, WithinLimits service.limits batch) ∧
      ((service.embed world texts).run session).2.log = session.log ++ blocks.flatten ∧
      List.Forall₂ (Block service) batches blocks ∧
      (service.Sendable → ((service.embed world texts).run session).2.cancelled = false →
        ∀ block ∈ blocks, block ≠ []) ∧
      (service.Sendable → Settles world → session.cancelled = false →
        blocks.flatten.map (fun entry => carried? entry.request) = batches.map some) := by
  have hTiles := service.batches_tile (service.inputs texts)
  have hFlatten := flatten_pick (service.inputs texts) hTiles
  rw [List.drop_zero, Nat.sub_zero, List.take_length] at hFlatten
  obtain ⟨blocks, hBlocks⟩ := embedBatches_blocks service world (service.inputs texts)
    (service.batches (service.inputs texts)) session
  rw [embed_eq]
  refine ⟨_, blocks, hFlatten, service.withinLimits_batches (service.inputs texts), hBlocks.log,
    hBlocks.shapes, hBlocks.sent, ?_⟩
  intro hSendable hSettles hRunning
  exact carried_of_single hBlocks.shapes (hBlocks.settled hSendable hSettles hRunning).1

/-! ### Three texts in two batches, both refused -/

namespace Refused

def world : World :=
  { answer := fun _ _ => .reply ⟨400, []⟩ [], interrupts := World.patient }

theorem sendable : Backwards.service.Sendable :=
  ⟨⟨Backwards.endpoint, Backwards.read_endpoint, rfl, rfl⟩, rfl⟩

theorem settles : Settles world := by
  intro before request
  refine ⟨_, _, rfl, ?_⟩
  rintro (⟨_, _, hBusy⟩ | _ | _)
  revert hBusy
  decide

end Refused

/-- A refusal settles a request, so each batch is sent once; the second text is
cut. -/
theorem embed_carries_refused :
    Backwards.service.Sendable ∧ Settles Refused.world ∧
      ∃ batches : List (List String), batches.flatten = ["a", "bbb", "cc"] ∧
        (∀ batch ∈ batches, WithinLimits Backwards.service.limits batch) ∧
        ((Backwards.service.embed Refused.world ["a", "bbbb", "cc"]).run (.start false)).2.log.map
          (fun entry => carried? entry.request) = batches.map some := by
  obtain ⟨batches, blocks, hFlatten, hLimits, hLog, _, _, hCarried⟩ :=
    embed_carries Backwards.service Refused.world ["a", "bbbb", "cc"] (.start false)
  refine ⟨Refused.sendable, Refused.settles, batches, ?_, hLimits, ?_⟩
  · rw [hFlatten]
    decide
  · rw [hLog]
    exact hCarried Refused.sendable Refused.settles rfl

end SourceIndex.Embedding.OpenAi
