import SourceIndex.Embedding.OpenAi
import SourceIndex.Proofs.Embedding.Collection
import SourceIndex.Proofs.Http.Retry
import SourceIndex.Proofs.Json.Documents

/-!
# Replies of the OpenAI service

The checks that a reply has to pass, and what they leave.  A reply is
arranged when its items, sorted by their indexes, are numbered like the texts
of the batch and their vectors have one dimension other than zero; every other
reply is an error that is not fatal.  So whatever a server does, a batch ends
with a full set of vectors, with an error of its own, or with the cancellation
of the run.

## Main results

* `arrange_eq_ok_iff` — which replies are arranged, and to what.
* `embedBatch_ends`, `embedBatch_stopped` — how a batch can end.
* `embedBatches_results` — so does each of several batches.
-/

namespace SourceIndex.Embedding.OpenAi

open Http Http.Online

/-! ## Arranging a reply -/

/-- The items of a reply in the order of their texts. -/
def ordered (items : List Item) : List Item := items.mergeSort fun a b => a.index ≤ b.index

/-- The dimension of the first of some vectors, zero when there are none. -/
def firstDimension (vectors : List Components) : Nat := (vectors.head?.map List.length).getD 0

/-- The checks on a reply, one after the other. -/
theorem arrange_eq (count : Nat) (items : List Item) :
    arrange count items =
      if items.length ≠ count then
        .error (.invalidResponse name s!"expected {count} embeddings, got {items.length}")
      else if (ordered items).map (·.index) ≠ List.range count then
        .error (.invalidResponse name "embedding indexes are not a permutation of the input")
      else if firstDimension ((ordered items).map (·.embedding)) = 0 ||
          ((ordered items).map (·.embedding)).any
            (·.length != firstDimension ((ordered items).map (·.embedding))) then
        .error (.invalidResponse name "inconsistent embedding dimension in one batch")
      else .ok ((ordered items).map (·.embedding)) := by
  unfold arrange ordered firstDimension
  dsimp only
  split
  · rfl
  · split
    · rfl
    · split
      · rfl
      · rfl

/-- **Which replies are arranged, and to what.** -/
theorem arrange_eq_ok_iff {count : Nat} {items : List Item} {vectors : List Components} :
    arrange count items = .ok vectors ↔
      items.length = count ∧ (ordered items).map (·.index) = List.range count ∧
        (ordered items).map (·.embedding) = vectors ∧ firstDimension vectors ≠ 0 ∧
        ∀ vector ∈ vectors, vector.length = firstDimension vectors := by
  rw [arrange_eq]
  by_cases hLength : items.length = count
  · by_cases hIndexes : (ordered items).map (·.index) = List.range count
    · rw [if_neg (by simpa using hLength), if_neg (by simpa using hIndexes)]
      constructor
      · intro h
        split at h
        · cases h
        · next hDimension =>
            cases h
            simp only [Bool.or_eq_true, decide_eq_true_eq, List.any_eq_true, bne_iff_ne, ne_eq,
              not_or, not_exists, not_and, Decidable.not_not] at hDimension
            exact ⟨hLength, hIndexes, rfl, hDimension.1, hDimension.2⟩
      · rintro ⟨_, _, rfl, hNonzero, hUniform⟩
        refine if_neg ?_
        simp only [Bool.or_eq_true, decide_eq_true_eq, List.any_eq_true, bne_iff_ne, ne_eq,
          not_or, not_exists, not_and, Decidable.not_not]
        exact ⟨hNonzero, hUniform⟩
    · rw [if_neg (by simpa using hLength), if_pos hIndexes]
      constructor
      · exact fun h => by cases h
      · exact fun h => absurd h.2.1 hIndexes
  · rw [if_pos hLength]
    constructor
    · exact fun h => by cases h
    · exact fun h => absurd h.1 hLength

/-- What is arranged fills a batch. -/
theorem filled_of_arrange {range : Range} {items : List Item} {vectors : List Components}
    (h : arrange (range.stop - range.start) items = .ok vectors) : Filled range vectors := by
  obtain ⟨hLength, _, rfl, hNonzero, hUniform⟩ := arrange_eq_ok_iff.mp h
  refine ⟨?_, _, hNonzero, hUniform⟩
  rw [List.length_map, ordered, List.length_mergeSort]
  exact hLength

/-! ## Errors that are not fatal -/

theorem arrange_soft {count : Nat} {items : List Item} {error : EmbedError}
    (h : arrange count items = .error error) : error.isFatal = false := by
  rw [arrange_eq] at h
  split at h
  · cases h
    rfl
  · split at h
    · cases h
      rfl
    · split at h
      · cases h
        rfl
      · cases h

theorem readItems_soft {body : List UInt8} {error : EmbedError}
    (h : readItems body = .error error) : error.isFatal = false := by
  unfold readItems at h
  dsimp only at h
  cases hDecode : (Json.Document.ofString (Utf8.decodeLossy body)).decode
      (itemsRecord.decoder "EmbeddingResponse") with
  | error found =>
      rw [hDecode] at h
      cases h
      rfl
  | ok items =>
      rw [hDecode] at h
      cases h

/-- No reply is a fatal error. -/
theorem read_soft {count : Nat} {reply : Reply} {error : EmbedError}
    (h : read count reply = .error error) : error.isFatal = false := by
  unfold read at h
  split at h
  · cases hItems : readItems reply.body with
    | error found =>
        rw [hItems] at h
        cases h
        exact readItems_soft hItems
    | ok items =>
        rw [hItems] at h
        exact arrange_soft h
  · cases h
    rfl

/-- No attempt ends with a fatal error. -/
theorem judge_soft {number : Nat} {received : Received} {error : EmbedError}
    (h : (judge number received).final = .error error) : error.isFatal = false := by
  cases received with
  | nothing failure =>
      cases h
      rfl
  | part head failure =>
      cases h
      rfl
  | whole head body =>
      have hFinal : (if head.status = 429 then (.error .rateLimited : Except EmbedError Reply)
          else .ok { status := head.status, body }) = .error error := h
      split at hFinal
      · cases hFinal
        rfl
      · cases hFinal

/-! ## One batch -/

theorem embedBatch_eq (service : OpenAi) (world : World) (texts : List String)
    (session : Session) :
    (service.embedBatch world texts).run session =
      (match ((service.ask world texts).run session).1 with
        | .ok reply => read texts.length reply
        | .error error => .error error,
        ((service.ask world texts).run session).2) := by
  unfold embedBatch
  rw [run_bind]
  cases hAsk : (service.ask world texts).run session with
  | mk result after =>
      cases result with
      | error error => rfl
      | ok reply =>
          show (MonadExcept.ofExcept (read texts.length reply) :
            Online EmbedError (List Components)).run after = _
          rw [run_ofExcept]

theorem embedBatch_run (service : OpenAi) (world : World) (texts : List String)
    (session : Session) :
    ((service.embedBatch world texts).run session).1 =
      match ((service.ask world texts).run session).1 with
      | .ok reply => read texts.length reply
      | .error error => .error error :=
  congrArg Prod.fst (service.embedBatch_eq world texts session)

/-- How a batch of `count` texts can end: with an arranged reply, with the
cancellation of the run, or with an error of its own. -/
def Ends (count : Nat) : Except EmbedError (List Components) → Prop
  | .ok vectors => ∃ items, arrange count items = .ok vectors
  | .error error => error = .cancelled ∨ error.isFatal = false

theorem read_ends (count : Nat) (reply : Reply) : Ends count (read count reply) := by
  cases hRead : read count reply with
  | error error => exact .inr (read_soft hRead)
  | ok vectors =>
      unfold read at hRead
      split at hRead
      · cases hItems : readItems reply.body with
        | error error =>
            rw [hItems] at hRead
            cases hRead
        | ok items =>
            rw [hItems] at hRead
            exact ⟨items, hRead⟩
      · cases hRead

theorem ask_ends (service : OpenAi) (world : World) (texts : List String) (session : Session) :
    (((service.ask world texts).run session).1 = .error .cancelled ∧
        ((service.ask world texts).run session).2.cancelled = true) ∨
      ∃ number received,
        ((service.ask world texts).run session).1 = (judge number received).final :=
  retry_ends world EmbedError.cancelled (service.draft texts) judge service.limits.maxRetries 0
    session

/-- **How a batch can end**, whatever the server does. -/
theorem embedBatch_ends (service : OpenAi) (world : World) (texts : List String)
    (session : Session) :
    Ends texts.length ((service.embedBatch world texts).run session).1 := by
  rw [embedBatch_run]
  rcases service.ask_ends world texts session with ⟨hCancelled, -⟩ | ⟨number, received, hFinal⟩
  · rw [hCancelled]
    exact .inl rfl
  · rw [hFinal]
    cases hVerdict : (judge number received).final with
    | error error => exact .inr (judge_soft hVerdict)
    | ok reply => exact read_ends texts.length reply

/-- No server makes a batch end as cancelled: the run was cancelled. -/
theorem embedBatch_stopped {service : OpenAi} {world : World} {texts : List String}
    {session : Session}
    (h : ((service.embedBatch world texts).run session).1 = .error .cancelled) :
    ((service.embedBatch world texts).run session).2.cancelled = true := by
  rw [embedBatch_eq] at h ⊢
  have hFatal : EmbedError.cancelled.isFatal ≠ false := by decide
  rcases service.ask_ends world texts session with ⟨-, hStopped⟩ | ⟨number, received, hFinal⟩
  · exact hStopped
  · dsimp only at h
    rw [hFinal] at h
    cases hVerdict : (judge number received).final with
    | error error =>
        rw [hVerdict] at h
        obtain rfl : error = .cancelled := Except.error.inj h
        exact absurd (judge_soft hVerdict) hFatal
    | ok reply =>
        rw [hVerdict] at h
        exact absurd (read_soft h) hFatal

/-! ## All batches -/

theorem embedBatches_cons (service : OpenAi) (world : World) (texts : List String)
    (range : Range) (rest : List Range) (session : Session) :
    (service.embedBatches world texts (range :: rest)).run session =
      ((range, ((service.embedBatch world (range.pick texts)).run session).1) ::
          ((service.embedBatches world texts rest).run
            ((service.embedBatch world (range.pick texts)).run session).2).1,
        ((service.embedBatches world texts rest).run
          ((service.embedBatch world (range.pick texts)).run session).2).2) := by
  rw [embedBatches]
  rfl

/-- The results of several batches are those of the single ones, each of them
in the session that the batches before it left. -/
theorem embedBatches_results (service : OpenAi) (world : World) (texts : List String)
    (ranges : List Range) :
    ∀ session : Session,
      ((service.embedBatches world texts ranges).run session).1.map (·.1) = ranges ∧
        ∀ result ∈ ((service.embedBatches world texts ranges).run session).1,
          ∃ before, result.2 =
            ((service.embedBatch world (result.1.pick texts)).run before).1 := by
  induction ranges with
  | nil =>
      intro session
      rw [embedBatches]
      exact ⟨rfl, fun _ hMem => by cases hMem⟩
  | cons range rest ih =>
      intro session
      obtain ⟨hRanges, hResults⟩ :=
        ih ((service.embedBatch world (range.pick texts)).run session).2
      rw [embedBatches_cons]
      constructor
      · rw [List.map_cons, hRanges]
      · intro result hResult
        rcases List.mem_cons.mp hResult with rfl | hLater
        · exact ⟨session, rfl⟩
        · exact hResults result hLater

/-- In a run that has been cancelled no batch is sent, and each ends so. -/
theorem embedBatches_cancelled (service : OpenAi) (world : World) (texts : List String)
    (ranges : List Range) {session : Session} (hCancelled : session.cancelled = true) :
    (service.embedBatches world texts ranges).run session =
      (ranges.map fun range => (range, .error .cancelled), session) := by
  induction ranges with
  | nil =>
      rw [embedBatches]
      rfl
  | cons range rest ih =>
      have hBatch : (service.embedBatch world (range.pick texts)).run session =
          (.error .cancelled, session) := by
        unfold embedBatch ask
        rw [run_bind, retry_cancelled world EmbedError.cancelled _ judge _ hCancelled]
      rw [embedBatches_cons, List.map_cons, hBatch, ih]

/-- A batch that ends as cancelled ends in a run that has been cancelled, and it
stays so. -/
theorem embedBatches_stopped {service : OpenAi} {world : World} {texts : List String}
    {range : Range} {ranges : List Range} :
    ∀ {session : Session},
      (range, .error .cancelled) ∈ ((service.embedBatches world texts ranges).run session).1 →
        ((service.embedBatches world texts ranges).run session).2.cancelled = true := by
  induction ranges with
  | nil =>
      intro session hMem
      rw [embedBatches] at hMem
      cases hMem
  | cons first rest ih =>
      intro session hMem
      rw [embedBatches_cons] at hMem ⊢
      rcases List.mem_cons.mp hMem with hHere | hLater
      · have hStopped := embedBatch_stopped (Prod.mk.inj hHere).2.symm
        rw [embedBatches_cancelled service world texts rest hStopped]
        exact hStopped
      · exact ih hLater

/-! ## Replies as they are written -/

/-- An item with one component that is a whole number can be written. -/
theorem sound_item (index number : Nat) :
    (Json.record [("index", .nat index), ("embedding", .array [.nat number])]).Sound := by
  have hNumber (n : Nat) : (Json.nat n).Sound := .number (Json.Number.sound_ofNat n)
  exact .record (List.forall_mem_cons.mpr ⟨hNumber index, List.forall_mem_singleton.mpr
    (.array (List.forall_mem_singleton.mpr (hNumber number)))⟩)

/-- A reply that is written is read back as the items that it lists. -/
theorem document_reply {items : List Json} (hItems : ∀ item ∈ items, item.Sound) :
    Json.Document.ofString (Json.record [("data", .array items)]).render =
      { value := .record [("data", .array items)], trailing := false } :=
  (Json.Sound.record (List.forall_mem_singleton.mpr (.array hItems))).document_render

end SourceIndex.Embedding.OpenAi
