import SourceIndex.Proofs.Embedding.Faithful
import SourceIndex.Proofs.Sorting

/-!
# Batching is transparent

Against a server that answers every request for a batch with a vector for each
of its texts, in whatever order, embedding is a map over the texts: the limits
of batches and the order of the items in a reply change nothing.

A granted batch ends at its first attempt, so the session goes on uncancelled;
sorting the items puts the vectors back into the order of the texts; and the
batches, which tile the positions of the texts, are collected into the vectors
of all texts in their order.

## Main results

* `arrange_of_perm` — items in any order are arranged in the order of the texts.
* `embedBatches_granted` — what comes of granted batches.
* `collectFrom_mapped` — collecting mapped batches maps the texts.
* `embed_transparent` — embedding is a map over the texts.
-/

namespace SourceIndex.Embedding.OpenAi

open Http Http.Online

/-- The items of a reply with the vectors of some texts, in their order. -/
def itemsOf (vectorOf : String → Components) (texts : List String) : List Item :=
  texts.zipIdx.map fun place => ⟨place.2, vectorOf place.1⟩

/-- A world in which the request for the embeddings of some texts can be sent
and is always granted with the vectors of these texts, in any order. -/
def Grants (service : OpenAi) (world : World) (vectorOf : String → Components)
    (texts : List String) : Prop :=
  ∃ url request, (service.draft texts).prepare = .ok (url, request) ∧
    ∀ before, ∃ head body items,
      world.answer before request = .reply head body ∧ head.status.isSuccess = true ∧
        readItems body = .ok items ∧ items.Perm (itemsOf vectorOf texts)

/-! ## One batch -/

section Batch

variable {vectorOf : String → Components} {dimension : Nat} {texts : List String}

theorem indexes_itemsOf :
    (itemsOf vectorOf texts).map (·.index) = List.range texts.length := by
  rw [itemsOf, List.map_map, List.range_eq_range']
  exact List.zipIdx_map_snd 0 texts

theorem embeddings_itemsOf :
    (itemsOf vectorOf texts).map (·.embedding) = texts.map vectorOf := by
  rw [itemsOf, List.map_map]
  have hTexts := congrArg (List.map vectorOf) (List.zipIdx_map_fst 0 texts)
  rw [List.map_map] at hTexts
  exact hTexts

/-- Sorting puts the items back into the order of the texts. -/
theorem ordered_of_perm {items : List Item} (hPerm : items.Perm (itemsOf vectorOf texts)) :
    ordered items = itemsOf vectorOf texts := by
  apply Sorting.sortBy_eq_of_perm (fun item : Item => item.index) hPerm
  apply List.pairwise_map.mp
  rw [indexes_itemsOf]
  exact List.pairwise_lt_range

/-- Items in any order are arranged in the order of the texts. -/
theorem arrange_of_perm {items : List Item} (hDimension : dimension ≠ 0)
    (hVectors : ∀ text, (vectorOf text).length = dimension) (hTexts : texts ≠ [])
    (hPerm : items.Perm (itemsOf vectorOf texts)) :
    arrange texts.length items = .ok (texts.map vectorOf) := by
  have hFirst : firstDimension (texts.map vectorOf) = dimension := by
    cases texts with
    | nil => exact absurd rfl hTexts
    | cons text rest => exact hVectors text
  rw [arrange_eq_ok_iff, ordered_of_perm hPerm, hFirst]
  refine ⟨?_, indexes_itemsOf, embeddings_itemsOf, hDimension, ?_⟩
  · rw [hPerm.length_eq, itemsOf, List.length_map, List.length_zipIdx]
  · intro vector hVector
    obtain ⟨text, _, rfl⟩ := List.mem_map.mp hVector
    exact hVectors text

/-- What was granted is neither limited nor an error of the server. -/
private theorem success_final (status : Nat) (h : Status.isSuccess status = true) :
    status ≠ 429 ∧ Status.isServerError status = false := by
  have hRange : 200 ≤ status ∧ status < 300 := by
    simpa [Status.isSuccess] using h
  have hBelow : ¬ 500 ≤ status := by omega
  refine ⟨by omega, ?_⟩
  exact Bool.and_eq_false_iff.mpr (.inl (decide_eq_false hBelow))

/-- A granted reply is final. -/
theorem judge_success {head : Head} {body : List UInt8} (number : Nat)
    (hSuccess : head.status.isSuccess = true) :
    judge number (.whole head body) =
      { final := .ok { status := head.status, body }, again := none } := by
  obtain ⟨hLimited, hServer⟩ := success_final head.status hSuccess
  simp [judge, hLimited, hServer]

/-- A granted batch ends with the vectors of its texts, and the run goes on. -/
theorem embedBatch_granted {service : OpenAi} {world : World} (hDimension : dimension ≠ 0)
    (hVectors : ∀ text, (vectorOf text).length = dimension) (hTexts : texts ≠ [])
    (hGrants : Grants service world vectorOf texts) {session : Session}
    (hRunning : session.cancelled = false) :
    ((service.embedBatch world texts).run session).1 = .ok (texts.map vectorOf) ∧
      ((service.embedBatch world texts).run session).2.cancelled = false := by
  obtain ⟨url, request, hPrepare, hAnswers⟩ := hGrants
  obtain ⟨head, body, items, hAnswer, hSuccess, hItems, hPerm⟩ := hAnswers session.sent
  have hReceived : (attempted world (service.draft texts) session).1 = .whole head body := by
    rw [attempted, hPrepare]
    dsimp only
    rw [hAnswer]
    rfl
  have hFinal := retry_first world EmbedError.cancelled (service.draft texts) judge
    service.limits.maxRetries hRunning (by rw [hReceived, judge_success 0 hSuccess])
  rw [hReceived, judge_success 0 hSuccess] at hFinal
  have hRead : read texts.length { status := head.status, body } = .ok (texts.map vectorOf) := by
    rw [read, if_pos hSuccess, hItems]
    exact arrange_of_perm hDimension hVectors hTexts hPerm
  have hRun : (service.embedBatch world texts).run session =
      (.ok (texts.map vectorOf), (attempted world (service.draft texts) session).2) := by
    unfold embedBatch ask
    rw [run_bind, hFinal]
    show (MonadExcept.ofExcept (read texts.length _) :
      Online EmbedError (List Components)).run _ = _
    rw [run_ofExcept, hRead]
  rw [hRun]
  exact ⟨rfl, (attempted_cancelled world (service.draft texts) session).trans hRunning⟩

end Batch

/-! ## All batches -/

section Batches

variable {service : OpenAi} {world : World} {vectorOf : String → Components} {dimension : Nat}

/-- Granted batches end with the vectors of their texts, one after the other. -/
theorem embedBatches_granted (hDimension : dimension ≠ 0)
    (hVectors : ∀ text, (vectorOf text).length = dimension) (texts : List String)
    (ranges : List Range) :
    ∀ session : Session, session.cancelled = false →
      (∀ range ∈ ranges, range.pick texts ≠ []) →
      (∀ range ∈ ranges, Grants service world vectorOf (range.pick texts)) →
      ((service.embedBatches world texts ranges).run session).1 =
        ranges.map fun range => (range, .ok ((range.pick texts).map vectorOf)) := by
  induction ranges with
  | nil =>
      intro session _ _ _
      rw [embedBatches]
      rfl
  | cons range rest ih =>
      intro session hRunning hTexts hGrants
      obtain ⟨hResult, hAfter⟩ := embedBatch_granted hDimension hVectors
        (hTexts range List.mem_cons_self) (hGrants range List.mem_cons_self) hRunning
      have hRest := ih _ hAfter (fun other hOther => hTexts other (List.mem_cons_of_mem _ hOther))
        fun other hOther => hGrants other (List.mem_cons_of_mem _ hOther)
      rw [embedBatches_cons, List.map_cons, hResult, hRest]

/-- The texts of a batch and those after it are the texts from the start of
the batch on. -/
theorem pick_append {α : Type} (texts : List α) {range : Range} {stop : Nat}
    (hOrder : range.start ≤ range.stop) (hStop : range.stop ≤ stop) :
    range.pick texts ++ (texts.drop range.stop).take (stop - range.stop) =
      (texts.drop range.start).take (stop - range.start) := by
  have hCount : stop - range.start = (range.stop - range.start) + (stop - range.stop) := by omega
  have hFrom : range.start + (range.stop - range.start) = range.stop := by omega
  rw [hCount, List.take_add, List.drop_drop, hFrom, Range.pick]

/-- **Collecting mapped batches maps the texts**: batches that tile the
positions of the texts give every text its own vector. -/
theorem collectFrom_mapped (hDimension : dimension ≠ 0)
    (hVectors : ∀ text, (vectorOf text).length = dimension) {texts : List String} {stop : Nat}
    (hStop : stop ≤ texts.length) (ranges : List Range) :
    ∀ (start batch : Nat) (known : Option Nat), Span.Tiles start stop ranges →
      (∀ range ∈ ranges, range.start < range.stop) →
      (∀ expected, known = some expected → expected = dimension) →
      Output.collectFrom batch known
          (ranges.map fun range => (range, .ok ((range.pick texts).map vectorOf))) =
        { vectors := ((texts.drop start).take (stop - start)).map fun text => some (vectorOf text)
          failures := [] } := by
  induction ranges with
  | nil =>
      intro start batch known hTiles _ _
      have hEnd : start = stop := hTiles
      rw [List.map_nil, Output.collectFrom, hEnd, Nat.sub_self]
      rfl
  | cons range rest ih =>
      intro start batch known hTiles hSize hKnown
      obtain ⟨rfl, hOrder, hRest⟩ := hTiles
      have hReach := hRest.start_le_stop
      have hLength : (range.pick texts).length = range.stop - range.start :=
        Range.length_pick (by omega)
      have hOwnSize := hSize range List.mem_cons_self
      obtain ⟨first, others, hPick⟩ : ∃ first others, range.pick texts = first :: others := by
        apply List.exists_cons_of_length_pos
        omega
      have hFilled : Filled range ((range.pick texts).map vectorOf) := by
        refine ⟨by rw [List.length_map, hLength], dimension, hDimension, ?_⟩
        intro vector hVector
        obtain ⟨text, _, rfl⟩ := List.mem_map.mp hVector
        exact hVectors text
      have hAccepted : (Except.ok ((range.pick texts).map vectorOf) : BatchResult).bind
          (Output.checkDimension known) = .ok ((range.pick texts).map vectorOf) := by
        show Output.checkDimension known ((range.pick texts).map vectorOf) = _
        cases known with
        | none => rfl
        | some expected =>
            have hSame : (vectorOf first).length = expected := by
              rw [hVectors first, hKnown expected rfl]
            rw [hPick]
            exact if_pos hSame
      have hNext := ih range.stop (batch + 1)
        (known <|> ((range.pick texts).map vectorOf).head?.map List.length) hRest
        (fun other hOther => hSize other (List.mem_cons_of_mem _ hOther)) (by
          intro expected hExpected
          cases known with
          | none =>
              rw [hPick] at hExpected
              have hFirst : (vectorOf first).length = expected := Option.some.inj hExpected
              rw [← hFirst, hVectors first]
          | some found => exact hKnown expected hExpected)
      rw [List.map_cons, Output.collectFrom_ok hAccepted]
      dsimp only
      rw [hNext, Output.places_filled hFilled.length, ← pick_append texts hOrder hReach, List.map_append,
        List.map_map]
      rfl

end Batches

/-! ## Embedding -/

/-- Results without an error are collected as they are. -/
theorem mapM_soften_ok (ranges : List Range) (vectors : Range → List Components) :
    (ranges.map fun range => (range, (.ok (vectors range) :
        Except EmbedError (List Components)))).mapM soften =
      .ok (ranges.map fun range => (range, (.ok (vectors range) : BatchResult))) := by
  rcases mapM_soften (ranges.map fun range => (range, .ok (vectors range))) with
    ⟨range, error, hMem, _⟩ | hOk
  · obtain ⟨other, _, hEq⟩ := List.mem_map.mp hMem
    cases hEq
  · rw [hOk, List.map_map]
    rfl

section Embed

variable {service : OpenAi} {world : World} {texts : List String} {session : Session}

/-- A run that was cancelled before ends so when it has something to send. -/
theorem embed_cancelled (hCancelled : session.cancelled = true) (hTexts : texts ≠ []) :
    ((service.embed world texts).run session).1 = .error .cancelled := by
  have hTiles := service.batches_tile (service.inputs texts)
  rw [embed_run, results, embedBatches_cancelled service world _ _ hCancelled]
  cases hRanges : service.batches (service.inputs texts) with
  | nil =>
      rw [hRanges] at hTiles
      have hNone : 0 = (service.inputs texts).length := hTiles
      rw [inputs, List.length_map] at hNone
      exact absurd (List.eq_nil_of_length_eq_zero hNone.symm) hTexts
  | cons range rest =>
      rw [List.map_cons, List.mapM_cons]
      rfl

/-- Without texts there is nothing to send. -/
theorem embed_nil : ((service.embed world []).run session).1 = .ok ⟨[], []⟩ := by
  rw [embed_run]
  rfl

/-- Granted batches give every text the vector of its first characters. -/
theorem embed_granted {vectorOf : String → Components} {dimension : Nat}
    (hDimension : dimension ≠ 0) (hVectors : ∀ text, (vectorOf text).length = dimension)
    (hGrants : ∀ range ∈ service.batches (service.inputs texts),
      Grants service world vectorOf (range.pick (service.inputs texts)))
    (hRunning : session.cancelled = false) :
    ((service.embed world texts).run session).1 =
      .ok
        { vectors := (service.inputs texts).map fun text => some (vectorOf text)
          failures := [] } := by
  have hTiles := service.batches_tile (service.inputs texts)
  have hSize : ∀ range ∈ service.batches (service.inputs texts), range.start < range.stop :=
    Batches.plan_nonempty _ _ _
  have hPick : ∀ range ∈ service.batches (service.inputs texts),
      range.pick (service.inputs texts) ≠ [] := by
    intro range hRange hNil
    have hLength := service.length_pick_batches _ hRange
    rw [hNil, List.length_nil] at hLength
    have hOwn := hSize range hRange
    omega
  have hCollected := collectFrom_mapped hDimension hVectors (Nat.le_refl _)
    (service.batches (service.inputs texts)) 0 0 none hTiles hSize (by simp)
  rw [List.drop_zero, Nat.sub_zero, List.take_length] at hCollected
  rw [embed_run, results, embedBatches_granted hDimension hVectors _ _ session hRunning hPick
    hGrants, mapM_soften_ok _ fun range => (range.pick (service.inputs texts)).map vectorOf]
  exact congrArg Except.ok hCollected

end Embed

/--
**Batching is transparent.**  Against a server that grants every planned batch
with the vectors of its texts, in any order, every text gets the vector of its
first characters and no batch fails, whatever the limits are.  Only a run that
was cancelled before ends differently, when it has something to send.
-/
theorem embed_transparent (service : OpenAi) (world : World) (texts : List String)
    (session : Session) (vectorOf : String → Components) (dimension : Nat)
    (hDimension : dimension ≠ 0) (hVectors : ∀ text, (vectorOf text).length = dimension)
    (hGrants : ∀ range ∈ service.batches (texts.map (cut service.limits.maxInputChars)),
      Grants service world vectorOf
        (range.pick (texts.map (cut service.limits.maxInputChars)))) :
    ((service.embed world texts).run session).1 =
      if session.cancelled ∧ texts ≠ [] then .error .cancelled
      else .ok
        { vectors := texts.map fun text =>
            some (vectorOf (cut service.limits.maxInputChars text))
          failures := [] } := by
  split
  · next h => exact embed_cancelled h.1 h.2
  · next h =>
      by_cases hTexts : texts = []
      · rw [hTexts]
        exact embed_nil
      · have hRunning : session.cancelled = false := by
          simpa [hTexts] using h
        have hMapped := embed_granted hDimension hVectors hGrants hRunning
        rw [inputs, List.map_map] at hMapped
        exact hMapped

/-! ### Three texts in two batches, answered backwards -/

namespace Backwards

def service : OpenAi :=
  { base := "http://localhost/v1", key := ⟨"sk"⟩, model := "m"
    limits :=
      { maxBatchSize := 2, maxBatchChars := 100, maxInputChars := 3, concurrency := 1
        maxRetries := 1, timeoutSecs := 5 } }

/-- The vector of a text has its length as the only component. -/
def vectorOf (text : String) : Components := [(UInt64.ofNat text.length).toFloat32]

def firstReply : String :=
  "\x7b\"data\":[\x7b\"index\":1,\"embedding\":[3]\x7d,\x7b\"index\":0,\"embedding\":[1]\x7d]\x7d"

def secondReply : String := "\x7b\"data\":[\x7b\"index\":0,\"embedding\":[2]\x7d]\x7d"

def granted : Head := { status := 200, headers := [] }

def world : World :=
  { answer := fun _ request =>
      .reply granted
        (Utf8.bytes (if request.body = (service.body ["a", "bbb"]).render then firstReply
          else secondReply))
    interrupts := World.patient }

def endpoint : Url :=
  { scheme := "http".toList, user := none, host := some "localhost".toList, port := none
    path := .rooted ["v1".toList, "embeddings".toList], query := none, fragment := none }

theorem read_endpoint : Url.read? "http://localhost/v1/embeddings" = some endpoint := by
  decide +kernel

/-- An item of a reply as it is written. -/
def written (index number : Nat) : Json :=
  .object [(.text "index", .nat index), (.text "embedding", .array [.nat number])]

theorem readItems_firstReply :
    readItems (Utf8.bytes firstReply) = .ok [⟨1, vectorOf "bbb"⟩, ⟨0, vectorOf "a"⟩] := by
  have hReply : firstReply =
      (Json.record [("data", .array [written 1 3, written 0 1])]).render := by decide +kernel
  have hItems : ∀ item ∈ [written 1 3, written 0 1], item.Sound :=
    List.forall_mem_cons.mpr
      ⟨sound_item 1 3, List.forall_mem_singleton.mpr (sound_item 0 1)⟩
  rw [readItems, Utf8.decodeLossy_bytes, hReply, document_reply hItems]
  rfl

theorem readItems_secondReply :
    readItems (Utf8.bytes secondReply) = .ok [⟨0, vectorOf "cc"⟩] := by
  have hReply : secondReply = (Json.record [("data", .array [written 0 2])]).render := by
    decide +kernel
  have hItems : ∀ item ∈ [written 0 2], item.Sound :=
    List.forall_mem_singleton.mpr (sound_item 0 2)
  rw [readItems, Utf8.decodeLossy_bytes, hReply, document_reply hItems]
  rfl

/-- Every request for embeddings can be sent. -/
theorem prepare (texts : List String) :
    ∃ url request, (service.draft texts).prepare = .ok (url, request) ∧
      request.body = (service.body texts).render := by
  have hUrl : Url.read? (service.draft texts).url = some endpoint := read_endpoint
  have hHost : endpoint.withoutUser.hasHost = true := rfl
  have hKey : (service.draft texts).bearer = "sk" := rfl
  have hBearer : Draft.isHeaderValue "sk" = true := rfl
  have hWeb : endpoint.withoutUser.isWeb = true := rfl
  simp only [Draft.prepare, hUrl, hHost, hKey, hBearer, hWeb, Option.map_some, Bool.not_true]
  exact ⟨_, _, rfl, rfl⟩

/-- The batches of the three texts are granted. -/
theorem grants : ∀ range ∈ service.batches ["a", "bbb", "cc"],
    Grants service world vectorOf (range.pick ["a", "bbb", "cc"]) := by
  have hBatches : service.batches ["a", "bbb", "cc"] = [⟨0, 2⟩, ⟨2, 3⟩] := by decide
  have hBodies : (service.body ["cc"]).render ≠ (service.body ["a", "bbb"]).render := by decide
  rw [hBatches]
  intro range hRange
  rcases List.mem_cons.mp hRange with rfl | hSecond
  · obtain ⟨url, request, hPrepare, hBody⟩ := prepare ["a", "bbb"]
    refine ⟨url, request, hPrepare, fun _ =>
      ⟨granted, _, _, ?_, rfl, readItems_firstReply, ?_⟩⟩
    · show Outcome.reply _ _ = _
      rw [if_pos hBody]
    · exact List.Perm.swap _ _ _
  · obtain rfl := List.mem_singleton.mp hSecond
    obtain ⟨url, request, hPrepare, hBody⟩ := prepare ["cc"]
    refine ⟨url, request, hPrepare, fun _ =>
      ⟨granted, _, _, ?_, rfl, readItems_secondReply, ?_⟩⟩
    · show Outcome.reply _ _ = _
      rw [hBody, if_neg hBodies]
    · exact List.Perm.refl _

end Backwards

open Backwards in
theorem embed_transparent_backwards :
    (1 ≠ 0 ∧ (∀ text, (vectorOf text).length = 1) ∧
        ∀ range ∈ Backwards.service.batches (["a", "bbbb", "cc"].map (cut 3)),
          Grants Backwards.service world vectorOf
            (range.pick (["a", "bbbb", "cc"].map (cut 3)))) ∧
      ((Backwards.service.embed world ["a", "bbbb", "cc"]).run (.start false)).1 =
        .ok
          { vectors := [some (vectorOf "a"), some (vectorOf "bbb"), some (vectorOf "cc")]
            failures := [] } := by
  have hInputs : ["a", "bbbb", "cc"].map (cut 3) = ["a", "bbb", "cc"] := by decide
  have hGrants : ∀ range ∈ Backwards.service.batches (["a", "bbbb", "cc"].map (cut 3)),
      Grants Backwards.service world vectorOf
        (range.pick (["a", "bbbb", "cc"].map (cut 3))) := by
    rw [hInputs]
    exact Backwards.grants
  have hEmbed := embed_transparent Backwards.service world ["a", "bbbb", "cc"] (.start false)
    vectorOf 1 (by decide) (fun _ => rfl) hGrants
  refine ⟨⟨by decide, fun _ => rfl, hGrants⟩, ?_⟩
  rw [hEmbed, if_neg (fun h => Bool.false_ne_true h.1)]
  rfl

end SourceIndex.Embedding.OpenAi
