import SourceIndex.Embedding.Embedder
import SourceIndex.Proofs.Embedding.Faithful
import SourceIndex.Proofs.Http.Attempts

/-!
# Requests for embeddings

What is asked of the embedding service: the planned batches one after the
other, each by one request that may be retried.  A batch that fails does not
keep those after it from being sent.  A run that is cancelled does: the batch
that waits ends so, and the others find the session cancelled and send
nothing.

## Main results

* `embedBatches_acts` — what several batches ask, and that one of them ends as
  cancelled when the run is.
* `mapM_soften_cancelled` — a cancelled batch ends the embedding, whatever came
  of the others.
* `embed_acts` — what an embedding asks.
-/

namespace SourceIndex.Embedding.OpenAi

open Http Http.Online

/-- What is asked for the embeddings of some texts. -/
def Asks (service : OpenAi) (texts : List String) (events : List Event) : Prop :=
  Online.Asks (service.draft texts) (fun number received => (judge number received).again)
    service.limits.maxRetries events

/-- The batches of some texts are asked for one after the other. -/
inductive Posts (service : OpenAi) (texts : List String) : List Range → List Event → Prop where
  | nil : Posts service texts [] []
  | cons {range : Range} {rest : List Range} {events later : List Event} :
      service.Asks (range.pick texts) events → Posts service texts rest later →
      Posts service texts (range :: rest) (events ++ later)

/-- Everything that is asked for is the embeddings of some texts. -/
theorem Posts.drafted {service : OpenAi} {texts : List String} {ranges : List Range}
    {events : List Event} (h : service.Posts texts ranges events) :
    ∀ entry ∈ entries events, ∃ batch url,
      (service.draft batch).prepare = .ok (url, entry.request) := by
  intro entry hEntry
  induction h with
  | nil => cases hEntry
  | cons hAsks _ ih =>
      rw [entries_append] at hEntry
      rcases List.mem_append.mp hEntry with hHere | hLater
      · exact ⟨_, hAsks.drafted entry hHere⟩
      · exact ih hLater

variable (service : OpenAi) (texts : List String)

theorem embedBatch_acts :
    Acts .cancelled (fun world => service.embedBatch world texts)
      fun events _ => service.Asks texts events := by
  have hAsk : Acts .cancelled (fun world => service.ask world texts)
      (Retries .cancelled (service.draft texts) judge service.limits.maxRetries 0) :=
    retry_acts service.limits.maxRetries 0
  refine (hAsk.bind fun reply =>
    Acts.ofExcept EmbedError.cancelled (read texts.length reply)).mono ?_
  rintro events result (⟨error, hRetries, rfl⟩ | ⟨reply, first, _, rfl, hRetries, rfl, rfl⟩)
  · exact hRetries.asks
  · rw [List.append_nil]
    exact hRetries.asks

/-- One of some results is that of a cancelled batch. -/
def SomeCancelled (results : List (Range × Except EmbedError (List Components))) : Prop :=
  ∃ range, (range, .error .cancelled) ∈ results

/-- **What several batches ask.** -/
theorem embedBatches_acts (ranges : List Range) :
    Http.Acts SomeCancelled
      (fun world session => (service.embedBatches world texts ranges).run session)
      fun events _ => service.Posts texts ranges events := by
  induction ranges with
  | nil =>
      intro world session
      refine ⟨[], .nothing (fun _ => []) ?_ world session, .nil⟩
      intro world session
      rw [embedBatches]
      rfl
  | cons range rest ih =>
      intro world session
      obtain ⟨events, hBatch, hAsks⟩ := service.embedBatch_acts (range.pick texts) world session
      obtain ⟨later, hRest, hPosts⟩ := ih world (session.after world events)
      have hRun := service.embedBatches_cons world texts range rest session
      rw [hBatch.after] at hRun
      refine ⟨events ++ later, ⟨?_, ?_, ?_, ?_, ?_⟩, .cons hAsks hPosts⟩
      · rw [hRun, Session.after_append]
        exact hRest.after
      · exact Session.live_append.mpr ⟨hBatch.live, hRest.live⟩
      · exact agrees_append.mpr ⟨hBatch.told, hRest.told⟩
      · intro hRunning hCancelled
        rw [Session.after_append] at hCancelled
        rw [hRun]
        cases hBetween : (session.after world events).cancelled with
        | true =>
            have hStopped := hBatch.stopped hRunning hBetween
            exact ⟨range, List.mem_cons.mpr (.inl (congrArg (Prod.mk range) hStopped.symm))⟩
        | false =>
            obtain ⟨other, hOther⟩ := hRest.stopped hBetween hCancelled
            exact ⟨other, List.mem_cons_of_mem _ hOther⟩
      · intro other mirror hMirror hAgrees
        rw [agrees_append] at hAgrees
        have hFirst := hBatch.replayed other mirror hMirror hAgrees.1
        have hLater := hRest.replayed other _ (hAgrees.1.cancelled_after hMirror) hAgrees.2
        rw [embedBatches_cons, hFirst, hLater, hRun, Session.after_append]

/-- A cancelled batch ends the embedding, whatever came of the others. -/
theorem mapM_soften_cancelled
    {results : List (Range × Except EmbedError (List Components))}
    (hEnds : ∀ result ∈ results, Ends (result.1.stop - result.1.start) result.2)
    (hCancelled : SomeCancelled results) : results.mapM soften = .error .cancelled := by
  obtain ⟨cancelled, hMem⟩ := hCancelled
  induction results with
  | nil => cases hMem
  | cons result rest ih =>
      obtain ⟨range, result⟩ := result
      have hRest : (cancelled, .error .cancelled) ∈ rest → rest.mapM soften = .error .cancelled :=
        ih fun other hOther => hEnds other (List.mem_cons_of_mem _ hOther)
      cases result with
      | ok vectors =>
          rw [List.mapM_cons, soften, hRest ((List.mem_cons.mp hMem).resolve_left (by simp))]
          rfl
      | error error =>
          by_cases hFatal : error.isFatal = true
          · obtain rfl : error = .cancelled :=
              (hEnds _ List.mem_cons_self).resolve_right (by simp [hFatal])
            rw [List.mapM_cons, soften, if_pos hFatal]
            rfl
          · have hNot : (cancelled, (.error .cancelled : Except EmbedError (List Components))) ≠
                (range, .error error) := by
              rintro hSame
              cases hSame
              exact hFatal rfl
            rw [List.mapM_cons, soften, if_neg hFatal,
              hRest ((List.mem_cons.mp hMem).resolve_left hNot)]
            rfl

/-- **What an embedding asks.** -/
theorem embed_acts :
    Acts .cancelled (fun world => service.embed world texts)
      fun events _ => service.Posts (service.inputs texts)
        (service.batches (service.inputs texts)) events := by
  intro world session
  obtain ⟨events, hDoes, hPosts⟩ := service.embedBatches_acts (service.inputs texts)
    (service.batches (service.inputs texts)) world session
  refine ⟨events, ⟨?_, hDoes.live, hDoes.told, ?_, ?_⟩, hPosts⟩
  · rw [embed_eq]
    exact hDoes.after
  · intro hRunning hCancelled
    rw [embed_run, mapM_soften_cancelled (service.results_ends world texts session)
      (hDoes.stopped hRunning hCancelled)]
    rfl
  · intro other mirror hMirror hAgrees
    have hOther := hDoes.replayed other mirror hMirror hAgrees
    rw [embed_eq, embed_eq, results, hOther]
    rfl

end SourceIndex.Embedding.OpenAi
