import SourceIndex.Proofs.Embedding.Reply

/-!
# Outputs of the OpenAI embedder

Whatever a server does, an embedding ends with an output that tells the truth
about itself, or as cancelled, and this only in a run that was cancelled.  The
texts without a vector are those of the batches that the output reports as
failed, and the vectors that it has are of one dimension.

Nothing here depends on the order in which batches are sent or on what earlier
batches left behind: `of_results` takes any results of the planned batches,
each of which ended in one of the ways of `Ends`.

## Main results

* `mapM_soften` — errors become part of the output, unless one is fatal.
* `of_results` — results of the planned batches are collected faithfully.
* `embed_faithful` — so is every embedding, unless the run was cancelled.
-/

namespace SourceIndex.Embedding.OpenAi

open Http Http.Online

/-! ## Fatal errors -/

/-- The result of a batch with the wording of its error. -/
def worded (result : Range × Except EmbedError (List Components)) : Range × BatchResult :=
  (result.1, result.2.mapError EmbedError.message)

/-- Wording errors leaves the ranges alone. -/
theorem map_fst_worded (results : List (Range × Except EmbedError (List Components))) :
    (results.map worded).map (·.1) = results.map (·.1) := by
  rw [List.map_map]
  rfl

/-- Results of batches become part of the output, unless one of them is a
fatal error, which is then that of all. -/
theorem mapM_soften (results : List (Range × Except EmbedError (List Components))) :
    (∃ range error, (range, .error error) ∈ results ∧ error.isFatal = true ∧
        results.mapM soften = .error error) ∨
      results.mapM soften = .ok (results.map worded) := by
  induction results with
  | nil => exact .inr rfl
  | cons result rest ih =>
      obtain ⟨range, result⟩ := result
      have hRest : soften (range, result) = .ok (worded (range, result)) →
          (∃ range' error, (range', .error error) ∈ (range, result) :: rest ∧
              error.isFatal = true ∧ ((range, result) :: rest).mapM soften = .error error) ∨
            ((range, result) :: rest).mapM soften = .ok (((range, result) :: rest).map worded) := by
        intro hSoft
        rw [List.mapM_cons, hSoft]
        rcases ih with ⟨range', error, hMem, hFatal, hError⟩ | hOk
        · rw [hError]
          exact .inl ⟨range', error, List.mem_cons_of_mem _ hMem, hFatal, rfl⟩
        · rw [hOk]
          exact .inr rfl
      cases result with
      | ok vectors => exact hRest rfl
      | error error =>
          by_cases hFatal : error.isFatal = true
          · refine .inl ⟨range, error, List.mem_cons_self, hFatal, ?_⟩
            rw [List.mapM_cons, soften, if_pos hFatal]
            rfl
          · apply hRest
            rw [soften, if_neg hFatal]
            rfl

/-! ## Results of the planned batches -/

/-- Results of the planned batches of some texts, of which each ended with an
arranged reply or with an error, are collected faithfully. -/
theorem worded_batched {lengths : List Nat} {maxSize maxChars : Nat}
    {results : List (Range × Except EmbedError (List Components))}
    (hRanges : results.map (·.1) = Batches.plan lengths maxSize maxChars)
    (hEnds : ∀ result ∈ results, Ends (result.1.stop - result.1.start) result.2) :
    Batched 0 lengths.length (results.map worded) := by
  refine ⟨?_, ?_, ?_⟩
  · rw [map_fst_worded, hRanges]
    exact Batches.plan_tiles lengths maxSize maxChars
  · intro result hResult
    apply Batches.plan_nonempty lengths maxSize maxChars
    rw [← hRanges, ← map_fst_worded]
    exact List.mem_map_of_mem hResult
  · intro range vectors hMem
    obtain ⟨⟨range', result⟩, hResult, hEq⟩ := List.mem_map.mp hMem
    have hEnd := hEnds _ hResult
    cases result with
    | error error => cases hEq
    | ok found =>
        cases hEq
        obtain ⟨items, hItems⟩ := hEnd
        exact filled_of_arrange hItems

/--
**Results of the planned batches are collected faithfully**, unless one of
them is a fatal error, and then this is the cancellation of the run.
-/
theorem of_results {lengths : List Nat} {maxSize maxChars : Nat}
    {results : List (Range × Except EmbedError (List Components))}
    (hRanges : results.map (·.1) = Batches.plan lengths maxSize maxChars)
    (hEnds : ∀ result ∈ results, Ends (result.1.stop - result.1.start) result.2) :
    ((∃ range, (range, .error .cancelled) ∈ results) ∧
        results.mapM soften = .error .cancelled) ∨
      ∃ softened, results.mapM soften = .ok softened ∧
        Faithful (Batches.plan lengths maxSize maxChars) lengths.length
          (Output.collect softened) := by
  rcases mapM_soften results with ⟨range, error, hMem, hFatal, hError⟩ | hOk
  · left
    rcases hEnds _ hMem with rfl | hSoft
    · exact ⟨⟨range, hMem⟩, hError⟩
    · rw [hSoft] at hFatal
      cases hFatal
  · right
    refine ⟨results.map worded, hOk, ?_⟩
    have hFaithful := Output.collect_faithful (worded_batched hRanges hEnds)
    rw [map_fst_worded, hRanges] at hFaithful
    exact hFaithful

/-! ## Embedding -/

/-- The texts as they are sent. -/
def inputs (service : OpenAi) (texts : List String) : List String :=
  texts.map (cut service.limits.maxInputChars)

/-- What came of the batches of some texts. -/
def results (service : OpenAi) (world : World) (texts : List String) (session : Session) :
    List (Range × Except EmbedError (List Components)) :=
  ((service.embedBatches world (service.inputs texts)
    (service.batches (service.inputs texts))).run session).1

/-- An embedding collects the results of its batches and leaves the session
that they leave. -/
theorem embed_eq (service : OpenAi) (world : World) (texts : List String) (session : Session) :
    (service.embed world texts).run session =
      (((service.results world texts session).mapM soften).map Output.collect,
        ((service.embedBatches world (service.inputs texts)
          (service.batches (service.inputs texts))).run session).2) := by
  have hRun : (service.embed world texts).run session =
      ((MonadExcept.ofExcept ((service.results world texts session).mapM soften) :
        Online EmbedError (List (Range × BatchResult))) >>= fun collected =>
          pure (Output.collect collected)).run
        ((service.embedBatches world (service.inputs texts)
          (service.batches (service.inputs texts))).run session).2 := rfl
  rw [hRun, run_bind, run_ofExcept]
  cases (service.results world texts session).mapM soften with
  | error error => rfl
  | ok collected => rfl

theorem embed_run (service : OpenAi) (world : World) (texts : List String) (session : Session) :
    ((service.embed world texts).run session).1 =
      ((service.results world texts session).mapM soften).map Output.collect :=
  congrArg Prod.fst (service.embed_eq world texts session)

theorem results_ranges (service : OpenAi) (world : World) (texts : List String)
    (session : Session) :
    (service.results world texts session).map (·.1) = service.batches (service.inputs texts) :=
  (embedBatches_results service world _ _ session).1

/-- Planned batches tile the positions of the texts. -/
theorem batches_tile (service : OpenAi) (texts : List String) :
    Span.Tiles 0 texts.length (service.batches texts) := by
  have hTiles := Batches.plan_tiles (texts.map (·.length)) service.limits.maxBatchSize
    service.limits.maxBatchChars
  rw [List.length_map] at hTiles
  exact hTiles

/-- A planned batch has as many texts as its range says. -/
theorem length_pick_batches (service : OpenAi) (texts : List String) {range : Range}
    (hRange : range ∈ service.batches texts) :
    (range.pick texts).length = range.stop - range.start :=
  Range.length_pick ((service.batches_tile texts).stop_le hRange)

theorem results_ends (service : OpenAi) (world : World) (texts : List String)
    (session : Session) :
    ∀ result ∈ service.results world texts session,
      Ends (result.1.stop - result.1.start) result.2 := by
  intro result hResult
  obtain ⟨hRanges, hResults⟩ := embedBatches_results service world (service.inputs texts)
    (service.batches (service.inputs texts)) session
  obtain ⟨before, hBatch⟩ := hResults result hResult
  have hRange : result.1 ∈ service.batches (service.inputs texts) := by
    rw [← hRanges]
    exact List.mem_map_of_mem hResult
  rw [hBatch, ← service.length_pick_batches _ hRange]
  exact embedBatch_ends service world _ before

/--
**Every embedding is cancelled or tells the truth about itself.**  For every
service, texts and session and against every server: the only error is the
cancellation of the run, which then has been cancelled indeed, and an output has
one place for each text, reports planned batches as failed in their order, has
no vector exactly where a batch failed, and all its vectors have the one
dimension that it reports.
-/
theorem embed_faithful (service : OpenAi) (world : World) (texts : List String)
    (session : Session) :
    (((service.embed world texts).run session).1 = .error .cancelled ∧
        ((service.embed world texts).run session).2.cancelled = true) ∨
      ∃ output, ((service.embed world texts).run session).1 = .ok output ∧
        Faithful (service.batches (texts.map (cut service.limits.maxInputChars))) texts.length
          output := by
  have hResults := of_results (service.results_ranges world texts session)
    (service.results_ends world texts session)
  rw [embed_eq]
  rcases hResults with ⟨⟨range, hMem⟩, hCancelled⟩ | ⟨softened, hOk, hFaithful⟩
  · left
    rw [hCancelled]
    exact ⟨rfl, embedBatches_stopped hMem⟩
  · right
    refine ⟨Output.collect softened, ?_, ?_⟩
    · rw [hOk]
      rfl
    · rw [List.length_map, inputs, List.length_map] at hFaithful
      exact hFaithful

end SourceIndex.Embedding.OpenAi
