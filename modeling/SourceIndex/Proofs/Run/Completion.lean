import SourceIndex.Proofs.Run.Stages

/-!
# Runs that come to their end

A run has a result exactly when each of its stages has one.  What the stages
before the embedding find does not depend on the format of the plan, nor on
whether there is an embedder; so two plans that differ in these alone are
compared by what they make of the same findings.

## Main results

* `planned_eq_ok_iff`, `run_eq_ok_iff` — the results of a run, stage by stage.
* `stage_of_chunked`, `stage_of_embedded` — failures tell the stage they come
  from.
-/

namespace SourceIndex.Http.Online

variable {ε δ α β : Type} {session after : Session}

theorem run_bind_eq_ok_iff {action : Online ε α} {rest : α → Online ε β} {value : β} :
    (action >>= rest).run session = (.ok value, after) ↔
      ∃ found between, action.run session = (.ok found, between) ∧
        (rest found).run between = (.ok value, after) := by
  constructor
  · exact run_bind_eq_ok
  · rintro ⟨found, between, hAction, hRest⟩
    rw [run_bind_ok rest hAction, hRest]

theorem run_mapError_eq_ok_iff {convert : ε → δ} {action : Online ε α} {value : α} :
    (mapError convert action).run session = (.ok value, after) ↔
      action.run session = (.ok value, after) := by
  rw [run_mapError]
  rcases action.run session with ⟨error | found, left⟩
  · constructor
    · intro h
      cases h
    · intro h
      cases h
  · constructor
    · intro h
      cases h
      rfl
    · intro h
      cases h
      rfl

theorem run_ofExcept_eq_ok_iff {result : Except ε α} {value : α} :
    (MonadExcept.ofExcept result : Online ε α).run session = (.ok value, after) ↔
      result = .ok value ∧ session = after := by
  rw [run_ofExcept, Prod.mk.injEq]

/-- A run that was not cancelled goes on where it is. -/
theorem run_checkCancelled_eq_ok_iff {cancelled : ε} {rest : Unit → Online ε α} {value : α} :
    (checkCancelled cancelled >>= rest).run session = (.ok value, after) ↔
      session.cancelled = false ∧ (rest ()).run session = (.ok value, after) := by
  rw [run_checkCancelled]
  cases session.cancelled with
  | true =>
      constructor
      · intro h
        cases h
      · intro h
        cases h.1
  | false => simp

end SourceIndex.Http.Online

namespace SourceIndex.Run

open Http Http.Online
open SourceIndex.Embedding (Embedder Mock)

/-- What a run has found before it embeds anything, and where this leaves its
session. -/
structure Found (bench : Workbench) (plan : RunPlan) (world : World) (session : Session)
    (service : GitHub) (snapshot : Snapshot) (fetched : FetchedFiles) (after : Session) :
    Prop where
  running : session.cancelled = false
  connected : connected bench plan = .ok service
  files : ∃ listed, (service.snapshot world plan.repository).run session = (.ok snapshot, listed) ∧
    (service.fetchFiles world plan.repository (selected plan snapshot.files)).run listed =
      (.ok fetched, after)

/-- The chunks that a run makes, whether its format shows them or not. -/
def Makes (bench : Workbench) (plan : RunPlan) (world : World) (session : Session)
    (chunks : List Chunk) : Prop :=
  ∃ service snapshot fetched after,
    Found bench plan world session service snapshot fetched after ∧
      chunks = (chunked bench plan fetched.files).chunks

section Results

variable {bench : Workbench} {plan : RunPlan} {standIn : Option Mock} {world : World}
  {session after : Session} {result : RunResult}

theorem staged_eq (bench : Workbench) (plan : RunPlan) (standIn : Option Mock) (world : World) :
    staged bench plan standIn world =
      MonadExcept.ofExcept (connected bench plan) >>= fun service =>
        mapError .ofFetch (service.snapshot world plan.repository) >>= fun snapshot =>
          building bench plan standIn service snapshot world := by
  simp only [mapError_snapshot]
  rfl

/-- **A run has a result when its stages have.** -/
theorem planned_eq_ok_iff :
    (planned bench plan standIn world).run session = (.ok result, after) ↔
      ∃ service snapshot fetched between embedder embedded,
        Found bench plan world session service snapshot fetched between ∧
        chosen bench plan standIn = .ok embedder ∧
        (embedding bench (chunked bench plan fetched.files).chunks embedder world).run between =
          (.ok embedded, after) ∧
        result = concluded bench plan snapshot fetched embedded := by
  rw [planned, run_checkCancelled_eq_ok_iff, staged_eq]
  simp only [building, run_bind_eq_ok_iff, run_mapError_eq_ok_iff, run_ofExcept_eq_ok_iff]
  constructor
  · rintro ⟨hRunning, service, _, ⟨hConnected, rfl⟩, snapshot, listed, hSnapshot, embedder, _,
      ⟨hChosen, rfl⟩, fetched, between, hFetched, embedded, left, hEmbedded, hConcluded⟩
    obtain ⟨hResult, rfl⟩ := Prod.mk.inj hConcluded
    exact ⟨service, snapshot, fetched, between, embedder, embedded,
      ⟨hRunning, hConnected, listed, hSnapshot, hFetched⟩, hChosen, hEmbedded,
      (Except.ok.inj hResult).symm⟩
  · rintro ⟨service, snapshot, fetched, between, embedder, embedded,
      ⟨hRunning, hConnected, listed, hSnapshot, hFetched⟩, hChosen, hEmbedded, rfl⟩
    exact ⟨hRunning, service, session, ⟨hConnected, rfl⟩, snapshot, listed, hSnapshot, embedder,
      listed, ⟨hChosen, rfl⟩, fetched, between, hFetched, embedded, after, hEmbedded, rfl⟩

/-- The results of a run, stage by stage. -/
theorem run_eq_ok_iff {state : RunState} :
    (plan.run bench world state).1 = .ok result ↔
      ∃ service snapshot fetched between embedder embedded,
        Found bench plan world state.session service snapshot fetched between ∧
        chosen bench plan state.standIn = .ok embedder ∧
        (embedding bench (chunked bench plan fetched.files).chunks embedder world).run between =
          (.ok embedded, (plan.run bench world state).2.session) ∧
        result = concluded bench plan snapshot fetched embedded := by
  obtain ⟨hResult, hSession⟩ := run_shows plan bench world state
  rw [← planned_eq_ok_iff, hResult, hSession, Prod.ext_iff]
  simp

/-- A run that finds what it needs has a result. -/
theorem run_of_found {state : RunState} {service : GitHub} {snapshot : Snapshot}
    {fetched : FetchedFiles} {between : Session} {embedder : Option Embedder}
    {embedded : Option EmbeddingReport}
    (hFound : Found bench plan world state.session service snapshot fetched between)
    (hChosen : chosen bench plan state.standIn = .ok embedder)
    (hEmbedding :
      (embedding bench (chunked bench plan fetched.files).chunks embedder world).run between =
        (.ok embedded, after)) :
    (plan.run bench world state).1 = .ok (concluded bench plan snapshot fetched embedded) := by
  have hPlanned := planned_eq_ok_iff.mpr
    ⟨service, snapshot, fetched, between, embedder, embedded, hFound, hChosen, hEmbedding, rfl⟩
  rw [(run_shows plan bench world state).1, hPlanned]

end Results

/-! ## Runs without embeddings -/

section Unembedded

variable {bench : Workbench} {plan : RunPlan} {world : World}

/-- Without embeddings, no embedder is asked for. -/
theorem chosen_of_unembedded (standIn : Option Mock) (hNeeds : plan.format.needsEmbeddings = false) :
    chosen bench plan standIn = .ok none := by
  rw [chosen, if_neg (by simp [hNeeds])]

/-- A run without embeddings ends with what it finds. -/
theorem run_of_found_unembedded {state : RunState} {service : GitHub} {snapshot : Snapshot}
    {fetched : FetchedFiles} {after : Session} (hNeeds : plan.format.needsEmbeddings = false)
    (hFound : Found bench plan world state.session service snapshot fetched after) :
    (plan.run bench world state).1 = .ok (concluded bench plan snapshot fetched none) ∧
      (plan.run bench world state).2.session = after := by
  have hPlanned := planned_eq_ok_iff.mpr ⟨service, snapshot, fetched, after, none, none, hFound,
    chosen_of_unembedded state.standIn hNeeds, rfl, rfl⟩
  obtain ⟨hResult, hSession⟩ := run_shows plan bench world state
  rw [hResult, hSession, hPlanned]
  exact ⟨rfl, rfl⟩

/-- The results of runs without embeddings. -/
theorem run_unembedded_eq_ok {state : RunState} {result : RunResult}
    (hNeeds : plan.format.needsEmbeddings = false)
    (hRun : (plan.run bench world state).1 = .ok result) :
    ∃ service snapshot fetched,
      Found bench plan world state.session service snapshot fetched
          (plan.run bench world state).2.session ∧
        result = concluded bench plan snapshot fetched none := by
  obtain ⟨service, snapshot, fetched, between, embedder, embedded, hFound, hChosen, hEmbedding,
    rfl⟩ := run_eq_ok_iff.mp hRun
  rw [chosen_of_unembedded state.standIn hNeeds] at hChosen
  obtain rfl := Except.ok.inj hChosen
  obtain ⟨hEmbedded, rfl⟩ := Prod.mk.inj hEmbedding
  obtain rfl := Except.ok.inj hEmbedded
  exact ⟨service, snapshot, fetched, hFound, rfl⟩

end Unembedded

/-! ## Failures -/

/-- Failures of chunking are told apart from those of embedding. -/
theorem stage_of_chunked {bench : Workbench} {plan : RunPlan} {sources : List SourceFile}
    {failure : SoftFailure} (h : failure ∈ (chunked bench plan sources).failures) :
    failure.stage = .chunking := by
  obtain ⟨split, _, hFailure⟩ := List.mem_filterMap.mp h
  unfold SplitFile.failure? at hFailure
  split at hFailure
  · cases hFailure
    rfl
  · cases hFailure

theorem stage_of_embedded {chunks : List Chunk} {failures : List Embedding.BatchFailure}
    {failure : SoftFailure} (h : failure ∈ failures.map (EmbeddingReport.failureOf chunks)) :
    failure.stage = .embedding := by
  obtain ⟨found, _, rfl⟩ := List.mem_map.mp h
  rfl

end SourceIndex.Run
