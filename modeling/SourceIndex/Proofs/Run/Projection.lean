import SourceIndex.Proofs.Run.Tally

/-!
# The output format is a projection

The format of a plan decides what a result shows, and whether chunks are
embedded at all; it has no part in what is fetched, chunked or counted.  The
result of a run with the format `full` therefore holds all that the same run
shows with any other format, and can be cut down to it.

## Main results

* `concluded_reduced` — what is found with all formats is shown by the full one.
* `run_reduced` — a run with another format has the full result, cut down.
-/

namespace SourceIndex

open Http (World Session)

/-- The same plan with another output format. -/
def RunPlan.shownAs (plan : RunPlan) (format : OutputFormat) : RunPlan := { plan with format }

namespace RunResult

/-- Leaves out the list of failures, but not their number. -/
def withoutFailures (result : RunResult) : RunResult :=
  { result with metadata := { result.metadata with softFailures := none } }

/-- The failures of chunking, among those that are listed. -/
def chunkingFailures (result : RunResult) : List SoftFailure :=
  (result.metadata.softFailures.getD []).filter (·.stage = .chunking)

/-- Leaves out the embeddings, what is said of them, and the failures to make
them. -/
def withoutEmbeddings (result : RunResult) : RunResult :=
  { result with
    embeddings := []
    metadata :=
      { result.metadata with
        embedding := none
        softFailures := some result.chunkingFailures
        softFailureCount := result.chunkingFailures.length } }

/-- Leaves out the docstring of every chunk. -/
def withoutDocstrings (result : RunResult) : RunResult :=
  { result with chunks := result.chunks.map fun chunk => { chunk with docstring := none } }

/-- Leaves out the chunks, but not their number. -/
def withoutChunks (result : RunResult) : RunResult := { result with chunks := [] }

/-- What another format leaves of a full result. -/
def cutDown (result : RunResult) : OutputFormat → RunResult
  | .full => result
  | .chunksEmbeddings => result.withoutFailures
  | .chunks => result.withoutEmbeddings.withoutFailures.withoutDocstrings
  | .metadata => result.withoutEmbeddings.withoutFailures.withoutChunks

/-- A full result as another format shows it. -/
def reducedTo (result : RunResult) (format : OutputFormat) : RunResult :=
  { result.cutDown format with format }

end RunResult

namespace Run

open SourceIndex.Embedding (Embedder Mock)

section Formats

variable {bench : Workbench} {plan : RunPlan} {standIn : Option Mock} {world : World}

/-- What a run finds before it embeds anything does not depend on the format. -/
theorem Found.shownAs {session after : Session} {service : GitHub} {snapshot : Snapshot}
    {fetched : FetchedFiles} (format : OutputFormat)
    (h : Found bench plan world session service snapshot fetched after) :
    Found bench (plan.shownAs format) world session service snapshot fetched after :=
  ⟨h.running, h.connected, h.files⟩

theorem chosen_shownAs {format other : OutputFormat}
    (h : format.needsEmbeddings = other.needsEmbeddings) :
    chosen bench (plan.shownAs format) standIn = chosen bench (plan.shownAs other) standIn := by
  unfold chosen
  rw [show (plan.shownAs format).format = format from rfl,
    show (plan.shownAs other).format = other from rfl, h]
  rfl

/-- A run with any format finds what the full run finds; only a format that
needs embeddings makes them. -/
def embeddedFor (format : OutputFormat) (embedded : Option EmbeddingReport) :
    Option EmbeddingReport :=
  if format.needsEmbeddings then embedded else none

end Formats

section Concluded

variable {bench : Workbench} {plan : RunPlan} {snapshot : Snapshot} {fetched : FetchedFiles}
  {embedded : Option EmbeddingReport}

/-- The failures of chunking are found again among all failures. -/
theorem chunkingFailures_concluded
    (hStages : ∀ failure ∈ (embedded.map (·.failures)).getD [], failure.stage = .embedding) :
    (concluded bench (plan.shownAs .full) snapshot fetched embedded).chunkingFailures =
      (chunked bench plan fetched.files).failures := by
  show ((chunked bench plan fetched.files).failures ++
    (embedded.map (·.failures)).getD []).filter (·.stage = .chunking) = _
  have hKept : (chunked bench plan fetched.files).failures.filter (·.stage = .chunking) =
      (chunked bench plan fetched.files).failures := by
    rw [List.filter_eq_self]
    intro failure hFailure
    exact decide_eq_true (stage_of_chunked hFailure)
  have hDropped : ((embedded.map (·.failures)).getD []).filter (·.stage = .chunking) = [] := by
    rw [List.filter_eq_nil_iff]
    intro failure hFailure
    rw [hStages failure hFailure]
    decide
  rw [List.filter_append, hKept, hDropped, List.append_nil]

/-- Without embeddings, the only failures are those of chunking. -/
theorem concluded_unembedded {format : OutputFormat} (h : format.needsEmbeddings = false) :
    concluded bench (plan.shownAs format) snapshot fetched (embeddedFor format embedded) =
      concluded bench (plan.shownAs format) snapshot fetched none := by
  rw [embeddedFor, if_neg (by simp [h])]

/-- **Every format shows a part of what the full one shows.** -/
theorem concluded_reduced (format : OutputFormat)
    (hStages : ∀ failure ∈ (embedded.map (·.failures)).getD [], failure.stage = .embedding) :
    concluded bench (plan.shownAs format) snapshot fetched (embeddedFor format embedded) =
      (concluded bench (plan.shownAs .full) snapshot fetched embedded).reducedTo format := by
  have hFailures :
      (concluded bench (plan.shownAs .full) snapshot fetched embedded).chunkingFailures =
      (chunked bench plan fetched.files).failures :=
    chunkingFailures_concluded hStages
  have hCount : ((chunked bench plan fetched.files).failures ++ []).length =
      (chunked bench plan fetched.files).failures.length := by
    rw [List.append_nil]
  cases format with
  | full => rfl
  | chunksEmbeddings => rfl
  | chunks =>
      simp only [RunResult.reducedTo, RunResult.cutDown, RunResult.withoutEmbeddings, hFailures]
      rw [concluded_unembedded rfl, ← hCount]
      rfl
  | metadata =>
      simp only [RunResult.reducedTo, RunResult.cutDown, RunResult.withoutEmbeddings, hFailures]
      rw [concluded_unembedded rfl, ← hCount]
      rfl

end Concluded

/--
**The output format is a projection.**  When a plan has a result in the full
format, it has one in every format, and this is the full result cut down to
what the format shows.
-/
theorem run_reduced (bench : Workbench) (plan : RunPlan) (world : World) (state : RunState)
    (result : RunResult) (hRun : ((plan.shownAs .full).run bench world state).1 = .ok result)
    (format : OutputFormat) :
    ((plan.shownAs format).run bench world state).1 = .ok (result.reducedTo format) := by
  obtain ⟨service, snapshot, fetched, between, embedder, embedded, hFound, hChosen, hEmbedding,
    rfl⟩ := run_eq_ok_iff.mp hRun
  have hStages := (batchFailures_of_embedding hChosen hEmbedding).stage
  rw [← concluded_reduced format hStages]
  cases hNeeds : format.needsEmbeddings with
  | true =>
      have hSame : chosen bench (plan.shownAs format) state.standIn = .ok embedder :=
        (chosen_shownAs hNeeds).trans hChosen
      rw [embeddedFor, if_pos hNeeds]
      exact run_of_found (hFound.shownAs format) hSame hEmbedding
  | false =>
      rw [concluded_unembedded hNeeds]
      exact run_of_found (hFound.shownAs format) (chosen_of_unembedded _ hNeeds) rfl

open Moving (bench standIn) in
open Mixed (plan world) in
theorem run_reduced_mixed :
    ∃ result, ((plan.shownAs .full).run bench world ⟨.start false, standIn⟩).1 = .ok result ∧
      result.metadata.softFailureCount = 2 ∧
      (result.reducedTo .metadata).metadata.softFailureCount = 1 ∧
      ((plan.shownAs .metadata).run bench world ⟨.start false, standIn⟩).1 =
        .ok (result.reducedTo .metadata) := by
  have hShown := Mixed.run_shown
  cases hRun : (plan.run bench world ⟨.start false, standIn⟩).1 with
  | error error =>
      rw [hRun] at hShown
      cases hShown
  | ok result =>
      rw [hRun] at hShown
      obtain ⟨_, hShown⟩ := Prod.mk.inj (Option.some.inj hShown)
      obtain ⟨_, hShown⟩ := Prod.mk.inj hShown
      obtain ⟨hCount, hFailures⟩ := Prod.mk.inj hShown
      have hChunking : result.chunkingFailures.length = 1 := by
        rw [RunResult.chunkingFailures, hFailures]
        rfl
      exact ⟨result, hRun, hCount, hChunking,
        run_reduced bench plan world ⟨.start false, standIn⟩ result hRun .metadata⟩

end Run

end SourceIndex
