import SourceIndex.Proofs.Run.Tally
import SourceIndex.Proofs.Selection

/-!
# Raising the cap only appends

The cap of a plan decides after which selected file a run stops.  A run with a
higher cap asks for the same files first, receives the same for them, and only
then goes on; so all that is taken from the files one by one, with the lower
cap, is the beginning of what is taken with the higher one.  A server that
counts requests cannot tell the two runs apart before the first of them stops.

Embeddings are made of all chunks together, in batches that a longer list of
chunks fills otherwise.  The law is therefore one of runs without them.

## Main results

* `select_take`, `select_truncated` — what a lower cap leaves of a selection.
* `GitHub.fetchFiles_append` — files are fetched list by list.
* `Found.cappedAt` — a run with a lower cap comes to its end as well.
* `run_capped` — results, chunks and requests with two caps.
-/

namespace SourceIndex

open Http (World Session)

/-- The same plan with another cap on its files. -/
def RunPlan.cappedAt (plan : RunPlan) (cap : Nat) : RunPlan := { plan with maxFiles := cap }

/-! ## Selections -/

section Selection

variable {α : Type} (filter : FileFilter) (pathOf : α → String) (files : List α) {cap more : Nat}

/-- A lower cap leaves the beginning of a selection. -/
theorem select_take (hCap : 0 < cap) (hMore : cap < more ∨ more = 0) :
    (select filter cap pathOf files).files = (select filter more pathOf files).files.take cap := by
  rw [select_eq, select_eq, if_neg (Nat.ne_of_gt hCap)]
  rcases hMore with hLess | rfl
  · rw [if_neg (by omega), List.take_take, Nat.min_eq_left (Nat.le_of_lt hLess)]
  · rfl

/-- A higher cap shows whether a lower one cuts a selection off. -/
theorem select_truncated (hCap : 0 < cap) (hMore : cap < more ∨ more = 0) :
    (select filter cap pathOf files).truncated = true ↔
      cap < (select filter more pathOf files).files.length := by
  rw [select_eq, select_eq, if_neg (Nat.ne_of_gt hCap), decide_eq_true_iff]
  rcases hMore with hLess | rfl
  · rw [if_neg (by omega), List.length_take]
    omega
  · rfl

end Selection

/-! ## Files -/

/-- What is fetched of one list of files and then of another. -/
def FetchedFiles.followedBy (first second : FetchedFiles) : FetchedFiles :=
  { files := first.files ++ second.files, skipped := first.skipped ++ second.skipped }

namespace GitHub

variable {service : GitHub} {repository : RepositoryRef}

theorem joined_followedBy (found : SourceFile ⊕ SkippedFile) (first second : FetchedFiles) :
    joined found (first.followedBy second) = (joined found first).followedBy second := by
  cases found with
  | inl source => rfl
  | inr skipped => rfl

/-- **Files are fetched list by list.** -/
theorem fetchFiles_append (world : World) (files rest : List ListedFile) :
    service.fetchFiles world repository (files ++ rest) =
      service.fetchFiles world repository files >>= fun first =>
        service.fetchFiles world repository rest >>= fun second =>
          pure (first.followedBy second) := by
  induction files with
  | nil => exact (bind_pure _).symm
  | cons file more ih =>
      rw [List.cons_append, fetchFiles_cons, fetchFiles_cons, ih]
      simp only [bind_assoc, pure_bind, joined_followedBy]

/-- What is fetched of some files is fetched first where more files follow. -/
theorem fetchFiles_append_ok {world : World} {files rest : List ListedFile}
    {session after : Session} {fetched : FetchedFiles}
    (h : (service.fetchFiles world repository (files ++ rest)).run session =
      (.ok fetched, after)) :
    ∃ first second between,
      (service.fetchFiles world repository files).run session = (.ok first, between) ∧
        fetched = first.followedBy second ∧ between.log <+: after.log := by
  rw [fetchFiles_append] at h
  obtain ⟨first, between, hFirst, hRest⟩ := Http.Online.run_bind_eq_ok h
  obtain ⟨second, _, hSecond, hJoined⟩ := Http.Online.run_bind_eq_ok hRest
  have hLog : between.log <+: ((service.fetchFiles world repository rest).run between).2.log :=
    (service.fetchFiles_acts repository rest).log_isPrefix world between
  rw [hSecond] at hLog
  cases hJoined
  exact ⟨first, second, between, hFirst, rfl, hLog⟩

end GitHub

namespace Run

/-! ## Chunks -/

section Chunks

variable (bench : Workbench) (plan : RunPlan) (first rest : List SourceFile)

theorem chunked_chunks_isPrefix :
    (chunked bench plan first).chunks <+: (chunked bench plan (first ++ rest)).chunks := by
  rw [chunked, chunked, ChunkReport.chunks_of, ChunkReport.chunks_of, List.flatMap_append]
  exact List.prefix_append _ _

theorem chunked_fallbackFiles_isPrefix :
    (chunked bench plan first).fallbackFiles <+:
      (chunked bench plan (first ++ rest)).fallbackFiles := by
  rw [chunked, chunked, ChunkReport.fallbackFiles_of, ChunkReport.fallbackFiles_of,
    List.filter_append, List.map_append]
  exact List.prefix_append _ _

/-- A format shows the beginning of the chunks as the beginning of what it
shows of them. -/
theorem shapeChunks_isPrefix (format : OutputFormat) {chunks others : List Chunk}
    (h : chunks <+: others) : format.shapeChunks chunks <+: format.shapeChunks others := by
  cases format with
  | metadata => exact List.prefix_refl []
  | chunks => exact h.map _
  | chunksEmbeddings => exact h
  | full => exact h

end Chunks

/-! ## Runs with two caps -/

section Caps

variable {bench : Workbench} {plan : RunPlan} {world : World} {cap more : Nat}

/-- The files that a plan selects with a lower cap come first among those that
it selects with a higher one. -/
theorem selected_take (plan : RunPlan) (files : List ListedFile) (hCap : 0 < cap)
    (hMore : cap < more ∨ more = 0) :
    selected (plan.cappedAt cap) files = (selected (plan.cappedAt more) files).take cap := by
  unfold selected
  exact select_take plan.filter _ files hCap hMore

/-- **A run with a lower cap comes to its end** where one with a higher cap
that does so goes on. -/
theorem Found.cappedAt {session after : Session} {service : GitHub} {snapshot : Snapshot}
    {fetched : FetchedFiles} (hCap : 0 < cap) (hMore : cap < more ∨ more = 0)
    (h : Found bench (plan.cappedAt more) world session service snapshot fetched after) :
    ∃ first second between,
      Found bench (plan.cappedAt cap) world session service snapshot first between ∧
        fetched = first.followedBy second ∧ between.log <+: after.log := by
  obtain ⟨listed, hSnapshot, hFetched⟩ := h.files
  rw [← List.take_append_drop cap (selected (plan.cappedAt more) snapshot.files),
    ← selected_take plan snapshot.files hCap hMore] at hFetched
  obtain ⟨first, second, between, hFirst, hJoined, hLog⟩ := GitHub.fetchFiles_append_ok hFetched
  exact ⟨first, second, between, ⟨h.running, h.connected, listed, hSnapshot, hFirst⟩, hJoined,
    hLog⟩

/-- What a run with a lower cap shows of the result of one with a higher cap. -/
structure Opens (cap : Nat) (shorter longer : RunResult) : Prop where
  chunks : shorter.chunks <+: longer.chunks
  fallbackFiles : shorter.metadata.fallbackFiles <+: longer.metadata.fallbackFiles
  skippedFiles : shorter.metadata.skippedFiles <+: longer.metadata.skippedFiles
  fileCount : shorter.metadata.fileCount = min cap longer.metadata.fileCount
  /-- A run is cut short when there is another file for the higher cap. -/
  truncated : shorter.metadata.truncated = true ↔ cap < longer.metadata.fileCount

/-- The results of runs that find the one what the other finds first. -/
theorem concluded_opens (snapshot : Snapshot) (first second : FetchedFiles) (hCap : 0 < cap)
    (hMore : cap < more ∨ more = 0) :
    Opens cap (concluded bench (plan.cappedAt cap) snapshot first none)
      (concluded bench (plan.cappedAt more) snapshot (first.followedBy second) none) := by
  refine
    { chunks := shapeChunks_isPrefix plan.format
        (chunked_chunks_isPrefix bench plan first.files second.files)
      fallbackFiles := chunked_fallbackFiles_isPrefix bench plan first.files second.files
      skippedFiles := List.prefix_append _ _
      fileCount := ?_
      truncated := select_truncated plan.filter _ snapshot.files hCap hMore }
  show (selected (plan.cappedAt cap) snapshot.files).length =
    min cap (selected (plan.cappedAt more) snapshot.files).length
  rw [selected_take plan snapshot.files hCap hMore, List.length_take]

end Caps

/--
**Raising the cap only appends.**  When a plan without embeddings has a result
with a higher cap, or with none, it has one with a lower cap in the same world.
What the run with the lower cap asks, makes and lists is the beginning of what
the other one does; it counts as many files as it may, and says whether there
are more.
-/
theorem run_capped (bench : Workbench) (plan : RunPlan) (world : World) (state : RunState)
    (cap more : Nat) (hFormat : plan.format = .metadata ∨ plan.format = .chunks)
    (hCap : 0 < cap) (hMore : cap < more ∨ more = 0) (longer : RunResult)
    (hRun : ((plan.cappedAt more).run bench world state).1 = .ok longer) :
    ∃ shorter first all,
      ((plan.cappedAt cap).run bench world state).1 = .ok shorter ∧
        ((plan.cappedAt cap).run bench world state).2.session.log <+:
          ((plan.cappedAt more).run bench world state).2.session.log ∧
        Makes bench (plan.cappedAt cap) world state.session first ∧
        Makes bench (plan.cappedAt more) world state.session all ∧ first <+: all ∧
        Opens cap shorter longer := by
  have hNeeds : ∀ cap, (plan.cappedAt cap).format.needsEmbeddings = false := by
    intro cap
    show plan.format.needsEmbeddings = false
    rcases hFormat with hFormat | hFormat
    · rw [hFormat]
      rfl
    · rw [hFormat]
      rfl
  obtain ⟨service, snapshot, fetched, hFound, rfl⟩ := run_unembedded_eq_ok (hNeeds more) hRun
  obtain ⟨first, second, between, hFirst, rfl, hLog⟩ := hFound.cappedAt hCap hMore
  obtain ⟨hResult, hSession⟩ := run_of_found_unembedded (hNeeds cap) hFirst
  refine ⟨_, _, _, hResult, ?_, ⟨service, snapshot, first, between, hFirst, rfl⟩,
    ⟨service, snapshot, _, _, hFound, rfl⟩,
    chunked_chunks_isPrefix bench plan first.files second.files,
    concluded_opens snapshot first second hCap hMore⟩
  rw [hSession]
  exact hLog

/-! ### The last of four files is left out -/

namespace Mixed

def chunksPlan : RunPlan := { plan with format := .chunks }

theorem run_uncapped :
    (((chunksPlan.cappedAt 0).run Moving.bench world ⟨.start false, none⟩).1.toOption.map
        fun result => (result.metadata.fileCount, result.metadata.skippedFiles.map (·.path))) =
      some (4, ["c.txt", "d.txt"]) := by
  decide +kernel

end Mixed

open Moving (bench) in
open Mixed (chunksPlan world) in
theorem run_capped_mixed :
    ∃ longer shorter first all,
      ((chunksPlan.format = .metadata ∨ chunksPlan.format = .chunks) ∧ 0 < 3 ∧ (3 < 0 ∨ 0 = 0) ∧
        ((chunksPlan.cappedAt 0).run bench world ⟨.start false, none⟩).1 = .ok longer) ∧
      longer.metadata.fileCount = 4 ∧ shorter.metadata.truncated = true ∧
      ((chunksPlan.cappedAt 3).run bench world ⟨.start false, none⟩).1 = .ok shorter ∧
        ((chunksPlan.cappedAt 3).run bench world ⟨.start false, none⟩).2.session.log <+:
          ((chunksPlan.cappedAt 0).run bench world ⟨.start false, none⟩).2.session.log ∧
        Makes bench (chunksPlan.cappedAt 3) world (.start false) first ∧
        Makes bench (chunksPlan.cappedAt 0) world (.start false) all ∧ first <+: all ∧
        Opens 3 shorter longer := by
  have hShown := Mixed.run_uncapped
  cases hRun : ((chunksPlan.cappedAt 0).run bench world ⟨.start false, none⟩).1 with
  | error error =>
      rw [hRun] at hShown
      cases hShown
  | ok longer =>
      rw [hRun] at hShown
      have hCount : longer.metadata.fileCount = 4 := (Prod.mk.inj (Option.some.inj hShown)).1
      obtain ⟨shorter, first, all, hShorter, hLog, hFirst, hAll, hChunks, hOpens⟩ :=
        run_capped bench chunksPlan world ⟨.start false, none⟩ 3 0 (.inr rfl) (by decide) (.inr rfl)
          longer hRun
      have hTruncated : shorter.metadata.truncated = true :=
        hOpens.truncated.mpr (by rw [hCount]; decide)
      exact ⟨longer, shorter, first, all, ⟨.inr rfl, by decide, .inr rfl, rfl⟩, hCount, hTruncated,
        hShorter, hLog, hFirst, hAll, hChunks, hOpens⟩

end Run

end SourceIndex
