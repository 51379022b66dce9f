import SourceIndex.Proofs.Chunk.Identifier
import SourceIndex.Proofs.Run.Tally
import SourceIndex.Proofs.Selection

/-!
# Identifiers in a run

The chunks of one file differ in their spans, and those of two files in their
paths.  Files that are listed once are selected, fetched and chunked at most
once, so in a run whose listing names no path twice no two chunks are hashed
alike.

## Main results

* `select_sublist` — selected files stand in the order of the listing.
* `chunked_differ` — the chunks of files with paths of their own.
* `Found.differ`, `Found.nodup_ids` — the chunks of a run.
* `ids_distinct` — what is hashed, and identifiers in a file and in a run.
-/

namespace SourceIndex

open Http (World Session)

/-- Selected files stand in the order of the listing. -/
theorem select_sublist {α : Type} (filter : FileFilter) (cap : Nat) (pathOf : α → String)
    (files : List α) : (select filter cap pathOf files).files.Sublist files := by
  rw [select_eq]
  split
  · exact List.filter_sublist
  · exact (List.take_sublist _ _).trans List.filter_sublist

namespace Run

section Chunks

variable {bench : Workbench} {plan : RunPlan} {files : List SourceFile}

/-- Each chunk of a run has the identifier that is made for it. -/
theorem id_of_chunked : ∀ chunk ∈ (chunked bench plan files).chunks,
    chunk.id = Blake3.hexDigest (chunk.hashed plan.options.strategy) := by
  intro chunk hChunk
  rw [chunked, ChunkReport.chunks_of, List.mem_flatMap] at hChunk
  obtain ⟨file, _, hOwn⟩ := hChunk
  exact (ChunkedFile.identified_of chunk hOwn).id

/-- **Chunks of files with paths of their own differ**: those of one file in
their spans, all others in their paths. -/
theorem chunked_differ (hPaths : (files.map (·.path)).Nodup)
    (hTrees : ∀ file ∈ files, (bench.parse file).WellFormed file.content.toList) :
    (chunked bench plan files).chunks.Pairwise Chunk.Differs := by
  rw [chunked, ChunkReport.chunks_of, List.pairwise_flatMap]
  constructor
  · intro file hFile
    exact ChunkedFile.differ_of (hTrees file hFile)
  · refine (List.pairwise_map.mp hPaths).imp ?_
    rintro file other hPath chunk hChunk found hFound ⟨hSame, _⟩
    rw [(ChunkedFile.identified_of chunk hChunk).path,
      (ChunkedFile.identified_of found hFound).path] at hSame
    exact hPath hSame

end Chunks

section Runs

variable {bench : Workbench} {plan : RunPlan} {world : World} {session after : Session}
  {service : GitHub} {snapshot : Snapshot} {fetched : FetchedFiles}

/-- The fetched files of a run stand in the order of its listing. -/
theorem Found.paths_sublist
    (h : Found bench plan world session service snapshot fetched after) :
    (fetched.files.map (·.path)).Sublist (snapshot.files.map (·.path)) := by
  obtain ⟨_, _, hFetched⟩ := h.files
  have hSelected : (selected plan snapshot.files).Sublist snapshot.files :=
    select_sublist plan.filter plan.maxFiles _ snapshot.files
  exact (GitHub.fetchFiles_sorts hFetched).fetched_sublist.trans (hSelected.map _)

/-- **The chunks of a run have identifiers of their own**, when its listing
names no path twice. -/
theorem Found.nodup_ids (h : Found bench plan world session service snapshot fetched after)
    (hPaths : (snapshot.files.map (·.path)).Nodup)
    (hTrees : ∀ file ∈ fetched.files, (bench.parse file).WellFormed file.content.toList)
    (hSeparates : Blake3.Separates
      ((chunked bench plan fetched.files).chunks.map (Chunk.hashed plan.options.strategy))) :
    ((chunked bench plan fetched.files).chunks.map (·.id)).Nodup :=
  Chunk.nodup_ids id_of_chunked (chunked_differ (h.paths_sublist.nodup hPaths) hTrees) hSeparates

/-- A format shows chunks with the identifiers that they have. -/
theorem ids_shapeChunks (format : OutputFormat) (chunks : List Chunk) :
    ((format.shapeChunks chunks).map (·.id)).Sublist (chunks.map (·.id)) := by
  cases format with
  | metadata => exact List.nil_sublist _
  | chunks =>
      rw [OutputFormat.shapeChunks, List.map_map]
      exact List.Sublist.refl _
  | chunksEmbeddings => exact List.Sublist.refl _
  | full => exact List.Sublist.refl _

/-- What a result shows has identifiers of its run. -/
theorem exists_found_ids {state : RunState} {result : RunResult}
    (hRun : (plan.run bench world state).1 = .ok result) :
    ∃ service snapshot fetched after,
      Found bench plan world state.session service snapshot fetched after ∧
        (result.chunks.map (·.id)).Sublist
          ((chunked bench plan fetched.files).chunks.map (·.id)) := by
  obtain ⟨service, snapshot, fetched, between, _, _, hFound, _, _, rfl⟩ := run_eq_ok_iff.mp hRun
  exact ⟨service, snapshot, fetched, between, hFound, ids_shapeChunks plan.format _⟩

end Runs

/--
**Identifiers of chunks do not collide.**  What is hashed for a chunk tells its
path, whatever signs this holds, its strategy and its spans.  Where digests of
what is hashed do not collide, the identifiers of the chunks of a file are
distinct, for every source and every well-formed tree, and so are those of all
chunks that a run makes whose listing names no path twice; a result shows no
other identifiers.
-/
theorem ids_distinct :
    (∀ (filePath otherPath : String) (strategy other : Strategy) (spans others : List Span),
      Utf8.encode (ChunkId.preimage filePath strategy spans) =
          Utf8.encode (ChunkId.preimage otherPath other others) →
        filePath = otherPath ∧ strategy = other ∧ spans = others) ∧
    (∀ (source filePath : String) (options : ChunkOptions) (parse : Parse),
      parse.WellFormed source.toList →
      Blake3.Separates ((ChunkedFile.of source filePath options parse).chunks.map
        (Chunk.hashed options.strategy)) →
      ((ChunkedFile.of source filePath options parse).chunks.map (·.id)).Nodup) ∧
    (∀ (bench : Workbench) (plan : RunPlan) (world : World) (session after : Session)
      (service : GitHub) (snapshot : Snapshot) (fetched : FetchedFiles),
      Found bench plan world session service snapshot fetched after →
      (snapshot.files.map (·.path)).Nodup →
      (∀ file ∈ fetched.files, (bench.parse file).WellFormed file.content.toList) →
      Blake3.Separates
        ((chunked bench plan fetched.files).chunks.map (Chunk.hashed plan.options.strategy)) →
      ((chunked bench plan fetched.files).chunks.map (·.id)).Nodup) ∧
    ∀ (bench : Workbench) (plan : RunPlan) (world : World) (state : RunState)
      (result : RunResult), (plan.run bench world state).1 = .ok result →
      ∃ service snapshot fetched after,
        Found bench plan world state.session service snapshot fetched after ∧
          (result.chunks.map (·.id)).Sublist
            ((chunked bench plan fetched.files).chunks.map (·.id)) :=
  ⟨fun _ _ _ _ _ _ => ChunkId.input_inj,
    fun _ _ _ _ => ChunkedFile.nodup_ids_of,
    fun _ _ _ _ _ _ _ _ => Found.nodup_ids,
    fun _ _ _ _ _ => exists_found_ids⟩

/-! ### Two files that are kept whole -/

namespace Moving

/-- No path is listed twice. -/
theorem paths_distinct :
    ((connected bench plan).toOption.bind fun service =>
        ((service.snapshot world plan.repository).run (.start false)).1.toOption.map fun snapshot =>
          decide (snapshot.files.map (·.path)).Nodup) = some true := by
  decide +kernel

/-- There is a chunk of each of the two fetched files. -/
theorem run_hashed :
    ((plan.run bench world ⟨.start false, standIn⟩).1.toOption.map fun result =>
      (result.chunks.length,
        decide (Blake3.Separates (result.chunks.map (Chunk.hashed plan.options.strategy))))) =
      some (2, true) := by
  decide +kernel

theorem paths_of_found {service : GitHub} {snapshot : Snapshot} {fetched : FetchedFiles}
    {after : Session} (h : Found bench plan world (.start false) service snapshot fetched after) :
    (snapshot.files.map (·.path)).Nodup := by
  obtain ⟨_, hSnapshot, _⟩ := h.files
  have hPaths := paths_distinct
  rw [h.connected] at hPaths
  dsimp only [Except.toOption, Option.bind] at hPaths
  rw [hSnapshot] at hPaths
  exact of_decide_eq_true (Option.some.inj hPaths)

end Moving

open Moving in
theorem ids_distinct_moving :
    Utf8.encode (ChunkId.preimage "a\x00file" .wholeFile []) ≠
      Utf8.encode (ChunkId.preimage "a" .wholeFile []) ∧
    ((Parse.clean Accent.tree).WellFormed Accent.source.toList ∧
      Blake3.Separates
        ((ChunkedFile.of Accent.source "a.py" ⟨.functions, true⟩ (.clean Accent.tree)).chunks.map
          (Chunk.hashed .functions)) ∧
      ((ChunkedFile.of Accent.source "a.py" ⟨.functions, true⟩ (.clean Accent.tree)).chunks.map
        (·.id)).Nodup) ∧
    ∃ result service snapshot fetched after,
      (plan.run bench world ⟨.start false, standIn⟩).1 = .ok result ∧ result.chunks.length = 2 ∧
        Found bench plan world (.start false) service snapshot fetched after ∧
        (snapshot.files.map (·.path)).Nodup ∧
        Blake3.Separates
          ((chunked bench plan fetched.files).chunks.map (Chunk.hashed plan.options.strategy)) ∧
        ((chunked bench plan fetched.files).chunks.map (·.id)).Nodup := by
  obtain ⟨hInputs, hFile, hChunks, hResults⟩ := ids_distinct
  refine ⟨?_, ?_, ?_⟩
  · intro hSame
    exact absurd (hInputs _ _ _ _ _ _ hSame).1 (by decide)
  · have hTree : (Parse.clean Accent.tree).WellFormed Accent.source.toList := by decide
    exact ⟨hTree, Accent.separates, hFile _ _ ⟨.functions, true⟩ _ hTree Accent.separates⟩
  · have hShown := Moving.run_hashed
    cases hRun : (plan.run bench world ⟨.start false, standIn⟩).1 with
    | error error =>
        rw [hRun] at hShown
        cases hShown
    | ok result =>
        rw [hRun] at hShown
        obtain ⟨hLength, hSeparates⟩ := Prod.mk.inj (Option.some.inj hShown)
        obtain ⟨service, snapshot, fetched, after, _, _, hFound, _, _, hResult⟩ :=
          run_eq_ok_iff.mp hRun
        have hMade : result.chunks = (chunked bench plan fetched.files).chunks := by
          rw [hResult]
          rfl
        rw [hMade] at hSeparates
        have hDigests := of_decide_eq_true hSeparates
        exact ⟨result, service, snapshot, fetched, after, rfl, hLength, hFound,
          paths_of_found hFound, hDigests,
          hChunks _ _ _ _ _ _ _ _ hFound (paths_of_found hFound) (fun _ _ => trivial) hDigests⟩

end Run

end SourceIndex
