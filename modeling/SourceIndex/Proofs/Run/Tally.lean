import SourceIndex.Proofs.Run.Accounted

/-!
# The files of a run are all accounted for

Each selected file is fetched or skipped, and each fetched file is chunked,
counted under its language and with its lines, and named again where it was
kept whole or did not parse.  All these numbers and lists are taken from the
fetched files one by one, so none can lose a file or count it twice.

## Main results

* `GitHub.fetchFiles_sorts` — each file is fetched or skipped, in its order.
* `SplitFile.fallback_of`, `SplitFile.failure?_of` — when a file is kept whole,
  and when this is a failure.
* `concluded_tallied`, `run_tallied` — what the numbers and lists of a result
  count.
-/

namespace SourceIndex

open Http (World Session)

/-! ## Fetched and skipped files -/

namespace GitHub

/-- Files are fetched or skipped one after the other: too large ones are
skipped, and those that are no text. -/
inductive Sorts (service : GitHub) : List ListedFile → FetchedFiles → Prop where
  | nil : Sorts service [] { files := [], skipped := [] }
  | large {file : ListedFile} {rest : List ListedFile} {others : FetchedFiles} :
      service.settings.maxFileBytes < file.size → Sorts service rest others →
      Sorts service (file :: rest)
        { others with
          skipped :=
            ⟨file.path,
              s!"size {file.size} exceeds limit of {service.settings.maxFileBytes} bytes"⟩ ::
            others.skipped }
  | text {file : ListedFile} {rest : List ListedFile} {others : FetchedFiles} {content : String}
      {body : List UInt8} :
      file.size ≤ service.settings.maxFileBytes → Utf8.decode? body = some content →
      Sorts service rest others →
      Sorts service (file :: rest) { others with files := ⟨file.path, content⟩ :: others.files }
  | noText {file : ListedFile} {rest : List ListedFile} {others : FetchedFiles}
      {body : List UInt8} :
      file.size ≤ service.settings.maxFileBytes → Utf8.decode? body = none →
      Sorts service rest others →
      Sorts service (file :: rest)
        { others with skipped := ⟨file.path, "content is not valid UTF-8"⟩ :: others.skipped }

section Files

variable {service : GitHub} {files : List ListedFile} {fetched : FetchedFiles}

/-- No file is lost, and none is counted twice. -/
theorem Sorts.length (h : service.Sorts files fetched) :
    files.length = fetched.files.length + fetched.skipped.length := by
  induction h with
  | nil => rfl
  | large _ _ ih =>
      simp only [List.length_cons]
      omega
  | text _ _ _ ih =>
      simp only [List.length_cons]
      omega
  | noText _ _ _ ih =>
      simp only [List.length_cons]
      omega

/-- The files that are fetched stand in the order of the selection. -/
theorem Sorts.fetched_sublist (h : service.Sorts files fetched) :
    (fetched.files.map (·.path)).Sublist (files.map (·.path)) := by
  induction h with
  | nil => exact List.Sublist.refl []
  | large _ _ ih => exact ih.cons _
  | text _ _ _ ih => exact ih.cons_cons _
  | noText _ _ _ ih => exact ih.cons _

/-- **Each file is fetched or skipped.** -/
theorem fetchFiles_sorts {world : World} {repository : RepositoryRef} {session after : Session}
    (h : (service.fetchFiles world repository files).run session = (.ok fetched, after)) :
    service.Sorts files fetched := by
  induction files generalizing session after fetched with
  | nil =>
      cases h
      exact .nil
  | cons file rest ih =>
      rw [fetchFiles_cons] at h
      obtain ⟨found, between, hFile, hRest⟩ := Http.Online.run_bind_eq_ok h
      obtain ⟨others, _, hOthers, hJoined⟩ := Http.Online.run_bind_eq_ok hRest
      have hSorts := ih hOthers
      cases hJoined
      by_cases hLarge : service.settings.maxFileBytes < file.size
      · rw [fetchFile_large world hLarge] at hFile
        cases hFile
        exact .large hLarge hSorts
      · rw [fetchFile_fits world hLarge] at hFile
        obtain ⟨body, _, _, hFound⟩ := Http.Online.run_bind_eq_ok hFile
        cases hFound
        unfold sorted joined
        cases hDecode : Utf8.decode? body with
        | some content => exact .text (Nat.not_lt.mp hLarge) hDecode hSorts
        | none => exact .noText (Nat.not_lt.mp hLarge) hDecode hSorts

end Files

end GitHub

/-! ## Files that are kept whole -/

/-- A syntax tree with errors is told apart from a clean one. -/
instance (parse : Parse) : Decidable (parse = .withErrors) :=
  match parse with
  | .withErrors => isTrue rfl
  | .clean _ => isFalse nofun

namespace SplitFile

variable (options : ChunkOptions) (parse : SourceFile → Parse) (file : SourceFile)

/-- A file that is to be split has a syntax tree with errors. -/
def Unparsed : Prop :=
  options.strategy ≠ .wholeFile ∧ (Language.ofPath? file.path).isSome = true ∧
    parse file = .withErrors

instance : Decidable (Unparsed options parse file) :=
  inferInstanceAs (Decidable (_ ∧ _ ∧ _))

/-- The failure of a file that does not parse. -/
def syntaxFailure (file : SourceFile) : SoftFailure :=
  { stage := .chunking, files := [file.path], batch := none
    message := (IndexError.syntaxErrors file.path).message }

/-- Why a file is kept whole: nobody knows its grammar, or it does not parse.
A file that is not to be split at all is no such file. -/
theorem fallback_of :
    (of options parse file).chunked.fallback =
      if options.strategy = .wholeFile then none
      else if Language.ofPath? file.path = none then some .noGrammar
      else if parse file = .withErrors then some (.parseFailed (.syntaxErrors file.path))
      else none := by
  unfold of ChunkedFile.of
  cases options.strategy <;> cases Language.ofPath? file.path <;> cases parse file <;>
    simp [Chunk.ofDefinitions]

/-- A file that does not parse is a failure, and no other file is. -/
theorem failure?_of :
    (of options parse file).failure? =
      if Unparsed options parse file then some (syntaxFailure file) else none := by
  unfold failure?
  rw [fallback_of]
  by_cases hWhole : options.strategy = .wholeFile
  · have hNot : ¬ Unparsed options parse file := fun h => h.1 hWhole
    rw [if_pos hWhole, if_neg hNot]
  · by_cases hUnknown : Language.ofPath? file.path = none
    · have hNot : ¬ Unparsed options parse file := by
        rintro ⟨_, hKnown, _⟩
        rw [hUnknown] at hKnown
        cases hKnown
      rw [if_neg hWhole, if_pos hUnknown, if_neg hNot]
    · by_cases hParse : parse file = .withErrors
      · have hUnparsed : Unparsed options parse file :=
          ⟨hWhole, Option.isSome_iff_ne_none.mpr hUnknown, hParse⟩
        rw [if_neg hWhole, if_neg hUnknown, if_pos hParse, if_pos hUnparsed]
        rfl
      · have hNot : ¬ Unparsed options parse file := fun h => hParse h.2.2
        rw [if_neg hWhole, if_neg hUnknown, if_neg hParse, if_neg hNot]

/-- A file that does not parse is kept whole. -/
theorem fallback_of_unparsed (h : Unparsed options parse file) :
    (of options parse file).chunked.fallback.isSome = true := by
  obtain ⟨hStrategy, hLanguage, hParse⟩ := h
  have hKnown : Language.ofPath? file.path ≠ none := Option.isSome_iff_ne_none.mp hLanguage
  rw [fallback_of, if_neg hStrategy, if_neg hKnown, if_pos hParse]
  rfl

/-- A file that is not to be split is one chunk. -/
theorem chunks_of_wholeFile (h : options.strategy = .wholeFile) :
    (of options parse file).chunked.chunks.length = 1 := by
  unfold of ChunkedFile.of
  rw [h]
  rfl

end SplitFile

/-! ## Reports -/

namespace ChunkReport

variable (options : ChunkOptions) (parse : SourceFile → Parse) (files : List SourceFile)

theorem chunks_of :
    (of options parse files).chunks =
      files.flatMap fun file => (SplitFile.of options parse file).chunked.chunks := by
  show (files.map (SplitFile.of options parse)).flatMap (·.chunked.chunks) = _
  rw [List.flatMap_map]

theorem fallbackFiles_of :
    (of options parse files).fallbackFiles =
      (files.filter fun file => (SplitFile.of options parse file).chunked.fallback.isSome).map
        (·.path) := by
  show ((files.map (SplitFile.of options parse)).filter (·.chunked.fallback.isSome)).map
    (·.file.path) = _
  rw [List.filter_map, List.map_map]
  rfl

theorem languageBreakdown_of :
    (of options parse files).languageBreakdown =
      Keyed.tally (files.map fun file => (SplitFile.of options parse file).languageName) := by
  show (files.map (SplitFile.of options parse)).foldl
    (fun counts split => Keyed.count split.languageName counts) [] = _
  rw [List.foldl_map, Keyed.tally, Keyed.countAll, List.foldl_map]

theorem totalLines_of :
    (of options parse files).totalLines =
      (files.map fun file => (Text.lines file.content.toList).length).sum := by
  show (files.map (SplitFile.of options parse)).foldr (fun split lines => split.lineCount + lines) 0
    = _
  rw [List.foldr_map, List.sum_eq_foldr, List.foldr_map]
  rfl

/-- **One failure for each file that does not parse**, in the order of the
files. -/
theorem failures_of :
    (of options parse files).failures =
      (files.filter (SplitFile.Unparsed options parse)).map SplitFile.syntaxFailure := by
  show (files.map (SplitFile.of options parse)).filterMap (·.failure?) = _
  rw [List.filterMap_map]
  induction files with
  | nil => rfl
  | cons file rest ih =>
      rw [List.filterMap_cons]
      by_cases hUnparsed : SplitFile.Unparsed options parse file
      · have hFailure : (SplitFile.of options parse file).failure? =
            some (SplitFile.syntaxFailure file) := by
          rw [SplitFile.failure?_of, if_pos hUnparsed]
        rw [List.filter_cons_of_pos (by simpa using hUnparsed), List.map_cons, ← ih]
        simp [hFailure]
      · have hFailure : (SplitFile.of options parse file).failure? = none := by
          rw [SplitFile.failure?_of, if_neg hUnparsed]
        rw [List.filter_cons_of_neg (by simpa using hUnparsed), ← ih]
        simp [hFailure]

end ChunkReport

namespace Run

open SourceIndex.Embedding (Embedder Mock Output)

/-! ## Results -/

/-- The failures of the batches in which chunks are embedded, where the session
is left.  Only a format that needs embeddings has any. -/
inductive BatchFailures (bench : Workbench) (plan : RunPlan) (standIn : Option Mock)
    (world : World) (chunks : List Chunk) (after : Session) : List SoftFailure → Prop where
  | none : plan.format.needsEmbeddings = false →
      BatchFailures bench plan standIn world chunks after []
  | embedded {embedder : Embedder} {output : Output} :
      plan.format.needsEmbeddings = true → embedderFor bench plan standIn = .ok embedder →
      Returned embedder world bench.settings.embedding.contextualize chunks output after →
      BatchFailures bench plan standIn world chunks after
        (output.failures.map (EmbeddingReport.failureOf chunks))

theorem BatchFailures.stage {bench : Workbench} {plan : RunPlan} {standIn : Option Mock}
    {world : World} {chunks : List Chunk} {after : Session} {batches : List SoftFailure}
    (h : BatchFailures bench plan standIn world chunks after batches) :
    ∀ failure ∈ batches, failure.stage = .embedding := by
  intro failure hFailure
  cases h with
  | none => cases hFailure
  | embedded => exact stage_of_embedded hFailure

/-- What the embedding stage of a plan reports as failures. -/
theorem batchFailures_of_embedding {bench : Workbench} {plan : RunPlan} {standIn : Option Mock}
    {world : World} {chunks : List Chunk} {session after : Session} {embedder : Option Embedder}
    {embedded : Option EmbeddingReport} (hChosen : chosen bench plan standIn = .ok embedder)
    (h : (embedding bench chunks embedder world).run session = (.ok embedded, after)) :
    BatchFailures bench plan standIn world chunks after
      ((embedded.map (·.failures)).getD []) := by
  cases hNeeds : plan.format.needsEmbeddings with
  | true =>
      obtain ⟨found, rfl, hFor⟩ := embedder_of_chosen hNeeds hChosen
      obtain ⟨output, hReturned, rfl⟩ := embedding_some_ok h
      exact .embedded hNeeds hFor hReturned
  | false =>
      rw [chosen_of_unembedded standIn hNeeds] at hChosen
      cases hChosen
      cases h
      exact .none hNeeds

/-- A fetched file as a plan splits it. -/
def split (bench : Workbench) (plan : RunPlan) (file : SourceFile) : SplitFile :=
  SplitFile.of plan.options bench.parse file

/-- What the numbers and lists of a result count: the selected files, those of
them that are fetched, and the batches that failed. -/
structure Tallied (bench : Workbench) (plan : RunPlan) (entries : List ListedFile)
    (fetched : FetchedFiles) (batches : List SoftFailure) (result : RunResult) : Prop where
  fileCount : result.metadata.fileCount = entries.length
  /-- Each selected file is fetched or skipped. -/
  files : entries.length = fetched.files.length + result.metadata.skippedFiles.length
  skipped : result.metadata.skippedFiles = fetched.skipped
  /-- Fetched files stand in the order of the selection. -/
  order : (fetched.files.map (·.path)).Sublist (entries.map (·.path))
  languages : Keyed.total result.metadata.languageBreakdown = fetched.files.length
  language : ∀ name, (Keyed.get? name result.metadata.languageBreakdown).getD 0 =
    (fetched.files.map fun file => (split bench plan file).languageName).count name
  lines : result.metadata.totalLines =
    (fetched.files.map fun file => (Text.lines file.content.toList).length).sum
  chunkCount : result.metadata.chunkCount =
    (fetched.files.flatMap fun file => (split bench plan file).chunked.chunks).length
  chunks : plan.format.includesChunks = true → result.chunks =
    (fetched.files.flatMap fun file => (split bench plan file).chunked.chunks).map fun chunk =>
      if plan.format = .chunks then { chunk with docstring := none } else chunk
  fallback : result.metadata.fallbackFiles =
    (fetched.files.filter fun file => (split bench plan file).chunked.fallback.isSome).map (·.path)
  /-- A file that does not parse is one of those that are kept whole. -/
  unparsed : ∀ file ∈ fetched.files, SplitFile.Unparsed plan.options bench.parse file →
    file.path ∈ result.metadata.fallbackFiles
  failureCount : result.metadata.softFailureCount =
    (fetched.files.filter (SplitFile.Unparsed plan.options bench.parse)).length + batches.length
  /-- One failure for each file that does not parse comes before all others. -/
  failures : result.metadata.softFailures =
    if plan.format = .full then
      some ((fetched.files.filter (SplitFile.Unparsed plan.options bench.parse)).map
        SplitFile.syntaxFailure ++ batches)
    else none
  stages : ∀ failure ∈ batches, failure.stage = .embedding
  /-- A file that is not to be split is one chunk. -/
  whole : plan.options.strategy = .wholeFile →
    (∀ file ∈ fetched.files, (split bench plan file).chunked.chunks.length = 1) ∧
      result.metadata.chunkCount = fetched.files.length

section Concluded

variable {bench : Workbench} {plan : RunPlan} {service : GitHub} {snapshot : Snapshot}
  {fetched : FetchedFiles} {embedded : Option EmbeddingReport}

/-- The chunks that a format shows are those of the run. -/
theorem shapeChunks_eq {format : OutputFormat} (chunks : List Chunk)
    (h : format.includesChunks = true) :
    format.shapeChunks chunks = chunks.map fun chunk =>
      if format = .chunks then { chunk with docstring := none } else chunk := by
  cases format with
  | metadata => cases h
  | chunks => rfl
  | chunksEmbeddings => exact (List.map_id _).symm
  | full => exact (List.map_id _).symm

/-- **The result of a run that has come to its end counts what it has found.** -/
theorem concluded_tallied (hSorts : service.Sorts (selected plan snapshot.files) fetched)
    (hStages : ∀ failure ∈ (embedded.map (·.failures)).getD [], failure.stage = .embedding) :
    Tallied bench plan (selected plan snapshot.files) fetched
      ((embedded.map (·.failures)).getD []) (concluded bench plan snapshot fetched embedded) := by
  have hChunks : (chunked bench plan fetched.files).chunks =
      fetched.files.flatMap fun file => (split bench plan file).chunked.chunks :=
    ChunkReport.chunks_of _ _ _
  have hFallback : (concluded bench plan snapshot fetched embedded).metadata.fallbackFiles =
      (fetched.files.filter fun file => (split bench plan file).chunked.fallback.isSome).map
        (·.path) :=
    ChunkReport.fallbackFiles_of _ _ _
  have hFailures : (chunked bench plan fetched.files).failures =
      (fetched.files.filter (SplitFile.Unparsed plan.options bench.parse)).map
        SplitFile.syntaxFailure :=
    ChunkReport.failures_of _ _ _
  have hLanguages : (concluded bench plan snapshot fetched embedded).metadata.languageBreakdown =
      Keyed.tally (fetched.files.map fun file => (split bench plan file).languageName) :=
    ChunkReport.languageBreakdown_of _ _ _
  have hCount : (concluded bench plan snapshot fetched embedded).metadata.chunkCount =
      (fetched.files.flatMap fun file => (split bench plan file).chunked.chunks).length := by
    rw [← hChunks]
    rfl
  refine
    { fileCount := rfl, files := hSorts.length, skipped := rfl, order := hSorts.fetched_sublist
      languages := ?_, language := ?_, lines := ChunkReport.totalLines_of _ _ _
      chunkCount := hCount, chunks := ?_, fallback := hFallback, unparsed := ?_
      failureCount := ?_, failures := ?_, stages := hStages, whole := ?_ }
  · rw [hLanguages, Keyed.total_tally, List.length_map]
  · intro name
    rw [hLanguages, Keyed.get?_tally]
  · intro hIncludes
    rw [← hChunks]
    exact shapeChunks_eq _ hIncludes
  · intro file hFile hUnparsed
    rw [hFallback]
    have hKept := SplitFile.fallback_of_unparsed plan.options bench.parse file hUnparsed
    exact List.mem_map_of_mem (List.mem_filter.mpr ⟨hFile, hKept⟩)
  · show ((chunked bench plan fetched.files).failures ++ _).length = _
    rw [List.length_append, hFailures, List.length_map]
  · rw [← hFailures]
    rfl
  · intro hWhole
    have hOne : ∀ file ∈ fetched.files, (split bench plan file).chunked.chunks.length = 1 :=
      fun file _ => SplitFile.chunks_of_wholeFile _ _ file hWhole
    refine ⟨hOne, ?_⟩
    rw [hCount, List.length_flatMap, List.map_congr_left hOne]
    simp

end Concluded

/--
**The files of a run are all accounted for.**  Of a run that succeeds, every
number and list of its result that concerns files, chunks or failures is taken
from the files that were selected from its listing and fetched.
-/
theorem run_tallied (bench : Workbench) (plan : RunPlan) (world : World) (state : RunState)
    (result : RunResult) (hRun : (plan.run bench world state).1 = .ok result) :
    ∃ service snapshot fetched between batches,
      Found bench plan world state.session service snapshot fetched between ∧
        service.Sorts (selected plan snapshot.files) fetched ∧
        BatchFailures bench plan state.standIn world
          (fetched.files.flatMap fun file => (split bench plan file).chunked.chunks)
          (plan.run bench world state).2.session batches ∧
        Tallied bench plan (selected plan snapshot.files) fetched batches result := by
  obtain ⟨service, snapshot, fetched, between, embedder, embedded, hFound, hChosen, hEmbedding,
    rfl⟩ := run_eq_ok_iff.mp hRun
  obtain ⟨listed, _, hFetched⟩ := hFound.files
  have hSorts := GitHub.fetchFiles_sorts hFetched
  have hBatches := batchFailures_of_embedding hChosen hEmbedding
  rw [chunked, ChunkReport.chunks_of] at hBatches
  exact ⟨service, snapshot, fetched, between, _, hFound, hSorts, hBatches,
    concluded_tallied hSorts hBatches.stage⟩

/-! ### Files of all sorts -/

namespace Mixed

open Moving (asked bench commitUrl commitBody granted standIn)

/-- Python files are to be split along their functions, text files cannot be. -/
def plan : RunPlan :=
  { Moving.plan with
    filter := { endings := [".py".toList, ".txt".toList], exclude := [] }
    options := { strategy := .functions, docstrings := true } }

def listed (path sha size : String) : String :=
  "\x7b\"path\":\"" ++ path ++ "\",\"type\":\"blob\",\"sha\":\"" ++ sha ++ "\",\"size\":" ++
    size ++ "\x7d"

/-- The third file is too large, and the fourth is no text. -/
def listingBody : List UInt8 :=
  Utf8.bytes ("\x7b\"tree\":[" ++ listed "a.py" "v" "2" ++ "," ++ listed "b.txt" "w" "2" ++ "," ++
    listed "c.txt" "x" "10" ++ "," ++ listed "d.txt" "y" "1" ++ "]\x7d")

/-- What a URL of the repository holds. -/
def contents (url : Url) : List UInt8 :=
  if url = commitUrl then commitBody "c"
  else if url.query.isSome then listingBody
  else if url = (asked ["git", "blobs", "y"] none "").url then [0xff]
  else Utf8.bytes "hi"

def world : World :=
  { answer := fun _ request => .reply granted (contents request.url)
    interrupts := World.patient }

theorem run_shown :
    ((plan.run bench world ⟨.start false, standIn⟩).1.toOption.map fun result =>
      (result.metadata.fallbackFiles, result.metadata.skippedFiles.map (·.path),
        result.metadata.softFailureCount, result.metadata.softFailures)) =
      some (["a.py", "b.txt"], ["c.txt", "d.txt"], 2,
        some [SplitFile.syntaxFailure ⟨"a.py", "hi"⟩,
          { stage := .embedding, files := ["b.txt"], batch := some 1
            message := "mock failure for batch 1" }]) := by
  decide +kernel

end Mixed

open Moving (bench standIn) in
open Mixed (plan world) in
theorem run_tallied_mixed :
    ∃ result, (plan.run bench world ⟨.start false, standIn⟩).1 = .ok result ∧
      result.metadata.fallbackFiles = ["a.py", "b.txt"] ∧
      ∃ service snapshot fetched between batches,
        Found bench plan world (.start false) service snapshot fetched between ∧
          service.Sorts (selected plan snapshot.files) fetched ∧
          BatchFailures bench plan standIn world
            (fetched.files.flatMap fun file => (split bench plan file).chunked.chunks)
            (plan.run bench world ⟨.start false, standIn⟩).2.session batches ∧
          Tallied bench plan (selected plan snapshot.files) fetched batches result := by
  have hShown := Mixed.run_shown
  cases hRun : (plan.run bench world ⟨.start false, standIn⟩).1 with
  | error error =>
      rw [hRun] at hShown
      cases hShown
  | ok result =>
      rw [hRun] at hShown
      obtain ⟨hFallback, _⟩ := Prod.mk.inj (Option.some.inj hShown)
      exact ⟨result, rfl, hFallback,
        run_tallied bench plan world ⟨.start false, standIn⟩ result hRun⟩

end Run

end SourceIndex
