import Mathlib.Data.List.Forall2
import SourceIndex.Proofs.Distinct
import SourceIndex.Proofs.Embedding.Sound
import SourceIndex.Proofs.Keyed
import SourceIndex.Proofs.Run.Completion
import SourceIndex.Proofs.Run.Trace

/-!
# Every chunk is embedded or accounted for

The chunks of a run, the texts that are embedded and the places of an output
stand in one order, so a position means the same in all three.  A chunk whose
place has a vector is found under its identifier with this vector; the others
are those of the batches that failed, and of each such batch a failure names
the files.

Chunks with one identifier would displace each other, so for the look-up the
identifiers must differ.

## Main results

* `mem_entries_iff` — the entries are those of the chunks with a vector.
* `reports_failureOf` — the failure of a batch names the files of its chunks.
* `reported_ok` — the output that a report is made of.
* `run_accounted` — what the result of a run says of each chunk.
-/

namespace SourceIndex

open SourceIndex.Embedding (Components BatchFailure Embedder Output Sound)

/-! ## Entries -/

namespace EmbeddingReport

variable (provider : String) {chunks : List Chunk} {vectors : List (Option Components)}

/-- The embeddings of the chunks that have a vector. -/
def entries (chunks : List Chunk) (vectors : List (Option Components)) : List ChunkEmbedding :=
  (chunks.zip vectors).filterMap (embeddingOf? provider)

theorem mem_entries_iff {entry : ChunkEmbedding} :
    entry ∈ entries provider chunks vectors ↔
      ∃ (place : Nat) (chunk : Chunk) (values : Components),
        chunks[place]? = some chunk ∧ vectors[place]? = some (some values) ∧
          entry = { chunkId := chunk.id, provider, dimension := values.length, values } := by
  rw [entries, List.mem_filterMap]
  constructor
  · rintro ⟨⟨chunk, vector⟩, hMem, hEntry⟩
    obtain ⟨place, hPlace⟩ := List.mem_iff_getElem?.mp hMem
    obtain ⟨hChunk, hVector⟩ := List.getElem?_zip_eq_some.mp hPlace
    cases vector with
    | none => cases hEntry
    | some values =>
        cases hEntry
        exact ⟨place, chunk, values, hChunk, hVector, rfl⟩
  · rintro ⟨place, chunk, values, hChunk, hVector, rfl⟩
    refine ⟨(chunk, some values), ?_, rfl⟩
    exact List.mem_iff_getElem?.mpr ⟨place, List.getElem?_zip_eq_some.mpr ⟨hChunk, hVector⟩⟩

/-- Each chunk has at most one entry, in the order of the chunks. -/
theorem entries_sublist :
    ((entries provider chunks vectors).map (·.chunkId)).Sublist (chunks.map (·.id)) := by
  induction chunks generalizing vectors with
  | nil => exact List.Sublist.refl []
  | cons chunk rest ih =>
      cases vectors with
      | nil => exact List.nil_sublist _
      | cons vector others =>
          cases vector with
          | none => exact ih.cons chunk.id
          | some values => exact ih.cons_cons chunk.id

/-- Where identifiers differ, an identifier tells the place of its chunk. -/
theorem place_of_id {place other : Nat} {chunk found : Chunk} (hIds : (chunks.map (·.id)).Nodup)
    (hChunk : chunks[place]? = some chunk) (hFound : chunks[other]? = some found)
    (hSame : found.id = chunk.id) : other = place ∧ found = chunk := by
  have hPlace : (chunks.map (·.id))[other]? = (chunks.map (·.id))[place]? := by
    rw [List.getElem?_map, List.getElem?_map, hChunk, hFound, Option.map_some, Option.map_some,
      hSame]
  obtain ⟨hLess, _⟩ := List.getElem?_eq_some_iff.mp hFound
  obtain rfl := (List.getElem?_inj (by rw [List.length_map]; exact hLess) hIds).mp hPlace
  rw [hChunk] at hFound
  cases hFound
  exact ⟨rfl, rfl⟩

/-- Where identifiers differ, a chunk is found with its own vector. -/
theorem get?_embeddings_eq_some_iff {model : String} {output : Output} {entry : ChunkEmbedding}
    {place : Nat} {chunk : Chunk} (hIds : (chunks.map (·.id)).Nodup)
    (hChunk : chunks[place]? = some chunk) :
    Keyed.get? chunk.id (ofOutput provider model chunks output).embeddings = some entry ↔
      ∃ values, output.vectors[place]? = some (some values) ∧
        entry = { chunkId := chunk.id, provider, dimension := values.length, values } := by
  have hKeys : ((entries provider chunks output.vectors).map (·.chunkId)).Nodup :=
    (entries_sublist provider).nodup hIds
  rw [show (ofOutput provider model chunks output).embeddings =
      Keyed.ofValues (·.chunkId) (entries provider chunks output.vectors) from rfl,
    Keyed.get?_ofValues_eq_some_iff hKeys, mem_entries_iff]
  constructor
  · rintro ⟨⟨other, found, values, hFound, hVector, rfl⟩, hSame⟩
    obtain ⟨rfl, rfl⟩ := place_of_id hIds hChunk hFound hSame
    exact ⟨values, hVector, rfl⟩
  · rintro ⟨values, hVector, rfl⟩
    exact ⟨⟨place, chunk, values, hChunk, hVector, rfl⟩, rfl⟩

/-- A chunk is found unless its batch failed. -/
theorem isSome_get?_embeddings {model : String} {output : Output} {batches : List Embedding.Range}
    {place : Nat} {chunk : Chunk} (hIds : (chunks.map (·.id)).Nodup)
    (hSound : Sound batches chunks.length output) (hChunk : chunks[place]? = some chunk) :
    (Keyed.get? chunk.id (ofOutput provider model chunks output).embeddings).isSome = true ↔
      ∀ failure ∈ output.failures, ¬ failure.range.Holds place := by
  obtain ⟨hPlace, _⟩ := List.getElem?_eq_some_iff.mp hChunk
  have hAbsent := hSound.absent place hPlace
  obtain ⟨vector, hVector⟩ : ∃ vector, output.vectors[place]? = some vector :=
    ⟨_, List.getElem?_eq_getElem (by rw [hSound.length]; exact hPlace)⟩
  rw [Option.isSome_iff_exists]
  cases vector with
  | none =>
      obtain ⟨failure, hFailure, hHolds⟩ := hAbsent.mp hVector
      constructor
      · rintro ⟨entry, hEntry⟩
        obtain ⟨values, hValues, _⟩ :=
          (get?_embeddings_eq_some_iff provider hIds hChunk).mp hEntry
        rw [hVector] at hValues
        cases hValues
      · exact fun hNone => absurd hHolds (hNone failure hFailure)
  | some values =>
      constructor
      · intro _ failure hFailure hHolds
        have hNone := hAbsent.mpr ⟨failure, hFailure, hHolds⟩
        rw [hVector] at hNone
        cases hNone
      · exact fun _ =>
          ⟨_, (get?_embeddings_eq_some_iff provider hIds hChunk).mpr ⟨values, hVector, rfl⟩⟩

/-- Nothing is found under any other key. -/
theorem id_of_mem_embeddings {model : String} {output : Output} {found : String × ChunkEmbedding}
    (h : found ∈ (ofOutput provider model chunks output).embeddings) :
    ∃ chunk ∈ chunks, found.1 = chunk.id := by
  obtain ⟨entry, hEntry, rfl⟩ := Keyed.mem_ofValues h
  obtain ⟨place, chunk, values, hChunk, _, rfl⟩ := (mem_entries_iff provider).mp hEntry
  exact ⟨chunk, List.mem_of_getElem? hChunk, rfl⟩

/-! ## Failures -/

/-- A failure of a run reports the failure of a batch of its chunks. -/
structure Reports (chunks : List Chunk) (failure : BatchFailure) (report : SoftFailure) :
    Prop where
  stage : report.stage = .embedding
  batch : report.batch = some failure.batch
  message : report.message = failure.message
  nonempty : report.files ≠ []
  /-- The files of the chunks of the batch, each named once. -/
  files : FirstAppearances report.files ((failure.range.pick chunks).map (·.filePath))

theorem reports_failureOf {failure : BatchFailure}
    (hSize : failure.range.start < failure.range.stop)
    (hStop : failure.range.stop ≤ chunks.length) :
    Reports chunks failure (failureOf chunks failure) := by
  have hFiles := firstAppearances_eraseDups ((failure.range.pick chunks).map (·.filePath))
  refine ⟨rfl, rfl, rfl, ?_, hFiles⟩
  obtain ⟨path, hPath⟩ : ∃ path, path ∈ (failure.range.pick chunks).map (·.filePath) := by
    apply List.exists_mem_of_length_pos
    rw [List.length_map, Embedding.Range.length_pick hStop]
    omega
  exact List.ne_nil_of_mem ((hFiles.mem path).mpr hPath)

end EmbeddingReport

/-! ## Runs -/

namespace Run

open Http (World Session)
open Http.Online (run_bind_eq_ok run_mapError_eq_ok_iff)
open SourceIndex.Embedding (Mock)

/-- The output for some chunks, where the session is left.  Without chunks the
embedder is not asked. -/
inductive Returned (embedder : Embedder) (world : World) (contextualize : Bool) :
    List Chunk → Output → Session → Prop where
  | nothing {after : Session} : Returned embedder world contextualize [] ⟨[], []⟩ after
  | output {chunks : List Chunk} {output : Output} {session : Session} :
      chunks ≠ [] → embedder.Returns world session (textsOf contextualize chunks) output →
      Returned embedder world contextualize chunks output
        ((embedder.embed world (textsOf contextualize chunks)).run session).2

section Returned

variable {embedder : Embedder} {world : World} {contextualize : Bool} {chunks : List Chunk}
  {output : Output} {session after : Session}

theorem Returned.sound (h : Returned embedder world contextualize chunks output after) :
    Sound (embedder.batches (textsOf contextualize chunks)) chunks.length output := by
  cases h with
  | nothing => exact ⟨rfl, List.Pairwise.nil, by simp, by simp, by simp⟩
  | output _ hReturns =>
      have hSound := Embedder.embed_sound hReturns
      rw [textsOf, List.length_map] at hSound
      exact hSound

/-- **The output that a report is made of.** -/
theorem reported_ok {report : EmbeddingReport}
    (h : (reported embedder contextualize chunks world).run session = (.ok report, after)) :
    ∃ output, Returned embedder world contextualize chunks output after ∧
      report = EmbeddingReport.ofOutput embedder.name embedder.model chunks output := by
  by_cases hChunks : chunks = []
  · subst hChunks
    rw [reported_nil] at h
    cases h
    exact ⟨⟨[], []⟩, .nothing, rfl⟩
  · rw [run_reported_cons embedder contextualize world session hChunks] at h
    obtain ⟨hReport, rfl⟩ := Prod.mk.inj h
    cases hEmbed : ((embedder.embed world (textsOf contextualize chunks)).run session).1.1 with
    | error error =>
        rw [hEmbed] at hReport
        cases hReport
    | ok output =>
        rw [hEmbed] at hReport
        cases hReport
        exact ⟨output, .output hChunks hEmbed, rfl⟩

end Returned

section Stages

variable {bench : Workbench} {plan : RunPlan} {standIn : Option Mock} {world : World}
  {session after : Session}

/-- The embedder of a format that needs one. -/
theorem embedder_of_chosen {embedder : Option Embedder} (hNeeds : plan.format.needsEmbeddings = true)
    (h : chosen bench plan standIn = .ok embedder) :
    ∃ found, embedder = some found ∧ embedderFor bench plan standIn = .ok found := by
  cases embedder with
  | some found => exact ⟨found, rfl, (needsEmbeddings_of_chosen h).2⟩
  | none =>
      rw [chosen, if_pos hNeeds] at h
      cases hFor : embedderFor bench plan standIn with
      | error error =>
          rw [hFor] at h
          cases h
      | ok found =>
          rw [hFor] at h
          cases h

/-- What the embedding stage gives that has an embedder. -/
theorem embedding_some_ok {embedder : Embedder} {chunks : List Chunk}
    {embedded : Option EmbeddingReport}
    (h : (embedding bench chunks (some embedder) world).run session = (.ok embedded, after)) :
    ∃ output, Returned embedder world bench.settings.embedding.contextualize chunks output after ∧
      embedded = some (EmbeddingReport.ofOutput embedder.name embedder.model chunks output) := by
  obtain ⟨report, _, hReport, hSome⟩ := run_bind_eq_ok h
  cases hSome
  obtain ⟨output, hReturned, rfl⟩ := reported_ok (run_mapError_eq_ok_iff.mp hReport)
  exact ⟨output, hReturned, rfl⟩

/-- What a run has embedded that succeeds with a format that needs it. -/
theorem run_embedded {state : RunState} {result : RunResult}
    (hRun : (plan.run bench world state).1 = .ok result)
    (hNeeds : plan.format.needsEmbeddings = true) :
    ∃ snapshot fetched embedder output, embedderFor bench plan state.standIn = .ok embedder ∧
      Returned embedder world bench.settings.embedding.contextualize
        (chunked bench plan fetched.files).chunks output (plan.run bench world state).2.session ∧
      result = concluded bench plan snapshot fetched (some (EmbeddingReport.ofOutput embedder.name
        embedder.model (chunked bench plan fetched.files).chunks output)) := by
  obtain ⟨_, snapshot, fetched, _, needed, embedded, _, hChosen, hEmbedding, rfl⟩ :=
    run_eq_ok_iff.mp hRun
  obtain ⟨embedder, rfl, hFor⟩ := embedder_of_chosen hNeeds hChosen
  obtain ⟨output, hReturned, rfl⟩ := embedding_some_ok hEmbedding
  exact ⟨snapshot, fetched, embedder, output, hFor, hReturned, rfl⟩

end Stages

/-! ### What a result shows -/

section Concluded

variable {bench : Workbench} {plan : RunPlan} {snapshot : Snapshot} {fetched : FetchedFiles}
  {embedded : Option EmbeddingReport}

/-- A format that needs embeddings shows the chunks as they are. -/
theorem concluded_chunks (h : plan.format.needsEmbeddings = true) :
    (concluded bench plan snapshot fetched embedded).chunks =
      (chunked bench plan fetched.files).chunks := by
  unfold concluded RunResult.assemble OutputFormat.shapeChunks
  cases hFormat : plan.format with
  | metadata =>
      rw [hFormat] at h
      cases h
  | chunks =>
      rw [hFormat] at h
      cases h
  | chunksEmbeddings => rfl
  | full => rfl

theorem concluded_embeddings (h : plan.format.needsEmbeddings = true) :
    (concluded bench plan snapshot fetched embedded).embeddings =
      (embedded.map (·.embeddings)).getD [] :=
  if_pos h

theorem concluded_embedding (h : plan.format.needsEmbeddings = true) :
    (concluded bench plan snapshot fetched embedded).metadata.embedding =
      embedded.map (·.summary) :=
  if_pos h

end Concluded

/-! ### All chunks -/

/-- What a result with embeddings says of its chunks, whose texts went in the
given batches with the given output. -/
structure Accounted (embedder : Embedder) (batches : List Embedding.Range) (output : Output)
    (result : RunResult) : Prop where
  /-- A chunk is embedded exactly when its place is in no batch that failed. -/
  embedded : ∀ (place : Nat) (chunk : Chunk), result.chunks[place]? = some chunk →
    ((Keyed.get? chunk.id result.embeddings).isSome = true ↔
      ∀ failure ∈ output.failures, ¬ failure.range.Holds place)
  /-- Under its identifier stands the vector of its place. -/
  entry : ∀ (place : Nat) (chunk : Chunk) (entry : ChunkEmbedding),
    result.chunks[place]? = some chunk → Keyed.get? chunk.id result.embeddings = some entry →
      entry.chunkId = chunk.id ∧ entry.provider = embedder.name ∧
        output.vectors[place]? = some (some entry.values) ∧
        entry.dimension = entry.values.length ∧
        result.metadata.embedding =
          some { provider := embedder.name, model := embedder.model
                 dimension := some entry.dimension }
  keys : ∀ found ∈ result.embeddings, ∃ chunk ∈ result.chunks, found.1 = chunk.id
  ordered : Keyed.Ordered result.embeddings
  /-- The failures of the output are those of batches, in their order. -/
  numbers : output.failures.Pairwise fun a b => a.batch < b.batch
  ranges : ∀ failure ∈ output.failures, batches[failure.batch]? = some failure.range
  /-- Each of them is reported, in the same order, and no other. -/
  reported : ∃ others reports, (∀ other ∈ others, other.stage = .chunking) ∧
    List.Forall₂ (EmbeddingReport.Reports result.chunks) output.failures reports ∧
    result.metadata.softFailureCount = others.length + reports.length ∧
    result.metadata.softFailures =
      if result.format = .full then some (others ++ reports) else none

section Accounted

variable {bench : Workbench} {plan : RunPlan}

/-- A result accounts for its chunks when the output for them is sound. -/
theorem accounted_concluded {snapshot : Snapshot} {fetched : FetchedFiles} {embedder : Embedder}
    {batches : List Embedding.Range} {output : Output}
    (hNeeds : plan.format.needsEmbeddings = true)
    (hIds : ((chunked bench plan fetched.files).chunks.map (·.id)).Nodup)
    (hNonempty : ∀ range ∈ batches, range.start < range.stop)
    (hTiles : Span.Tiles 0 (chunked bench plan fetched.files).chunks.length batches)
    (hSound : Sound batches (chunked bench plan fetched.files).chunks.length output) :
    Accounted embedder batches output
      (concluded bench plan snapshot fetched (some (EmbeddingReport.ofOutput embedder.name
        embedder.model (chunked bench plan fetched.files).chunks output))) := by
  refine
    { embedded := ?_, entry := ?_, keys := ?_, ordered := ?_, numbers := hSound.numbers
      ranges := hSound.ranges, reported := ?_ }
  · intro place chunk hChunk
    rw [concluded_chunks hNeeds] at hChunk
    rw [concluded_embeddings hNeeds]
    exact EmbeddingReport.isSome_get?_embeddings embedder.name hIds hSound hChunk
  · intro place chunk entry hChunk hEntry
    rw [concluded_chunks hNeeds] at hChunk
    rw [concluded_embeddings hNeeds] at hEntry
    obtain ⟨values, hVector, rfl⟩ :=
      (EmbeddingReport.get?_embeddings_eq_some_iff embedder.name hIds hChunk).mp hEntry
    refine ⟨rfl, rfl, hVector, rfl, ?_⟩
    rw [concluded_embedding hNeeds]
    have hDimension := hSound.dimension values (List.mem_of_getElem? hVector)
    show some (EmbeddingSummary.mk embedder.name embedder.model output.dimension?) = _
    rw [hDimension]
  · rw [concluded_chunks hNeeds, concluded_embeddings hNeeds]
    intro found hFound
    exact EmbeddingReport.id_of_mem_embeddings embedder.name hFound
  · rw [concluded_embeddings hNeeds]
    exact Keyed.ordered_ofValues _ _
  · rw [concluded_chunks hNeeds]
    refine ⟨(chunked bench plan fetched.files).failures,
      output.failures.map (EmbeddingReport.failureOf (chunked bench plan fetched.files).chunks),
      fun other hOther => stage_of_chunked hOther, ?_, List.length_append, rfl⟩
    refine List.forall₂_map_right_iff.mpr (List.forall₂_same.mpr fun failure hFailure => ?_)
    have hRange := List.mem_of_getElem? (hSound.ranges failure hFailure)
    exact EmbeddingReport.reports_failureOf (hNonempty _ hRange) (hTiles.stop_le hRange)

/--
**Every chunk is embedded or accounted for.**  When a run succeeds with a
format that needs embeddings, its result accounts for all its chunks by the
output that its embedder gave for their texts.
-/
theorem run_accounted (bench : Workbench) (plan : RunPlan) (world : World) (state : RunState)
    (result : RunResult) (hRun : (plan.run bench world state).1 = .ok result)
    (hNeeds : plan.format.needsEmbeddings = true)
    (hIds : (result.chunks.map (·.id)).Nodup) :
    ∃ embedder output, embedderFor bench plan state.standIn = .ok embedder ∧
      Returned embedder world bench.settings.embedding.contextualize result.chunks output
        (plan.run bench world state).2.session ∧
      Accounted embedder
        (embedder.batches (textsOf bench.settings.embedding.contextualize result.chunks)) output
        result ∧ result.format = plan.format := by
  obtain ⟨snapshot, fetched, embedder, output, hFor, hReturned, rfl⟩ := run_embedded hRun hNeeds
  rw [concluded_chunks hNeeds] at hIds ⊢
  have hTiles := embedder.batches_tile
    (textsOf bench.settings.embedding.contextualize (chunked bench plan fetched.files).chunks)
  rw [textsOf, List.length_map, ← textsOf] at hTiles
  exact ⟨embedder, output, hFor, hReturned,
    accounted_concluded hNeeds hIds (embedder.batches_nonempty _) hTiles hReturned.sound, rfl⟩

end Accounted

/-! ### A batch of the two fails -/

namespace Moving

/-- The chunk of the other batch is embedded. -/
theorem run_shown :
    ((plan.run bench world ⟨.start false, standIn⟩).1.toOption.map fun result =>
      (decide (result.chunks.map (·.id)).Nodup, result.chunks.map (·.filePath),
        result.embeddings.length, result.metadata.softFailures)) =
      some (true, ["a.txt", "b.txt"], 1,
        some [{ stage := .embedding, files := ["b.txt"], batch := some 1
                message := "mock failure for batch 1" }]) := by
  decide +kernel

end Moving

open Moving in
theorem run_accounted_moving :
    ∃ result, ((plan.run bench world ⟨.start false, standIn⟩).1 = .ok result ∧
        plan.format.needsEmbeddings = true ∧ (result.chunks.map (·.id)).Nodup) ∧
      result.embeddings.length = 1 ∧
      ∃ embedder output, embedderFor bench plan standIn = .ok embedder ∧
        Returned embedder world bench.settings.embedding.contextualize result.chunks output
          (plan.run bench world ⟨.start false, standIn⟩).2.session ∧
        Accounted embedder
          (embedder.batches (textsOf bench.settings.embedding.contextualize result.chunks)) output
          result ∧ result.format = .full := by
  have hResult := Moving.run_shown
  cases hRun : (plan.run bench world ⟨.start false, standIn⟩).1 with
  | error error =>
      rw [hRun] at hResult
      cases hResult
  | ok result =>
      rw [hRun] at hResult
      obtain ⟨hIds, hShown⟩ := Prod.mk.inj (Option.some.inj hResult)
      obtain ⟨_, hShown⟩ := Prod.mk.inj hShown
      obtain ⟨hLength, _⟩ := Prod.mk.inj hShown
      have hDistinct := of_decide_eq_true hIds
      exact ⟨result, ⟨rfl, rfl, hDistinct⟩, hLength,
        run_accounted bench plan world ⟨.start false, standIn⟩ result hRun rfl hDistinct⟩

end Run

end SourceIndex
