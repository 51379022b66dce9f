import SourceIndex.Embedding.Embedder
import SourceIndex.Proofs.Embedding.Faithful

/-!
# Outputs of embedders

Every embedder plans batches that tile the positions of the texts, and each
batch that succeeds has a vector for each of its texts.  So whichever embedder
a run has, its outputs say of each text whether its batch failed, and all
their vectors have the dimension that they report; the mock embedder may be
asked for vectors without components.

## Main results

* `Mock.results_sized` — the batches of the mock embedder.
* `Embedder.embed_sound` — outputs of every embedder are sound.
-/

namespace SourceIndex.Embedding

namespace Mock

variable (mock : Mock) (texts : List String)

/-- What becomes of the batches of some texts. -/
def results : List (Range × BatchResult) :=
  (mock.batches texts).zipIdx.map fun place =>
    (place.1, mock.batchResult texts place.2 place.1)

theorem results_ranges : (mock.results texts).map (·.1) = mock.batches texts := by
  rw [results, List.map_map]
  exact List.zipIdx_map_fst 0 (mock.batches texts)

theorem batches_tile : Span.Tiles 0 texts.length (mock.batches texts) := by
  have hTiles := Batches.plan_tiles (texts.map (·.length)) mock.batchSize Text.largest64
  rw [List.length_map] at hTiles
  exact hTiles

/-- A batch that succeeds has the vectors of its texts. -/
theorem vectors_of_mem_results {range : Range} {vectors : List Components}
    (h : (range, .ok vectors) ∈ mock.results texts) :
    range ∈ mock.batches texts ∧ vectors = (range.pick texts).map mock.vector := by
  have hRange : range ∈ mock.batches texts := by
    rw [← results_ranges]
    exact List.mem_map_of_mem h
  obtain ⟨⟨found, batch⟩, _, hEq⟩ := List.mem_map.mp h
  obtain ⟨rfl, hResult⟩ := Prod.mk.inj hEq
  refine ⟨hRange, ?_⟩
  dsimp only [batchResult] at hResult
  split at hResult
  · cases hResult
  · cases hResult
    rfl

theorem results_sized : Sized 0 texts.length (mock.results texts) := by
  refine ⟨?_, ?_, ?_⟩
  · rw [results_ranges]
    exact mock.batches_tile texts
  · intro result hResult
    apply Batches.plan_nonempty (texts.map (·.length)) mock.batchSize Text.largest64
    rw [show Batches.plan _ _ _ = mock.batches texts from rfl, ← results_ranges]
    exact List.mem_map_of_mem hResult
  · intro range vectors hMem
    obtain ⟨hRange, rfl⟩ := mock.vectors_of_mem_results texts hMem
    rw [List.length_map, Range.length_pick ((mock.batches_tile texts).stop_le hRange)]

variable {mock texts}

theorem embed_sound {cancelled : Bool} {output : Output}
    (h : (mock.embed cancelled texts).1 = .ok output) :
    Sound (mock.batches texts) texts.length output := by
  rw [embed] at h
  split at h
  · cases h
  · obtain rfl : Output.collect (mock.results texts) = output := Except.ok.inj h
    rw [← results_ranges]
    have hSize : ∀ vector, some vector ∈ (Output.collect (mock.results texts)).vectors →
        vector.length = mock.dimension := by
      intro vector hVector
      obtain ⟨range, vectors, hMem, hFound⟩ := Output.mem_vectors hVector
      obtain ⟨_, rfl⟩ := mock.vectors_of_mem_results texts hMem
      obtain ⟨text, _, rfl⟩ := List.mem_map.mp hFound
      rw [Mock.vector, List.length_map, List.length_range]
    exact Output.collect_sound (mock.results_sized texts) hSize

end Mock

theorem OpenAi.embed_sound {service : OpenAi} {world : Http.World} {texts : List String}
    {session : Http.Session} {output : Output}
    (h : ((service.embed world texts).run session).1 = .ok output) :
    Sound (service.batches (service.inputs texts)) texts.length output := by
  rw [embed_run] at h
  rcases of_results (service.results_ranges world texts session)
    (service.results_ends world texts session) with ⟨-, hCancelled⟩ | ⟨softened, hOk, hFaithful⟩
  · rw [hCancelled] at h
    cases h
  · rw [hOk] at h
    obtain rfl : Output.collect softened = output := Except.ok.inj h
    rw [List.length_map, inputs, List.length_map] at hFaithful
    exact hFaithful.sound

namespace Embedder

/-- The batches in which an embedder takes some texts. -/
def batches : Embedder → List String → List Range
  | .openAi service, texts => service.batches (service.inputs texts)
  | .mock given, texts => given.batches texts

/-- What an embedder returns in a session. -/
def Returns (embedder : Embedder) (world : Http.World) (session : Http.Session)
    (texts : List String) (output : Output) : Prop :=
  ((embedder.embed world texts).run session).1.1 = .ok output

/-- **Outputs of every embedder are sound.** -/
theorem embed_sound {embedder : Embedder} {world : Http.World} {session : Http.Session}
    {texts : List String} {output : Output} (h : embedder.Returns world session texts output) :
    Sound (embedder.batches texts) texts.length output := by
  cases embedder with
  | openAi service => exact OpenAi.embed_sound h
  | mock given => exact Mock.embed_sound h

/-- Each batch has a text. -/
theorem batches_nonempty (embedder : Embedder) (texts : List String) :
    ∀ range ∈ embedder.batches texts, range.start < range.stop := by
  cases embedder with
  | openAi service => exact Batches.plan_nonempty _ _ _
  | mock given => exact Batches.plan_nonempty _ _ _

theorem batches_tile (embedder : Embedder) (texts : List String) :
    Span.Tiles 0 texts.length (embedder.batches texts) := by
  cases embedder with
  | openAi service =>
      have hTiles := service.batches_tile (service.inputs texts)
      rw [OpenAi.inputs, List.length_map] at hTiles
      exact hTiles
  | mock given => exact given.batches_tile texts

end Embedder

end SourceIndex.Embedding
