import SourceIndex.Embedding.Output
import SourceIndex.Proofs.Embedding.Plan

/-!
# Collected batches

What the collection of batches makes of them, when the batches follow each
other and each successful one has a vector for each of its texts.  Collecting
alone guarantees little.  It cuts surplus vectors off, leaves missing ones out,
and it compares only the first vector of a batch with the batches before; so
for the dimensions the vectors of a batch must be known to have the same one,
and batches are *filled* when this is not zero.

The recursion goes from one batch to the next with the dimension known so far,
and each of the lemmas follows it.  They say of the batches from `start` on
what `Sound` and `Faithful` say of all of them.

## Main results

* `Output.length_vectors` — one place for each text.
* `Output.failures_sorted`, `Output.failures_ranges` — failures are those of
  batches, in order.
* `Output.absent_iff` — a place is empty where its batch failed.
* `Output.mem_vectors` — each vector is one of a successful batch.
* `Output.one_dimension` — all vectors have the dimension known so far.
* `Output.collect_sound`, `Output.collect_faithful` — all of this together.
-/

namespace SourceIndex.Embedding

/-- One vector for each place of a range, all of one dimension other than zero. -/
structure Filled (range : Range) (vectors : List Components) : Prop where
  length : vectors.length = range.stop - range.start
  uniform : ∃ dimension, dimension ≠ 0 ∧ ∀ vector ∈ vectors, vector.length = dimension

/-- Results of batches that follow each other from `start` to `stop`, of which
the successful ones have a vector for each place. -/
structure Sized (start stop : Nat) (results : List (Range × BatchResult)) : Prop where
  tiles : Span.Tiles start stop (results.map (·.1))
  nonempty : ∀ result ∈ results, result.1.start < result.1.stop
  length : ∀ range vectors, (range, .ok vectors) ∈ results →
    vectors.length = range.stop - range.start

/-- The same of batches of which the successful ones are filled. -/
structure Batched (start stop : Nat) (results : List (Range × BatchResult)) : Prop where
  tiles : Span.Tiles start stop (results.map (·.1))
  nonempty : ∀ result ∈ results, result.1.start < result.1.stop
  filled : ∀ range vectors, (range, .ok vectors) ∈ results → Filled range vectors

/-- What an output says about texts that were sent in the given batches. -/
structure Faithful (batches : List Range) (count : Nat) (output : Output) : Prop where
  length : output.vectors.length = count
  /-- Failures come in the order of their batches, none twice. -/
  numbers : output.failures.Pairwise fun a b => a.batch < b.batch
  ranges : ∀ failure ∈ output.failures, batches[failure.batch]? = some failure.range
  /-- A text has no vector exactly when its batch failed. -/
  absent : ∀ place, place < count →
    (output.vectors[place]? = some none ↔ ∃ failure ∈ output.failures, failure.range.Holds place)
  dimension : ∀ vector, some vector ∈ output.vectors →
    vector.length ≠ 0 ∧ output.dimension? = some vector.length

/-- The same without a word on whether the dimension is zero. -/
structure Sound (batches : List Range) (count : Nat) (output : Output) : Prop where
  length : output.vectors.length = count
  numbers : output.failures.Pairwise fun a b => a.batch < b.batch
  ranges : ∀ failure ∈ output.failures, batches[failure.batch]? = some failure.range
  absent : ∀ place, place < count →
    (output.vectors[place]? = some none ↔ ∃ failure ∈ output.failures, failure.range.Holds place)
  dimension : ∀ vector, some vector ∈ output.vectors → output.dimension? = some vector.length

theorem Faithful.sound {batches : List Range} {count : Nat} {output : Output}
    (h : Faithful batches count output) : Sound batches count output :=
  ⟨h.length, h.numbers, h.ranges, h.absent, fun vector hVector => (h.dimension vector hVector).2⟩

variable {start stop batch : Nat} {dimension : Option Nat} {range : Range}
  {result : BatchResult} {vectors : List Components} {rest : List (Range × BatchResult)}

theorem Batched.sized {results : List (Range × BatchResult)} (h : Batched start stop results) :
    Sized start stop results :=
  ⟨h.tiles, h.nonempty, fun range vectors hMem => (h.filled range vectors hMem).length⟩

theorem Sized.uncons (h : Sized start stop ((range, result) :: rest)) :
    range.start = start ∧ range.start < range.stop ∧ Sized range.stop stop rest := by
  obtain ⟨⟨hStart, _, hTiles⟩, hNonempty, hLength⟩ := h
  refine ⟨hStart, hNonempty _ List.mem_cons_self, hTiles, ?_, ?_⟩
  · intro other hOther
    exact hNonempty other (List.mem_cons_of_mem _ hOther)
  · intro other vectors hOther
    exact hLength other vectors (List.mem_cons_of_mem _ hOther)

theorem Batched.uncons (h : Batched start stop ((range, result) :: rest)) :
    range.start = start ∧ range.start < range.stop ∧ Batched range.stop stop rest := by
  obtain ⟨⟨hStart, _, hTiles⟩, hNonempty, hFilled⟩ := h
  refine ⟨hStart, hNonempty _ List.mem_cons_self, hTiles, ?_, ?_⟩
  · intro other hOther
    exact hNonempty other (List.mem_cons_of_mem _ hOther)
  · intro other vectors hOther
    exact hFilled other vectors (List.mem_cons_of_mem _ hOther)

namespace Output

/-! ## Places -/

theorem length_places (range : Range) (vectors : List Components) :
    (places range vectors).length = range.stop - range.start := by
  simp [places]

/-- A batch with a vector for each place fills its places. -/
theorem places_filled (h : vectors.length = range.stop - range.start) :
    places range vectors = vectors.map some := by
  have hLength : (vectors.map some).length = range.stop - range.start := by
    rw [List.length_map]
    exact h
  rw [places, ← hLength, List.take_left]

/-- A failed batch leaves its places empty. -/
theorem places_nil (range : Range) :
    places range [] = List.replicate (range.stop - range.start) none := by
  simp [places]

theorem getElem?_places_left {after : List (Option Components)} {place : Nat}
    (h : place < range.stop - range.start) :
    (places range vectors ++ after)[place]? = (places range vectors)[place]? :=
  List.getElem?_append_left (by rw [length_places]; exact h)

theorem getElem?_places_right {after : List (Option Components)} {place : Nat}
    (h : ¬ place < range.stop - range.start) :
    (places range vectors ++ after)[place]? = after[place - (range.stop - range.start)]? := by
  rw [List.getElem?_append_right (by rw [length_places]; omega), length_places]

/-! ## One batch -/

/-- A batch that is accepted succeeded, with the dimension known so far. -/
theorem accepted (h : result.bind (checkDimension dimension) = .ok vectors) :
    result = .ok vectors ∧ ∀ expected first, dimension = some expected →
      vectors.head? = some first → first.length = expected := by
  cases result with
  | error message => cases h
  | ok found =>
      have hCheck : checkDimension dimension found = .ok vectors := h
      unfold checkDimension at hCheck
      split at hCheck
      · next expected first hFirst =>
          dsimp only at hCheck
          split at hCheck
          · next hSame =>
              cases hCheck
              refine ⟨rfl, ?_⟩
              intro other vector hOther hVector
              cases hOther
              rw [hFirst] at hVector
              cases hVector
              exact hSame
          · cases hCheck
      · next hOther =>
          cases hCheck
          refine ⟨rfl, ?_⟩
          intro expected first hExpected hFirst
          exact absurd hFirst (hOther expected first hExpected)

theorem collectFrom_ok (h : result.bind (checkDimension dimension) = .ok vectors) :
    collectFrom batch dimension ((range, result) :: rest) =
      let known := dimension <|> vectors.head?.map List.length
      { vectors := places range vectors ++ (collectFrom (batch + 1) known rest).vectors
        failures := (collectFrom (batch + 1) known rest).failures } := by
  rw [collectFrom, h]

theorem collectFrom_error {message : String}
    (h : result.bind (checkDimension dimension) = .error message) :
    collectFrom batch dimension ((range, result) :: rest) =
      { vectors := places range [] ++ (collectFrom (batch + 1) dimension rest).vectors
        failures := ⟨batch, range, message⟩ ::
          (collectFrom (batch + 1) dimension rest).failures } := by
  rw [collectFrom, h]

/-! ## All batches -/

/-- There is one place for each text. -/
theorem length_vectors {results : List (Range × BatchResult)} :
    ∀ {start batch : Nat} {dimension : Option Nat}, Sized start stop results →
      (collectFrom batch dimension results).vectors.length = stop - start := by
  induction results with
  | nil =>
      intro start batch dimension h
      have hEnd : start = stop := h.tiles
      rw [collectFrom, hEnd, Nat.sub_self]
      rfl
  | cons result rest ih =>
      intro start batch dimension h
      obtain ⟨range, result⟩ := result
      obtain ⟨hStart, hSize, hRest⟩ := h.uncons
      have hStop := hRest.tiles.start_le_stop
      cases hResult : result.bind (checkDimension dimension) with
      | ok vectors =>
          rw [collectFrom_ok hResult, List.length_append, length_places, ih hRest]
          omega
      | error message =>
          rw [collectFrom_error hResult, List.length_append, length_places, ih hRest]
          omega

/-- The failures are those of batches from the given number on. -/
theorem failures_ranges {results : List (Range × BatchResult)} :
    ∀ {batch : Nat} {dimension : Option Nat},
      ∀ failure ∈ (collectFrom batch dimension results).failures,
        batch ≤ failure.batch ∧
          (results.map (·.1))[failure.batch - batch]? = some failure.range := by
  induction results with
  | nil =>
      intro batch dimension failure hFailure
      rw [collectFrom] at hFailure
      cases hFailure
  | cons result rest ih =>
      intro batch dimension failure hFailure
      obtain ⟨range, result⟩ := result
      have hLater : ∀ {dimension : Option Nat},
          failure ∈ (collectFrom (batch + 1) dimension rest).failures →
          batch ≤ failure.batch ∧
            (((range, result) :: rest).map (·.1))[failure.batch - batch]? =
              some failure.range := by
        intro dimension hMem
        obtain ⟨hBatch, hRange⟩ := ih failure hMem
        have hShift : failure.batch - batch = (failure.batch - (batch + 1)) + 1 := by omega
        refine ⟨by omega, ?_⟩
        rw [hShift, List.map_cons, List.getElem?_cons_succ]
        exact hRange
      cases hResult : result.bind (checkDimension dimension) with
      | ok vectors =>
          rw [collectFrom_ok hResult] at hFailure
          exact hLater hFailure
      | error message =>
          rw [collectFrom_error hResult] at hFailure
          rcases List.mem_cons.mp hFailure with rfl | hMem
          · refine ⟨Nat.le_refl _, ?_⟩
            rw [Nat.sub_self]
            rfl
          · exact hLater hMem

/-- Failures come in the order of their batches. -/
theorem failures_sorted {results : List (Range × BatchResult)} :
    ∀ {batch : Nat} {dimension : Option Nat},
      (collectFrom batch dimension results).failures.Pairwise fun a b => a.batch < b.batch := by
  induction results with
  | nil =>
      intro batch dimension
      rw [collectFrom]
      exact List.Pairwise.nil
  | cons result rest ih =>
      intro batch dimension
      obtain ⟨range, result⟩ := result
      cases hResult : result.bind (checkDimension dimension) with
      | ok vectors =>
          rw [collectFrom_ok hResult]
          exact ih
      | error message =>
          rw [collectFrom_error hResult]
          refine List.pairwise_cons.mpr ⟨?_, ih⟩
          intro failure hFailure
          have hBatch := (failures_ranges failure hFailure).1
          show batch < failure.batch
          omega

/-- The batch of an accepted result is filled. -/
theorem filled_of_accepted (h : Batched start stop ((range, result) :: rest))
    (hAccepted : result.bind (checkDimension dimension) = .ok vectors) :
    Filled range vectors := by
  obtain ⟨rfl, _⟩ := accepted hAccepted
  exact h.filled range vectors List.mem_cons_self

/-- An accepted result has a vector for each place of its batch. -/
theorem length_of_accepted (h : Sized start stop ((range, result) :: rest))
    (hAccepted : result.bind (checkDimension dimension) = .ok vectors) :
    vectors.length = range.stop - range.start := by
  obtain ⟨rfl, _⟩ := accepted hAccepted
  exact h.length range vectors List.mem_cons_self

/-- Failures lie in the ranges of their batches, so none reaches back before
the first of them. -/
theorem start_le_of_failure {results : List (Range × BatchResult)}
    (h : Sized start stop results) {failure : BatchFailure}
    (hFailure : failure ∈ (collectFrom batch dimension results).failures) :
    start ≤ failure.range.start := by
  obtain ⟨_, hRange⟩ := failures_ranges failure hFailure
  exact h.tiles.start_le (List.mem_of_getElem? hRange)

/-- A place is empty exactly where its batch failed. -/
theorem absent_iff {results : List (Range × BatchResult)} :
    ∀ {start batch : Nat} {dimension : Option Nat}, Sized start stop results →
      ∀ place, place < stop - start →
        ((collectFrom batch dimension results).vectors[place]? = some none ↔
          ∃ failure ∈ (collectFrom batch dimension results).failures,
            failure.range.Holds (start + place)) := by
  induction results with
  | nil =>
      intro start batch dimension h place hPlace
      have hEnd : start = stop := h.tiles
      omega
  | cons result rest ih =>
      intro start batch dimension h place hPlace
      obtain ⟨range, result⟩ := result
      obtain ⟨hStart, hSize, hRest⟩ := h.uncons
      cases hResult : result.bind (checkDimension dimension) with
      | ok vectors =>
          have hLength := length_of_accepted h hResult
          rw [collectFrom_ok hResult]
          dsimp only
          by_cases hHere : place < range.stop - range.start
          · -- The place has a vector, and the failures are all of later batches.
            rw [getElem?_places_left hHere, places_filled hLength]
            constructor
            · intro hNone
              simp at hNone
            · rintro ⟨failure, hFailure, hHolds⟩
              have hFrom := start_le_of_failure hRest hFailure
              have hReach := hHolds.1
              omega
          · have hShift : range.stop + (place - (range.stop - range.start)) = start + place := by
              omega
            rw [getElem?_places_right hHere, ih hRest _ (by omega), hShift]
      | error message =>
          rw [collectFrom_error hResult]
          dsimp only
          by_cases hHere : place < range.stop - range.start
          · have hHolds : range.Holds (start + place) := by
              constructor
              · omega
              · omega
            rw [getElem?_places_left hHere, places_nil, List.getElem?_replicate_of_lt hHere]
            constructor
            · exact fun _ => ⟨⟨batch, range, message⟩, List.mem_cons_self, hHolds⟩
            · exact fun _ => rfl
          · have hShift : range.stop + (place - (range.stop - range.start)) = start + place := by
              omega
            rw [getElem?_places_right hHere, ih hRest _ (by omega), hShift]
            constructor
            · rintro ⟨failure, hFailure, hHolds⟩
              exact ⟨failure, List.mem_cons_of_mem _ hFailure, hHolds⟩
            · rintro ⟨failure, hFailure, hHolds⟩
              rcases List.mem_cons.mp hFailure with rfl | hLater
              · have hReach : start + place < range.stop := hHolds.2
                omega
              · exact ⟨failure, hLater, hHolds⟩

/-- What stands in the places of a batch is one of its vectors. -/
theorem mem_places {vector : Components} (h : some vector ∈ places range vectors) :
    vector ∈ vectors := by
  rcases List.mem_append.mp (List.mem_of_mem_take h) with hHere | hNone
  · obtain ⟨found, hFound, hEq⟩ := List.mem_map.mp hHere
    cases hEq
    exact hFound
  · cases List.eq_of_mem_replicate hNone

/-- Each vector is one of a successful batch. -/
theorem mem_vectors {results : List (Range × BatchResult)} {vector : Components} :
    ∀ {batch : Nat} {dimension : Option Nat},
      some vector ∈ (collectFrom batch dimension results).vectors →
        ∃ range vectors, (range, .ok vectors) ∈ results ∧ vector ∈ vectors := by
  induction results with
  | nil =>
      intro batch dimension h
      rw [collectFrom] at h
      cases h
  | cons result rest ih =>
      intro batch dimension h
      obtain ⟨range, result⟩ := result
      have hLater : ∀ {batch : Nat} {dimension : Option Nat},
          some vector ∈ (collectFrom batch dimension rest).vectors →
            ∃ other vectors, (other, .ok vectors) ∈ (range, result) :: rest ∧ vector ∈ vectors := by
        intro batch dimension hMem
        obtain ⟨other, vectors, hOther, hVector⟩ := ih hMem
        exact ⟨other, vectors, List.mem_cons_of_mem _ hOther, hVector⟩
      cases hResult : result.bind (checkDimension dimension) with
      | ok vectors =>
          rw [collectFrom_ok hResult] at h
          rcases List.mem_append.mp h with hHere | hThere
          · obtain ⟨rfl, _⟩ := accepted hResult
            exact ⟨range, vectors, List.mem_cons_self, mem_places hHere⟩
          · exact hLater hThere
      | error message =>
          rw [collectFrom_error hResult] at h
          rcases List.mem_append.mp h with hHere | hThere
          · exact absurd (mem_places hHere) List.not_mem_nil
          · exact hLater hThere

/-- An accepted batch tells the dimension, and it is the one known so far. -/
theorem known_of_accepted {own : Nat} (hSize : range.start < range.stop)
    (hFilled : Filled range vectors) (hUniform : ∀ vector ∈ vectors, vector.length = own)
    (h : result.bind (checkDimension dimension) = .ok vectors) :
    (∀ known, dimension = some known → known = own) ∧
      (dimension <|> vectors.head?.map List.length) = some own := by
  have hCheck := (accepted h).2
  have hLength := hFilled.length
  cases vectors with
  | nil =>
      rw [List.length_nil] at hLength
      omega
  | cons first others =>
      have hFirst := hUniform first List.mem_cons_self
      have hBefore : ∀ known, dimension = some known → known = own := by
        intro known hKnown
        rw [← hCheck known first hKnown rfl, hFirst]
      refine ⟨hBefore, ?_⟩
      cases dimension with
      | none => exact congrArg some hFirst
      | some known => exact congrArg some (hBefore known rfl)

/-- All vectors have one dimension other than zero, which is the one known so
far, if any is. -/
theorem one_dimension {results : List (Range × BatchResult)} :
    ∀ {start batch : Nat} {dimension : Option Nat}, Batched start stop results →
      dimension ≠ some 0 →
      ∃ size, size ≠ 0 ∧ (∀ known, dimension = some known → known = size) ∧
        ∀ vector, some vector ∈ (collectFrom batch dimension results).vectors →
          vector.length = size := by
  induction results with
  | nil =>
      intro start batch dimension _ hDimension
      rw [collectFrom]
      cases dimension with
      | none => exact ⟨1, by decide, by simp, by simp⟩
      | some known => exact ⟨known, by simpa using hDimension, by simp, by simp⟩
  | cons result rest ih =>
      intro start batch dimension h hDimension
      obtain ⟨range, result⟩ := result
      obtain ⟨_, hSize, hRest⟩ := h.uncons
      cases hResult : result.bind (checkDimension dimension) with
      | ok vectors =>
          have hFilled := filled_of_accepted h hResult
          obtain ⟨own, hOwn, hUniform⟩ := hFilled.uniform
          obtain ⟨hBefore, hKnown⟩ := known_of_accepted hSize hFilled hUniform hResult
          obtain ⟨size, hNonzero, hSame, hRestSize⟩ := @ih range.stop (batch + 1) (some own) hRest
            (by simpa using hOwn)
          obtain rfl : own = size := hSame own rfl
          refine ⟨own, hOwn, hBefore, ?_⟩
          intro vector hVector
          rw [collectFrom_ok hResult, hKnown] at hVector
          rcases List.mem_append.mp hVector with hHere | hLater
          · rw [places_filled hFilled.length] at hHere
            obtain ⟨found, hFound, hEq⟩ := List.mem_map.mp hHere
            obtain rfl : found = vector := Option.some.inj hEq
            exact hUniform found hFound
          · exact hRestSize vector hLater
      | error message =>
          obtain ⟨size, hNonzero, hKnown, hRestSize⟩ := @ih range.stop (batch + 1) dimension hRest
            hDimension
          refine ⟨size, hNonzero, hKnown, ?_⟩
          intro vector hVector
          rw [collectFrom_error hResult] at hVector
          rcases List.mem_append.mp hVector with hHere | hLater
          · rw [places_nil] at hHere
            cases List.eq_of_mem_replicate hHere
          · exact hRestSize vector hLater

/-- An output whose vectors have one dimension reports it. -/
theorem dimension?_of_mem {output : Output} {size : Nat}
    (hSize : ∀ vector, some vector ∈ output.vectors → vector.length = size)
    {vector : Components} (hVector : some vector ∈ output.vectors) :
    output.dimension? = some size := by
  unfold dimension?
  cases hFirst : output.vectors.findSome? id with
  | none =>
      have hNone := List.findSome?_eq_none_iff.mp hFirst (some vector) hVector
      cases hNone
  | some first =>
      obtain ⟨place, hPlace, hEq⟩ := List.exists_of_findSome?_eq_some hFirst
      rw [show place = some first from hEq] at hPlace
      exact congrArg some (hSize first hPlace)

/-- **Batches that follow each other are collected soundly** when the vectors
have one dimension. -/
theorem collect_sound {results : List (Range × BatchResult)} {count size : Nat}
    (h : Sized 0 count results)
    (hSize : ∀ vector, some vector ∈ (collect results).vectors → vector.length = size) :
    Sound (results.map (·.1)) count (collect results) := by
  refine
    { length := length_vectors h, numbers := failures_sorted, ranges := ?_, absent := ?_
      dimension := ?_ }
  · intro failure hFailure
    exact (failures_ranges failure hFailure).2
  · intro place hPlace
    have hAbsent := @absent_iff count results 0 0 none h place hPlace
    rw [Nat.zero_add] at hAbsent
    exact hAbsent
  · intro vector hVector
    rw [hSize vector hVector]
    exact dimension?_of_mem hSize hVector

/-- **Filled batches that follow each other are collected faithfully.** -/
theorem collect_faithful {results : List (Range × BatchResult)} {count : Nat}
    (h : Batched 0 count results) : Faithful (results.map (·.1)) count (collect results) := by
  obtain ⟨size, hNonzero, _, hSize⟩ := @one_dimension count results 0 0 none h (by simp)
  have hSound := collect_sound h.sized hSize
  refine ⟨hSound.length, hSound.numbers, hSound.ranges, hSound.absent, ?_⟩
  intro vector hVector
  refine ⟨?_, hSound.dimension vector hVector⟩
  rw [hSize vector hVector]
  exact hNonzero

end Output

end SourceIndex.Embedding
