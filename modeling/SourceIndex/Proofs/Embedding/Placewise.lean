import Mathlib.Algebra.GroupWithZero.Nat
import SourceIndex.Proofs.Embedding.Fitting
import SourceIndex.Proofs.Embedding.Sound

/-!
# Mock answers place by place

A mock embedder plans batches, hashes the texts of each and collects the
results, so that what it returns for a text seems to depend on the other texts.
It does not.  As long as the texts together are no longer than a batch may be,
only the number of texts closes a batch: the open batch has started at a
multiple of the batch size (`planFrom_multiples`), and the batch of a place is
the quotient of the two.  And since all vectors have one dimension, no batch is
refused for the batches before it (`failed_of_failure`).

Clones of an embedder may have other settings but share its counter.  So the
calls of all of them, in their order, are one run.

## Main results

* `Batches.plan_multiples` — batches of equal size.
* `Output.failed_of_failure` — a batch with vectors of the common dimension does
  not fail.
* `Mock.collect_answers` — one answer, place by place.
* `Mock.runCalls_answers` — the answers and the counter of a run of calls.
-/

namespace SourceIndex.Embedding

/-! ## Batches of equal size -/

namespace Batches

/-- The batches from an open one on that has started at a multiple of the batch
size.  The characters of all texts fit a batch, so only their number closes
it. -/
private theorem planFrom_multiples {size maxChars : Nat} (hSize : 0 < size) :
    ∀ (lengths : List Nat) (next start chars batch : Nat), start = batch * size →
      start ≤ next → next ≤ start + size → chars + lengths.sum ≤ maxChars →
      ∀ (number : Nat) (range : Range),
        (planFrom size maxChars lengths next start chars)[number]? = some range →
        range = ⟨(batch + number) * size,
          min ((batch + number + 1) * size) (next + lengths.length)⟩ := by
  intro lengths
  induction lengths with
  | nil =>
      intro next start chars batch hStart hFrom hTo _ number range hRange
      rw [planFrom] at hRange
      have hEnd : (batch + 1) * size = start + size := by rw [Nat.succ_mul, hStart]
      split at hRange
      · cases number with
        | zero =>
            obtain rfl : (⟨start, next⟩ : Range) = range := Option.some.inj hRange
            rw [Nat.add_zero, hEnd, List.length_nil, Nat.add_zero, Nat.min_eq_right hTo, hStart]
        | succ number => cases hRange
      · cases hRange
  | cons length rest ih =>
      intro next start chars batch hStart hFrom hTo hChars number range hRange
      rw [List.sum_cons] at hChars
      have hCount : next + (length :: rest).length = next + 1 + rest.length := by
        rw [List.length_cons]
        omega
      have hEnd : (batch + 1) * size = start + size := by rw [Nat.succ_mul, hStart]
      rw [planFrom] at hRange
      rw [hCount]
      split at hRange
      · next hFull =>
          simp only [Bool.or_eq_true, Bool.and_eq_true, decide_eq_true_eq] at hFull
          have hNext : next = start + size := by omega
          cases number with
          | zero =>
              obtain rfl : (⟨start, next⟩ : Range) = range := Option.some.inj hRange
              rw [Nat.add_zero, hEnd, ← hNext, Nat.min_eq_left (by omega), hStart]
          | succ number =>
              have hShift : batch + (number + 1) = batch + 1 + number := by omega
              rw [hShift]
              exact ih (next + 1) next length (batch + 1) (by rw [hEnd, hNext]) (by omega)
                (by omega) (by omega) number range hRange
      · next hRoom =>
          simp only [Bool.or_eq_true, Bool.and_eq_true, decide_eq_true_eq] at hRoom
          exact ih (next + 1) start (chars + length) batch hStart (by omega) (by omega)
            (by omega) number range hRange

/-- **Batches have equal size**, but for the last, when all texts together are
no longer than a batch may be. -/
theorem plan_multiples {lengths : List Nat} {maxSize maxChars : Nat}
    (h : lengths.sum ≤ maxChars) {number : Nat} {range : Range}
    (hRange : (plan lengths maxSize maxChars)[number]? = some range) :
    range = ⟨number * max 1 maxSize, min ((number + 1) * max 1 maxSize) lengths.length⟩ := by
  have hPlanned := planFrom_multiples (Nat.lt_of_lt_of_le Nat.zero_lt_one
    (Nat.le_max_right maxSize 1)) lengths 0 0 0 0 (by simp) (Nat.le_refl 0) (by omega) (by omega)
    number range hRange
  rw [hPlanned, Nat.zero_add, Nat.zero_add, Nat.max_comm]

end Batches

/-! ## Batches of one dimension -/

namespace Output

variable {own : Nat}

theorem checkDimension_of_uniform {dimension : Option Nat} {vectors : List Components}
    (hKnown : ∀ known, dimension = some known → known = own)
    (hUniform : ∀ vector ∈ vectors, vector.length = own) :
    checkDimension dimension vectors = .ok vectors := by
  unfold checkDimension
  split
  · next known vector hVector =>
      have hOwn : vector.length = known := by
        rw [hUniform vector (List.mem_of_mem_head? hVector), hKnown known rfl]
      simp only [hOwn, ↓reduceIte]
  · rfl

/-- **No batch is refused for its dimension** when all vectors have the same, so
a failure is that of a batch without vectors. -/
theorem failed_of_failure {results : List (Range × BatchResult)} {failure : BatchFailure} :
    ∀ {batch : Nat} {dimension : Option Nat},
      (∀ known, dimension = some known → known = own) →
      (∀ range vectors, (range, .ok vectors) ∈ results → ∀ vector ∈ vectors,
        vector.length = own) →
      failure ∈ (collectFrom batch dimension results).failures →
      batch ≤ failure.batch ∧
        results[failure.batch - batch]? = some (failure.range, .error failure.message) := by
  induction results with
  | nil =>
      intro batch dimension _ _ hFailure
      rw [collectFrom] at hFailure
      cases hFailure
  | cons result rest ih =>
      intro batch dimension hKnown hUniform hFailure
      obtain ⟨range, result⟩ := result
      have hLater : ∀ {dimension : Option Nat},
          (∀ known, dimension = some known → known = own) →
          failure ∈ (collectFrom (batch + 1) dimension rest).failures →
          batch ≤ failure.batch ∧ ((range, result) :: rest)[failure.batch - batch]? =
            some (failure.range, .error failure.message) := by
        intro dimension hKnown hMem
        obtain ⟨hBatch, hResult⟩ := ih hKnown
          (fun other vectors hOther => hUniform other vectors (List.mem_cons_of_mem _ hOther)) hMem
        have hShift : failure.batch - batch = failure.batch - (batch + 1) + 1 := by omega
        refine ⟨by omega, ?_⟩
        rw [hShift, List.getElem?_cons_succ]
        exact hResult
      cases result with
      | ok vectors =>
          have hHere := hUniform range vectors List.mem_cons_self
          have hChecked : (Except.ok vectors : BatchResult).bind (checkDimension dimension) =
              .ok vectors := checkDimension_of_uniform hKnown hHere
          rw [collectFrom_ok hChecked] at hFailure
          refine hLater ?_ hFailure
          intro known hNext
          cases dimension with
          | some before => exact hKnown known hNext
          | none =>
              obtain ⟨first, hFirst, rfl⟩ := Option.map_eq_some_iff.mp hNext
              exact hHere first (List.mem_of_mem_head? hFirst)
      | error message =>
          rw [collectFrom_error rfl] at hFailure
          rcases List.mem_cons.mp hFailure with rfl | hMem
          · exact ⟨Nat.le_refl _, by rw [Nat.sub_self]; rfl⟩
          · exact hLater hKnown hMem

end Output

/-! ## One answer -/

theorem Range.getElem?_pick {α : Type} {texts : List α} {range : Range} {place : Nat}
    (h : range.Holds place) : (range.pick texts)[place - range.start]? = texts[place]? := by
  obtain ⟨hStart, hStop⟩ := h
  rw [Range.pick, List.getElem?_take_of_lt (by omega), List.getElem?_drop,
    Nat.add_sub_cancel' hStart]

namespace Mock

/-- How many texts a batch has, unless it is the last. -/
def size (mock : Mock) : Nat := max 1 mock.batchSize

/-- What a mock embedder returns for some texts, place by place. -/
structure Answers (mock : Mock) (texts : List String) (output : Output) : Prop where
  length : output.vectors.length = texts.length
  /-- The vector of a text depends on the text and on the dimension. -/
  vectors : ∀ place text, texts[place]? = some text →
    output.vectors[place]? = some (if place / mock.size ∈ mock.failing then none
      else some ((List.range mock.dimension).map (component text)))
  /-- Failures come in the order of their batches, none twice. -/
  numbers : output.failures.Pairwise fun a b => a.batch < b.batch
  /-- The failures are those of the failing batches that have a text. -/
  failures : ∀ batch, batch ∈ output.failures.map (·.batch) ↔
    batch ∈ mock.failing ∧ batch * mock.size < texts.length
  ranges : ∀ failure ∈ output.failures, ∀ place,
    failure.range.Holds place ↔ place < texts.length ∧ place / mock.size = failure.batch
  messages : ∀ failure ∈ output.failures,
    failure.message = s!"mock failure for batch {failure.batch}"

section Answer

variable {mock : Mock} {texts : List String} {batch place : Nat} {range : Range}
  {result : BatchResult}

theorem size_pos (mock : Mock) : 0 < mock.size :=
  Nat.lt_of_lt_of_le Nat.one_pos (Nat.le_max_left ..)

theorem getElem?_results :
    (mock.results texts)[batch]? = some (range, result) ↔
      (mock.batches texts)[batch]? = some range ∧ mock.batchResult texts batch range = result := by
  rw [results, List.getElem?_map, List.getElem?_zipIdx, Nat.zero_add]
  cases (mock.batches texts)[batch]? with
  | none => simp
  | some found =>
      simp only [Option.map_some, Option.some.injEq, Prod.mk.injEq]
      constructor
      · rintro ⟨rfl, hResult⟩
        exact ⟨rfl, hResult⟩
      · rintro ⟨rfl, hResult⟩
        exact ⟨rfl, hResult⟩

theorem batchResult_of_failing (h : batch ∈ mock.failing) :
    mock.batchResult texts batch range = .error s!"mock failure for batch {batch}" :=
  if_pos (List.contains_iff_mem.mpr h)

theorem batchResult_of_not_failing (h : batch ∉ mock.failing) :
    mock.batchResult texts batch range = .ok ((range.pick texts).map mock.vector) :=
  if_neg fun hContains => h (List.contains_iff_mem.mp hContains)

/-- **The batch of a place is a quotient.** -/
theorem batch_holds_iff (hLength : (texts.map String.length).sum < 2 ^ 64)
    (hRange : (mock.batches texts)[batch]? = some range) :
    range.Holds place ↔ place < texts.length ∧ place / mock.size = batch := by
  have hBudget : (texts.map String.length).sum ≤ Text.largest64 := Nat.le_of_lt_succ hLength
  obtain rfl := Batches.plan_multiples hBudget hRange
  rw [List.length_map]
  change batch * mock.size ≤ place ∧ place < min ((batch + 1) * mock.size) texts.length ↔ _
  rw [Nat.div_eq_iff mock.size_pos, Nat.succ_mul]
  have hPos := mock.size_pos
  omega

/-- A failure is that of a failing batch. -/
theorem failed (failure : BatchFailure)
    (h : failure ∈ (Output.collect (mock.results texts)).failures) :
    (mock.batches texts)[failure.batch]? = some failure.range ∧ failure.batch ∈ mock.failing ∧
      failure.message = s!"mock failure for batch {failure.batch}" := by
  have hUniform : ∀ range vectors, (range, .ok vectors) ∈ mock.results texts →
      ∀ vector ∈ vectors, vector.length = mock.dimension := by
    intro range vectors hMem vector hVector
    obtain ⟨_, rfl⟩ := mock.vectors_of_mem_results texts hMem
    obtain ⟨text, _, rfl⟩ := List.mem_map.mp hVector
    rw [vector, List.length_map, List.length_range]
  have hResult := (Output.failed_of_failure (by simp) hUniform h).2
  rw [Nat.sub_zero] at hResult
  obtain ⟨hRange, hError⟩ := getElem?_results.mp hResult
  by_cases hFailing : failure.batch ∈ mock.failing
  · rw [batchResult_of_failing hFailing] at hError
    exact ⟨hRange, hFailing, (Except.error.inj hError).symm⟩
  · rw [batchResult_of_not_failing hFailing] at hError
    cases hError

/-- What stands in the place of a text. -/
theorem getElem?_vectors (hLength : (texts.map String.length).sum < 2 ^ 64) {text : String}
    (h : texts[place]? = some text) :
    (Output.collect (mock.results texts)).vectors[place]? =
      some (if place / mock.size ∈ mock.failing then none else some (mock.vector text)) := by
  have hSized := mock.results_sized texts
  have hPlace : place < texts.length := (List.getElem?_eq_some_iff.mp h).1
  have hAbsent := @Output.absent_iff texts.length (mock.results texts) 0 0 none hSized place hPlace
  have hExists : place < (Output.collect (mock.results texts)).vectors.length := by
    rw [show (Output.collect (mock.results texts)).vectors.length = texts.length - 0 from
      Output.length_vectors hSized]
    exact hPlace
  obtain ⟨found, hFound⟩ : ∃ found,
      (Output.collect (mock.results texts)).vectors[place]? = some found :=
    ⟨_, List.getElem?_eq_getElem hExists⟩
  rw [Nat.zero_add] at hAbsent
  rw [hFound]
  cases found with
  | none =>
      obtain ⟨failure, hFailure, hHolds⟩ := hAbsent.mp hFound
      obtain ⟨hRange, hFailing, _⟩ := failed failure hFailure
      obtain ⟨_, hBatch⟩ := (batch_holds_iff hLength hRange).mp hHolds
      rw [if_pos (hBatch ▸ hFailing)]
  | some vector =>
      obtain ⟨range, vectors, hMem, hHolds, hVector⟩ := Output.exists_of_present hSized place hFound
      obtain ⟨batch, hResult⟩ := List.mem_iff_getElem?.mp hMem
      obtain ⟨hRange, hOk⟩ := getElem?_results.mp hResult
      rw [Nat.zero_add] at hHolds hVector
      obtain ⟨_, rfl⟩ := (batch_holds_iff hLength hRange).mp hHolds
      have hFailing : place / mock.size ∉ mock.failing := by
        intro hFailing
        rw [batchResult_of_failing hFailing] at hOk
        cases hOk
      obtain ⟨_, rfl⟩ := mock.vectors_of_mem_results texts hMem
      rw [List.getElem?_map, Range.getElem?_pick hHolds, h] at hVector
      rw [if_neg hFailing, ← Option.some.inj hVector]

/-- **One answer, place by place.** -/
theorem collect_answers (hLength : (texts.map String.length).sum < 2 ^ 64) :
    Answers mock texts (Output.collect (mock.results texts)) := by
  refine
    { length := Output.length_vectors (mock.results_sized texts)
      vectors := fun place text h => getElem?_vectors hLength h
      numbers := Output.failures_sorted, failures := ?_
      ranges := fun failure hFailure place => batch_holds_iff hLength (failed failure hFailure).1
      messages := fun failure hFailure => (failed failure hFailure).2.2 }
  intro batch
  constructor
  · intro hBatch
    obtain ⟨failure, hFailure, rfl⟩ := List.mem_map.mp hBatch
    obtain ⟨hRange, hFailing, _⟩ := failed failure hFailure
    have hNonempty := Batches.plan_nonempty _ _ _ failure.range (List.mem_of_getElem? hRange)
    obtain ⟨hText, hBatch⟩ := (batch_holds_iff hLength hRange).mp ⟨Nat.le_refl _, hNonempty⟩
    refine ⟨hFailing, Nat.lt_of_le_of_lt ?_ hText⟩
    rw [← hBatch]
    exact Nat.div_mul_le_self failure.range.start mock.size
  · rintro ⟨hFailing, hText⟩
    -- The first place of the batch has no vector, and only its own batch holds it.
    have hBatch : batch * mock.size / mock.size = batch := Nat.mul_div_cancel batch mock.size_pos
    have hFirst := @getElem?_vectors mock texts _ hLength _ (List.getElem?_eq_getElem hText)
    rw [hBatch, if_pos hFailing] at hFirst
    have hAbsent := @Output.absent_iff texts.length (mock.results texts) 0 0 none
      (mock.results_sized texts) _ hText
    obtain ⟨failure, hFailure, hHolds⟩ := hAbsent.mp hFirst
    rw [Nat.zero_add] at hHolds
    have hOwn := ((batch_holds_iff hLength (failed failure hFailure).1).mp hHolds).2
    rw [hBatch] at hOwn
    exact List.mem_map.mpr ⟨failure, hFailure, hOwn.symm⟩

end Answer

/-! ## Runs of calls -/

/-- A call of a mock embedder or of one of its clones.  They may have other
settings, but the counter is the one of them all. -/
structure Call where
  clone : Mock
  cancelled : Bool
  texts : List String

/-- What a call returns when the counter is at the given number, and the counter
after it. -/
def Call.run (call : Call) (counter : Nat) : Except EmbedError Output × Nat :=
  let (result, after) := { call.clone with calls := counter }.embed call.cancelled call.texts
  (result, after.calls)

/-- The same of calls made one after another. -/
def runCalls (counter : Nat) : List Call → List (Except EmbedError Output × Nat)
  | [] => []
  | call :: rest => call.run counter :: runCalls (call.run counter).2 rest

/-- What is said of the result of a call. -/
structure Call.Gives (call : Call) (result : Except EmbedError Output) : Prop where
  cancelled : call.cancelled = true → result = .error .cancelled
  answered : call.cancelled = false →
    ∃ output, result = .ok output ∧ Answers call.clone call.texts output

/-- A call counts, cancelled or not. -/
theorem Call.run_counter (call : Call) (counter : Nat) : (call.run counter).2 = counter + 1 := by
  obtain ⟨clone, cancelled, texts⟩ := call
  cases cancelled with
  | true => rfl
  | false => rfl

/-- The counter does not change what a call gives. -/
theorem Call.run_gives {call : Call} (counter : Nat)
    (hLength : (call.texts.map String.length).sum < 2 ^ 64) :
    call.Gives (call.run counter).1 := by
  obtain ⟨clone, cancelled, texts⟩ := call
  constructor
  · rintro rfl
    rfl
  · rintro rfl
    have h := @collect_answers { clone with calls := counter } texts hLength
    exact ⟨_, rfl, ⟨h.length, h.vectors, h.numbers, h.failures, h.ranges, h.messages⟩⟩

/-- **Calls are counted and answered place by place**, whatever calls were made
before them: after `number` others, a call leaves the counter one higher. -/
theorem runCalls_answers :
    ∀ (counter : Nat) (calls : List Call),
      (∀ call ∈ calls, (call.texts.map String.length).sum < 2 ^ 64) →
      (runCalls counter calls).length = calls.length ∧
        ∀ number call, calls[number]? = some call →
          ∃ result, (runCalls counter calls)[number]? = some (result, counter + number + 1) ∧
            call.Gives result := by
  intro counter calls
  induction calls generalizing counter with
  | nil => exact fun _ => ⟨rfl, fun number call hCall => by cases hCall⟩
  | cons first rest ih =>
      intro hLength
      have hNext := ih (counter + 1) fun call hCall => hLength call (List.mem_cons_of_mem _ hCall)
      rw [runCalls, first.run_counter]
      refine ⟨by rw [List.length_cons, hNext.1, List.length_cons], ?_⟩
      intro number call hCall
      cases number with
      | zero =>
          obtain rfl : first = call := Option.some.inj hCall
          refine ⟨(first.run counter).1, ?_, first.run_gives counter (hLength _ List.mem_cons_self)⟩
          rw [Nat.add_zero, ← first.run_counter counter]
          rfl
      | succ number =>
          obtain ⟨result, hResult, hGives⟩ := hNext.2 number call hCall
          refine ⟨result, ?_, hGives⟩
          rw [show counter + (number + 1) + 1 = counter + 1 + number + 1 by omega]
          exact hResult

/-- Calls of an embedder and two clones of it, of which the second is cancelled
and the third has batches of one text and vectors without components. -/
def mixedCalls : List Call :=
  [⟨⟨2, 2, [1, 7], 0⟩, false, ["a", "b", "c"]⟩, ⟨⟨2, 2, [], 0⟩, true, ["a"]⟩,
    ⟨⟨0, 0, [1], 0⟩, false, ["a", "b"]⟩]

theorem runCalls_mixed :
    (∀ call ∈ mixedCalls, (call.texts.map String.length).sum < 2 ^ 64) ∧
      (runCalls 0 mixedCalls)[1]? = some (.error .cancelled, 2) ∧
      ∃ output, (runCalls 0 mixedCalls)[2]? = some (.ok output, 3) ∧
        output.vectors[0]? = some (some []) ∧ output.vectors[1]? = some none := by
  have hLength : ∀ call ∈ mixedCalls, (call.texts.map String.length).sum < 2 ^ 64 := by decide
  have hCalls := (runCalls_answers 0 mixedCalls hLength).2
  refine ⟨hLength, ?_, ?_⟩
  · obtain ⟨result, hResult, hGives⟩ := hCalls 1 _ rfl
    rw [hResult, hGives.cancelled rfl]
  · obtain ⟨result, hResult, hGives⟩ := hCalls 2 _ rfl
    obtain ⟨output, rfl, hAnswers⟩ := hGives.answered rfl
    exact ⟨output, hResult, hAnswers.vectors 0 "a" rfl, hAnswers.vectors 1 "b" rfl⟩

end Mock

end SourceIndex.Embedding
