import SourceIndex.Proofs.Json.Documents
import SourceIndex.Run.Error
import SourceIndex.Run.Record

/-!
# Records are sound

All that a run prints is made of texts, counts, flags, lists and records, and
of the components of vectors, which are decimals or null.  So every record is a
sound value, whatever the run has found.

## Main results

* `RunResult.sound_record` — results are sound.
* `RunError.sound_payload` — so are errors.
-/

namespace SourceIndex

namespace Json

/-! ## Parts of records -/

/-- Members whose values are sound. -/
def SoundMembers (members : List (String × Json)) : Prop := ∀ member ∈ members, Sound member.2

variable {key : String} {value : Json} {members more : List (String × Json)}

@[simp]
theorem soundMembers_nil : SoundMembers [] := nofun

@[simp]
theorem soundMembers_cons : SoundMembers ((key, value) :: members) ↔
    Sound value ∧ SoundMembers members :=
  List.forall_mem_cons

@[simp]
theorem soundMembers_append :
    SoundMembers (members ++ more) ↔ SoundMembers members ∧ SoundMembers more :=
  List.forall_mem_append

@[simp]
theorem soundMembers_member? {value : Option Json} :
    SoundMembers (member? key value) ↔ ∀ present ∈ value, Sound present := by
  cases value with
  | none => exact ⟨fun _ => nofun, fun _ => nofun⟩
  | some present => simp [member?]

@[simp]
theorem sound_text (value : String) : Sound (text value) := .text value

@[simp]
theorem sound_bool (value : Bool) : Sound (bool value) := .bool value

@[simp]
theorem sound_nat (n : Nat) : Sound (nat n) := .number (Number.sound_ofNat n)

theorem sound_array_map {α : Type} {items : List α} {f : α → Json}
    (h : ∀ item ∈ items, Sound (f item)) : Sound (array (items.map f)) := by
  refine .array fun item hItem => ?_
  obtain ⟨source, hSource, rfl⟩ := List.mem_map.mp hItem
  exact h source hSource

@[simp]
theorem sound_texts (values : List String) : Sound (texts values) :=
  sound_array_map fun value _ => sound_text value

/-- A component of a vector is a decimal or null. -/
@[simp]
theorem sound_float32 (x : Float32) : Sound (float32 x) := by
  rw [float32]
  split
  · next hDecimal => exact .number (Number.sound_ofDecimal (Decimal.ofBits?_zero hDecimal))
  · exact .null

theorem sound_record_map {α : Type} {items : List (String × α)} {f : α → Json}
    (h : ∀ item ∈ items, Sound (f item.2)) :
    Sound (record (items.map fun (key, value) => (key, f value))) := by
  refine .record fun member hMember => ?_
  obtain ⟨source, hSource, rfl⟩ := List.mem_map.mp hMember
  exact h source hSource

end Json

open Json

/-! ## Records of a run -/

@[simp]
theorem Span.sound_record (span : Span) : Sound span.record :=
  .record (show SoundMembers _ by simp)

theorem Chunk.sound_record (chunk : Chunk) : Sound chunk.record := by
  have hLines : Sound
      (.record [("start", .nat chunk.lines.first), ("end", .nat chunk.lines.last)]) :=
    .record (show SoundMembers _ by simp)
  have hSpans : Sound (.array (chunk.spans.map (·.record))) :=
    sound_array_map fun span _ => span.sound_record
  exact .record (show SoundMembers _ by simp [hLines, hSpans])

theorem SoftFailure.sound_record (failure : SoftFailure) : Sound failure.record :=
  .record (show SoundMembers _ by simp)

theorem SkippedFile.sound_record (file : SkippedFile) : Sound file.record :=
  .record (show SoundMembers _ by simp)

@[simp]
theorem EmbeddingSummary.sound_record (summary : EmbeddingSummary) : Sound summary.record := by
  have hDimension : Sound (.orNull (summary.dimension.map .nat)) := by
    cases summary.dimension with
    | none => exact .null
    | some dimension => exact sound_nat dimension
  exact .record (show SoundMembers _ by simp [hDimension])

theorem Metadata.sound_record (metadata : Metadata) : Sound metadata.record := by
  have hFailures : ∀ failures : List SoftFailure, Sound (.array (failures.map (·.record))) :=
    fun failures => sound_array_map fun failure _ => failure.sound_record
  have hSkipped : Sound (.array (metadata.skippedFiles.map (·.record))) :=
    sound_array_map fun file _ => file.sound_record
  have hLanguages := sound_record_map fun entry (_ : entry ∈ metadata.languageBreakdown) =>
    sound_nat entry.2
  exact .record (show SoundMembers _ by simp [hFailures, hSkipped, hLanguages])

theorem ChunkEmbedding.sound_record (embedding : ChunkEmbedding) : Sound embedding.record := by
  have hValues : Sound (Embedding.Components.record embedding.values) :=
    sound_array_map fun value _ => sound_float32 value
  exact .record (show SoundMembers _ by simp [hValues])

/-- **Results are sound.** -/
theorem RunResult.sound_record (result : RunResult) : Sound result.record := by
  have hChunks : Sound (.array (result.chunks.map (·.record))) :=
    sound_array_map fun chunk _ => chunk.sound_record
  have hEmbeddings := sound_record_map fun entry (_ : entry ∈ result.embeddings) =>
    entry.2.sound_record
  exact .record (show SoundMembers _ by simp [hChunks, hEmbeddings, result.metadata.sound_record])

/-- **So are errors.** -/
theorem RunError.sound_payload (error : RunError) : Sound error.payload :=
  .record (show SoundMembers _ by simp)

end SourceIndex
