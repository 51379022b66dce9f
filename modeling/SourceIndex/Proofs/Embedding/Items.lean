import SourceIndex.Proofs.Embedding.Reply
import SourceIndex.Proofs.Json.Given
import SourceIndex.Proofs.Json.Texts
import SourceIndex.Proofs.Run.Validation

/-!
# What a reply lists

The body of a reply is a text, and what it lists is said here by the value that
the text spells: a list under the name `data`, whose entries have an index and
numbers.  Nothing of it depends on how these are taken from the value, on the
order of members or on members under other names.

Every body that lists items is read as these items, and no other body is read.

## Main results

* `readItems_eq_ok_iff` — which bodies are read, and as what.
-/

namespace SourceIndex.Embedding.OpenAi

open Json (IsText)
open Json.Record (Gives decoder_eq_ok_iff demanding_pure demanding_required lawful_pure
  lawful_required required_assemble_eq_ok_iff seq_assemble_eq_ok_iff)

/-- A component as it is written: a number, which is rounded to 32 bits. -/
def IsComponent (json : Json) (component : Float32) : Prop :=
  ∃ number scalar, json = .number number ∧ number.scalar? = some scalar ∧
    scalar.toFloat32 = component

/-- An item as it is written: its index and the components of its vector. -/
def IsItem (json : Json) (item : Item) : Prop :=
  ∃ index components, Gives ["index", "embedding"] [.number index, .array components] json ∧
    index.scalar? = some (.natural item.index) ∧
    List.Forall₂ IsComponent components item.embedding

/-- A list of items as it is written. -/
def IsData (json : Json) (items : List Item) : Prop :=
  ∃ entries, Gives ["data"] [.array entries] json ∧ List.Forall₂ IsItem entries items

/-- A body that lists items: as a text, it spells them. -/
def Lists (body : List UInt8) (items : List Item) : Prop :=
  ∃ json, IsText (Utf8.decodeLossy body) json ∧ IsData json items

/-! ## Values of a reply -/

section Values

variable {json : Json} {item : Item} {items : List Item} {body : List UInt8}

/-- Which values are read as a vector. -/
theorem list_float32_eq_ok_iff {vector : Components} :
    Json.Decoder.list Json.Decoder.float32 json = .ok vector ↔
      ∃ components, json = .array components ∧ List.Forall₂ IsComponent components vector := by
  rw [Json.Decoder.list_eq_ok_iff]
  simp only [Json.Decoder.float32_eq_ok_iff]
  rfl

theorem lawful_itemRecord : itemRecord.Lawful :=
  ((lawful_pure Item.mk).seq (lawful_required _ _)).seq (lawful_required _ _)

theorem demanding_itemRecord : itemRecord.Demanding :=
  ((demanding_pure Item.mk).seq (demanding_required _ _)).seq (demanding_required _ _)

/-- An item is put together of its index and its vector. -/
theorem assemble_item_eq_ok_iff {missing : String → Json.DecodeError} {index vector : Json} :
    itemRecord.assemble missing [("index", index), ("embedding", vector)] = .ok item ↔
      Json.Decoder.nat "usize" index = .ok item.index ∧
        Json.Decoder.list Json.Decoder.float32 vector = .ok item.embedding := by
  rw [itemRecord, seq_assemble_eq_ok_iff]
  simp only [seq_assemble_eq_ok_iff, required_assemble_eq_ok_iff]
  constructor
  · rintro ⟨_, _, ⟨_, _, ⟨⟩, ⟨_, ⟨⟩, hIndex⟩, rfl⟩, ⟨_, ⟨⟩, hVector⟩, rfl⟩
    exact ⟨hIndex, hVector⟩
  · rintro ⟨hIndex, hVector⟩
    exact ⟨_, _, ⟨_, _, rfl, ⟨_, rfl, hIndex⟩, rfl⟩, ⟨_, rfl, hVector⟩, rfl⟩

/-- Which values are read as an item. -/
theorem decoder_item_eq_ok_iff :
    itemRecord.decoder "EmbeddingData" json = .ok item ↔ IsItem json item := by
  rw [decoder_eq_ok_iff lawful_itemRecord demanding_itemRecord (by decide)]
  constructor
  · rintro ⟨values, hLength, hGives, hAssemble⟩
    obtain ⟨index, vector, rfl⟩ := List.length_eq_two.mp hLength.symm
    obtain ⟨hIndex, hVector⟩ := assemble_item_eq_ok_iff.mp hAssemble
    obtain ⟨number, rfl, hNumber⟩ := Json.Decoder.nat_eq_ok_iff.mp hIndex
    obtain ⟨components, rfl, hComponents⟩ := list_float32_eq_ok_iff.mp hVector
    exact ⟨number, components, hGives, hNumber, hComponents⟩
  · rintro ⟨number, components, hGives, hNumber, hComponents⟩
    refine ⟨[.number number, .array components], rfl, hGives, assemble_item_eq_ok_iff.mpr ⟨?_, ?_⟩⟩
    · exact Json.Decoder.nat_eq_ok_iff.mpr ⟨number, rfl, hNumber⟩
    · exact list_float32_eq_ok_iff.mpr ⟨components, rfl, hComponents⟩

/-- Which values are read as a list of items. -/
theorem decoder_items_eq_ok_iff :
    itemsRecord.decoder "EmbeddingResponse" json = .ok items ↔ IsData json items := by
  have hEntries : ∀ value,
      Json.Decoder.list (itemRecord.decoder "EmbeddingData") value = .ok items ↔
        ∃ entries, value = .array entries ∧ List.Forall₂ IsItem entries items := by
    intro value
    rw [Json.Decoder.list_eq_ok_iff]
    simp only [decoder_item_eq_ok_iff]
  rw [itemsRecord,
    decoder_eq_ok_iff (lawful_required _ _) (demanding_required _ _) (List.nodup_singleton _)]
  constructor
  · rintro ⟨values, hLength, hGives, hAssemble⟩
    obtain ⟨value, rfl⟩ := List.length_eq_one_iff.mp hLength.symm
    obtain ⟨_, ⟨⟩, hValue⟩ := required_assemble_eq_ok_iff.mp hAssemble
    obtain ⟨entries, rfl, hItems⟩ := (hEntries value).mp hValue
    exact ⟨entries, hGives, hItems⟩
  · rintro ⟨entries, hGives, hItems⟩
    refine ⟨[.array entries], rfl, hGives, required_assemble_eq_ok_iff.mpr ⟨_, rfl, ?_⟩⟩
    exact (hEntries _).mpr ⟨entries, rfl, hItems⟩

/-! ## Bodies -/

theorem skipFault?_vector {components : List Json} {vector : Components}
    (h : List.Forall₂ IsComponent components vector) :
    (Json.array components).skipFault? = none := by
  refine Json.skipFaultOfItems?_eq_none_iff.mpr fun json hJson => ?_
  obtain ⟨_, _, number, _, rfl, _, _⟩ := Pairing.exists_right h hJson
  rfl

theorem IsItem.faultless (h : IsItem json item) : json.skipFault? = none := by
  obtain ⟨index, components, hGives, -, hComponents⟩ := h
  exact hGives.faultless (List.forall_mem_cons.mpr
    ⟨rfl, List.forall_mem_singleton.mpr (skipFault?_vector hComponents)⟩)

theorem IsData.faultless (h : IsData json items) : json.skipFault? = none := by
  obtain ⟨entries, hGives, hItems⟩ := h
  refine hGives.faultless (List.forall_mem_singleton.mpr ?_)
  refine Json.skipFaultOfItems?_eq_none_iff.mpr fun entry hEntry => ?_
  obtain ⟨item, -, hItem⟩ := Pairing.exists_right hItems hEntry
  exact hItem.faultless

/-- **Which bodies are read, and as what.** -/
theorem readItems_eq_ok_iff : readItems body = .ok items ↔ Lists body items := by
  have hDecode : ∀ document : Json.Document,
      document.decode (itemsRecord.decoder "EmbeddingResponse") = .ok items ↔
        IsData document.value items ∧ document.trailing = false := by
    rintro ⟨value, trailing⟩
    rw [← decoder_items_eq_ok_iff, Json.Document.decode]
    dsimp only
    cases itemsRecord.decoder "EmbeddingResponse" value with
    | error fault => exact ⟨nofun, fun h => nomatch h.1⟩
    | ok found =>
        cases trailing with
        | true => exact ⟨nofun, fun h => nomatch h.2⟩
        | false => exact (and_iff_left rfl).symm
  rw [readItems, RunPlan.mapError_eq_ok_iff, hDecode]
  constructor
  · rintro ⟨hData, hTrailing⟩
    refine ⟨_, ⟨hData.faultless, ?_⟩, hData⟩
    rw [← hTrailing]
  · rintro ⟨json, ⟨-, hDocument⟩, hData⟩
    rw [hDocument]
    exact ⟨hData, rfl⟩

/-- Items that are written are listed. -/
theorem IsData.lists_render (h : IsData json items) (hSound : json.Sound) :
    Lists (Utf8.bytes json.render) items := by
  refine ⟨json, ?_, h⟩
  rw [Utf8.decodeLossy_bytes]
  exact hSound.isText

end Values

end SourceIndex.Embedding.OpenAi
