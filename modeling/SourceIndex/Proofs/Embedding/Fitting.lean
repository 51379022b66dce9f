import SourceIndex.Proofs.Embedding.Faithful
import SourceIndex.Proofs.Embedding.Items
import SourceIndex.Proofs.Sorting

/-!
# Replies that fit their batch

A reply may list the vectors of its batch in any order; `Lists` says of its body
which items it lists.  It is used when its items are one for each text, numbered
like the texts, with vectors of one dimension; each vector then goes to the text
with the number of its item.  That sorted indexes are compared with the positions
of the texts is how this is checked: a strictly growing list is determined by its
members, so the comparison fails for every index that is missing, repeated or out
of range.

Of a reply that does not fit, nothing is used.  Its batch fails without ending
the embedding, the places of its texts stay empty, and every vector of the
output is one that another batch returned for that place.

## Main results

* `arrange_eq_ok_iff_fits` — which replies are used, and where their vectors go.
* `Output.absent_of_error`, `Output.exists_of_present` — where the vectors of an
  output come from.
* `embedBatch_fitting` — both for a batch and a reply to it.
-/

namespace SourceIndex.Embedding

/-! ## Places of the output -/

namespace Output

variable {stop batch : Nat} {dimension : Option Nat} {range : Range}

/-- The places of a batch that failed are empty. -/
theorem absent_of_error {message : String} {results : List (Range × BatchResult)} :
    ∀ {start batch : Nat} {dimension : Option Nat}, Sized start stop results →
      (range, .error message) ∈ results →
      ∀ place, range.Holds (start + place) →
        (collectFrom batch dimension results).vectors[place]? = some none := by
  induction results with
  | nil =>
      intro start batch dimension _ hMem
      cases hMem
  | cons result rest ih =>
      intro start batch dimension h hMem place hHolds
      obtain ⟨first, result⟩ := result
      obtain ⟨hStart, hSize, hRest⟩ := h.uncons
      rcases List.mem_cons.mp hMem with hHere | hLater
      · obtain ⟨rfl, rfl⟩ := Prod.mk.inj hHere
        have hPlace : place < range.stop - range.start := by
          have hStop := hHolds.2
          omega
        rw [collectFrom_error rfl, getElem?_places_left hPlace, places_nil,
          List.getElem?_replicate_of_lt hPlace]
      · -- A later batch starts where this one ends, or behind it.
        have hFrom : first.stop ≤ range.start :=
          hRest.tiles.start_le (List.mem_map.mpr ⟨_, hLater, rfl⟩)
        have hBehind : ¬ place < first.stop - first.start := by
          have hHold := hHolds.1
          omega
        have hShift : first.stop + (place - (first.stop - first.start)) = start + place := by omega
        have hNext := fun {batch dimension} => @ih first.stop batch dimension hRest hLater
          (place - (first.stop - first.start)) (by rwa [hShift])
        cases hResult : result.bind (checkDimension dimension) with
        | ok vectors => rw [collectFrom_ok hResult, getElem?_places_right hBehind, hNext]
        | error found => rw [collectFrom_error hResult, getElem?_places_right hBehind, hNext]

/-- A vector of the output is the one that the batch of its place returned for
it. -/
theorem exists_of_present {vector : Components} {results : List (Range × BatchResult)} :
    ∀ {start batch : Nat} {dimension : Option Nat}, Sized start stop results →
      ∀ place, (collectFrom batch dimension results).vectors[place]? = some (some vector) →
        ∃ range vectors, (range, .ok vectors) ∈ results ∧ range.Holds (start + place) ∧
          vectors[start + place - range.start]? = some vector := by
  induction results with
  | nil =>
      intro start batch dimension _ place hPresent
      cases hPresent
  | cons result rest ih =>
      intro start batch dimension h place hPresent
      obtain ⟨first, result⟩ := result
      obtain ⟨hStart, hSize, hRest⟩ := h.uncons
      have hLater : ∀ {batch : Nat} {dimension : Option Nat},
          ¬ place < first.stop - first.start →
          (collectFrom batch dimension rest).vectors[place - (first.stop - first.start)]? =
            some (some vector) →
          ∃ range vectors, (range, .ok vectors) ∈ (first, result) :: rest ∧
            range.Holds (start + place) ∧ vectors[start + place - range.start]? = some vector := by
        intro batch dimension hBehind hVector
        obtain ⟨range, vectors, hMem, hHolds, hOwn⟩ := ih hRest _ hVector
        have hShift : first.stop + (place - (first.stop - first.start)) = start + place := by omega
        rw [hShift] at hHolds hOwn
        exact ⟨range, vectors, List.mem_cons_of_mem _ hMem, hHolds, hOwn⟩
      cases hResult : result.bind (checkDimension dimension) with
      | ok vectors =>
          rw [collectFrom_ok hResult] at hPresent
          dsimp only at hPresent
          by_cases hHere : place < first.stop - first.start
          · obtain ⟨rfl, -⟩ := accepted hResult
            rw [getElem?_places_left hHere, places_filled (length_of_accepted h hResult),
              List.getElem?_map] at hPresent
            obtain ⟨found, hFound, hSame⟩ := Option.map_eq_some_iff.mp hPresent
            obtain rfl : found = vector := Option.some.inj hSame
            have hPlace : start + place - first.start = place := by omega
            refine ⟨first, vectors, List.mem_cons_self, ⟨by omega, by omega⟩, ?_⟩
            rw [hPlace, hFound]
          · rw [getElem?_places_right hHere] at hPresent
            exact hLater hHere hPresent
      | error message =>
          rw [collectFrom_error hResult] at hPresent
          dsimp only at hPresent
          by_cases hHere : place < first.stop - first.start
          · rw [getElem?_places_left hHere, places_nil,
              List.getElem?_replicate_of_lt hHere] at hPresent
            cases hPresent
          · rw [getElem?_places_right hHere] at hPresent
            exact hLater hHere hPresent

end Output

namespace OpenAi

open Http Http.Online

/-! ## Items that fit -/

/-- The items of a reply fit a batch of `count` texts: there is one for each of
them, in whatever order, and all vectors have the dimension of one of them,
which is not zero. -/
structure Fits (count : Nat) (items : List Item) : Prop where
  length : items.length = count
  indexes : (items.map (·.index)).Perm (List.range count)
  dimension : ∃ first ∈ items, first.embedding.length ≠ 0 ∧
    ∀ item ∈ items, item.embedding.length = first.embedding.length

/-- Vectors in the order of the texts: each item's is at the item's index. -/
structure Placed (items : List Item) (vectors : List Components) : Prop where
  length : vectors.length = items.length
  placed : ∀ item ∈ items, vectors[item.index]? = some item.embedding

section Items

variable {count : Nat} {items : List Item} {vectors : List Components}

theorem ordered_perm (items : List Item) : (ordered items).Perm items :=
  List.mergeSort_perm items _

/-- **Sorted indexes are the positions of the texts** exactly when each position
is the index of one item. -/
theorem indexes_ordered_iff :
    (ordered items).map (·.index) = List.range count ↔
      (items.map (·.index)).Perm (List.range count) := by
  have hPerm : ((ordered items).map (·.index)).Perm (items.map (·.index)) :=
    (ordered_perm items).map _
  constructor
  · intro hSame
    rw [← hSame]
    exact hPerm.symm
  · intro hRange
    have hSorted : ((ordered items).map (·.index)).Pairwise (· ≤ ·) :=
      List.pairwise_map.mpr (Sorting.pairwise_sortBy (·.index) items)
    refine List.Perm.eq_of_pairwise ?_ hSorted (List.pairwise_lt_range.imp Nat.le_of_lt)
      (hPerm.trans hRange)
    intro a b _ _ hab hba
    omega

/-- In sorted items each stands at its index. -/
theorem index_of_getElem? (hIndexes : (ordered items).map (·.index) = List.range count)
    {item : Item} {place : Nat} (h : (ordered items)[place]? = some item) :
    item.index = place := by
  have hIndex : ((ordered items).map (·.index))[place]? = some item.index := by
    rw [List.getElem?_map, h]
    rfl
  rw [hIndexes] at hIndex
  obtain ⟨hPlace, hSame⟩ := List.getElem?_eq_some_iff.mp hIndex
  rw [← hSame, List.getElem_range]

/-- The vectors of sorted items are the only ones in the order of the texts. -/
theorem placed_iff (hIndexes : (ordered items).map (·.index) = List.range count) :
    Placed items vectors ↔ (ordered items).map (·.embedding) = vectors := by
  have hLength : ((ordered items).map (·.embedding)).length = items.length := by
    rw [List.length_map, (ordered_perm items).length_eq]
  constructor
  · intro h
    apply List.ext_getElem?
    intro place
    rw [List.getElem?_map]
    cases hItem : (ordered items)[place]? with
    | none =>
        have hEnd := List.getElem?_eq_none_iff.mp hItem
        rw [(ordered_perm items).length_eq, ← h.length] at hEnd
        rw [List.getElem?_eq_none hEnd]
        rfl
    | some item =>
        have hMem := (ordered_perm items).mem_iff.mp (List.mem_of_getElem? hItem)
        rw [← index_of_getElem? hIndexes hItem, h.placed item hMem]
        rfl
  · rintro rfl
    refine ⟨hLength, fun item hItem => ?_⟩
    obtain ⟨place, hPlace⟩ := List.mem_iff_getElem?.mp ((ordered_perm items).mem_iff.mpr hItem)
    rw [index_of_getElem? hIndexes hPlace, List.getElem?_map, hPlace]
    rfl

/-- One dimension other than zero, told by the first vector or by any of the
items. -/
theorem dimension_iff :
    (firstDimension ((ordered items).map (·.embedding)) ≠ 0 ∧
        ∀ vector ∈ (ordered items).map (·.embedding),
          vector.length = firstDimension ((ordered items).map (·.embedding))) ↔
      ∃ first ∈ items, first.embedding.length ≠ 0 ∧
        ∀ item ∈ items, item.embedding.length = first.embedding.length := by
  have hMem : ∀ {item : Item}, item ∈ ordered items ↔ item ∈ items :=
    (ordered_perm items).mem_iff
  cases hOrdered : ordered items with
  | nil =>
      have hNone : items = [] := (hOrdered ▸ ordered_perm items).symm.eq_nil
      simp [hNone, firstDimension]
  | cons first rest =>
      have hFirst : firstDimension ((first :: rest).map (·.embedding)) = first.embedding.length :=
        rfl
      rw [hOrdered] at hMem
      rw [hFirst]
      constructor
      · rintro ⟨hNonzero, hUniform⟩
        refine ⟨first, hMem.mp List.mem_cons_self, hNonzero, fun item hItem => ?_⟩
        exact hUniform _ (List.mem_map_of_mem (hMem.mpr hItem))
      · rintro ⟨other, _, hNonzero, hUniform⟩
        have hSame := hUniform first (hMem.mp List.mem_cons_self)
        rw [hSame]
        refine ⟨hNonzero, fun vector hVector => ?_⟩
        obtain ⟨item, hItem, rfl⟩ := List.mem_map.mp hVector
        exact hUniform item (hMem.mp hItem)

/-- **Which replies are used, and where their vectors go.** -/
theorem arrange_eq_ok_iff_fits :
    arrange count items = .ok vectors ↔ Fits count items ∧ Placed items vectors := by
  rw [arrange_eq_ok_iff]
  constructor
  · rintro ⟨hLength, hIndexes, rfl, hDimension⟩
    exact ⟨⟨hLength, indexes_ordered_iff.mp hIndexes, dimension_iff.mp hDimension⟩,
      (placed_iff hIndexes).mpr rfl⟩
  · rintro ⟨hFits, hPlaced⟩
    have hIndexes := indexes_ordered_iff.mpr hFits.indexes
    obtain rfl := (placed_iff hIndexes).mp hPlaced
    exact ⟨hFits.length, hIndexes, rfl, dimension_iff.mpr hFits.dimension⟩

/-- Items that fit have an order. -/
theorem Fits.exists_placed (h : Fits count items) : ∃ vectors, Placed items vectors :=
  ⟨_, (placed_iff (indexes_ordered_iff.mpr h.indexes)).mpr rfl⟩

end Items

/-! ## The batch of a reply -/

/-- A reply lists items that fit a batch of `count` texts. -/
def ReadsFitting (count : Nat) (reply : Reply) (items : List Item) : Prop :=
  Lists reply.body items ∧ Fits count items

/-- While some texts are embedded, from the session `begin` on, one of their
batches is asked for in the given session. -/
def Reaches (service : OpenAi) (world : World) (texts : List String) (begin : Session)
    (range : Range) (session : Session) : Prop :=
  ∃ earlier later, service.batches (service.inputs texts) = earlier ++ range :: later ∧
    session = ((service.embedBatches world (service.inputs texts) earlier).run begin).2

section Batch

variable {service : OpenAi} {world : World} {texts : List String} {session begin : Session}
  {reply : Reply} {range : Range}

/-- What comes of a final reply that is a success. -/
theorem embedBatch_of_ask (hReply : ((service.ask world texts).run session).1 = .ok reply)
    (hSuccess : reply.status.isSuccess = true) :
    ((service.embedBatch world texts).run session).1 =
      (readItems reply.body).bind (arrange texts.length) := by
  rw [embedBatch_run, hReply]
  exact if_pos hSuccess

theorem embedBatch_eq_ok_iff (hReply : ((service.ask world texts).run session).1 = .ok reply)
    (hSuccess : reply.status.isSuccess = true) (vectors : List Components) :
    ((service.embedBatch world texts).run session).1 = .ok vectors ↔
      ∃ items, ReadsFitting texts.length reply items ∧ Placed items vectors := by
  rw [embedBatch_of_ask hReply hSuccess]
  cases hItems : readItems reply.body with
  | error error =>
      constructor
      · exact fun h => by cases h
      · rintro ⟨items, ⟨hLists, _⟩, _⟩
        rw [readItems_eq_ok_iff.mpr hLists] at hItems
        cases hItems
  | ok items =>
      have hArrange : (Except.ok items : Except EmbedError (List Item)).bind
          (arrange texts.length) = arrange texts.length items := rfl
      rw [hArrange, arrange_eq_ok_iff_fits]
      constructor
      · exact fun h => ⟨items, ⟨readItems_eq_ok_iff.mp hItems, h.1⟩, h.2⟩
      · rintro ⟨other, ⟨hLists, hFits⟩, hPlaced⟩
        rw [readItems_eq_ok_iff.mpr hLists] at hItems
        cases hItems
        exact ⟨hFits, hPlaced⟩

/-- A batch whose final reply does not fit fails, and not the embedding with
it. -/
theorem embedBatch_unfitting (hReply : ((service.ask world texts).run session).1 = .ok reply)
    (hSuccess : reply.status.isSuccess = true)
    (hUnfit : ∀ items, ¬ ReadsFitting texts.length reply items) :
    ∃ error, ((service.embedBatch world texts).run session).1 = .error error ∧
      error.isFatal = false := by
  have hRead : ((service.embedBatch world texts).run session).1 = read texts.length reply := by
    rw [embedBatch_run, hReply]
  cases hResult : ((service.embedBatch world texts).run session).1 with
  | ok vectors =>
      obtain ⟨items, hFits, _⟩ := (embedBatch_eq_ok_iff hReply hSuccess vectors).mp hResult
      exact absurd hFits (hUnfit items)
  | error error =>
      rw [hResult] at hRead
      exact ⟨error, rfl, read_soft hRead.symm⟩

/-- The result of a batch is among those of all batches. -/
theorem mem_embedBatches (inputs : List String) (earlier later : List Range) :
    ∀ begin : Session,
      (range, ((service.embedBatch world (range.pick inputs)).run
          ((service.embedBatches world inputs earlier).run begin).2).1) ∈
        ((service.embedBatches world inputs (earlier ++ range :: later)).run begin).1 := by
  induction earlier with
  | nil =>
      intro begin
      have hNone : (service.embedBatches world inputs []).run begin = ([], begin) := by
        rw [embedBatches]
        rfl
      rw [List.nil_append, embedBatches_cons, hNone]
      exact List.mem_cons_self
  | cons first earlier ih =>
      intro begin
      rw [List.cons_append, embedBatches_cons, embedBatches_cons]
      exact List.mem_cons_of_mem _ (ih _)

theorem Reaches.mem_results (h : Reaches service world texts begin range session) :
    (range, ((service.embedBatch world (range.pick (service.inputs texts))).run session).1) ∈
      service.results world texts begin := by
  obtain ⟨earlier, later, hBatches, rfl⟩ := h
  rw [results, hBatches]
  exact mem_embedBatches (service.inputs texts) earlier later begin

/-- An output is collected from the results of its batches. -/
theorem output_eq_collect {output : Output}
    (h : ((service.embed world texts).run begin).1 = .ok output) :
    output = Output.collect ((service.results world texts begin).map worded) := by
  rw [embed_run] at h
  rcases mapM_soften (service.results world texts begin) with ⟨_, error, _, _, hError⟩ | hOk
  · rw [hError] at h
    cases h
  · rw [hOk] at h
    exact (Except.ok.inj h).symm

/-- The results of the planned batches have a vector for each text, or none. -/
theorem results_sized (service : OpenAi) (world : World) (texts : List String)
    (begin : Session) : Sized 0 texts.length ((service.results world texts begin).map worded) := by
  have hBatched := worded_batched (service.results_ranges world texts begin)
    (service.results_ends world texts begin)
  rw [List.length_map, inputs, List.length_map] at hBatched
  exact hBatched.sized

/-- The texts of a batch that failed get no vectors, and the vectors of the
others are those that their own batches returned. -/
theorem Reaches.unused {error : EmbedError} {output : Output}
    (h : Reaches service world texts begin range session)
    (hFailed : ((service.embedBatch world (range.pick (service.inputs texts))).run session).1 =
      .error error)
    (hOutput : ((service.embed world texts).run begin).1 = .ok output) :
    (∀ place, range.Holds place → output.vectors[place]? = some none) ∧
      ∀ place vector, output.vectors[place]? = some (some vector) →
        ∃ other vectors, (other, .ok vectors) ∈ service.results world texts begin ∧
          other ≠ range ∧ other.Holds place ∧ vectors[place - other.start]? = some vector := by
  have hMem := h.mem_results
  rw [hFailed] at hMem
  have hSized := service.results_sized world texts begin
  have hAbsent : ∀ place, range.Holds place → output.vectors[place]? = some none := by
    intro place hHolds
    rw [output_eq_collect hOutput]
    refine Output.absent_of_error hSized (List.mem_map.mpr ⟨_, hMem, rfl⟩) place ?_
    rwa [Nat.zero_add]
  refine ⟨hAbsent, fun place vector hPresent => ?_⟩
  have hCollected := hPresent
  rw [output_eq_collect hOutput] at hCollected
  obtain ⟨other, vectors, hOther, hHolds, hVector⟩ :=
    Output.exists_of_present hSized place hCollected
  rw [Nat.zero_add] at hHolds hVector
  obtain ⟨⟨found, result⟩, hResult, hSame⟩ := List.mem_map.mp hOther
  refine ⟨other, vectors, ?_, ?_, hHolds, hVector⟩
  · cases result with
    | error _ => cases hSame
    | ok found =>
        cases hSame
        exact hResult
  · rintro rfl
    rw [hAbsent place hHolds] at hPresent
    cases hPresent

end Batch

/--
**A reply is used only if it fits its batch, and then item by item**: a batch
whose final reply is a success has the vectors of the reply, each at the index
of its item, if the reply lists items that fit, and it fails without ending the
embedding if it does not.  In every embedding in which such a batch is asked
for, its texts then get no vector, and each vector of the output is the one that
another batch returned for that text.
-/
theorem embedBatch_fitting (service : OpenAi) (world : World) (texts : List String)
    (session : Session) (reply : Reply)
    (hReply : ((service.ask world texts).run session).1 = .ok reply)
    (hSuccess : reply.status.isSuccess = true) :
    ((∃ vectors, ((service.embedBatch world texts).run session).1 = .ok vectors) ↔
        ∃ items, ReadsFitting texts.length reply items) ∧
      (∀ vectors, ((service.embedBatch world texts).run session).1 = .ok vectors ↔
        ∃ items, ReadsFitting texts.length reply items ∧ Placed items vectors) ∧
      ((∀ items, ¬ ReadsFitting texts.length reply items) →
        (∃ error, ((service.embedBatch world texts).run session).1 = .error error ∧
          error.isFatal = false) ∧
        ∀ whole begin range output, texts = range.pick (service.inputs whole) →
          Reaches service world whole begin range session →
          ((service.embed world whole).run begin).1 = .ok output →
          (∀ place, range.Holds place → output.vectors[place]? = some none) ∧
            ∀ place vector, output.vectors[place]? = some (some vector) →
              ∃ other vectors, (other, .ok vectors) ∈ service.results world whole begin ∧
                other ≠ range ∧ other.Holds place ∧
                vectors[place - other.start]? = some vector) := by
  have hUsed := embedBatch_eq_ok_iff hReply hSuccess
  refine ⟨⟨?_, ?_⟩, hUsed, ?_⟩
  · rintro ⟨vectors, hVectors⟩
    obtain ⟨items, hFits, _⟩ := (hUsed vectors).mp hVectors
    exact ⟨items, hFits⟩
  · rintro ⟨items, hFits⟩
    obtain ⟨vectors, hPlaced⟩ := hFits.2.exists_placed
    exact ⟨vectors, (hUsed vectors).mpr ⟨items, hFits, hPlaced⟩⟩
  · intro hUnfit
    obtain ⟨error, hFailed, hSoft⟩ := embedBatch_unfitting hReply hSuccess hUnfit
    refine ⟨⟨error, hFailed, hSoft⟩, ?_⟩
    rintro whole begin range output rfl hReaches hOutput
    exact hReaches.unused hFailed hOutput

/-! ### The second text first, and then the first or the second one again -/

namespace Answered

def service : OpenAi :=
  { base := "http://localhost", key := ⟨"k"⟩, model := "m", limits := .standard }

/-- An item as it may be written, with its index at the end. -/
def entry (index number : Nat) : Json :=
  .record [("embedding", .array [.nat number]), ("object", .text "embedding"),
    ("index", .nat index)]

/-- A list of two items, of which the first is that of the second text. -/
def data (index : Nat) : Json :=
  .record [("model", .text "m"), ("data", .array [entry 1 3, entry index 5])]

def reply (index : Nat) : Reply := { status := 200, body := Utf8.bytes (data index).render }

def world (index : Nat) : World :=
  { answer := fun _ _ => .reply ⟨200, []⟩ (reply index).body, interrupts := World.patient }

/-- A vector with one component. -/
def vector (number : Nat) : Components := [(UInt64.ofNat number).toFloat32]

theorem sound_entry (index number : Nat) : (entry index number).Sound := by
  have hNumber (n : Nat) : (Json.nat n).Sound := .number (Json.Number.sound_ofNat n)
  refine .record (List.forall_mem_cons.mpr ⟨?_, List.forall_mem_cons.mpr
    ⟨.text _, List.forall_mem_singleton.mpr (hNumber index)⟩⟩)
  exact .array (List.forall_mem_singleton.mpr (hNumber number))

theorem sound_data (index : Nat) : (data index).Sound := by
  have hEntries : ∀ item ∈ [entry 1 3, entry index 5], item.Sound :=
    List.forall_mem_cons.mpr ⟨sound_entry 1 3, List.forall_mem_singleton.mpr (sound_entry index 5)⟩
  exact .record (List.forall_mem_cons.mpr
    ⟨.text "m", List.forall_mem_singleton.mpr (.array hEntries)⟩)

theorem isItem_entry {index number : Nat} (hIndex : index ≤ Text.largest64)
    (hNumber : number ≤ Text.largest64) :
    IsItem (entry index number) ⟨index, vector number⟩ := by
  have hOthers : ∀ other ∈ [(Json.Literal.text "object", Json.text "embedding")],
      ∃ key, other.1 = .text key ∧ key ∉ ["index", "embedding"] ∧ other.2.skipFault? = none :=
    List.forall_mem_singleton.mpr ⟨"object", rfl, by decide, rfl⟩
  exact ⟨.ofNat index, [.nat number], .object (List.perm_append_singleton _ [_, _]) hOthers,
    Json.Number.scalar?_ofNat hIndex,
    .cons ⟨_, _, rfl, Json.Number.scalar?_ofNat hNumber, rfl⟩ .nil⟩

theorem lists {index : Nat} (hIndex : index ≤ Text.largest64) :
    Lists (reply index).body [⟨1, vector 3⟩, ⟨index, vector 5⟩] := by
  have hItems : List.Forall₂ IsItem [entry 1 3, entry index 5]
      [⟨1, vector 3⟩, ⟨index, vector 5⟩] :=
    .cons (isItem_entry (by decide) (by decide)) (.cons (isItem_entry hIndex (by decide)) .nil)
  have hOthers : ∀ other ∈ [(Json.Literal.text "model", Json.text "m")],
      ∃ key, other.1 = .text key ∧ key ∉ ["data"] ∧ other.2.skipFault? = none :=
    List.forall_mem_singleton.mpr ⟨"model", rfl, by decide, rfl⟩
  have hData : IsData (data index) [⟨1, vector 3⟩, ⟨index, vector 5⟩] :=
    ⟨_, .object (List.Perm.swap _ _ _) hOthers, hItems⟩
  dsimp only [reply]
  exact hData.lists_render (sound_data index)

theorem ask_reply {index : Nat} (h : index ∈ [0, 1]) :
    ((service.ask (world index) ["a", "b"]).run (.start false)).1 = .ok (reply index) := by
  have hAsk : ((service.ask (world index) ["a", "b"]).run (.start false)).1.toOption =
      some (reply index) := by
    revert index
    decide +kernel
  cases hResult : ((service.ask (world index) ["a", "b"]).run (.start false)).1 with
  | error error =>
      rw [hResult] at hAsk
      cases hAsk
  | ok found =>
      rw [hResult] at hAsk
      exact congrArg Except.ok (Option.some.inj hAsk)

/-- Items in another order than the texts fit. -/
theorem readsFitting : ReadsFitting 2 (reply 0) [⟨1, vector 3⟩, ⟨0, vector 5⟩] := by
  have hLength : ∀ item ∈ [Item.mk 1 (vector 3), Item.mk 0 (vector 5)], item.embedding.length = 1 :=
    List.forall_mem_cons.mpr ⟨rfl, List.forall_mem_singleton.mpr rfl⟩
  exact ⟨lists (Nat.zero_le _), rfl, by decide, ⟨1, vector 3⟩, List.mem_cons_self,
    Nat.one_ne_zero, hLength⟩

theorem placed : Placed [⟨1, vector 3⟩, ⟨0, vector 5⟩] [vector 5, vector 3] :=
  ⟨rfl, List.forall_mem_cons.mpr ⟨rfl, List.forall_mem_singleton.mpr rfl⟩⟩

/-- Two items for one text do not. -/
theorem unfitting : ∀ items, ¬ ReadsFitting 2 (reply 1) items := by
  rintro items ⟨hLists, hFits⟩
  have hGiven : Lists (reply 1).body [⟨1, vector 3⟩, ⟨1, vector 5⟩] := lists (by decide)
  have hSame := (readItems_eq_ok_iff.mpr hLists).symm.trans (readItems_eq_ok_iff.mpr hGiven)
  have hPerm := hFits.indexes
  rw [Except.ok.inj hSame] at hPerm
  exact absurd (hPerm.mem_iff.mpr (List.mem_range.mpr Nat.zero_lt_two)) (by decide)

theorem reaches {index : Nat} :
    Reaches service (world index) ["a", "b"] (.start false) ⟨0, 2⟩ (.start false) :=
  ⟨[], [], by decide, by rw [embedBatches]; rfl⟩

end Answered

open Answered in
/-- The first reply is in another order than the texts and each vector finds its text; the second
one names the second text twice, so neither text gets a vector. -/
theorem embedBatch_fitting_answered :
    (∀ index ∈ [0, 1],
      ((Answered.service.ask (world index) ["a", "b"]).run (.start false)).1 =
          .ok (Answered.reply index) ∧ (Answered.reply index).status.isSuccess = true) ∧
      ((Answered.service.embedBatch (world 0) ["a", "b"]).run (.start false)).1 =
        .ok [vector 5, vector 3] ∧
      (∃ error, ((Answered.service.embedBatch (world 1) ["a", "b"]).run (.start false)).1 =
        .error error ∧ error.isFatal = false) ∧
      ∃ output, ((Answered.service.embed (world 1) ["a", "b"]).run (.start false)).1 = .ok output ∧
        output.vectors[0]? = some none ∧ output.vectors[1]? = some none := by
  have hOrdered := embedBatch_fitting Answered.service (world 0) ["a", "b"] (.start false) (reply 0)
    (ask_reply (by decide)) rfl
  have hTwice := embedBatch_fitting Answered.service (world 1) ["a", "b"] (.start false) (reply 1)
    (ask_reply (by decide)) rfl
  obtain ⟨⟨error, hFailed, hSoft⟩, hEmbed⟩ := hTwice.2.2 unfitting
  refine ⟨fun index hIndex => ⟨ask_reply hIndex, rfl⟩,
    (hOrdered.2.1 _).mpr ⟨_, readsFitting, placed⟩, ⟨error, hFailed, hSoft⟩, ?_⟩
  have hInputs : Answered.service.inputs ["a", "b"] = ["a", "b"] := by decide
  have hBatches : Answered.service.batches ["a", "b"] = [⟨0, 2⟩] := by decide
  obtain ⟨output, hOutput⟩ : ∃ output,
      ((Answered.service.embed (world 1) ["a", "b"]).run (.start false)).1 = .ok output := by
    have hPick : Range.pick ⟨0, 2⟩ ["a", "b"] = ["a", "b"] := rfl
    rw [embed_run, results, hInputs, hBatches, embedBatches_cons, hPick, hFailed, embedBatches]
    exact ⟨_, by rw [List.mapM_cons, soften, if_neg (by simp [hSoft])]; rfl⟩
  have hPlaces := (hEmbed ["a", "b"] (.start false) ⟨0, 2⟩ output rfl reaches hOutput).1
  exact ⟨output, hOutput, hPlaces 0 ⟨by decide, by decide⟩, hPlaces 1 ⟨by decide, by decide⟩⟩

end OpenAi

end SourceIndex.Embedding
