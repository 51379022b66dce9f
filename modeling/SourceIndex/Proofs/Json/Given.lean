import Mathlib.Data.List.Perm.Subperm
import SourceIndex.Proofs.Json.Records
import SourceIndex.Proofs.Json.Splitting

/-!
# Records that are given whole

Some records have no standard values: each of their fields has to be given.  Such
a record is read from an object that has its fields as members, in any order and
among others, and from the array of their values, and from nothing else.  In both
cases it is put together of the same values (`decoder_eq_ok_iff`).

## Main results

* `Demanding.gives_object`, `Demanding.length_array` — an object or an array that is
  read has a value for each field.
* `decoder_eq_ok_iff` — what a record is read from.
* `Decoder.nat_eq_ok_iff`, `Decoder.float32_eq_ok_iff`, `Decoder.list_eq_ok_iff` —
  what numbers and lists are read from.
-/

namespace SourceIndex.Json

namespace Record

variable {α β : Type} {record : Record α} {members : List (Literal × Json)} {found : Fields}
  {name : String} {result : α}

/-! ## Fields that have to be given -/

/-- A record that is put together only of fields that are all given and can all be read. -/
def Demanding (record : Record α) : Prop :=
  ∀ ⦃missing : String → DecodeError⦄ ⦃found : Fields⦄ ⦃result : α⦄,
    record.assemble missing found = .ok result →
      ∀ field ∈ record.fields, ∃ value, found.lookup field.1 = some value ∧ Checks field value

theorem demanding_pure (value : α) : (pure value).Demanding :=
  fun _ _ _ _ _ hField => absurd hField List.not_mem_nil

theorem required_assemble_eq_ok_iff {decoder : Decoder α} {missing : String → DecodeError} :
    (required name decoder).assemble missing found = .ok result ↔
      ∃ value, found.lookup name = some value ∧ decoder value = .ok result := by
  simp only [required]
  cases found.lookup name with
  | none => exact ⟨nofun, fun ⟨_, hNone, _⟩ => nomatch hNone⟩
  | some value =>
      constructor
      · exact fun hValue => ⟨value, rfl, hValue⟩
      · rintro ⟨_, ⟨⟩, hValue⟩
        exact hValue

theorem lawful_required (name : String) (decoder : Decoder α) :
    (required name decoder).Lawful := by
  intro missing other found given result hSame hAssemble
  obtain ⟨value, hLookup, hValue⟩ := required_assemble_eq_ok_iff.mp hAssemble
  exact required_assemble_eq_ok_iff.mpr ⟨value, (hSame name).symm.trans hLookup, hValue⟩

theorem demanding_required (name : String) (decoder : Decoder α) :
    (required name decoder).Demanding := by
  intro missing found result hAssemble field hField
  obtain rfl := List.mem_singleton.mp hField
  obtain ⟨value, hLookup, hValue⟩ := required_assemble_eq_ok_iff.mp hAssemble
  refine ⟨value, hLookup, ?_⟩
  show (decoder value).map _ = _
  rw [hValue]
  rfl

theorem Demanding.seq {first : Record (α → β)} {second : Record α} (hFirst : first.Demanding)
    (hSecond : second.Demanding) : (first.seq second).Demanding := by
  intro missing found result hAssemble field hField
  obtain ⟨_, _, hFunction, hValue, -⟩ := seq_assemble_eq_ok_iff.mp hAssemble
  rcases List.mem_append.mp hField with hHere | hThere
  · exact hFirst hFunction field hHere
  · exact hSecond hValue field hThere

theorem Demanding.isSome_lookup {missing : String → DecodeError} (h : record.Demanding)
    (hAssemble : record.assemble missing found = .ok result) :
    ∀ name ∈ record.fields.map (·.1), (found.lookup name).isSome = true := by
  intro name hName
  obtain ⟨field, hField, rfl⟩ := List.mem_map.mp hName
  obtain ⟨value, hLookup, -⟩ := h hAssemble field hField
  rw [hLookup]
  rfl

/-! ## What gives fields their values -/

/-- A value that gives fields their values: an object with these members, in any order and among
members under other names, or the array of the values alone. -/
inductive Gives (names : List String) (values : List Json) : Json → Prop where
  | object {members extras : List (Literal × Json)}
    (given : members.Perm ((names.zip values).map memberOf ++ extras))
    (others : ∀ extra ∈ extras,
      ∃ key, extra.1 = .text key ∧ key ∉ names ∧ extra.2.skipFault? = none) :
    Gives names values (.object members)
  | array : Gives names values (.array values)

/-- What is given without a fault has none. -/
theorem Gives.faultless {names : List String} {values : List Json} {json : Json}
    (h : Gives names values json) (hValues : ∀ value ∈ values, value.skipFault? = none) :
    json.skipFault? = none := by
  cases h with
  | array => exact skipFaultOfItems?_eq_none_iff.mpr hValues
  | object hGiven hOthers =>
      refine skipFaultOfMembers?_eq_none_iff.mpr fun member hMember => ?_
      rcases List.mem_append.mp (hGiven.mem_iff.mp hMember) with hNamed | hExtra
      · obtain ⟨⟨name, value⟩, hPair, rfl⟩ := List.mem_map.mp hNamed
        exact ⟨rfl, hValues value (List.of_mem_zip hPair).2⟩
      · obtain ⟨literal, value⟩ := member
        obtain ⟨key, rfl, -, hValue⟩ := hOthers _ hExtra
        exact ⟨rfl, hValue⟩

theorem memberOf_of_known? {member : Literal × Json} {entry : String × Json}
    (h : record.known? member = some entry) : memberOf entry = member := by
  obtain ⟨literal, value⟩ := member
  cases literal with
  | faulty fault skipped => cases h
  | text key =>
      rw [known?] at h
      split at h
      · cases h
        rfl
      · cases h

/-- The members under the names of fields stand among the others. -/
theorem perm_known (record : Record α) (members : List (Literal × Json)) :
    members.Perm ((record.known members).map memberOf ++
      members.filter fun member => (record.known? member).isNone) := by
  induction members with
  | nil => exact .refl _
  | cons member members ih =>
      cases hKnown : record.known? member with
      | none =>
          rw [known, List.filterMap_cons_none hKnown, List.filter_cons_of_pos (by rw [hKnown]; rfl)]
          exact (ih.cons member).trans List.perm_middle.symm
      | some entry =>
          rw [known, List.filterMap_cons_some hKnown, List.filter_cons_of_neg (by simp [hKnown]),
            List.map_cons, memberOf_of_known? hKnown]
          exact ih.cons member

theorem mem_names_of_mem_known {entry : String × Json} (h : entry ∈ record.known members) :
    entry.1 ∈ record.fields.map (·.1) := by
  obtain ⟨⟨literal, value⟩, -, hKnown⟩ := List.mem_filterMap.mp h
  cases literal with
  | faulty fault skipped => cases hKnown
  | text key =>
      rw [known?] at hKnown
      split at hKnown
      next hField =>
          cases hKnown
          exact isSome_lookup_iff.mp hField
      next => cases hKnown

/-- The members of an object that is read give every field its value. -/
theorem Demanding.perm_known (hDemanding : record.Demanding)
    (hNames : (record.fields.map (·.1)).Nodup)
    (hKeys : ((record.known members).map (·.1)).Nodup)
    (hAssemble : record.assemble missingField (record.known members) = .ok result) :
    ∃ values, record.fields.length = values.length ∧
      (record.known members).Perm ((record.fields.map (·.1)).zip values) := by
  have hGiven := hDemanding.isSome_lookup hAssemble
  refine ⟨(record.fields.map (·.1)).map fun name => ((record.known members).lookup name).getD .null,
    by simp, ?_⟩
  rw [← List.map_prod_left_eq_zip]
  have hFields : ((record.fields.map (·.1)).map fun name =>
      (name, ((record.known members).lookup name).getD .null)).Nodup :=
    hNames.map fun _ _ hSame => (Prod.mk.inj hSame).1
  rw [List.perm_ext_iff_of_nodup (.of_map _ hKeys) hFields]
  rintro ⟨name, value⟩
  rw [← lookup_eq_some_iff_mem hKeys, List.mem_map]
  constructor
  · intro hLookup
    have hMem := (lookup_eq_some_iff_mem hKeys).mp hLookup
    exact ⟨name, mem_names_of_mem_known hMem, by rw [hLookup]; rfl⟩
  · rintro ⟨_, hName, ⟨⟩⟩
    obtain ⟨value, hLookup⟩ := Option.isSome_iff_exists.mp (hGiven name hName)
    rw [hLookup]
    rfl

theorem map_fst_readItems {fields : List (String × (Json → Except DecodeError Unit))}
    {items : List Json} (h : readItems fields items = .ok found) :
    found.map (·.1) = (fields.map (·.1)).take items.length := by
  induction items generalizing fields found with
  | nil =>
      cases fields <;> cases h <;> rfl
  | cons item items ih =>
      cases fields with
      | nil => cases h
      | cons field fields =>
          obtain ⟨name, check⟩ := field
          simp only [readItems, bind, Except.bind] at h
          cases hCheck : check item with
          | error fault =>
              rw [hCheck] at h
              cases h
          | ok =>
              cases hRest : readItems fields items with
              | error fault =>
                  rw [hCheck, hRest] at h
                  cases h
              | ok others =>
                  rw [hCheck, hRest] at h
                  cases h
                  rw [List.map_cons, ih hRest]
                  rfl

/-- An array that is read has a value for each field. -/
theorem Demanding.length_array (hDemanding : record.Demanding)
    (hNames : (record.fields.map (·.1)).Nodup) {items : List Json}
    (h : record.decoder name (.array items) = .ok result) :
    record.fields.length = items.length := by
  rw [decoder] at h
  simp only [bind, Except.bind] at h
  split at h
  · cases h
  next found hFound =>
    split at h
    · cases h
    next whole hWhole =>
      split at h
      next hDrop =>
        have hStop : items.length ≤ record.fields.length := List.drop_eq_nil_iff.mp hDrop
        rw [List.take_of_length_le hStop] at hFound
        have hSubset : record.fields.map (·.1) ⊆ (record.fields.map (·.1)).take items.length := by
          intro field hField
          rw [← map_fst_readItems hFound]
          exact isSome_lookup_iff.mp (hDemanding.isSome_lookup hWhole field hField)
        have hLength := (hNames.subperm hSubset).length_le
        rw [List.length_take, List.length_map] at hLength
        omega
      next => cases h

/-- The array of the values is read as what is put together of them. -/
theorem Demanding.decoder_array (hDemanding : record.Demanding) (hLawful : record.Lawful)
    (hNames : (record.fields.map (·.1)).Nodup) {values : List Json}
    (hLength : record.fields.length = values.length) :
    record.decoder name (.array values) = .ok result ↔
      record.assemble missingField ((record.fields.map (·.1)).zip values) = .ok result := by
  rw [decoder_array_eq_ok_iff hLawful hLength]
  refine and_iff_right_of_imp fun hAssemble => ?_
  have hKeys : (((record.fields.map (·.1)).zip values).map (·.1)).Nodup := by
    rw [List.map_fst_zip (Nat.le_of_eq ((List.length_map _).trans hLength))]
    exact hNames
  refine List.forall₂_iff_zip.mpr ⟨hLength, fun {field value} hPair => ?_⟩
  obtain ⟨given, hLookup, hCheck⟩ := hDemanding hAssemble field (List.of_mem_zip hPair).1
  have hOwn : (field.1, value) ∈ (record.fields.map (·.1)).zip values := by
    rw [List.zip_map_left]
    exact List.mem_map_of_mem hPair
  rw [(lookup_eq_some_iff_mem hKeys).mpr hOwn] at hLookup
  cases hLookup
  exact hCheck

theorem extra_iff {member : Literal × Json} :
    record.Extra member ↔ ∃ key, member.1 = .text key ∧ key ∉ record.fields.map (·.1) ∧
      member.2.skipFault? = none := by
  refine exists_congr fun key => and_congr_right fun _ => and_congr_left fun _ => ?_
  rw [← isSome_lookup_iff, Option.not_isSome_iff_eq_none]

/-- A member that is read under another name than a field's is passed over. -/
theorem extra_of_known?_eq_none {member : Literal × Json} (hReadable : record.Readable member)
    (hNone : record.known? member = none) : record.Extra member := by
  obtain ⟨literal, value⟩ := member
  cases literal with
  | faulty fault skipped => exact hReadable.elim
  | text key =>
      cases hField : record.fields.lookup key with
      | none => exact ⟨key, rfl, hField, (readable_unknown hField).mp hReadable⟩
      | some check => simp [known?, hField] at hNone

/-- An object that is read gives every field its value. -/
theorem Demanding.gives_object (hDemanding : record.Demanding)
    (hNames : (record.fields.map (·.1)).Nodup)
    (h : record.decoder name (.object members) = .ok result) :
    ∃ values, record.fields.length = values.length ∧
      Gives (record.fields.map (·.1)) values (.object members) := by
  obtain ⟨hReadable, hKeys, hAssemble⟩ := decoder_object_eq_ok_iff.mp h
  obtain ⟨values, hLength, hKnown⟩ := hDemanding.perm_known hNames hKeys hAssemble
  have hPerm := (record.perm_known members).trans ((hKnown.map memberOf).append_right _)
  refine ⟨values, hLength, .object hPerm fun extra hExtra => extra_iff.mp ?_⟩
  obtain ⟨hMember, hNone⟩ := List.mem_filter.mp hExtra
  exact extra_of_known?_eq_none (hReadable extra hMember) (Option.isNone_iff_eq_none.mp hNone)

/-- What gives the fields their values is read like the array of the values. -/
theorem Gives.decoder_eq_ok_iff {values : List Json} {json : Json} (hLawful : record.Lawful)
    (hNames : (record.fields.map (·.1)).Nodup) (hLength : record.fields.length = values.length)
    (h : Gives (record.fields.map (·.1)) values json) :
    record.decoder name json = .ok result ↔ record.decoder name (.array values) = .ok result := by
  cases h with
  | array => exact Iff.rfl
  | object hGiven hOthers =>
      exact toOption_eq_iff.mp (decoder_object_eq_array hLawful name hNames hLength
        (fun extra hExtra => extra_iff.mpr (hOthers extra hExtra)) hGiven) result

/-- **A record is read from what gives its fields their values**, and from nothing else. -/
theorem decoder_eq_ok_iff (hLawful : record.Lawful) (hDemanding : record.Demanding)
    (hNames : (record.fields.map (·.1)).Nodup) {json : Json} :
    record.decoder name json = .ok result ↔
      ∃ values, record.fields.length = values.length ∧ Gives (record.fields.map (·.1)) values json ∧
        record.assemble missingField ((record.fields.map (·.1)).zip values) = .ok result := by
  constructor
  · intro hRead
    obtain ⟨values, hLength, hGives⟩ : ∃ values, record.fields.length = values.length ∧
        Gives (record.fields.map (·.1)) values json := by
      cases json with
      | object members => exact hDemanding.gives_object hNames hRead
      | array items => exact ⟨items, hDemanding.length_array hNames hRead, .array⟩
      | _ => cases hRead
    have hArray := (hGives.decoder_eq_ok_iff hLawful hNames hLength).mp hRead
    exact ⟨values, hLength, hGives,
      (hDemanding.decoder_array hLawful hNames hLength).mp hArray⟩
  · rintro ⟨values, hLength, hGives, hAssemble⟩
    rw [hGives.decoder_eq_ok_iff hLawful hNames hLength]
    exact (hDemanding.decoder_array hLawful hNames hLength).mpr hAssemble

end Record

/-! ## Numbers and lists -/

namespace Decoder

variable {α : Type} {json : Json}

theorem nat_eq_ok_iff {name : String} {n : Nat} :
    nat name json = .ok n ↔
      ∃ number, json = .number number ∧ number.scalar? = some (.natural n) := by
  constructor
  · intro hRead
    cases json with
    | number number =>
        refine ⟨number, rfl, ?_⟩
        rw [nat] at hRead
        split at hRead
        next hScalar =>
            obtain rfl := Except.ok.inj hRead
            exact hScalar
        all_goals cases hRead
    | _ => cases hRead
  · rintro ⟨number, rfl, hScalar⟩
    rw [nat, hScalar]

theorem float32_eq_ok_iff {component : Float32} :
    float32 json = .ok component ↔
      ∃ number scalar, json = .number number ∧ number.scalar? = some scalar ∧
        scalar.toFloat32 = component := by
  constructor
  · intro hRead
    cases json with
    | number number =>
        rw [float32] at hRead
        split at hRead
        next scalar hScalar => exact ⟨number, scalar, rfl, hScalar, Except.ok.inj hRead⟩
        next => cases hRead
    | _ => cases hRead
  · rintro ⟨number, scalar, rfl, hScalar, rfl⟩
    rw [float32, hScalar]

theorem mapM_eq_ok_iff {decoder : Decoder α} {items : List Json} {values : List α} :
    items.mapM decoder = .ok values ↔
      List.Forall₂ (fun item value => decoder item = .ok value) items values := by
  induction items generalizing values with
  | nil =>
      rw [List.forall₂_nil_left_iff]
      exact ⟨fun h => (Except.ok.inj h).symm, fun h => congrArg Except.ok h.symm⟩
  | cons item items ih =>
      rw [List.forall₂_cons_left_iff, List.mapM_cons]
      simp only [bind, Except.bind]
      cases hItem : decoder item with
      | error fault => exact ⟨nofun, fun ⟨_, _, hSame, _⟩ => nomatch hSame⟩
      | ok value =>
          cases hRest : items.mapM decoder with
          | error fault =>
              refine ⟨nofun, ?_⟩
              rintro ⟨_, others, -, hOthers, -⟩
              rw [ih.mpr hOthers] at hRest
              cases hRest
          | ok others =>
              constructor
              · rintro ⟨⟩
                exact ⟨value, others, rfl, ih.mp hRest, rfl⟩
              · rintro ⟨_, found, ⟨⟩, hFound, rfl⟩
                rw [ih.mpr hFound] at hRest
                cases hRest
                rfl

theorem list_eq_ok_iff {decoder : Decoder α} {values : List α} :
    list decoder json = .ok values ↔
      ∃ items, json = .array items ∧
        List.Forall₂ (fun item value => decoder item = .ok value) items values := by
  constructor
  · intro hRead
    cases json with
    | array items => exact ⟨items, rfl, mapM_eq_ok_iff.mp hRead⟩
    | _ => cases hRead
  · rintro ⟨items, rfl, hPairs⟩
    exact mapM_eq_ok_iff.mpr hPairs

end Decoder

end SourceIndex.Json
