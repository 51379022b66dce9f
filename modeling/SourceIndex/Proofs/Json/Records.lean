import Mathlib.Data.List.Forall2
import Mathlib.Data.List.Nodup
import SourceIndex.Proofs.Json.Spelling

/-!
# Reading records

An object is read member by member, in the order of its text, and what the first
members say decides whether the others are looked at.  In the end none of that
matters: an object is read if all its members can be read and no field is given
twice, and then its fields are looked up by their names
(`decoder_object_eq_ok_iff`).  What follows is about members under the names of
fields, of which an object has those and no others.

A record is put together of fields that each look at their own member
(`Lawful`).  Errors are left out of it: which of several errors is reported does
depend on the order of the members.

## Main results

* `decoder_object_eq_ok_iff`, `decoder_array_eq_ok_iff` — what objects and arrays
  are read as.
* `decoder_perm` — the order of members does not matter.
* `decoder_insert_extra`, `decoder_insert_ignored` — members that may be left out.
* `decoder_repeated` — a field that is given twice.
* `decoder_object_eq_array` — an object with all fields and the array of their
  values.
-/

namespace SourceIndex.Json

/-! ## Members under their names -/

section Lookup

variable {β : Type} {entries others : List (String × β)} {key : String} {value : β}

theorem isSome_lookup_iff : (entries.lookup key).isSome = true ↔ key ∈ entries.map (·.1) := by
  induction entries with
  | nil => exact ⟨nofun, fun hMem => absurd hMem List.not_mem_nil⟩
  | cons entry entries ih =>
      rw [List.lookup_cons, List.map_cons, List.mem_cons, ← ih]
      by_cases hName : key = entry.1
      · simp [hName]
      · simp [hName, beq_false_of_ne hName]

theorem lookup_eq_some_iff_mem (hKeys : (entries.map (·.1)).Nodup) :
    entries.lookup key = some value ↔ (key, value) ∈ entries := by
  induction entries with
  | nil => exact ⟨nofun, fun hMem => absurd hMem List.not_mem_nil⟩
  | cons entry entries ih =>
      obtain ⟨name, found⟩ := entry
      rw [List.map_cons, List.nodup_cons] at hKeys
      rw [List.lookup_cons, List.mem_cons, Prod.mk.injEq]
      by_cases hName : key = name
      · subst hName
        have hAbsent : (key, value) ∉ entries :=
          fun hMem => hKeys.1 (List.mem_map_of_mem (f := (·.1)) hMem)
        simp [hAbsent, eq_comm]
      · rw [beq_false_of_ne hName, ih hKeys.2]
        simp [hName]

/-- The order of entries with different keys does not matter. -/
theorem lookup_perm (hPerm : entries.Perm others) (hKeys : (entries.map (·.1)).Nodup) :
    entries.lookup key = others.lookup key := by
  have hOthers : (others.map (·.1)).Nodup := (hPerm.map (·.1)).nodup_iff.mp hKeys
  apply Option.ext
  intro value
  rw [lookup_eq_some_iff_mem hKeys, lookup_eq_some_iff_mem hOthers, hPerm.mem_iff]

end Lookup

namespace Record

variable {α β : Type} {record : Record α} {members others : List (Literal × Json)}
  {found result : Fields} {key : String} {value : Json}

/-! ## Objects -/

/-- A member under the name of a field. -/
def known? (record : Record α) : Literal × Json → Option (String × Json)
  | (.text key, value) => if (record.fields.lookup key).isSome then some (key, value) else none
  | (.faulty _ _, _) => none

/-- The members under the names of fields. -/
def known (record : Record α) (members : List (Literal × Json)) : Fields :=
  members.filterMap record.known?

/-- A member that does not keep an object from being read: its key is a text, and its value can
be passed over or, for a field, be read. -/
def Readable (record : Record α) : Literal × Json → Prop
  | (.faulty _ _, _) => False
  | (.text key, value) =>
    match record.fields.lookup key with
    | none => value.skipFault? = none
    | some check => check value = .ok ()

section Keys

variable {check : Json → Except DecodeError Unit}

theorem readable_unknown (hKey : record.fields.lookup key = none) :
    record.Readable (.text key, value) ↔ value.skipFault? = none := by
  rw [Readable, hKey]

theorem readable_known (hKey : record.fields.lookup key = some check) :
    record.Readable (.text key, value) ↔ check value = .ok () := by
  rw [Readable, hKey]

theorem known_append (before after : List (Literal × Json)) :
    record.known (before ++ after) = record.known before ++ record.known after :=
  List.filterMap_append

theorem known_unknown (hKey : record.fields.lookup key = none) :
    record.known ((.text key, value) :: members) = record.known members := by
  rw [known, List.filterMap_cons_none]
  · rfl
  · rw [known?, hKey]
    rfl

theorem known_known (hKey : record.fields.lookup key = some check) :
    record.known ((.text key, value) :: members) = (key, value) :: record.known members := by
  rw [known, List.filterMap_cons_some]
  · rfl
  · rw [known?, hKey]
    rfl

end Keys

/-- **Members are read when each can be read and no field is given twice.** -/
theorem readMembers_eq_ok_iff (hFound : (found.map (·.1)).Nodup) :
    record.readMembers found members = .ok result ↔
      (∀ member ∈ members, record.Readable member) ∧
        ((found ++ record.known members).map (·.1)).Nodup ∧
        found ++ record.known members = result := by
  induction members generalizing found with
  | nil =>
      rw [known, List.filterMap_nil, List.append_nil, readMembers]
      constructor
      · rintro ⟨⟩
        exact ⟨nofun, hFound, rfl⟩
      · rintro ⟨_, _, rfl⟩
        rfl
  | cons member members ih =>
      obtain ⟨literal, value⟩ := member
      rw [List.forall_mem_cons]
      cases literal with
      | faulty fault skipped => exact ⟨nofun, fun hAll => hAll.1.1.elim⟩
      | text key =>
          rw [readMembers]
          cases hKey : record.fields.lookup key with
          | none =>
              rw [readable_unknown hKey, known_unknown hKey]
              cases hFault : value.skipFault? with
              | some fault => exact ⟨nofun, fun hAll => absurd hAll.1.1 nofun⟩
              | none =>
                  simp only [true_and]
                  exact ih hFound
          | some check =>
              rw [readable_known hKey, known_known hKey]
              dsimp only
              split
              next hGiven =>
                  -- The field is among those found so far.
                  refine ⟨nofun, fun hAll => ?_⟩
                  have hKeys := hAll.2.1
                  rw [List.map_append, List.map_cons, List.nodup_append] at hKeys
                  exact absurd rfl
                    (hKeys.2.2 key (isSome_lookup_iff.mp hGiven) key List.mem_cons_self)
              next hNew =>
                  cases hCheck : check value with
                  | error fault => exact ⟨nofun, fun hAll => absurd hAll.1.1 nofun⟩
                  | ok =>
                      have hFields : ((found ++ [(key, value)]).map (·.1)).Nodup := by
                        rw [List.map_append, List.nodup_append]
                        refine ⟨hFound, List.nodup_singleton _, ?_⟩
                        rintro name hName other hOther rfl
                        rw [List.mem_singleton.mp hOther] at hName
                        exact hNew (isSome_lookup_iff.mpr hName)
                      have hRest := ih hFields
                      rw [List.append_assoc, List.singleton_append] at hRest
                      simp only [true_and]
                      exact hRest

/-- The error for a field that an object lacks. -/
def missingField (field : String) : DecodeError := .data ("missing field `" ++ field ++ "`")

/-- **An object is read by its known members alone**, when all its members are readable. -/
theorem decoder_object_eq_ok_iff {name : String} {result : α} :
    record.decoder name (.object members) = .ok result ↔
      (∀ member ∈ members, record.Readable member) ∧
        ((record.known members).map (·.1)).Nodup ∧
        record.assemble missingField (record.known members) = .ok result := by
  have hMembers {fields : Fields} : record.readMembers [] members = .ok fields ↔
      (∀ member ∈ members, record.Readable member) ∧
        ((record.known members).map (·.1)).Nodup ∧ record.known members = fields :=
    readMembers_eq_ok_iff List.nodup_nil
  constructor
  · intro hDecoder
    cases hRead : record.readMembers [] members with
    | error fault =>
        rw [decoder, hRead] at hDecoder
        cases hDecoder
    | ok fields =>
        rw [decoder, hRead] at hDecoder
        obtain ⟨hReadable, hKeys, rfl⟩ := hMembers.mp hRead
        exact ⟨hReadable, hKeys, hDecoder⟩
  · rintro ⟨hReadable, hKeys, hAssemble⟩
    rw [decoder, hMembers.mpr ⟨hReadable, hKeys, rfl⟩]
    exact hAssemble

/-! ## What a record looks at -/

/-- A record that looks at nothing but the values of its fields. -/
def Lawful (record : Record α) : Prop :=
  ∀ ⦃missing other : String → DecodeError⦄ ⦃found given : Fields⦄ ⦃result : α⦄,
    (∀ name, found.lookup name = given.lookup name) →
      record.assemble missing found = .ok result → record.assemble other given = .ok result

theorem lawful_pure (value : α) : (pure value).Lawful :=
  fun _ _ _ _ _ _ hAssemble => hAssemble

theorem seq_assemble_eq_ok_iff {first : Record (α → β)} {second : Record α}
    {missing : String → DecodeError} {result : β} :
    (first.seq second).assemble missing found = .ok result ↔
      ∃ function value, first.assemble missing found = .ok function ∧
        second.assemble missing found = .ok value ∧ function value = result := by
  simp only [seq, bind, Except.bind]
  cases first.assemble missing found with
  | error fault => exact ⟨nofun, fun ⟨_, _, hFirst, _⟩ => nomatch hFirst⟩
  | ok function =>
      cases second.assemble missing found with
      | error fault => exact ⟨nofun, fun ⟨_, _, _, hSecond, _⟩ => nomatch hSecond⟩
      | ok value =>
          constructor
          · rintro ⟨⟩
            exact ⟨function, value, rfl, rfl, rfl⟩
          · rintro ⟨_, _, ⟨⟩, ⟨⟩, rfl⟩
            rfl

theorem Lawful.seq {first : Record (α → β)} {second : Record α} (hFirst : first.Lawful)
    (hSecond : second.Lawful) : (first.seq second).Lawful := by
  intro missing other found given result hSame hAssemble
  obtain ⟨function, value, hFunction, hValue, hResult⟩ := seq_assemble_eq_ok_iff.mp hAssemble
  exact seq_assemble_eq_ok_iff.mpr
    ⟨function, value, hFirst hSame hFunction, hSecond hSame hValue, hResult⟩

/-- The value of a field that has a standard value. -/
def fieldValue (found : Fields) (name : String) (decoder : Decoder α) (standard : α) :
    Except DecodeError α :=
  match found.lookup name with
  | some value => decoder value
  | none => .ok standard

theorem lawful_withDefault (name : String) (decoder : Decoder α) (standard : α) :
    (withDefault name decoder standard).Lawful := by
  intro missing other found given result hSame hAssemble
  show fieldValue given name decoder standard = .ok result
  rw [fieldValue, ← hSame name]
  exact hAssemble

theorem Lawful.withDefault {first : Record (α → β)} (hFirst : first.Lawful) {name : String}
    {decoder : Decoder α} {standard : α} :
    (first.seq (.withDefault name decoder standard)).Lawful :=
  hFirst.seq (lawful_withDefault name decoder standard)

/-- A record that reads as it does without the member, wherever it is missing. -/
def Ignores (record : Record α) (key : String) (value : Json) : Prop :=
  ∀ ⦃missing : String → DecodeError⦄ ⦃found added : Fields⦄,
    found.lookup key = none →
      (∀ name, added.lookup name = if name = key then some value else found.lookup name) →
      record.assemble missing added = record.assemble missing found

theorem ignores_pure (whole : α) : (pure whole).Ignores key value :=
  fun _ _ _ _ _ => rfl

theorem fieldValue_singleton {name : String} {decoder : Decoder α} {standard : α} :
    fieldValue [(key, value)] name decoder standard =
      if name = key then decoder value else .ok standard := by
  rw [fieldValue, List.lookup_cons, List.lookup_nil]
  by_cases hName : name = key
  · subst hName
    simp
  · rw [beq_false_of_ne hName, if_neg hName]

/-- A member that alone gives a field its standard value may as well be missing. -/
theorem Ignores.withDefault {first : Record (α → β)} (hFirst : first.Ignores key value)
    {name : String} {decoder : Decoder α} {standard : α}
    (hAlone : fieldValue [(key, value)] name decoder standard = .ok standard) :
    (first.seq (.withDefault name decoder standard)).Ignores key value := by
  intro missing found added hMissing hAdded
  have hValue : fieldValue added name decoder standard =
      fieldValue found name decoder standard := by
    rw [fieldValue_singleton] at hAlone
    rw [fieldValue, hAdded]
    by_cases hName : name = key
    · subst hName
      rw [if_pos rfl] at hAlone ⊢
      rw [fieldValue, hMissing]
      exact hAlone
    · rw [if_neg hName]
      rfl
  show (do
      let function ← first.assemble missing added
      let value ← fieldValue added name decoder standard
      return function value) = _
  rw [hFirst hMissing hAdded, hValue]
  rfl

/-- A member that is passed over: its name is not that of a field. -/
def Extra (record : Record α) (member : Literal × Json) : Prop :=
  ∃ key, member.1 = .text key ∧ record.fields.lookup key = none ∧ member.2.skipFault? = none

theorem Extra.readable {member : Literal × Json} (hExtra : record.Extra member) :
    record.Readable member := by
  obtain ⟨literal, value⟩ := member
  obtain ⟨key, rfl, hKey, hValue⟩ := hExtra
  exact (readable_unknown hKey).mpr hValue

theorem known_extras {extras : List (Literal × Json)}
    (hExtras : ∀ extra ∈ extras, record.Extra extra) : record.known extras = [] := by
  refine List.filterMap_eq_nil_iff.mpr fun extra hMem => ?_
  obtain ⟨literal, value⟩ := extra
  obtain ⟨key, rfl, hKey, _⟩ := hExtras _ hMem
  rw [known?, hKey]
  rfl

/-! ## Other ways to write an object -/

theorem toOption_eq_iff {ε : Type} {first second : Except ε α} :
    first.toOption = second.toOption ↔ ∀ result, first = .ok result ↔ second = .ok result := by
  cases first <;> cases second <;> simp [Except.toOption, eq_comm]

/-- **The order of members does not matter.** -/
theorem decoder_perm (hLawful : record.Lawful) (name : String) (hPerm : members.Perm others) :
    (record.decoder name (.object members)).toOption =
      (record.decoder name (.object others)).toOption := by
  have hOne {members others : List (Literal × Json)} (hPerm : members.Perm others) {result : α}
      (hRead : record.decoder name (.object members) = .ok result) :
      record.decoder name (.object others) = .ok result := by
    obtain ⟨hReadable, hKeys, hAssemble⟩ := decoder_object_eq_ok_iff.mp hRead
    have hKnown : (record.known members).Perm (record.known others) := hPerm.filterMap _
    exact decoder_object_eq_ok_iff.mpr
      ⟨fun member hMember => hReadable member (hPerm.mem_iff.mpr hMember),
        (hKnown.map (·.1)).nodup_iff.mp hKeys,
        hLawful (fun _ => lookup_perm hKnown hKeys) hAssemble⟩
  exact toOption_eq_iff.mpr fun result => ⟨hOne hPerm, hOne hPerm.symm⟩

/-- **A member under another name does not matter**, whatever its value is. -/
theorem decoder_insert_extra (name : String) {extra : Literal × Json} (hExtra : record.Extra extra)
    (before after : List (Literal × Json)) :
    (record.decoder name (.object (before ++ extra :: after))).toOption =
      (record.decoder name (.object (before ++ after))).toOption := by
  have hKnown : record.known (before ++ extra :: after) = record.known (before ++ after) := by
    rw [← List.singleton_append (x := extra), known_append, known_append,
      known_extras (List.forall_mem_singleton.mpr hExtra), List.nil_append, known_append]
  refine toOption_eq_iff.mpr fun result => ?_
  rw [decoder_object_eq_ok_iff, decoder_object_eq_ok_iff, hKnown]
  refine and_congr_left fun _ => ?_
  simp only [List.forall_mem_append, List.forall_mem_cons, hExtra.readable, true_and]

/-- **A field that is given twice is an error**, wherever it stands. -/
theorem decoder_repeated (name : String) {again : Json}
    (hKey : (record.fields.lookup key).isSome = true)
    (before between after : List (Literal × Json)) :
    (record.decoder name (.object
      (before ++ (.text key, value) :: (between ++ (.text key, again) :: after)))).toOption =
        none := by
  obtain ⟨check, hKey⟩ := Option.isSome_iff_exists.mp hKey
  cases hRead : record.decoder name (.object
      (before ++ (.text key, value) :: (between ++ (.text key, again) :: after))) with
  | error fault => rfl
  | ok result =>
      obtain ⟨_, hKeys, _⟩ := decoder_object_eq_ok_iff.mp hRead
      rw [known_append, known_known hKey, known_append, known_known hKey, List.map_append,
        List.nodup_append, List.map_cons, List.nodup_cons, List.map_append, List.map_cons] at hKeys
      exact absurd (List.mem_append_right _ List.mem_cons_self) hKeys.2.1.1

/-- Known members are members. -/
theorem mem_of_mem_known (hMem : (key, value) ∈ record.known members) :
    (.text key, value) ∈ members := by
  obtain ⟨⟨literal, other⟩, hMember, hKnown⟩ := List.mem_filterMap.mp hMem
  cases literal with
  | faulty fault skipped => cases hKnown
  | text name =>
      rw [known?] at hKnown
      split at hKnown
      next =>
          cases hKnown
          exact hMember
      next => cases hKnown

theorem lookup_middle {before after : Fields} (hBefore : before.lookup key = none) (name : String) :
    (before ++ (key, value) :: after).lookup name =
      if name = key then some value else (before ++ after).lookup name := by
  rw [List.lookup_append, List.lookup_append, List.lookup_cons]
  by_cases hName : name = key
  · subst hName
    simp [hBefore]
  · rw [beq_false_of_ne hName, if_neg hName]

/-- **A field that is missing may be given** with a value that says nothing new. -/
theorem decoder_insert_ignored (name : String) (hIgnores : record.Ignores key value)
    (hKey : (record.fields.lookup key).isSome = true)
    (hReadable : record.Readable (.text key, value))
    {before after : List (Literal × Json)}
    (hOmitted : ∀ member ∈ before ++ after, member.1 ≠ .text key) :
    (record.decoder name (.object (before ++ (.text key, value) :: after))).toOption =
      (record.decoder name (.object (before ++ after))).toOption := by
  obtain ⟨check, hCheck⟩ := Option.isSome_iff_exists.mp hKey
  have hNew : key ∉ (record.known (before ++ after)).map (·.1) := by
    intro hMem
    obtain ⟨⟨_, other⟩, hOther, rfl⟩ := List.mem_map.mp hMem
    exact hOmitted _ (mem_of_mem_known hOther) rfl
  have hFound : (record.known (before ++ after)).lookup key = none := by
    rw [← Option.not_isSome_iff_eq_none, isSome_lookup_iff]
    exact hNew
  have hKnown : record.known (before ++ (.text key, value) :: after) =
      record.known before ++ (key, value) :: record.known after := by
    rw [known_append, known_known hCheck]
  have hNodup : ((record.known before ++ (key, value) :: record.known after).map (·.1)).Nodup ↔
      ((record.known (before ++ after)).map (·.1)).Nodup := by
    rw [List.map_append, List.map_cons, List.nodup_middle, List.nodup_cons, ← List.map_append,
      ← known_append]
    exact and_iff_right hNew
  have hLookup (other : String) :
      (record.known before ++ (key, value) :: record.known after).lookup other =
        if other = key then some value else (record.known (before ++ after)).lookup other := by
    rw [known_append, List.lookup_append, Option.or_eq_none_iff] at hFound
    rw [lookup_middle hFound.1, known_append]
  refine toOption_eq_iff.mpr fun result => ?_
  rw [decoder_object_eq_ok_iff, decoder_object_eq_ok_iff, hKnown, hNodup, hIgnores hFound hLookup]
  refine and_congr_left fun _ => ?_
  simp only [List.forall_mem_append, List.forall_mem_cons, hReadable, true_and]

/-! ## Arrays -/

/-- A field whose value can be read. -/
def Checks (field : String × (Json → Except DecodeError Unit)) (item : Json) : Prop :=
  field.2 item = .ok ()

theorem readItems_eq_ok_iff {fields : List (String × (Json → Except DecodeError Unit))}
    {items : List Json} (hLength : fields.length = items.length) :
    readItems fields items = .ok found ↔
      List.Forall₂ Checks fields items ∧ (fields.map (·.1)).zip items = found := by
  induction fields generalizing items found with
  | nil =>
      obtain rfl := List.eq_nil_of_length_eq_zero hLength.symm
      constructor
      · rintro ⟨⟩
        exact ⟨.nil, rfl⟩
      · rintro ⟨_, rfl⟩
        rfl
  | cons field fields ih =>
      cases items with
      | nil => cases hLength
      | cons item items =>
          have hRest {others : Fields} : readItems fields items = .ok others ↔
              List.Forall₂ Checks fields items ∧ (fields.map (·.1)).zip items = others :=
            ih (Nat.succ.inj hLength)
          obtain ⟨name, check⟩ := field
          rw [List.forall₂_cons, Checks, List.map_cons, List.zip_cons_cons]
          simp only [readItems, bind, Except.bind]
          cases check item with
          | error fault => exact ⟨nofun, fun hAll => nomatch hAll.1.1⟩
          | ok =>
              cases hRead : readItems fields items with
              | error fault =>
                  refine ⟨nofun, fun hAll => ?_⟩
                  rw [hRest.mpr ⟨hAll.1.2, rfl⟩] at hRead
                  cases hRead
              | ok others =>
                  obtain ⟨hChecks, rfl⟩ := hRest.mp hRead
                  constructor
                  · rintro ⟨⟩
                    exact ⟨⟨rfl, hChecks⟩, rfl⟩
                  · rintro ⟨_, rfl⟩
                    rfl

/-- **An array with a value for each field is read by its values.** -/
theorem decoder_array_eq_ok_iff (hLawful : record.Lawful) {name : String} {items : List Json}
    (hLength : record.fields.length = items.length) {value : α} :
    record.decoder name (.array items) = .ok value ↔
      List.Forall₂ Checks record.fields items ∧
        record.assemble missingField ((record.fields.map (·.1)).zip items) = .ok value := by
  have hItems {found : Fields} : readItems record.fields items = .ok found ↔
      List.Forall₂ Checks record.fields items ∧ (record.fields.map (·.1)).zip items = found :=
    readItems_eq_ok_iff hLength
  have hTake : items.take record.fields.length = items := by rw [hLength, List.take_length]
  have hDrop : items.drop record.fields.length = [] := by rw [hLength, List.drop_length]
  rw [decoder, hTake, hDrop]
  simp only [bind, Except.bind]
  cases hRead : readItems record.fields items with
  | error fault =>
      refine ⟨nofun, fun hAll => ?_⟩
      rw [hItems.mpr ⟨hAll.1, rfl⟩] at hRead
      cases hRead
  | ok fields =>
      obtain ⟨hChecks, rfl⟩ := hItems.mp hRead
      dsimp only
      -- A missing field is worded differently in an array.
      generalize hWording : (fun _ : String => DecodeError.data _) = wording
      constructor
      · intro hWhole
        split at hWhole
        next => cases hWhole
        next whole hAssemble =>
            obtain rfl := Except.ok.inj hWhole
            exact ⟨hChecks, hLawful (fun _ => rfl) hAssemble⟩
      · rintro ⟨_, hAssemble⟩
        have hWhole : record.assemble wording ((record.fields.map (·.1)).zip items) = .ok value :=
          hLawful (fun _ => rfl) hAssemble
        rw [hWhole]
        rfl

/-- The members of an object with a value for each field, in their order. -/
def fieldMembers (record : Record α) (items : List Json) : List (Literal × Json) :=
  ((record.fields.map (·.1)).zip items).map memberOf

theorem known_fieldMembers {fields : List (String × (Json → Except DecodeError Unit))}
    (hFields : ∀ field ∈ fields, record.fields.lookup field.1 = some field.2) (items : List Json) :
    record.known (((fields.map (·.1)).zip items).map memberOf) =
      (fields.map (·.1)).zip items := by
  induction fields generalizing items with
  | nil => rfl
  | cons field fields ih =>
      rw [List.forall_mem_cons] at hFields
      cases items with
      | nil => rfl
      | cons item items =>
          rw [List.map_cons, List.zip_cons_cons, List.map_cons, memberOf,
            known_known hFields.1, ih hFields.2]

theorem readable_fieldMembers {fields : List (String × (Json → Except DecodeError Unit))}
    (hFields : ∀ field ∈ fields, record.fields.lookup field.1 = some field.2) {items : List Json}
    (hLength : fields.length = items.length) :
    (∀ member ∈ ((fields.map (·.1)).zip items).map memberOf, record.Readable member) ↔
      List.Forall₂ Checks fields items := by
  induction fields generalizing items with
  | nil =>
      obtain rfl := List.eq_nil_of_length_eq_zero hLength.symm
      exact ⟨fun _ => .nil, fun _ _ hMem => absurd hMem List.not_mem_nil⟩
  | cons field fields ih =>
      rw [List.forall_mem_cons] at hFields
      cases items with
      | nil => cases hLength
      | cons item items =>
          rw [List.map_cons, List.zip_cons_cons, List.map_cons, List.forall_mem_cons, memberOf,
            readable_known hFields.1, ih hFields.2 (Nat.succ.inj hLength), List.forall₂_cons,
            Checks]

/-- **An object with all fields is read like the array of their values**, whatever the order of
its members is and whatever others it has. -/
theorem decoder_object_eq_array (hLawful : record.Lawful) (name : String)
    (hNames : (record.fields.map (·.1)).Nodup) {items : List Json}
    (hLength : record.fields.length = items.length) {extras : List (Literal × Json)}
    (hExtras : ∀ extra ∈ extras, record.Extra extra)
    (hPerm : members.Perm (record.fieldMembers items ++ extras)) :
    (record.decoder name (.object members)).toOption =
      (record.decoder name (.array items)).toOption := by
  have hFields : ∀ field ∈ record.fields, record.fields.lookup field.1 = some field.2 :=
    fun field hField => (lookup_eq_some_iff_mem hNames).mpr hField
  have hKnown : record.known (record.fieldMembers items ++ extras) =
      (record.fields.map (·.1)).zip items := by
    rw [known_append, fieldMembers, known_fieldMembers hFields, known_extras hExtras,
      List.append_nil]
  have hKeys : (((record.fields.map (·.1)).zip items).map (·.1)).Nodup := by
    rw [List.map_fst_zip (Nat.le_of_eq ((List.length_map _).trans hLength))]
    exact hNames
  have hReadable : (∀ member ∈ record.fieldMembers items ++ extras, record.Readable member) ↔
      List.Forall₂ Checks record.fields items := by
    rw [List.forall_mem_append, fieldMembers, readable_fieldMembers hFields hLength]
    exact and_iff_left fun extra hExtra => (hExtras extra hExtra).readable
  refine (decoder_perm hLawful name hPerm).trans (toOption_eq_iff.mpr fun result => ?_)
  rw [decoder_object_eq_ok_iff, decoder_array_eq_ok_iff hLawful hLength, hKnown, hReadable]
  exact and_congr_right fun _ => and_iff_right hKeys

end Record

end SourceIndex.Json
