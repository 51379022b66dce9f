import Mathlib.Data.List.Perm.Basic
import SourceIndex.IndexRequest
import SourceIndex.Proofs.Json.Records
import SourceIndex.Proofs.Json.Texts
import SourceIndex.Proofs.Pairing
import SourceIndex.Proofs.Run.Validation

/-!
# How requests are written

A request is read from the values under its thirteen names and from nothing else.
So the order of members says nothing, nor do blanks, nor members under other
names, and a member that says what holds without it may be left out.

What is said here of texts rests on two facts.  A text is that of an object
exactly when it is made of the texts of members (`Json.isText_object_iff`), so a
text can be taken apart and put together again; and putting a request together
is one reading for each field (`assemble_eq_ok_iff`), none of which looks at
another field.

## Main results

* `assemble_eq_ok_iff` — each field is read from its own member.
* `IsStandard.ignores` — a member with the standard value of its field may be
  missing.
* `standardMembers_standard` — standard values for all fields.
* `read?_objectText`, `read?_arrayText` — what the texts of objects and lists
  read as.
* `ofText_spelling` — a request does not depend on how it is written.
-/

namespace SourceIndex.IndexRequest

open Json (Literal Fields Record DecodeError Layout IsText IsMemberText objectText arrayText)
open Json.Record (fieldValue)

/-! ### Names and standard values -/

/-- The names of a request's fields, in their declared order. -/
def names : List String :=
  ["owner", "repo", "branch", "credentials", "githubToken", "openaiApiKey", "embeddingProvider",
    "outputFormat", "maxFiles", "fileExtensions", "excludePatterns", "includeDocstrings",
    "chunkStrategy"]

theorem names_fields : record.fields.map (·.1) = names := rfl

theorem names_nodup : names.Nodup := by decide

theorem isSome_lookup_fields_iff {name : String} :
    (record.fields.lookup name).isSome = true ↔ name ∈ names := by
  rw [Json.isSome_lookup_iff, names_fields]

theorem lookup_fields_eq_none_iff {name : String} :
    record.fields.lookup name = none ↔ name ∉ names := by
  rw [← isSome_lookup_fields_iff, Option.not_isSome_iff_eq_none]

/-- What is asked for when nothing is said. -/
def standard : IndexRequest where
  owner := ""
  repo := ""
  branch := "main"
  credentials := ⟨none, none⟩
  githubToken := none
  openaiApiKey := none
  embeddingProvider := "local"
  outputFormat := "full"
  maxFiles := 0
  fileExtensions := standardExtensions
  excludePatterns := standardExcludes
  includeDocstrings := true
  chunkStrategy := "function"

/-- A value that says of a field what holds when nothing is said: alone in an object, it makes
the standard request. -/
def IsStandard (name : String) (value : Json) : Prop :=
  name ∈ names ∧ ofDocument ⟨.object [(.text name, value)], false⟩ = .ok standard

/-- The standard values of the fields, spelled out. -/
def standardMembers : List (String × Json) :=
  [("owner", .text ""), ("repo", .text ""), ("branch", .text "main"),
    ("credentials", .record [("githubToken", .null), ("openaiApiKey", .null)]),
    ("githubToken", .null), ("openaiApiKey", .null), ("embeddingProvider", .text "local"),
    ("outputFormat", .text "full"), ("maxFiles", .nat 0),
    ("fileExtensions", .texts standardExtensions), ("excludePatterns", .texts standardExcludes),
    ("includeDocstrings", .bool true), ("chunkStrategy", .text "function")]

/-- **The standard values are standard values**, one for each field. -/
theorem standardMembers_standard :
    standardMembers.map (·.1) = names ∧
      ∀ entry ∈ standardMembers, IsStandard entry.1 entry.2 := by
  refine ⟨rfl, fun entry hEntry => ⟨List.mem_map_of_mem (f := (·.1)) hEntry, ?_⟩⟩
  revert entry
  simp only [standardMembers, List.forall_mem_cons]
  exact ⟨rfl, rfl, rfl, rfl, rfl, rfl, rfl, rfl, rfl, rfl, rfl, rfl, rfl, nofun⟩

/-! ### Reading field by field -/

/-- A document with nothing behind its value is read by its value. -/
theorem ofDocument_whole (json : Json) :
    ofDocument ⟨json, false⟩ = record.decoder "IndexRequest" json := by
  rw [ofDocument, Json.Document.decode]
  cases record.decoder "IndexRequest" json <;> rfl

/-- **Each field is read from its own member**, or has its standard value. -/
theorem assemble_eq_ok_iff {missing : String → DecodeError} {found : Fields}
    {request : IndexRequest} :
    record.assemble missing found = .ok request ↔
      fieldValue found "owner" .string "" = .ok request.owner ∧
      fieldValue found "repo" .string "" = .ok request.repo ∧
      fieldValue found "branch" .string "main" = .ok request.branch ∧
      fieldValue found "credentials" (credentialsRecord.decoder "Credentials") ⟨none, none⟩ =
        .ok request.credentials ∧
      fieldValue found "githubToken" (.optional secret) none = .ok request.githubToken ∧
      fieldValue found "openaiApiKey" (.optional secret) none = .ok request.openaiApiKey ∧
      fieldValue found "embeddingProvider" .string "local" = .ok request.embeddingProvider ∧
      fieldValue found "outputFormat" .string "full" = .ok request.outputFormat ∧
      fieldValue found "maxFiles" (.nat "usize") 0 = .ok request.maxFiles ∧
      fieldValue found "fileExtensions" stringList standardExtensions =
        .ok request.fileExtensions ∧
      fieldValue found "excludePatterns" stringList standardExcludes =
        .ok request.excludePatterns ∧
      fieldValue found "includeDocstrings" .bool true = .ok request.includeDocstrings ∧
      fieldValue found "chunkStrategy" .string "function" = .ok request.chunkStrategy := by
  simp only [record, Record.seq, Record.pure, bind_assoc, pure_bind, RunPlan.bind_eq_ok_iff,
    Except.ok.injEq, exists_eq_left']
  constructor
  · rintro ⟨_, hOwner, _, hRepo, _, hBranch, _, hCredentials, _, hToken, _, hKey, _, hProvider,
      _, hFormat, _, hFiles, _, hExtensions, _, hExcludes, _, hDocstrings, _, hStrategy, ⟨⟩⟩
    exact ⟨hOwner, hRepo, hBranch, hCredentials, hToken, hKey, hProvider, hFormat, hFiles,
      hExtensions, hExcludes, hDocstrings, hStrategy⟩
  · rintro ⟨hOwner, hRepo, hBranch, hCredentials, hToken, hKey, hProvider, hFormat, hFiles,
      hExtensions, hExcludes, hDocstrings, hStrategy⟩
    exact ⟨_, hOwner, _, hRepo, _, hBranch, _, hCredentials, _, hToken, _, hKey, _, hProvider,
      _, hFormat, _, hFiles, _, hExtensions, _, hExcludes, _, hDocstrings, _, hStrategy, rfl⟩

theorem lawful_record : record.Lawful :=
  Record.lawful_pure IndexRequest.mk
    |>.withDefault |>.withDefault |>.withDefault |>.withDefault |>.withDefault |>.withDefault
    |>.withDefault |>.withDefault |>.withDefault |>.withDefault |>.withDefault |>.withDefault
    |>.withDefault

namespace IsStandard

variable {name : String} {value : Json}

/-- Alone in an object, a standard value can be read and makes the standard request. -/
theorem alone (h : IsStandard name value) :
    record.Readable (.text name, value) ∧
      record.assemble Record.missingField [(name, value)] = .ok standard := by
  obtain ⟨hName, hRead⟩ := h
  obtain ⟨check, hCheck⟩ := Option.isSome_iff_exists.mp (isSome_lookup_fields_iff.mpr hName)
  rw [ofDocument_whole, Record.decoder_object_eq_ok_iff, Record.known_known hCheck] at hRead
  exact ⟨hRead.1 _ List.mem_cons_self, hRead.2.2⟩

/-- **A member with a standard value may be missing.** -/
theorem ignores (h : IsStandard name value) : record.Ignores name value := by
  obtain ⟨hOwner, hRepo, hBranch, hCredentials, hToken, hKey, hProvider, hFormat, hFiles,
    hExtensions, hExcludes, hDocstrings, hStrategy⟩ := assemble_eq_ok_iff.mp h.alone.2
  exact Record.ignores_pure IndexRequest.mk
    |>.withDefault hOwner |>.withDefault hRepo |>.withDefault hBranch
    |>.withDefault hCredentials |>.withDefault hToken |>.withDefault hKey
    |>.withDefault hProvider |>.withDefault hFormat |>.withDefault hFiles
    |>.withDefault hExtensions |>.withDefault hExcludes |>.withDefault hDocstrings
    |>.withDefault hStrategy

end IsStandard

/-! ### Reading texts -/

/-- The request that a text reads as, if it does. -/
def read? (text : String) : Option IndexRequest := (ofText text).toOption

/-- Texts that are the members of an object, whatever their keys and values are. -/
def AreMembers (parts : List (String × String)) : Prop :=
  ∀ part ∈ parts, ∃ member, IsMemberText part member

/-- A member whose key spells the name, with whatever blanks and escapes. A literal with half a
surrogate pair is no text, so it spells no name. -/
def HasKey (part : String × String) (name : String) : Prop :=
  IsText part.1 (.string (.text name))

section Texts

variable {layout : Layout} {parts front middle back permuted : List (String × String)}
  {part again : String × String} {members : List (Literal × Json)} {name : String} {value : Json}

theorem read?_isText {text : String} {json : Json} (hText : IsText text json) :
    read? text = (record.decoder "IndexRequest" json).toOption := by
  rw [read?, ofText, hText.2, ofDocument_whole]

/-- **The text of an object is read by its members**, not by its blanks. -/
theorem read?_objectText (layout : Layout) (hParts : List.Forall₂ IsMemberText parts members) :
    read? (objectText layout parts) =
      (record.decoder "IndexRequest" (.object members)).toOption :=
  read?_isText (Json.isText_objectText layout hParts)

/-- **The text of a list is read by its items.** -/
theorem read?_arrayText (layout : Layout) {texts : List String} {items : List Json}
    (hTexts : List.Forall₂ IsText texts items) :
    read? (arrayText layout texts) = (record.decoder "IndexRequest" (.array items)).toOption :=
  read?_isText (Json.isText_arrayText layout hTexts)

theorem AreMembers.exists_members (h : AreMembers parts) :
    ∃ members, List.Forall₂ IsMemberText parts members :=
  Pairing.exists_partners h

theorem areMembers_append :
    AreMembers (front ++ back) ↔ AreMembers front ∧ AreMembers back :=
  List.forall_mem_append

theorem areMembers_cons :
    AreMembers (part :: parts) ↔ (∃ member, IsMemberText part member) ∧ AreMembers parts :=
  List.forall_mem_cons

/-- A member with a key is one with the name of the key. -/
theorem HasKey.exists_value (hKey : HasKey part name) (hPart : ∃ member, IsMemberText part member) :
    ∃ value, IsMemberText part (.text name, value) := by
  obtain ⟨member, _, hValue⟩ := hPart
  exact ⟨member.2, hKey, hValue⟩

/-- Members in another order, between other blanks. -/
theorem read?_perm (hParts : AreMembers parts) (hPerm : parts.Perm permuted)
    (layout other : Layout) :
    read? (objectText other permuted) = read? (objectText layout parts) := by
  obtain ⟨members, hMembers⟩ := hParts.exists_members
  obtain ⟨others, hOthers, hSame⟩ := List.perm_comp_forall₂ hPerm.symm hMembers
  rw [read?_objectText other hOthers, read?_objectText layout hMembers]
  exact Record.decoder_perm lawful_record "IndexRequest" hSame

/-- A member under a name that no field has. -/
theorem read?_insert_unknown (hParts : AreMembers (front ++ back))
    (hExtra : ∃ member, IsMemberText part member) (hKey : HasKey part name) (hName : name ∉ names)
    (layout other : Layout) :
    read? (objectText other (front ++ part :: back)) =
      read? (objectText layout (front ++ back)) := by
  obtain ⟨hFront, hBack⟩ := areMembers_append.mp hParts
  obtain ⟨before, hBefore⟩ := hFront.exists_members
  obtain ⟨after, hAfter⟩ := hBack.exists_members
  obtain ⟨value, hValue⟩ := hKey.exists_value hExtra
  rw [read?_objectText other (List.rel_append hBefore (.cons hValue hAfter)),
    read?_objectText layout (List.rel_append hBefore hAfter)]
  exact Record.decoder_insert_extra "IndexRequest"
    ⟨name, rfl, lookup_fields_eq_none_iff.mpr hName, hValue.2.1⟩ before after

/-- A member with the standard value of a field that is missing. -/
theorem read?_insert_standard (hParts : AreMembers (front ++ back)) (hKey : HasKey part name)
    (hValue : IsText part.2 value) (hStandard : IsStandard name value)
    (hMissing : ∀ present ∈ front ++ back, ¬ HasKey present name) (layout other : Layout) :
    read? (objectText other (front ++ part :: back)) =
      read? (objectText layout (front ++ back)) := by
  obtain ⟨hFront, hBack⟩ := areMembers_append.mp hParts
  obtain ⟨before, hBefore⟩ := hFront.exists_members
  obtain ⟨after, hAfter⟩ := hBack.exists_members
  have hMembers : List.Forall₂ IsMemberText (front ++ back) (before ++ after) :=
    List.rel_append hBefore hAfter
  have hOmitted : ∀ member ∈ before ++ after, member.1 ≠ .text name := by
    rintro ⟨literal, json⟩ hMember rfl
    obtain ⟨present, hPresent, hSpelled⟩ := Pairing.exists_left hMembers hMember
    exact hMissing present hPresent hSpelled.1
  have hAdded : IsMemberText part (.text name, value) := ⟨hKey, hValue⟩
  rw [read?_objectText other (List.rel_append hBefore (.cons hAdded hAfter)),
    read?_objectText layout hMembers]
  exact Record.decoder_insert_ignored "IndexRequest" hStandard.ignores
    (isSome_lookup_fields_iff.mpr hStandard.1) hStandard.alone.1 hOmitted

/-- A field that is given twice. -/
theorem read?_repeated (hParts : AreMembers (front ++ part :: (middle ++ again :: back)))
    (hPart : HasKey part name) (hAgain : HasKey again name) (hName : name ∈ names)
    (layout : Layout) :
    read? (objectText layout (front ++ part :: (middle ++ again :: back))) = none := by
  rw [areMembers_append, areMembers_cons, areMembers_append, areMembers_cons] at hParts
  obtain ⟨hFront, hFirst, hMiddle, hSecond, hBack⟩ := hParts
  obtain ⟨before, hBefore⟩ := hFront.exists_members
  obtain ⟨first, hFirst⟩ := hPart.exists_value hFirst
  obtain ⟨between, hBetween⟩ := hMiddle.exists_members
  obtain ⟨second, hSecond⟩ := hAgain.exists_value hSecond
  obtain ⟨after, hAfter⟩ := hBack.exists_members
  rw [read?_objectText layout (List.rel_append hBefore
    (.cons hFirst (List.rel_append hBetween (.cons hSecond hAfter))))]
  exact Record.decoder_repeated "IndexRequest" (isSome_lookup_fields_iff.mpr hName)
    before between after

/-- Members under the given names are those names with their values. -/
theorem exists_named {keys : List String} (hNamed : List.Forall₂ HasKey parts keys)
    (hParts : AreMembers parts) :
    ∃ items, List.Forall₂ IsText (parts.map (·.2)) items ∧
      List.Forall₂ IsMemberText parts ((keys.zip items).map Json.memberOf) := by
  induction hNamed with
  | nil => exact ⟨[], .nil, .nil⟩
  | cons hKey _ ih =>
      obtain ⟨hPart, hRest⟩ := areMembers_cons.mp hParts
      obtain ⟨value, hValue⟩ := hKey.exists_value hPart
      obtain ⟨items, hTexts, hMembers⟩ := ih hRest
      exact ⟨value :: items, .cons hValue.2 hTexts, .cons hValue hMembers⟩

/-- An object with all fields, and the array of their values. -/
theorem read?_fields {fields extras : List (String × String)}
    (hParts : AreMembers (fields ++ extras)) (hFields : List.Forall₂ HasKey fields names)
    (hExtras : ∀ extra ∈ extras, ∃ name, HasKey extra name ∧ name ∉ names)
    (layout other : Layout) :
    read? (objectText layout (fields ++ extras)) =
      read? (arrayText other (fields.map (·.2))) := by
  obtain ⟨hKnown, hOthers⟩ := areMembers_append.mp hParts
  obtain ⟨items, hTexts, hMembers⟩ := exists_named hFields hKnown
  have hUnknown : ∀ extra ∈ extras, ∃ member, IsMemberText extra member ∧ record.Extra member := by
    intro extra hExtra
    obtain ⟨name, hKey, hName⟩ := hExtras extra hExtra
    obtain ⟨value, hValue⟩ := hKey.exists_value (hOthers extra hExtra)
    exact ⟨(.text name, value), hValue, name, rfl, lookup_fields_eq_none_iff.mpr hName, hValue.2.1⟩
  obtain ⟨others, hPaired⟩ := Pairing.exists_partners hUnknown
  have hLength : record.fields.length = items.length := by
    rw [← hTexts.length_eq, List.length_map, hFields.length_eq, ← names_fields, List.length_map]
  rw [read?_objectText layout (List.rel_append hMembers (hPaired.imp fun _ _ h => h.1)),
    read?_arrayText other hTexts]
  refine Record.decoder_object_eq_array lawful_record "IndexRequest" names_nodup hLength ?_
    (.refl _)
  intro member hMember
  obtain ⟨_, _, _, hExtra⟩ := Pairing.exists_left hPaired hMember
  exact hExtra

end Texts

/-- **A request does not depend on how it is written.**  The texts of objects are those made of
members, and for each of them: the order of the members and the blanks around them do not matter;
a member under a name that no field has does not matter, wherever it stands and whatever its value
is; nor does a member with the standard value of a field that is missing, as there is one for
each field; a field that is given twice is an error; and a text with all fields reads like the
array of their values in the declared order. -/
theorem ofText_spelling :
    (∀ text, (∃ members, IsText text (.object members)) ↔
      ∃ layout parts, AreMembers parts ∧ text = objectText layout parts) ∧
    (standardMembers.map (·.1) = names ∧
      ∀ entry ∈ standardMembers, IsStandard entry.1 entry.2) ∧
    ∀ layout other parts, AreMembers parts →
      (∀ permuted, parts.Perm permuted →
        read? (objectText other permuted) = read? (objectText layout parts)) ∧
      (∀ front back extra name, parts = front ++ back →
        (∃ member, IsMemberText extra member) → HasKey extra name → name ∉ names →
          read? (objectText other (front ++ extra :: back)) =
            read? (objectText layout parts)) ∧
      (∀ front back added name value, parts = front ++ back →
        (∀ part ∈ parts, ¬ HasKey part name) →
        HasKey added name → IsText added.2 value → IsStandard name value →
          read? (objectText other (front ++ added :: back)) =
            read? (objectText layout parts)) ∧
      (∀ front middle back part again name, parts = front ++ part :: (middle ++ again :: back) →
        HasKey part name → HasKey again name → name ∈ names →
          read? (objectText layout parts) = none) ∧
      ∀ fields extras, parts.Perm (fields ++ extras) → List.Forall₂ HasKey fields names →
        (∀ extra ∈ extras, ∃ name, HasKey extra name ∧ name ∉ names) →
          read? (objectText layout parts) = read? (arrayText other (fields.map (·.2))) := by
  refine ⟨fun text => ⟨?_, ?_⟩, standardMembers_standard, fun layout other parts hParts =>
    ⟨fun permuted hPerm => read?_perm hParts hPerm layout other, ?_, ?_, ?_, ?_⟩⟩
  · rintro ⟨members, hText⟩
    obtain ⟨layout, parts, hMembers, hParts⟩ := Json.isText_object_iff.mp hText
    refine ⟨layout, parts, fun part hPart => ?_, hParts⟩
    obtain ⟨member, _, hMember⟩ := Pairing.exists_right hMembers hPart
    exact ⟨member, hMember⟩
  · rintro ⟨layout, parts, hParts, rfl⟩
    obtain ⟨members, hMembers⟩ := hParts.exists_members
    exact ⟨members, Json.isText_objectText layout hMembers⟩
  · rintro front back extra name rfl hExtra hKey hName
    exact read?_insert_unknown hParts hExtra hKey hName layout other
  · rintro front back added name value rfl hMissing hKey hValue hStandard
    exact read?_insert_standard hParts hKey hValue hStandard hMissing layout other
  · rintro front middle back part again name rfl hPart hAgain hName
    exact read?_repeated hParts hPart hAgain hName layout
  · intro fields extras hPerm hFields hExtras
    rw [← read?_perm hParts hPerm layout layout]
    exact read?_fields (fun part hPart => hParts part (hPerm.mem_iff.mpr hPart)) hFields hExtras
      layout other

/-! ### A request and its texts -/

/-- The texts of a member's key and value as they are printed. -/
def printed (member : String × Json) : String × String :=
  ((Json.text member.1).render, member.2.render)

theorem hasKey_printed (member : String × Json) : HasKey (printed member) member.1 :=
  (Json.Sound.text member.1).isText

theorem hasKey_printed_iff {member : String × Json} {name : String} :
    HasKey (printed member) name ↔ member.1 = name := by
  constructor
  · intro hKey
    exact Literal.text.inj (Json.string.inj ((hasKey_printed member).unique hKey))
  · rintro rfl
    exact hasKey_printed member

theorem forall₂_printed {members : List (String × Json)}
    (hMembers : ∀ member ∈ members, Json.Sound member.2) :
    List.Forall₂ IsMemberText (members.map printed) (members.map Json.memberOf) := by
  rw [List.forall₂_map_left_iff, List.forall₂_map_right_iff, List.forall₂_same]
  exact fun member hMember => ⟨hasKey_printed member, (hMembers member hMember).isText⟩

theorem areMembers_printed {members : List (String × Json)}
    (hMembers : ∀ member ∈ members, Json.Sound member.2) : AreMembers (members.map printed) := by
  intro part hPart
  obtain ⟨member, _, hMember⟩ := Pairing.exists_right (forall₂_printed hMembers) hPart
  exact ⟨member, hMember⟩

theorem sound_texts (values : List String) : Json.Sound (.texts values) := by
  refine .array fun item hItem => ?_
  obtain ⟨value, _, rfl⟩ := List.mem_map.mp hItem
  exact .text value

/-- A request for one repository, with all fields spelled out. -/
def engineMembers : List (String × Json) :=
  ("owner", .text "ada") :: ("repo", .text "engine") :: standardMembers.drop 2

theorem sound_engineMembers : ∀ member ∈ engineMembers, Json.Sound member.2 := by
  have hTokens : ∀ member ∈ [("githubToken", Json.null), ("openaiApiKey", Json.null)],
      Json.Sound member.2 :=
    List.forall_mem_cons.mpr ⟨.null, List.forall_mem_singleton.mpr .null⟩
  simp only [engineMembers, standardMembers, List.drop_succ_cons, List.drop_zero,
    List.forall_mem_cons]
  exact ⟨.text _, .text _, .text _, .record hTokens, .null, .null, .text _, .text _,
    .number (Json.Number.sound_ofNat 0), sound_texts _, sound_texts _, .bool _, .text _, nofun⟩

/-- Backwards, with a note, without its branch, with two owners, and as an array. -/
theorem ofText_spelling_engine :
    AreMembers (engineMembers.map printed) ∧
    read? (objectText .tight (engineMembers.map printed)) =
      some { standard with owner := "ada", repo := "engine" } ∧
    read? (objectText .tight (engineMembers.map printed).reverse) =
      some { standard with owner := "ada", repo := "engine" } ∧
    read? (objectText .tight (printed ("note", .null) :: engineMembers.map printed)) =
      some { standard with owner := "ada", repo := "engine" } ∧
    read? (objectText .tight ((engineMembers.eraseIdx 2).map printed)) =
      some { standard with owner := "ada", repo := "engine" } ∧
    read? (objectText .tight (printed ("owner", .text "bob") :: engineMembers.map printed)) =
      none ∧
    read? (arrayText .tight (engineMembers.map fun member => member.2.render)) =
      some { standard with owner := "ada", repo := "engine" } := by
  obtain ⟨_, ⟨_, hStandards⟩, hTexts⟩ := ofText_spelling
  have hParts : AreMembers (engineMembers.map printed) := areMembers_printed sound_engineMembers
  have hRead : read? (objectText .tight (engineMembers.map printed)) =
      some { standard with owner := "ada", repo := "engine" } := by
    rw [read?_objectText .tight (forall₂_printed sound_engineMembers)]
    rfl
  have hNamed : List.Forall₂ HasKey (engineMembers.map printed) names := by
    have hNames : names = engineMembers.map (·.1) := rfl
    rw [hNames, List.forall₂_map_left_iff, List.forall₂_map_right_iff, List.forall₂_same]
    exact fun member _ => hasKey_printed member
  obtain ⟨hOrder, hUnknown, _, _, hArray⟩ := hTexts .tight .tight _ hParts
  refine ⟨hParts, hRead, ?_, ?_, ?_, ?_, ?_⟩
  · rw [hOrder _ (List.reverse_perm _).symm, hRead]
  · rw [← hRead]
    exact hUnknown [] _ (printed ("note", .null)) "note" rfl
      ⟨(.text "note", .null), (Json.Sound.text "note").isText, Json.Sound.null.isText⟩
      (hasKey_printed _) (by decide)
  · have hSound : ∀ member ∈ engineMembers.eraseIdx 2, Json.Sound member.2 :=
      fun member hMember => sound_engineMembers member (List.mem_of_mem_eraseIdx hMember)
    obtain ⟨_, _, hMissing, _, _⟩ := hTexts .tight .tight _ (areMembers_printed hSound)
    rw [← hRead]
    refine (hMissing ((engineMembers.take 2).map printed) ((engineMembers.drop 3).map printed)
      (printed ("branch", .text "main")) "branch" (.text "main") rfl ?_ (hasKey_printed _)
      (Json.Sound.text _).isText (hStandards ("branch", .text "main") ?_)).symm
    · intro part hPart hKey
      obtain ⟨member, hMember, rfl⟩ := List.mem_map.mp hPart
      have hName := hasKey_printed_iff.mp hKey
      have hMem : "branch" ∈ (engineMembers.eraseIdx 2).map (·.1) :=
        hName ▸ List.mem_map_of_mem hMember
      exact absurd hMem (by decide)
    · exact .tail _ (.tail _ (.head _))
  · have hTwice : AreMembers (printed ("owner", .text "bob") :: engineMembers.map printed) :=
      areMembers_cons.mpr ⟨⟨(.text "owner", .text "bob"), (Json.Sound.text "owner").isText,
        (Json.Sound.text "bob").isText⟩, hParts⟩
    obtain ⟨_, _, _, hRepeated, _⟩ := hTexts .tight .tight _ hTwice
    exact hRepeated [] [] _ _ (printed ("owner", .text "ada")) "owner" rfl (hasKey_printed _)
      (hasKey_printed _) (by decide)
  · rw [← hRead, hArray (engineMembers.map printed) [] (by rw [List.append_nil]) hNamed nofun,
      List.map_map]
    rfl

end SourceIndex.IndexRequest
