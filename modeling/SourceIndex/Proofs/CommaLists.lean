import SourceIndex.Proofs.IndexRequest
import SourceIndex.Proofs.Text.Cuts
import SourceIndex.Proofs.Text.Trimming

/-!
# Lists in one string

A list of a request is an array of strings, or one string with commas between
the entries.  The string is cut at its commas, and of each piece the blanks at
its ends are dropped, and the piece itself where nothing else is in it.  An
array is taken as it is.

For the extensions of files both say the same.  A filter trims the extensions it
is made of and drops those that are empty afterwards, so it does not see whether
this was done before (`extensionTexts_entries`), and nothing else of a plan looks
at them (`ofRequest_extensions`).  A request that is written with the string is
read where the one with the array is, and differs from it in this field alone
(`decoder_extensions`).

## Main results

* `stringList_commas`, `stringList_texts` — what strings and arrays read as.
* `ofRequest_extensions` — lists of extensions that make the same plans.
* `commaLists_agree` — the string and the array say the same.
-/

namespace SourceIndex.IndexRequest

open Json (IsMemberText Record objectText)
open Json.Record (fieldValue)

/-- A text between blanks. -/
def Padded (text padded : String) : Prop :=
  ∃ before after : String, padded = before ++ text ++ after ∧
    Text.isBlankText before = true ∧ Text.isBlankText after = true

/-- The texts that are not blank, without their outer blanks. -/
def entries (texts : List String) : List String :=
  (texts.filter fun text => !Text.isBlankText text).map Text.trimmed

variable {text padded : String} {texts pieces : List String}

/-! ## Trimmed pieces -/

theorem isBlankText_iff :
    Text.isBlankText text = true ↔ ∀ c ∈ text.toList, Text.isBlank c = true := by
  rw [Text.isBlankText, Text.allBlank, List.all_eq_true]

/-- Blanks around a text are trimmed away with its own. -/
theorem Padded.trim_eq (h : Padded text padded) :
    Text.trim padded.toList = Text.trim text.toList := by
  obtain ⟨before, after, rfl, hBefore, hAfter⟩ := h
  have hTrims := (Text.trims_iff.mpr rfl : Text.Trims text.toList _).padded
    (isBlankText_iff.mp hBefore) (isBlankText_iff.mp hAfter)
  rw [String.toList_append, String.toList_append, Text.trims_iff.mp hTrims]

/-- Nothing is left of blank texts, and of no others. -/
theorem isEmpty_trim (text : String) :
    (Text.trim text.toList).isEmpty = Text.isBlankText text := by
  rw [Bool.eq_iff_iff, List.isEmpty_iff, isBlankText_iff, ← Text.trims_iff, Text.trims_nil_iff]

/-- Padded texts have no commas where the texts have none. -/
theorem Padded.comma_not_mem (h : Padded text padded) (hText : ',' ∉ text.toList) :
    ',' ∉ padded.toList := by
  obtain ⟨before, after, rfl, hBefore, hAfter⟩ := h
  intro hMem
  rw [String.toList_append, String.toList_append, List.mem_append, List.mem_append] at hMem
  rcases hMem with (hMem | hMem) | hMem
  · exact absurd (isBlankText_iff.mp hBefore _ hMem) (by decide)
  · exact hText hMem
  · exact absurd (isBlankText_iff.mp hAfter _ hMem) (by decide)

/-! ## What strings and arrays read as -/

/-- What is kept of pieces are the entries. -/
theorem filterMap_trim (hPadded : List.Forall₂ Padded texts pieces) :
    ((pieces.map String.toList).map Text.trim).filterMap
        (fun piece => if piece.isEmpty then none else some (String.ofList piece)) =
      entries texts := by
  induction hPadded with
  | nil => rfl
  | @cons text padded texts pieces hText _ ih =>
      rw [List.map_cons, List.map_cons, List.filterMap_cons, hText.trim_eq, isEmpty_trim, ih,
        entries, entries, List.filter_cons]
      cases Text.isBlankText text with
      | true => rfl
      | false => rfl

/-- A joined list is cut into its pieces. -/
theorem splitWhere_commas (hCommas : ∀ piece ∈ pieces, ',' ∉ piece.toList) (hSome : pieces ≠ []) :
    Text.splitWhere (· == ',') (",".intercalate pieces).toList = pieces.map String.toList := by
  rw [String.toList_intercalate]
  refine Text.splitWhere_joined (by decide) (by simpa using hSome) ?_
  rintro part hPart c hMem
  obtain ⟨piece, hPiece, rfl⟩ := List.mem_map.mp hPart
  rw [beq_eq_false_iff_ne]
  rintro rfl
  exact hCommas piece hPiece hMem

/-- **A string is read as the entries between its commas.** -/
theorem stringList_commas (hCommas : ∀ text ∈ texts, ',' ∉ text.toList)
    (hPadded : List.Forall₂ Padded texts pieces) :
    stringList (.text (",".intercalate pieces)) = .ok (entries texts) := by
  have hRead : stringList (.text (",".intercalate pieces)) =
      .ok (commaList (",".intercalate pieces)) := rfl
  rcases eq_or_ne pieces [] with rfl | hSome
  · cases hPadded
    rfl
  · have hPieces : ∀ piece ∈ pieces, ',' ∉ piece.toList := by
      intro piece hPiece
      obtain ⟨text, hMem, hText⟩ := Pairing.exists_left hPadded hPiece
      exact hText.comma_not_mem (hCommas text hMem)
    rw [hRead, commaList, splitWhere_commas hPieces hSome, filterMap_trim hPadded]

theorem readFaultOfItems?_texts (depth : Nat) (texts : List String) :
    Json.readFaultOfItems? depth (texts.map Json.text) = none := by
  induction texts with
  | nil => rfl
  | cons text texts ih => exact ih

theorem mapM_plainText? (texts : List String) :
    (texts.map Json.text).mapM plainText? = some texts := by
  induction texts with
  | nil => rfl
  | cons text texts ih =>
      rw [List.map_cons, List.mapM_cons, ih]
      rfl

/-- **An array of strings is read as it is.** -/
theorem stringList_texts (texts : List String) : stringList (.texts texts) = .ok texts := by
  have hFault : (Json.texts texts).readFault? (Json.maxDepth - 1) = none :=
    readFaultOfItems?_texts _ texts
  rw [stringList, hFault]
  dsimp only [Json.texts]
  rw [mapM_plainText?]

/-! ## Extensions -/

/-- The extensions that are not empty once they are normalized. -/
def extensionTexts (extensions : List String) : List (List Char) :=
  (extensions.map FileFilter.normalizedExtension).filter (!·.isEmpty)

theorem Padded.normalizedExtension_eq (h : Padded text padded) :
    FileFilter.normalizedExtension padded = FileFilter.normalizedExtension text := by
  rw [FileFilter.normalizedExtension, FileFilter.normalizedExtension, h.trim_eq]

theorem normalizedExtension_trimmed (text : String) :
    FileFilter.normalizedExtension (Text.trimmed text) = FileFilter.normalizedExtension text := by
  have hTrimmed : Text.trim (Text.trimmed text).toList = Text.trim text.toList := by
    rw [Text.trims_iff.mp (Text.trims_trimmed text).again, Text.trimmed, String.toList_ofList]
  rw [FileFilter.normalizedExtension, FileFilter.normalizedExtension, hTrimmed]

theorem normalizedExtension_of_blank (h : Text.isBlankText text = true) :
    FileFilter.normalizedExtension text = [] := by
  rw [← isEmpty_trim, List.isEmpty_iff] at h
  rw [FileFilter.normalizedExtension, h]
  rfl

/-- **A filter trims and drops once more** what was trimmed and dropped. -/
theorem extensionTexts_entries (hPadded : List.Forall₂ Padded texts pieces) :
    extensionTexts (entries texts) = extensionTexts pieces := by
  induction hPadded with
  | nil => rfl
  | @cons text padded texts pieces hText _ ih =>
      rw [extensionTexts, extensionTexts, entries] at ih
      rw [extensionTexts, extensionTexts, entries, List.map_cons, hText.normalizedExtension_eq]
      cases hBlank : Text.isBlankText text with
      | true =>
          rw [List.filter_cons_of_neg (by simp [hBlank]), normalizedExtension_of_blank hBlank,
            List.filter_cons_of_neg (by simp), ih]
      | false =>
          rw [List.filter_cons_of_pos (by simp [hBlank]), List.map_cons, List.map_cons,
            normalizedExtension_trimmed, List.filter_cons, List.filter_cons, ih]

section Plans

variable {extensions others : List String}

/-- A filter is made of nothing else of the extensions. -/
theorem ofLists_extensions (h : extensionTexts extensions = extensionTexts others)
    (exclude : List String) :
    FileFilter.ofLists extensions exclude = FileFilter.ofLists others exclude := by
  rw [extensionTexts, extensionTexts] at h
  rw [FileFilter.ofLists, FileFilter.ofLists, h]

/-- **Nothing of a plan but its filter looks at the extensions.** -/
theorem ofRequest_extensions (h : extensionTexts extensions = extensionTexts others)
    (request : IndexRequest) (environment : Environment) :
    RunPlan.ofRequest { request with fileExtensions := extensions } environment =
      RunPlan.ofRequest { request with fileExtensions := others } environment := by
  unfold RunPlan.ofRequest
  dsimp only
  rw [ofLists_extensions h]
  rfl

end Plans

/-! ## Another value for the extensions -/

section Members

variable {before after : List (Json.Literal × Json)} {old new : Json} {request : IndexRequest}
  {extensions : List String}

/-- An object with a value for the extensions among its members. -/
def extending (before after : List (Json.Literal × Json)) (value : Json) : Json :=
  .object (before ++ (.text "fileExtensions", value) :: after)

/-- **A request with another value for its extensions** differs in this field alone. -/
theorem decoder_extensions (hNew : stringList new = .ok extensions)
    (hRead : record.decoder "IndexRequest" (extending before after old) = .ok request) :
    record.decoder "IndexRequest" (extending before after new) =
      .ok { request with fileExtensions := extensions } := by
  have hCheck : record.fields.lookup "fileExtensions" =
      some fun value => (stringList value).map fun _ => () := rfl
  have hKnown (value : Json) :
      record.known (before ++ (.text "fileExtensions", value) :: after) =
        record.known before ++ ("fileExtensions", value) :: record.known after := by
    rw [Record.known_append, Record.known_known hCheck]
  rw [extending, Record.decoder_object_eq_ok_iff, hKnown] at hRead ⊢
  obtain ⟨hReadable, hKeys, hAssemble⟩ := hRead
  rw [List.forall_mem_append, List.forall_mem_cons] at hReadable ⊢
  refine ⟨⟨hReadable.1, ?_, hReadable.2.2⟩, ?_, ?_⟩
  · rw [Record.readable_known hCheck, hNew]
    rfl
  · rw [List.map_append, List.map_cons] at hKeys ⊢
    exact hKeys
  · have hBefore : (record.known before).lookup "fileExtensions" = none := by
      rw [List.map_append, List.map_cons, List.nodup_middle, List.nodup_cons] at hKeys
      rw [← Option.not_isSome_iff_eq_none, Json.isSome_lookup_iff]
      exact fun hMem => hKeys.1 (List.mem_append_left _ hMem)
    -- Under all other names there is what there was.
    have hSame {α : Type} {name : String} {decoder : Json.Decoder α} {standard value : α}
        (hName : name ≠ "fileExtensions")
        (hValue : fieldValue (record.known before ++ ("fileExtensions", old) :: record.known after)
          name decoder standard = .ok value) :
        fieldValue (record.known before ++ ("fileExtensions", new) :: record.known after)
          name decoder standard = .ok value := by
      rw [fieldValue, Record.lookup_middle hBefore, if_neg hName] at hValue ⊢
      exact hValue
    have hOwn : fieldValue (record.known before ++ ("fileExtensions", new) :: record.known after)
        "fileExtensions" stringList standardExtensions = .ok extensions := by
      rw [fieldValue, Record.lookup_middle hBefore, if_pos rfl]
      exact hNew
    obtain ⟨hOwner, hRepo, hBranch, hCredentials, hToken, hKey, hProvider, hFormat, hFiles, _,
      hExcludes, hDocstrings, hStrategy⟩ := assemble_eq_ok_iff.mp hAssemble
    exact assemble_eq_ok_iff.mpr ⟨hSame (by decide) hOwner, hSame (by decide) hRepo,
      hSame (by decide) hBranch, hSame (by decide) hCredentials, hSame (by decide) hToken,
      hSame (by decide) hKey, hSame (by decide) hProvider, hSame (by decide) hFormat,
      hSame (by decide) hFiles, hOwn, hSame (by decide) hExcludes, hSame (by decide) hDocstrings,
      hSame (by decide) hStrategy⟩

/-- What a request comes to whose extensions have another value: the same plan, or
the same error, where both values are read as extensions of one filter. -/
theorem outcome_extensions {others : List String} {environment : Environment}
    {outcome : Except RunError RunPlan} (hOld : stringList old = .ok others)
    (hNew : stringList new = .ok extensions)
    (hTexts : extensionTexts others = extensionTexts extensions)
    (hOutcome : (record.decoder "IndexRequest" (extending before after old)).toOption.map
      (RunPlan.ofRequest · environment) = some outcome) :
    (record.decoder "IndexRequest" (extending before after new)).toOption.map
      (RunPlan.ofRequest · environment) = some outcome := by
  cases hRead : record.decoder "IndexRequest" (extending before after old) with
  | error fault =>
      rw [hRead] at hOutcome
      cases hOutcome
  | ok request =>
      have hOwn : request = { request with fileExtensions := others } :=
        Except.ok.inj (hRead.symm.trans (decoder_extensions hOld hRead))
      rw [hRead, hOwn] at hOutcome
      rw [decoder_extensions hNew hRead, ← hOutcome]
      exact congrArg some (ofRequest_extensions hTexts request environment).symm

end Members

/-- **A string with commas and an array say the same.**  For texts without commas,
with any blanks around each, the string that joins them is read as those that are
not blank, trimmed and in order, and so is the array of these.  As extensions,
the string makes the filter that the array of the texts makes, with blanks around
them or without, or none where this makes none; and requests in which one is
written for the other come to the same plan or the same error. -/
theorem commaLists_agree (texts padded : List String)
    (hCommas : ∀ text ∈ texts, ',' ∉ text.toList) (hPadded : List.Forall₂ Padded texts padded) :
    stringList (.text (",".intercalate padded)) = .ok (entries texts) ∧
      stringList (.texts (entries texts)) = .ok (entries texts) ∧
      ∀ pieces, List.Forall₂ Padded texts pieces →
        (∀ exclude, FileFilter.ofLists (entries texts) exclude =
          FileFilter.ofLists pieces exclude) ∧
        (∀ (request : IndexRequest) environment,
          RunPlan.ofRequest { request with fileExtensions := entries texts } environment =
            RunPlan.ofRequest { request with fileExtensions := pieces } environment) ∧
        ∀ layout other front back string array environment,
          AreMembers front → AreMembers back →
          IsMemberText string (.text "fileExtensions", .text (",".intercalate padded)) →
          IsMemberText array (.text "fileExtensions", .texts pieces) →
            (read? (objectText layout (front ++ string :: back))).map
                (RunPlan.ofRequest · environment) =
              (read? (objectText other (front ++ array :: back))).map
                (RunPlan.ofRequest · environment) := by
  have hString := stringList_commas hCommas hPadded
  refine ⟨hString, stringList_texts _, fun pieces hPieces => ?_⟩
  have hTexts := extensionTexts_entries hPieces
  refine ⟨ofLists_extensions hTexts, ofRequest_extensions hTexts, ?_⟩
  intro layout other front back string array environment hFront hBack hJoined hListed
  obtain ⟨before, hBefore⟩ := hFront.exists_members
  obtain ⟨after, hAfter⟩ := hBack.exists_members
  rw [read?_objectText layout (List.rel_append hBefore (.cons hJoined hAfter)),
    read?_objectText other (List.rel_append hBefore (.cons hListed hAfter))]
  exact Option.ext fun outcome =>
    ⟨outcome_extensions hString (stringList_texts pieces) hTexts,
      outcome_extensions (stringList_texts pieces) hString hTexts.symm⟩

/-! ### Extensions of two languages, and two entries that name nothing -/

def joinedLanguages : Json := .text " rs ,\t,..,\u2003.PY"

/-- The same pieces one by one, with their blanks. -/
def listedLanguages : Json := .texts [" rs ", "\t", "..", "\u2003.PY"]

/-- A request for the files of some languages. -/
def languageMembers (extensions : Json) : List (String × Json) :=
  [("owner", .text "ada"), ("repo", .text "engine"), ("fileExtensions", extensions)]

theorem sound_languageMembers {extensions : Json} (h : Json.Sound extensions) :
    ∀ member ∈ languageMembers extensions, Json.Sound member.2 := by
  simp only [languageMembers, List.forall_mem_cons]
  exact ⟨.text _, .text _, h, nofun⟩

theorem commaLists_agree_languages :
    stringList joinedLanguages = .ok ["rs", "..", ".PY"] ∧
      (read? (objectText .tight ((languageMembers joinedLanguages).map printed))).map
          (RunPlan.ofRequest · fun _ => none) =
        (read? (objectText .tight ((languageMembers listedLanguages).map printed))).map
          (RunPlan.ofRequest · fun _ => none) ∧
      (read? (objectText .tight ((languageMembers listedLanguages).map printed))).map
          (fun request => (RunPlan.ofRequest request fun _ => none).map (·.filter.endings)) =
        some (.ok [".rs".toList, ".py".toList]) := by
  have hPadded : List.Forall₂ Padded ["rs", "", "..", ".PY"] [" rs ", "\t", "..", "\u2003.PY"] :=
    .cons ⟨" ", " ", rfl, rfl, rfl⟩ (.cons ⟨"\t", "", rfl, rfl, rfl⟩
      (.cons ⟨"", "", rfl, rfl, rfl⟩ (.cons ⟨"\u2003", "", rfl, rfl, rfl⟩ .nil)))
  have hFront : AreMembers (((languageMembers .null).take 2).map printed) :=
    areMembers_printed fun member hMember =>
      sound_languageMembers .null member (List.mem_of_mem_take hMember)
  have hListed : Json.Sound listedLanguages := sound_texts _
  obtain ⟨hString, _, hPieces⟩ := commaLists_agree _ _ (by decide) hPadded
  obtain ⟨_, _, hRequests⟩ := hPieces _ hPadded
  refine ⟨hString, ?_, ?_⟩
  · exact hRequests .tight .tight (((languageMembers .null).take 2).map printed) [] _ _ _
      hFront nofun
      ⟨hasKey_printed _, (Json.Sound.text _).isText⟩ ⟨hasKey_printed _, hListed.isText⟩
  · rw [read?_objectText .tight (forall₂_printed (sound_languageMembers hListed))]
    rfl

end SourceIndex.IndexRequest
