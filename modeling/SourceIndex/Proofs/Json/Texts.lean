import Mathlib.Data.Set.List
import SourceIndex.Proofs.Json.Splitting
import SourceIndex.Proofs.Text.Decoding

/-!
# Texts of objects and lists

A text spells a value by its bytes, and its parts are texts as well: what stands
between two ASCII signs of a text is made of whole characters, since no byte of
a longer character is ASCII.  So the text of an object is put together of the
texts of keys and values, with blanks around them, and can be taken apart into
them.

## Main results

* `isText_iff` — texts of a value are those whose bytes spell it.
* `Sound.isText` — what is printed is a text of what is printed.
* `isText_objectText`, `isText_arrayText` — members and items that are texts make
  the texts of objects and lists.
* `isText_object_iff` — the text of an object is made of the texts of members.
-/

namespace SourceIndex

/-! ## Bytes of a part of a text -/

namespace Utf8

variable {before after : List UInt8} {text : List Char} {c : Char}

/-- Bytes that some characters have. -/
def Encoded (bytes : List UInt8) : Prop := ∃ text, encode text = bytes

/-- An ASCII byte among those of a character is the only one. -/
theorem encode_of_ascii_mem {d : Char} (hAscii : c.toNat < 0x80)
    (hMem : UInt8.ofNat c.toNat ∈ String.utf8EncodeChar d) :
    String.utf8EncodeChar d = [UInt8.ofNat c.toNat] := by
  have hByte : (UInt8.ofNat c.toNat).toNat = c.toNat :=
    UInt8.toNat_ofNat_of_lt' (Nat.lt_trans hAscii (by decide))
  by_cases hOther : d.toNat < 0x80
  · rw [encode_one hOther, List.mem_singleton] at hMem
    rw [encode_one hOther, hMem]
  · have hHigh := high_of_mem (Nat.le_of_not_lt hOther) hMem
    omega

/-- **A text is cut at an ASCII byte** between two characters. -/
theorem encoded_of_split (hAscii : c.toNat < 0x80)
    (hEncode : encode text = before ++ UInt8.ofNat c.toNat :: after) :
    Encoded before ∧ Encoded after := by
  induction text generalizing before with
  | nil => exact absurd hEncode.symm (by simp [encode])
  | cons d text ih =>
      rw [encode_cons] at hEncode
      rcases List.append_eq_append_iff.mp hEncode with
        ⟨middle, hBefore, hRest⟩ | ⟨middle, hChar, hRest⟩
      · obtain ⟨⟨first, rfl⟩, hAfter⟩ := ih hRest
        exact ⟨⟨d :: first, by rw [encode_cons, hBefore]⟩, hAfter⟩
      · cases middle with
        | nil =>
            have hHere : encode text = [] ++ UInt8.ofNat c.toNat :: after := hRest.symm
            obtain ⟨_, hAfter⟩ := ih hHere
            refine ⟨⟨[d], ?_⟩, hAfter⟩
            rw [List.append_nil] at hChar
            rw [encode_cons, hChar]
            exact List.append_nil before
        | cons byte middle =>
            rw [List.cons_append] at hRest
            obtain ⟨rfl, hAfter⟩ := List.cons.inj hRest
            have hOnly := encode_of_ascii_mem hAscii
              (hChar ▸ List.mem_append_right before List.mem_cons_self)
            rw [hChar] at hOnly
            cases before with
            | nil =>
                obtain rfl : middle = [] := (List.cons.inj hOnly).2
                exact ⟨⟨[], rfl⟩, text, hAfter.symm⟩
            | cons first before => simp at hOnly

theorem Encoded.split (hEncoded : Encoded (before ++ UInt8.ofNat c.toNat :: after))
    (hAscii : c.toNat < 0x80) : Encoded before ∧ Encoded after := by
  obtain ⟨text, hText⟩ := hEncoded
  exact encoded_of_split hAscii hText

theorem bytes_append (first second : String) :
    bytes (first ++ second) = bytes first ++ bytes second := by
  rw [bytes, String.toList_append, encode_append]
  rfl

theorem bytes_injective {first second : String} (hBytes : bytes first = bytes second) :
    first = second := by
  rw [bytes_eq_iff, ← bytes_eq_iff.mp (rfl : bytes second = bytes second)] at hBytes
  exact String.toByteArray_inj.mp hBytes

theorem Encoded.exists_text {input : List UInt8} (hEncoded : Encoded input) :
    ∃ text, bytes text = input := by
  obtain ⟨chars, rfl⟩ := hEncoded
  exact ⟨String.ofList chars, by rw [bytes, String.toList_ofList]⟩

end Utf8

namespace Json

open Utf8 (bytes)

variable {json : Json}

/-- A text that is JSON: its document is a value without a fault, with nothing behind it. -/
def IsText (text : String) (json : Json) : Prop :=
  json.skipFault? = none ∧ Document.ofString text = ⟨json, false⟩

theorem isText_iff {text : String} : IsText text json ↔ IsPart (bytes text) json := by
  constructor
  · rintro ⟨hFault, hDocument⟩
    rw [Document.ofString, Document.ofBytes] at hDocument
    split at hDocument
    next value hRead =>
        obtain ⟨rfl, _⟩ := Document.mk.inj hDocument
        exact absurd hFault ((stops _).value hRead)
    next value rest hRead =>
        obtain ⟨rfl, hTrailing⟩ := Document.mk.inj hDocument
        obtain ⟨_, used, hBytes, hSpells⟩ := (splits _).value hRead
        refine ⟨hFault, used, rest, hBytes, ?_, hSpells⟩
        simpa [AllBlank] using hTrailing
  · rintro ⟨hFault, used, blanks, hBytes, hBlanks, hSpells⟩
    have hRead := hSpells (3 * (bytes text).length + 3) blanks
      (List.append_nil blanks ▸ endsNumber_blanks hBlanks endsNumber_nil)
      (by rw [hBytes, List.length_append]; omega)
    rw [← hBytes] at hRead
    refine ⟨hFault, ?_⟩
    rw [Document.ofString, Document.ofBytes, hRead]
    dsimp only
    rw [hBlanks]
    rfl

theorem Sound.skipFault?_eq_none (h : Sound json) : json.skipFault? = none := by
  induction h with
  | null | bool | number | text => rfl
  | array _ ih => exact skipFaultOfItems?_eq_none_iff.mpr ih
  | record _ ih =>
      refine skipFaultOfMembers?_eq_none_iff.mpr fun member hMember => ?_
      obtain ⟨entry, hEntry, rfl⟩ := List.mem_map.mp hMember
      exact ⟨rfl, ih entry hEntry⟩

/-- What is printed for a sound value is a text of it. -/
theorem Sound.isText (h : Sound json) : IsText json.render json :=
  ⟨h.skipFault?_eq_none, h.document_render⟩

/-- A text has one value. -/
theorem IsText.unique {text : String} {found : Json} (hText : IsText text json)
    (hFound : IsText text found) : json = found :=
  (Document.mk.inj (hText.2.symm.trans hFound.2)).1

/-- A text of blanks. -/
def Blank (text : String) : Prop := ∀ c ∈ text.toList, c ∈ [' ', '\t', '\n', '\r']

theorem toNat_lt_of_blank {c : Char} (hBlank : c ∈ [' ', '\t', '\n', '\r']) :
    c.toNat < 0x80 := by
  simp only [List.mem_cons, List.not_mem_nil, or_false] at hBlank
  rcases hBlank with rfl | rfl | rfl | rfl <;> decide

theorem Blank.allBlank {text : String} (hBlank : Blank text) : AllBlank (bytes text) := by
  rw [bytes]
  generalize hChars : text.toList = chars
  rw [Blank, hChars] at hBlank
  clear hChars
  induction chars with
  | nil => rfl
  | cons c chars ih =>
      rw [List.forall_mem_cons] at hBlank
      have hAscii := toNat_lt_of_blank hBlank.1
      rw [AllBlank, Utf8.encode_ascii_cons hAscii, skipBlanks, ascii_ofNat hAscii, if_pos]
      · exact ih hBlank.2
      · rw [List.contains_eq_mem, decide_eq_true_eq]
        exact hBlank.1

theorem exists_blank {input : List UInt8} (hBlank : AllBlank input) :
    ∃ text, Blank text ∧ bytes text = input := by
  suffices ∃ chars : List Char, (∀ c ∈ chars, c ∈ [' ', '\t', '\n', '\r']) ∧
      Utf8.encode chars = input by
    obtain ⟨chars, hChars, hInput⟩ := this
    refine ⟨String.ofList chars, ?_, ?_⟩
    · rw [Blank, String.toList_ofList]
      exact hChars
    · rw [bytes, String.toList_ofList, hInput]
  induction input with
  | nil => exact ⟨[], fun c hChar => absurd hChar List.not_mem_nil, rfl⟩
  | cons byte input ih =>
      rw [AllBlank, skipBlanks] at hBlank
      split at hBlank
      next hByte =>
          rw [List.contains_eq_mem, decide_eq_true_eq] at hByte
          obtain ⟨chars, hChars, rfl⟩ := ih hBlank
          refine ⟨ascii byte :: chars, List.forall_mem_cons.mpr ⟨hByte, hChars⟩, ?_⟩
          rw [Utf8.encode_ascii_cons (toNat_lt_of_blank hByte), ofNat_ascii]
      next => cases hBlank

/-! ## Objects and lists -/

/-- The blanks around an object or a list, and behind the sign that opens it. -/
structure Layout where
  before : String
  gap : String
  after : String
  blank_before : Blank before
  blank_gap : Blank gap
  blank_after : Blank after

/-- No blanks. -/
def Layout.tight : Layout := ⟨"", "", "", nofun, nofun, nofun⟩

/-- The text of an object with the given keys and values. -/
def objectText (layout : Layout) (members : List (String × String)) : String :=
  layout.before ++ "\x7b" ++ layout.gap ++
    ",".intercalate (members.map fun member => member.1 ++ ":" ++ member.2) ++ "\x7d" ++
      layout.after

/-- The text of a list with the given items. -/
def arrayText (layout : Layout) (items : List String) : String :=
  layout.before ++ "[" ++ layout.gap ++ ",".intercalate items ++ "]" ++ layout.after

section Signs

variable {sign : String} {c : Char}

theorem bytes_append_sign (hSign : bytes sign = [UInt8.ofNat c.toNat]) (text rest : String) :
    bytes (text ++ sign ++ rest) = bytes text ++ UInt8.ofNat c.toNat :: bytes rest := by
  rw [Utf8.bytes_append, Utf8.bytes_append, hSign, List.append_assoc, List.singleton_append]

/-- Parts with commas between them, and a sign behind them. -/
theorem bytes_intercalate (hSign : bytes sign = [UInt8.ofNat c.toNat]) (parts : List String)
    (rest : String) :
    bytes (",".intercalate parts ++ sign ++ rest) =
      partsBytes c (parts.map bytes) ++ bytes rest := by
  cases parts with
  | nil => rw [bytes_append_sign hSign, String.intercalate_nil]; rfl
  | cons part parts =>
      induction parts generalizing part with
      | nil =>
          rw [String.intercalate_singleton, bytes_append_sign hSign, List.map_cons, List.map_nil,
            partsBytes, tailBytes, List.append_assoc, List.singleton_append]
      | cons next parts ih =>
          have hComma : bytes "," = [UInt8.ofNat ','.toNat] := rfl
          have hJoin : ",".intercalate (part :: next :: parts) ++ sign ++ rest =
              part ++ "," ++ (",".intercalate (next :: parts) ++ sign ++ rest) := by
            simp only [String.intercalate_cons_cons, String.append_assoc]
          rw [hJoin, bytes_append_sign hComma, ih]
          simp only [List.map_cons, partsBytes, tailBytes, List.append_assoc, List.cons_append]

end Signs

section Texts

variable {layout : Layout}

/-- The bytes of the text of a member. -/
theorem bytes_member (member : String × String) :
    bytes (member.1 ++ ":" ++ member.2) = memberBytes (bytes member.1, bytes member.2) := by
  have hColon : bytes ":" = [UInt8.ofNat ':'.toNat] := rfl
  exact bytes_append_sign hColon member.1 member.2

theorem bytes_objectText (layout : Layout) (members : List (String × String)) :
    bytes (objectText layout members) =
      bytes layout.before ++ (UInt8.ofNat '\x7b'.toNat :: (bytes layout.gap ++
        partsBytes '\x7d' ((members.map (Prod.map bytes bytes)).map memberBytes))) ++
          bytes layout.after := by
  have hOpen : bytes "\x7b" = [UInt8.ofNat '\x7b'.toNat] := rfl
  have hClose : bytes "\x7d" = [UInt8.ofNat '\x7d'.toNat] := rfl
  have hText : objectText layout members = layout.before ++ "\x7b" ++ (layout.gap ++
      (",".intercalate (members.map fun member => member.1 ++ ":" ++ member.2) ++ "\x7d" ++
        layout.after)) := by
    simp only [objectText, String.append_assoc]
  have hParts : (members.map fun member => member.1 ++ ":" ++ member.2).map bytes =
      (members.map (Prod.map bytes bytes)).map memberBytes := by
    rw [List.map_map, List.map_map]
    exact List.map_congr_left fun member _ => bytes_member member
  rw [hText, bytes_append_sign hOpen, Utf8.bytes_append, bytes_intercalate hClose, hParts]
  simp only [List.append_assoc, List.cons_append]

theorem bytes_arrayText (layout : Layout) (items : List String) :
    bytes (arrayText layout items) =
      bytes layout.before ++ (UInt8.ofNat '['.toNat :: (bytes layout.gap ++
        partsBytes ']' (items.map bytes))) ++ bytes layout.after := by
  have hOpen : bytes "[" = [UInt8.ofNat '['.toNat] := rfl
  have hClose : bytes "]" = [UInt8.ofNat ']'.toNat] := rfl
  have hText : arrayText layout items =
      layout.before ++ "[" ++ (layout.gap ++ (",".intercalate items ++ "]" ++ layout.after)) := by
    simp only [arrayText, String.append_assoc]
  rw [hText, bytes_append_sign hOpen, Utf8.bytes_append, bytes_intercalate hClose]
  simp only [List.append_assoc, List.cons_append]

/-- The texts of a member's key and value. -/
def IsMemberText (part : String × String) (member : Literal × Json) : Prop :=
  IsText part.1 (string member.1) ∧ IsText part.2 member.2

theorem isMember_map_iff {parts : List (String × String)} {members : List (Literal × Json)} :
    List.Forall₂ IsMember (parts.map (Prod.map bytes bytes)) members ↔
      List.Forall₂ IsMemberText parts members := by
  rw [List.forall₂_map_left_iff]
  have hSame (part : String × String) (member : Literal × Json) :
      IsMember (Prod.map bytes bytes part) member ↔ IsMemberText part member := by
    rw [IsMemberText, isText_iff, isText_iff]
    rfl
  simp only [hSame]

/-- **Members that are texts make the text of an object.** -/
theorem isText_objectText (layout : Layout) {parts : List (String × String)}
    {members : List (Literal × Json)} (hParts : List.Forall₂ IsMemberText parts members) :
    IsText (objectText layout parts) (object members) := by
  rw [isText_iff, bytes_objectText]
  have hMembers := isMember_map_iff.mpr hParts
  have hSpells := spells_object hMembers layout.blank_gap.allBlank
  exact ⟨skipFaultOfMembers?_eq_none hMembers, _, bytes layout.after, rfl,
    layout.blank_after.allBlank, hSpells.blanks_append layout.blank_before.allBlank⟩

/-- **Items that are texts make the text of a list.** -/
theorem isText_arrayText (layout : Layout) {parts : List String} {items : List Json}
    (hParts : List.Forall₂ IsText parts items) :
    IsText (arrayText layout parts) (array items) := by
  have hItems : List.Forall₂ IsPart (parts.map bytes) items := by
    rw [List.forall₂_map_left_iff]
    exact hParts.imp fun _ _ => isText_iff.mp
  rw [isText_iff, bytes_arrayText]
  have hSpells := spells_array hItems layout.blank_gap.allBlank
  exact ⟨skipFaultOfItems?_eq_none hItems, _, bytes layout.after, rfl,
    layout.blank_after.allBlank, hSpells.blanks_append layout.blank_before.allBlank⟩

/-- Parts between ASCII signs of a text are texts. -/
theorem encoded_parts {close : Char} (hClose : close.toNat < 0x80) {rest : List UInt8}
    (parts : List (List UInt8)) :
    ∀ part, Utf8.Encoded (part ++ (tailBytes close parts ++ rest)) →
      ∀ found ∈ part :: parts, Utf8.Encoded found := by
  induction parts with
  | nil =>
      intro part hEncoded found hFound
      rw [List.mem_singleton.mp hFound]
      exact (hEncoded.split hClose).1
  | cons next parts ih =>
      intro part hEncoded found hFound
      rw [tailBytes, List.cons_append, List.append_assoc] at hEncoded
      obtain ⟨hPart, hRest⟩ := hEncoded.split (by decide)
      rcases List.mem_cons.mp hFound with rfl | hFound
      · exact hPart
      · exact ih next hRest found hFound

/-- Members between the signs of a text are made of texts. -/
theorem exists_memberTexts {first : List UInt8 × List UInt8}
    {parts : List (List UInt8 × List UInt8)} {rest : List UInt8}
    (hEncoded : Utf8.Encoded (memberBytes first ++
      (tailBytes '\x7d' (parts.map memberBytes) ++ rest))) :
    ∃ texts : List (String × String), texts.map (Prod.map bytes bytes) = first :: parts := by
  suffices first :: parts ∈ Set.range (List.map (Prod.map bytes bytes)) from this
  rw [Set.range_list_map]
  intro part hPart
  have hMember := encoded_parts (by decide) (parts.map memberBytes) (memberBytes first) hEncoded
    (memberBytes part) (List.mem_map_of_mem (l := first :: parts) hPart)
  rw [memberBytes] at hMember
  obtain ⟨hKey, hValue⟩ := hMember.split (by decide)
  obtain ⟨key, hKey⟩ := hKey.exists_text
  obtain ⟨value, hValue⟩ := hValue.exists_text
  exact ⟨(key, value), Prod.ext hKey hValue⟩

/-- **The text of an object is made of members**, and no other text is. -/
theorem isText_object_iff {text : String} {members : List (Literal × Json)} :
    IsText text (object members) ↔
      ∃ layout parts, List.Forall₂ IsMemberText parts members ∧
        text = objectText layout parts := by
  constructor
  · intro hText
    obtain ⟨before, gap, parts, after, hBefore, hGap, hAfter, hBytes, hParts⟩ :=
      (isText_iff.mp hText).exists_members
    obtain ⟨before, hStart, rfl⟩ := exists_blank hBefore
    obtain ⟨after, hEnd, rfl⟩ := exists_blank hAfter
    cases parts with
    | nil =>
        obtain ⟨gap, hInside, rfl⟩ := exists_blank hGap
        cases hParts
        refine ⟨⟨before, gap, after, hStart, hInside, hEnd⟩, [], .nil, Utf8.bytes_injective ?_⟩
        rw [hBytes, bytes_objectText]
        rfl
    | cons first parts =>
        -- Blanks before the first member are counted as part of its key.
        cases hParts with
        | @cons _ member _ members hFirst hParts =>
        have hSigns : bytes text = bytes before ++ UInt8.ofNat '\x7b'.toNat ::
            (memberBytes (gap ++ first.1, first.2) ++
              (tailBytes '\x7d' (parts.map memberBytes) ++ bytes after)) := by
          rw [hBytes]
          simp only [List.map_cons, partsBytes, memberBytes, List.append_assoc, List.cons_append]
        have hEncoded : Utf8.Encoded (bytes text) := ⟨_, rfl⟩
        rw [hSigns] at hEncoded
        obtain ⟨texts, hTexts⟩ := exists_memberTexts (hEncoded.split (by decide)).2
        have hMembers : List.Forall₂ IsMember (texts.map (Prod.map bytes bytes))
            (member :: members) := by
          rw [hTexts]
          exact .cons ⟨hFirst.1.blanks_append hGap, hFirst.2⟩ hParts
        refine ⟨⟨before, "", after, hStart, nofun, hEnd⟩, texts, isMember_map_iff.mp hMembers,
          Utf8.bytes_injective ?_⟩
        rw [hSigns, bytes_objectText, hTexts]
        simp only [List.map_cons, partsBytes, List.append_assoc, List.cons_append]
        rfl
  · rintro ⟨layout, parts, hParts, rfl⟩
    exact isText_objectText layout hParts

end Texts

end Json

end SourceIndex
