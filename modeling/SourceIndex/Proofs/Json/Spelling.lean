import Mathlib.Data.List.Forall2
import SourceIndex.Json.Decode
import SourceIndex.Proofs.Json.Documents
import SourceIndex.Proofs.Json.Locality

/-!
# How objects and lists are spelled

Bytes spell a value when reading them gives the value and leaves what follows
them, whatever it is and however much fuel there is: three units for each byte
are enough.  A part of an object or of a list is spelled with blanks on both
sides.  Putting parts between commas spells a whole, and the readers walk over
it part by part; only the fuel has to be counted, and it goes down with the
bytes.

Reading a value is unfolded once, in `valueAt`: what the reader does with the
first byte that is not blank.

## Main results

* `Spells`, `IsPart`, `IsMember` — bytes that are read as a value, alone or among
  others.
* `spells_array`, `spells_object` — parts spell a whole.
* `Spells.quoted` — what spells a string is a literal that is closed.
-/

namespace SourceIndex.Json

variable {bytes rest left used more : List UInt8} {fuel : Nat} {byte : UInt8} {json : Json}

/-! ## Values -/

/-- What the reader of values does with a value's first byte and those after it. -/
def valueAt (fuel : Nat) (byte : UInt8) (rest : List UInt8) : Json × Option (List UInt8) :=
  match ascii byte with
  | 'n' => word null ['u', 'l', 'l'] rest
  | 't' => word (bool true) ['r', 'u', 'e'] rest
  | 'f' => word (bool false) ['a', 'l', 's', 'e'] rest
  | '-' => numberValue true rest
  | '"' => (string (literal [] none rest).1, (literal [] none rest).2)
  | '[' => (array (readItems fuel true rest).1, (readItems fuel true rest).2)
  | '\x7b' => (object (readMembers fuel true rest).1, (readMembers fuel true rest).2)
  | c => if c.isDigit then numberValue false (byte :: rest) else (broken .expectedValue, none)

theorem valueAt_digit (hDigit : (ascii byte).isDigit = true) :
    valueAt fuel byte more = numberValue false (byte :: more) := by
  have hMem := mem_of_isDigit hDigit
  simp only [List.mem_cons, List.not_mem_nil, or_false] at hMem
  rw [valueAt]
  rcases hMem with hByte | hByte | hByte | hByte | hByte | hByte | hByte | hByte | hByte | hByte
  all_goals
    rw [hByte]
    rfl

theorem valueAt_quote (hByte : ascii byte = '"') {found : Literal} {after : Option (List UInt8)}
    (hRead : literal [] none more = (found, after)) :
    valueAt fuel byte more = (string found, after) := by
  rw [valueAt, hByte]
  show (string (literal [] none more).1, (literal [] none more).2) = _
  rw [hRead]

theorem valueAt_bracket (hByte : ascii byte = '[') {items : List Json}
    {after : Option (List UInt8)} (hRead : readItems fuel true more = (items, after)) :
    valueAt fuel byte more = (array items, after) := by
  rw [valueAt, hByte]
  show (array (readItems fuel true more).1, (readItems fuel true more).2) = _
  rw [hRead]

theorem valueAt_brace (hByte : ascii byte = '\x7b') {members : List (Literal × Json)}
    {after : Option (List UInt8)} (hRead : readMembers fuel true more = (members, after)) :
    valueAt fuel byte more = (object members, after) := by
  rw [valueAt, hByte]
  show (object (readMembers fuel true more).1, (readMembers fuel true more).2) = _
  rw [hRead]

theorem readValue_of_skipBlanks (hBytes : skipBlanks bytes = byte :: more) :
    readValue (fuel + 1) bytes = valueAt fuel byte more := by
  rw [readValue, hBytes]
  rfl

/-- Bytes that are read as a value, whatever follows that is not more of a number. -/
def Spells (used : List UInt8) (json : Json) : Prop :=
  ∀ (fuel : Nat) (rest : List UInt8), EndsNumber rest → 3 * used.length ≤ fuel →
    readValue fuel (used ++ rest) = (json, some rest)

/-- Bytes that spell a value without a fault, with blanks behind it. -/
structure IsPart (bytes : List UInt8) (json : Json) : Prop where
  faultless : json.skipFault? = none
  spells : ∃ used blanks, bytes = used ++ blanks ∧ AllBlank blanks ∧ Spells used json

/-- What follows the first item: a comma before each further one, and a sign that closes. -/
def tailBytes (close : Char) : List (List UInt8) → List UInt8
  | [] => [UInt8.ofNat close.toNat]
  | part :: parts => UInt8.ofNat ','.toNat :: (part ++ tailBytes close parts)

/-- Items with commas between them, and a sign that closes. -/
def partsBytes (close : Char) : List (List UInt8) → List UInt8
  | [] => [UInt8.ofNat close.toNat]
  | part :: parts => part ++ tailBytes close parts

/-! ### What values start and end with -/

theorem readValue_skipBlanks (fuel : Nat) (bytes : List UInt8) :
    readValue fuel (skipBlanks bytes) = readValue fuel bytes := by
  cases fuel with
  | zero => rfl
  | succ fuel => rw [readValue, readValue, skipBlanks_idem]

theorem skipBlanks_append_of_cons (hBytes : skipBlanks bytes = byte :: more)
    (other : List UInt8) : skipBlanks (bytes ++ other) = byte :: (more ++ other) := by
  obtain ⟨blanks, hBlanks, rfl, hByte⟩ := skipBlanks_eq_cons hBytes
  rw [List.append_assoc, skipBlanks_append hBlanks, List.cons_append, hByte]

theorem Spells.opens (hSpells : Spells used json) :
    ∃ byte more, skipBlanks used = byte :: more ∧ ascii byte ≠ ']' := by
  have hRead := hSpells (3 * used.length + 1) [] endsNumber_nil (Nat.le_succ _)
  rw [List.append_nil] at hRead
  cases hUsed : skipBlanks used with
  | nil =>
      rw [readValue, hUsed] at hRead
      cases hRead
  | cons byte more =>
      refine ⟨byte, more, rfl, fun hClose => ?_⟩
      rw [readValue_of_skipBlanks hUsed, valueAt, hClose] at hRead
      cases hRead

theorem Spells.blanks_append {blanks : List UInt8} (hBlanks : AllBlank blanks)
    (hSpells : Spells used json) : Spells (blanks ++ used) json := by
  intro fuel rest hEnd hFuel
  rw [List.length_append] at hFuel
  rw [List.append_assoc, ← readValue_skipBlanks, skipBlanks_append hBlanks, readValue_skipBlanks]
  exact hSpells fuel rest hEnd (by omega)

theorem IsPart.blanks_append {blanks : List UInt8} (hBlanks : AllBlank blanks)
    (hPart : IsPart bytes json) : IsPart (blanks ++ bytes) json := by
  obtain ⟨used, after, rfl, hAfter, hSpells⟩ := hPart.spells
  exact ⟨hPart.faultless, blanks ++ used, after, (List.append_assoc ..).symm, hAfter,
    hSpells.blanks_append hBlanks⟩

theorem endsNumber_blanks {blanks : List UInt8} (hBlanks : AllBlank blanks)
    (hEnd : EndsNumber rest) : EndsNumber (blanks ++ rest) := by
  cases blanks with
  | nil => exact hEnd
  | cons byte blanks =>
      intro first hFirst
      obtain rfl := Option.some.inj hFirst
      rw [AllBlank, skipBlanks] at hBlanks
      split at hBlanks
      next hBlank =>
          simp only [List.contains_eq_mem, decide_eq_true_eq, List.mem_cons, List.not_mem_nil,
            or_false] at hBlank
          rcases hBlank with hByte | hByte | hByte | hByte <;> rw [hByte] <;> decide
      next => cases hBlanks

/-- A sign that separates or closes is not more of a number. -/
theorem endsNumber_sign {c : Char} (hSign : c ∈ [',', ']', '\x7d', '\n']) (rest : List UInt8) :
    EndsNumber (UInt8.ofNat c.toNat :: rest) := by
  have hAscii : c.toNat < 0x80 := by
    simp only [List.mem_cons, List.not_mem_nil, or_false] at hSign
    rcases hSign with rfl | rfl | rfl | rfl <;> decide
  have hEnd : EndsNumber (Utf8.encode [c] ++ rest) := endsNumber_cons hSign rest
  rwa [Utf8.encode_ascii_cons hAscii] at hEnd

theorem endsNumber_tailBytes {close : Char} (hClose : close ∈ [',', ']', '\x7d', '\n'])
    (parts : List (List UInt8)) (rest : List UInt8) :
    EndsNumber (tailBytes close parts ++ rest) := by
  cases parts with
  | nil => exact endsNumber_sign hClose rest
  | cons part parts =>
      rw [tailBytes, List.cons_append]
      exact endsNumber_sign (by decide) _

theorem length_tailBytes_pos (close : Char) (parts : List (List UInt8)) :
    0 < (tailBytes close parts).length := by
  cases parts <;> exact Nat.zero_lt_succ _

theorem Spells.ne_nil (hSpells : Spells used json) : used ≠ [] := by
  rintro rfl
  obtain ⟨_, _, hUsed, _⟩ := hSpells.opens
  cases hUsed

/-! ### Lists from their parts -/

section Lists

variable {part : List UInt8} {parts : List (List UInt8)} {item : Json} {items : List Json}

/-- One item and what follows it. -/
theorem readItem_part (fuel : Nat) (hPart : IsPart part item)
    (hTail : ∀ fuel blanks, AllBlank blanks → 3 * (tailBytes ']' parts).length ≤ fuel →
      readItems fuel false (blanks ++ (tailBytes ']' parts ++ rest)) = (items, some rest))
    (hFuel : 3 * (part ++ tailBytes ']' parts).length ≤ fuel + 1) :
    readItem fuel (part ++ (tailBytes ']' parts ++ rest)) = (item :: items, some rest) := by
  obtain ⟨used, blanks, rfl, hBlanks, hSpells⟩ := hPart.spells
  have hUsed := List.length_pos_iff.mpr hSpells.ne_nil
  have hTailPos := length_tailBytes_pos ']' parts
  rw [List.length_append, List.length_append] at hFuel
  obtain ⟨fuel, rfl⟩ : ∃ less, fuel = less + 1 := ⟨fuel - 1, by omega⟩
  rw [List.append_assoc, readItem, hSpells fuel _
    (endsNumber_blanks hBlanks (endsNumber_tailBytes (by decide) parts rest)) (by omega)]
  dsimp only
  rw [hTail fuel blanks hBlanks (by omega)]

theorem readItem_skipBlanks (fuel : Nat) (bytes : List UInt8) :
    readItem fuel (skipBlanks bytes) = readItem fuel bytes := by
  cases fuel with
  | zero => rfl
  | succ fuel => rw [readItem, readItem, readValue_skipBlanks]

/-- A part opens with a byte that does not close a list. -/
theorem IsPart.opens (hPart : IsPart part item) (other : List UInt8) :
    ∃ byte more, skipBlanks (part ++ other) = byte :: more ∧ ascii byte ≠ ']' := by
  obtain ⟨used, blanks, rfl, _, hSpells⟩ := hPart.spells
  obtain ⟨byte, more, hUsed, hByte⟩ := hSpells.opens
  rw [List.append_assoc]
  exact ⟨byte, _, skipBlanks_append_of_cons hUsed _, hByte⟩

/-- The items behind the first one are read up to the end of the list. -/
theorem readItems_parts (hParts : List.Forall₂ IsPart parts items) (rest : List UInt8) :
    ∀ fuel blanks, AllBlank blanks → 3 * (tailBytes ']' parts).length ≤ fuel →
      readItems fuel false (blanks ++ (tailBytes ']' parts ++ rest)) = (items, some rest) := by
  induction hParts with
  | nil =>
      intro fuel blanks hBlanks hFuel
      obtain ⟨fuel, rfl⟩ : ∃ less, fuel = less + 1 :=
        ⟨fuel - 1, by simp [tailBytes] at hFuel; omega⟩
      rw [readItems, skipBlanks_append hBlanks, tailBytes, List.singleton_append,
        skipBlanks_sign (by decide) (by decide)]
      rfl
  | @cons part item parts items hPart _ ih =>
      intro fuel blanks hBlanks hFuel
      rw [tailBytes, List.length_cons] at hFuel
      obtain ⟨fuel, rfl⟩ : ∃ less, fuel = less + 1 := ⟨fuel - 1, by omega⟩
      obtain ⟨byte, more, hOpens, hClose⟩ := hPart.opens (tailBytes ']' parts ++ rest)
      have hItem := readItem_part fuel hPart ih (by omega)
      rw [← readItem_skipBlanks, hOpens] at hItem
      rw [readItems, skipBlanks_append hBlanks, tailBytes, List.cons_append,
        skipBlanks_sign (by decide) (by decide)]
      dsimp only
      rw [ascii_ofNat (by decide), if_neg (by decide), if_neg Bool.false_ne_true, if_pos rfl,
        List.append_assoc, hOpens]
      dsimp only
      rw [if_neg hClose, hItem]

/-- The items of a list are read up to its end. -/
theorem readItems_first (hParts : List.Forall₂ IsPart parts items) {gap : List UInt8}
    (hGap : AllBlank gap) (hFuel : 3 * (partsBytes ']' parts).length ≤ fuel) :
    readItems fuel true (gap ++ (partsBytes ']' parts ++ rest)) = (items, some rest) := by
  cases hParts with
  | nil =>
      obtain ⟨fuel, rfl⟩ : ∃ less, fuel = less + 1 :=
        ⟨fuel - 1, by simp [partsBytes] at hFuel; omega⟩
      rw [readItems, skipBlanks_append hGap, partsBytes, List.singleton_append,
        skipBlanks_sign (by decide) (by decide)]
      rfl
  | @cons part item parts items hPart hParts =>
      rw [partsBytes] at hFuel ⊢
      have hTail := length_tailBytes_pos ']' parts
      obtain ⟨fuel, rfl⟩ : ∃ less, fuel = less + 1 :=
        ⟨fuel - 1, by rw [List.length_append] at hFuel; omega⟩
      obtain ⟨byte, more, hOpens, hClose⟩ := hPart.opens (tailBytes ']' parts ++ rest)
      have hItem := readItem_part fuel hPart (readItems_parts hParts rest) (by omega)
      rw [← readItem_skipBlanks, hOpens] at hItem
      rw [readItems, skipBlanks_append hGap, List.append_assoc, hOpens]
      dsimp only
      rw [if_neg hClose, if_pos rfl, hItem]

/-- **A list is spelled by its parts.** -/
theorem spells_array (hParts : List.Forall₂ IsPart parts items) {gap : List UInt8}
    (hGap : AllBlank gap) :
    Spells (UInt8.ofNat '['.toNat :: (gap ++ partsBytes ']' parts)) (array items) := by
  intro fuel rest _ hFuel
  rw [List.length_cons, List.length_append] at hFuel
  obtain ⟨fuel, rfl⟩ : ∃ less, fuel = less + 1 := ⟨fuel - 1, by omega⟩
  rw [List.cons_append, readValue_list, List.append_assoc,
    readItems_first hParts hGap (by omega)]

end Lists

/-! ### Objects from their parts -/

section Objects

variable {part : List UInt8 × List UInt8} {parts : List (List UInt8 × List UInt8)}
  {member : Literal × Json} {members : List (Literal × Json)}

/-- Bytes that spell a member: its key, and its value behind a colon. -/
def IsMember (part : List UInt8 × List UInt8) (member : Literal × Json) : Prop :=
  IsPart part.1 (string member.1) ∧ IsPart part.2 member.2

/-- The bytes of a member. -/
def memberBytes (part : List UInt8 × List UInt8) : List UInt8 :=
  part.1 ++ (UInt8.ofNat ':'.toNat :: part.2)

/-- Only a literal is read as a string. -/
theorem literal_of_valueAt {found : Literal}
    (hRead : valueAt fuel byte more = (string found, some rest)) :
    ascii byte = '"' ∧ literal [] none more = (found, some rest) := by
  unfold valueAt at hRead
  split at hRead
  case h_1 | h_2 | h_3 => exact absurd (word_local hRead).1 nofun
  case h_4 =>
      obtain ⟨⟨value, hValue⟩, _⟩ := numberValue_local hRead
      cases hValue
  case h_5 hQuote =>
      obtain ⟨hFound, hRest⟩ := Prod.mk.inj hRead
      exact ⟨hQuote, Prod.ext (Json.string.inj hFound) hRest⟩
  case h_6 | h_7 => cases (Prod.mk.inj hRead).1
  case h_8 =>
      split at hRead
      next =>
          obtain ⟨⟨value, hValue⟩, _⟩ := numberValue_local hRead
          cases hValue
      next => cases hRead

theorem Spells.quoted {found : Literal} (hSpells : Spells used (string found)) :
    ∃ body, skipBlanks used = UInt8.ofNat '"'.toNat :: body ∧
      ∀ other, literal [] none (body ++ other) = (found, some other) := by
  obtain ⟨byte, body, hUsed, _⟩ := hSpells.opens
  have hRead := hSpells (3 * used.length + 1) [] endsNumber_nil (Nat.le_succ _)
  rw [List.append_nil, readValue_of_skipBlanks hUsed] at hRead
  obtain ⟨hQuote, hLiteral⟩ := literal_of_valueAt hRead
  obtain ⟨_, _, inside, hInside, hLocal⟩ := literal_local hLiteral
  rw [List.append_nil] at hInside
  refine ⟨body, ?_, hInside ▸ hLocal⟩
  rw [hUsed, ← hQuote, ofNat_ascii]

/-- One member and what follows it. -/
theorem readMember_part (fuel : Nat) (hMember : IsMember part member)
    (hTail : ∀ fuel blanks, AllBlank blanks →
      3 * (tailBytes '\x7d' (parts.map memberBytes)).length ≤ fuel →
      readMembers fuel false (blanks ++ (tailBytes '\x7d' (parts.map memberBytes) ++ rest)) =
        (members, some rest))
    (hFuel : 3 * (memberBytes part ++ tailBytes '\x7d' (parts.map memberBytes)).length ≤
      fuel + 1) :
    ∃ more, skipBlanks (memberBytes part ++ (tailBytes '\x7d' (parts.map memberBytes) ++ rest)) =
        UInt8.ofNat '"'.toNat :: more ∧
      readMember fuel (UInt8.ofNat '"'.toNat :: more) = (member :: members, some rest) := by
  obtain ⟨hKey, hValue⟩ := hMember
  obtain ⟨usedKey, blanks, hKeyBytes, hBlanks, hKeySpells⟩ := hKey.spells
  obtain ⟨body, hBody, hLiteral⟩ := hKeySpells.quoted
  obtain ⟨used, after, hValueBytes, hAfter, hSpells⟩ := hValue.spells
  have hTailPos := length_tailBytes_pos '\x7d' (parts.map memberBytes)
  have hUsed := List.length_pos_iff.mpr hSpells.ne_nil
  rw [memberBytes, hKeyBytes, hValueBytes] at hFuel ⊢
  simp only [List.length_append, List.length_cons] at hFuel
  obtain ⟨fuel, rfl⟩ : ∃ less, fuel = less + 1 := ⟨fuel - 1, by omega⟩
  refine ⟨body ++ (blanks ++ (UInt8.ofNat ':'.toNat :: (used ++ (after ++
    (tailBytes '\x7d' (parts.map memberBytes) ++ rest))))), ?_, ?_⟩
  · have hSkip := skipBlanks_append_of_cons hBody (blanks ++ (UInt8.ofNat ':'.toNat :: (used ++
      (after ++ (tailBytes '\x7d' (parts.map memberBytes) ++ rest)))))
    simpa only [List.append_assoc, List.cons_append] using hSkip
  · rw [readMember, ascii_ofNat (by decide), if_neg (by decide), hLiteral]
    dsimp only
    rw [skipBlanks_append hBlanks, skipBlanks_sign (by decide) (by decide)]
    dsimp only
    rw [ascii_ofNat (by decide), if_neg (by decide), hSpells fuel _
      (endsNumber_blanks hAfter (endsNumber_tailBytes (by decide) _ rest)) (by omega)]
    dsimp only
    rw [hTail fuel after hAfter (by omega)]

/-- The members behind the first one are read up to the end of the object. -/
theorem readMembers_parts (hParts : List.Forall₂ IsMember parts members) (rest : List UInt8) :
    ∀ fuel blanks, AllBlank blanks →
      3 * (tailBytes '\x7d' (parts.map memberBytes)).length ≤ fuel →
      readMembers fuel false (blanks ++ (tailBytes '\x7d' (parts.map memberBytes) ++ rest)) =
        (members, some rest) := by
  induction hParts with
  | nil =>
      intro fuel blanks hBlanks hFuel
      obtain ⟨fuel, rfl⟩ : ∃ less, fuel = less + 1 :=
        ⟨fuel - 1, by simp [tailBytes] at hFuel; omega⟩
      rw [readMembers, skipBlanks_append hBlanks, List.map_nil, tailBytes, List.singleton_append,
        skipBlanks_sign (by decide) (by decide)]
      rfl
  | @cons part member parts members hMember _ ih =>
      intro fuel blanks hBlanks hFuel
      rw [List.map_cons, tailBytes, List.length_cons] at hFuel
      obtain ⟨fuel, rfl⟩ : ∃ less, fuel = less + 1 := ⟨fuel - 1, by omega⟩
      obtain ⟨more, hOpens, hRead⟩ := readMember_part fuel hMember ih (by omega)
      rw [readMembers, skipBlanks_append hBlanks, List.map_cons, tailBytes, List.cons_append,
        skipBlanks_sign (by decide) (by decide)]
      dsimp only
      rw [ascii_ofNat (by decide), if_neg (by decide), if_neg Bool.false_ne_true, if_pos rfl,
        List.append_assoc, hOpens]
      dsimp only
      rw [ascii_ofNat (by decide), if_neg (by decide), hRead]

/-- The members of an object are read up to its end. -/
theorem readMembers_first (hParts : List.Forall₂ IsMember parts members) {gap : List UInt8}
    (hGap : AllBlank gap)
    (hFuel : 3 * (partsBytes '\x7d' (parts.map memberBytes)).length ≤ fuel) :
    readMembers fuel true (gap ++ (partsBytes '\x7d' (parts.map memberBytes) ++ rest)) =
      (members, some rest) := by
  cases hParts with
  | nil =>
      obtain ⟨fuel, rfl⟩ : ∃ less, fuel = less + 1 :=
        ⟨fuel - 1, by simp [partsBytes] at hFuel; omega⟩
      rw [readMembers, skipBlanks_append hGap, List.map_nil, partsBytes, List.singleton_append,
        skipBlanks_sign (by decide) (by decide)]
      rfl
  | @cons part member parts members hMember hParts =>
      rw [List.map_cons, partsBytes] at hFuel ⊢
      have hTail := length_tailBytes_pos '\x7d' (parts.map memberBytes)
      obtain ⟨fuel, rfl⟩ : ∃ less, fuel = less + 1 :=
        ⟨fuel - 1, by rw [List.length_append] at hFuel; omega⟩
      obtain ⟨more, hOpens, hRead⟩ :=
        readMember_part fuel hMember (readMembers_parts hParts rest) (by omega)
      rw [readMembers, skipBlanks_append hGap, List.append_assoc, hOpens]
      dsimp only
      rw [ascii_ofNat (by decide), if_neg (by decide), if_pos rfl, hRead]

/-- **An object is spelled by its parts.** -/
theorem spells_object (hParts : List.Forall₂ IsMember parts members) {gap : List UInt8}
    (hGap : AllBlank gap) :
    Spells (UInt8.ofNat '\x7b'.toNat :: (gap ++ partsBytes '\x7d' (parts.map memberBytes)))
      (object members) := by
  intro fuel rest _ hFuel
  rw [List.length_cons, List.length_append] at hFuel
  obtain ⟨fuel, rfl⟩ : ∃ less, fuel = less + 1 := ⟨fuel - 1, by omega⟩
  rw [List.cons_append, readValue_object, List.append_assoc,
    readMembers_first hParts hGap (by omega)]

end Objects

end SourceIndex.Json
