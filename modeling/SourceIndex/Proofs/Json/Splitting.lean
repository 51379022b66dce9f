import SourceIndex.Proofs.Json.Spelling
import SourceIndex.Proofs.Pairing

/-!
# What is read has parts

The converse of spelling a whole from its parts.  Where the readers come to an
end of what they read, the bytes that they used can be taken apart again, and
each part spells what was read for it.  This goes by induction on the fuel for
all seven readers at once, as they call each other: `Splits` is what holds of
them with some fuel.

A reader that does not come to such an end has met a fault, and the fault stays
with the value: there is no way to pass over it.  That is `Stops`, by the same
induction.

## Main results

* `splits` — a value that is read with something left is spelled by what was
  used.
* `IsPart.exists_members` — what spells an object has parts that are its members.
* `stops` — a value that is read with nothing left has a fault.
-/

namespace SourceIndex.Json

variable {bytes rest left used more : List UInt8} {fuel : Nat} {byte : UInt8} {json : Json}

/-! ## Faults of parts -/

theorem skipFaultOfItems?_eq_none_iff {items : List Json} :
    skipFaultOfItems? items = none ↔ ∀ item ∈ items, item.skipFault? = none := by
  induction items with
  | nil => exact ⟨fun _ _ hItem => absurd hItem List.not_mem_nil, fun _ => rfl⟩
  | cons item items ih =>
      rw [skipFaultOfItems?, Option.orElse_eq_orElse, Option.orElse_eq_or, Option.or_eq_none_iff,
        ih, List.forall_mem_cons]

theorem skipFaultOfMembers?_eq_none_iff {members : List (Literal × Json)} :
    skipFaultOfMembers? members = none ↔
      ∀ member ∈ members, (string member.1).skipFault? = none ∧ member.2.skipFault? = none := by
  induction members with
  | nil => exact ⟨fun _ _ hMember => absurd hMember List.not_mem_nil, fun _ => rfl⟩
  | cons member members ih =>
      obtain ⟨key, value⟩ := member
      rw [List.forall_mem_cons, ← ih]
      cases key with
      | text name =>
          simp only [skipFaultOfMembers?, Option.orElse_eq_orElse, Option.orElse_eq_or,
            Option.or_eq_none_iff]
          exact and_congr_left fun _ => (and_iff_right rfl).symm
      | faulty fault found =>
          simp only [skipFaultOfMembers?, Option.orElse_eq_orElse, Option.orElse_eq_or,
            Option.or_eq_none_iff, and_assoc]
          rfl

theorem skipFaultOfItems?_eq_none {parts : List (List UInt8)} {items : List Json}
    (hParts : List.Forall₂ IsPart parts items) : skipFaultOfItems? items = none := by
  refine skipFaultOfItems?_eq_none_iff.mpr fun item hItem => ?_
  obtain ⟨_, _, hPart⟩ := Pairing.exists_left hParts hItem
  exact hPart.faultless

theorem skipFaultOfMembers?_eq_none {parts : List (List UInt8 × List UInt8)}
    {members : List (Literal × Json)} (hParts : List.Forall₂ IsMember parts members) :
    skipFaultOfMembers? members = none := by
  refine skipFaultOfMembers?_eq_none_iff.mpr fun member hMember => ?_
  obtain ⟨_, _, hKey, hValue⟩ := Pairing.exists_left hParts hMember
  exact ⟨hKey.faultless, hValue.faultless⟩

theorem skipFault?_closedLiteral (all : List UInt8) (fault : Option Fault) :
    skipFault? (string (closedLiteral all fault)) = none := by
  cases fault with
  | some fault => rfl
  | none =>
      rw [closedLiteral]
      split <;> rfl

/-- What the readers have read without a fault, with some fuel: it is spelled by
the bytes that are not left. -/
structure Splits (fuel : Nat) : Prop where
  value : ∀ {bytes rest json}, readValue fuel bytes = (json, some rest) →
    json.skipFault? = none ∧ ∃ used, bytes = used ++ rest ∧ Spells used json
  item : ∀ {bytes rest items}, readItem fuel bytes = (items, some rest) →
    ∃ part parts, bytes = part ++ (tailBytes ']' parts ++ rest) ∧
      List.Forall₂ IsPart (part :: parts) items
  items : ∀ {bytes rest items}, readItems fuel false bytes = (items, some rest) →
    ∃ blanks parts, AllBlank blanks ∧ bytes = blanks ++ (tailBytes ']' parts ++ rest) ∧
      List.Forall₂ IsPart parts items
  firstItems : ∀ {bytes rest items}, readItems fuel true bytes = (items, some rest) →
    ∃ gap parts, AllBlank gap ∧ bytes = gap ++ (partsBytes ']' parts ++ rest) ∧
      List.Forall₂ IsPart parts items
  member : ∀ {bytes rest members}, readMember fuel bytes = (members, some rest) →
    ∃ part parts,
      bytes = memberBytes part ++ (tailBytes '\x7d' (parts.map memberBytes) ++ rest) ∧
      List.Forall₂ IsMember (part :: parts) members
  members : ∀ {bytes rest members}, readMembers fuel false bytes = (members, some rest) →
    ∃ blanks parts, AllBlank blanks ∧
      bytes = blanks ++ (tailBytes '\x7d' (parts.map memberBytes) ++ rest) ∧
      List.Forall₂ IsMember parts members
  firstMembers : ∀ {bytes rest members}, readMembers fuel true bytes = (members, some rest) →
    ∃ gap parts, AllBlank gap ∧
      bytes = gap ++ (partsBytes '\x7d' (parts.map memberBytes) ++ rest) ∧
      List.Forall₂ IsMember parts members

namespace Splits

theorem zero : Splits 0 where
  value := nofun
  item := nofun
  items := nofun
  firstItems := nofun
  member := nofun
  members := nofun
  firstMembers := nofun

variable {items : List Json} {members : List (Literal × Json)}

/-- A value is spelled from its first byte on. -/
theorem valueAt (ih : Splits fuel) (hRead : valueAt fuel byte bytes = (json, some rest)) :
    json.skipFault? = none ∧ ∃ used, bytes = used ++ rest ∧
      ∀ (enough : Nat) (other : List UInt8), EndsNumber other → 3 * used.length ≤ enough →
        Json.valueAt enough byte (used ++ other) = (json, some other) := by
  unfold Json.valueAt at hRead
  split at hRead
  case h_1 hByte | h_2 hByte | h_3 hByte =>
      obtain ⟨rfl, used, rfl, hLocal⟩ := word_local hRead
      refine ⟨rfl, used, rfl, fun enough other _ _ => ?_⟩
      rw [Json.valueAt, hByte]
      exact hLocal other
  case h_4 hByte =>
      obtain ⟨⟨value, rfl⟩, used, _, rfl, hLocal⟩ := numberValue_local hRead
      refine ⟨rfl, used, rfl, fun enough other hEnd _ => ?_⟩
      rw [Json.valueAt, hByte]
      exact hLocal other hEnd
  case h_5 hByte =>
      cases hLiteral : literal [] none bytes with
      | mk found after =>
          rw [hLiteral] at hRead
          obtain ⟨rfl, rfl⟩ := Prod.mk.inj hRead
          obtain ⟨_, ⟨all, fault, rfl⟩, used, rfl, hLocal⟩ := literal_local hLiteral
          refine ⟨skipFault?_closedLiteral all fault, used, rfl, fun enough other _ _ => ?_⟩
          exact valueAt_quote hByte (hLocal other)
  case h_6 hByte =>
      cases hItems : readItems fuel true bytes with
      | mk items after =>
          rw [hItems] at hRead
          obtain ⟨rfl, rfl⟩ := Prod.mk.inj hRead
          obtain ⟨gap, parts, hGap, rfl, hParts⟩ := ih.firstItems hItems
          refine ⟨skipFaultOfItems?_eq_none hParts, gap ++ partsBytes ']' parts,
            (List.append_assoc ..).symm, fun enough other _ hFuel => ?_⟩
          rw [List.length_append] at hFuel
          rw [List.append_assoc]
          exact valueAt_bracket hByte (readItems_first hParts hGap (by omega))
  case h_7 hByte =>
      cases hMembers : readMembers fuel true bytes with
      | mk members after =>
          rw [hMembers] at hRead
          obtain ⟨rfl, rfl⟩ := Prod.mk.inj hRead
          obtain ⟨gap, parts, hGap, rfl, hParts⟩ := ih.firstMembers hMembers
          refine ⟨skipFaultOfMembers?_eq_none hParts,
            gap ++ partsBytes '\x7d' (parts.map memberBytes),
            (List.append_assoc ..).symm, fun enough other _ hFuel => ?_⟩
          rw [List.length_append] at hFuel
          rw [List.append_assoc]
          exact valueAt_brace hByte (readMembers_first hParts hGap (by omega))
  case h_8 =>
      split at hRead
      next hDigit =>
          obtain ⟨⟨value, rfl⟩, used, hUsed, hBytes, hLocal⟩ := numberValue_local hRead
          obtain ⟨first, used, rfl⟩ := List.exists_cons_of_ne_nil hUsed
          obtain ⟨rfl, rfl⟩ := List.cons.inj hBytes
          refine ⟨rfl, used, rfl, fun enough other hEnd _ => ?_⟩
          rw [valueAt_digit hDigit]
          exact hLocal other hEnd
      next => cases hRead

theorem succ_value (ih : Splits fuel) (hRead : readValue (fuel + 1) bytes = (json, some rest)) :
    json.skipFault? = none ∧ ∃ used, bytes = used ++ rest ∧ Spells used json := by
  cases hBytes : skipBlanks bytes with
  | nil =>
      rw [readValue, hBytes] at hRead
      cases hRead
  | cons byte more =>
      rw [readValue_of_skipBlanks hBytes] at hRead
      obtain ⟨hFault, used, rfl, hLocal⟩ := ih.valueAt hRead
      obtain ⟨blanks, hBlanks, rfl, hByte⟩ := skipBlanks_eq_cons hBytes
      refine ⟨hFault, blanks ++ byte :: used, by rw [List.append_assoc, List.cons_append],
        fun enough other hEnd hFuel => ?_⟩
      rw [List.length_append, List.length_cons] at hFuel
      obtain ⟨enough, rfl⟩ : ∃ less, enough = less + 1 := ⟨enough - 1, by omega⟩
      have hSkip : skipBlanks (blanks ++ byte :: used ++ other) = byte :: (used ++ other) := by
        rw [List.append_assoc, skipBlanks_append hBlanks, List.cons_append, hByte]
      rw [readValue_of_skipBlanks hSkip, hLocal enough other hEnd (by omega)]

theorem succ_item (ih : Splits fuel) (hRead : readItem (fuel + 1) bytes = (items, some rest)) :
    ∃ part parts, bytes = part ++ (tailBytes ']' parts ++ rest) ∧
      List.Forall₂ IsPart (part :: parts) items := by
  rw [readItem] at hRead
  split at hRead
  next => cases hRead
  next item after hValue =>
      cases hItems : readItems fuel false after with
      | mk others left =>
          rw [hItems] at hRead
          obtain ⟨rfl, rfl⟩ := Prod.mk.inj hRead
          obtain ⟨hFault, used, rfl, hSpells⟩ := ih.value hValue
          obtain ⟨blanks, parts, hBlanks, rfl, hParts⟩ := ih.items hItems
          exact ⟨used ++ blanks, parts, by rw [List.append_assoc],
            .cons ⟨hFault, used, blanks, rfl, hBlanks, hSpells⟩ hParts⟩

theorem succ_items (ih : Splits fuel)
    (hRead : readItems (fuel + 1) false bytes = (items, some rest)) :
    ∃ blanks parts, AllBlank blanks ∧ bytes = blanks ++ (tailBytes ']' parts ++ rest) ∧
      List.Forall₂ IsPart parts items := by
  rw [readItems] at hRead
  split at hRead
  next => cases hRead
  next byte more hBytes =>
      obtain ⟨blanks, hBlanks, rfl, _⟩ := skipBlanks_eq_cons hBytes
      split at hRead
      next hClose =>
          obtain ⟨rfl, hRest⟩ := Prod.mk.inj hRead
          obtain rfl := Option.some.inj hRest
          refine ⟨blanks, [], hBlanks, ?_, .nil⟩
          rw [tailBytes, ← hClose, ofNat_ascii]
          rfl
      next =>
          rw [if_neg Bool.false_ne_true] at hRead
          split at hRead
          next hComma =>
              split at hRead
              next => cases hRead
              next next after hMore =>
                  obtain ⟨gap, hGap, rfl, _⟩ := skipBlanks_eq_cons hMore
                  split at hRead
                  next => cases hRead
                  next =>
                      obtain ⟨part, parts, hPart, hParts⟩ := ih.item hRead
                      cases hParts with
                      | cons hFirst hParts =>
                          refine ⟨blanks, (gap ++ part) :: parts, hBlanks, ?_,
                            .cons (hFirst.blanks_append hGap) hParts⟩
                          rw [hPart, tailBytes, ← hComma, ofNat_ascii]
                          simp only [List.append_assoc, List.cons_append]
          next => cases hRead

theorem succ_firstItems (ih : Splits fuel)
    (hRead : readItems (fuel + 1) true bytes = (items, some rest)) :
    ∃ gap parts, AllBlank gap ∧ bytes = gap ++ (partsBytes ']' parts ++ rest) ∧
      List.Forall₂ IsPart parts items := by
  rw [readItems] at hRead
  split at hRead
  next => cases hRead
  next byte more hBytes =>
      obtain ⟨blanks, hBlanks, rfl, _⟩ := skipBlanks_eq_cons hBytes
      split at hRead
      next hClose =>
          obtain ⟨rfl, hRest⟩ := Prod.mk.inj hRead
          obtain rfl := Option.some.inj hRest
          refine ⟨blanks, [], hBlanks, ?_, .nil⟩
          rw [partsBytes, ← hClose, ofNat_ascii]
          rfl
      next =>
          rw [if_pos rfl] at hRead
          obtain ⟨part, parts, hPart, hParts⟩ := ih.item hRead
          refine ⟨blanks, part :: parts, hBlanks, ?_, hParts⟩
          rw [hPart, partsBytes, List.append_assoc]

/-- A literal spells a string. -/
theorem isPart_literal {key : Literal} {after blanks : List UInt8} (hQuote : ascii byte = '"')
    (hKey : literal [] none bytes = (key, some after)) (hBlanks : AllBlank blanks)
    (hAfter : after = blanks ++ rest) :
    ∃ part, byte :: bytes = part ++ rest ∧ IsPart part (string key) := by
  obtain ⟨_, ⟨all, fault, rfl⟩, inside, rfl, hLocal⟩ := literal_local hKey
  have hFirst : ∀ other, skipBlanks (byte :: other) = byte :: other := by
    intro other
    rw [← ofNat_ascii byte, hQuote]
    exact skipBlanks_sign (by decide) (by decide) other
  refine ⟨byte :: inside ++ blanks, by rw [hAfter, List.append_assoc, List.cons_append],
    skipFault?_closedLiteral all fault, byte :: inside, blanks, rfl, hBlanks,
    fun enough other _ hFuel => ?_⟩
  rw [List.length_cons] at hFuel
  obtain ⟨enough, rfl⟩ : ∃ less, enough = less + 1 := ⟨enough - 1, by omega⟩
  rw [List.cons_append, readValue_of_skipBlanks (hFirst _), valueAt_quote hQuote (hLocal other)]

theorem succ_member (ih : Splits fuel)
    (hRead : readMember (fuel + 1) bytes = (members, some rest)) :
    ∃ part parts,
      bytes = memberBytes part ++ (tailBytes '\x7d' (parts.map memberBytes) ++ rest) ∧
      List.Forall₂ IsMember (part :: parts) members := by
  cases bytes with
  | nil => cases hRead
  | cons byte bytes =>
      rw [readMember] at hRead
      split at hRead
      next => cases hRead
      next hQuote =>
          split at hRead
          next => cases hRead
          next key after hKey =>
              split at hRead
              next => cases hRead
              next colon more hMore =>
                  split at hRead
                  next => cases hRead
                  next hColon =>
                      split at hRead
                      next => cases hRead
                      next value left hValue =>
                          cases hMembers : readMembers fuel false left with
                          | mk others last =>
                              rw [hMembers] at hRead
                              obtain ⟨rfl, rfl⟩ := Prod.mk.inj hRead
                              obtain ⟨hFault, used, rfl, hSpells⟩ := ih.value hValue
                              obtain ⟨blanks, parts, hBlanks, rfl, hParts⟩ := ih.members hMembers
                              obtain ⟨before, hBefore, hAfter, _⟩ := skipBlanks_eq_cons hMore
                              obtain ⟨part, hPart, hIsPart⟩ := isPart_literal
                                (Decidable.not_not.mp hQuote) hKey hBefore hAfter
                              refine ⟨(part, used ++ blanks), parts, ?_,
                                .cons ⟨hIsPart, hFault, used, blanks, rfl, hBlanks, hSpells⟩
                                  hParts⟩
                              rw [hPart, memberBytes, ← Decidable.not_not.mp hColon, ofNat_ascii]
                              simp only [List.append_assoc, List.cons_append]

theorem succ_members (ih : Splits fuel)
    (hRead : readMembers (fuel + 1) false bytes = (members, some rest)) :
    ∃ blanks parts, AllBlank blanks ∧
      bytes = blanks ++ (tailBytes '\x7d' (parts.map memberBytes) ++ rest) ∧
      List.Forall₂ IsMember parts members := by
  rw [readMembers] at hRead
  split at hRead
  next => cases hRead
  next byte more hBytes =>
      obtain ⟨blanks, hBlanks, rfl, _⟩ := skipBlanks_eq_cons hBytes
      split at hRead
      next hClose =>
          obtain ⟨rfl, hRest⟩ := Prod.mk.inj hRead
          obtain rfl := Option.some.inj hRest
          refine ⟨blanks, [], hBlanks, ?_, .nil⟩
          rw [List.map_nil, tailBytes, ← hClose, ofNat_ascii]
          rfl
      next =>
          rw [if_neg Bool.false_ne_true] at hRead
          split at hRead
          next hComma =>
              split at hRead
              next => cases hRead
              next next after hMore =>
                  obtain ⟨gap, hGap, rfl, _⟩ := skipBlanks_eq_cons hMore
                  split at hRead
                  next => cases hRead
                  next =>
                      obtain ⟨part, parts, hPart, hParts⟩ := ih.member hRead
                      cases hParts with
                      | cons hFirst hParts =>
                          refine ⟨blanks, (gap ++ part.1, part.2) :: parts, hBlanks, ?_,
                            .cons ⟨hFirst.1.blanks_append hGap, hFirst.2⟩ hParts⟩
                          rw [hPart, List.map_cons, tailBytes, ← hComma, ofNat_ascii]
                          simp only [memberBytes, List.append_assoc, List.cons_append]
          next => cases hRead

theorem succ_firstMembers (ih : Splits fuel)
    (hRead : readMembers (fuel + 1) true bytes = (members, some rest)) :
    ∃ gap parts, AllBlank gap ∧
      bytes = gap ++ (partsBytes '\x7d' (parts.map memberBytes) ++ rest) ∧
      List.Forall₂ IsMember parts members := by
  rw [readMembers] at hRead
  split at hRead
  next => cases hRead
  next byte more hBytes =>
      obtain ⟨blanks, hBlanks, rfl, _⟩ := skipBlanks_eq_cons hBytes
      split at hRead
      next hClose =>
          obtain ⟨rfl, hRest⟩ := Prod.mk.inj hRead
          obtain rfl := Option.some.inj hRest
          refine ⟨blanks, [], hBlanks, ?_, .nil⟩
          rw [List.map_nil, partsBytes, ← hClose, ofNat_ascii]
          rfl
      next =>
          rw [if_pos rfl] at hRead
          obtain ⟨part, parts, hPart, hParts⟩ := ih.member hRead
          refine ⟨blanks, part :: parts, hBlanks, ?_, hParts⟩
          rw [hPart, List.map_cons, partsBytes, List.append_assoc]

end Splits

/-- **What is read without a fault is spelled by the bytes that are not left.** -/
theorem splits (fuel : Nat) : Splits fuel := by
  induction fuel with
  | zero => exact .zero
  | succ fuel ih =>
      exact
        { value := ih.succ_value
          item := ih.succ_item
          items := ih.succ_items
          firstItems := ih.succ_firstItems
          member := ih.succ_member
          members := ih.succ_members
          firstMembers := ih.succ_firstMembers }

/-- Only members in braces are read as an object. -/
theorem members_of_valueAt {members : List (Literal × Json)}
    (hRead : valueAt fuel byte more = (object members, some rest)) :
    ascii byte = '\x7b' ∧ readMembers fuel true more = (members, some rest) := by
  unfold valueAt at hRead
  split at hRead
  case h_1 | h_2 | h_3 => exact absurd (word_local hRead).1 nofun
  case h_4 =>
      obtain ⟨⟨value, hValue⟩, _⟩ := numberValue_local hRead
      cases hValue
  case h_5 | h_6 => cases (Prod.mk.inj hRead).1
  case h_7 hBrace =>
      obtain ⟨hMembers, hRest⟩ := Prod.mk.inj hRead
      exact ⟨hBrace, Prod.ext (Json.object.inj hMembers) hRest⟩
  case h_8 =>
      split at hRead
      next =>
          obtain ⟨⟨value, hValue⟩, _⟩ := numberValue_local hRead
          cases hValue
      next => cases hRead

/-- **An object has parts**, one for each member. -/
theorem IsPart.exists_members {members : List (Literal × Json)}
    (hPart : IsPart bytes (object members)) :
    ∃ before gap parts after, AllBlank before ∧ AllBlank gap ∧ AllBlank after ∧
      bytes = before ++ (UInt8.ofNat '\x7b'.toNat ::
        (gap ++ partsBytes '\x7d' (parts.map memberBytes))) ++ after ∧
      List.Forall₂ IsMember parts members := by
  obtain ⟨used, after, rfl, hAfter, hSpells⟩ := hPart.spells
  obtain ⟨byte, more, hUsed, _⟩ := hSpells.opens
  have hRead := hSpells (3 * used.length + 1) [] nofun (Nat.le_succ _)
  rw [List.append_nil, readValue_of_skipBlanks hUsed] at hRead
  obtain ⟨hBrace, hMembers⟩ := members_of_valueAt hRead
  obtain ⟨before, hBefore, rfl, _⟩ := skipBlanks_eq_cons hUsed
  obtain ⟨gap, parts, hGap, rfl, hParts⟩ := (splits _).firstMembers hMembers
  refine ⟨before, gap, parts, after, hBefore, hGap, hAfter, ?_, hParts⟩
  rw [List.append_nil, ← hBrace, ofNat_ascii]

/-! ## Readers stop at faults -/

theorem skipFault?_of_literal_none {read : List UInt8} {first : Option Fault} {found : Literal}
    (hRead : literal read first bytes = (found, none)) : skipFault? (string found) ≠ none := by
  induction hLength : bytes.length using Nat.strongRecOn generalizing bytes read first with
  | ind length ih =>
      cases bytes with
      | nil =>
          rw [literal] at hRead
          obtain ⟨rfl, _⟩ := Prod.mk.inj hRead
          exact Option.some_ne_none _
      | cons byte bytes =>
          have hShort := length_piece_le byte bytes
          rw [literal_cons] at hRead
          cases hPiece : piece (byte :: bytes) with
          | mk next left =>
              rw [hPiece] at hRead hShort
              have hLess : left.length < length := by
                rw [← hLength]
                exact Nat.lt_succ_of_le hShort
              cases next with
              | close => cases hRead
              | stop fault =>
                  obtain ⟨rfl, _⟩ := Prod.mk.inj hRead
                  exact Option.some_ne_none _
              | byte value => exact ih left.length hLess hRead rfl
              | char value => exact ih left.length hLess hRead rfl
              | nothing fault => exact ih left.length hLess hRead rfl

theorem skipFault?_of_word_none {value found : Json} {letters : List Char}
    (hRead : word value letters bytes = (found, none)) : found.skipFault? ≠ none := by
  induction letters generalizing bytes with
  | nil => cases hRead
  | cons letter letters ih =>
      cases bytes with
      | nil =>
          obtain ⟨rfl, _⟩ := Prod.mk.inj hRead
          exact Option.some_ne_none _
      | cons byte bytes =>
          rw [word] at hRead
          split at hRead
          next => exact ih hRead
          next =>
              obtain ⟨rfl, _⟩ := Prod.mk.inj hRead
              exact Option.some_ne_none _

theorem skipFault?_of_numberValue_none {negative : Bool} {found : Json}
    (hRead : numberValue negative bytes = (found, none)) : found.skipFault? ≠ none := by
  rw [numberValue] at hRead
  split at hRead
  next => cases hRead
  next =>
      obtain ⟨rfl, _⟩ := Prod.mk.inj hRead
      exact Option.some_ne_none _

theorem orElse_ne_none {first second : Option Fault} (hSecond : second ≠ none) :
    (first <|> second) ≠ none := by
  cases first with
  | none => exact hSecond
  | some fault => exact Option.some_ne_none fault

/-- What the readers have read when they stop, with some fuel, has a fault. -/
structure Stops (fuel : Nat) : Prop where
  value : ∀ {bytes json}, readValue fuel bytes = (json, none) → json.skipFault? ≠ none
  item : ∀ {bytes items}, readItem fuel bytes = (items, none) → skipFaultOfItems? items ≠ none
  items : ∀ {bytes first items}, readItems fuel first bytes = (items, none) →
    skipFaultOfItems? items ≠ none
  member : ∀ {bytes members}, readMember fuel bytes = (members, none) →
    skipFaultOfMembers? members ≠ none
  members : ∀ {bytes first members}, readMembers fuel first bytes = (members, none) →
    skipFaultOfMembers? members ≠ none

namespace Stops

variable {items : List Json} {members : List (Literal × Json)} {first : Bool}

theorem zero : Stops 0 where
  value hRead := (Prod.mk.inj hRead).1 ▸ Option.some_ne_none _
  item hRead := (Prod.mk.inj hRead).1 ▸ Option.some_ne_none _
  items hRead := (Prod.mk.inj hRead).1 ▸ Option.some_ne_none _
  member hRead := (Prod.mk.inj hRead).1 ▸ Option.some_ne_none _
  members hRead := (Prod.mk.inj hRead).1 ▸ Option.some_ne_none _

theorem succ_value (ih : Stops fuel) (hRead : readValue (fuel + 1) bytes = (json, none)) :
    json.skipFault? ≠ none := by
  cases hBytes : skipBlanks bytes with
  | nil =>
      rw [readValue, hBytes] at hRead
      obtain ⟨rfl, _⟩ := Prod.mk.inj hRead
      exact Option.some_ne_none _
  | cons byte more =>
      rw [readValue_of_skipBlanks hBytes] at hRead
      unfold valueAt at hRead
      split at hRead
      case h_1 | h_2 | h_3 => exact skipFault?_of_word_none hRead
      case h_4 => exact skipFault?_of_numberValue_none hRead
      case h_5 =>
          obtain ⟨rfl, hLeft⟩ := Prod.mk.inj hRead
          exact skipFault?_of_literal_none (Prod.ext rfl hLeft)
      case h_6 =>
          obtain ⟨rfl, hLeft⟩ := Prod.mk.inj hRead
          exact ih.items (Prod.ext rfl hLeft)
      case h_7 =>
          obtain ⟨rfl, hLeft⟩ := Prod.mk.inj hRead
          exact ih.members (Prod.ext rfl hLeft)
      case h_8 =>
          split at hRead
          next => exact skipFault?_of_numberValue_none hRead
          next =>
              obtain ⟨rfl, _⟩ := Prod.mk.inj hRead
              exact Option.some_ne_none _

theorem succ_item (ih : Stops fuel) (hRead : readItem (fuel + 1) bytes = (items, none)) :
    skipFaultOfItems? items ≠ none := by
  rw [readItem] at hRead
  split at hRead
  next item hItem =>
      obtain ⟨rfl, _⟩ := Prod.mk.inj hRead
      obtain ⟨fault, hFault⟩ := Option.ne_none_iff_exists'.mp (ih.value hItem)
      rw [skipFaultOfItems?, hFault]
      exact Option.some_ne_none fault
  next =>
      obtain ⟨rfl, hLeft⟩ := Prod.mk.inj hRead
      exact orElse_ne_none (ih.items (Prod.ext rfl hLeft))

theorem succ_items (ih : Stops fuel) (hRead : readItems (fuel + 1) first bytes = (items, none)) :
    skipFaultOfItems? items ≠ none := by
  have hBroken (fault : Fault) : skipFaultOfItems? [broken fault] ≠ none :=
    Option.some_ne_none _
  rw [readItems] at hRead
  split at hRead
  next => exact (Prod.mk.inj hRead).1 ▸ hBroken _
  next =>
      split at hRead
      next => cases hRead
      next =>
          split at hRead
          next => exact ih.item hRead
          next =>
              split at hRead
              next =>
                  split at hRead
                  next => exact (Prod.mk.inj hRead).1 ▸ hBroken _
                  next =>
                      split at hRead
                      next => exact (Prod.mk.inj hRead).1 ▸ hBroken _
                      next => exact ih.item hRead
              next => exact (Prod.mk.inj hRead).1 ▸ hBroken _

/-- A member without a value that can be read. -/
theorem member_ne_none {key : Literal} {value : Json} {others : List (Literal × Json)}
    (hMember : skipFault? (string key) ≠ none ∨ value.skipFault? ≠ none ∨
      skipFaultOfMembers? others ≠ none) :
    skipFaultOfMembers? ((key, value) :: others) ≠ none := by
  cases key with
  | text name =>
      rw [skipFaultOfMembers?]
      rcases hMember with hKey | hValue | hOthers
      · exact absurd rfl hKey
      · obtain ⟨fault, hFault⟩ := Option.ne_none_iff_exists'.mp hValue
        rw [hFault]
        exact Option.some_ne_none fault
      · exact orElse_ne_none hOthers
  | faulty fault found =>
      rw [skipFaultOfMembers?]
      cases found with
      | some again => exact Option.some_ne_none again
      | none =>
          rcases hMember with hKey | hValue | hOthers
          · exact absurd rfl hKey
          · obtain ⟨fault, hFault⟩ := Option.ne_none_iff_exists'.mp hValue
            rw [hFault]
            exact Option.some_ne_none fault
          · exact orElse_ne_none (orElse_ne_none hOthers)

theorem succ_member (ih : Stops fuel) (hRead : readMember (fuel + 1) bytes = (members, none)) :
    skipFaultOfMembers? members ≠ none := by
  have hBroken (fault : Fault) : skipFaultOfMembers? [brokenMember fault] ≠ none :=
    Option.some_ne_none _
  cases bytes with
  | nil => exact (Prod.mk.inj hRead).1 ▸ hBroken _
  | cons byte bytes =>
      rw [readMember] at hRead
      split at hRead
      next => exact (Prod.mk.inj hRead).1 ▸ hBroken _
      next =>
          split at hRead
          next key hKey =>
              obtain ⟨rfl, _⟩ := Prod.mk.inj hRead
              exact member_ne_none (.inl (skipFault?_of_literal_none hKey))
          next key after hKey =>
              split at hRead
              next =>
                  obtain ⟨rfl, _⟩ := Prod.mk.inj hRead
                  exact member_ne_none (.inr (.inl (Option.some_ne_none _)))
              next =>
                  split at hRead
                  next =>
                      obtain ⟨rfl, _⟩ := Prod.mk.inj hRead
                      exact member_ne_none (.inr (.inl (Option.some_ne_none _)))
                  next =>
                      split at hRead
                      next value hValue =>
                          obtain ⟨rfl, _⟩ := Prod.mk.inj hRead
                          exact member_ne_none (.inr (.inl (ih.value hValue)))
                      next value left hValue =>
                          obtain ⟨rfl, hLeft⟩ := Prod.mk.inj hRead
                          exact member_ne_none (.inr (.inr (ih.members (Prod.ext rfl hLeft))))

theorem succ_members (ih : Stops fuel)
    (hRead : readMembers (fuel + 1) first bytes = (members, none)) :
    skipFaultOfMembers? members ≠ none := by
  have hBroken (fault : Fault) : skipFaultOfMembers? [brokenMember fault] ≠ none :=
    Option.some_ne_none _
  rw [readMembers] at hRead
  split at hRead
  next => exact (Prod.mk.inj hRead).1 ▸ hBroken _
  next =>
      split at hRead
      next => cases hRead
      next =>
          split at hRead
          next => exact ih.member hRead
          next =>
              split at hRead
              next =>
                  split at hRead
                  next => exact (Prod.mk.inj hRead).1 ▸ hBroken _
                  next =>
                      split at hRead
                      next => exact (Prod.mk.inj hRead).1 ▸ hBroken _
                      next => exact ih.member hRead
              next => exact (Prod.mk.inj hRead).1 ▸ hBroken _

end Stops

/-- **What is left out by a reader that stops has a fault.** -/
theorem stops (fuel : Nat) : Stops fuel := by
  induction fuel with
  | zero => exact .zero
  | succ fuel ih =>
      exact
        { value := ih.succ_value
          item := ih.succ_item
          items := ih.succ_items
          member := ih.succ_member
          members := ih.succ_members }

end SourceIndex.Json
