import SourceIndex.Proofs.Json.Numbers

/-!
# Documents are read back

What is printed for a sound value is that value's one document: read from its
bytes it gives the value, with nothing behind it, and it is on one line.

Each reader is told here what it does with a written value in front of any
rest.  A value is read with three units of fuel for each of its characters; the
items of a list are read with what is left behind each of them.

## Main results

* `Sound` — values that JSON can write.
* `Sound.reads` — a sound value is read from what is written for it.
* `Sound.document` — so is a document.
* `Sound.one_line` — it is on one line.
-/

namespace SourceIndex.Json

/-! ## Sound values -/

/-- A value that JSON can write: it has no broken part, its literals have
texts, and its numbers have digits. -/
inductive Sound : Json → Prop where
  | null : Sound null
  | bool (value : Bool) : Sound (bool value)
  | number {value : Number} (h : value.Sound) : Sound (number value)
  | text (value : String) : Sound (text value)
  | array {items : List Json} (h : ∀ item ∈ items, Sound item) : Sound (array items)
  | record {members : List (String × Json)} (h : ∀ member ∈ members, Sound member.2) :
      Sound (record members)

/-- A member as it stands in an object. -/
def memberOf (member : String × Json) : Literal × Json := (.text member.1, member.2)

theorem record_eq (members : List (String × Json)) :
    record members = object (members.map memberOf) := rfl

/-! ## Reading what is written -/

variable {fuel : Nat} {rest : List UInt8}

/-- A value is read from what is written for it, whatever follows that is not
more of a number. -/
def Reads (json : Json) : Prop :=
  ∀ (fuel : Nat) (rest : List UInt8), EndsNumber rest → 3 * json.written.length ≤ fuel →
    readValue fuel (Utf8.encode json.written ++ rest) = (json, some rest)

/-- A written value starts with a sign that is neither blank nor ends a list. -/
def Opens (json : Json) : Prop :=
  ∃ c more, json.written = c :: more ∧ c.toNat < 0x80 ∧ c ∉ [' ', '\t', '\n', '\r', ']']

/-- What a sign starts is not more of a number. -/
theorem endsNumber_cons {c : Char} {text : List Char} (h : c ∈ [',', ']', '\x7d', '\n'])
    (rest : List UInt8) : EndsNumber (Utf8.encode (c :: text) ++ rest) := by
  have hSign : c.toNat < 0x80 ∧ c.isDigit = false ∧ c ≠ '.' ∧ c ≠ 'e' ∧ c ≠ 'E' := by
    simp only [List.mem_cons, List.not_mem_nil, or_false] at h
    rcases h with rfl | rfl | rfl | rfl <;> decide
  obtain ⟨hAscii, hOther⟩ := hSign
  rw [Utf8.encode_ascii_cons hAscii, List.cons_append]
  intro byte hMem
  obtain rfl := Option.some.inj hMem
  rw [ascii_ofNat hAscii]
  exact hOther

theorem endsNumber_writtenItems (items : List Json) (rest : List UInt8) :
    EndsNumber (Utf8.encode (writtenItems items) ++ rest) := by
  cases items with
  | nil => exact endsNumber_cons (by decide) rest
  | cons item items =>
      rw [writtenItems, List.cons_append]
      exact endsNumber_cons (by decide) rest

theorem endsNumber_writtenMembers (members : List (Literal × Json)) (rest : List UInt8) :
    EndsNumber (Utf8.encode (writtenMembers members) ++ rest) := by
  cases members with
  | nil => exact endsNumber_cons (by decide) rest
  | cons member members =>
      rw [writtenMembers, List.cons_append, List.cons_append]
      exact endsNumber_cons (by decide) rest

/-- Blanks end where a value opens. -/
theorem skipBlanks_sign {c : Char} (hAscii : c.toNat < 0x80) (h : c ∉ [' ', '\t', '\n', '\r'])
    (rest : List UInt8) :
    skipBlanks (UInt8.ofNat c.toNat :: rest) = UInt8.ofNat c.toNat :: rest := by
  rw [skipBlanks, ascii_ofNat hAscii, if_neg]
  rw [List.contains_eq_mem, decide_eq_true_eq]
  exact h

theorem Opens.exists_byte {json : Json} (h : json.Opens) (bytes : List UInt8) :
    ∃ byte more, Utf8.encode json.written ++ bytes = byte :: more ∧
      skipBlanks (byte :: more) = byte :: more ∧ ascii byte ≠ ']' := by
  obtain ⟨c, more, hWritten, hAscii, hSign⟩ := h
  refine ⟨UInt8.ofNat c.toNat, Utf8.encode more ++ bytes, ?_, skipBlanks_sign hAscii ?_ _, ?_⟩
  · rw [hWritten, Utf8.encode_ascii_cons hAscii, List.cons_append]
  · exact fun hBlank => hSign (List.mem_append_left [']'] hBlank)
  · rw [ascii_ofNat hAscii]
    rintro rfl
    exact hSign (by decide)

/-! ### Lists -/

section Lists

variable {item : Json} {items : List Json}

theorem readItem_append (hItem : item.Reads)
    (hItems : readItems fuel false (Utf8.encode (writtenItems items) ++ rest) = (items, some rest))
    (hFuel : 3 * item.written.length ≤ fuel) :
    readItem (fuel + 1) (Utf8.encode (item.written ++ writtenItems items) ++ rest) =
      (item :: items, some rest) := by
  rw [Utf8.encode_append, List.append_assoc, readItem,
    hItem fuel _ (endsNumber_writtenItems items rest) hFuel]
  dsimp only
  rw [hItems]

theorem written_array_nil : written (array []) = ['[', ']'] := rfl

theorem written_array_cons (item : Json) (items : List Json) :
    written (array (item :: items)) = '[' :: (written item ++ writtenItems items) := rfl

/-- The first item is read where it opens. -/
theorem readItems_opens (hOpens : item.Opens) (bytes : List UInt8) :
    readItems (fuel + 1) true (Utf8.encode item.written ++ bytes) =
      readItem fuel (Utf8.encode item.written ++ bytes) := by
  obtain ⟨byte, more, hBytes, hBlanks, hEnd⟩ := hOpens.exists_byte bytes
  rw [hBytes, readItems, hBlanks]
  dsimp only
  rw [if_neg hEnd, if_pos rfl]

/-- Another item is read behind a comma. -/
theorem readItems_comma (hOpens : item.Opens) (bytes : List UInt8) :
    readItems (fuel + 1) false (UInt8.ofNat ','.toNat :: (Utf8.encode item.written ++ bytes)) =
      readItem fuel (Utf8.encode item.written ++ bytes) := by
  obtain ⟨byte, more, hBytes, hBlanks, hEnd⟩ := hOpens.exists_byte bytes
  rw [hBytes, readItems, skipBlanks_sign (by decide) (by decide)]
  dsimp only
  rw [ascii_ofNat (by decide), if_neg (by decide), if_neg Bool.false_ne_true, if_pos rfl, hBlanks]
  dsimp only
  rw [if_neg hEnd]

/-- The items behind the first one are read up to the end of the list. -/
theorem readItems_written (rest : List UInt8) (items : List Json)
    (hItems : ∀ item ∈ items, item.Reads ∧ item.Opens) :
    ∀ fuel, 3 * (writtenItems items).length ≤ fuel + 2 →
      readItems (fuel + 2) false (Utf8.encode (writtenItems items) ++ rest) =
        (items, some rest) := by
  induction items with
  | nil =>
      intro fuel _
      rw [writtenItems, Utf8.encode_ascii_cons (by decide), List.cons_append, readItems,
        skipBlanks_sign (by decide) (by decide)]
      rfl
  | cons item items ih =>
      intro fuel hFuel
      obtain ⟨hReads, hOpens⟩ := hItems item List.mem_cons_self
      rw [writtenItems, List.cons_append, List.length_cons, List.length_append] at hFuel
      have hPos : 0 < (writtenItems items).length := by
        cases items <;> exact Nat.zero_lt_succ _
      obtain ⟨fuel, rfl⟩ : ∃ less, fuel = less + 2 := ⟨fuel - 2, by omega⟩
      have hRest := ih (fun other hOther => hItems other (List.mem_cons_of_mem item hOther))
        fuel (by omega)
      rw [writtenItems, List.cons_append, Utf8.encode_ascii_cons (by decide), List.cons_append,
        Utf8.encode_append, List.append_assoc, readItems_comma hOpens, ← List.append_assoc,
        ← Utf8.encode_append, readItem_append hReads hRest (by omega)]

theorem readValue_list (fuel : Nat) (bytes : List UInt8) :
    readValue (fuel + 1) (UInt8.ofNat '['.toNat :: bytes) =
      (array (readItems fuel true bytes).1, (readItems fuel true bytes).2) := by
  rfl

theorem reads_array (hItems : ∀ item ∈ items, item.Reads ∧ item.Opens) : (array items).Reads := by
  intro fuel rest _ hFuel
  cases items with
  | nil =>
      rw [written_array_nil, List.length_cons, List.length_singleton] at hFuel
      obtain ⟨fuel, rfl⟩ : ∃ less, fuel = less + 2 := ⟨fuel - 2, by omega⟩
      rw [written_array_nil, Utf8.encode_ascii_cons (by decide), Utf8.encode_ascii_cons (by decide),
        List.cons_append, List.cons_append, readValue_list, readItems,
        skipBlanks_sign (by decide) (by decide)]
      rfl
  | cons item items =>
      obtain ⟨hReads, hOpens⟩ := hItems item List.mem_cons_self
      rw [written_array_cons, List.length_cons, List.length_append] at hFuel
      have hPos : 0 < (writtenItems items).length := by
        cases items <;> exact Nat.zero_lt_succ _
      obtain ⟨fuel, rfl⟩ : ∃ less, fuel = less + 5 := ⟨fuel - 5, by omega⟩
      have hRest := readItems_written rest items
        (fun other hOther => hItems other (List.mem_cons_of_mem item hOther)) fuel (by omega)
      rw [written_array_cons, Utf8.encode_ascii_cons (by decide), List.cons_append,
        Utf8.encode_append, List.append_assoc, readValue_list, readItems_opens hOpens,
        ← List.append_assoc, ← Utf8.encode_append, readItem_append hReads hRest (by omega)]

end Lists

/-! ### Objects -/

section Objects

variable {member : String × Json} {members : List (String × Json)}

/-- The text of a member. -/
def memberText (member : String × Json) : List Char :=
  quoted member.1.toList ++ ':' :: written member.2

theorem writtenMembers_cons (member : String × Json) (members : List (String × Json)) :
    writtenMembers ((member :: members).map memberOf) =
      ',' :: (memberText member ++ writtenMembers (members.map memberOf)) := by
  rw [List.map_cons, memberOf, writtenMembers, memberText]
  rfl

theorem written_record_nil : written (record []) = ['\x7b', '\x7d'] := rfl

theorem written_record_cons (member : String × Json) (members : List (String × Json)) :
    written (record (member :: members)) =
      '\x7b' :: (memberText member ++ writtenMembers (members.map memberOf)) := rfl

/-- A member starts with the quote of its key. -/
theorem encode_memberText (member : String × Json) (bytes : List UInt8) :
    Utf8.encode (memberText member) ++ bytes = UInt8.ofNat '"'.toNat ::
      (Utf8.encode (member.1.toList.flatMap escaped ++ ['"']) ++
        (UInt8.ofNat ':'.toNat :: (Utf8.encode (written member.2) ++ bytes))) := by
  rw [memberText, quoted, List.cons_append, List.cons_append, Utf8.encode_ascii_cons (by decide),
    Utf8.encode_append, Utf8.encode_ascii_cons (by decide), List.cons_append, List.append_assoc,
    List.cons_append]

theorem length_memberText (member : String × Json) :
    (written member.2).length + 3 ≤ (memberText member).length := by
  rw [memberText, quoted]
  simp only [List.length_append, List.length_cons]
  omega

theorem readMember_append (hValue : member.2.Reads)
    (hMembers : readMembers fuel false
      (Utf8.encode (writtenMembers (members.map memberOf)) ++ rest) =
        (members.map memberOf, some rest))
    (hFuel : 3 * member.2.written.length ≤ fuel) :
    readMember (fuel + 1)
        (Utf8.encode (memberText member ++ writtenMembers (members.map memberOf)) ++ rest) =
      ((member :: members).map memberOf, some rest) := by
  rw [Utf8.encode_append, List.append_assoc, encode_memberText, readMember,
    ascii_ofNat (by decide), if_neg (by decide), literal_flatMap]
  dsimp only
  rw [skipBlanks_sign (by decide) (by decide)]
  dsimp only
  rw [ascii_ofNat (by decide), if_neg (by decide),
    hValue fuel _ (endsNumber_writtenMembers _ rest) hFuel]
  dsimp only
  rw [hMembers, String.ofList_toList, List.map_cons]
  rfl

/-- The first member is read where its key opens. -/
theorem readMembers_opens (member : String × Json) (bytes : List UInt8) :
    readMembers (fuel + 1) true (Utf8.encode (memberText member) ++ bytes) =
      readMember fuel (Utf8.encode (memberText member) ++ bytes) := by
  rw [encode_memberText, readMembers, skipBlanks_sign (by decide) (by decide)]
  dsimp only
  rw [ascii_ofNat (by decide), if_neg (by decide), if_pos rfl]

/-- Another member is read behind a comma. -/
theorem readMembers_comma (member : String × Json) (bytes : List UInt8) :
    readMembers (fuel + 1) false
        (UInt8.ofNat ','.toNat :: (Utf8.encode (memberText member) ++ bytes)) =
      readMember fuel (Utf8.encode (memberText member) ++ bytes) := by
  rw [encode_memberText, readMembers, skipBlanks_sign (by decide) (by decide)]
  dsimp only
  rw [ascii_ofNat (by decide), if_neg (by decide), if_neg Bool.false_ne_true, if_pos rfl,
    skipBlanks_sign (by decide) (by decide)]
  dsimp only
  rw [ascii_ofNat (by decide), if_neg (by decide)]

/-- The members behind the first one are read up to the end of the object. -/
theorem readMembers_written (rest : List UInt8) (members : List (String × Json))
    (hMembers : ∀ member ∈ members, member.2.Reads) :
    ∀ fuel, 3 * (writtenMembers (members.map memberOf)).length ≤ fuel + 2 →
      readMembers (fuel + 2) false (Utf8.encode (writtenMembers (members.map memberOf)) ++ rest) =
        (members.map memberOf, some rest) := by
  induction members with
  | nil =>
      intro fuel _
      rw [List.map_nil, writtenMembers, Utf8.encode_ascii_cons (by decide), List.cons_append,
        readMembers, skipBlanks_sign (by decide) (by decide)]
      rfl
  | cons member members ih =>
      intro fuel hFuel
      have hLength := length_memberText member
      rw [writtenMembers_cons, List.length_cons, List.length_append] at hFuel
      obtain ⟨fuel, rfl⟩ : ∃ less, fuel = less + 2 := ⟨fuel - 2, by omega⟩
      have hRest := ih (fun other hOther => hMembers other (List.mem_cons_of_mem member hOther))
        fuel (by omega)
      rw [writtenMembers_cons, Utf8.encode_ascii_cons (by decide), List.cons_append,
        Utf8.encode_append, List.append_assoc, readMembers_comma, ← List.append_assoc,
        ← Utf8.encode_append,
        readMember_append (hMembers member List.mem_cons_self) hRest (by omega)]

theorem readValue_object (fuel : Nat) (bytes : List UInt8) :
    readValue (fuel + 1) (UInt8.ofNat '\x7b'.toNat :: bytes) =
      (object (readMembers fuel true bytes).1, (readMembers fuel true bytes).2) := by
  rfl

theorem reads_record (hMembers : ∀ member ∈ members, member.2.Reads) : (record members).Reads := by
  intro fuel rest _ hFuel
  cases members with
  | nil =>
      rw [written_record_nil, List.length_cons, List.length_singleton] at hFuel
      obtain ⟨fuel, rfl⟩ : ∃ less, fuel = less + 2 := ⟨fuel - 2, by omega⟩
      rw [written_record_nil, Utf8.encode_ascii_cons (by decide),
        Utf8.encode_ascii_cons (by decide), List.cons_append, List.cons_append, readValue_object,
        readMembers, skipBlanks_sign (by decide) (by decide)]
      rfl
  | cons member members =>
      have hLength := length_memberText member
      rw [written_record_cons, List.length_cons, List.length_append] at hFuel
      obtain ⟨fuel, rfl⟩ : ∃ less, fuel = less + 5 := ⟨fuel - 5, by omega⟩
      have hRest := readMembers_written rest members
        (fun other hOther => hMembers other (List.mem_cons_of_mem member hOther)) fuel (by omega)
      rw [written_record_cons, Utf8.encode_ascii_cons (by decide), List.cons_append,
        Utf8.encode_append, List.append_assoc, readValue_object, readMembers_opens,
        ← List.append_assoc, ← Utf8.encode_append,
        readMember_append (hMembers member List.mem_cons_self) hRest (by omega), record_eq]

end Objects

/-! ### Words, literals and numbers -/

section Leaves

/-- A value whose reader does not ask for fuel. -/
theorem reads_of_succ {json : Json} (hSome : json.written ≠ [])
    (h : ∀ (fuel : Nat) (rest : List UInt8), EndsNumber rest →
      readValue (fuel + 1) (Utf8.encode json.written ++ rest) = (json, some rest)) :
    json.Reads := by
  intro fuel rest hEnd hFuel
  have hLength := List.length_pos_iff.mpr hSome
  obtain ⟨fuel, rfl⟩ : ∃ less, fuel = less + 1 := ⟨fuel - 1, by omega⟩
  exact h fuel rest hEnd

theorem reads_null : null.Reads :=
  reads_of_succ (by decide) fun _ _ _ => rfl

theorem reads_bool (value : Bool) : (bool value).Reads := by
  cases value
  · exact reads_of_succ (by decide) fun _ _ _ => rfl
  · exact reads_of_succ (by decide) fun _ _ _ => rfl

theorem written_text (value : String) :
    written (text value) = '"' :: (value.toList.flatMap escaped ++ ['"']) := rfl

theorem reads_text (value : String) : (text value).Reads := by
  refine reads_of_succ (by rw [written_text]; exact List.cons_ne_nil _ _) fun fuel rest _ => ?_
  rw [written_text, Utf8.encode_ascii_cons (by decide), List.cons_append]
  show (string (literal [] none _).1, (literal [] none _).2) = _
  rw [literal_flatMap, String.ofList_toList]
  rfl

/-- A minus sign or a digit is read as the start of a number. -/
theorem readValue_minus (fuel : Nat) (bytes : List UInt8) :
    readValue (fuel + 1) (UInt8.ofNat '-'.toNat :: bytes) = numberValue true bytes := by
  rfl

theorem mem_of_isDigit {c : Char} (h : c.isDigit = true) :
    c ∈ ['0', '1', '2', '3', '4', '5', '6', '7', '8', '9'] := by
  have hRange := Char.isDigit_iff_toNat.mp h
  have hAll : ∀ n < 58, 48 ≤ n →
      Char.ofNat n ∈ ['0', '1', '2', '3', '4', '5', '6', '7', '8', '9'] := by decide
  rw [← Char.ofNat_toNat c]
  exact hAll c.toNat (Nat.lt_succ_of_le hRange.2) hRange.1

theorem readValue_digit {c : Char} (h : c.isDigit = true) (fuel : Nat) (bytes : List UInt8) :
    readValue (fuel + 1) (UInt8.ofNat c.toNat :: bytes) =
      numberValue false (UInt8.ofNat c.toNat :: bytes) := by
  have hMem := mem_of_isDigit h
  simp only [List.mem_cons, List.not_mem_nil, or_false] at hMem
  rcases hMem with rfl | rfl | rfl | rfl | rfl | rfl | rfl | rfl | rfl | rfl
  all_goals rfl

/-- The text of a number starts with a minus sign or a digit. -/
theorem Number.Sound.text_cases {value : Number} (h : value.Sound) :
    (value.negative = true ∧ value.text = '-' :: value.unsignedText) ∨
      (value.negative = false ∧ value.text = value.unsignedText ∧
        ∃ digit more, value.unsignedText = digit :: more ∧ digit.isDigit = true) := by
  have hText := value.text_eq
  cases hNegative : value.negative with
  | true =>
      rw [hNegative, if_pos rfl] at hText
      exact .inl ⟨rfl, hText⟩
  | false =>
      rw [hNegative, if_neg Bool.false_ne_true, List.nil_append] at hText
      obtain ⟨digit, more, hWhole⟩ := List.exists_cons_of_ne_nil h.whole
      refine .inr ⟨rfl, hText, digit,
        more ++ (fractionText value.fraction ++ exponentText? value.exponent), ?_,
        h.wholeDigits digit (hWhole ▸ List.mem_cons_self)⟩
      rw [Number.unsignedText, hWhole, List.cons_append]

theorem written_number (value : Number) : written (number value) = value.text := rfl

theorem reads_number {value : Number} (h : value.Sound) : (number value).Reads := by
  rcases h.text_cases with ⟨hNegative, hText⟩ | ⟨hNegative, hText, digit, more, hMore, hDigit⟩
  · refine reads_of_succ (by rw [written_number, hText]; exact List.cons_ne_nil _ _)
      fun fuel rest hEnd => ?_
    have hValue := numberValue_encode h hEnd
    rw [written_number, hText, Utf8.encode_ascii_cons (by decide), List.cons_append,
      readValue_minus, ← hNegative, hValue]
  · refine reads_of_succ (by rw [written_number, hText, hMore]; exact List.cons_ne_nil _ _)
      fun fuel rest hEnd => ?_
    have hValue := numberValue_encode h hEnd
    rw [hMore, Utf8.encode_ascii_cons (toNat_lt_of_isDigit hDigit), List.cons_append,
      hNegative] at hValue
    rw [written_number, hText, hMore, Utf8.encode_ascii_cons (toNat_lt_of_isDigit hDigit),
      List.cons_append, readValue_digit hDigit, hValue]

end Leaves

/-! ## Documents -/

namespace Sound

variable {json : Json}

/-- A sound value opens with one of a few signs. -/
theorem opens (h : Sound json) : json.Opens := by
  cases h with
  | null => exact ⟨'n', _, rfl, by decide, by decide⟩
  | bool value =>
      cases value
      · exact ⟨'f', _, rfl, by decide, by decide⟩
      · exact ⟨'t', _, rfl, by decide, by decide⟩
  | text value => exact ⟨'"', _, written_text value, by decide, by decide⟩
  | @array items hItems =>
      cases items with
      | nil => exact ⟨'[', _, rfl, by decide, by decide⟩
      | cons item items => exact ⟨'[', _, written_array_cons item items, by decide, by decide⟩
  | @record members hMembers =>
      cases members with
      | nil => exact ⟨'\x7b', _, rfl, by decide, by decide⟩
      | cons member members =>
          exact ⟨'\x7b', _, written_record_cons member members, by decide, by decide⟩
  | @number value hNumber =>
      rcases hNumber.text_cases with ⟨_, hText⟩ | ⟨_, hText, digit, more, hMore, hDigit⟩
      · exact ⟨'-', _, by rw [written_number, hText], by decide, by decide⟩
      · refine ⟨digit, more, by rw [written_number, hText, hMore], toNat_lt_of_isDigit hDigit, ?_⟩
        intro hSign
        simp only [List.mem_cons, List.not_mem_nil, or_false] at hSign
        rcases hSign with rfl | rfl | rfl | rfl | rfl <;> cases hDigit

/-- **A sound value is read from what is written for it.** -/
theorem reads (h : Sound json) : json.Reads := by
  induction h with
  | null => exact reads_null
  | bool value => exact reads_bool value
  | number hNumber => exact reads_number hNumber
  | text value => exact reads_text value
  | array hItems ih =>
      exact reads_array fun item hItem => ⟨ih item hItem, (hItems item hItem).opens⟩
  | record _ ih => exact reads_record ih

/-- What is written for a sound value is a document, whatever blanks follow. -/
theorem ofBytes (h : Sound json) {rest : List UInt8} (hEnd : EndsNumber rest)
    (hBlank : skipBlanks rest = []) :
    Document.ofBytes (Utf8.encode json.written ++ rest) = ⟨json, false⟩ := by
  have hLength := Utf8.length_le_length_encode json.written
  have hRead := h.reads (3 * (Utf8.encode json.written ++ rest).length + 3) rest hEnd
    (by rw [List.length_append]; omega)
  rw [Document.ofBytes, hRead]
  dsimp only
  rw [hBlank]
  rfl

/-- **What is printed for a sound value is its one document.** -/
theorem document (h : Sound json) :
    Document.ofString (json.render ++ "\n") = ⟨json, false⟩ := by
  have hBytes : Utf8.bytes (json.render ++ "\n") =
      Utf8.encode json.written ++ Utf8.encode ['\n'] := by
    rw [Utf8.bytes, String.toList_append, render, String.toList_ofList, Utf8.encode_append]
    rfl
  have hEnd : EndsNumber (Utf8.encode ['\n']) := by
    rw [← List.append_nil (Utf8.encode ['\n'])]
    exact endsNumber_cons (by decide) []
  rw [Document.ofString, hBytes]
  exact h.ofBytes hEnd rfl

/-- So is its text alone. -/
theorem document_render (h : Sound json) : Document.ofString json.render = ⟨json, false⟩ := by
  have hBytes : Utf8.bytes json.render = Utf8.encode json.written ++ [] := by
    rw [Utf8.bytes, render, String.toList_ofList, List.append_nil]
  rw [Document.ofString, hBytes]
  exact h.ofBytes endsNumber_nil rfl

end Sound

/-! ## One line -/

theorem lineFeed_not_mem_number {value : Number} (h : value.Sound) : '\n' ∉ value.text := by
  have hDigits : ∀ digits : List Char, (∀ c ∈ digits, c.isDigit = true) → '\n' ∉ digits :=
    fun digits hAll hMem => absurd (hAll '\n' hMem) (by decide)
  have hFraction : '\n' ∉ fractionText value.fraction := by
    rw [fractionText]
    split
    · exact List.not_mem_nil
    · exact List.not_mem_cons_of_ne_of_not_mem (by decide) (hDigits _ h.fractionDigits)
  have hExponent : '\n' ∉ exponentText? value.exponent := by
    cases value.exponent with
    | none => exact List.not_mem_nil
    | some exponent =>
        refine List.not_mem_cons_of_ne_of_not_mem (by decide)
          (List.not_mem_cons_of_ne_of_not_mem ?_ (hDigits _ isDigit_of_mem_toDigits))
        split <;> decide
  have hSign : '\n' ∉ (if value.negative = true then ['-'] else []) := by
    split <;> decide
  rw [Number.text_eq, Number.unsignedText, List.mem_append, List.mem_append, List.mem_append]
  rintro (hMem | hMem | hMem | hMem)
  · exact hSign hMem
  · exact hDigits _ h.wholeDigits hMem
  · exact hFraction hMem
  · exact hExponent hMem

theorem lineFeed_not_mem_items {items : List Json} (h : ∀ item ∈ items, '\n' ∉ item.written) :
    '\n' ∉ writtenItems items := by
  induction items with
  | nil => decide
  | cons item items ih =>
      rw [writtenItems, List.cons_append, List.mem_cons, List.mem_append]
      rintro (hComma | hMem | hMem)
      · exact absurd hComma (by decide)
      · exact h item List.mem_cons_self hMem
      · exact ih (fun other hOther => h other (List.mem_cons_of_mem item hOther)) hMem

theorem lineFeed_not_mem_memberText {member : String × Json} (h : '\n' ∉ member.2.written) :
    '\n' ∉ memberText member := by
  rw [memberText, List.mem_append, List.mem_cons]
  rintro (hMem | hColon | hMem)
  · exact lineFeed_not_mem_quoted _ hMem
  · exact absurd hColon (by decide)
  · exact h hMem

theorem lineFeed_not_mem_members {members : List (String × Json)}
    (h : ∀ member ∈ members, '\n' ∉ member.2.written) :
    '\n' ∉ writtenMembers (members.map memberOf) := by
  induction members with
  | nil => decide
  | cons member members ih =>
      rw [writtenMembers_cons, List.mem_cons, List.mem_append]
      rintro (hComma | hMem | hMem)
      · exact absurd hComma (by decide)
      · exact lineFeed_not_mem_memberText (h member List.mem_cons_self) hMem
      · exact ih (fun other hOther => h other (List.mem_cons_of_mem member hOther)) hMem

/-- **A sound value is written on one line.** -/
theorem Sound.one_line {json : Json} (h : Sound json) : '\n' ∉ json.written := by
  induction h with
  | null => decide
  | bool value => cases value <;> decide
  | number hNumber =>
      rw [written_number]
      exact lineFeed_not_mem_number hNumber
  | text value =>
      rw [written_text, ← List.cons_append]
      exact lineFeed_not_mem_quoted value.toList
  | @array items _ ih =>
      cases items with
      | nil => decide
      | cons item items =>
          rw [written_array_cons, List.mem_cons, List.mem_append]
          rintro (hBracket | hMem | hMem)
          · exact absurd hBracket (by decide)
          · exact ih item List.mem_cons_self hMem
          · exact lineFeed_not_mem_items
              (fun other hOther => ih other (List.mem_cons_of_mem item hOther)) hMem
  | @record members _ ih =>
      cases members with
      | nil => decide
      | cons member members =>
          rw [written_record_cons, List.mem_cons, List.mem_append]
          rintro (hBrace | hMem | hMem)
          · exact absurd hBrace (by decide)
          · exact lineFeed_not_mem_memberText (ih member List.mem_cons_self) hMem
          · exact lineFeed_not_mem_members
              (fun other hOther => ih other (List.mem_cons_of_mem member hOther)) hMem

end SourceIndex.Json
