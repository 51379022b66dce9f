import SourceIndex.Proofs.Text.Boundaries

/-!
# Places of characters that are no blanks

Definitions own the blanks after them, and a residue holds none on its own.
Such rules compare offsets, and what they ask of the text is only at which
offsets a character starts that is no blank: there is *ink*.  A slice is blank
when there is no ink between its ends, and the blanks that start it end at the
first ink, or where the slice ends.

## Main results

* `allBlank_slice_iff` — a slice is blank when there is no ink in it.
* `blanks_end` — where the blanks end that start a slice.
* `Span.InkFirst.ink` — a text that starts with ink is not empty.
-/

namespace SourceIndex

namespace Text

/-- A character that is no blank starts at an offset. -/
def InkAt (text : List Char) (offset : Nat) : Prop :=
  ∃ front c back, text = front ++ c :: back ∧ byteLength front = offset ∧ isBlank c = false

/-- There is no ink from one offset up to another one. -/
def Inkless (text : List Char) (start stop : Nat) : Prop :=
  ∀ offset, start ≤ offset → offset < stop → ¬ InkAt text offset

/-- The first ink from an offset on is at another one, or there is none up to
the end of the text, which that is then. -/
structure NextInk (text : List Char) (start stop : Nat) : Prop where
  le : start ≤ stop
  blank : Inkless text start stop
  ink : InkAt text stop ∨ stop = byteLength text

variable {text : List Char} {start middle stop offset : Nat}

theorem InkAt.isBoundary (h : InkAt text offset) : IsBoundary text offset := by
  obtain ⟨front, c, back, hText, hLength, _⟩ := h
  exact isBoundary_iff.mpr ⟨front, c :: back, hText, hLength⟩

theorem InkAt.lt_byteLength (h : InkAt text offset) : offset < byteLength text := by
  obtain ⟨front, c, back, rfl, rfl, _⟩ := h
  have hPos := c.utf8Size_pos
  rw [byteLength_append, byteLength_cons]
  omega

theorem inkless_self (text : List Char) (offset : Nat) : Inkless text offset offset :=
  fun _ hFrom hTo => absurd hTo (Nat.not_lt.mpr hFrom)

/-- What is next from an offset on does not depend on where the search would
have ended. -/
theorem NextInk.unique {other : Nat} (h : NextInk text start stop)
    (hOther : NextInk text start other) : stop = other := by
  have hNotLater : ∀ {a b : Nat}, NextInk text start a → NextInk text start b → ¬ a < b := by
    intro a b ha hb hLt
    rcases ha.ink with hInk | hEnd
    · exact hb.blank a ha.le hLt hInk
    · rcases hb.ink with hInk | hLast
      · have hInside := hInk.lt_byteLength
        omega
      · omega
  have hFirst := hNotLater h hOther
  have hSecond := hNotLater hOther h
  omega

/-- **A slice is blank when there is no ink in it.** -/
theorem allBlank_slice_iff (hStart : IsBoundary text start) (hStop : IsBoundary text stop)
    (hLe : start ≤ stop) : allBlank (slice text start stop) = true ↔ Inkless text start stop := by
  obtain ⟨front, back, hText, hFront, hLength⟩ := slice_split hStart hStop hLe
  generalize slice text start stop = inside at hText hLength ⊢
  rw [allBlank, List.all_eq_true]
  constructor
  · rintro hBlank offset hFrom hTo ⟨before, c, after, hSplit, rfl, hInk⟩
    -- The character stands behind `front`, and before the end of `inside`.
    have hParts : front ++ (inside ++ back) = before ++ c :: after := by
      rw [← hSplit, hText, List.append_assoc]
    obtain ⟨skipped, rfl⟩ := prefix_split hParts (by omega)
    rw [List.append_assoc, List.append_cancel_left_eq] at hParts
    rw [byteLength_append] at hTo
    obtain ⟨more, rfl⟩ := prefix_split hParts.symm (by omega)
    have hMore : more ≠ [] := by
      rintro rfl
      rw [List.append_nil] at hLength
      omega
    obtain ⟨d, rest, rfl⟩ := List.exists_cons_of_ne_nil hMore
    rw [List.append_assoc, List.append_cancel_left_eq, List.cons_append] at hParts
    obtain ⟨rfl, _⟩ := List.cons.inj hParts
    rw [hBlank d (List.mem_append_right skipped List.mem_cons_self)] at hInk
    cases hInk
  · intro hInkless c hMem
    obtain ⟨before, after, rfl⟩ := List.append_of_mem hMem
    cases hBlank : isBlank c with
    | true => rfl
    | false =>
        have hPos := c.utf8Size_pos
        rw [byteLength_append, byteLength_cons] at hLength
        have hInk : InkAt text (byteLength (front ++ before)) := by
          refine ⟨front ++ before, c, after ++ back, ?_, rfl, hBlank⟩
          rw [hText]
          simp only [List.append_assoc, List.cons_append]
        rw [byteLength_append] at hInk
        exact absurd hInk (hInkless _ (by omega) (by omega))

/-- So it is with the beginning of a text. -/
theorem allBlank_takeBytes_iff (hStop : IsBoundary text stop) :
    allBlank (takeBytes stop text) = true ↔ Inkless text 0 stop := by
  rw [← slice_zero]
  exact allBlank_slice_iff (isBoundary_zero text) hStop (Nat.zero_le stop)

/-- **The blanks that start a slice** end at the first ink in it, or at its
end. -/
theorem blanks_end (hStart : IsBoundary text start) (hStop : IsBoundary text stop)
    (hLe : start ≤ stop) :
    Inkless text start (start + byteLength ((slice text start stop).takeWhile isBlank)) ∧
      (start + byteLength ((slice text start stop).takeWhile isBlank) = stop ∨
        InkAt text (start + byteLength ((slice text start stop).takeWhile isBlank))) := by
  obtain ⟨hEnd, _⟩ := isBoundary_add_leading isBlank hStart hStop hLe
  obtain ⟨front, back, hText, hFront, hLength⟩ := slice_split hStart hStop hLe
  generalize slice text start stop = inside at hText hLength hEnd ⊢
  have hInside := List.takeWhile_append_dropWhile (p := isBlank) (l := inside)
  constructor
  · rw [← allBlank_slice_iff hStart hEnd (Nat.le_add_right _ _), hText, ← hInside]
    rw [List.append_assoc, List.append_assoc, ← List.append_assoc front, hInside, ← hFront,
      slice_middle]
    exact List.all_takeWhile
  · cases hRest : inside.dropWhile isBlank with
    | nil =>
        rw [hRest, List.append_nil] at hInside
        rw [hInside]
        exact .inl (by omega)
    | cons c rest =>
        refine .inr ⟨front ++ inside.takeWhile isBlank, c, rest ++ back, ?_, ?_, ?_⟩
        · rw [hRest] at hInside
          rw [List.append_assoc, ← List.cons_append, ← List.append_assoc _ _ back, hInside, hText,
            List.append_assoc]
        · rw [byteLength_append, hFront]
        · have hHead := List.head?_dropWhile_not isBlank inside
          rw [hRest] at hHead
          simpa using hHead

end Text

/-! ## Spans that start with ink -/

/-- The text of a span starts with a character that is no blank. -/
def Span.InkFirst (source : List Char) (span : Span) : Prop :=
  (span.text source).head?.any (fun c => !Text.isBlank c) = true

instance (source : List Char) (span : Span) : Decidable (span.InkFirst source) :=
  inferInstanceAs (Decidable (_ = true))

/-- Such a span is not empty, and there is ink where it starts. -/
theorem Span.InkFirst.ink {source : List Char} {span : Span} (h : span.InkFirst source)
    (hFits : span.Fits source) : span.start < span.stop ∧ Text.InkAt source span.start := by
  obtain ⟨front, back, hText, hFront, hLength⟩ :=
    Text.slice_split hFits.start hFits.stop hFits.ordered
  unfold InkFirst Span.text at h
  cases hInside : Text.slice source span.start span.stop with
  | nil =>
      rw [hInside] at h
      cases h
  | cons c rest =>
      rw [hInside] at h hText hLength
      have hPos := c.utf8Size_pos
      rw [Text.byteLength_cons] at hLength
      refine ⟨by omega, front, c, rest ++ back, ?_, hFront, ?_⟩
      · rw [hText, List.append_assoc, List.cons_append]
      · simpa using h

end SourceIndex
