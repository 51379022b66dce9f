import SourceIndex.Text.Blank
import SourceIndex.Text.Bytes

/-!
# Boundaries of a text

`takeBytes` and `slice` are total: an offset inside a character is rounded
down and an inverted range gives the empty text.  A program that cuts UTF-8
in place has no such freedom.  Both ends of a cut must be *boundaries*,
offsets between two characters or at one of the ends of the text, and they
must come in order.

`IsBoundary` says so by a computation, `checkedSlice` cuts only where both
conditions hold, and `checkedSlice_eq` is the rule by which the modules on
chunks discharge them.

## Main results

* `isBoundary_iff` — the boundaries are the byte lengths of the prefixes.
* `slice_split` — two boundaries in order split the text in three, and the
  slice between them is the part in the middle.
* `slice_append_slice` — adjacent slices join.
* `isBoundary_add_leading` — a boundary moved over the characters with which
  a slice begins is a boundary again, and stays inside the slice.
-/

namespace SourceIndex.Text

/-! ## Byte lengths -/

@[simp] theorem byteLength_nil : byteLength [] = 0 := rfl

@[simp] theorem byteLength_cons (c : Char) (rest : List Char) :
    byteLength (c :: rest) = c.utf8Size + byteLength rest := rfl

@[simp] theorem byteLength_append (front back : List Char) :
    byteLength (front ++ back) = byteLength front + byteLength back := by
  induction front with
  | nil => simp
  | cons c front ih =>
      rw [List.cons_append, byteLength_cons, ih, byteLength_cons]
      omega

@[simp] theorem byteLength_reverse (text : List Char) :
    byteLength text.reverse = byteLength text := by
  induction text with
  | nil => rfl
  | cons c rest ih =>
      rw [List.reverse_cons, byteLength_append, ih, byteLength_cons, byteLength_cons,
        byteLength_nil]
      omega

/-- Cutting at the length of a prefix gives that prefix. -/
@[simp] theorem takeBytes_byteLength_append (front back : List Char) :
    takeBytes (byteLength front) (front ++ back) = front := by
  induction front with
  | nil =>
      cases back with
      | nil => rfl
      | cons c back =>
          have hPos := c.utf8Size_pos
          rw [List.nil_append, byteLength_nil, takeBytes]
          exact if_neg (by omega)
  | cons c front ih =>
      rw [List.cons_append, byteLength_cons, takeBytes, if_pos (by omega),
        Nat.add_sub_cancel_left, ih]

/-- Cutting off the length of a prefix leaves the rest. -/
@[simp] theorem dropBytes_byteLength_append (front back : List Char) :
    dropBytes (byteLength front) (front ++ back) = back := by
  have h := takeBytes_append_dropBytes (byteLength front) (front ++ back)
  rw [takeBytes_byteLength_append] at h
  exact List.append_cancel_left h

/-- Nothing is cut off at the start of a text. -/
@[simp] theorem dropBytes_zero (text : List Char) : dropBytes 0 text = text :=
  dropBytes_byteLength_append [] text

theorem slice_zero (text : List Char) (stop : Nat) : slice text 0 stop = takeBytes stop text := by
  rw [slice, dropBytes_zero, Nat.sub_zero]

theorem allBlank_reverse (text : List Char) : allBlank text.reverse = allBlank text :=
  List.all_reverse

/-! ## Boundaries -/

/-- An offset between two characters of a text, or at one of its ends. -/
def IsBoundary (text : List Char) (offset : Nat) : Prop :=
  byteLength (takeBytes offset text) = offset

instance (text : List Char) (offset : Nat) : Decidable (IsBoundary text offset) :=
  inferInstanceAs (Decidable (byteLength (takeBytes offset text) = offset))

/-- The boundaries of a text are the byte lengths of its prefixes. -/
theorem isBoundary_iff {text : List Char} {offset : Nat} :
    IsBoundary text offset ↔
      ∃ front back, text = front ++ back ∧ byteLength front = offset := by
  constructor
  · intro h
    exact ⟨takeBytes offset text, dropBytes offset text,
      (takeBytes_append_dropBytes offset text).symm, h⟩
  · rintro ⟨front, back, rfl, rfl⟩
    unfold IsBoundary
    rw [takeBytes_byteLength_append]

@[simp] theorem isBoundary_zero (text : List Char) : IsBoundary text 0 :=
  isBoundary_iff.mpr ⟨[], text, rfl, rfl⟩

@[simp] theorem isBoundary_byteLength (text : List Char) :
    IsBoundary text (byteLength text) :=
  isBoundary_iff.mpr ⟨text, [], (List.append_nil text).symm, rfl⟩

theorem IsBoundary.le_byteLength {text : List Char} {offset : Nat}
    (h : IsBoundary text offset) : offset ≤ byteLength text := by
  obtain ⟨front, back, rfl, rfl⟩ := isBoundary_iff.mp h
  rw [byteLength_append]
  exact Nat.le_add_right _ _

theorem IsBoundary.max {text : List Char} {a b : Nat}
    (ha : IsBoundary text a) (hb : IsBoundary text b) : IsBoundary text (max a b) := by
  rcases Nat.le_total a b with h | h
  · rwa [Nat.max_eq_right h]
  · rwa [Nat.max_eq_left h]

/-! ## Slices between boundaries -/

/-- The middle part of a text is the slice between its ends. -/
theorem slice_middle (front middle back : List Char) :
    slice (front ++ middle ++ back) (byteLength front)
      (byteLength front + byteLength middle) = middle := by
  rw [slice, List.append_assoc, dropBytes_byteLength_append,
    Nat.add_sub_cancel_left, takeBytes_byteLength_append]

/-- Of two prefixes of one text the shorter in bytes is a prefix of the other. -/
theorem prefix_split {front back front' back' : List Char}
    (hText : front ++ back = front' ++ back') (hLe : byteLength front ≤ byteLength front') :
    ∃ middle, front' = front ++ middle := by
  rcases List.append_eq_append_iff.mp hText with ⟨middle, h, -⟩ | ⟨middle, h, -⟩
  · exact ⟨middle, h⟩
  · have hEmpty : middle = [] := by
      cases middle with
      | nil => rfl
      | cons c rest =>
          have hPos := c.utf8Size_pos
          rw [h, byteLength_append, byteLength_cons] at hLe
          omega
    exact ⟨[], by rw [h, hEmpty, List.append_nil, List.append_nil]⟩

/--
**Splitting at two boundaries**: boundaries in order split a text in three
parts, and the slice between them is the one in the middle.
-/
theorem slice_split {text : List Char} {start stop : Nat}
    (hStart : IsBoundary text start) (hStop : IsBoundary text stop) (hLe : start ≤ stop) :
    ∃ front back, text = front ++ slice text start stop ++ back ∧
      byteLength front = start ∧
      byteLength front + byteLength (slice text start stop) = stop := by
  obtain ⟨front, rest, hText, rfl⟩ := isBoundary_iff.mp hStart
  obtain ⟨front', back, hText', rfl⟩ := isBoundary_iff.mp hStop
  obtain ⟨middle, rfl⟩ := prefix_split (hText.symm.trans hText') hLe
  have hSlice : slice text (byteLength front) (byteLength (front ++ middle)) = middle := by
    rw [hText', byteLength_append, slice_middle]
  refine ⟨front, back, ?_, rfl, ?_⟩
  · rw [hSlice, hText']
  · rw [hSlice, byteLength_append]

/-- Adjacent slices join. -/
theorem slice_append_slice {text : List Char} {start middle stop : Nat}
    (hStart : IsBoundary text start) (hMiddle : IsBoundary text middle)
    (hStop : IsBoundary text stop) (hLeft : start ≤ middle) (hRight : middle ≤ stop) :
    slice text start middle ++ slice text middle stop = slice text start stop := by
  obtain ⟨front, back, hText, hFront, hLength⟩ := slice_split hMiddle hStop hRight
  obtain ⟨front', back', hText', hFront', hLength'⟩ := slice_split hStart hMiddle hLeft
  generalize slice text middle stop = right at *
  generalize slice text start middle = left at *
  have hPrefix : front = front' ++ left := by
    rw [hText, List.append_assoc] at hText'
    obtain ⟨gap, hGap⟩ := prefix_split hText'.symm
      (by rw [byteLength_append]; omega)
    have hEmpty : byteLength gap = 0 := by
      rw [hGap, byteLength_append, byteLength_append] at hFront
      omega
    cases gap with
    | nil => rw [hGap, List.append_nil]
    | cons c rest =>
        have hPos := c.utf8Size_pos
        rw [byteLength_cons] at hEmpty
        omega
  subst hPrefix
  have h := slice_middle front' (left ++ right) back
  have hEnd : byteLength front' + byteLength (left ++ right) = stop := by
    rw [byteLength_append left right]
    rw [byteLength_append] at hLength
    omega
  rw [hEnd, hFront', ← List.append_assoc front' left right, ← hText] at h
  exact h.symm

theorem slice_self (text : List Char) (offset : Nat) : slice text offset offset = [] := by
  rw [slice, Nat.sub_self]
  exact takeBytes_byteLength_append [] (dropBytes offset text)

@[simp] theorem slice_zero_byteLength (text : List Char) :
    slice text 0 (byteLength text) = text := by
  have h := slice_middle [] text []
  simpa using h

/-- What a slice begins with can be passed over: the offset behind it is a
boundary, no later than the end of the slice. -/
theorem isBoundary_add_leading {text : List Char} {start stop : Nat} (p : Char → Bool)
    (hStart : IsBoundary text start) (hStop : IsBoundary text stop) (hLe : start ≤ stop) :
    IsBoundary text (start + byteLength ((slice text start stop).takeWhile p)) ∧
      start + byteLength ((slice text start stop).takeWhile p) ≤ stop := by
  obtain ⟨front, back, hText, hFront, hLength⟩ := slice_split hStart hStop hLe
  generalize hSlice : slice text start stop = middle at hText hLength ⊢
  have hParts := congrArg byteLength (List.takeWhile_append_dropWhile (p := p) (l := middle))
  rw [byteLength_append] at hParts
  constructor
  · refine isBoundary_iff.mpr
      ⟨front ++ middle.takeWhile p, middle.dropWhile p ++ back, ?_, ?_⟩
    · rw [hText, List.append_assoc, List.append_assoc, ← List.append_assoc (middle.takeWhile p),
        List.takeWhile_append_dropWhile]
    · rw [byteLength_append, hFront]
  · omega

/-! ## Checked cuts -/

/-- A cut that a text does not allow. -/
structure BadCut where
  start : Nat
  stop : Nat
deriving Repr, DecidableEq

/-- The part of a text from `start` to `stop`, provided that these are
boundaries and come in order. -/
def checkedSlice (text : List Char) (start stop : Nat) : Except BadCut (List Char) :=
  if start ≤ stop ∧ IsBoundary text start ∧ IsBoundary text stop then
    pure (slice text start stop)
  else throw ⟨start, stop⟩

theorem checkedSlice_eq {text : List Char} {start stop : Nat}
    (hStart : IsBoundary text start) (hStop : IsBoundary text stop) (hLe : start ≤ stop) :
    checkedSlice text start stop = pure (slice text start stop) :=
  if_pos ⟨hLe, hStart, hStop⟩

end SourceIndex.Text

namespace SourceIndex

/-! ## Spans that fit a source -/

namespace Span

/-- The ends of a span are boundaries of the source, in order. -/
structure Fits (source : List Char) (span : Span) : Prop where
  start : Text.IsBoundary source span.start
  stop : Text.IsBoundary source span.stop
  ordered : span.start ≤ span.stop

/-- A span lies inside another one. -/
structure Within (inner outer : Span) : Prop where
  start : outer.start ≤ inner.start
  stop : inner.stop ≤ outer.stop

instance (source : List Char) (span : Span) : Decidable (span.Fits source) :=
  decidable_of_iff (Text.IsBoundary source span.start ∧ Text.IsBoundary source span.stop ∧
    span.start ≤ span.stop) ⟨fun h => ⟨h.1, h.2.1, h.2.2⟩, fun h => ⟨h.1, h.2, h.3⟩⟩

/-- The text of a span that fits can be cut out. -/
theorem Fits.checkedSlice {source : List Char} {span : Span} (h : span.Fits source) :
    Text.checkedSlice source span.start span.stop = pure (span.text source) :=
  Text.checkedSlice_eq h.start h.stop h.ordered

end Span

end SourceIndex
