import SourceIndex.Proofs.Text.Ink
import SourceIndex.Proofs.Text.Trimming
import SourceIndex.Text.Lines

/-!
# Lines of a text

The lines of a text are the pieces between its feeds.  To number them, the feeds
before an offset are counted; here this is compared with the lines themselves,
which lie in the text one behind the other with a byte between two of them
(`OnLine`).  No offset lies on two lines (`OnLine.unique`), and for those that cut
no character the feeds before them tell the line (`onLine_iff`).

A range is counted up to its last ink.  The feeds behind it are trimmed away with
all other blanks, so those that are left are the feeds before that ink.

To read them, a text is split at its first feed, over and over, and a carriage
return before a feed goes with it.  When the lines are trimmed afterwards this
makes no difference, and the lines are the pieces, but for an empty last one
(`map_trimEnd_lines`).

## Main results

* `onLine_iff` — the feeds before an offset tell its line.
* `trimEnd_slice` — the feeds that are left of a range without its last blanks.
* `map_trimEnd_lines` — the lines of a text, once they are trimmed.
-/

namespace SourceIndex.Text

/-! ## Lines and offsets -/

/-- The lines of a text: the pieces between its feeds. -/
def feedPieces (text : List Char) : List (List Char) := splitWhere (· == '\n') text

/-- The bytes of some lines, each with the feed behind it. -/
def fedLength : List (List Char) → Nat
  | [] => 0
  | line :: rest => byteLength line + 1 + fedLength rest

/-- An offset lies on the line with a number, counted from one: behind the lines
above and their feeds, and no further than the feed that ends the line. -/
def OnLine (text : List Char) (offset number : Nat) : Prop :=
  ∃ above line below, feedPieces text = above ++ line :: below ∧ number = above.length + 1 ∧
    fedLength above ≤ offset ∧ offset ≤ fedLength above + byteLength line

variable {text : List Char} {start stop offset number other : Nat}

theorem fedLength_append (above below : List (List Char)) :
    fedLength (above ++ below) = fedLength above + fedLength below := by
  induction above with
  | nil => simp [fedLength]
  | cons line rest ih =>
      simp only [List.cons_append, fedLength, ih]
      omega

/-- An offset does not lie on a line before another one on which it lies. -/
private theorem not_below {above below above' below' : List (List Char)} {line line' : List Char}
    (h : above ++ line :: below = above' ++ line' :: below')
    (hOffset : offset ≤ fedLength above + byteLength line) (hOther : fedLength above' ≤ offset) :
    above'.length ≤ above.length := by
  rcases List.append_eq_append_iff.mp h with ⟨between, rfl, hRest⟩ | ⟨between, rfl, _⟩
  · cases between with
    | nil => simp
    | cons first between =>
        obtain ⟨rfl, _⟩ := List.cons.inj hRest
        rw [fedLength_append, fedLength] at hOther
        omega
  · simp

/-- **No offset lies on two lines.** -/
theorem OnLine.unique (h : OnLine text offset number) (hOther : OnLine text offset other) :
    number = other := by
  obtain ⟨above, line, below, hLines, rfl, hFrom, hTo⟩ := h
  obtain ⟨above', line', below', hLines', rfl, hFrom', hTo'⟩ := hOther
  rw [hLines] at hLines'
  have hFirst := not_below hLines' hTo hFrom'
  have hSecond := not_below hLines'.symm hTo' hFrom
  omega

/-- A text that goes on: its end lies on the line behind all of its feeds. -/
theorem onLine_append (front back : List Char) :
    OnLine (front ++ back) (byteLength front) (lineFeeds front + 1) := by
  induction front with
  | nil =>
      obtain ⟨line, below, hLines⟩ := exists_splitWhere_eq_cons (· == '\n') back
      exact ⟨[], line, below, hLines, rfl, Nat.le_refl _, Nat.zero_le _⟩
  | cons c front ih =>
      obtain ⟨above, line, below, hLines, hNumber, hFrom, hTo⟩ := ih
      rw [feedPieces] at hLines
      by_cases hFeed : c = '\n'
      · subst hFeed
        have hSize : '\n'.utf8Size = 1 := by decide
        refine ⟨[] :: above, line, below, ?_, ?_, ?_, ?_⟩
        · rw [feedPieces, List.cons_append, splitWhere_cons_of_pos (by decide), hLines,
            List.cons_append]
        · rw [lineFeeds, List.count_cons_self, List.length_cons]
          exact congrArg (· + 1) hNumber
        · simp only [fedLength, byteLength_nil, byteLength_cons, hSize]
          omega
        · simp only [fedLength, byteLength_nil, byteLength_cons, hSize]
          omega
      · -- The character stands on the first line, above or at the end of the text.
        have hNot : ¬ (c == '\n') = true := by simpa using hFeed
        have hCount : lineFeeds (c :: front) = lineFeeds front := List.count_cons_of_ne hFeed
        rw [hCount]
        cases above with
        | nil =>
            rw [List.nil_append] at hLines
            have hFirst := splitWhere_cons_of_neg (p := (· == '\n')) hNot hLines
            refine ⟨[], c :: line, below, hFirst, hNumber, Nat.zero_le _, ?_⟩
            simp only [fedLength, byteLength_cons] at hTo ⊢
            omega
        | cons first above =>
            rw [List.cons_append] at hLines
            have hFirst := splitWhere_cons_of_neg (p := (· == '\n')) hNot hLines
            refine ⟨(c :: first) :: above, line, below, hFirst, hNumber, ?_, ?_⟩
            · simp only [fedLength, byteLength_cons] at hFrom ⊢
              omega
            · simp only [fedLength, byteLength_cons] at hTo ⊢
              omega

/-- **The feeds before an offset tell its line.** -/
theorem onLine_iff (h : IsBoundary text offset) :
    OnLine text offset number ↔ number = lineFeeds (takeBytes offset text) + 1 := by
  obtain ⟨front, back, rfl, rfl⟩ := isBoundary_iff.mp h
  rw [takeBytes_byteLength_append]
  constructor
  · exact fun hLine => hLine.unique (onLine_append front back)
  · rintro rfl
    exact onLine_append front back

/-! ## Feeds before offsets -/

theorem lineFeeds_append (front back : List Char) :
    lineFeeds (front ++ back) = lineFeeds front + lineFeeds back :=
  List.count_append

/-- A cut out part has the feeds between its ends. -/
theorem lineFeeds_slice (hStart : IsBoundary text start) (hStop : IsBoundary text stop)
    (hLe : start ≤ stop) :
    lineFeeds (takeBytes start text) + lineFeeds (slice text start stop) =
      lineFeeds (takeBytes stop text) := by
  rw [← slice_zero, ← slice_zero, ← lineFeeds_append,
    slice_append_slice (isBoundary_zero text) hStart hStop (Nat.zero_le start) hLe]

theorem lineFeeds_takeBytes_le (text : List Char) (offset : Nat) :
    lineFeeds (takeBytes offset text) ≤ lineFeeds text := by
  have hWhole := lineFeeds_append (takeBytes offset text) (dropBytes offset text)
  rw [takeBytes_append_dropBytes] at hWhole
  omega

/-! ## The last ink of a range -/

/-- The last ink from one offset up to another one. -/
structure LastInk (text : List Char) (start stop offset : Nat) : Prop where
  le : start ≤ offset
  lt : offset < stop
  ink : InkAt text offset
  blank : Inkless text (offset + 1) stop

/-- What blanks follow is the last ink before they end. -/
theorem lastInk_append {front back after : List Char} {c : Char} (hInk : isBlank c = false)
    (hAfter : ∀ d ∈ after, isBlank d = true) (hLe : start ≤ byteLength front) :
    LastInk (front ++ c :: (after ++ back)) start (byteLength (front ++ c :: after))
      (byteLength front) := by
  have hPos := c.utf8Size_pos
  refine ⟨hLe, ?_, ⟨front, c, after ++ back, rfl, rfl, hInk⟩, ?_⟩
  · rw [byteLength_append, byteLength_cons]
    omega
  · rintro later hFrom hTo ⟨before, d, rest, hText, rfl, hLater⟩
    -- A later ink stands behind `c`, and before the end of `after`.
    obtain ⟨skipped, rfl⟩ := prefix_split hText (by omega)
    rw [List.append_assoc, List.append_cancel_left_eq] at hText
    cases skipped with
    | nil =>
        rw [List.append_nil] at hFrom
        omega
    | cons first skipped =>
        rw [List.cons_append] at hText
        obtain ⟨rfl, hRest⟩ := List.cons.inj hText
        simp only [byteLength_append, byteLength_cons] at hTo
        have hShorter : byteLength skipped ≤ byteLength after := by omega
        obtain ⟨more, rfl⟩ := prefix_split hRest.symm hShorter
        rw [List.append_assoc, List.append_cancel_left_eq] at hRest
        cases more with
        | nil =>
            rw [List.append_nil] at hTo
            omega
        | cons e more =>
            obtain ⟨rfl, _⟩ := List.cons.inj hRest
            rw [hAfter e (List.mem_append_right skipped List.mem_cons_self)] at hLater
            cases hLater

/-- What is left of a text without its last blanks: nothing, or all up to its
last ink. -/
theorem trimEnd_cases (text : List Char) :
    allBlank text = true ∧ trimEnd text = [] ∨
      ∃ kept c after, text = kept ++ c :: after ∧ trimEnd text = kept ++ [c] ∧
        isBlank c = false ∧ ∀ d ∈ after, isBlank d = true := by
  obtain ⟨⟨after, hText, hAfter⟩, hEnd⟩ := bares_trimEnd text
  rcases List.eq_nil_or_concat (trimEnd text) with hNone | ⟨kept, c, hKept⟩
  · rw [hNone, List.nil_append] at hText
    refine .inl ⟨?_, hNone⟩
    rw [hText, allBlank, List.all_eq_true]
    exact hAfter
  · rw [List.concat_eq_append] at hKept
    refine .inr ⟨kept, c, after, ?_, hKept, ?_, hAfter⟩
    · rw [hKept, List.append_assoc, List.singleton_append] at hText
      exact hText
    · refine hEnd c ?_
      rw [hKept]
      simp

/-- **The feeds that are left of a range without its last blanks**: none where it
has no ink, else those before its last ink. -/
theorem trimEnd_slice (hStart : IsBoundary text start) (hStop : IsBoundary text stop)
    (hLe : start ≤ stop) :
    Inkless text start stop ∧ lineFeeds (trimEnd (slice text start stop)) = 0 ∨
      ∃ offset, LastInk text start stop offset ∧
        lineFeeds (takeBytes start text) + lineFeeds (trimEnd (slice text start stop)) =
          lineFeeds (takeBytes offset text) := by
  rcases trimEnd_cases (slice text start stop) with
    ⟨hBlank, hNone⟩ | ⟨kept, c, after, hInside, hKept, hInk, hAfter⟩
  · refine .inl ⟨(allBlank_slice_iff hStart hStop hLe).mp hBlank, ?_⟩
    rw [hNone]
    rfl
  · obtain ⟨front, back, hText, hFront, hLength⟩ := slice_split hStart hStop hLe
    rw [hInside] at hText hLength
    have hParts : text = (front ++ kept) ++ c :: (after ++ back) := by simp [hText]
    have hStops : byteLength ((front ++ kept) ++ c :: after) = stop := by
      rw [← hLength, List.append_assoc, byteLength_append]
    refine .inr ⟨byteLength (front ++ kept), ?_, ?_⟩
    · have hFrom : start ≤ byteLength (front ++ kept) := by
        rw [byteLength_append]
        omega
      have hLast : LastInk ((front ++ kept) ++ c :: (after ++ back)) start
          (byteLength ((front ++ kept) ++ c :: after)) (byteLength (front ++ kept)) :=
        lastInk_append hInk hAfter hFrom
      rwa [hStops, ← hParts] at hLast
    · -- The last ink is no feed.
      have hFeed : c ≠ '\n' := by
        rintro rfl
        exact absurd hInk (by decide)
      have hCount : lineFeeds [c] = 0 := by simp [lineFeeds, hFeed]
      have hBefore : takeBytes start text = front := by
        rw [← hFront, hParts, List.append_assoc, takeBytes_byteLength_append]
      rw [hKept, hBefore, lineFeeds_append, hCount, Nat.add_zero, ← lineFeeds_append, hParts,
        takeBytes_byteLength_append]

/-! ## Lines one by one -/

/-- The lines of a text, of which the last does not count when it is empty. -/
def rows (text : List Char) : List (List Char) :=
  if (feedPieces text).getLast? = some [] then (feedPieces text).dropLast else feedPieces text

/-- No character of a line cuts it. -/
private theorem beq_feed_of_not_mem {line : List Char} (h : '\n' ∉ line) :
    ∀ c ∈ line, (c == '\n') = false := by
  intro c hc
  rw [beq_eq_false_iff_ne]
  rintro rfl
  exact h hc

theorem feedPieces_append {line : List Char} (h : '\n' ∉ line) (after : List Char) :
    feedPieces (line ++ '\n' :: after) = line :: feedPieces after := by
  rw [feedPieces, splitWhere_append (p := (· == '\n')) (by decide),
    splitWhere_of_forall (beq_feed_of_not_mem h), List.singleton_append]
  rfl

/-- A text without a feed is one line, unless it is empty. -/
theorem rows_of_not_mem (h : '\n' ∉ text) (hSome : text ≠ []) : rows text = [text] := by
  have hPieces : feedPieces text = [text] := splitWhere_of_forall (beq_feed_of_not_mem h)
  rw [rows, hPieces]
  simp [hSome]

/-- A line with its feed, in front of all others. -/
theorem rows_append {line : List Char} (h : '\n' ∉ line) (after : List Char) :
    rows (line ++ '\n' :: after) = line :: rows after := by
  have hSome : feedPieces after ≠ [] := splitWhere_ne_nil _ after
  rw [rows, rows, feedPieces_append h, List.getLast?_cons_of_ne_nil hSome,
    List.dropLast_cons_of_ne_nil hSome]
  split <;> rfl

/-- Where a text is split: at its first feed, which takes a carriage return before
it along. -/
theorem splitLine_cases (text : List Char) :
    '\n' ∉ text ∧ splitLine text = (text, []) ∨
      ∃ line after, text = line ++ '\n' :: after ∧ '\n' ∉ line ∧ (splitLine text).2 = after ∧
        ((splitLine text).1 = line ∨ line = (splitLine text).1 ++ ['\r']) := by
  fun_induction splitLine text with
  | case1 => exact .inl ⟨List.not_mem_nil, rfl⟩
  | case2 rest => exact .inr ⟨[], rest, rfl, List.not_mem_nil, rfl, .inl rfl⟩
  | case3 rest => exact .inr ⟨['\r'], rest, rfl, by decide, rfl, .inr rfl⟩
  | case4 c rest hFeed _ line after hRest ih =>
      rw [hRest] at ih
      have hNot : '\n' ≠ c := fun hSame => hFeed hSame.symm
      rcases ih with ⟨hNone, hWhole⟩ | ⟨own, more, rfl, hOwn, rfl, hLine⟩
      · obtain ⟨rfl, rfl⟩ := Prod.mk.inj hWhole
        exact .inl ⟨List.not_mem_cons_of_ne_of_not_mem hNot hNone, rfl⟩
      · refine .inr ⟨c :: own, _, rfl, List.not_mem_cons_of_ne_of_not_mem hNot hOwn, rfl, ?_⟩
        rcases hLine with rfl | rfl
        · exact .inl rfl
        · exact .inr rfl

/-- A carriage return is trimmed away. -/
theorem trimEnd_return (line : List Char) : trimEnd (line ++ ['\r']) = trimEnd line :=
  trimEndWhere_append_of_pos line (List.forall_mem_singleton.mpr (by decide))

/-- **The lines of a text, once they are trimmed**, are the pieces between its feeds. -/
theorem map_trimEnd_lines (text : List Char) :
    (lines text).map trimEnd = (rows text).map trimEnd := by
  fun_induction lines text with
  | case1 => rfl
  | case2 c rest ih =>
      rcases splitLine_cases (c :: rest) with
        ⟨hNone, hWhole⟩ | ⟨line, after, hText, hLine, rfl, hOwn⟩
      · rw [hWhole, rows_of_not_mem hNone (List.cons_ne_nil c rest), lines]
      · have hSame : trimEnd (splitLine (c :: rest)).1 = trimEnd line := by
          rcases hOwn with hSame | hReturn
          · rw [hSame]
          · rw [hReturn, trimEnd_return]
        have hRows : rows (c :: rest) = line :: rows (splitLine (c :: rest)).2 := by
          rw [← rows_append hLine, ← hText]
        rw [hRows, List.map_cons, List.map_cons, ih, hSame]

end SourceIndex.Text
