import Mathlib.Algebra.GroupWithZero.Nat
import SourceIndex.Proofs.Embedding.Plan

/-!
# No division of texts has fewer batches

`Batches.Division` says which divisions of some texts into consecutive batches
respect the limits.  It does not say how a division is found, and most texts
have many of them; a batch without texts would respect the limits too.

The plan closes a batch only when one more text would not be allowed in it.
What makes this the best choice is that a part of an allowed batch is allowed
(`Allowed.part`): a batch of another division that starts no later than the
open one cannot stop later than it is closed.  So the plan never falls behind
another division, and it is done no later.

## Main results

* `Open.not_allowed` — a batch is closed only when it is full.
* `planFrom_allowed` — each planned batch respects the limits.
* `planFrom_length_le` — from the open batch on, no division has fewer batches.
* `plan_fewest` — the plan is a division, and none has fewer batches.
-/

namespace SourceIndex.Embedding

/-- The characters of the texts of a batch. -/
def Range.chars (range : Range) (texts : List String) : Nat :=
  ((range.pick texts).map String.length).sum

namespace Batches

/-- A batch respects the limits: it has no more texts than allowed, and no more
characters unless it is a single text. -/
structure Allowed (texts : List String) (maxSize maxChars : Nat) (range : Range) : Prop where
  size : range.stop - range.start ≤ max 1 maxSize
  chars : range.chars texts ≤ maxChars ∨ range.stop - range.start = 1

/-- A division of texts into consecutive batches that respect the limits. -/
structure Division (texts : List String) (maxSize maxChars : Nat) (ranges : List Range) :
    Prop where
  tiles : Span.Tiles 0 texts.length ranges
  allowed : ∀ range ∈ ranges, Allowed texts maxSize maxChars range

/-! ## Characters up to a text -/

/-- The characters of the first texts. -/
def charsBefore (texts : List String) (count : Nat) : Nat :=
  ((texts.take count).map String.length).sum

section Characters

variable {texts : List String} {maxSize maxChars start stop : Nat}

theorem charsBefore_add_chars (texts : List String) (h : start ≤ stop) :
    charsBefore texts start + Range.chars ⟨start, stop⟩ texts = charsBefore texts stop := by
  have hSplit : texts.take (start + (stop - start)) =
      texts.take start ++ (texts.drop start).take (stop - start) := List.take_add
  rw [Nat.add_sub_cancel' h] at hSplit
  simp [charsBefore, Range.chars, Range.pick, hSplit]

theorem charsBefore_mono (texts : List String) (h : start ≤ stop) :
    charsBefore texts start ≤ charsBefore texts stop := by
  have hChars := charsBefore_add_chars texts h
  omega

theorem charsBefore_succ {text : String} {rest : List String} {next : Nat}
    (h : texts.drop next = text :: rest) :
    charsBefore texts (next + 1) = charsBefore texts next + text.length := by
  have hText : Range.chars ⟨next, next + 1⟩ texts = text.length := by
    simp [Range.chars, Range.pick, h]
  rw [← charsBefore_add_chars texts (Nat.le_succ next), hText]

/-- A batch without texts is allowed. -/
theorem allowed_empty (texts : List String) (maxSize maxChars start : Nat) :
    Allowed texts maxSize maxChars ⟨start, start⟩ := by
  refine ⟨by simp, .inl ?_⟩
  simp [Range.chars, Range.pick]

/-- So is a batch of one text, however long it is. -/
theorem allowed_single (texts : List String) (maxSize maxChars start : Nat) :
    Allowed texts maxSize maxChars ⟨start, start + 1⟩ := by
  refine ⟨?_, .inr ?_⟩
  · show start + 1 - start ≤ max 1 maxSize
    omega
  · show start + 1 - start = 1
    omega

/-- **A part of an allowed batch is allowed.** -/
theorem Allowed.part {first last : Nat} (h : Allowed texts maxSize maxChars ⟨start, stop⟩)
    (hStart : start ≤ first) (hFirst : first ≤ last) (hStop : last ≤ stop) :
    Allowed texts maxSize maxChars ⟨first, last⟩ := by
  have hSize : stop - start ≤ max 1 maxSize := h.size
  have hChars := charsBefore_add_chars texts (show start ≤ stop by omega)
  have hPart := charsBefore_add_chars texts hFirst
  have hBelow := charsBefore_mono texts hStart
  have hAbove := charsBefore_mono texts hStop
  constructor
  · show last - first ≤ max 1 maxSize
    omega
  · show Range.chars ⟨first, last⟩ texts ≤ maxChars ∨ last - first = 1
    rcases h.chars with hFew | hSingle
    · left
      omega
    · replace hSingle : stop - start = 1 := hSingle
      by_cases hEmpty : first = last
      · rw [hEmpty]
        exact (allowed_empty texts maxSize maxChars last).chars
      · right
        omega

end Characters

/-! ## The open batch -/

/-- The batch that is open before the next text: how many characters it has,
and that it may be closed. -/
structure Open (texts : List String) (maxSize maxChars next start chars : Nat) : Prop where
  start_le : start ≤ next
  counted : Range.chars ⟨start, next⟩ texts = chars
  allowed : Allowed texts maxSize maxChars ⟨start, next⟩

section Loop

variable {texts rest : List String} {text : String} {maxSize maxChars next start chars : Nat}

/-- The open batch with the next text. -/
theorem Open.chars_succ (h : Open texts maxSize maxChars next start chars)
    (hText : texts.drop next = text :: rest) :
    Range.chars ⟨start, next + 1⟩ texts = chars + text.length := by
  have hNow := charsBefore_add_chars texts h.start_le
  have hThen := charsBefore_add_chars texts (show start ≤ next + 1 by have := h.start_le; omega)
  rw [h.counted] at hNow
  rw [charsBefore_succ hText] at hThen
  omega

/-- A batch that is not full takes the next text. -/
theorem Open.add (h : Open texts maxSize maxChars next start chars)
    (hText : texts.drop next = text :: rest)
    (hRoom : ¬ (next - start = max maxSize 1 ∨ start < next ∧ maxChars < chars + text.length)) :
    Open texts maxSize maxChars (next + 1) start (chars + text.length) := by
  have hStart := h.start_le
  have hSize : next - start ≤ max 1 maxSize := h.allowed.size
  refine ⟨by omega, h.chars_succ hText, ?_, ?_⟩
  · show next + 1 - start ≤ max 1 maxSize
    omega
  · rw [h.chars_succ hText]
    show chars + text.length ≤ maxChars ∨ next + 1 - start = 1
    omega

/-- After a batch is closed, the next text opens another one. -/
theorem Open.single (maxSize maxChars : Nat) (hText : texts.drop next = text :: rest) :
    Open texts maxSize maxChars (next + 1) next text.length := by
  refine ⟨Nat.le_succ next, ?_, allowed_single texts maxSize maxChars next⟩
  simp [Range.chars, Range.pick, hText]

/-- **A batch is closed only when it is full**: with the next text it would not
be allowed. -/
theorem Open.not_allowed (h : Open texts maxSize maxChars next start chars)
    (hText : texts.drop next = text :: rest)
    (hFull : next - start = max maxSize 1 ∨ start < next ∧ maxChars < chars + text.length) :
    ¬ Allowed texts maxSize maxChars ⟨start, next + 1⟩ := by
  intro hAllowed
  have hStart := h.start_le
  have hSize : next + 1 - start ≤ max 1 maxSize := hAllowed.size
  have hChars := hAllowed.chars
  rw [h.chars_succ hText] at hChars
  replace hChars : chars + text.length ≤ maxChars ∨ next + 1 - start = 1 := hChars
  omega

end Loop

/-! ## The plan -/

section Plan

variable {texts : List String} {maxSize maxChars : Nat}

theorem planFrom_cons (length : Nat) (rest : List Nat) (next start chars : Nat) :
    planFrom (max maxSize 1) maxChars (length :: rest) next start chars =
      if next - start = max maxSize 1 ∨ start < next ∧ maxChars < chars + length then
        ⟨start, next⟩ :: planFrom (max maxSize 1) maxChars rest (next + 1) next length
      else planFrom (max maxSize 1) maxChars rest (next + 1) start (chars + length) := by
  simp [planFrom]

/-- **Each planned batch respects the limits.** -/
theorem planFrom_allowed (rest : List String) :
    ∀ {next start chars : Nat}, texts.drop next = rest →
      Open texts maxSize maxChars next start chars →
      ∀ range ∈ planFrom (max maxSize 1) maxChars (rest.map String.length) next start chars,
        Allowed texts maxSize maxChars range := by
  induction rest with
  | nil =>
      intro next start chars _ hOpen range hRange
      rw [List.map_nil, planFrom] at hRange
      split at hRange
      · rw [List.mem_singleton.mp hRange]
        exact hOpen.allowed
      · cases hRange
  | cons text rest ih =>
      intro next start chars hText hOpen range hRange
      have hRest : texts.drop (next + 1) = rest := by
        rw [← List.tail_drop, hText, List.tail_cons]
      rw [List.map_cons, planFrom_cons] at hRange
      split at hRange
      · rcases List.mem_cons.mp hRange with rfl | hLater
        · exact hOpen.allowed
        · exact ih hRest (.single maxSize maxChars hText) range hLater
      · next hRoom => exact ih hRest (hOpen.add hText hRoom) range hRange

/-- A tiling that has not come to its end has another tile. -/
theorem exists_first {ranges : List Range} {start stop : Nat}
    (h : Span.Tiles start stop ranges) (hLeft : start < stop) :
    ∃ last rest, ranges = ⟨start, last⟩ :: rest ∧ start ≤ last ∧ Span.Tiles last stop rest := by
  cases ranges with
  | nil =>
      have hEnd : start = stop := h
      omega
  | cons range rest =>
      obtain ⟨rfl, hSize, hRest⟩ := h
      exact ⟨range.stop, rest, rfl, hSize, hRest⟩

/--
**From the open batch on, no division has fewer batches.**  The other division
may start before the open batch: it has more texts left then.
-/
theorem planFrom_length_le (rest : List String) :
    ∀ {next start chars begin : Nat} {others : List Range}, texts.drop next = rest →
      next + rest.length = texts.length → Open texts maxSize maxChars next start chars →
      begin ≤ start → Span.Tiles begin texts.length others →
      (∀ range ∈ others, Allowed texts maxSize maxChars range) →
      (planFrom (max maxSize 1) maxChars (rest.map String.length) next start chars).length ≤
        others.length := by
  induction rest with
  | nil =>
      intro next start chars begin others _ hEnd _ hBegin hTiles _
      rw [List.map_nil, planFrom]
      rw [List.length_nil, Nat.add_zero] at hEnd
      split
      · next hLeft =>
          obtain ⟨last, later, rfl, -, -⟩ := exists_first hTiles (by omega)
          simp
      · exact Nat.zero_le _
  | cons text rest ih =>
      intro next start chars begin others hText hEnd hOpen hBegin hTiles hAllowed
      rw [List.length_cons] at hEnd
      have hRest : texts.drop (next + 1) = rest := by
        rw [← List.tail_drop, hText, List.tail_cons]
      rw [List.map_cons, planFrom_cons]
      split
      · next hFull =>
          have hStart := hOpen.start_le
          obtain ⟨last, later, rfl, hLast, hLater⟩ := exists_first hTiles (by omega)
          -- The other batch cannot hold the text that does not fit into the open one.
          have hBehind : last ≤ next := by
            refine Nat.le_of_not_lt fun hAhead => ?_
            have hFirst := hAllowed ⟨begin, last⟩ List.mem_cons_self
            exact hOpen.not_allowed hText hFull (hFirst.part hBegin (by omega) (by omega))
          have hFewer := ih hRest (by omega) (.single maxSize maxChars hText) hBehind hLater
            fun range hRange => hAllowed range (List.mem_cons_of_mem _ hRange)
          rw [List.length_cons, List.length_cons]
          omega
      · next hRoom => exact ih hRest (by omega) (hOpen.add hText hRoom) hBegin hTiles hAllowed

/-- A text that is longer than a batch may be is alone in its batch. -/
theorem Allowed.alone {range : Range} {text : String}
    (h : Allowed texts maxSize maxChars range) (hRange : range.stop ≤ texts.length)
    (hText : text ∈ range.pick texts) (hLong : maxChars < text.length) :
    range.pick texts = [text] := by
  have hMany : ¬ range.chars texts ≤ maxChars := by
    obtain ⟨before, after, hPick⟩ := List.append_of_mem hText
    simp only [Range.chars, hPick, List.map_append, List.map_cons, List.sum_append, List.sum_cons]
    omega
  have hSingle : (range.pick texts).length = 1 :=
    (Range.length_pick hRange).trans (h.chars.resolve_left hMany)
  obtain ⟨other, hOther⟩ := List.length_eq_one_iff.mp hSingle
  rw [hOther, List.mem_singleton] at hText
  rw [hOther, hText]

end Plan

/--
**The plan is a division into the fewest batches.**  Its batches are not empty
and respect the limits, a text that is longer than a batch may be is alone, and
every other division that respects the limits has at least as many batches.
-/
theorem plan_fewest (texts : List String) (maxSize maxChars : Nat) :
    Division texts maxSize maxChars (plan (texts.map String.length) maxSize maxChars) ∧
      (∀ range ∈ plan (texts.map String.length) maxSize maxChars,
        range.start < range.stop ∧ ∀ text ∈ range.pick texts, maxChars < text.length →
          range.pick texts = [text]) ∧
      ∀ others, Division texts maxSize maxChars others →
        (plan (texts.map String.length) maxSize maxChars).length ≤ others.length := by
  have hOpen : Open texts maxSize maxChars 0 0 0 :=
    ⟨Nat.le_refl 0, by simp [Range.chars, Range.pick], allowed_empty texts maxSize maxChars 0⟩
  have hTiles := plan_tiles (texts.map String.length) maxSize maxChars
  rw [List.length_map] at hTiles
  have hAllowed := planFrom_allowed texts List.drop_zero hOpen
  refine ⟨⟨hTiles, hAllowed⟩, ?_, ?_⟩
  · intro range hRange
    refine ⟨plan_nonempty _ maxSize maxChars range hRange, ?_⟩
    intro text hText hLong
    exact (hAllowed range hRange).alone (hTiles.stop_le hRange) hText hLong
  · intro others hOthers
    exact planFrom_length_le texts List.drop_zero (Nat.zero_add _) hOpen (Nat.le_refl 0)
      hOthers.tiles hOthers.allowed

/-- A text that is too long stands alone, also beside texts without characters. -/
example : plan [4, 4, 0, 9, 0] 0 8 = [⟨0, 1⟩, ⟨1, 2⟩, ⟨2, 3⟩, ⟨3, 4⟩, ⟨4, 5⟩] ∧
    plan [4, 4, 0, 9, 0] 5 8 = [⟨0, 3⟩, ⟨3, 4⟩, ⟨4, 5⟩] := by decide

end Batches

end SourceIndex.Embedding
