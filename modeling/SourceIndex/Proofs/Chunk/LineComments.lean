import Mathlib.Algebra.GroupWithZero.Nat
import Mathlib.Algebra.Order.BigOperators.Group.List
import Mathlib.Algebra.Order.Group.Nat
import SourceIndex.Chunk.Docstring
import SourceIndex.Proofs.Text.Trimming

/-!
# What docstrings keep of line comments

The lines of all comments are cleaned by one rule, which cuts off the mark that
closes a block comment before it looks for an opening mark.  A line comment has
no closing mark, so whatever ends like one is part of what the comment says,
and is lost.  Nothing else is: what the contents begin with is never taken for
a marker, because the first marker that fits is the comment's own, and a space
stands behind it.

## Main results

* `Docstring.cleanLine_text` — what is left of a line comment.
* `Docstring.ofComments_keeps` — when all of the contents is kept.
-/

namespace SourceIndex

namespace Text

/-! ## Texts on one line -/

variable {text : List Char}

theorem splitLine_of_not_mem (h : '\n' ∉ text) : splitLine text = (text, []) := by
  fun_induction splitLine text with
  | case1 => rfl
  | case2 rest => exact absurd List.mem_cons_self h
  | case3 rest => exact absurd (List.mem_cons_of_mem _ List.mem_cons_self) h
  | case4 c rest _ _ line after hRest ih =>
      rw [List.mem_cons, not_or] at h
      rw [ih h.2] at hRest
      obtain ⟨rfl, rfl⟩ := Prod.mk.inj hRest
      rfl

/-- A text without a line feed is one line. -/
theorem lines_of_not_mem (h : '\n' ∉ text) (hText : text ≠ []) : lines text = [text] := by
  obtain ⟨c, rest, rfl⟩ := List.exists_cons_of_ne_nil hText
  rw [lines, splitLine_of_not_mem h, lines]

/-! ## Texts between blanks -/

/-- A text that is not empty and neither begins nor ends with a blank. -/
structure Edged (text : List Char) : Prop where
  filled : text ≠ []
  first : ∀ c ∈ text.head?, isBlank c = false
  last : ∀ c ∈ text.getLast?, isBlank c = false

instance (text : List Char) : Decidable (Edged text) :=
  decidable_of_iff (text ≠ [] ∧ text.head?.any isBlank = false ∧
      text.getLast?.any isBlank = false) <| by
    rw [Option.any_eq_false, Option.any_eq_false]
    exact ⟨fun h => ⟨h.1, h.2.1, h.2.2⟩, fun h => ⟨h.filled, h.first, h.last⟩⟩

theorem Edged.trim_eq (h : Edged text) : trim text = text :=
  trims_iff.mp ⟨⟨[], [], by simp, by simp, by simp⟩, h.first, h.last⟩

/-- Only the ends of a text count. -/
theorem Edged.append {before after : List Char} (hBefore : Edged before) (middle : List Char)
    (hAfter : Edged after) : Edged (before ++ middle ++ after) := by
  refine ⟨by simp [hBefore.filled], ?_, ?_⟩
  · rw [List.append_assoc, List.head?_append_of_ne_nil _ hBefore.filled]
    exact hBefore.first
  · rw [List.getLast?_append_of_ne_nil _ hAfter.filled]
    exact hAfter.last

/-- So the lines of a text need no trimming when they are joined. -/
theorem Edged.joined {lines : List (List Char)} (hLines : lines ≠ [])
    (h : ∀ line ∈ lines, Edged line) : Edged (['\n'].intercalate lines) := by
  induction lines with
  | nil => exact absurd rfl hLines
  | cons line rest ih =>
      have hLine := h line List.mem_cons_self
      cases rest with
      | nil => simpa using hLine
      | cons next rest =>
          rw [List.intercalate_cons_cons]
          exact hLine.append _ (ih (by simp) fun other hOther =>
            h other (List.mem_cons_of_mem line hOther))

theorem length_trim_le (text : List Char) : (trim text).length ≤ text.length := by
  obtain ⟨before, after, hText, _, _⟩ := (trims_iff.mpr (rfl : trim text = trim text)).parts
  have hLength := congrArg List.length hText
  rw [List.length_append, List.length_append] at hLength
  omega

/-- A feed stands between two lines. -/
theorem length_joined (lines : List (List Char)) (hLines : lines ≠ []) :
    (['\n'].intercalate lines).length + 1 = (lines.map (·.length + 1)).sum := by
  induction lines with
  | nil => exact absurd rfl hLines
  | cons line rest ih =>
      cases rest with
      | nil => simp
      | cons next rest =>
          have hRest := ih (by simp)
          rw [List.intercalate_cons_cons, List.map_cons, List.sum_cons, ← hRest]
          simp only [List.length_append, List.length_cons, List.length_nil]
          omega

end Text

namespace Docstring

open Text (Edged)

/-! ## Line comments -/

/-- What line comments begin with. -/
def lineMarkers : List (List Char) := ["//", "///", "//!", "#"].map (·.toList)

/-- A comment on one line: its marker, and what it says behind one space. -/
structure LineComment where
  marker : List Char
  content : List Char
  marked : marker ∈ lineMarkers
  edged : Edged content
  unbroken : '\n' ∉ content

/-- The mark that closes a block comment. -/
def closing : List Char := ['*', '/']

/-- A text without a closing mark at its end. -/
def unclosed (text : List Char) : List Char := (Text.dropTrailing? closing text).getD text

theorem unclosed_append (text : List Char) : unclosed (text ++ closing) = text := by
  have hSuffix : closing.isSuffixOf (text ++ closing) = true :=
    List.isSuffixOf_iff_suffix.mpr (List.suffix_append text closing)
  rw [unclosed, Text.dropTrailing?, if_pos hSuffix, List.length_append, Nat.add_sub_cancel,
    List.take_left, Option.getD_some]

theorem unclosed_of_not_suffix {text : List Char} (h : ¬ closing <:+ text) :
    unclosed text = text := by
  rw [unclosed, Text.dropTrailing?, if_neg (by simpa [List.isSuffixOf_iff_suffix] using h),
    Option.getD_none]

namespace LineComment

/-- The text of a line comment. -/
def text (comment : LineComment) : List Char := comment.marker ++ ' ' :: comment.content

variable (comment : LineComment)

theorem text_unbroken : '\n' ∉ comment.text := by
  have hMarker : ∀ marker ∈ lineMarkers, '\n' ∉ marker := by decide
  simp [text, hMarker comment.marker comment.marked, comment.unbroken]

theorem text_edged : Edged comment.text := by
  have hMarkers : ∀ marker ∈ lineMarkers, Edged marker := by decide
  have hMarker := hMarkers comment.marker comment.marked
  have hSplit : comment.text = comment.marker ++ [' '] ++ comment.content := by simp [text]
  refine ⟨by simp [text], ?_, ?_⟩
  · rw [text, List.head?_append_of_ne_nil _ hMarker.filled]
    exact hMarker.first
  · rw [hSplit, List.getLast?_append_of_ne_nil _ comment.edged.filled]
    exact comment.edged.last

/-- A line comment ends with a closing mark where its content does: the space
is no part of the mark. -/
theorem closing_suffix_iff : closing <:+ comment.text ↔ closing <:+ comment.content := by
  have hContent : ' ' :: comment.content <:+ comment.text := List.suffix_append _ _
  constructor
  · intro hClosing
    rcases List.suffix_or_suffix_of_suffix hClosing hContent with hInside | hOutside
    · rcases List.suffix_cons_iff.mp hInside with hSame | hSuffix
      · cases hSame
      · exact hSuffix
    · have hLength := hOutside.length_le
      have hPositive := List.length_pos_iff.mpr comment.edged.filled
      have hSame : ' ' :: comment.content = closing :=
        hOutside.eq_of_length_le (by
          simp only [closing, List.length_cons, List.length_nil] at hLength ⊢
          omega)
      cases hSame
  · intro hClosing
    exact hClosing.trans ((List.suffix_cons _ _).trans hContent)

theorem unclosed_text :
    unclosed comment.text = comment.marker ++ ' ' :: unclosed comment.content := by
  by_cases hClosing : closing <:+ comment.content
  · obtain ⟨content, hContent⟩ := hClosing
    have hText : comment.text = (comment.marker ++ ' ' :: content) ++ closing := by
      rw [text, ← hContent, List.append_assoc, List.cons_append]
    rw [hText, ← hContent, unclosed_append, unclosed_append]
  · rw [unclosed_of_not_suffix hClosing,
      unclosed_of_not_suffix (mt comment.closing_suffix_iff.mp hClosing)]
    rfl

end LineComment

/-! ## Cleaned lines -/

/-- The first marker that fits a line comment is its own. -/
theorem findSome?_markers {marker : List Char} (h : marker ∈ lineMarkers) (rest : List Char) :
    markers.findSome? (Text.dropLeading? · (marker ++ ' ' :: rest)) = some (' ' :: rest) := by
  simp only [lineMarkers, List.map_cons, List.map_nil, List.mem_cons, List.not_mem_nil,
    or_false] at h
  rcases h with rfl | rfl | rfl | rfl
  · rfl
  · rfl
  · rfl
  · rfl

/-- **What is left of a line comment**: what it says, up to a closing mark. -/
theorem cleanLine_text (comment : LineComment) :
    cleanLine comment.text = Text.trim (unclosed comment.content) := by
  have hLine : cleanLine comment.text =
      Text.trim ((markers.findSome? (Text.dropLeading? · (unclosed comment.text))).getD
        (unclosed comment.text)) := by
    rw [cleanLine, comment.text_edged.trim_eq]
    rfl
  rw [hLine, comment.unclosed_text, findSome?_markers comment.marked, Option.getD_some]
  rfl

/-- Without a closing mark nothing is lost. -/
theorem cleanLine_of_not_closing {comment : LineComment} (h : ¬ closing <:+ comment.content) :
    cleanLine comment.text = comment.content := by
  rw [cleanLine_text, unclosed_of_not_suffix h, comment.edged.trim_eq]

/-- With one at least this mark is. -/
theorem length_cleanLine_lt {comment : LineComment} (h : closing <:+ comment.content) :
    (cleanLine comment.text).length < comment.content.length := by
  obtain ⟨content, hContent⟩ := h
  have hLength := Text.length_trim_le content
  rw [cleanLine_text, ← hContent, unclosed_append, List.length_append]
  simp only [closing, List.length_cons, List.length_nil]
  omega

theorem length_cleanLine_le (comment : LineComment) :
    (cleanLine comment.text).length ≤ comment.content.length := by
  by_cases hClosing : closing <:+ comment.content
  · exact Nat.le_of_lt (length_cleanLine_lt hClosing)
  · rw [cleanLine_of_not_closing hClosing]

/-! ## Docstrings -/

/-- The docstring of some line comments is made of their cleaned texts. -/
theorem ofComments_text (comments : List LineComment) :
    ofComments (comments.map (·.text)) =
      nonEmpty? (Text.trim
        (['\n'].intercalate (comments.map fun comment => cleanLine comment.text))) := by
  have hLines : (comments.map (·.text)).flatMap Text.lines = comments.map (·.text) := by
    rw [List.flatMap_map]
    induction comments with
    | nil => rfl
    | cons comment rest ih =>
        rw [List.flatMap_cons, ih,
          Text.lines_of_not_mem comment.text_unbroken comment.text_edged.filled]
        rfl
  rw [ofComments, hLines, List.map_map]
  rfl

/-- A docstring that is as long as all contents cost no comment a mark. -/
theorem not_closing_of_length {comments : List LineComment} (hRun : comments ≠ [])
    (h : (['\n'].intercalate (comments.map (·.content))).length ≤
      (['\n'].intercalate (comments.map fun comment => cleanLine comment.text)).length) :
    ∀ comment ∈ comments, ¬ closing <:+ comment.content := by
  intro comment hComment hClosing
  have hLess := List.sum_lt_sum (l := comments) (fun comment => (cleanLine comment.text).length + 1)
    (fun comment => comment.content.length + 1)
    (fun other _ => Nat.succ_le_succ (length_cleanLine_le other))
    ⟨comment, hComment, Nat.succ_lt_succ (length_cleanLine_lt hClosing)⟩
  have hContents := Text.length_joined (comments.map (·.content)) (by simpa using hRun)
  have hCleaned := Text.length_joined (comments.map fun comment => cleanLine comment.text)
    (by simpa using hRun)
  rw [List.map_map] at hContents hCleaned
  simp only [Function.comp_def] at hContents hCleaned
  omega

/--
**When docstrings keep what line comments say.**  The docstring of a run of line
comments is all that they say, one below the other, exactly when none of them
ends with the mark that closes a block comment.
-/
theorem ofComments_keeps (comments : List LineComment) (hRun : comments ≠ []) :
    ofComments (comments.map (·.text)) =
        some (String.ofList (['\n'].intercalate (comments.map (·.content)))) ↔
      ∀ comment ∈ comments, ¬ closing <:+ comment.content := by
  have hEdged : Edged (['\n'].intercalate (comments.map (·.content))) := by
    refine Edged.joined (by simpa using hRun) fun content hContent => ?_
    obtain ⟨comment, _, rfl⟩ := List.mem_map.mp hContent
    exact comment.edged
  rw [ofComments_text]
  constructor
  · intro hKept
    unfold nonEmpty? at hKept
    split at hKept
    · cases hKept
    · have hSame := String.ofList_inj.mp (Option.some.inj hKept)
      refine not_closing_of_length hRun ?_
      rw [← hSame]
      exact Text.length_trim_le _
  · intro hOpen
    have hLines : (comments.map fun comment => cleanLine comment.text) =
        comments.map (·.content) :=
      List.map_congr_left fun comment hComment => cleanLine_of_not_closing (hOpen comment hComment)
    rw [hLines, hEdged.trim_eq, nonEmpty?, if_neg (by simpa using hEdged.filled)]

/-! ### Comments that look like markers, and one about directories -/

namespace Samples

/-- A comment that says something about block comments. -/
def opening : LineComment where
  marker := ['/', '/']
  content := "/* # /** opens".toList
  marked := by decide
  edged := by decide
  unbroken := by decide

def heading : LineComment where
  marker := ['#']
  content := "# * //".toList
  marked := by decide
  edged := by decide
  unbroken := by decide

/-- A comment that ends with a slash behind a star. -/
def directories : LineComment where
  marker := ['/', '/']
  content := "all of src/*/".toList
  marked := by decide
  edged := by decide
  unbroken := by decide

end Samples

theorem ofComments_keeps_markers :
    [Samples.opening, Samples.heading] ≠ [] ∧
      ofComments ["// /* # /** opens".toList, "# # * //".toList] =
        some "/* # /** opens\n# * //" := by
  have hRun : [Samples.opening, Samples.heading] ≠ [] := by decide
  have hOpen : ∀ comment ∈ [Samples.opening, Samples.heading],
      ¬ closing <:+ comment.content := by decide
  exact ⟨hRun, (ofComments_keeps [Samples.opening, Samples.heading] hRun).mpr hOpen⟩

/-- The end of the last comment is taken for the end of a block comment. -/
theorem ofComments_directories :
    ofComments [Samples.directories.text] = some "all of src/" ∧
      ofComments [Samples.directories.text] ≠
        some (String.ofList (['\n'].intercalate [Samples.directories.content])) := by
  have hCleaned : ofComments [Samples.directories.text] = some "all of src/" := by
    rw [show [Samples.directories.text] = [Samples.directories].map (·.text) from rfl,
      ofComments_text]
    decide
  refine ⟨hCleaned, ?_⟩
  rw [hCleaned]
  decide

end Docstring

end SourceIndex
