/-!
# Lines

A line ends after a line feed; the feed, and one carriage return right before it, belong to no
line. A last line without a feed counts when it is not empty.
-/

namespace SourceIndex.Text

/-- Splits off the first line with its ending; what is left starts the next line. -/
def splitLine : List Char → List Char × List Char
  | [] => ([], [])
  | '\n' :: rest => ([], rest)
  | '\r' :: '\n' :: rest => ([], rest)
  | c :: rest =>
    let (line, after) := splitLine rest
    (c :: line, after)

theorem length_splitLine_snd_le (text : List Char) :
    (splitLine text).2.length ≤ text.length - 1 := by
  fun_induction splitLine text with
  | case1 => simp
  | case2 rest => simp
  | case3 rest => simp
  | case4 c rest _ _ line after h ih => simp only [h] at ih; simp; omega

/-- The lines of a text, without their endings. -/
def lines (text : List Char) : List (List Char) :=
  match text with
  | [] => []
  | c :: rest =>
    (splitLine (c :: rest)).1 :: lines (splitLine (c :: rest)).2
termination_by text.length
decreasing_by
  have := length_splitLine_snd_le (c :: rest)
  simp at this ⊢
  omega

/-- The first line, empty when there is none. -/
def firstLine (text : List Char) : List Char := (splitLine text).1

/-- The number of line feeds. -/
def lineFeeds (text : List Char) : Nat := text.count '\n'

end SourceIndex.Text
