import SourceIndex.Language.Grammar
import SourceIndex.SyntaxTree
import SourceIndex.Text.Blank
import SourceIndex.Text.Lines

/-!
# Docstrings

The documentation of a definition: in Python the string that opens its body, elsewhere, and in
Python without such a string, the comments in front of the definition without their markers.
-/

namespace SourceIndex.Docstring

/-- What may open a comment line; the first that fits is dropped. -/
def markers : List (List Char) := ["///", "//!", "//", "/**", "/*!", "/*", "#", "*"].map (·.toList)

/-- A comment's line without blanks, a closing mark and one opening mark. -/
def cleanLine (line : List Char) : List Char :=
  let line := Text.trim line
  let line := (Text.dropTrailing? ['*', '/'] line).getD line
  Text.trim ((markers.findSome? (Text.dropLeading? · line)).getD line)

/-- A text as an optional string, absent when it is empty. -/
def nonEmpty? (text : List Char) : Option String :=
  if text.isEmpty then none else some (String.ofList text)

/-- The cleaned lines of the given comments, one below the other. -/
def ofComments (comments : List (List Char)) : Option String :=
  nonEmpty? (Text.trim (['\n'].intercalate ((comments.flatMap Text.lines).map cleanLine)))

/-- Letters that may stand before the quotes of a Python string. -/
def isStringLetter (c : Char) : Bool := ['r', 'R', 'u', 'U', 'b', 'B', 'f', 'F'].contains c

/-- The quotes of Python strings, the longer ones first. -/
def quotes : List (List Char) := ["\"\"\"", "'''", "\"", "'"].map (·.toList)

/-- The contents of a string literal, without outer blanks. -/
def literalContents (literal : List Char) : List Char :=
  let quoted := literal.dropWhile isStringLetter
  Text.trim ((quotes.findSome? fun quote =>
    (Text.dropLeading? quote quoted).bind (Text.dropTrailing? quote)).getD quoted)

/-- The string that opens a Python definition's body. -/
def ofBody? (source : List Char) (definition : Node) : Option String := do
  let body ← definition.child? .body
  let first ← body.namedChildren.head?
  if first.kind ≠ "expression_statement" then none
  else
    let literal ← first.namedChildren.head?
    if literal.kind ≠ "string" then none
    else nonEmpty? (literalContents (literal.text source))

/-- The docstring of a definition with the given comments in front of it. -/
def of? (source : List Char) (language : Language) (definition : Node)
    (comments : List (List Char)) : Option String :=
  let opening := if language = .python then ofBody? source definition else none
  opening <|> ofComments comments

end SourceIndex.Docstring
