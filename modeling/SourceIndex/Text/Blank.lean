import SourceIndex.Text.Pieces

/-!
# Blank characters and trimming

A character is *blank* when it has the Unicode property White_Space. Texts are lists of
characters here; `trimStart`, `trimEnd` and `trim` cut blanks off the ends, `words` are the
runs between blanks, and `collapse` writes the words with single spaces between them.
-/

namespace SourceIndex.Text

/-- The characters with the Unicode property White_Space. -/
def isBlank (c : Char) : Bool :=
  let n := c.toNat
  (0x9 ≤ n && n ≤ 0xD) || n == 0x20 || n == 0x85 || n == 0xA0 || n == 0x1680 ||
    (0x2000 ≤ n && n ≤ 0x200A) || n == 0x2028 || n == 0x2029 || n == 0x202F ||
    n == 0x205F || n == 0x3000

/-- The text without its leading blanks. -/
def trimStart (text : List Char) : List Char := text.dropWhile isBlank

/-- The text without its trailing blanks. -/
def trimEnd (text : List Char) : List Char := trimEndWhere isBlank text

/-- The text without leading and trailing blanks. -/
def trim (text : List Char) : List Char := trimEnd (trimStart text)

/-- A text of blanks only; the empty text is one. -/
def allBlank (text : List Char) : Bool := text.all isBlank

/-- The maximal runs of characters that are not blank, in order. -/
def words (text : List Char) : List (List Char) :=
  (splitWhere isBlank text).filter (!·.isEmpty)

/-- The words of a text with one space between neighbours. -/
def collapse (text : List Char) : List Char := [' '].intercalate (words text)

/-- A string without its leading and trailing blanks. -/
def trimmed (text : String) : String := String.ofList (trim text.toList)

/-- A string of blanks only. -/
def isBlankText (text : String) : Bool := allBlank text.toList

/-- The form in which names are compared: without outer blanks, the letters A to Z lowered. -/
def normalizedName (text : String) : String := asciiLower (trimmed text)

end SourceIndex.Text
