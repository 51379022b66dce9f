import SourceIndex.Text.Direction
import SourceIndex.Text.Joining
import SourceIndex.Text.Pieces
import SourceIndex.Url.Folding
import SourceIndex.Url.Punycode

/-!
# Domain names

A domain name consists of labels between dots. It may be typed in many ways that mean the same
name; `written?` is its one form in ASCII. Labels with other characters are written in Punycode
behind a sign of their own, and a label that already has the sign must be such a form.

A label does not start with a mark, joiners stand in it only where they have an effect, and in
a name with letters from right to left each label has one direction.
-/

namespace SourceIndex.Url.Domain

/-- Whether a character is in ASCII. -/
def isAscii (c : Char) : Bool := c.toNat < 0x80

/-- What a label in Punycode starts with. -/
def encodedSign : List Char := ['x', 'n', '-', '-']

/-- The most characters of a label that is written in Punycode. -/
def maxPlain : Nat := 1000

/-- The most characters of Punycode in a label. -/
def maxEncoded : Nat := 2000

/-- Whether a text is the form that others are brought into. -/
def isNormal (text : List Char) : Bool :=
  text.all (fun c => Folding.fold? c == some [c]) && Text.composed text == text

/-- The characters that a label means. -/
def meaning? (label : List Char) : Option (List Char) :=
  match Text.dropLeading? encodedSign label with
  | none => some label
  | some encoded => do
    if maxEncoded < encoded.length then none
    let text ← Punycode.decode? encoded
    if text.all isAscii || !isNormal text || text.contains '.' ||
        (Text.dropLeading? encodedSign text).isSome then none
    else some text

/-- The written form of a label. -/
def writeLabel? (label : List Char) : Option (List Char) :=
  if label.all isAscii then some label
  else if label.length ≤ maxPlain then some (encodedSign ++ Punycode.encode label)
  else none

/-! ### Rules for labels -/

/-- Whether a label starts well and has joiners only where they have an effect. -/
def isWellFormed (text : List Char) : Bool :=
  !text.head?.any Text.isMark && Text.joinersHaveEffect [] text

/-- Whether directions are those of a text from left to right. -/
def runLeftToRight (directions : List Text.Direction) : Bool :=
  directions.head? == some .leftToRight &&
    directions.all ([.leftToRight, .europeanNumber, .neutral, .mark].contains ·) &&
    (directions.reverse.dropWhile (· == .mark)).head?.any
      ([.leftToRight, .europeanNumber].contains ·)

/-- Whether directions are those of a text from right to left. -/
def runRightToLeft (directions : List Text.Direction) : Bool :=
  directions.head? == some .rightToLeft && !directions.contains .leftToRight &&
    (directions.reverse.dropWhile (· == .mark)).head?.any (· != .neutral) &&
    !(directions.contains .europeanNumber && directions.contains .arabicNumber)

/-- Whether a label has one direction. -/
def hasOneDirection (text : List Char) : Bool :=
  let directions := text.map Text.Direction.of
  text.isEmpty || runLeftToRight directions || runRightToLeft directions

/-- Whether a label has letters or numbers of texts from right to left. -/
def needsDirection (text : List Char) : Bool :=
  (text.map Text.Direction.of).any ([.rightToLeft, .arabicNumber].contains ·)

/-- Whether the labels of a name make a name together. -/
def areWellFormed (labels : List (List Char)) : Bool :=
  labels.all isWellFormed && (!labels.any needsDirection || labels.all hasOneDirection)

/-! ### Names -/

/-- Whether a name is in ASCII and has no label in Punycode. -/
def isPlain (text : List Char) : Bool :=
  text.all isAscii && (Text.splitWhere (· == '.') text).all fun label =>
    (Text.dropLeading? encodedSign (label.map Char.toLower)).isNone

/-- The form of a name in ASCII, none when it is no domain name. -/
def written? (text : List Char) : Option (List Char) := do
  if isPlain text then return text.map Char.toLower
  let folded ← text.mapM Folding.fold?
  let labels := Text.splitWhere (· == '.') (Text.composed folded.flatten)
  let meanings ← labels.mapM meaning?
  if !areWellFormed meanings then none
  let written ← labels.mapM writeLabel?
  return ['.'].intercalate written

end SourceIndex.Url.Domain
