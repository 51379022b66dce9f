/-!
# Pieces of a text

`splitWhere p` cuts a text at every character that satisfies `p`. The pieces hold no such
character, and joining them with the cut characters gives the text back, so `n` cuts make
`n + 1` pieces. `occursIn`, `dropLeading?` and `dropTrailing?` look for one text in another.
-/

namespace SourceIndex.Text

/-- The pieces between the characters that satisfy `p`; there is always at least one. -/
def splitWhere (p : Char → Bool) : List Char → List (List Char)
  | [] => [[]]
  | c :: rest =>
    if p c then [] :: splitWhere p rest
    else match splitWhere p rest with
      | piece :: others => (c :: piece) :: others
      | [] => [[c]]

theorem splitWhere_ne_nil (p : Char → Bool) (text : List Char) : splitWhere p text ≠ [] := by
  fun_induction splitWhere p text <;> simp

/-- Whether `pattern` occurs in the text as a contiguous part. -/
def occursIn (pattern : List Char) : List Char → Bool
  | [] => pattern.isEmpty
  | c :: rest => pattern.isPrefixOf (c :: rest) || occursIn pattern rest

/-- The text after `start`, when it begins with it. -/
def dropLeading? (start text : List Char) : Option (List Char) :=
  if start.isPrefixOf text then some (text.drop start.length) else none

/-- The text before `ending`, when it stops with it. -/
def dropTrailing? (ending text : List Char) : Option (List Char) :=
  if ending.isSuffixOf text then some (text.take (text.length - ending.length)) else none

/-- The text without its last characters that satisfy `p`. -/
def trimEndWhere (p : Char → Bool) (text : List Char) : List Char :=
  text.foldr (fun c rest => if rest.isEmpty && p c then [] else c :: rest) []

/-- The string with the letters A to Z lowered and every other character kept. -/
def asciiLower (text : String) : String := String.ofList (text.toList.map Char.toLower)

end SourceIndex.Text
