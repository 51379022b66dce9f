import SourceIndex.Text.Visible

/-!
# Quoted text

A text is quoted in a message so that each of its characters can be seen: quotes, backslashes
and line ends are escaped, and a character that would be invisible or would blend with the
one before it is given by its code.
-/

namespace SourceIndex.Text

/-- A character given by its code. -/
def coded (c : Char) : List Char := "\\u\x7b".toList ++ Nat.toDigits 16 c.toNat ++ ['\x7d']

/-- A character of a quoted text. -/
def shown : Char → List Char
  | '"' => ['\\', '"']
  | '\\' => ['\\', '\\']
  | '\n' => ['\\', 'n']
  | '\r' => ['\\', 'r']
  | '\t' => ['\\', 't']
  | '\x00' => ['\\', '0']
  | c => if isVisible c then [c] else coded c

/-- A text in quotes. -/
def quoted (text : String) : String := "\"" ++ String.ofList (text.toList.flatMap shown) ++ "\""

end SourceIndex.Text
