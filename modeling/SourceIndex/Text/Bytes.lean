/-!
# Byte offsets into a text

Positions in a source are byte offsets into its UTF-8 form, as syntax trees give them. A span
is a pair of such offsets. `takeBytes` and `dropBytes` split a text at a byte offset and never
inside a character: a character that the offset would cut stays on the right. What the two
return always joins to the whole text (`takeBytes_append_dropBytes`).
-/

namespace SourceIndex.Text

/-- The number of bytes of a text in UTF-8. -/
def byteLength : List Char → Nat
  | [] => 0
  | c :: rest => c.utf8Size + byteLength rest

/-- The longest prefix of at most `n` bytes. -/
def takeBytes : Nat → List Char → List Char
  | _, [] => []
  | n, c :: rest => if c.utf8Size ≤ n then c :: takeBytes (n - c.utf8Size) rest else []

/-- What is left after `takeBytes n`. -/
def dropBytes : Nat → List Char → List Char
  | _, [] => []
  | n, c :: rest => if c.utf8Size ≤ n then dropBytes (n - c.utf8Size) rest else c :: rest

theorem takeBytes_append_dropBytes (n : Nat) (text : List Char) :
    takeBytes n text ++ dropBytes n text = text := by
  fun_induction takeBytes n text with
  | case1 => rfl
  | case2 n c rest h ih => simp [dropBytes, h, ih]
  | case3 n c rest h => simp [dropBytes, h]

/-- The part of a text from byte `start` up to byte `stop`. -/
def slice (text : List Char) (start stop : Nat) : List Char :=
  takeBytes (stop - start) (dropBytes start text)

end SourceIndex.Text

namespace SourceIndex

/-- A range of byte offsets, from `start` up to and not including `stop`. -/
structure Span where
  start : Nat
  stop : Nat
deriving Repr, DecidableEq, Inhabited

namespace Span

/-- The text that a span covers. -/
def text (span : Span) (source : List Char) : List Char := Text.slice source span.start span.stop

/-- A span that covers no byte. -/
def isEmpty (span : Span) : Bool := span.stop ≤ span.start

end Span

end SourceIndex
