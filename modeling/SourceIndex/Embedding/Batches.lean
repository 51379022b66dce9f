import SourceIndex.Text.Bytes

/-!
# Batches

Texts are sent to an embedding provider in consecutive batches. A batch is filled until one
more text would exceed the number of texts or of characters that it may hold; a text longer
than a whole batch stands alone.
-/

namespace SourceIndex.Embedding

/-- Positions `start` up to `stop` of a list of texts. -/
abbrev Range := Span

namespace Batches

/-- Plans the texts from position `next` on, given the start of the open batch and the number
of characters in it. -/
def planFrom (maxSize maxChars : Nat) : List Nat → (next start chars : Nat) → List Range
  | [], next, start, _ => if start < next then [⟨start, next⟩] else []
  | length :: rest, next, start, chars =>
    if next - start = maxSize || (start < next && maxChars < chars + length) then
      ⟨start, next⟩ :: planFrom maxSize maxChars rest (next + 1) next length
    else planFrom maxSize maxChars rest (next + 1) start (chars + length)

/-- The batches of texts with the given lengths in characters. -/
def plan (lengths : List Nat) (maxSize maxChars : Nat) : List Range :=
  planFrom (max maxSize 1) maxChars lengths 0 0 0

end Batches

/-- The texts of a batch. -/
def Range.pick (range : Range) (texts : List α) : List α :=
  (texts.drop range.start).take (range.stop - range.start)

/-- The first `count` characters of a text. -/
def cut (count : Nat) (text : String) : String := String.ofList (text.toList.take count)

end SourceIndex.Embedding
