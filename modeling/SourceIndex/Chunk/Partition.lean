import SourceIndex.Chunk.Definition

/-!
# Partition of a source

The boundaries of the definitions are settled so that they share no byte and own the blanks
after them; the gaps that are left are the residue. Together they cover the source.
-/

namespace SourceIndex.Partition

/-- Starts each definition no earlier than the one before it ends, and drops those of which
nothing is left. -/
def disjoint (previous : Nat) : List Definition → List Definition
  | [] => []
  | definition :: rest =>
    let start := max definition.span.start previous
    if start < definition.span.stop then
      { definition with span := ⟨start, definition.span.stop⟩ } ::
        disjoint definition.span.stop rest
    else disjoint previous rest

/-- The number of bytes of the blanks that start a text. -/
def leadingBlanks (text : List Char) : Nat := Text.byteLength (text.takeWhile Text.isBlank)

/-- Extends each definition over the blanks after it, up to the next definition. -/
def ownBlanks (source : List Char) : List Definition → List Definition
  | [] => []
  | definition :: rest =>
    let limit := match rest with
      | next :: _ => next.span.start
      | [] => Text.byteLength source
    let stop := definition.span.stop
    let extended := stop + leadingBlanks (Text.slice source stop limit)
    { definition with span := ⟨definition.span.start, extended⟩ } :: ownBlanks source rest

/-- Lets the first definition start the file when only blanks are before it. -/
def ownPrologue (source : List Char) : List Definition → List Definition
  | [] => []
  | first :: rest =>
    if Text.allBlank (Text.takeBytes first.span.start source) then
      { first with span := ⟨0, first.span.stop⟩ } :: rest
    else first :: rest

/-- The gaps between spans, from `cursor` to `stop`. -/
def gaps (stop cursor : Nat) : List Span → List Span
  | [] => if cursor < stop then [⟨cursor, stop⟩] else []
  | span :: rest =>
    if cursor < span.start then ⟨cursor, span.start⟩ :: gaps stop span.stop rest
    else gaps stop span.stop rest

/-- The definitions with their boundaries settled, in the order of the source. -/
def settle (source : List Char) (definitions : List Definition) : List Definition :=
  let ordered := definitions.mergeSort fun a b => a.span.start ≤ b.span.start
  ownPrologue source (ownBlanks source (disjoint 0 ordered))

/-- What settled definitions leave of a source. -/
def residue (source : List Char) (settled : List Definition) : List Span :=
  gaps (Text.byteLength source) 0 (settled.map (·.span))

end SourceIndex.Partition
