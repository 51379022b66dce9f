import SourceIndex.Digest.Blake3
import SourceIndex.Strategy
import SourceIndex.Text.Bytes
import SourceIndex.Text.Utf8

/-!
# Chunk identifiers

The identifier of a chunk is a digest of the file's path, the strategy and the chunk's spans.
What is hashed ends path and strategy with a zero byte and writes each span as two decimal
numbers, `start-stop;`.
-/

namespace SourceIndex.ChunkId

/-- A span as it is hashed. -/
def spanText (span : Span) : List Char :=
  Nat.toDigits 10 span.start ++ '-' :: Nat.toDigits 10 span.stop ++ [';']

/-- The text that a chunk's identifier is the digest of. -/
def preimage (filePath : String) (strategy : Strategy) (spans : List Span) : List Char :=
  filePath.toList ++ '\x00' :: strategy.name.toList ++ '\x00' :: spans.flatMap spanText

/-- The identifier of a chunk. -/
def of (filePath : String) (strategy : Strategy) (spans : List Span) : String :=
  Blake3.hexDigest (Utf8.encode (preimage filePath strategy spans))

end SourceIndex.ChunkId
