import SourceIndex.Digest.SipHash
import SourceIndex.Embedding.Output
import SourceIndex.Text.Decimal
import SourceIndex.Text.Utf8

/-!
# A mock embedder

An embedder that needs no service: the components of a vector are hashes of the text and the
component's number. Chosen batches fail, and calls are counted.
-/

namespace SourceIndex.Embedding

/-- An embedder for tests. -/
structure Mock where
  dimension : Nat
  batchSize : Nat
  /-- The numbers of the batches that fail. -/
  failing : List Nat
  /-- The number of calls so far. -/
  calls : Nat
deriving Repr, DecidableEq

namespace Mock

/-- The name of the provider and of its model. -/
def name : String := "mock"

/-- A number of eight bytes, the low byte first. -/
def wordBytes (n : Nat) : List UInt8 :=
  (List.range 8).map fun i => UInt8.ofNat (n / Nat.pow 256 i)

/-- What is hashed for a component of a text's vector. -/
def componentBytes (text : String) (index : Nat) : List UInt8 :=
  Utf8.bytes text ++ 0xFF :: wordBytes index

/-- A component of a text's vector, a number of thousandths below one. -/
def component (text : String) (index : Nat) : Float32 :=
  (SipHash.hash (componentBytes text index) % 1000).toFloat32 / 1000.0

/-- The vector of a text. -/
def vector (mock : Mock) (text : String) : Components :=
  (List.range mock.dimension).map (component text)

/-- What becomes of a batch. -/
def batchResult (mock : Mock) (texts : List String) (batch : Nat) (range : Range) : BatchResult :=
  if mock.failing.contains batch then .error s!"mock failure for batch {batch}"
  else .ok ((range.pick texts).map mock.vector)

/-- The batches of some texts; only the number of texts bounds them. -/
def batches (mock : Mock) (texts : List String) : List Range :=
  Batches.plan (texts.map (·.length)) mock.batchSize Text.largest64

/-- Embeds some texts. Every call counts, and one that was cancelled gives nothing. -/
def embed (mock : Mock) (cancelled : Bool) (texts : List String) :
    Except EmbedError Output × Mock :=
  let counted := { mock with calls := mock.calls + 1 }
  if cancelled then (.error .cancelled, counted)
  else
    let results := (mock.batches texts).zipIdx.map fun (range, batch) =>
      (range, mock.batchResult texts batch range)
    (.ok (Output.collect results), counted)

end Mock

end SourceIndex.Embedding
