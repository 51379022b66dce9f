import SourceIndex.Embedding.Batches
import SourceIndex.Embedding.Error

/-!
# Outputs of embedding

The vectors of some texts, one place for each text in its order. A batch that failed leaves its
places empty and is reported with its number and range. All vectors have one dimension: a batch
whose dimension differs from that of the first successful one counts as failed.
-/

namespace SourceIndex.Embedding

/-- The components of an embedding. -/
abbrev Components := List Float32

/-- A batch whose texts got no vectors. -/
structure BatchFailure where
  /-- The number of the batch, counted from zero. -/
  batch : Nat
  /-- The positions of its texts. -/
  range : Range
  message : String
deriving Repr, DecidableEq

/-- The vectors of some texts. -/
structure Output where
  vectors : List (Option Components)
  failures : List BatchFailure
deriving Repr, Inhabited

/-- What became of a batch: its vectors, or why there are none. -/
abbrev BatchResult := Except String (List Components)

namespace Output

/-- The dimension of the vectors, if there are any. -/
def dimension? (output : Output) : Option Nat :=
  (output.vectors.findSome? id).map List.length

/-- Refuses vectors of another dimension than that of earlier batches. -/
def checkDimension (dimension : Option Nat) (vectors : List Components) : BatchResult :=
  match dimension, vectors.head? with
  | some expected, some vector =>
    let found := vector.length
    if found = expected then .ok vectors
    else .error s!"dimension {found} differs from {expected} returned by earlier batches"
  | _, _ => .ok vectors

/-- The places of a batch's texts, filled with its vectors. -/
def places (range : Range) (vectors : List Components) : List (Option Components) :=
  (vectors.map some ++ List.replicate (range.stop - range.start) none).take
    (range.stop - range.start)

/-- Collects batches from number `batch` on, given the dimension of those before. -/
def collectFrom (batch : Nat) (dimension : Option Nat) : List (Range × BatchResult) → Output
  | [] => ⟨[], []⟩
  | (range, result) :: rest =>
    match result.bind (checkDimension dimension) with
    | .ok vectors =>
      let known := dimension <|> vectors.head?.map List.length
      let after := collectFrom (batch + 1) known rest
      { after with vectors := places range vectors ++ after.vectors }
    | .error message =>
      let after := collectFrom (batch + 1) dimension rest
      { vectors := places range [] ++ after.vectors
        failures := ⟨batch, range, message⟩ :: after.failures }

/-- Collects all batches of some texts, whose ranges follow each other from zero on. -/
def collect (batches : List (Range × BatchResult)) : Output := collectFrom 0 none batches

end Output

end SourceIndex.Embedding
