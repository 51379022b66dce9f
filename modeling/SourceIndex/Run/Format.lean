import SourceIndex.Text.Blank

/-!
# Output formats and embedding providers
-/

namespace SourceIndex

/-- How much of a run its result shows. -/
inductive OutputFormat where
  | metadata
  | chunks
  | chunksEmbeddings
  | full
deriving Repr, DecidableEq, Inhabited

namespace OutputFormat

/-- The name of a format. -/
def name : OutputFormat → String
  | metadata => "metadata"
  | chunks => "chunks"
  | chunksEmbeddings => "chunks_embeddings"
  | full => "full"

/-- Reads a format's name; outer blanks and the case of letters do not matter. -/
def ofName? (text : String) : Option OutputFormat :=
  match Text.normalizedName text with
  | "metadata" => some metadata
  | "chunks" => some chunks
  | "chunks_embeddings" => some chunksEmbeddings
  | "full" => some full
  | _ => none

/-- Whether the chunks have to be embedded. -/
def needsEmbeddings : OutputFormat → Bool
  | chunksEmbeddings | full => true
  | _ => false

/-- Whether the result lists the chunks. -/
def includesChunks : OutputFormat → Bool
  | metadata => false
  | _ => true

end OutputFormat

/-- Who embeds the chunks. -/
inductive Provider where
  | localModel
  | openAi
deriving Repr, DecidableEq, Inhabited

namespace Provider

/-- The name of a provider. -/
def name : Provider → String
  | .localModel => "local"
  | .openAi => "openai"

/-- Reads a provider's name; outer blanks and the case of letters do not matter. -/
def ofName? (text : String) : Option Provider :=
  match Text.normalizedName text with
  | "local" => some .localModel
  | "openai" => some .openAi
  | _ => none

end Provider

end SourceIndex
