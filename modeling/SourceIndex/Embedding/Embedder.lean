import SourceIndex.Embedding.Mock
import SourceIndex.Embedding.OpenAi

/-!
# Embedders

Who embeds the chunks of a run. Embedders of one sort differ in what they ask the world for, so
embedding takes place in a session; the mock embedder asks for nothing and counts its calls.
-/

namespace SourceIndex.Embedding

/-- An embedder. -/
inductive Embedder where
  | openAi (service : OpenAi)
  | mock (mock : Mock)
deriving Repr, DecidableEq

namespace Embedder

/-- The name of the provider. -/
def name : Embedder → String
  | openAi _ => OpenAi.name
  | mock _ => Mock.name

/-- The name of the model. -/
def model : Embedder → String
  | openAi service => service.model
  | mock _ => Mock.name

/-- Embeds some texts. The embedder is returned as it is afterwards. -/
def embed (embedder : Embedder) (world : Http.World) (texts : List String) :
    StateM Http.Session (Except EmbedError Output × Embedder) := do
  match embedder with
  | .openAi service => return (← (service.embed world texts).run, embedder)
  | .mock given =>
    let (result, after) := given.embed (← get).cancelled texts
    return (result, .mock after)

/-- No model can be loaded to embed on this machine. -/
def modelMissing (model : String) : EmbedError :=
  .modelLoad ("cannot load " ++ model ++ ": repodex was built without the `candle` feature")

end Embedder

end SourceIndex.Embedding
