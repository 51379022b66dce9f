/-!
# Errors of embedding
-/

namespace SourceIndex

/-- Why texts, or one batch of them, could not be embedded. -/
inductive EmbedError where
  | http (detail : String)
  | json (detail : String)
  | rateLimited
  | status (provider : String) (code : Nat) (detail : String)
  | invalidResponse (provider : String) (detail : String)
  | modelLoad (detail : String)
  | inference (detail : String)
  | cancelled
deriving Repr, DecidableEq

namespace EmbedError

/-- The wording of an error. -/
def message : EmbedError → String
  | http detail => "HTTP request failed: " ++ detail
  | json detail => "JSON parse failed: " ++ detail
  | rateLimited => "rate limited"
  | status provider code detail => s!"{provider} returned status {code}: {detail}"
  | invalidResponse provider detail => s!"invalid response from {provider}: {detail}"
  | modelLoad detail => "model loading failed: " ++ detail
  | inference detail => "inference failed: " ++ detail
  | cancelled => "cancelled"

/-- Whether the error ends the whole run and not only one batch. -/
def isFatal : EmbedError → Bool
  | modelLoad _ | cancelled => true
  | _ => false

end EmbedError

end SourceIndex
