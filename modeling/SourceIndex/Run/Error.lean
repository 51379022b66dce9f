import SourceIndex.Embedding.Error
import SourceIndex.IndexError
import SourceIndex.Json.Basic
import SourceIndex.Repository.Error

/-!
# Errors that end a run
-/

namespace SourceIndex

/-- Why a run ended without a result. -/
inductive RunError where
  | config (detail : String)
  | auth (detail : String)
  | notFound (detail : String)
  | rateLimited (detail : String)
  | network (detail : String)
  | modelLoad (detail : String)
  | cancelled
  | internal (detail : String)
deriving Repr, DecidableEq

namespace RunError

/-- The wording of an error. -/
def message : RunError → String
  | config detail => "invalid configuration: " ++ detail
  | auth detail => "authentication failed: " ++ detail
  | notFound detail => "not found: " ++ detail
  | rateLimited detail => "rate limit exhausted: " ++ detail
  | network detail => "network failure: " ++ detail
  | modelLoad detail => "embedding model could not be loaded: " ++ detail
  | cancelled => "run cancelled"
  | internal detail => "internal error: " ++ detail

/-- The name of an error's kind. -/
def kind : RunError → String
  | config _ => "ConfigError"
  | auth _ => "AuthError"
  | notFound _ => "NotFoundError"
  | rateLimited _ => "RateLimitError"
  | network _ => "NetworkError"
  | modelLoad _ => "ModelLoadError"
  | cancelled => "CancelledError"
  | internal _ => "InternalError"

/-- What a caller is told about an error. -/
def payload (error : RunError) : Json :=
  .record [("error", .text error.message), ("errorType", .text error.kind)]

/-- An error of fetching keeps its kind; a response that makes no sense is an internal error. -/
def ofFetch : FetchError → RunError
  | .auth detail => auth detail
  | .notFound detail => notFound detail
  | .rateLimited detail => rateLimited detail
  | .network detail => network detail
  | .invalidResponse detail => internal detail
  | .cancelled => cancelled

/-- Of the errors of selection and chunking, only a bad configuration is the caller's. -/
def ofIndex : IndexError → RunError
  | .config detail => config detail
  | other => internal other.message

/-- Of the errors of embedding, only fatal ones have a kind of their own. -/
def ofEmbed : EmbedError → RunError
  | .modelLoad detail => modelLoad detail
  | .cancelled => cancelled
  | other => internal other.message

end RunError

end SourceIndex
