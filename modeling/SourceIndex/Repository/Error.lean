/-!
# Errors of fetching
-/

namespace SourceIndex

/-- Why a repository could not be fetched. -/
inductive FetchError where
  | auth (detail : String)
  | notFound (detail : String)
  | rateLimited (detail : String)
  | network (detail : String)
  | invalidResponse (detail : String)
  | cancelled
deriving Repr, DecidableEq

namespace FetchError

/-- The wording of an error. -/
def message : FetchError → String
  | auth detail => "authentication failed: " ++ detail
  | notFound detail => "not found: " ++ detail
  | rateLimited detail => "rate limited: " ++ detail
  | network detail => "network error: " ++ detail
  | invalidResponse detail => "unexpected response: " ++ detail
  | cancelled => "cancelled"

/-- Whether the same request may succeed later. -/
def isRetryable : FetchError → Bool
  | rateLimited _ | network _ => true
  | _ => false

end FetchError

end SourceIndex
