import SourceIndex.Text.Blank

/-!
# Secrets

Tokens and keys. A secret is printed as a fixed text that does not depend on it.
-/

namespace SourceIndex

/-- A token or a key. -/
structure Secret where
  /-- What is sent to the service that asks for it. -/
  exposed : String
deriving DecidableEq, Inhabited

namespace Secret

/-- What is printed in the place of a secret. -/
def redacted : String := "[REDACTED]"

instance : ToString Secret := ⟨fun _ => redacted⟩

instance : Repr Secret := ⟨fun _ _ => redacted⟩

/-- A secret of blanks only counts as none. -/
def isBlank (secret : Secret) : Bool := Text.isBlankText secret.exposed

end Secret

end SourceIndex
