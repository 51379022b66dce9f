import SourceIndex.Http.Status
import SourceIndex.Text.Blank
import SourceIndex.Text.Decimal
import SourceIndex.Text.Utf8
import SourceIndex.Url.Reader

/-!
# Requests and replies

A draft becomes a request when its URL and its headers can be sent. An attempt to send a request
receives nothing, the beginning of a reply, or a whole reply; what is missing is told by a
failure with the URL that was asked.
-/

namespace SourceIndex.Http

/-- How a request asks. -/
inductive Method where
  | get
  | post
deriving Repr, DecidableEq

/-- The name of a method. -/
def Method.name : Method → String
  | get => "GET"
  | post => "POST"

/-- Header names in lower case, with their values. -/
abbrev Headers := List (String × String)

/-- What a server sees of a request. -/
structure Request where
  method : Method
  /-- The URL without its fragment. -/
  url : Url
  headers : Headers
  body : String
deriving Repr, DecidableEq

/-- The beginning of a reply. -/
structure Head where
  status : Status
  headers : Headers
deriving Repr, DecidableEq

namespace Head

/-- The value of the first header with the given name. -/
def header? (head : Head) (name : String) : Option String := head.headers.lookup name

/-- A visible character of ASCII, a space or a tab. -/
def isPlain (c : Char) : Bool := (0x20 ≤ c.toNat && c.toNat < 0x7F) || c == '\t'

/-- The seconds that the server wants to be left alone, when the reply says so in digits. -/
def retryAfter? (head : Head) : Option Nat := do
  let value := (← head.header? "retry-after").toList
  if value.all isPlain then Text.readNat? Text.largest64 (Text.trim value) else none

end Head

/-! ### Failures -/

/-- What went wrong with an attempt. -/
inductive Cause where
  /-- The draft was no request. -/
  | unusable
  /-- There was no connection. -/
  | refused
  | timedOut
  /-- The connection closed before a reply began. -/
  | dropped
  /-- The connection closed in the middle of a reply. -/
  | interrupted
deriving Repr, DecidableEq

/-- Why an attempt did not receive a whole reply. -/
structure Failure where
  cause : Cause
  /-- The URL that was asked, fragment included. -/
  url : Option Url
deriving Repr, DecidableEq

namespace Failure

/-- The wording of a cause. -/
def wording : Cause → String
  | .unusable => "builder error"
  | .refused | .timedOut | .dropped => "error sending request"
  | .interrupted => "error decoding response body"

/-- The wording of a failure. -/
def message (failure : Failure) : String :=
  wording failure.cause ++ match failure.url with
    | some url => " for url (" ++ url.text ++ ")"
    | none => ""

/-- Whether no connection was made, or none was made in time. -/
def isConnection (failure : Failure) : Bool :=
  failure.cause == .refused || failure.cause == .timedOut

end Failure

/-! ### Drafts -/

/-- A request as it is asked for. -/
structure Draft where
  method : Method
  url : String
  /-- The secret that the request carries. -/
  bearer : String
  /-- The other headers. -/
  headers : Headers
  body : String
deriving Repr, DecidableEq

namespace Draft

/-- How the program names itself. -/
def userAgent : String := "repodex/0.3.0"

/-- Whether a text can be the value of a header. -/
def isHeaderValue (text : String) : Bool :=
  text.toList.all fun c => c == '\t' || (0x20 ≤ c.toNat && c != '\x7F')

/-- The request that a draft asks for, and the URL that is named in failures. A user in the URL is
dropped; the header with this user's name and password that a client adds is left out. -/
def prepare (draft : Draft) : Except Failure (Url × Request) :=
  match (Url.read? draft.url).map Url.withoutUser with
  | none => .error ⟨.unusable, none⟩
  | some url =>
    if !url.hasHost then .error ⟨.unusable, some url⟩
    else if !isHeaderValue draft.bearer then .error ⟨.unusable, none⟩
    else if !url.isWeb then .error ⟨.unusable, some url⟩
    else
      .ok (url,
        { method := draft.method, url := url.withoutFragment
          headers :=
            ("user-agent", userAgent) :: ("authorization", "Bearer " ++ draft.bearer) ::
              draft.headers
          body := draft.body })

end Draft

/-! ### What is received -/

/-- What becomes of a request in the end, when all redirects have been followed. -/
inductive Outcome where
  /-- There is no connection, so the server does not even see the request. -/
  | refused
  | timedOut
  | dropped
  | interrupted (head : Head)
  | reply (head : Head) (body : List UInt8)
deriving Repr, DecidableEq

/-- What an attempt receives. -/
inductive Received where
  | nothing (failure : Failure)
  | part (head : Head) (failure : Failure)
  | whole (head : Head) (body : List UInt8)
deriving Repr, DecidableEq

/-- What is received when a server of the given URL acts so. -/
def Outcome.received (url : Url) : Outcome → Received
  | refused => .nothing ⟨.refused, some url⟩
  | timedOut => .nothing ⟨.timedOut, some url⟩
  | dropped => .nothing ⟨.dropped, some url⟩
  | interrupted head => .part head ⟨.interrupted, some url⟩
  | reply head body => .whole head body

/-- The most characters of a reply that messages quote. -/
def maxQuoted : Nat := 200

/-- The beginning of a body as text. -/
def quote (body : List UInt8) : String :=
  String.ofList ((Utf8.decodeLossy body).toList.take maxQuoted)

end SourceIndex.Http
