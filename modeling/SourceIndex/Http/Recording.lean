import SourceIndex.Digest.Hex
import SourceIndex.Http.Session
import SourceIndex.Json.Access
import SourceIndex.Json.Writer

/-!
# Recorded replies

A recording answers requests by routes. A request belongs to the first route with its method and
its URL whose text occurs in its body. The replies of a route are given one after the other, and
the last one again and again. What belongs to no route is not found.
-/

namespace SourceIndex.Http

/-- The recorded replies to requests of one kind. -/
structure Route where
  method : String
  /-- The URL, or none when nothing can be asked from it. -/
  url : Option Url
  /-- A text that occurs in the body. -/
  contains : String
  replies : List Outcome
deriving Repr

namespace Route

/-- Whether a request belongs to a route, routes before it apart. -/
def accepts (route : Route) (request : Request) : Bool :=
  route.method == request.method.name && route.url == some request.url &&
    Text.occursIn route.contains.toList request.body.toList

/-- The reply to the request with the given number. -/
def reply? (route : Route) (number : Nat) : Option Outcome :=
  route.replies[number]? <|> route.replies.getLast?

end Route

/-- Routes in the order in which they are tried. -/
abbrev Recording := List Route

namespace Recording

/-- The reply to what belongs to no route. -/
def notFound : Outcome := .reply { status := 404, headers := [] } (Utf8.bytes "no route")

/-- The position of the route that a request belongs to. -/
def position? (recording : Recording) (request : Request) : Option Nat :=
  recording.findIdx? (·.accepts request)

/-- The reply to a request after those before it. -/
def answer (recording : Recording) (before : List Request) (request : Request) : Outcome :=
  match recording.position? request with
  | none => notFound
  | some position =>
    let number := before.countP fun earlier => recording.position? earlier == some position
    ((recording[position]?).bind (·.reply? number)).getD notFound

/-- A world in which a recording answers. -/
def world (recording : Recording) (interrupts : List Nat → Nat → Bool) : World :=
  { answer := recording.answer, interrupts }

/-! ### Reading recordings -/

/-- Reads a header. -/
def headerOf? : Json → Option (String × String)
  | .array [name, value] => do return (Text.asciiLower (← name.text?), Text.trimmed (← value.text?))
  | _ => none

/-- Reads a body: a text as it is, another value as its text with sorted keys, or bytes. -/
def bodyOf (json : Json) : List UInt8 :=
  match json.member "body", json.textAt? "bodyHex" with
  | some (.string (.text body)), _ => Utf8.bytes body
  | some value, _ => Utf8.bytes value.sorted.render
  | none, some digits => (Hex.decode? digits.toList).getD []
  | none, none => []

/-- Reads a reply. -/
def replyOf (json : Json) : Outcome :=
  let head : Head :=
    { status := (json.natAt? "status").getD 200
      headers := (json.itemsAt "headers").filterMap headerOf? }
  match json.textAt? "drop" with
  | some "connection" => .dropped
  | some "body" => .interrupted head
  | _ => .reply head (bodyOf json)

/-- Reads a route. -/
def routeOf (json : Json) : Route :=
  { method := (json.textAt? "method").getD "GET"
    url := (Url.read? ((json.textAt? "url").getD "")).map (·.withoutFragment)
    contains := (json.textAt? "contains").getD ""
    replies := (json.itemsAt "replies").map replyOf }

/-- Reads the routes of a recording. -/
def ofJson (json : Json) : Recording := (json.itemsAt "routes").map routeOf

end Recording

end SourceIndex.Http
