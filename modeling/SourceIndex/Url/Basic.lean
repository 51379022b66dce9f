import SourceIndex.Url.Percent

/-!
# URLs

The parts of an absolute URL in their normal form. `text` writes all of them; a request is sent
to the URL without its fragment.
-/

namespace SourceIndex

namespace Url

/-- Who asks: what stands before a host, encoded. -/
structure User where
  name : List Char
  password : Option (List Char)
deriving Repr, DecidableEq

/-- The path of a URL. -/
inductive Path where
  /-- Segments, each after a slash. -/
  | rooted (segments : List (List Char))
  /-- The path of a URL that names no host and has no hierarchy. -/
  | flat (text : List Char)
deriving Repr, DecidableEq

end Url

/-- An absolute URL. -/
structure Url where
  scheme : List Char
  user : Option Url.User
  /-- The written form of the host. -/
  host : Option (List Char)
  /-- The port, when it is not the standard port of the scheme. -/
  port : Option Nat
  path : Url.Path
  query : Option (List Char)
  fragment : Option (List Char)
deriving Repr, DecidableEq

namespace Url

/-- The standard port of a scheme. -/
def standardPort? (scheme : List Char) : Option Nat :=
  [("http", 80), ("https", 443), ("ws", 80), ("wss", 443), ("ftp", 21)].lookup
    (String.ofList scheme)

/-- Segments with a slash before each. -/
def writeSegments (segments : List (List Char)) : List Char := segments.flatMap ('/' :: ·)

/-- Name and password with the signs after them. -/
def User.written (user : User) : List Char :=
  user.name ++ (match user.password with
    | some password => ':' :: password
    | none => []) ++ ['@']

/-- User, host and port, after the slashes that announce them. -/
def writeAuthority (url : Url) : List Char :=
  match url.host with
  | none => []
  | some host =>
    '/' :: '/' :: url.user.elim [] User.written ++ host ++ match url.port with
      | some port => ':' :: Nat.toDigits 10 port
      | none => []

/-- The path. One that starts with an empty segment must not look like a host. -/
def writePath (url : Url) : List Char :=
  match url.path with
  | .flat text => text
  | .rooted segments =>
    match url.host, segments with
    | none, [] :: _ :: _ => '/' :: '.' :: writeSegments segments
    | _, _ => writeSegments segments

/-- A part with the sign before it. -/
def writePart (sign : Char) : Option (List Char) → List Char
  | some text => sign :: text
  | none => []

/-- The characters of a URL. -/
def written (url : Url) : List Char :=
  url.scheme ++ ':' :: writeAuthority url ++ writePath url ++ writePart '?' url.query ++
    writePart '#' url.fragment

/-- The text of a URL. -/
def text (url : Url) : String := String.ofList url.written

/-- The URL to which a request is sent. -/
def withoutFragment (url : Url) : Url := { url with fragment := none }

/-- Whether the bytes of an encoded text make a text. -/
def isReadable (text : List Char) : Bool := (Utf8.decode? (Percent.decode text)).isSome

/-- The URL without the user, who is told to the server in another way. A user whose name is no
text stays, and so does a password alone that is none. -/
def withoutUser (url : Url) : Url :=
  match url.user with
  | none => url
  | some user =>
    if isReadable user.name && (!user.name.isEmpty || user.password.any isReadable) then
      { url with user := none }
    else url

/-- Whether a URL names a host. -/
def hasHost (url : Url) : Bool := url.host.any (!·.isEmpty)

/-- The most characters of a URL in a request. -/
def maxLength : Nat := 65534

/-- Whether a request can be sent to a URL: by its scheme, by the characters of its host and by
its length. -/
def isWeb (url : Url) : Bool :=
  ["http".toList, "https".toList].contains url.scheme &&
    !(url.host.getD []).any (['"', '`', '\x7b', '\x7d'].contains ·) &&
    url.written.length ≤ maxLength

end Url

end SourceIndex
