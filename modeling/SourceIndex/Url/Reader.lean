import SourceIndex.Text.Decimal
import SourceIndex.Url.Basic
import SourceIndex.Url.Host

/-!
# Reading URLs

An absolute URL is read from any text and brought into its normal form: blanks around it are
dropped, the scheme and host are lowered, a standard port is left out, segments of one or two
dots are resolved, and every part is percent-encoded as far as it has to be. Where schemes have
a standard port a backslash counts as a slash.
-/

namespace SourceIndex.Url

/-- What is left of a text without the characters that no URL has. -/
def stripped (text : List Char) : List Char :=
  let outer (c : Char) : Bool := c.toNat ≤ 0x20
  (Text.trimEndWhere outer (text.dropWhile outer)).filter fun c =>
    !(['\t', '\n', '\r'].contains c)

/-- The text before the first of some characters, and what starts with it. -/
def spanTo (stop : Char → Bool) (text : List Char) : List Char × List Char :=
  (text.takeWhile (!stop ·), text.dropWhile (!stop ·))

/-- The part after a sign, and the text before it. -/
def splitPart (sign : Char) (text : List Char) : List Char × Option (List Char) :=
  match spanTo (· == sign) text with
  | (before, _ :: after) => (before, some after)
  | (before, []) => (before, none)

/-- The scheme, in lower case, and what follows its colon. -/
def readScheme? (text : List Char) : Option (List Char × List Char) :=
  match spanTo (· == ':') text with
  | (scheme, _ :: rest) =>
    let admitted (c : Char) : Bool := c.isAlphanum || ['+', '-', '.'].contains c
    match scheme with
    | first :: others =>
      if first.isAlpha && others.all admitted then some (scheme.map Char.toLower, rest) else none
    | [] => none
  | (_, []) => none

/-! ### Paths -/

/-- Whether a segment is one dot, possibly encoded. -/
def isDot (segment : List Char) : Bool :=
  [".", "%2e"].contains (String.ofList (segment.map Char.toLower))

/-- Whether a segment is two dots, possibly encoded. -/
def isDoubleDot (segment : List Char) : Bool :=
  ["..", ".%2e", "%2e.", "%2e%2e"].contains (String.ofList (segment.map Char.toLower))

/-- Whether a segment is a letter and a colon or bar, which names a drive. -/
def isDrive : List Char → Bool
  | [letter, sign] => letter.isAlpha && (sign == ':' || sign == '|')
  | _ => false

/-- Whether a segment names a drive, perhaps with a backslash and more behind. Two dots do not
lead out of a drive. -/
def startsWithDrive (segment : List Char) : Bool :=
  isDrive (segment.take 2) && (segment[2]?.all (· == '\\'))

/-- The segments before, in reverse order, without the last one of them. -/
def leave : List (List Char) → List (List Char)
  | [] => []
  | last :: before => if startsWithDrive last then last :: before else before

/-- Resolves segments of dots. The segments before are in reverse order. A path that ends in a
segment of dots ends in a slash. The first segment is written by `root`. -/
def resolve (root : List Char → List Char) (before : List (List Char)) :
    List (List Char) → List (List Char)
  | [] => before.reverse
  | segment :: rest =>
    if isDoubleDot segment then
      resolve root (if rest.isEmpty then [] :: leave before else leave before) rest
    else if isDot segment then resolve root (if rest.isEmpty then [] :: before else before) rest
    else
      let written := Percent.encode Percent.path segment
      resolve root ((if before.isEmpty then root written else written) :: before) rest

/-- The segments of a path. The slash that it may start with separates nothing. -/
def splitPath (isSlash : Char → Bool) : List Char → List (List Char)
  | [] => []
  | c :: rest => Text.splitWhere isSlash (if isSlash c then rest else c :: rest)

/-- The path that follows a host, or starts with a slash. -/
def readPath (isSlash : Char → Bool) (text : List Char) : List (List Char) :=
  resolve id [] (splitPath isSlash text)

/-! ### Users, hosts and ports -/

/-- Name and password, none when both are empty. -/
def readUser? (text : List Char) : Option User :=
  let (name, password) := splitPart ':' text
  let password := password.filter (!·.isEmpty)
  if name.isEmpty && password.isNone then none
  else
    some { name := Percent.encode Percent.user name
           password := password.map (Percent.encode Percent.user) }

/-- What stands before the last sign of a user in an authority, and what stands behind it. -/
def splitUser (authority : List Char) : Option (List Char) × List Char :=
  match authority.reverse.dropWhile (· ≠ '@') with
  | [] => (none, authority)
  | _ :: user => (some user.reverse, (authority.reverse.takeWhile (· ≠ '@')).reverse)

/-- The host up to the first colon outside brackets, and what follows. -/
def splitHost (inBrackets : Bool) : List Char → List Char × List Char
  | [] => ([], [])
  | c :: rest =>
    if c = ':' && !inBrackets then ([], c :: rest)
    else
      let within := if c = '[' then true else if c = ']' then false else inBrackets
      let (host, after) := splitHost within rest
      (c :: host, after)

/-- The port after a colon, unless it is the standard one, and what follows. A backslash ends it
everywhere. -/
def readPort? (standard : Option Nat) : List Char → Option (Option Nat × List Char)
  | [] => some (none, [])
  | _ :: text =>
    let digits := text.takeWhile Char.isDigit
    let rest := text.dropWhile Char.isDigit
    let value := Text.digitsValue digits
    if rest.head?.any (· ≠ '\\') || 65535 < value then none
    else some (if digits.isEmpty || standard = some value then none else some value, rest)

/-- Host and port, and what follows. Only a host without a port can be empty, and only where
schemes have no standard port. -/
def readServer? (scheme server : List Char) :
    Option (List Char × Option Nat × List Char) := do
  let (host, rest) := splitHost false server
  let standard := standardPort? scheme
  if host.isEmpty && (standard.isSome || !rest.isEmpty) then none
  let written ← if standard.isSome then Host.special? host else Host.plain? host
  let (port, rest) ← readPort? standard rest
  return (written, port, rest)

/-! ### Whole URLs -/

/-- Reads what follows two slashes. A user makes no sense without a host. -/
def readHierarchy? (scheme : List Char) (isSlash : Char → Bool) (text : List Char) :
    Option Url := do
  let (authority, rest) := spanTo isSlash text
  let (before, server) := splitUser authority
  if server.isEmpty && before == some [] then none
  let user := before.bind readUser?
  let (host, port, more) ← readServer? scheme server
  if host.isEmpty && user.isSome then none
  let segments := readPath isSlash (more ++ rest)
  let path := if (standardPort? scheme).isSome && segments.isEmpty then [[]] else segments
  return { scheme, user, host := some host, port, path := .rooted path, query := none
           fragment := none }

/-- The first segment of the path of a file: a drive is written with a colon. -/
def writeRoot (segment : List Char) : List Char :=
  if isDrive segment then segment.take 1 ++ [':'] else segment

/-- Reads the path of a file on a host from its segments. Segments without characters at its
start are dropped, and a path that starts with a drive is on no host. -/
def fileOn (host : List Char) (segments : List (List Char)) : Url :=
  let resolved := resolve writeRoot [] segments
  let path := resolved.dropWhile (·.isEmpty)
  { scheme := "file".toList, user := none
    host := some (if resolved.head?.any isDrive then [] else host), port := none
    path := .rooted (if path.isEmpty then [[]] else path), query := none, fragment := none }

/-- Reads what follows the scheme of files. The host of the machine itself is left out. -/
def readFile? (text : List Char) : Option Url := do
  let isSlash (c : Char) : Bool := c == '/' || c == '\\'
  match text with
  | a :: b :: rest =>
    if isSlash a && isSlash b then
      let (host, after) := spanTo isSlash rest
      if isDrive host then return fileOn [] (Text.splitWhere isSlash rest)
      let written ← if host.isEmpty then some [] else Host.special? host
      if written.isEmpty || written = "localhost".toList then
        return fileOn [] (Text.splitWhere isSlash after)
      return fileOn written (splitPath isSlash after)
    else return fileOn [] (splitPath isSlash text)
  | _ => return fileOn [] (splitPath isSlash text)

/-- Reads what follows a scheme, up to the query. -/
def readRest? (scheme text : List Char) : Option Url :=
  if scheme = "file".toList then readFile? text
  else if (standardPort? scheme).isSome then
    let isSlash (c : Char) : Bool := c == '/' || c == '\\'
    readHierarchy? scheme isSlash (text.dropWhile isSlash)
  else match text with
    | '/' :: '/' :: rest => readHierarchy? scheme (· == '/') rest
    | '/' :: _ =>
      some { scheme, user := none, host := none, port := none
             path := .rooted (readPath (· == '/') text), query := none, fragment := none }
    | _ =>
      some { scheme, user := none, host := none, port := none
             path := .flat (Percent.encode Percent.control text), query := none, fragment := none }

/-- Reads an absolute URL. -/
def read? (text : String) : Option Url := do
  let (scheme, rest) ← readScheme? (stripped text.toList)
  let (rest, fragment) := splitPart '#' rest
  let (rest, query) := splitPart '?' rest
  let url ← readRest? scheme rest
  let special := (standardPort? scheme).isSome || scheme = "file".toList
  return { url with
    query := query.map (Percent.encode (if special then Percent.specialQuery else Percent.query))
    fragment := fragment.map (Percent.encode Percent.fragment) }

end SourceIndex.Url
