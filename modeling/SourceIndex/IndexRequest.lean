import SourceIndex.Json.Decode
import SourceIndex.Secret

/-!
# Requests

What a caller asks for, as it reads from JSON. Every field has a standard value. Names of
strategies, formats and providers stay text here, so that an unknown name is an error of the
request's meaning and not of its form.
-/

namespace SourceIndex

/-- The tokens of a request, given together. -/
structure Credentials where
  githubToken : Option Secret
  openaiApiKey : Option Secret
deriving Repr, DecidableEq, Inhabited

/-- What a caller asks for. -/
structure IndexRequest where
  owner : String
  repo : String
  branch : String
  credentials : Credentials
  githubToken : Option Secret
  openaiApiKey : Option Secret
  embeddingProvider : String
  outputFormat : String
  /-- The most files that are selected; zero stands for no limit. -/
  maxFiles : Nat
  fileExtensions : List String
  excludePatterns : List String
  includeDocstrings : Bool
  chunkStrategy : String
deriving Repr, DecidableEq, Inhabited

namespace IndexRequest

open Json (Decoder Record)

/-- A secret is written as a string. -/
def secret : Decoder Secret := fun value => (Decoder.string value).map Secret.mk

/-- The trimmed pieces between commas that are not blank. -/
def commaList (value : String) : List String :=
  ((Text.splitWhere (· == ',') value.toList).map Text.trim).filterMap fun piece =>
    if piece.isEmpty then none else some (String.ofList piece)

/-- The text of a string value that has no fault. -/
def plainText? : Json → Option String
  | .string (.text value) => some value
  | _ => none

/-- A list of strings, or one string with commas between the entries. -/
def stringList : Decoder (List String) := fun value =>
  match value.readFault? (Json.maxDepth - 1) with
  | some fault => .error (.fault fault)
  | none =>
    let mismatch := Json.DecodeError.data "data did not match any variant of untagged enum Raw"
    match value with
    | .string (.text entries) => .ok (commaList entries)
    | .array entries =>
      match entries.mapM plainText? with
      | some texts => .ok texts
      | none => .error mismatch
    | _ => .error mismatch

/-- How credentials are read. -/
def credentialsRecord : Record Credentials :=
  Record.pure Credentials.mk
    |>.seq (.withDefault "githubToken" (.optional secret) none)
    |>.seq (.withDefault "openaiApiKey" (.optional secret) none)

/-- The standard extensions of selected files. -/
def standardExtensions : List String := [".py", ".js", ".ts", ".tsx"]

/-- The texts that paths of selected files do not contain unless a request says otherwise. -/
def standardExcludes : List String := ["node_modules", "dist", "__pycache__"]

/-- How requests are read. -/
def record : Record IndexRequest :=
  Record.pure IndexRequest.mk
    |>.seq (.withDefault "owner" .string "")
    |>.seq (.withDefault "repo" .string "")
    |>.seq (.withDefault "branch" .string "main")
    |>.seq (.withDefault "credentials" (credentialsRecord.decoder "Credentials") ⟨none, none⟩)
    |>.seq (.withDefault "githubToken" (.optional secret) none)
    |>.seq (.withDefault "openaiApiKey" (.optional secret) none)
    |>.seq (.withDefault "embeddingProvider" .string "local")
    |>.seq (.withDefault "outputFormat" .string "full")
    |>.seq (.withDefault "maxFiles" (.nat "usize") 0)
    |>.seq (.withDefault "fileExtensions" stringList standardExtensions)
    |>.seq (.withDefault "excludePatterns" stringList standardExcludes)
    |>.seq (.withDefault "includeDocstrings" .bool true)
    |>.seq (.withDefault "chunkStrategy" .string "function")

/-- Reads a request from a document. -/
def ofDocument (document : Json.Document) : Except Json.DecodeError IndexRequest :=
  document.decode (record.decoder "IndexRequest")

/-- Reads a request from its text. -/
def ofText (text : String) : Except Json.DecodeError IndexRequest :=
  ofDocument (.ofString text)

end IndexRequest

end SourceIndex
