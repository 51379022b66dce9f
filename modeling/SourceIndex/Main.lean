import SourceIndex.CommandLine
import SourceIndex.Http.Recording
import SourceIndex.SyntaxTree.Reader

/-!
# The program

Reads what the command needs from its surroundings, and prints what the command says. Services
answer from a recording, a file of replies and syntax trees; without one no service is reached.
-/

namespace SourceIndex.Program

/-- The variable that names the file of the recording. -/
def recordingVariable : String := "REPODEX_RECORDING"

/-- The environment variables that the command looks at. -/
def variableNames : List String :=
  ["GITHUB_TOKEN", "OPENAI_API_KEY", "REPODEX_CONFIG", "REPODEX_GITHUB_API_URL",
   "REPODEX_GITHUB_TIMEOUT_SECS", "REPODEX_GITHUB_MAX_RETRIES", "REPODEX_GITHUB_MAX_BACKOFF_SECS",
   "REPODEX_GITHUB_CONCURRENCY", "REPODEX_GITHUB_MAX_FILE_BYTES", "REPODEX_OPENAI_BASE_URL",
   "REPODEX_OPENAI_MODEL", "REPODEX_LOCAL_MODEL", "REPODEX_EMBED_BATCH_SIZE",
   "REPODEX_EMBED_BATCH_CHARS", "REPODEX_EMBED_MAX_INPUT_CHARS", "REPODEX_EMBED_CONCURRENCY",
   "REPODEX_EMBED_MAX_RETRIES", "REPODEX_EMBED_TIMEOUT_SECS", "REPODEX_EMBED_LOCAL_WORKERS",
   "REPODEX_EMBED_CONTEXTUALIZE", recordingVariable]

/-- The values of the variables that are set. -/
def readEnvironment : IO Environment := do
  let found ← variableNames.filterMapM fun name => do return (← IO.getEnv name).map (name, ·)
  return fun name => found.lookup name

/-- The text of some bytes. -/
def textOf (bytes : ByteArray) : File :=
  match String.fromUTF8? bytes with
  | some text => .ok text
  | none => .error .notText

/-- Reads a file. -/
def readFile (path : String) : IO File := do
  try
    return textOf (← IO.FS.readBinFile path)
  catch
    | .inappropriateType _ code _ =>
      return .error (if code = 20 then .notDirectory else .directory)
    | _ => return .error .missing

/-- Reads standard input to its end. -/
partial def readInput (input : IO.FS.Stream) (before : ByteArray) : IO File := do
  let more ← input.read 65536
  if more.isEmpty then return textOf before
  readInput input (before ++ more)

/-- The world and the syntax trees of a recording. -/
def readRecording (environment : Environment) : IO (Http.World × (SourceFile → Parse)) := do
  match environment recordingVariable with
  | none => return (.unreachable Http.World.patient, fun _ => .withErrors)
  | some path =>
    let json := match ← readFile path with
      | .ok text => (Json.Document.ofString text).value
      | .error _ => .null
    let trees := json.membersAt "trees"
    return ((Http.Recording.ofJson json).world Http.World.patient,
      fun file => Parse.ofRecorded trees file.path)

/-- The files that a run may read, with their paths. -/
def readFiles (options : CommandLine.Options) (environment : Environment) :
    IO (List (String × File)) :=
  (CommandLine.configPath options environment :: options.input.toList).mapM fun path =>
    return (path, ← readFile path)

/-- Runs the command with what it finds around it. -/
def run (arguments : List String) : IO CommandLine.Ending := do
  let environment ← readEnvironment
  let (world, parse) ← readRecording environment
  let (files, standardInput) ← match CommandLine.Command.read arguments with
    | .run options =>
      pure (← readFiles options environment, ← readInput (← IO.getStdin) .empty)
    | _ => pure ([], .ok "")
  let surroundings : CommandLine.Surroundings :=
    { environment, standardInput, processors := 1, world, parse
      fileAt := fun path => (files.lookup path).getD (.error .missing) }
  return (CommandLine.respond arguments surroundings).1

end SourceIndex.Program

/-- The program. -/
def main (arguments : List String) : IO UInt32 := do
  let ending ← SourceIndex.Program.run arguments
  IO.print ending.output
  return UInt32.ofNat ending.status
