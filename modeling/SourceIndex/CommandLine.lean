import SourceIndex.Json.Writer
import SourceIndex.Run.Pipeline
import SourceIndex.Run.Record
import SourceIndex.Settings.Load

/-!
# The command line

The command reads its settings and one request, runs the request, and prints one line of JSON:
the result or an error record. The exit status tells a result from an error, and a cancelled run
from the other errors.
-/

namespace SourceIndex.CommandLine

/-! ### Arguments -/

/-- What the arguments of a run say. -/
structure Options where
  /-- The path of the settings file. -/
  config : Option String
  /-- The path of the request. -/
  input : Option String
deriving Repr, DecidableEq

/-- What the arguments ask for. -/
inductive Command where
  | run (options : Options)
  | version
  | help
  /-- The arguments make no sense. -/
  | misuse
deriving Repr, DecidableEq

/-- An option with a value. -/
inductive OptionName where
  | config
  | input
deriving Repr, DecidableEq

namespace OptionName

/-- The option that an argument names. -/
def ofArgument? : String → Option OptionName
  | "--config" => some config
  | "--input" => some input
  | _ => none

/-- The option that an argument names, with the value after an equals sign. -/
def withValue? (argument : String) : Option (OptionName × String) :=
  match argument.toList.span (· != '=') with
  | (name, _ :: value) => (ofArgument? (String.ofList name)).map (·, String.ofList value)
  | (_, []) => none

end OptionName

namespace Options

/-- Gives an option its value. A value must not be empty, and no option has two of them. -/
def set? (options : Options) (name : OptionName) (value : String) : Option Options :=
  if value.isEmpty then none
  else match name with
    | .config => if options.config.isSome then none else some { options with config := some value }
    | .input => if options.input.isSome then none else some { options with input := some value }

/-- Whether an argument can be the value of the option before it. -/
def isValue (argument : String) : Bool :=
  argument == "-" || argument.toList.head? != some '-'

end Options

namespace Command

/-- What an argument that is no option with a value asks for. -/
def ofFlag (argument : String) : Command :=
  match argument.toList with
  | '-' :: '-' :: name =>
    match String.ofList name with
    | "version" => version
    | "help" => help
    | _ => misuse
  | '-' :: 'V' :: _ => version
  | '-' :: 'h' :: _ => help
  | _ => misuse

/-- Reads arguments, given the options before them. -/
def readFrom (options : Options) : List String → Command
  | [] => run options
  | argument :: rest =>
    match OptionName.withValue? argument, OptionName.ofArgument? argument, rest with
    | some (name, value), _, rest =>
      match options.set? name value with
      | some more => readFrom more rest
      | none => misuse
    | none, some name, value :: rest =>
      match if Options.isValue value then options.set? name value else none with
      | some more => readFrom more rest
      | none => misuse
    | none, some _, [] => misuse
    | none, none, rest => if argument = "--" ∧ rest = [] then run options else ofFlag argument

/-- Reads the arguments of the command. -/
def read (arguments : List String) : Command := readFrom { config := none, input := none } arguments

end Command

/-! ### A run -/

/-- Where the command is run. -/
structure Surroundings where
  environment : Environment
  fileAt : String → File
  standardInput : File
  /-- The number of processors. -/
  processors : Nat
  world : Http.World
  /-- The syntax tree of a file. -/
  parse : SourceFile → Parse

/-- The path of the settings file. -/
def configPath (options : Options) (environment : Environment) : String :=
  (options.config <|> environment "REPODEX_CONFIG").getD "repodex.toml"

/-- Whether the path of the request stands for standard input. -/
def isStandardInput (path : String) : Bool :=
  path.toList.head? == some '-' &&
    (Text.splitWhere (· == '/') path.toList).filter (fun part => part != [] && part != ['.']) ==
      [['-']]

/-- The text of the request. -/
def requestText (options : Options) (surroundings : Surroundings) : Except RunError String :=
  let fromInput := surroundings.standardInput.mapError fun cause =>
    .internal ("cannot read stdin: " ++ cause.message)
  match options.input with
  | none => fromInput
  | some path =>
    if isStandardInput path then fromInput
    else (surroundings.fileAt path).mapError fun cause =>
      .config ("cannot read " ++ path ++ ": " ++ cause.message)

/-- Reads a request. -/
def readRequest (text : String) : Except RunError IndexRequest :=
  (IndexRequest.ofText text).mapError fun error => .config ("invalid request: " ++ error.message)

/-- The settings and the request of a run. -/
def prepare (options : Options) (surroundings : Surroundings) :
    Except RunError (Settings × IndexRequest) := do
  let file := surroundings.fileAt (configPath options surroundings.environment)
  let settings ← (Settings.load surroundings.processors surroundings.environment file).mapError
    fun error => .config error.explained
  let request ← readRequest (← requestText options surroundings)
  return (settings, request)

/-- Runs the request, and returns the session in which it was run. -/
def execute (options : Options) (surroundings : Surroundings) :
    Except RunError RunResult × Http.Session :=
  let session := Http.Session.start false
  match prepare options surroundings with
  | .error error => (.error error, session)
  | .ok (settings, request) =>
    let (result, state) := request.run surroundings.environment
      { settings, parse := surroundings.parse } surroundings.world { session, standIn := none }
    (result, state.session)

/-! ### What is printed -/

/-- How the command ends. -/
structure Ending where
  status : Nat
  /-- What is written to standard output. -/
  output : String
deriving Repr, DecidableEq

/-- The exit status for an error. -/
def errorStatus : RunError → Nat
  | .cancelled => 130
  | _ => 1

/-- Prints a result or an error. -/
def print : Except RunError RunResult → Ending
  | .ok result => { status := 0, output := result.record.render ++ "\n" }
  | .error error => { status := errorStatus error, output := error.payload.render ++ "\n" }

/-- What the command tells about its use. -/
def helpText : String :=
  "Usage: repodex [OPTIONS]\n\nOptions:\n" ++
    "      --config <CONFIG>  Settings file (TOML). Missing files fall back to defaults\n" ++
    "      --input <INPUT>    Read the request from this file instead of stdin (`-` for stdin)\n" ++
    "  -h, --help             Print help\n" ++
    "  -V, --version          Print version\n"

/-- Runs the command. -/
def respond (arguments : List String) (surroundings : Surroundings) : Ending × Http.Session :=
  match Command.read arguments with
  | .run options =>
    let (result, session) := execute options surroundings
    (print result, session)
  | .version => ({ status := 0, output := "repodex 0.3.0\n" }, .start false)
  | .help => ({ status := 0, output := helpText }, .start false)
  | .misuse => ({ status := 2, output := "" }, .start false)

end SourceIndex.CommandLine
