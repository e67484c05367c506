-- What the command line program does: it loads the settings, runs one command, and says
-- what it prints, which file it writes and with which code it ends.
import RestContract.Assembly.Routes
import RestContract.CommandLine.Arguments
import RestContract.Json.Reader
import RestContract.Manifest.Basic
import RestContract.Settings.Loading

namespace RestContract.CommandLine

def programName : String := "portico"

def programVersion : String := "0.1.0"

/-- The beginning of the names of variables that override settings. -/
def variableBeginning : String := "PORTICO"

/-- The file of the settings that is read if it is there and no other is named. -/
def defaultConfig : String := "portico.toml"

/-! ## Settings -/

/-- The layers of the settings of an invocation. -/
def Invocation.layers (i : Invocation) : List Layer :=
  [.dotenv, (i.config.map .file).getD (.optionalFile defaultConfig), .overrides variableBeginning]

/-- The paths that an invocation looks at. -/
def Invocation.paths (i : Invocation) : List String :=
  [dotenvPath, i.config.getD defaultConfig, match i.command with
    | .assemble path .. | .schema path _ | .tree path => path]

/-- The level of the log that is asked for, if any is. -/
def Invocation.logLevel? (i : Invocation) : Option String :=
  match i.verbosity with
  | 0 => none
  | 1 => some "debug"
  | _ => some "trace"

/-- The settings with the level of the log that an invocation asks for. -/
def Invocation.adjust (i : Invocation) (s : Settings) : Settings :=
  { s with logging := { s.logging with level := i.logLevel?.getD s.logging.level } }

/-- The settings of an invocation, given what paths lead to and the environment. -/
def Invocation.settings (i : Invocation) (look : String → Found) (environment : Variables) :
    Except SettingsError Settings := do
  let loader ← i.layers.foldlM (Loader.apply look) { environment }
  let settings ← loader.load
  return i.adjust settings

/-! ## Outcomes -/

def exitSuccess : Nat := 0

def exitFailure : Nat := 1

/-- The exit code of arguments or settings that do not fit. -/
def exitMisuse : Nat := 2

/-- How the program ends. -/
inductive Outcome where
  /-- It prints a text and ends with a code. -/
  | print (code : Nat) (output : String)
  /-- It writes a text to a file, and succeeds if that does. -/
  | write (path content : String) (methods : Nat)
  deriving DecidableEq, Repr

/-- What the program does, with what it tells the log and the settings for that. -/
structure Run where
  outcome : Outcome
  logging : LogSettings := {}
  events : List Event := []
  /-- What is wrong with the arguments or the settings. -/
  complaint : Option String := none

/-- The text that explains the arguments. -/
def usage : String :=
  "Usage: portico [OPTIONS] <COMMAND>\n\n" ++
  "Commands:\n" ++
  "  assemble <MANIFEST> [-o <OUTPUT>] [--pretty]\n" ++
  "  schema <FILE> [--model]\n" ++
  "  tree <MANIFEST>\n" ++
  "  help\n\n" ++
  "Options:\n" ++
  "  -v, --verbose...\n" ++
  "      --config <CONFIG>\n" ++
  "  -h, --help\n" ++
  "  -V, --version\n"

/-- What the program does without a command. -/
def Refusal.run : Refusal → Run
  | .help => { outcome := .print exitSuccess usage }
  | .version =>
    { outcome := .print exitSuccess (programName ++ " " ++ programVersion ++ "\n") }
  | .misuse => { outcome := .print exitMisuse "", complaint := some usage }

/-! ## Commands -/

/-- The contract of the manifest of a file, and what was told; an error has a message. -/
def assembleFile (look : String → Found) (s : Settings) (path : String) :
    Except String Contract × List Event :=
  match (Manifest.ofFile look path).outcome with
  | (.error e, events) => (.error ("failed to load manifest " ++ path ++ ": " ++ e.message), events)
  | (.ok manifest, events) =>
    let assembly := (manifest.declaration s).assembly
    (assembly.result.mapError fun e => "failed to assemble " ++ path ++ ": " ++ e.message,
      events ++ assembly.events)

def contractText (pretty : Bool) (c : Contract) : String :=
  if pretty then c.toJson.pretty else c.toJson.compact

/-- The document of a type schema. That of a model is marked with its draft at the end. -/
def schemaDocument (model : Bool) (s : TypeSchema) : Except SchemaError Json :=
  if model then do
    let d ← s.convertModel
    return .obj (d.entries ++ [("$schema", .str schemaDraft)])
  else do
    let d ← s.convert
    return d.toJson

/-- The document of the type schema in a file; an error has a message. -/
def convertFile (found : Found) (path : String) (model : Bool) : Except String Json :=
  match found.text? with
  | none => .error ("failed to read " ++ path)
  | some text =>
    match (Json.read? text).bind TypeSchema.shape with
    | none => .error "invalid type schema"
    | some s => (schemaDocument model s).mapError SchemaError.message

/-- What a command does, and what it tells. -/
def Command.run (look : String → Found) (s : Settings) :
    Command → Except String Outcome × List Event
  | .assemble manifest output pretty =>
    let (result, events) := assembleFile look s manifest
    (result.map fun c =>
      let text := contractText pretty c ++ "\n"
      match output with
      | some path => .write path text c.methodCount
      | none => .print exitSuccess text, events)
  | .schema file model =>
    ((convertFile (look file) file model).map fun d => .print exitSuccess (d.pretty ++ "\n"), [])
  | .tree manifest =>
    let (result, events) := assembleFile look s manifest
    (result.map fun c => .print exitSuccess (ResourceTree.outline c.resources), events)

/-- What the program does for an invocation. -/
def Invocation.run (i : Invocation) (look : String → Found) (environment : Variables) : Run :=
  match i.settings look environment with
  | .error e => { outcome := .print exitMisuse "", complaint := some ("error: " ++ e.message) }
  | .ok s =>
    let started := [.starting s.api.name s.api.stageName]
    match i.command.run look s with
    | (.ok outcome, events) => { outcome, logging := s.logging, events := started ++ events }
    | (.error message, events) =>
      { outcome := .print exitFailure ""
        logging := s.logging
        events := started ++ events ++ [.commandFailed message] }

/-- What the program does for its arguments. -/
def run (args : List String) (look : String → Found) (environment : Variables) : Run :=
  match parse args with
  | .ok i => i.run look environment
  | .error refusal => refusal.run

/-- The exit code after a file was written or not. -/
def codeAfterWrite (written : Bool) : Nat := if written then exitSuccess else exitFailure

/-- What is told after a file was written or not. -/
def eventAfterWrite (written : Bool) (path : String) (methods : Nat) : Event :=
  if written then .descriptorWritten path methods
  else .commandFailed ("failed to write " ++ path)

end RestContract.CommandLine
