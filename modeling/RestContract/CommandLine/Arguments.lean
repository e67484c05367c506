-- The arguments of the command line program. Options of the program may stand in front of
-- the command or behind it; there they win.
namespace RestContract.CommandLine

/-- What the program is asked to do. -/
inductive Command where
  /-- Assembles a manifest and writes the contract. -/
  | assemble (manifest : String) (output : Option String) (pretty : Bool)
  /-- Converts a type schema, as the schema of a model or as it is. -/
  | schema (file : String) (model : Bool)
  /-- Prints the tree of the resources of a manifest. -/
  | tree (manifest : String)
  deriving DecidableEq, Repr

/-- A command with the options of the program. -/
structure Invocation where
  /-- How often more lines of the log are asked for. -/
  verbosity : Nat := 0
  /-- The file of the settings. -/
  config : Option String := none
  command : Command
  deriving DecidableEq, Repr

/-- Why no command is run. -/
inductive Refusal where
  /-- The help is asked for. -/
  | help
  /-- The version is asked for. -/
  | version
  /-- The arguments do not fit. -/
  | misuse
  deriving DecidableEq, Repr

/-! ## Options -/

/-- The kind of a command. -/
inductive CommandKind where
  | assemble
  | schema
  | tree
  deriving DecidableEq, Repr

def CommandKind.names : List (String × CommandKind) :=
  [("assemble", assemble), ("schema", schema), ("tree", tree)]

/-- An option. -/
inductive Flag where
  | verbose
  | config
  | help
  | version
  | output
  | pretty
  | model
  deriving DecidableEq, Repr

namespace Flag

def takesValue : Flag → Bool
  | config | output => true
  | _ => false

/-- The option may stand there: in front of a command, or behind one of a kind. -/
def isKnown : Flag → Option CommandKind → Bool
  | verbose, _ | config, _ | help, _ => true
  | version, place => place.isNone
  | output, place | pretty, place => place == some .assemble
  | model, place => place == some .schema

def longNames : List (String × Flag) :=
  [("verbose", verbose), ("config", config), ("help", help), ("version", version),
    ("output", output), ("pretty", pretty), ("model", model)]

def shortNames : List (Char × Flag) :=
  [('v', verbose), ('h', help), ('V', version), ('o', output)]

def ofLong? (place : Option CommandKind) (name : String) : Option Flag :=
  (longNames.lookup name).filter (·.isKnown place)

def ofShort? (place : Option CommandKind) (name : Char) : Option Flag :=
  (shortNames.lookup name).filter (·.isKnown place)

end Flag

/-! ## One place -/

/-- What was given in front of the command, or behind it. -/
structure Given where
  verbosity : Nat := 0
  config : Option String := none
  output : Option String := none
  pretty : Bool := false
  model : Bool := false
  /-- The path that a command works on. -/
  path : Option String := none
  deriving DecidableEq, Repr

namespace Given

/-- A value given once; it must not be empty. -/
def once (old : Option String) (value : String) : Except Refusal (Option String) :=
  if old.isSome || value.isEmpty then .error .misuse else .ok (some value)

/-- A flag given once. -/
def onceFlag (old : Bool) : Except Refusal Bool := if old then .error .misuse else .ok true

/-- One more option without a value. -/
def addFlag (g : Given) : Flag → Except Refusal Given
  | .verbose => .ok { g with verbosity := g.verbosity + 1 }
  | .help => .error .help
  | .version => .error .version
  | .pretty => do return { g with pretty := ← onceFlag g.pretty }
  | .model => do return { g with model := ← onceFlag g.model }
  | .config | .output => .error .misuse

/-- One more option with its value. -/
def addValue (g : Given) (value : String) : Flag → Except Refusal Given
  | .config => do return { g with config := ← once g.config value }
  | .output => do return { g with output := ← once g.output value }
  | _ => .error .misuse

def addPath (g : Given) (path : String) : Except Refusal Given := do
  return { g with path := ← once g.path path }

end Given

/-- What an argument is by its beginning. -/
inductive ArgumentShape where
  /-- Two dashes alone: what follows is no option. -/
  | separator
  /-- A long name, with a value behind an equals sign. -/
  | long (name : String) (value : Option String)
  /-- Short names in a row. -/
  | short (names : List Char)
  | plain

/-- The shape of an argument. -/
def ArgumentShape.of (arg : String) : ArgumentShape :=
  match arg.toList with
  | ['-', '-'] => separator
  | '-' :: '-' :: cs =>
    match cs.span (· != '=') with
    | (name, _ :: value) => long (String.ofList name) (some (String.ofList value))
    | (name, []) => long (String.ofList name) none
  | '-' :: c :: cs => short (c :: cs)
  | _ => plain

/-- Short options in a row. One that takes a value takes the rest, without an equals sign
in front; it is left over if there is no rest. -/
def readShort (place : Option CommandKind) (g : Given) :
    List Char → Except Refusal (Given × Option Flag)
  | [] => .ok (g, none)
  | c :: cs =>
    match Flag.ofShort? place c with
    | none => .error .misuse
    | some flag =>
      if flag.takesValue then
        match cs with
        | [] => .ok (g, some flag)
        | '=' :: cs => (g.addValue (String.ofList cs) flag).map (·, none)
        | cs => (g.addValue (String.ofList cs) flag).map (·, none)
      else do readShort place (← g.addFlag flag) cs

/-- Reads the options ahead up to something that is none: what was given, and the arguments
from there on. A value must not look like an option. -/
def readOptions (place : Option CommandKind) (g : Given) :
    List String → Except Refusal (Given × List String)
  | [] => .ok (g, [])
  | arg :: args =>
    match ArgumentShape.of arg with
    | .separator | .plain => .ok (g, arg :: args)
    | .long name value =>
      match Flag.ofLong? place name, value with
      | none, _ => .error .misuse
      | some flag, some value => do readOptions place (← g.addValue value flag) args
      | some flag, none =>
        if flag.takesValue then readValue flag g args
        else do readOptions place (← g.addFlag flag) args
    | .short names => do
      match ← readShort place g names with
      | (g, none) => readOptions place g args
      | (g, some flag) => readValue flag g args
where
  /-- Reads on from the value of an option. -/
  readValue (flag : Flag) (g : Given) : List String → Except Refusal (Given × List String)
    | [] => .error .misuse
    | value :: args =>
      match ArgumentShape.of value with
      | .plain => do readOptions place (← g.addValue value flag) args
      | _ => .error .misuse

/-! ## The whole line -/

/-- The arguments behind a command. -/
def readCommandArguments (kind : CommandKind) : Nat → Given → List String → Except Refusal Given
  | 0, _, _ => .error .misuse
  | fuel + 1, g, args => do
    match ← readOptions (some kind) g args with
    | (g, []) => return g
    | (g, arg :: args) =>
      match ArgumentShape.of arg with
      | .separator => args.foldlM Given.addPath g
      | _ => readCommandArguments kind fuel (← g.addPath arg) args

/-- The command of a kind with what was given behind it. -/
def commandOf (kind : CommandKind) (g : Given) : Except Refusal Command :=
  match g.path with
  | none => .error .misuse
  | some path =>
    match kind with
    | .assemble => .ok (.assemble path g.output g.pretty)
    | .schema => .ok (.schema path g.model)
    | .tree => .ok (.tree path)

/-- The name of the command that explains the others. -/
def helpName : String := "help"

/-- Help is asked for about the program or about one of its commands. -/
def readHelp : List String → Refusal
  | [] => .help
  | name :: names =>
    if name == helpName then readHelp names
    else if (CommandKind.names.lookup name).isSome && names.isEmpty then .help
    else .misuse

/-- The invocation that arguments describe. -/
def parse (args : List String) : Except Refusal Invocation := do
  match ← readOptions none {} args with
  | (_, []) => throw .misuse
  | (before, name :: args) =>
    if name == helpName then throw (readHelp args)
    match CommandKind.names.lookup name with
    | none => throw .misuse
    | some kind =>
      let behind ← readCommandArguments kind (args.length + 1) {} args
      return {
        verbosity := if behind.verbosity = 0 then before.verbosity else behind.verbosity
        config := behind.config <|> before.config
        command := ← commandOf kind behind }

end RestContract.CommandLine
