-- Overrides: environment variables that set single settings. Each recognised variable has
-- a setting of its own and touches no other, apart from creating the CORS options.
import RestContract.Settings.Basic
import RestContract.Settings.Error
import RestContract.Text.Blank
import RestContract.Variables.Basic

namespace RestContract

/-! ## The settings that variables set -/

/-- A setting that a variable may override. -/
inductive Overridable where
  | apiName
  | stageName
  | validateRequestBody
  | validateRequestParameters
  | logEnabled
  | logLevel
  | logFormat
  | logAnsi
  | logLocation
  | corsOrigins
  | corsHeaders
  | corsCredentials
  | corsMaxAge
  deriving DecidableEq, Repr

namespace Overridable

def all : List Overridable :=
  [apiName, stageName, validateRequestBody, validateRequestParameters, logEnabled, logLevel,
    logFormat, logAnsi, logLocation, corsOrigins, corsHeaders, corsCredentials, corsMaxAge]

/-- The section of a setting, as the names of variables have it. -/
def group : Overridable → String
  | apiName | stageName | validateRequestBody | validateRequestParameters => "API"
  | logEnabled | logLevel | logFormat | logAnsi | logLocation => "LOGGING"
  | corsOrigins | corsHeaders | corsCredentials | corsMaxAge => "CORS"

/-- The key of a setting in its section, as the names of variables have it. -/
def key : Overridable → String
  | apiName => "NAME"
  | stageName => "STAGE_NAME"
  | validateRequestBody => "VALIDATE_REQUEST_BODY"
  | validateRequestParameters => "VALIDATE_REQUEST_PARAMETERS"
  | logEnabled => "ENABLED"
  | logLevel => "LEVEL"
  | logFormat => "FORMAT"
  | logAnsi => "ANSI_ENABLED"
  | logLocation => "INCLUDE_LOCATION"
  | corsOrigins => "ALLOW_ORIGINS"
  | corsHeaders => "ALLOW_HEADERS"
  | corsCredentials => "ALLOW_CREDENTIALS"
  | corsMaxAge => "MAX_AGE_SECS"

/-- What stands behind the common beginning of the names of all variables. -/
def suffix (o : Overridable) : String := "__" ++ o.group ++ "__" ++ o.key

/-- What divides the words of a name. -/
def separator : List Char := ['_', '_']

/-- The words of a text, with a separator between two of them. A single underscore is part of
a word. -/
def words : List Char → List (List Char)
  | [] => [[]]
  | '_' :: '_' :: cs => [] :: words cs
  | c :: cs =>
    match words cs with
    | w :: ws => (c :: w) :: ws
    | [] => [[c]]

/-- The setting with a section and a key. -/
def ofWords? (ws : List (List Char)) : Option Overridable :=
  all.find? fun o => ws == [o.group.toList, o.key.toList]

/-- The setting of a variable, given the beginning of all names: what is left behind the
beginning and a separator are a section and a key. -/
def ofVariable? (beginning name : String) : Option Overridable := do
  let rest ← List.isPrefixOf? beginning.toList name.toList
  let rest ← List.isPrefixOf? separator rest
  ofWords? (words rest)

/-- What is said about a value that does not fit the setting. -/
def expectation : Overridable → String
  | logFormat => "expected 'json' or 'pretty'"
  | corsMaxAge => "expected integer"
  | _ => "expected boolean"

end Overridable

/-! ## Values -/

namespace Override

/-- A word that says yes or no, in any case. -/
def readFlag? (value : String) : Option Bool :=
  [("true", true), ("1", true), ("yes", true), ("on", true),
    ("false", false), ("0", false), ("no", false), ("off", false)].lookup (value.map Char.toLower)

/-- The name of a log format, in any case. -/
def readFormat? (value : String) : Option LogFormat :=
  LogFormat.names.lookup (value.map Char.toLower)

/-- A whole number of 64 bits; a plus sign may stand in front. -/
def readNat? (value : String) : Option Nat :=
  let cs := value.toList
  let digits := if cs.head? == some '+' then cs.drop 1 else cs
  if digits.isEmpty || !digits.all Char.isDigit then none
  else
    let n := digits.foldl (fun n c => n * 10 + (c.toNat - '0'.toNat)) 0
    if n ≤ maxUInt64 then some n else none

/-- The parts between commas, without blanks around them and without empty ones. -/
def readList (value : String) : List String :=
  ((value.splitOn ",").map Text.trim).filter (· != "")

end Override

/-! ## Setting one value -/

namespace Settings

open Override

/-- The settings with a change to the CORS options, which are there from then on. -/
def withCors (s : Settings) (change : CorsOptions → CorsOptions) : Settings :=
  { s with cors := some (change (s.cors.getD {})) }

/-- The settings with one of them read from a value; nothing if the value does not fit. -/
def set? (s : Settings) (o : Overridable) (value : String) : Option Settings :=
  match o with
  | .apiName => some { s with api := { s.api with name := value } }
  | .stageName => some { s with api := { s.api with stageName := value } }
  | .validateRequestBody =>
    (readFlag? value).map fun b => { s with api := { s.api with validateRequestBody := b } }
  | .validateRequestParameters =>
    (readFlag? value).map fun b => { s with api := { s.api with validateRequestParameters := b } }
  | .logEnabled =>
    (readFlag? value).map fun b => { s with logging := { s.logging with enabled := b } }
  | .logLevel => some { s with logging := { s.logging with level := value } }
  | .logFormat =>
    (readFormat? value).map fun f => { s with logging := { s.logging with format := f } }
  | .logAnsi =>
    (readFlag? value).map fun b => { s with logging := { s.logging with ansiEnabled := b } }
  | .logLocation =>
    (readFlag? value).map fun b => { s with logging := { s.logging with includeLocation := b } }
  | .corsOrigins => some (s.withCors fun c => { c with allowOrigins := readList value })
  | .corsHeaders => some (s.withCors fun c => { c with allowHeaders := readList value })
  | .corsCredentials =>
    (readFlag? value).map fun b => s.withCors fun c => { c with allowCredentials := b }
  | .corsMaxAge =>
    (readNat? value).map fun n => s.withCors fun c => { c with maxAgeSecs := some n }

/-- The settings under one variable. A variable that sets nothing is passed over. -/
def underVariable (beginning : String) (s : Settings) (v : String × String) :
    Except SettingsError Settings :=
  match Overridable.ofVariable? beginning v.1 with
  | none => .ok s
  | some o =>
    match s.set? o v.2 with
    | some s => .ok s
    | none => .error (.override v.1 o.expectation)

/-- The settings under variables, taken in the order of their names. -/
def underVariables (s : Settings) (beginning : String) (vars : Variables) :
    Except SettingsError Settings :=
  vars.sorted.foldlM (underVariable beginning) s

end Settings

end RestContract
