-- Settings: what holds for every API that is assembled on one machine, and how the
-- program logs.
import RestContract.Policy.Cors

namespace RestContract

/-- How log lines are written. -/
inductive LogFormat where
  | json
  | pretty
  deriving DecidableEq, Repr, Inhabited

namespace LogFormat

def name : LogFormat → String
  | json => "json"
  | pretty => "pretty"

def names : List (String × LogFormat) := [json, pretty].map fun f => (f.name, f)

end LogFormat

structure ApiSettings where
  name : String := "RestApi"
  stageName : String := "dev"
  /-- Request validators check the body. -/
  validateRequestBody : Bool := true
  /-- Request validators check the parameters. -/
  validateRequestParameters : Bool := true
  deriving DecidableEq, Repr

structure LogSettings where
  enabled : Bool := true
  /-- A level, or directives of a filter. -/
  level : String := "info"
  format : LogFormat := .json
  /-- Colours in pretty lines. -/
  ansiEnabled : Bool := false
  /-- Lines name the file and line of their origin. -/
  includeLocation : Bool := false
  deriving DecidableEq, Repr

structure Settings where
  api : ApiSettings := {}
  logging : LogSettings := {}
  /-- The CORS options of APIs that declare none. -/
  cors : Option CorsOptions := none
  deriving DecidableEq, Repr

/-! ## Presets -/

namespace Settings

/-- Settings for development: pretty lines with everything in them. -/
def development : Settings :=
  { logging := { level := "debug", format := .pretty, ansiEnabled := true, includeLocation := true } }

def production : Settings := { api := { stageName := "prod" } }

end Settings

/-! ## Writing and reading -/

namespace ApiSettings

def toJson (s : ApiSettings) : Json :=
  .obj [("name", .str s.name), ("stage_name", .str s.stageName),
    ("validate_request_body", .bool s.validateRequestBody),
    ("validate_request_parameters", .bool s.validateRequestParameters)]

open Shape

/-- Settings as an object without unknown fields, or an array. -/
def shape : Shape ApiSettings := fun v => do
  let fs ← fields ["name", "stage_name", "validate_request_body", "validate_request_parameters"]
    true v
  let default : ApiSettings := {}
  return {
    name := ← withDefault fs "name" default.name text
    stageName := ← withDefault fs "stage_name" default.stageName text
    validateRequestBody := ← withDefault fs "validate_request_body" true flag
    validateRequestParameters := ← withDefault fs "validate_request_parameters" true flag }

end ApiSettings

namespace LogSettings

def toJson (s : LogSettings) : Json :=
  .obj [("enabled", .bool s.enabled), ("level", .str s.level), ("format", .str s.format.name),
    ("ansi_enabled", .bool s.ansiEnabled), ("include_location", .bool s.includeLocation)]

open Shape

/-- Settings as an object without unknown fields, or an array. The first argument decides
which values say nothing beside the name of a format. -/
def shape (blank : Json → Bool) : Shape LogSettings := fun v => do
  let fs ← fields ["enabled", "level", "format", "ansi_enabled", "include_location"] true v
  let default : LogSettings := {}
  return {
    enabled := ← withDefault fs "enabled" true flag
    level := ← withDefault fs "level" default.level text
    format := ← withDefault fs "format" .json (choice blank LogFormat.names)
    ansiEnabled := ← withDefault fs "ansi_enabled" false flag
    includeLocation := ← withDefault fs "include_location" false flag }

end LogSettings

namespace Settings

def toJson (s : Settings) : Json :=
  .obj ([("api", s.api.toJson), ("logging", s.logging.toJson)] ++
    Json.given "cors" CorsOptions.toJson s.cors)

open Shape

/-- Settings as an object without unknown fields, or an array. The first argument decides
which values say nothing beside the name of a log format. -/
def shape (blank : Json → Bool) : Shape Settings := fun v => do
  let fs ← fields ["api", "logging", "cors"] true v
  return {
    api := ← withDefault fs "api" {} ApiSettings.shape
    logging := ← withDefault fs "logging" {} (LogSettings.shape blank)
    cors := ← maybe fs "cors" CorsOptions.shape }

end Settings

end RestContract
