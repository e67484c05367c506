-- Loading: layers are put one on the other. A preset or a text replaces the settings so
-- far, files of variables add variables, and in the end the variables override single
-- settings and the result is checked.
import RestContract.Files
import RestContract.Json.Reader
import RestContract.Settings.Override
import RestContract.Settings.Validation
import RestContract.Text.Uppercase
import RestContract.Toml.Reader
import RestContract.Variables.Assignment

namespace RestContract

/-! ## Texts -/

namespace Settings

/-- An empty container: what says nothing beside the name of a log format in TOML. -/
def isEmptyContainer : Json → Bool
  | .arr [] | .obj [] => true
  | _ => false

def parse (text : String) : SettingsFormat → Except SettingsError Settings
  | .toml =>
    match (Toml.read? text).bind (shape isEmptyContainer) with
    | some s => .ok s
    | none => .error (.malformed .toml)
  | .json =>
    match (Json.read? text).bind (shape Shape.isNull) with
    | some s => .ok s
    | none => .error (.malformed .json)

end Settings

/-! ## Layers -/

/-- A layer of settings. -/
inductive Layer where
  | development
  | production
  /-- A text in a format with a name. -/
  | text (content format : String)
  /-- A file; its extension names the format. -/
  | file (path : String)
  /-- A file, if it is there. -/
  | optionalFile (path : String)
  /-- The beginning of the names of variables that override settings, in any case. -/
  | overrides (beginning : String)
  /-- The file `.env`, if it is there. Faults in it do not count. -/
  | dotenv
  /-- A file of variables. -/
  | dotenvFile (path : String)
  deriving DecidableEq, Repr

/-- The name of the file of variables that is looked for by itself. -/
def dotenvPath : String := ".env"

/-- Settings that are being loaded. -/
structure Loader where
  settings : Settings := {}
  /-- The environment. -/
  environment : Variables := []
  /-- The beginning of the names of variables that override settings. -/
  beginning : Option String := none

namespace Loader

/-- The loader with the settings of a file in place of those so far. -/
def withFile (l : Loader) (path : String) (found : Found) : Except SettingsError Loader :=
  if !found.isThere then .error (.fileNotFound path)
  else match found.text? with
    | none => .error (.unreadable path)
    | some text =>
      match (FilePath.extension? path).bind SettingsFormat.ofName? with
      | none => .error (.unsupportedFile path)
      | some format => (Settings.parse text format).map fun settings => { l with settings }

/-- The loader with the variables of a file that are not set yet, and whether the file has
no fault. The variables in front of a fault stay. -/
def readVariables (l : Loader) (found : Found) : Loader × Bool :=
  match found with
  | .bytes content =>
    let (environment, sound) := Variables.load l.environment content
    ({ l with environment }, sound)
  | _ => (l, false)

/-- The loader with one more layer, given what paths lead to. -/
def apply (look : String → Found) (l : Loader) : Layer → Except SettingsError Loader
  | .development => .ok { l with settings := .development }
  | .production => .ok { l with settings := .production }
  | .text content name =>
    match SettingsFormat.ofName? name with
    | none => .error (.unsupportedFormat name)
    | some format => (Settings.parse content format).map fun settings => { l with settings }
  | .file path => l.withFile path (look path)
  | .optionalFile path => if (look path).isThere then l.withFile path (look path) else .ok l
  | .overrides beginning => .ok { l with beginning := some (Text.upper beginning) }
  | .dotenv => .ok (l.readVariables (look dotenvPath)).1
  | .dotenvFile path =>
    match l.readVariables (look path) with
    | (l, true) => .ok l
    | (_, false) => .error .malformedVariables

/-- The settings of all layers under the variables. -/
def overridden (l : Loader) : Except SettingsError Settings :=
  match l.beginning with
  | none => .ok l.settings
  | some beginning => l.settings.underVariables beginning l.environment

/-- The settings of all layers under the variables, once they are checked. -/
def load (l : Loader) : Except SettingsError Settings := do
  let settings ← l.overridden
  settings.validate
  return settings

end Loader

end RestContract
