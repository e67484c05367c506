-- Which settings can be used: an API has a name and a stage, the log has a filter, and
-- the CORS options pass the checks that browsers make.
import RestContract.Journal.Filter
import RestContract.Settings.Basic
import RestContract.Settings.Error

namespace RestContract

def isStageChar (c : Char) : Bool := c.isAlphanum || c == '-' || c == '_'

namespace Settings

/-- The first fault of settings; the filter counts only if the log is written. -/
def validate (s : Settings) : Except SettingsError Unit :=
  if (Text.trim s.api.name).isEmpty then .error (.invalidValue "api.name" "must not be empty")
  else if s.api.stageName.isEmpty || !s.api.stageName.toList.all isStageChar then
    .error (.invalidValue "api.stage_name" ("'" ++ s.api.stageName ++
      "' must be non-empty and contain only alphanumerics, '-' or '_'"))
  else if s.logging.enabled && !isLogFilter s.logging.level then
    .error (.invalidFilter s.logging.level)
  else match s.cors with
    | none => .ok ()
    | some c =>
      match c.validate with
      | .ok () => .ok ()
      | .error e => .error (.invalidValue "cors" e.message)

end Settings

end RestContract
