-- Why settings cannot be loaded.
namespace RestContract

inductive SettingsFormat where
  | toml
  | json
  deriving DecidableEq, Repr

/-- The format of a name in any case. -/
def SettingsFormat.ofName? (name : String) : Option SettingsFormat :=
  [("toml", toml), ("json", json)].lookup (name.map Char.toLower)

/-- Why settings cannot be loaded. -/
inductive SettingsError where
  | fileNotFound (path : String)
  /-- The path leads to something that is no text. -/
  | unreadable (path : String)
  /-- A text is not in its format, or has fields that do not fit. -/
  | malformed (format : SettingsFormat)
  /-- A file of variables is not there, or one of its lines does not fit. -/
  | malformedVariables
  | invalidValue (field reason : String)
  /-- The level of the log is no filter. -/
  | invalidFilter (filter : String)
  /-- The value of a variable does not fit its setting. -/
  | override (name reason : String)
  | unsupportedFormat (format : String)
  | unsupportedFile (path : String)
  deriving DecidableEq, Repr

def SettingsError.message : SettingsError → String
  | fileNotFound path => "configuration file not found: " ++ path
  | unreadable path => "failed to read configuration file: " ++ path
  | malformed .toml => "failed to parse TOML configuration"
  | malformed .json => "failed to parse JSON configuration"
  | malformedVariables => "failed to load environment file"
  | invalidValue field reason => "invalid configuration value for " ++ field ++ ": " ++ reason
  | invalidFilter filter =>
    "invalid configuration value for logging.level: Invalid log level '" ++ filter ++ "'"
  | override name reason => "failed to parse environment variable " ++ name ++ ": " ++ reason
  | unsupportedFormat format =>
    "configuration validation failed: unsupported configuration format: " ++ format
  | unsupportedFile path =>
    "configuration validation failed: unsupported configuration file format: " ++ path

end RestContract
