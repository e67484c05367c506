-- The formats of manifests, and why a manifest is refused.
import RestContract.Files
import RestContract.Route.Definition

namespace RestContract

inductive ManifestFormat where
  | json
  | toml
  | yaml
  deriving DecidableEq, Repr, Inhabited

/-- Why a manifest is refused. -/
inductive ManifestError where
  /-- The path leads to nothing that is a text. -/
  | unreadable (path : String)
  | unsupportedFormat (format : String)
  /-- The text is not in its format, or its outline does not fit. -/
  | malformed (format : ManifestFormat)
  /-- The definition under a key of a route is refused. -/
  | definition (path key : String) (e : DefinitionError)
  /-- A field of the global section does not fit. -/
  | globalField (field : String)

namespace ManifestFormat

def name : ManifestFormat → String
  | json => "json"
  | toml => "toml"
  | yaml => "yaml"

def names : List (String × ManifestFormat) :=
  [("json", json), ("toml", toml), ("yaml", yaml), ("yml", yaml)]

/-- The format of a name, in any case. -/
def ofName (s : String) : Except ManifestError ManifestFormat :=
  match names.lookup (s.map Char.toLower) with
  | some f => .ok f
  | none => .error (.unsupportedFormat s)

/-- The format that the extension of a path names. -/
def ofPath (path : String) : Except ManifestError ManifestFormat :=
  ofName ((FilePath.extension? path).getD "")

end ManifestFormat

def ManifestError.message : ManifestError → String
  | unreadable path => "failed to read manifest " ++ path
  | unsupportedFormat format => "unsupported manifest format: " ++ format
  | malformed .json => "failed to parse JSON manifest"
  | malformed .toml => "failed to parse TOML manifest"
  | malformed .yaml => "failed to parse YAML manifest"
  | definition path key e => "route '" ++ path ++ "' (" ++ key ++ "): " ++ e.message
  | globalField field => "invalid global '" ++ field ++ "'"

end RestContract
