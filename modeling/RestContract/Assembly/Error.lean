-- Why an assembly fails. Every failure ends the whole assembly.
import RestContract.Http.Method
import RestContract.Policy.Cors
import RestContract.Route.Definition
import RestContract.Schema.Conversion

namespace RestContract

/-- Why an API cannot be assembled. -/
inductive AssemblyError where
  /-- A definition is refused. -/
  | definition (e : DefinitionError)
  /-- A schema has no document. -/
  | schema (e : SchemaError)
  /-- The CORS options cannot be used. -/
  | cors (e : CorsError)
  /-- A method is declared twice on one resource. -/
  | duplicateMethod (method : Method) (path : String)
  /-- Two artifacts have one name. -/
  | duplicateArtifact (name : String)

namespace AssemblyError

/-- The label of the kind of an error. -/
def kind : AssemblyError → String
  | definition _ => "definition"
  | schema (.unsupported ..) => "unsupported_schema"
  | schema (.nonObjectModel _) => "non_object_model"
  | cors _ => "cors"
  | duplicateMethod .. => "duplicate_method"
  | duplicateArtifact _ => "duplicate_artifact"

def message : AssemblyError → String
  | definition e => e.message
  | schema e => e.message
  | cors e => e.message
  | duplicateMethod m path => "Method " ++ m.name ++ " is declared twice on resource '" ++ path ++ "'"
  | duplicateArtifact name => "Generated name '" ++ name ++ "' is used by more than one artifact"

end AssemblyError

end RestContract
