-- Resource definitions: how one method of a route is served. A definition comes in one
-- of three shapes, told apart by what can be read from it: an integration, an
-- integration with metadata around it, or a compute unit with metadata around it. The
-- first shape that fits decides, and then its fields have to fit too.
import RestContract.Backend.Integration
import RestContract.Journal.Event
import RestContract.Json.Printer
import RestContract.Route.Metadata

namespace RestContract

/-- A definition that names a compute unit. -/
structure ComputeDefinition where
  function : ComputeUnit
  /-- Query parameters, and whether a request has to have them. -/
  queryParams : Entries String Bool := []
  options : IntegrationOptions := {}
  metadata : RouteMetadata := {}

/-- How one method is served. -/
inductive ResourceDefinition where
  | integration (i : Integration)
  | wrapped (i : Integration) (metadata : RouteMetadata)
  | compute (c : ComputeDefinition)

/-- Why a definition is refused. -/
inductive DefinitionError where
  /-- No shape fits. -/
  | unrecognized (definition : Json)
  /-- A shape fits, but one of its fields does not. -/
  | invalidField (field : String)

def DefinitionError.message : DefinitionError → String
  | unrecognized definition => "Invalid resource definition: " ++ definition.compact
  | invalidField field => "Invalid '" ++ field ++ "' in resource definition"

namespace ResourceDefinition

/-- The metadata of a definition; an integration alone has none. -/
def metadata? : ResourceDefinition → Option RouteMetadata
  | integration _ => none
  | wrapped _ m => some m
  | compute c => some c.metadata

/-- The query parameters of a definition that names a compute unit. -/
def queryParams? : ResourceDefinition → Option (Entries String Bool)
  | compute c => some c.queryParams
  | _ => none

def shapeName : ResourceDefinition → String
  | integration _ => "integration"
  | wrapped .. => "wrapped"
  | compute _ => "compute"

end ResourceDefinition

def ComputeDefinition.same (a b : ComputeDefinition) : Bool :=
  a.function.same b.function && Entries.same (· == ·) a.queryParams b.queryParams &&
    a.options == b.options && a.metadata.same b.metadata

/-! ## Probing -/

/-- The shape that fits a value. -/
inductive Probe where
  | integration (i : Integration)
  | wrapped (i : Integration)
  | compute (function : ComputeUnit)
  | unrecognized

namespace Probe

/-- The first shape that fits a value. -/
def of (v : Json) : Probe :=
  match Integration.shape v with
  | some i => integration i
  | none =>
    match (v.get? "integration").bind Integration.shape with
    | some i => wrapped i
    | none =>
      match (v.get? "function").bind ComputeUnit.shape with
      | some u => compute u
      | none => unrecognized

/-- What is told about a shape that fits. -/
def events : Probe → List Event
  | integration i => [.probedIntegration i.typeName]
  | wrapped i => [.probedWrapped i.typeName]
  | compute u => [.probedCompute u.functionName]
  | unrecognized => []

end Probe

namespace ResourceDefinition

/-- A field of a definition; absent and `null` are the same. -/
def field {α : Type} (v : Json) (name : String) (shape : Shape α) :
    Except DefinitionError (Option α) :=
  match v.get? name with
  | none | some .null => .ok none
  | some raw =>
    match shape raw with
    | some a => .ok (some a)
    | none => .error (.invalidField name)

open Shape

/-- The metadata around an integration or a compute unit. -/
def readMetadata (v : Json) : Except DefinitionError RouteMetadata := do
  let auth ← field v "auth" RouteAuth.shape
  let request ← field v "request" TypeSchema.shape
  let responses ← field v "responses" Responses.shape
  let authorizationScopes ← field v "authorizationScopes" (list text)
  return { auth := auth.getD .inherit, request, responses, authorizationScopes }

/-- The definition of a value of a known shape. -/
def ofProbe (v : Json) : Probe → Except DefinitionError ResourceDefinition
  | .integration i => .ok (integration i)
  | .wrapped i => do return wrapped i (← readMetadata v)
  | .compute function => do
    let proxy ← field v "proxy" flag
    let timeoutMs ← field v "timeoutMs" (upTo maxUInt64)
    let queryParams ← field v "queryParams" (map flag)
    let metadata ← readMetadata v
    return compute
      { function, queryParams := queryParams.getD [], options := { proxy, timeoutMs }, metadata }
  | .unrecognized => .error (.unrecognized v)

/-- The definition that a value describes. -/
def probe (v : Json) : Except DefinitionError ResourceDefinition := ofProbe v (.of v)

end ResourceDefinition

end RestContract
