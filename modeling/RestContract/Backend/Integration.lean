-- Integrations: how a method is served. A compute unit is invoked, an endpoint is
-- called, or the gateway answers by itself.
import RestContract.Backend.ComputeUnit
import RestContract.Http.Method
import RestContract.Numeral.Limits

namespace RestContract

/-- The content type of templates and models. -/
def contentTypeJson : String := "application/json"

/-- What a definition sets on the integration derived from its compute unit. -/
structure IntegrationOptions where
  proxy : Option Bool := none
  timeoutMs : Option Nat := none
  deriving DecidableEq, Repr

/-- The invocation of a compute unit. -/
structure LambdaIntegration where
  function : ComputeUnit
  /-- The request is passed through as it is. -/
  proxy : Bool := true
  timeoutMs : Option Nat := none
  /-- Parameters of the integration with the parameters of the method they take. -/
  requestParameters : Entries String String := []
  /-- Request templates by content type. -/
  requestTemplates : Entries String String := []
  deriving DecidableEq, Repr

/-- A call of an endpoint. -/
structure HttpIntegration where
  uri : String
  httpMethod : Method := .any
  proxy : Bool := true
  deriving DecidableEq, Repr

/-- An answer of the gateway. -/
structure MockIntegration where
  requestTemplates : Entries String String := []
  deriving DecidableEq, Repr

/-- How a method is served. -/
inductive Integration where
  | lambda (l : LambdaIntegration)
  | http (h : HttpIntegration)
  | mock (m : MockIntegration)
  deriving DecidableEq, Repr

/-! ## Options -/

namespace IntegrationOptions

def toJson (o : IntegrationOptions) : Json :=
  .obj (Json.given "proxy" .bool o.proxy ++ Json.given "timeoutMs" .nat o.timeoutMs)

open Shape

/-- Options as an object or an array. -/
def shape : Shape IntegrationOptions := fun v => do
  let fs ← fields ["proxy", "timeoutMs"] false v
  return { proxy := ← maybe fs "proxy" flag, timeoutMs := ← maybe fs "timeoutMs" (upTo maxUInt64) }

end IntegrationOptions

/-! ## Invocations of compute units -/

namespace LambdaIntegration

def withOptions (l : LambdaIntegration) (o : IntegrationOptions) : LambdaIntegration :=
  { l with proxy := o.proxy.getD l.proxy, timeoutMs := o.timeoutMs <|> l.timeoutMs }

/-- Equality, with the entries of maps in any order. -/
def same (a b : LambdaIntegration) : Bool :=
  a.function.same b.function && a.proxy == b.proxy && a.timeoutMs == b.timeoutMs &&
    Entries.same (· == ·) a.requestParameters b.requestParameters &&
    Entries.same (· == ·) a.requestTemplates b.requestTemplates

def entries (l : LambdaIntegration) : List (String × Json) :=
  [("function", l.function.toJson), ("proxy", .bool l.proxy)] ++
    Json.given "timeoutMs" .nat l.timeoutMs ++
    Json.unlessEmpty "requestParameters" (.textMap l.requestParameters) ++
    Json.unlessEmpty "requestTemplates" (.textMap l.requestTemplates)

/-- The integration as JSON, without the name of its type. -/
def toJson (l : LambdaIntegration) : Json := .obj l.entries

open Shape

/-- An invocation as an object or an array. -/
def shape : Shape LambdaIntegration := fun v => do
  let fs ← fields ["function", "proxy", "timeoutMs", "requestParameters", "requestTemplates"]
    false v
  return {
    function := ← required fs "function" ComputeUnit.shape
    proxy := ← withDefault fs "proxy" true flag
    timeoutMs := ← maybe fs "timeoutMs" (upTo maxUInt64)
    requestParameters := ← withDefault fs "requestParameters" [] (map text)
    requestTemplates := ← withDefault fs "requestTemplates" [] (map text) }

end LambdaIntegration

/-! ## Calls and answers -/

namespace HttpIntegration

def entries (h : HttpIntegration) : List (String × Json) :=
  [("uri", .str h.uri), ("httpMethod", .str h.httpMethod.name), ("proxy", .bool h.proxy)]

open Shape

/-- `null` or an empty object. -/
def saysNothing : Json → Bool
  | .null | .obj [] => true
  | _ => false

/-- A call as an object or an array. -/
def shape : Shape HttpIntegration := fun v => do
  let fs ← fields ["uri", "httpMethod", "proxy"] false v
  return {
    uri := ← required fs "uri" text
    httpMethod := ← withDefault fs "httpMethod" .any (choice saysNothing Method.names)
    proxy := ← withDefault fs "proxy" true flag }

end HttpIntegration

namespace MockIntegration

/-- Equality, with the templates in any order. -/
def same (a b : MockIntegration) : Bool :=
  Entries.same (· == ·) a.requestTemplates b.requestTemplates

def entries (m : MockIntegration) : List (String × Json) :=
  [("requestTemplates", .textMap m.requestTemplates)]

open Shape

/-- An answer as an object or an array. -/
def shape : Shape MockIntegration := fun v => do
  let fs ← fields ["requestTemplates"] false v
  return { requestTemplates := ← withDefault fs "requestTemplates" [] (map text) }

end MockIntegration

/-! ## Integrations -/

namespace Integration

/-- The integration that invokes a compute unit for any request. -/
def invoking (u : ComputeUnit) : Integration := lambda { function := u }

/-- The integration that calls an endpoint with any method. -/
def calling (uri : String) : Integration := http { uri }

/-- The integration that answers from a template for JSON. -/
def answering (template : String) : Integration :=
  mock { requestTemplates := [(contentTypeJson, template)] }

def typeName : Integration → String
  | lambda _ => "lambda"
  | http _ => "http"
  | mock _ => "mock"

/-- Equality, with the entries of maps in any order. -/
def same : Integration → Integration → Bool
  | lambda a, lambda b => a.same b
  | http a, http b => a == b
  | mock a, mock b => a.same b
  | _, _ => false

/-- The integration as JSON, the name of its type in front. -/
def toJson (i : Integration) : Json :=
  .obj (("type", .str i.typeName) :: match i with
    | lambda l => l.entries
    | http h => h.entries
    | mock m => m.entries)

open Shape

/-- An integration, tagged by its `type`. -/
def shape : Shape Integration := fun v =>
  match tagged "type" v with
  | some (.str "lambda", rest) => (LambdaIntegration.shape rest).map lambda
  | some (.str "http", rest) => (HttpIntegration.shape rest).map http
  | some (.str "mock", rest) => (MockIntegration.shape rest).map mock
  | _ => none

end Integration

end RestContract
