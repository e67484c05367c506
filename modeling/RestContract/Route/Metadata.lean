-- What a route says about a method besides how it is served: who may call it, and the
-- schemas of its request and its responses.
import RestContract.Policy.Authorizer
import RestContract.Schema.Shape

namespace RestContract

/-- What a route says about authorization. -/
inductive RouteAuth where
  /-- The global authorizer guards the route. -/
  | inherit
  /-- The route is open. -/
  | disabled
  /-- This authorizer guards the route. -/
  | authorizer (a : Authorizer)
  deriving DecidableEq, Repr, Inhabited

/-- `false` opens a route and `true` says nothing; anything else is an authorizer. -/
def RouteAuth.shape : Shape RouteAuth
  | .bool true => some inherit
  | .bool false => some disabled
  | v => (Authorizer.shape v).map authorizer

/-- A response with its status code. -/
structure ResponseSpec where
  statusCode : Nat
  schema : TypeSchema

open Shape in
/-- A response as an object or an array. -/
def ResponseSpec.shape (inside : Bool) : Shape ResponseSpec := fun v => do
  let fs ← fields ["statusCode", "schema"] false v
  return {
    statusCode := ← required fs "statusCode" (upTo 65535)
    schema := ← required fs "schema" (TypeSchema.shapeInside inside) }

inductive Responses where
  /-- A response for each status code. -/
  | list (specs : List ResponseSpec)
  /-- One response, with the status code 200. -/
  | single (schema : TypeSchema)

namespace Responses

/-- The status codes with their schemas. -/
def entries : Responses → List (Nat × TypeSchema)
  | list specs => specs.map fun r => (r.statusCode, r.schema)
  | single schema => [(200, schema)]

/-- The responses are a single schema. -/
def isShorthand : Responses → Bool
  | single _ => true
  | list _ => false

def same : Responses → Responses → Bool
  | list as, list bs =>
    as.length == bs.length && (as.zip bs).all fun (a, b) =>
      a.statusCode == b.statusCode && a.schema.same b.schema
  | single a, single b => a.same b
  | _, _ => false

open Shape in
/-- A list of responses, else a single schema. -/
def shape : Shape Responses :=
  either (Shape.list (ResponseSpec.shape true)) (TypeSchema.shapeInside true) list single

end Responses

/-- What a route says about a method besides how it is served. -/
structure RouteMetadata where
  auth : RouteAuth := .inherit
  request : Option TypeSchema := none
  responses : Option Responses := none
  /-- Scopes that the authorizer has to grant. -/
  authorizationScopes : Option (List String) := none

/-- Equality of values that may be absent. -/
def sameOption {α : Type} (eq : α → α → Bool) : Option α → Option α → Bool
  | none, none => true
  | some a, some b => eq a b
  | _, _ => false

def RouteMetadata.same (a b : RouteMetadata) : Bool :=
  a.auth == b.auth && sameOption TypeSchema.same a.request b.request &&
    sameOption Responses.same a.responses b.responses &&
    a.authorizationScopes == b.authorizationScopes

end RestContract
