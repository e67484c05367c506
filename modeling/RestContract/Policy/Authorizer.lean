-- Authorizers: who checks that a request may be served.
import RestContract.Json.Shape

namespace RestContract

inductive AuthorizerKind where
  /-- Tokens of a user pool. -/
  | cognitoUserPools
  | token
  | request
  deriving DecidableEq, Repr, Inhabited

namespace AuthorizerKind

def name : AuthorizerKind → String
  | cognitoUserPools => "cognitoUserPools"
  | token => "token"
  | request => "request"

def names : List (String × AuthorizerKind) :=
  [cognitoUserPools, token, request].map fun k => (k.name, k)

/-- The authorization type of methods guarded by this kind. -/
def authorizationType : AuthorizerKind → String
  | cognitoUserPools => "COGNITO_USER_POOLS"
  | token | request => "CUSTOM"

end AuthorizerKind

/-- A reference to an authorizer. -/
structure Authorizer where
  id : String
  kind : AuthorizerKind := .cognitoUserPools
  /-- Where the credential stands in the request. -/
  identitySource : Option String := none
  deriving DecidableEq, Repr

namespace Authorizer

def toJson (a : Authorizer) : Json :=
  .obj ([("id", .str a.id), ("kind", .str a.kind.name)] ++
    Json.given "identitySource" .str a.identitySource)

open Shape

/-- An authorizer as an object or an array. -/
def shape : Shape Authorizer := fun v => do
  let fs ← fields ["id", "kind", "identitySource"] false v
  return {
    id := ← required fs "id" text
    kind := ← withDefault fs "kind" .cognitoUserPools (choice isNull AuthorizerKind.names)
    identitySource := ← maybe fs "identitySource" text }

end Authorizer

end RestContract
