-- Methods as they are attached to the resources of a contract.
import RestContract.Backend.Integration
import RestContract.Policy.Effective

namespace RestContract

/-- A declared response. -/
structure MethodResponse where
  statusCode : Nat
  /-- The name of the model for each content type. -/
  models : Entries String String := []
  /-- Headers with fixed values. -/
  headers : Entries String String := []
  deriving DecidableEq, Repr

def MethodResponse.toJson (r : MethodResponse) : Json :=
  .obj (("statusCode", .nat r.statusCode) ::
    Json.unlessEmpty "responseModels" (.textMap r.models) ++
    Json.unlessEmpty "responseHeaders" (.textMap r.headers))

/-- A method attached to a resource. -/
structure AttachedMethod where
  method : Method
  integration : Integration
  authorizationType : String := authorizationTypeOf none
  authorizer : Option Authorizer := none
  authorizationScopes : Option (List String) := none
  /-- Parameters of the request, and whether a request has to have them. -/
  requestParameters : Entries String Bool := []
  /-- The name of the request validator. -/
  validator : Option String := none
  /-- The name of the model of the request for each content type. -/
  requestModels : Entries String String := []
  responses : List MethodResponse := []
  deriving DecidableEq, Repr

namespace AttachedMethod

/-- A method under a policy; without one, the method is open. -/
def guardedBy (m : AttachedMethod) (policy : Option EffectivePolicy) : AttachedMethod :=
  match policy with
  | none => m
  | some p =>
    { m with
      authorizationType := p.authorizationType
      authorizer := p.authorizer
      authorizationScopes := p.authorizationScopes }

def flagMap (entries : Entries String Bool) : Json := .obj (entries.map fun e => (e.1, .bool e.2))

def toJson (m : AttachedMethod) : Json :=
  .obj ([("httpMethod", .str m.method.name), ("integration", m.integration.toJson),
      ("authorizationType", .str m.authorizationType)] ++
    Json.given "authorizer" Authorizer.toJson m.authorizer ++
    Json.given "authorizationScopes" Json.strings m.authorizationScopes ++
    Json.unlessEmpty "requestParameters" (flagMap m.requestParameters) ++
    Json.given "requestValidator" .str m.validator ++
    Json.unlessEmpty "requestModels" (.textMap m.requestModels) ++
    Json.unlessEmpty "methodResponses" (.arr (m.responses.map MethodResponse.toJson)))

end AttachedMethod

end RestContract
