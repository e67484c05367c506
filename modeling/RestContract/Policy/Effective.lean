-- The effective policy of a method. An integration alone takes the global authorizer; a
-- definition with metadata may open the route or name an authorizer of its own, and has
-- its own scopes.
import RestContract.Policy.Global
import RestContract.Route.Definition

namespace RestContract

/-- The authorization of one method. -/
structure EffectivePolicy where
  authorizer : Option Authorizer := none
  authorizationScopes : Option (List String) := none
  deriving DecidableEq, Repr

/-- The authorization type of a method guarded by an authorizer or by none. -/
def authorizationTypeOf (a : Option Authorizer) : String :=
  match a with
  | some a => a.kind.authorizationType
  | none => "NONE"

namespace EffectivePolicy

def authorizationType (p : EffectivePolicy) : String := authorizationTypeOf p.authorizer

def toJson (p : EffectivePolicy) : Json :=
  .obj (Json.given "authorizer" Authorizer.toJson p.authorizer ++
    Json.given "authorizationScopes" Json.strings p.authorizationScopes)

open Shape

/-- A policy as an object or an array. -/
def shape : Shape EffectivePolicy := fun v => do
  let fs ← fields ["authorizer", "authorizationScopes"] false v
  return {
    authorizer := ← maybe fs "authorizer" Authorizer.shape
    authorizationScopes := ← maybe fs "authorizationScopes" (list text) }

end EffectivePolicy

/-- The policy of a method of a definition; nothing if the route is open. -/
def GlobalPolicy.bind (g : GlobalPolicy) (d : ResourceDefinition) : Option EffectivePolicy :=
  match d.metadata? with
  | none => some { authorizer := g.authorizer }
  | some m =>
    match m.auth with
    | .disabled => none
    | .authorizer a =>
      some { authorizer := some a, authorizationScopes := m.authorizationScopes }
    | .inherit =>
      some { authorizer := g.authorizer, authorizationScopes := m.authorizationScopes }

end RestContract
