-- The global policy: what holds for every route unless the route says otherwise.
import RestContract.Policy.Authorizer
import RestContract.Policy.Cors

namespace RestContract

/-- The policy of a whole API. -/
structure GlobalPolicy where
  /-- The authorizer of every route that names no other. -/
  authorizer : Option Authorizer := none
  /-- CORS options; with them, every resource with methods answers preflights. -/
  cors : Option CorsOptions := none
  deriving DecidableEq, Repr

namespace GlobalPolicy

def toJson (p : GlobalPolicy) : Json :=
  .obj (Json.given "authorizer" Authorizer.toJson p.authorizer ++
    Json.given "cors" CorsOptions.toJson p.cors)

open Shape

/-- A policy as an object or an array. -/
def shape : Shape GlobalPolicy := fun v => do
  let fs ← fields ["authorizer", "cors"] false v
  return {
    authorizer := ← maybe fs "authorizer" Authorizer.shape
    cors := ← maybe fs "cors" CorsOptions.shape }

end GlobalPolicy

end RestContract
