-- Compute units: the functions that an API invokes. A unit is known by its name; the
-- full identifier is carried along where it is known.
import RestContract.Json.Shape

namespace RestContract

/-- A reference to a function. -/
structure ComputeUnit where
  functionName : String
  arn : Option String := none
  deriving DecidableEq, Repr

namespace ComputeUnit

/-- Two references are to the same unit when the names are equal. -/
def same (a b : ComputeUnit) : Bool := a.functionName == b.functionName

def toJson (u : ComputeUnit) : Json :=
  .obj ([("functionName", .str u.functionName)] ++ Json.given "arn" .str u.arn)

open Shape

/-- A bare name, or an object with a name; an array of fields is no unit. -/
def shape : Shape ComputeUnit
  | .str name => some { functionName := name }
  | .obj entries => do
    let fs ← objectFields ["functionName", "arn"] false entries
    return { functionName := ← required fs "functionName" text, arn := ← maybe fs "arn" text }
  | _ => none

end ComputeUnit

end RestContract
