-- Environment variables. The first value that a variable gets stays.
import RestContract.Entries

namespace RestContract

/-- Environment variables with their values. -/
abbrev Variables := Entries String String

namespace Variables

/-- The variables with one more; a variable that is there keeps its value. -/
def add (vars : Variables) (name value : String) : Variables :=
  if Entries.has vars name then vars else vars ++ [(name, value)]

/-- The variables in the order of their names. -/
def sorted (vars : Variables) : Variables := vars.mergeSort fun a b => decide (a.1 ≤ b.1)

end Variables

end RestContract
