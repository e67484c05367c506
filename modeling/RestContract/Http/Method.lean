-- HTTP methods as they stand on the resources of an API.
import RestContract.Json.Shape

namespace RestContract

/-- A method attached to a resource. Routes declare the first four; `options` answers
preflights and `any` stands on proxy resources. -/
inductive Method where
  | get
  | post
  | put
  | delete
  | options
  | any
  deriving DecidableEq, Repr, Inhabited

namespace Method

/-- The methods a route may declare, in the order in which they are attached. -/
def routeMethods : List Method := [.get, .post, .put, .delete]

def all : List Method := routeMethods ++ [.options, .any]

/-- The name in upper case. -/
def name : Method → String
  | .get => "GET"
  | .post => "POST"
  | .put => "PUT"
  | .delete => "DELETE"
  | .options => "OPTIONS"
  | .any => "ANY"

/-- A route may declare the method. -/
def isRouteMethod (m : Method) : Bool := routeMethods.contains m

/-- The method of a name in any case of the letters A to Z. -/
def ofName? (s : String) : Option Method := all.find? (·.name == s.map Char.toUpper)

/-- The method of a name in a manifest, all in lower case. -/
def ofRouteKey? (key : String) : Option Method :=
  routeMethods.find? (·.name.map Char.toLower == key)

def names : List (String × Method) := all.map fun m => (m.name, m)

/-- The message about a name that no method has. -/
def unknownMessage (s : String) : String := "unknown HTTP method: " ++ s

/-- The characters of a method token besides letters and digits. -/
def tokenMarks : List Char := "!#$%&'*+-.^_\x60|~".toList

/-- The text may stand as a method in a request. -/
def isToken (s : String) : Bool :=
  !s.isEmpty && s.toList.all fun c => c.isAlphanum || tokenMarks.contains c

end Method

end RestContract
