-- Names of generated artifacts. A name joins the words of the method, the path and
-- the role, so it is made of letters and digits only and the same on every build.
import RestContract.Json.Value

namespace RestContract.Naming

/-- A letter from A to Z in either case, or a digit. -/
def isWordChar (c : Char) : Bool := c.isAlphanum

/-- The maximal runs of letters and digits, in order. -/
def words : List Char → List (List Char)
  | [] => []
  | c :: cs =>
    if isWordChar c then
      match cs with
      | [] => [[c]]
      | d :: _ =>
        if isWordChar d then
          match words cs with
          | w :: ws => (c :: w) :: ws
          | [] => [[c]]
        else [c] :: words cs
    else words cs

/-- The word with its first letter in upper case and the others in lower case. -/
def capitalize : List Char → List Char
  | [] => []
  | c :: cs => c.toUpper :: cs.map Char.toLower

/-- The words of a text, capitalized and joined. -/
def alphanumeric (text : String) : String :=
  String.ofList ((words text.toList).flatMap capitalize)

/-- What a generated artifact is for. -/
inductive Role where
  | requestValidator
  | requestModel
  /-- The model of the only response. -/
  | responseModel
  /-- The model of the response with a status code. -/
  | responseModelFor (status : Nat)
  deriving DecidableEq, Repr

/-- The role as text. -/
def Role.text : Role → String
  | .requestValidator => "Request-Validator"
  | .requestModel => "Request-Model"
  | .responseModel => "Response-Model"
  | .responseModelFor status => "Response-Model-" ++ toString status

/-- The name of the artifact with a role that belongs to a method on a path. -/
def artifactName (method path role : String) : String :=
  alphanumeric method ++ alphanumeric path ++ alphanumeric role

end RestContract.Naming
