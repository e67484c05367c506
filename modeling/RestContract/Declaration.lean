-- Declarations: an API before it is assembled. Routes come by path, and each either
-- passes everything below it on or declares methods.
import RestContract.Http.Method
import RestContract.Policy.Global
import RestContract.Route.Definition
import RestContract.Settings.Basic

namespace RestContract

/-- What is declared for one path. -/
inductive RouteDefinition where
  /-- Every method of the path and of all paths below it. -/
  | proxy (d : ResourceDefinition)
  /-- Some methods, each with its own definition. -/
  | methods (ds : Entries Method ResourceDefinition)

/-- Which parts of a request the validators check. -/
structure Validation where
  body : Bool := true
  parameters : Bool := true
  deriving DecidableEq, Repr

/-- All that is needed to assemble one API. -/
structure Declaration where
  name : String
  stageName : String := "dev"
  policy : GlobalPolicy := {}
  /-- The routes by path, in the order of their declaration. -/
  routes : Entries String RouteDefinition := []
  validation : Validation := {}

namespace Declaration

/-- The declaration with one more route. A path that is there gets the new route. -/
def route (d : Declaration) (path : String) (r : RouteDefinition) : Declaration :=
  { d with routes := Entries.put d.routes path r }

/-- What is told about a path that gets a route: it may have one already. -/
def routeEvents (d : Declaration) (path : String) : List Event :=
  if Entries.has d.routes path then [.routeRedeclared path] else []

/-- The declaration completed from settings: they decide the stage and the validation, and
their CORS options count if there are no others. -/
def completedBy (d : Declaration) (s : Settings) : Declaration :=
  { d with
    stageName := s.api.stageName
    validation :=
      { body := s.api.validateRequestBody, parameters := s.api.validateRequestParameters }
    policy := { d.policy with cors := d.policy.cors <|> s.cors } }

end Declaration

end RestContract
