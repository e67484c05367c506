-- Resolution of definitions into integrations. An integration is taken as it is. A
-- compute unit gets an integration of its own, which maps the parameters of the path
-- and the query through and wraps the request into one envelope.
import RestContract.Json.Printer
import RestContract.Route.Definition

namespace RestContract

/-- What is known about the route of a definition. -/
inductive ResolveContext where
  /-- The names of the captures of the path, in order. -/
  | pathParams (names : List String)
  /-- Requests are passed through as they are. -/
  | skipTemplating
  deriving DecidableEq, Repr

namespace ComputeDefinition

/-- The parameters of the integration: each path parameter, then each query parameter,
taken from the parameter of the same name. -/
def requestParameters (pathParams queryParams : List String) : Entries String String :=
  Entries.ofPairs <|
    (pathParams.map fun p => ("integration.request.path." ++ p, "method.request.path." ++ p)) ++
    (queryParams.map fun q =>
      ("integration.request.querystring." ++ q, "method.request.querystring." ++ q))

/-- Each name with the expression that looks it up in a part of the request. -/
def lookups (part : String) (names : List String) : Entries String Json :=
  Entries.ofPairs <| names.map fun n =>
    (n, .str ("$input.params()." ++ part ++ ".get('" ++ n ++ "')"))

/-- The envelope of a request: its path and query parameters and its body. -/
def envelope (pathParams queryParams : List String) : Json :=
  .obj [("params", .obj (lookups "path" pathParams)),
    ("query", .obj (lookups "querystring" queryParams)), ("body", .str "$input.json(\"$\")")]

/-- The integration derived from a compute unit. -/
def derive (c : ComputeDefinition) (context : ResolveContext) : LambdaIntegration :=
  let plain := ({ function := c.function } : LambdaIntegration).withOptions c.options
  match context with
  | .skipTemplating => plain
  | .pathParams names =>
    { plain with
      requestParameters := requestParameters names (Entries.keys c.queryParams)
      requestTemplates :=
        [(contentTypeJson, (envelope names (Entries.keys c.queryParams)).compact)] }

end ComputeDefinition

/-- The integration that serves a definition. -/
def ResourceDefinition.resolve (d : ResourceDefinition) (context : ResolveContext) : Integration :=
  match d with
  | integration i | wrapped i _ => i
  | compute c => .lambda (c.derive context)

end RestContract
