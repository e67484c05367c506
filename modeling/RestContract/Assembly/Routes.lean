-- Assembly: from a declaration to a contract. The routes are taken in their order. Each
-- one inserts its path, and then attaches its methods with their validators and models.
import RestContract.Assembly.Build
import RestContract.Route.Resolution

namespace RestContract

/-! ## Preflights -/

/-- The segment of the child through which a proxy route passes requests on. -/
def proxySegment : String := "\x7bproxy+\x7d"

def preflightStatus : Nat := 204

/-- The method that answers the preflights of a resource. -/
def CorsOptions.preflight (c : CorsOptions) : AttachedMethod where
  method := .options
  integration := .answering ("\x7b\"statusCode\": " ++ toString preflightStatus ++ "\x7d")
  responses := [{ statusCode := preflightStatus, headers := c.preflightHeaders }]

namespace Assembling

/-- Gives a node a preflight, unless it has one. -/
def requestPreflight (id : NodeId) (c : CorsOptions) : Assembling Unit := do
  let b ← get
  let r := CorsOptions.register (b.attachments id).cors c
  let b := b.withPreflight id r
  if r.isNew then
    set (b.measure .preflightRegistered)
    attach id c.preflight
  else set b

end Assembling

/-! ## Descriptions of methods -/

/-- The parameters of a method: the captures of its path, which a request always has, and
then the query parameters. -/
def requestParameters (params : List String) (d : ResourceDefinition) : Entries String Bool :=
  Entries.ofPairs <|
    (params.map fun p => ("method.request.path." ++ p, true)) ++
    (d.queryParams?.getD []).map fun q => ("method.request.querystring." ++ q.1, q.2)

def ResourceDefinition.request? (d : ResourceDefinition) : Option TypeSchema :=
  d.metadata?.bind (·.request)

/-- The schemas of the responses of a definition, with their status codes and the roles of
their models. A single response has no status code in its role. -/
def ResourceDefinition.responses (d : ResourceDefinition) :
    List (Nat × Naming.Role × TypeSchema) :=
  match d.metadata?.bind (·.responses) with
  | none => []
  | some rs => rs.entries.map fun (status, schema) =>
    (status, if rs.isShorthand then .responseModel else .responseModelFor status, schema)

/-- A method of a route, with what generated names are made of. -/
structure Endpoint where
  method : Method
  /-- The path as it is declared. -/
  path : String
  definition : ResourceDefinition

namespace Endpoint

/-- The name of the artifact with a role. -/
def artifact (e : Endpoint) (role : Naming.Role) : String :=
  Naming.artifactName e.method.name e.path role.text

def requestValidator (e : Endpoint) (v : Validation) : RequestValidator :=
  { name := e.artifact .requestValidator, body := v.body, parameters := v.parameters }

/-- The models of the method with their schemas, in the order of their creation. -/
def models (e : Endpoint) : List (String × TypeSchema) :=
  (e.definition.request?.map (e.artifact .requestModel, ·)).toList ++
    e.definition.responses.map fun (_, role, schema) => (e.artifact role, schema)

/-- The method with the names of its artifacts, under the global policy. -/
def attached (e : Endpoint) (policy : GlobalPolicy) : AttachedMethod :=
  let params := Path.params e.path
  AttachedMethod.guardedBy
    { method := e.method
      integration := e.definition.resolve (.pathParams params)
      requestParameters := requestParameters params e.definition
      validator := some (e.artifact .requestValidator)
      requestModels :=
        (e.definition.request?.map fun _ => (contentTypeJson, e.artifact .requestModel)).toList
      responses := e.definition.responses.map fun (statusCode, role, _) =>
        { statusCode, models := [(contentTypeJson, e.artifact role)] } }
    (policy.bind e.definition)

end Endpoint

/-! ## Routes -/

namespace Assembling

/-- Attaches one declared method to the node of its path: first the preflight of the node,
then the artifacts, then the method. -/
def attachEndpoint (d : Declaration) (id : NodeId) (e : Endpoint) : Assembling Unit := do
  let b ← get
  if (b.attachments id).has e.method then
    throw (.duplicateMethod e.method (b.resources.pathOf id))
  if let some c := d.policy.cors then requestPreflight id c
  addValidator (e.requestValidator d.validation)
  e.models.forM fun (name, schema) => addModel name schema
  attach id (e.attached d.policy)

/-- Attaches the methods that a route declares, in the fixed order of route methods. -/
def attachMethods (d : Declaration) (id : NodeId) (path : String)
    (methods : Entries Method ResourceDefinition) : Assembling Unit := do
  tell ((Entries.keys methods).filter (!·.isRouteMethod) |>.map fun m => .methodSkipped path m.name)
  Method.routeMethods.forM fun method =>
    match Entries.get? methods method with
    | some definition => attachEndpoint d id { method, path, definition }
    | none => pure ()

/-- The method through which a proxy route passes requests on. -/
def proxyMethod (definition : ResourceDefinition) : AttachedMethod :=
  { method := .any, integration := definition.resolve .skipTemplating }

/-- Attaches a proxy route to a node and to the child below which everything is passed on. -/
def attachProxy (id : NodeId) (definition : ResourceDefinition) : Assembling Unit := do
  let child ← reach id proxySegment
  attach id (proxyMethod definition)
  attach child (proxyMethod definition)

/-- Inserts the path of a route and attaches what the route declares. -/
def attachRoute (d : Declaration) (path : String) (r : RouteDefinition) : Assembling Unit := do
  let id ← reach PathTree.root path
  match r with
  | .proxy definition => attachProxy id definition
  | .methods methods => attachMethods d id path methods

/-- Checks the policy and attaches every route. -/
def attachRoutes (d : Declaration) : Assembling Unit := do
  if let some c := d.policy.cors then
    if let .error e := c.validate then throw (.cors e)
  d.routes.forM fun (path, r) => attachRoute d path r

end Assembling

/-! ## Assembly -/

/-- The contract that a finished build leaves. -/
def Build.contract (b : Build) (d : Declaration) : Contract :=
  { name := d.name, stageName := d.stageName, resources := b.resources, models := b.models,
    validators := b.validators }

/-- What an assembly leaves behind: the contract or the reason why there is none, and what
was told and counted. -/
structure Assembly where
  result : Except AssemblyError Contract
  events : List Event
  measurements : List Measurement

namespace Declaration

/-- What is told about an assembly that succeeded. -/
def assembledEvent (c : Contract) : Event :=
  .assembled c.name c.resources.size c.methodCount c.models.length c.validators.length

/-- Assembles the API of a declaration. -/
def assembly (d : Declaration) : Assembly :=
  let start : Build := { events := [.assembling d.name d.routes.length] }
  match (Assembling.attachRoutes d).run start with
  | .ok () b =>
    let contract := b.contract d
    { result := .ok contract
      events := b.events ++ [assembledEvent contract]
      measurements := b.measurements ++ [.buildTimed] }
  | .error e b =>
    { result := .error e
      events := b.events ++ [.assemblyFailed d.name e.message]
      measurements := b.measurements ++ [.buildFailed e.kind] }

def assemble (d : Declaration) : Except AssemblyError Contract := d.assembly.result

end Declaration

end RestContract
