-- Events: what is worth telling about a build. Each event has a level, a message and
-- fields; nothing is written here, the events are handed on with the results.
namespace RestContract

/-- How severe an event is. -/
inductive Level where
  | error
  | warn
  | info
  | debug
  deriving DecidableEq, Repr

def Level.name : Level → String
  | .error => "ERROR"
  | .warn => "WARN"
  | .info => "INFO"
  | .debug => "DEBUG"

/-- The place of a level, the most severe first. -/
def Level.rank : Level → Nat
  | .error => 0
  | .warn => 1
  | .info => 2
  | .debug => 3

/-- The value of a field. -/
inductive FieldValue where
  | text (s : String)
  | count (n : Nat)
  deriving DecidableEq, Repr

/-- Something that happened. -/
inductive Event where
  /-- A capture in an inserted path has no name. -/
  | emptyCapture (segment path : String)
  /-- A node was created below a greedy capture. -/
  | belowGreedy (segment parent : String)
  /-- A capture was created beside another one. -/
  | siblingCaptures (segment existing parent : String)
  /-- A node was created. -/
  | nodeCreated (parent node : Nat) (segment : String)
  /-- A definition turned out to be an integration. -/
  | probedIntegration (kind : String)
  /-- A definition turned out to wrap an integration. -/
  | probedWrapped (kind : String)
  /-- A definition turned out to name a compute unit. -/
  | probedCompute (function : String)
  /-- A resource keeps the preflight it has, though another one was asked for. -/
  | preflightKept
  /-- A route replaces an earlier one of the same path. -/
  | routeRedeclared (path : String)
  /-- A manifest file is being read. -/
  | readingManifest (manifest format : String)
  /-- A key of the manifest means nothing. -/
  | unknownManifestKey (key : String)
  /-- A key of the global section means nothing. -/
  | unknownGlobalKey (key : String)
  /-- The global section asks for an authorizer without naming one. -/
  | unnamedGlobalAuthorizer
  /-- A key beside a proxy entry means nothing. -/
  | proxyKeyIgnored (path key : String)
  /-- A key of a route means nothing. -/
  | unknownRouteKey (path key : String)
  /-- An assembly begins. -/
  | assembling (name : String) (routes : Nat)
  /-- A declared method cannot be declared by routes. -/
  | methodSkipped (path method : String)
  /-- A method was attached to a resource. -/
  | methodAttached (path method integration authorization : String)
  /-- A request validator was created. -/
  | validatorCreated (artifact : String)
  /-- A model was created. -/
  | modelCreated (artifact : String)
  /-- An assembly succeeded. -/
  | assembled (name : String) (resources methods models validators : Nat)
  /-- An assembly failed. -/
  | assemblyFailed (name error : String)
  /-- The command line program begins. -/
  | starting (name stage : String)
  /-- A descriptor was written to a file. -/
  | descriptorWritten (output : String) (methods : Nat)
  /-- The command line program failed. -/
  | commandFailed (error : String)
  deriving DecidableEq, Repr

namespace Event

/-- The level of an event. -/
def level : Event → Level
  | assemblyFailed .. | commandFailed .. => .error
  | emptyCapture .. | belowGreedy .. | siblingCaptures .. | routeRedeclared ..
  | unknownManifestKey .. | unknownGlobalKey .. | unnamedGlobalAuthorizer
  | proxyKeyIgnored .. | unknownRouteKey .. | methodSkipped .. => .warn
  | assembling .. | methodAttached .. | assembled .. | descriptorWritten .. => .info
  | nodeCreated .. | probedIntegration .. | probedWrapped .. | probedCompute ..
  | preflightKept | readingManifest .. | validatorCreated .. | modelCreated ..
  | starting .. => .debug

def message : Event → String
  | emptyCapture .. => "path parameter has an empty name"
  | belowGreedy .. => "path continues below a greedy segment"
  | siblingCaptures .. => "sibling path captures"
  | nodeCreated .. => "created path node"
  | probedIntegration .. | probedWrapped .. | probedCompute .. => "probed resource definition"
  | preflightKept => "preflight already registered with different options; keeping the first"
  | routeRedeclared .. => "route declared twice; keeping the last declaration"
  | readingManifest .. => "reading manifest"
  | unknownManifestKey .. => "unknown manifest key ignored"
  | unknownGlobalKey .. => "unknown global key ignored"
  | unnamedGlobalAuthorizer => "global auth 'true' names no authorizer; routes stay open"
  | proxyKeyIgnored .. => "key ignored on proxy route"
  | unknownRouteKey .. => "unknown route key ignored"
  | assembling .. => "assembling API"
  | methodSkipped .. => "routes cannot declare this method; skipped"
  | methodAttached .. => "method attached"
  | validatorCreated .. => "request validator created"
  | modelCreated .. => "model created"
  | assembled .. => "API assembled"
  | assemblyFailed .. => "API assembly failed"
  | starting .. => "portico starting"
  | descriptorWritten .. => "descriptor written"
  | commandFailed error => error

def fields : Event → List (String × FieldValue)
  | emptyCapture segment path => [("segment", .text segment), ("path", .text path)]
  | belowGreedy segment parent => [("segment", .text segment), ("parent", .text parent)]
  | siblingCaptures segment existing parent =>
    [("segment", .text segment), ("existing", .text existing), ("parent", .text parent)]
  | nodeCreated parent node segment =>
    [("parent", .count parent), ("node", .count node), ("segment", .text segment)]
  | probedIntegration kind => [("shape", .text "integration"), ("kind", .text kind)]
  | probedWrapped kind => [("shape", .text "wrapped"), ("kind", .text kind)]
  | probedCompute function => [("shape", .text "compute"), ("function", .text function)]
  | preflightKept => []
  | routeRedeclared path => [("api.path", .text path)]
  | readingManifest manifest format => [("manifest", .text manifest), ("format", .text format)]
  | unknownManifestKey key => [("key", .text key)]
  | unknownGlobalKey key => [("key", .text key)]
  | unnamedGlobalAuthorizer => []
  | proxyKeyIgnored path key => [("api.path", .text path), ("key", .text key)]
  | unknownRouteKey path key => [("api.path", .text path), ("key", .text key)]
  | assembling name routes => [("api.name", .text name), ("routes", .count routes)]
  | methodSkipped path method => [("api.path", .text path), ("http.method", .text method)]
  | methodAttached path method integration authorization =>
    [("api.path", .text path), ("http.method", .text method),
     ("integration", .text integration), ("authorization", .text authorization)]
  | validatorCreated artifact => [("artifact", .text artifact)]
  | modelCreated artifact => [("artifact", .text artifact)]
  | assembled name resources methods models validators =>
    [("api.name", .text name), ("resources", .count resources), ("methods", .count methods),
     ("models", .count models), ("validators", .count validators)]
  | assemblyFailed name error => [("api.name", .text name), ("error", .text error)]
  | starting name stage => [("api.name", .text name), ("stage", .text stage)]
  | descriptorWritten output methods => [("output", .text output), ("methods", .count methods)]
  | commandFailed _ => []

end Event

end RestContract
