-- Manifests: an API as it is declared in a file. Every definition is probed while the
-- manifest is read, and the first one that is refused ends the reading; keys that mean
-- nothing are only told about.
import RestContract.Declaration
import RestContract.Json.Reader
import RestContract.Manifest.Format
import RestContract.Manifest.Outline
import RestContract.Toml.Reader
import RestContract.Yaml.Outline

namespace RestContract

/-- A manifest that has been read. -/
structure Manifest where
  name : Option String := none
  policy : GlobalPolicy := {}
  /-- The routes by path, in the order of the file. -/
  routes : Entries String RouteDefinition := []

/-- A step of reading a manifest, with what has been told so far. -/
abbrev Reading (α : Type) := EStateM ManifestError (List Event) α

namespace Reading

def tell (events : List Event) : Reading Unit := modify (· ++ events)

/-- The result of reading a manifest, and what was told. -/
def outcome {α : Type} (r : Reading α) : Except ManifestError α × List Event :=
  match r.run [] with
  | .ok a events => (.ok a, events)
  | .error e events => (.error e, events)

end Reading

namespace Manifest

open Reading

/-! ## The global section -/

/-- The global authorizer. `true` asks for one without naming it, so there is none. -/
def readAuth (auth : Option Json) : Reading (Option Authorizer) :=
  match auth with
  | none => return none
  | some v =>
    match RouteAuth.shape v with
    | none => throw (.globalField "auth")
    | some (.authorizer a) => return some a
    | some .disabled => return none
    | some .inherit => do
      tell [.unnamedGlobalAuthorizer]
      return none

/-- The global CORS options. -/
def readCors (cors : Option Json) : Reading (Option CorsOptions) :=
  match cors with
  | none => return none
  | some v =>
    match CorsOptions.shape v with
    | none => throw (.globalField "cors")
    | some c => return some c

/-! ## Routes -/

/-- The key of a route that passes everything on. -/
def proxyKey : String := "proxy"

/-- The definition under a key of a route. -/
def probe (path key : String) (v : Json) : Reading ResourceDefinition := do
  tell (Probe.of v).events
  match ResourceDefinition.probe v with
  | .ok d => return d
  | .error e => throw (.definition path key e)

/-- The definition of a route that passes everything on, if its entry says something. -/
def proxy? (entries : Entries String Json) : Option Json :=
  (Entries.get? entries proxyKey).filter Json.isTruthy

/-- The methods with the one under a key, if the key is a method and says something. -/
def readEntry (path : String) (methods : Entries Method ResourceDefinition)
    (entry : String × Json) : Reading (Entries Method ResourceDefinition) :=
  match Method.ofRouteKey? entry.1 with
  | none => do
    tell [.unknownRouteKey path entry.1]
    return methods
  | some m =>
    if entry.2.isTruthy then
      return Entries.put methods m (← probe path entry.1 entry.2)
    else return methods

/-- The route of a path. -/
def readRoute (path : String) (entries : Entries String Json) : Reading RouteDefinition :=
  match proxy? entries with
  | some v => do
    tell (((Entries.keys entries).filter (· != proxyKey)).map fun key => .proxyKeyIgnored path key)
    return .proxy (← probe path proxyKey v)
  | none => return .methods (← entries.foldlM (readEntry path) [])

/-! ## Manifests -/

def ofOutline (o : Outline) : Reading Manifest := do
  tell (o.unknown.map .unknownManifestKey)
  tell (o.unknownGlobal.map .unknownGlobalKey)
  let authorizer ← readAuth o.auth
  let cors ← readCors o.cors
  let routes ← o.paths.mapM fun (path, entries) => return (path, ← readRoute path entries)
  return { name := o.name, policy := { authorizer, cors }, routes }

def outline? (text : String) : ManifestFormat → Option Outline
  | .json => (Json.read? text).bind Json.view.outline?
  | .toml => (Toml.read? text).bind Json.view.outline?
  | .yaml => Yaml.outline? text

def parse (text : String) (format : ManifestFormat) : Reading Manifest :=
  match outline? text format with
  | some o => ofOutline o
  | none => throw (.malformed format)

/-- The manifest of a file, given what paths lead to. The format follows the extension. -/
def ofFile (look : String → Found) (path : String) : Reading Manifest :=
  match ManifestFormat.ofPath path with
  | .error e => throw e
  | .ok format =>
    match (look path).text? with
    | none => throw (.unreadable path)
    | some text => do
      tell [.readingManifest path format.name]
      parse text format

/-- The declaration of a manifest, completed from settings. The name of the manifest wins
over the one of the settings. -/
def declaration (m : Manifest) (s : Settings) : Declaration :=
  Declaration.completedBy
    { name := m.name.getD s.api.name, policy := m.policy, routes := m.routes } s

end Manifest

end RestContract
