-- A build: what is there of a contract while it is assembled, with what has been told
-- and counted so far. The steps on it either change it or end the assembly; what was
-- told and counted before the end stays.
import RestContract.Assembly.Error
import RestContract.Contract.Basic
import RestContract.Declaration
import RestContract.Journal.Metric
import RestContract.Naming

namespace RestContract

/-- A contract under construction. -/
structure Build where
  resources : ResourceTree := PathTree.new {}
  models : Entries String Model := []
  validators : Entries String RequestValidator := []
  events : List Event := []
  measurements : List Measurement := []

namespace Build

def hasArtifact (b : Build) (name : String) : Bool :=
  Entries.has b.models name || Entries.has b.validators name

def tell (b : Build) (events : List Event) : Build := { b with events := b.events ++ events }

def measure (b : Build) (m : Measurement) : Build :=
  { b with measurements := b.measurements ++ [m] }

/-- The node that a path leads to from a node, and the build with it. -/
def reach (b : Build) (start : NodeId) (path : String) : NodeId × Build :=
  let a := b.resources.insertAt start path
  (a.node, { b with resources := a.tree }.tell a.events)

def attachments (b : Build) (id : NodeId) : Attachments := b.resources.attachments id

/-- What is told about a method that is attached to a node. -/
def attachEvent (b : Build) (id : NodeId) (m : AttachedMethod) : Event :=
  .methodAttached (b.resources.pathOf id) m.method.name m.integration.typeName m.authorizationType

def withMethod (b : Build) (id : NodeId) (m : AttachedMethod) : Build :=
  { b with resources := b.resources.modifyPayload id (·.attach m) }
    |>.measure (.methodAttached m.method.name m.integration.typeName)
    |>.tell [b.attachEvent id m]

def withValidator (b : Build) (v : RequestValidator) : Build :=
  { b with validators := Entries.put b.validators v.name v }.tell [.validatorCreated v.name]

def withModel (b : Build) (m : Model) : Build :=
  { b with models := Entries.put b.models m.name m }
    |>.measure .modelGenerated
    |>.tell [.modelCreated m.name]

/-- The build with CORS options in the slot of a node, as they were registered. -/
def withPreflight (b : Build) (id : NodeId) (r : CorsOptions.Registration) : Build :=
  { b with resources := b.resources.modifyPayload id fun a => { a with cors := some r.slot } }
    |>.tell r.events

end Build

/-- A step of an assembly. -/
abbrev Assembling (α : Type) := EStateM AssemblyError Build α

namespace Assembling

/-- Attaches a method to a node that does not have it. -/
def attach (id : NodeId) (m : AttachedMethod) : Assembling Unit := do
  let b ← get
  if (b.attachments id).has m.method then
    throw (.duplicateMethod m.method (b.resources.pathOf id))
  set (b.withMethod id m)

/-- Creates a request validator under a name that is free. -/
def addValidator (v : RequestValidator) : Assembling Unit := do
  let b ← get
  if b.hasArtifact v.name then throw (.duplicateArtifact v.name)
  set (b.withValidator v)

/-- Creates the model of a schema under a name that is free. -/
def addModel (name : String) (schema : TypeSchema) : Assembling Unit := do
  let b ← get
  if b.hasArtifact name then throw (.duplicateArtifact name)
  match schema.convertModel with
  | .ok document => set (b.withModel { name, document })
  | .error e => throw (.schema e)

/-- Goes to the node of a path below a node. -/
def reach (start : NodeId) (path : String) : Assembling NodeId := do
  let b ← get
  let (id, b) := b.reach start path
  set b
  return id

def tell (events : List Event) : Assembling Unit := modify (·.tell events)

end Assembling

end RestContract
