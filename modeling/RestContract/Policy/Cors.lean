-- CORS options: which pages of other origins may use an API, the checks that browsers
-- make on them, and the headers that answer a preflight.
import RestContract.Backend.Integration
import RestContract.Journal.Event

namespace RestContract

/-- The longest time that browsers keep a preflight, in seconds. -/
def maxAgeLimitSecs : Nat := 86400

structure CorsOptions where
  /-- Allowed origins; a star allows any. -/
  allowOrigins : List String := ["*"]
  allowMethods : List String := ["OPTIONS", "GET", "PUT", "POST", "DELETE", "PATCH", "HEAD"]
  allowHeaders : List String := ["Content-Type", "X-Amz-Date", "Authorization", "X-Api-Key",
    "X-Amz-Security-Token", "X-Amz-User-Agent"]
  exposeHeaders : List String := []
  allowCredentials : Bool := false
  /-- How long a preflight may be kept, in seconds. -/
  maxAgeSecs : Option Nat := none
  deriving DecidableEq, Repr, Inhabited

/-- Why options cannot be used. -/
inductive CorsError where
  | noOrigins
  | credentialsWithAnyOrigin
  | maxAgeTooLarge (secs : Nat)
  deriving DecidableEq, Repr

def CorsError.message : CorsError → String
  | noOrigins => "CORS options must allow at least one origin"
  | credentialsWithAnyOrigin => "CORS credentials cannot be allowed for the '*' origin"
  | maxAgeTooLarge secs => "CORS max age " ++ toString secs ++ "s exceeds the 86400s limit"

namespace CorsOptions

/-- A star is among the origins. -/
def allowsAnyOrigin (c : CorsOptions) : Bool := c.allowOrigins.contains "*"

/-- The checks that browsers make, in order. -/
def validate (c : CorsOptions) : Except CorsError Unit :=
  if c.allowOrigins.isEmpty then .error .noOrigins
  else if c.allowCredentials && c.allowsAnyOrigin then .error .credentialsWithAnyOrigin
  else match c.maxAgeSecs with
    | some secs => if maxAgeLimitSecs < secs then .error (.maxAgeTooLarge secs) else .ok ()
    | none => .ok ()

/-- The headers that answer a preflight. Only the first origin is named. -/
def preflightHeaders (c : CorsOptions) : Entries String String :=
  (c.allowOrigins.head?.map fun o => ("Access-Control-Allow-Origin", o)).toList ++
  [("Access-Control-Allow-Methods", String.intercalate "," c.allowMethods),
   ("Access-Control-Allow-Headers", String.intercalate "," c.allowHeaders)] ++
  (if c.allowCredentials then [("Access-Control-Allow-Credentials", "true")] else []) ++
  (if c.exposeHeaders.isEmpty then []
    else [("Access-Control-Expose-Headers", String.intercalate "," c.exposeHeaders)]) ++
  (c.maxAgeSecs.map fun secs => ("Access-Control-Max-Age", toString secs)).toList

/-- What is left of a slot for the options of one resource after options are asked for:
the first ones stay. -/
structure Registration where
  slot : CorsOptions
  /-- The slot was empty before. -/
  isNew : Bool
  events : List Event

/-- Asks a slot to hold options. -/
def register (slot : Option CorsOptions) (c : CorsOptions) : Registration :=
  match slot with
  | none => { slot := c, isNew := true, events := [] }
  | some first =>
    { slot := first, isNew := false, events := if first == c then [] else [.preflightKept] }

def toJson (c : CorsOptions) : Json :=
  .obj ([("allowOrigins", .strings c.allowOrigins), ("allowMethods", .strings c.allowMethods),
      ("allowHeaders", .strings c.allowHeaders)] ++
    Json.unlessEmpty "exposeHeaders" (.strings c.exposeHeaders) ++
    [("allowCredentials", .bool c.allowCredentials)] ++
    Json.given "maxAgeSecs" .nat c.maxAgeSecs)

open Shape

/-- Options as an object without unknown fields, or an array. -/
def shape : Shape CorsOptions := fun v => do
  let fs ← fields ["allowOrigins", "allowMethods", "allowHeaders", "exposeHeaders",
    "allowCredentials", "maxAgeSecs"] true v
  let default : CorsOptions := {}
  return {
    allowOrigins := ← withDefault fs "allowOrigins" default.allowOrigins (list text)
    allowMethods := ← withDefault fs "allowMethods" default.allowMethods (list text)
    allowHeaders := ← withDefault fs "allowHeaders" default.allowHeaders (list text)
    exposeHeaders := ← withDefault fs "exposeHeaders" [] (list text)
    allowCredentials := ← withDefault fs "allowCredentials" false flag
    maxAgeSecs := ← maybe fs "maxAgeSecs" (upTo maxUInt64) }

end CorsOptions

end RestContract
