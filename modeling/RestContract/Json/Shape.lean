-- Shapes: how a value of a type is read from JSON. A record may be written as an
-- object or as the array of its fields in their order; a tagged union carries the
-- name of its variant in one of its fields, or in front of the array.
import RestContract.Json.Value

namespace RestContract

/-- How a type is read from a JSON value; nothing if the value does not fit. -/
abbrev Shape (α : Type) := Json → Option α

namespace Shape

variable {α : Type}

/-! ## Scalars and containers -/

def text : Shape String
  | .str s => some s
  | _ => none

/-- `true` or `false`. -/
def flag : Shape Bool
  | .bool b => some b
  | _ => none

/-- An integer from zero to a limit; a floating point number does not count. -/
def upTo (limit : Nat) : Shape Nat
  | .num (.int n) => if 0 ≤ n && n ≤ limit then some n.toNat else none
  | _ => none

/-- Any value, in normal form. -/
def any : Shape Json := fun v => some v.normal

/-- An array of items of one shape. -/
def list (item : Shape α) : Shape (List α)
  | .arr items => items.mapM item
  | _ => none

/-- An object whose values have one shape. A repeated key keeps its first place and
takes its last value. -/
def map (item : Shape α) : Shape (Entries String α)
  | .obj entries =>
    (entries.mapM fun (e : String × Json) => (item e.2).map (e.1, ·)).map Entries.ofPairs
  | _ => none

/-- `null`, or a value of the shape. -/
def optional (item : Shape α) : Shape (Option α)
  | .null => some none
  | v => (item v).map some

/-- The first alternative that fits. -/
def either {β γ : Type} (left : Shape α) (right : Shape β) (inl : α → γ) (inr : β → γ) : Shape γ :=
  fun v => match left v with
    | some a => some (inl a)
    | none => (right v).map inr

/-! ## Choices -/

def isNull : Json → Bool
  | .null => true
  | _ => false

/-- A name out of a list. It may also be the only key of an object whose value says
nothing, as `blank` decides. -/
def choice (blank : Json → Bool) (names : List (String × α)) : Shape α
  | .str s => names.lookup s
  | .obj [(s, v)] => if blank v then names.lookup s else none
  | _ => none

/-! ## Records -/

/-- Fields by name, as found in a document. -/
abbrev Fields := Entries String Json

/-- The known fields of an object. A known field must not repeat; if the record is
closed, there must be no other. -/
def objectFields (names : List String) (closed : Bool) (entries : Entries String Json) :
    Option Fields :=
  let known := entries.filter fun e => names.contains e.1
  let keys := Entries.keys known
  if closed && known.length != entries.length then none
  else if keys.eraseDups.length != keys.length then none
  else some known

/-- The fields of a record with the given field names. -/
def fields (names : List String) (closed : Bool) : Shape Fields
  | .obj entries => objectFields names closed entries
  | .arr items => if items.length ≤ names.length then some (names.zip items) else none
  | _ => none

/-- A field that must be there. -/
def required (fs : Fields) (name : String) (shape : Shape α) : Option α :=
  (Entries.get? fs name).bind shape

/-- A field with a value for when it is absent. -/
def withDefault (fs : Fields) (name : String) (default : α) (shape : Shape α) : Option α :=
  match Entries.get? fs name with
  | some v => shape v
  | none => some default

/-- A field that may be absent or `null`. -/
def maybe (fs : Fields) (name : String) (shape : Shape α) : Option (Option α) :=
  withDefault fs name none (optional shape)

/-! ## Tagged unions -/

/-- The value of the tag, and the rest of the value without it. -/
def tagged (tag : String) : Shape (Json × Json)
  | .obj entries =>
    match entries.filter (·.1 == tag) with
    | [(_, name)] => some (name, .obj (entries.filter (·.1 != tag)))
    | _ => none
  | .arr (name :: items) => some (name, .arr items)
  | _ => none

/-- What is left of a variant without fields: any object, or no more items. -/
def nothingLeft : Json → Bool
  | .obj _ => true
  | .arr [] => true
  | _ => false

end Shape

end RestContract
