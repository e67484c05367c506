-- How schemas are read from JSON: a union tagged by its `kind`. There is no written
-- form of a lazy schema.
import RestContract.Json.Shape
import RestContract.Schema.Type

namespace RestContract

/-- The kinds that can be written, each with its other names. -/
def TypeKind.written : List (TypeKind × List String) := [
  (.string, []), (.number, []), (.boolean, []), (.bigint, []), (.literal, []), (.enum, []),
  (.nativeEnum, []), (.object, []), (.array, []), (.tuple, []), (.union, []),
  (.discriminatedUnion, []), (.intersection, []), (.optional, []), (.nullable, []), (.null, []),
  (.void, ["undefined", "never", "nan"]), (.unknown, ["any"]), (.date, []), (.record, []),
  (.map, []), (.set, []), (.function, [])]

def TypeKind.ofName? (name : String) : Option TypeKind :=
  (written.find? fun (k, others) => k.name == name || others.contains name).map (·.1)

/-- A kind as written: by its name, or, inside another schema, by its place in the list
of kinds. -/
def TypeKind.shape (inside : Bool) : Shape TypeKind
  | .str name => ofName? name
  | .num (.int n) => if inside && 0 ≤ n then (written[n.toNat]?).map (·.1) else none
  | _ => none

/-- A string or a number. -/
def EnumValue.shape : Shape EnumValue
  | .str s => some (.text s)
  | .num (.float d) => if d.isFinite then some (.number (.float d)) else none
  | .num n => some (.number n)
  | _ => none

namespace TypeSchema

open Shape

/-- The parts of a variant besides its tag, given how the schemas inside are read. -/
def variantShape (inner : Shape TypeSchema) (kind : TypeKind) : Shape TypeSchema := fun rest =>
  let bare (s : TypeSchema) : Option TypeSchema := if nothingLeft rest then some s else none
  match kind with
  | .string => bare string
  | .number => bare number
  | .boolean => bare boolean
  | .bigint => bare bigint
  | .literal => do
    let fs ← fields ["value"] false rest
    return literal (← required fs "value" any)
  | .enum => do
    let fs ← fields ["values"] false rest
    return enum (← required fs "values" (list text))
  | .nativeEnum => do
    let fs ← fields ["values"] false rest
    return nativeEnum (← required fs "values" (Shape.map EnumValue.shape))
  | .object => do
    let fs ← fields ["fields"] false rest
    return object (← withDefault fs "fields" [] (Shape.map inner))
  | .array => do
    let fs ← fields ["element"] false rest
    return array (← required fs "element" inner)
  | .tuple => do
    let fs ← fields ["elements"] false rest
    return tuple (← required fs "elements" (list inner))
  | .union => do
    let fs ← fields ["variants"] false rest
    return union (← required fs "variants" (list inner))
  | .discriminatedUnion => do
    let fs ← fields ["discriminator", "variants"] false rest
    return discriminatedUnion (← required fs "discriminator" text)
      (← required fs "variants" (list inner))
  | .intersection => do
    let fs ← fields ["left", "right"] false rest
    return intersection (← required fs "left" inner) (← required fs "right" inner)
  | .optional => do
    let fs ← fields ["inner"] false rest
    return optional (← required fs "inner" inner)
  | .nullable => do
    let fs ← fields ["inner"] false rest
    return nullable (← required fs "inner" inner)
  | .lazy => none
  | .null => bare null
  | .void => bare void
  | .unknown => bare unknown
  | .date => bare date
  | .record => do
    let fs ← fields ["value"] false rest
    return record (← required fs "value" inner)
  | .map => do
    let fs ← fields ["key", "value"] false rest
    return map (← required fs "key" inner) (← required fs "value" inner)
  | .set => do
    let fs ← fields ["element"] false rest
    return set (← required fs "element" inner)
  | .function => bare function

/-- A schema nested no deeper than the first argument says. -/
def shapeWithin : Nat → (inside : Bool) → Shape TypeSchema
  | 0, _, _ => none
  | depth + 1, inside, v =>
    match tagged "kind" v with
    | none => none
    | some (tag, rest) =>
      match TypeKind.shape inside tag with
      | none => none
      | some kind => variantShape (shapeWithin depth true) kind rest

/-- A schema. The flag says that it stands inside another value that is tried in several
ways. -/
def shapeInside (inside : Bool) : Shape TypeSchema := fun v => shapeWithin v.depth inside v

def shape : Shape TypeSchema := shapeInside false

end TypeSchema

end RestContract
