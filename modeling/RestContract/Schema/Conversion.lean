-- Conversion of type schemas to validation documents. Absence and `null` only show in
-- which properties are required; records, maps, sets, functions and literals that are
-- containers have no document. Conversion goes on below the outer layers of a field, so the
-- size of a schema bounds it, and it is left open to evaluation.
import RestContract.Schema.Document
import RestContract.Schema.Rendering

namespace RestContract

/-- Why a schema has no document. -/
inductive SchemaError where
  /-- A schema of this kind, rendered, has no document. -/
  | unsupported (kind node : String)
  /-- The schema of a model is of this kind and not an object. -/
  | nonObjectModel (kind : String)
  deriving DecidableEq, Repr

def SchemaError.message : SchemaError → String
  | unsupported kind node => "Unsupported field type: " ++ kind ++ " (" ++ node ++ ")"
  | nonObjectModel kind => "Model schema must be an object, got " ++ kind

def TypeSchema.unsupported (s : TypeSchema) : SchemaError := .unsupported s.kindName s.render

namespace Document

/-- The document of a literal, unless it is a container. -/
def ofLiteral? : Json → Option Document
  | .str s => some ((ofType .string).withEnum [.str s])
  | .num n => some ((ofType .number).withEnum [.num n])
  | .bool b => some ((ofType .boolean).withEnum [.bool b])
  | .null => some (ofType .null)
  | .arr _ | .obj _ => none

/-- An entry of a compiled enum is kept unless its value is the name of a number: such
entries only lead back from numbers to names. -/
def isForward (values : Entries String EnumValue) (value : EnumValue) : Bool :=
  !((Entries.get? values value.key).any EnumValue.isNumber)

def typeOf (value : EnumValue) : PrimitiveType := if value.isNumber then .number else .string

/-- The types of some values: each once, in the order of their first value. -/
def typesOf (values : List EnumValue) : Types :=
  match (values.map typeOf).eraseDups with
  | [t] => .one t
  | ts => .anyOf ts

def ofNativeEnum (values : Entries String EnumValue) : Document :=
  let kept := (Entries.values values).filter (isForward values)
  if kept.isEmpty then never
  else { types := some (typesOf kept), enumValues := kept.map EnumValue.toJson }

/-- The names of the fields that must be there. -/
def requiredFields (fields : List (String × TypeSchema)) : List String :=
  Entries.keys (fields.filter fun f => !f.2.isOptionalOrNullable)

end Document

namespace TypeSchema

open Document

mutual

/-- The document of a schema. -/
@[semireducible]
def convert : TypeSchema → Except SchemaError Document
  | string => .ok (ofType .string)
  | number => .ok (ofType .number)
  | boolean => .ok (ofType .boolean)
  | bigint => .ok ((ofType .integer).withFormat "int64")
  | literal value =>
    match ofLiteral? value with
    | some d => .ok d
    | none => .error (literal value).unsupported
  | enum values => .ok ((ofType .string).withEnum (values.map .str))
  | nativeEnum values => .ok (ofNativeEnum values)
  | object fields => do
    let properties ← convertFields fields
    return { ofType .object with
      properties := Entries.ofPairs properties, required := requiredFields fields }
  | array element => do return arrayOf (← convert element)
  | tuple elements => do
    let ds ← convertAll elements
    return { ofType .array with items := some (.places ds), minItems := some ds.length }
  | union variants | discriminatedUnion _ variants => do
    return { oneOf := ← convertAll variants }
  | intersection left right => do
    let l ← convert left
    let r ← convert right
    return { allOf := [l, r] }
  | optional inner | nullable inner => convert inner
  | lazy _ built => convert built
  | null => .ok (ofType .null)
  | void => .ok never
  | unknown => .ok any
  | date => .ok ((ofType .string).withFormat "date-time")
  | record value => .error (record value).unsupported
  | map key value => .error (map key value).unsupported
  | set element => .error (set element).unsupported
  | function => .error function.unsupported
termination_by s => sizeOf s

/-- The documents of a list of schemas; the first that fails decides. -/
@[semireducible]
def convertAll : List TypeSchema → Except SchemaError (List Document)
  | [] => .ok []
  | s :: ss => do
    let d ← convert s
    let ds ← convertAll ss
    return d :: ds
termination_by ss => sizeOf ss

/-- The documents of fields by name, each of the schema below the outer layers; the first that
fails decides. -/
@[semireducible]
def convertFields : List (String × TypeSchema) → Except SchemaError (List (String × Document))
  | [] => .ok []
  | (name, s) :: fs => do
    let d ← convert s.unwrapped
    let ds ← convertFields fs
    return (name, d) :: ds
termination_by fs => sizeOf fs
decreasing_by
  · have hle := s.sizeOf_unwrapped_le
    simp only [List.cons.sizeOf_spec, Prod.mk.sizeOf_spec]
    omega
  · decreasing_tactic

end

/-- The document of the schema of a model, which has to be an object itself. -/
def convertModel (s : TypeSchema) : Except SchemaError Document :=
  match s with
  | object _ => convert s
  | s => .error (.nonObjectModel s.kindName)

end TypeSchema

end RestContract
