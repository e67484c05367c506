-- Schemas as one line of text for messages: each node is the name of its variant with
-- its parts in braces, and strings are quoted.
import RestContract.Json.Printer
import RestContract.Schema.Type

namespace RestContract

namespace Rendering

/-- Parts between two brackets, with a comma and a space between two of them. -/
def listed (opening closing : String) (parts : List String) : String :=
  opening ++ String.intercalate ", " parts ++ closing

/-- A name with its parts in braces, each with its own name. -/
def record (name : String) (parts : List (String × String)) : String :=
  name ++ listed " \x7b " " \x7d" (parts.map fun (n, p) => n ++ ": " ++ p)

mutual

/-- A JSON value. -/
def json : Json → String
  | .null => "Null"
  | .bool true => "Bool(true)"
  | .bool false => "Bool(false)"
  | .num n => "Number(" ++ n.text ++ ")"
  | .str s => "String(" ++ Text.quoted s ++ ")"
  | .arr items => "Array " ++ listed "[" "]" (jsonItems items)
  | .obj entries => "Object " ++ listed "\x7b" "\x7d" (jsonEntries entries)

def jsonItems : List Json → List String
  | [] => []
  | v :: vs => json v :: jsonItems vs

def jsonEntries : List (String × Json) → List String
  | [] => []
  | (k, v) :: es => (Text.quoted k ++ ": " ++ json v) :: jsonEntries es

end

/-- The value of an enum entry. -/
def enumValue : EnumValue → String
  | .text s => "String(" ++ Text.quoted s ++ ")"
  | .number n => "Number(Number(" ++ n.text ++ "))"

end Rendering

namespace TypeSchema

open Rendering

mutual

/-- The schema as one line of text. The schema of a thunk is not shown. -/
def render : TypeSchema → String
  | string => "String"
  | number => "Number"
  | boolean => "Boolean"
  | bigint => "BigInt"
  | literal value => Rendering.record "Literal" [("value", json value)]
  | enum values => Rendering.record "Enum" [("values", listed "[" "]" (values.map Text.quoted))]
  | nativeEnum values =>
    Rendering.record "NativeEnum" [("values", listed "\x7b" "\x7d"
      (values.map fun e => Text.quoted e.1 ++ ": " ++ enumValue e.2))]
  | object fields =>
    Rendering.record "Object" [("fields", listed "\x7b" "\x7d" (renderFields fields))]
  | array element => Rendering.record "Array" [("element", render element)]
  | tuple elements => Rendering.record "Tuple" [("elements", listed "[" "]" (renderAll elements))]
  | union variants => Rendering.record "Union" [("variants", listed "[" "]" (renderAll variants))]
  | discriminatedUnion discriminator variants =>
    Rendering.record "DiscriminatedUnion" [("discriminator", Text.quoted discriminator),
      ("variants", listed "[" "]" (renderAll variants))]
  | intersection left right =>
    Rendering.record "Intersection" [("left", render left), ("right", render right)]
  | optional inner => Rendering.record "Optional" [("inner", render inner)]
  | nullable inner => Rendering.record "Nullable" [("inner", render inner)]
  | lazy .. => "Lazy(LazySchema(..))"
  | null => "Null"
  | void => "Void"
  | unknown => "Unknown"
  | date => "Date"
  | record value => Rendering.record "Record" [("value", render value)]
  | map key value => Rendering.record "Map" [("key", render key), ("value", render value)]
  | set element => Rendering.record "Set" [("element", render element)]
  | function => "Function"

def renderAll : List TypeSchema → List String
  | [] => []
  | s :: ss => render s :: renderAll ss

def renderFields : List (String × TypeSchema) → List String
  | [] => []
  | (k, s) :: fs => (Text.quoted k ++ ": " ++ render s) :: renderFields fs

end

end TypeSchema

end RestContract
