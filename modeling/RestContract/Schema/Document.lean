-- Validation documents: the part of JSON Schema that gateways take for the models of
-- requests and responses. Keywords without a value are left out, so the empty document
-- is `{}` and admits anything.
import RestContract.Json.Shape
import RestContract.Numeral.Limits

namespace RestContract

inductive PrimitiveType where
  | string
  | number
  | integer
  | boolean
  | array
  | object
  | null
  deriving DecidableEq, Repr, Inhabited

def PrimitiveType.name : PrimitiveType → String
  | .string => "string"
  | .number => "number"
  | .integer => "integer"
  | .boolean => "boolean"
  | .array => "array"
  | .object => "object"
  | .null => "null"

def PrimitiveType.names : List (String × PrimitiveType) :=
  [string, number, integer, boolean, array, object, null].map fun t => (t.name, t)

/-- The keyword `type`: one type, or some of which one has to fit. -/
inductive Types where
  | one (t : PrimitiveType)
  | anyOf (ts : List PrimitiveType)
  deriving DecidableEq, Repr

/-- The keyword `items`: one document for every item, or a document for each place. -/
inductive Items (α : Type) where
  | every (d : α)
  | places (ds : List α)

/-- A validation document. -/
structure Document where
  types : Option Types := none
  format : Option String := none
  enumValues : List Json := []
  properties : List (String × Document) := []
  required : List String := []
  items : Option (Items Document) := none
  minItems : Option Nat := none
  oneOf : List Document := []
  allOf : List Document := []
  negated : Option Document := none

namespace Document

/-! ## Building -/

/-- The document that admits anything. -/
def any : Document := {}

/-- The document of a single type. -/
def ofType (t : PrimitiveType) : Document := { types := some (.one t) }

/-- The document that admits nothing. -/
def never : Document := { negated := some any }

/-- The document of arrays of which every item fits a document. -/
def arrayOf (d : Document) : Document := { ofType .array with items := some (.every d) }

def withFormat (d : Document) (format : String) : Document := { d with format := some format }

def withEnum (d : Document) (values : List Json) : Document := { d with enumValues := values }

/-- The document with one more property; a property that is there is replaced. -/
def property (d : Document) (name : String) (p : Document) : Document :=
  { d with properties := Entries.put d.properties name p }

/-- The document with one more required property. -/
def requiredProperty (d : Document) (name : String) : Document :=
  { d with required := d.required ++ [name] }

/-- No keyword has a value. -/
def isAny (d : Document) : Bool :=
  d.types.isNone && d.format.isNone && d.enumValues.isEmpty && d.properties.isEmpty &&
    d.required.isEmpty && d.items.isNone && d.minItems.isNone && d.oneOf.isEmpty &&
    d.allOf.isEmpty && d.negated.isNone

/-! ## Writing -/

def typesJson : Types → Json
  | .one t => .str t.name
  | .anyOf ts => .strings (ts.map PrimitiveType.name)

mutual

/-- The keywords of a document with their values, in their fixed order. -/
def entries : Document → List (String × Json)
  | ⟨types, format, enumValues, properties, required, items, minItems, oneOf, allOf, negated⟩ =>
    Json.given "type" typesJson types ++
    Json.given "format" .str format ++
    Json.unlessEmpty "enum" (.arr enumValues) ++
    Json.unlessEmpty "properties" (.obj (propertiesJson properties)) ++
    Json.unlessEmpty "required" (.strings required) ++
    itemsEntries items ++
    Json.given "minItems" .nat minItems ++
    Json.unlessEmpty "oneOf" (.arr (allJson oneOf)) ++
    Json.unlessEmpty "allOf" (.arr (allJson allOf)) ++
    negatedEntries negated

def propertiesJson : List (String × Document) → List (String × Json)
  | [] => []
  | (k, d) :: ps => (k, .obj (entries d)) :: propertiesJson ps

def allJson : List Document → List Json
  | [] => []
  | d :: ds => .obj (entries d) :: allJson ds

/-- The keyword `items`. -/
def itemsEntries : Option (Items Document) → List (String × Json)
  | none => []
  | some (.every d) => [("items", .obj (entries d))]
  | some (.places ds) => [("items", .arr (allJson ds))]

/-- The keyword `not`. -/
def negatedEntries : Option Document → List (String × Json)
  | none => []
  | some d => [("not", .obj (entries d))]

end

def toJson (d : Document) : Json := .obj d.entries

/-! ## Reading -/

open Shape

/-- The names of the keywords, in their fixed order. -/
def keywords : List String :=
  ["type", "format", "enum", "properties", "required", "items", "minItems", "oneOf", "allOf",
    "not"]

def typeShape : Shape PrimitiveType := choice isNull PrimitiveType.names

/-- One type, or a list of types. -/
def typesShape : Shape Types := either typeShape (list typeShape) .one .anyOf

/-- A document nested no deeper than the first argument says. -/
def shapeWithin : Nat → Shape Document
  | 0, _ => none
  | depth + 1, v => do
    let inner := shapeWithin depth
    let fs ← fields keywords false v
    return {
      types := ← maybe fs "type" typesShape
      format := ← maybe fs "format" text
      enumValues := ← withDefault fs "enum" [] (list Shape.any)
      properties := ← withDefault fs "properties" [] (Shape.map inner)
      required := ← withDefault fs "required" [] (list text)
      items := ← maybe fs "items" (either inner (list inner) .every .places)
      minItems := ← maybe fs "minItems" (upTo maxUInt64)
      oneOf := ← withDefault fs "oneOf" [] (list inner)
      allOf := ← withDefault fs "allOf" [] (list inner)
      negated := ← maybe fs "not" inner }

def shape : Shape Document := fun v => shapeWithin v.depth v

/-! ## Equality -/

mutual

/-- Equality of documents, with properties in any order. -/
def same : Document → Document → Bool
  | ⟨types, format, enumValues, properties, required, items, minItems, oneOf, allOf, negated⟩, d =>
    types == d.types && format == d.format && Json.sameItems enumValues d.enumValues &&
      (properties.length == d.properties.length && sameProperties properties d.properties) &&
      required == d.required && sameOptional items d.items && minItems == d.minItems &&
      sameAll oneOf d.oneOf && sameAll allOf d.allOf && sameNegated negated d.negated

/-- Equality of lists of documents, place by place. -/
def sameAll : List Document → List Document → Bool
  | [], [] => true
  | a :: as, b :: bs => same a b && sameAll as bs
  | _, _ => false

/-- Every property of the first list has an equal one in the second. -/
def sameProperties : List (String × Document) → List (String × Document) → Bool
  | [], _ => true
  | (k, a) :: as, bs =>
    (match Entries.get? bs k with
      | some b => same a b
      | none => false) && sameProperties as bs

/-- Equality of the keyword `items`. -/
def sameOptional : Option (Items Document) → Option (Items Document) → Bool
  | none, none => true
  | some (.every a), some (.every b) => same a b
  | some (.places as), some (.places bs) => sameAll as bs
  | _, _ => false

/-- Equality of the keyword `not`. -/
def sameNegated : Option Document → Option Document → Bool
  | none, none => true
  | some a, some b => same a b
  | _, _ => false

end

end Document

end RestContract
