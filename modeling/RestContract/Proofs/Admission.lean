-- What validation documents demand of values, as draft 4 of JSON Schema reads their keywords. A
-- keyword whose list is empty is not written, so it demands nothing.
import RestContract.Schema.Document

namespace RestContract

/-- The value is of a primitive type. A number that was written with a point is no integer. -/
def PrimitiveType.fits : PrimitiveType → Json → Bool
  | .string, .str _ | .number, .num _ | .integer, .num (.int _) | .boolean, .bool _ => true
  | .array, .arr _ | .object, .obj _ | .null, .null => true
  | _, _ => false

/-- The value is of the type, or of one of the types. -/
def Types.fit : Types → Json → Bool
  | .one t, v => t.fits v
  | .anyOf ts, v => ts.any (·.fits v)

namespace Document

/-- The value is one of those listed, if any is listed. -/
def listed (values : List Json) (v : Json) : Bool := values.isEmpty || values.any (·.same v)

/-- An object has a value under each of the names. -/
def has (names : List String) : Json → Bool
  | .obj entries => names.all (Entries.has entries)
  | _ => true

/-- An array has at least so many items. -/
def reaches (count : Nat) : Json → Bool
  | .arr items => count ≤ items.length
  | _ => true

mutual

/-- The value meets every keyword of the document; the format is a remark. -/
def admits : Document → Json → Bool
  | ⟨types, _, enumValues, properties, required, items, minItems, oneOf, allOf, negated⟩, v =>
    types.all (Types.fit · v) && listed enumValues v && admitsProperties properties v &&
      has required v && admitsItems items v && minItems.all (reaches · v) &&
      (oneOf.isEmpty || (verdicts oneOf v).count true == 1) && (verdicts allOf v).all id &&
      admitsNegated negated v

/-- What an object has under the name of a property meets the document of the property. -/
def admitsProperties : List (String × Document) → Json → Bool
  | [], _ => true
  | (k, d) :: ps, v =>
    (match v.get? k with
      | some w => admits d w
      | none => true) && admitsProperties ps v

/-- Every item of an array meets the document, or the document of its place. -/
def admitsItems : Option (Items Document) → Json → Bool
  | none, _ => true
  | some (.every d), v => match v with
    | .arr items => items.all fun item => admits d item
    | _ => true
  | some (.places ds), v => match v with
    | .arr items => admitsPlaces ds items
    | _ => true

/-- Every item meets the document of its place, as far as there are places. -/
def admitsPlaces : List Document → List Json → Bool
  | d :: ds, v :: vs => admits d v && admitsPlaces ds vs
  | _, _ => true

/-- Which of the documents the value meets. -/
def verdicts : List Document → Json → List Bool
  | [], _ => []
  | d :: ds, v => admits d v :: verdicts ds v

/-- The value does not meet the document. -/
def admitsNegated : Option Document → Json → Bool
  | none, _ => true
  | some d, v => !admits d v

end

variable (v : Json)

/-- A document without properties, items and lists of documents. -/
theorem admits_plain (types : Option Types) (format : Option String) (values : List Json)
    (negated : Option Document) :
    ({ types := types, format := format, enumValues := values,
        negated := negated } : Document).admits v =
      (types.all (Types.fit · v) && listed values v && admitsNegated negated v) := by
  have hrequired : has [] v = true := by cases v <;> rfl
  simp [admits, admitsProperties, hrequired, admitsItems, verdicts]

@[simp] theorem admits_any : any.admits v = true := admits_plain v none none [] none

@[simp] theorem admits_never : never.admits v = false := by
  have hnever : never.admits v = !any.admits v := admits_plain v none none [] (some any)
  rw [hnever, admits_any, Bool.not_true]

@[simp] theorem admits_ofType (t : PrimitiveType) : (ofType t).admits v = t.fits v := by
  have htype : (ofType t).admits v = (t.fits v && true && true) :=
    admits_plain v (some (.one t)) none [] none
  rw [htype, Bool.and_true, Bool.and_true]

end Document

end RestContract
