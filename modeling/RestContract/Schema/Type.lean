-- Type schemas: the structure of a JSON payload as a route declares it. A lazy schema
-- stands for a thunk; it has the number of its thunk and the schema the thunk builds.
import RestContract.Json.Value
import RestContract.Numeral.Limits

namespace RestContract

/-- The value of an entry of a compiled enum. -/
inductive EnumValue where
  | text (s : String)
  | number (n : Number)
  deriving DecidableEq, Repr, Inhabited

/-- The kind of a schema. -/
inductive TypeKind where
  | string | number | boolean | bigint | literal | enum | nativeEnum | object | array | tuple
  | union | discriminatedUnion | intersection | optional | nullable | lazy | null | void
  | unknown | date | record | map | set | function
  deriving DecidableEq, Repr

def TypeKind.name : TypeKind → String
  | .string => "string"
  | .number => "number"
  | .boolean => "boolean"
  | .bigint => "bigint"
  | .literal => "literal"
  | .enum => "enum"
  | .nativeEnum => "nativeEnum"
  | .object => "object"
  | .array => "array"
  | .tuple => "tuple"
  | .union => "union"
  | .discriminatedUnion => "discriminatedUnion"
  | .intersection => "intersection"
  | .optional => "optional"
  | .nullable => "nullable"
  | .lazy => "lazy"
  | .null => "null"
  | .void => "void"
  | .unknown => "unknown"
  | .date => "date"
  | .record => "record"
  | .map => "map"
  | .set => "set"
  | .function => "function"

inductive TypeSchema where
  | string
  | number
  | boolean
  /-- An integer of any size, written as one of 64 bits. -/
  | bigint
  /-- Exactly one value. -/
  | literal (value : Json)
  /-- One of some strings. -/
  | enum (values : List String)
  /-- A compiled enum: names with values, and the reverse entries of numbers. -/
  | nativeEnum (values : List (String × EnumValue))
  | object (fields : List (String × TypeSchema))
  | array (element : TypeSchema)
  /-- A list with a schema for each place. -/
  | tuple (elements : List TypeSchema)
  | union (variants : List TypeSchema)
  /-- A union whose variants are told apart by a field. -/
  | discriminatedUnion (discriminator : String) (variants : List TypeSchema)
  | intersection (left right : TypeSchema)
  /-- The inner schema, or absent. -/
  | optional (inner : TypeSchema)
  /-- The inner schema, or `null`. -/
  | nullable (inner : TypeSchema)
  /-- The schema that a thunk builds. -/
  | lazy (thunk : Nat) (built : TypeSchema)
  | null
  /-- No value at all. -/
  | void
  /-- Any value. -/
  | unknown
  | date
  | record (value : TypeSchema)
  | map (key value : TypeSchema)
  | set (element : TypeSchema)
  | function
  deriving Inhabited

namespace TypeSchema

def kind : TypeSchema → TypeKind
  | string => .string
  | number => .number
  | boolean => .boolean
  | bigint => .bigint
  | literal _ => .literal
  | enum _ => .enum
  | nativeEnum _ => .nativeEnum
  | object _ => .object
  | array _ => .array
  | tuple _ => .tuple
  | union _ => .union
  | discriminatedUnion .. => .discriminatedUnion
  | intersection .. => .intersection
  | optional _ => .optional
  | nullable _ => .nullable
  | lazy .. => .lazy
  | null => .null
  | void => .void
  | unknown => .unknown
  | date => .date
  | record _ => .record
  | map .. => .map
  | set _ => .set
  | function => .function

def kindName (s : TypeSchema) : String := s.kind.name

/-- The outermost layer says that the value may be absent or `null`. -/
def isOptionalOrNullable : TypeSchema → Bool
  | optional _ | nullable _ => true
  | _ => false

/-- The schema below the outer layers that say so. -/
def unwrapped : TypeSchema → TypeSchema
  | optional inner | nullable inner => inner.unwrapped
  | s => s

theorem sizeOf_unwrapped_le (s : TypeSchema) : sizeOf s.unwrapped ≤ sizeOf s := by
  fun_induction unwrapped s with
  | case1 inner ih | case2 inner ih =>
    simp only [optional.sizeOf_spec, nullable.sizeOf_spec]
    omega
  | case3 s => exact Nat.le_refl _

end TypeSchema

/-! ## Equality -/

def EnumValue.same : EnumValue → EnumValue → Bool
  | .text a, .text b => a == b
  | .number a, .number b => a.same b
  | _, _ => false

namespace TypeSchema

mutual

/-- Equality of schemas: fields and enum entries in any order, lazy schemas by their
thunks. -/
def same : TypeSchema → TypeSchema → Bool
  | string, string | number, number | boolean, boolean | bigint, bigint => true
  | literal a, literal b => a.same b
  | enum as, enum bs => as == bs
  | nativeEnum as, nativeEnum bs => Entries.same EnumValue.same as bs
  | object as, object bs => as.length == bs.length && sameFields as bs
  | array a, array b => same a b
  | tuple as, tuple bs => sameAll as bs
  | union as, union bs => sameAll as bs
  | discriminatedUnion d as, discriminatedUnion e bs => d == e && sameAll as bs
  | intersection a b, intersection c d => same a c && same b d
  | optional a, optional b => same a b
  | nullable a, nullable b => same a b
  | lazy m _, lazy n _ => m == n
  | null, null | void, void | unknown, unknown | date, date => true
  | record a, record b => same a b
  | map a b, map c d => same a c && same b d
  | set a, set b => same a b
  | function, function => true
  | _, _ => false

def sameAll : List TypeSchema → List TypeSchema → Bool
  | [], [] => true
  | a :: as, b :: bs => same a b && sameAll as bs
  | _, _ => false

/-- Every field of the first list has an equal one in the second. -/
def sameFields : List (String × TypeSchema) → List (String × TypeSchema) → Bool
  | [], _ => true
  | (k, a) :: as, bs =>
    (match Entries.get? bs k with
      | some b => same a b
      | none => false) && sameFields as bs

end

end TypeSchema

/-! ## Keys of enum values -/

/-- The key under which the reverse entry of a number stands: a whole number has no
point, and a floating point number past 64 bits counts as the last one within. -/
def Number.key : Number → String
  | .int n => toString n
  | .float d => if d.isWhole then toString (clampInt64 d.truncate) else d.plain

/-- The key under which the reverse entry of a value stands. -/
def EnumValue.key : EnumValue → String
  | .text s => s
  | .number n => n.key

def EnumValue.toJson : EnumValue → Json
  | .text s => .str s
  | .number n => .num n

def EnumValue.isNumber : EnumValue → Bool
  | .number _ => true
  | .text _ => false

end RestContract
