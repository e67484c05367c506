-- JSON values. A number keeps whether it was written as an integer, and an object
-- keeps the order of its keys. A document that has just been read may still hold
-- repeated keys and numbers that are not finite; `normal` settles both.
import RestContract.Entries
import RestContract.Numeral.Shortest

namespace RestContract

/-- A JSON number: an integer, or a floating point number of 64 bits. -/
inductive Number where
  | int (n : Int)
  | float (d : Double)
  deriving DecidableEq, Repr, Inhabited

/-- Equality of numbers: `1` and `1.0` are different, `0.0` and `-0.0` are not. -/
def Number.same : Number → Number → Bool
  | .int m, .int n => m == n
  | .float a, .float b => a.same b
  | _, _ => false

inductive Json where
  | null
  | bool (b : Bool)
  | num (n : Number)
  | str (s : String)
  | arr (items : List Json)
  | obj (entries : List (String × Json))
  deriving Repr, Inhabited

namespace Json

def int (n : Int) : Json := .num (.int n)

def nat (n : Nat) : Json := .num (.int n)

def strings (ss : List String) : Json := .arr (ss.map .str)

def textMap (entries : Entries String String) : Json := .obj (entries.map fun e => (e.1, .str e.2))

/-- A field of an object under construction, left out if there is no value. -/
def given {α : Type} (name : String) (write : α → Json) : Option α → List (String × Json)
  | none => []
  | some a => [(name, write a)]

/-- A field with a container, left out if the container is empty. -/
def unlessEmpty (name : String) : Json → List (String × Json)
  | .arr [] | .obj [] => []
  | v => [(name, v)]

/-- The value under a key of an object; other values have no keys. -/
def get? : Json → String → Option Json
  | .obj entries, key => Entries.get? entries key
  | _, _ => none

/-- The value is neither `null` nor `false`. -/
def isTruthy : Json → Bool
  | .null => false
  | .bool b => b
  | _ => true

mutual

/-- Equality of values, with the keys of objects in any order. -/
def same : Json → Json → Bool
  | .null, .null => true
  | .bool a, .bool b => a == b
  | .num a, .num b => a.same b
  | .str a, .str b => a == b
  | .arr as, .arr bs => sameItems as bs
  | .obj as, .obj bs => as.length == bs.length && sameEntries as bs
  | _, _ => false

def sameItems : List Json → List Json → Bool
  | [], [] => true
  | a :: as, b :: bs => same a b && sameItems as bs
  | _, _ => false

/-- Every entry of the first list has an equal one in the second. -/
def sameEntries : List (String × Json) → List (String × Json) → Bool
  | [], _ => true
  | (k, a) :: as, bs =>
    (match Entries.get? bs k with
      | some b => same a b
      | none => false) && sameEntries as bs

end

mutual

/-- The value with each key of an object once, at its first place with its last value,
and `null` for numbers that are not finite. -/
def normal : Json → Json
  | .num (.float d) => if d.isFinite then .num (.float d) else .null
  | .arr items => .arr (normalItems items)
  | .obj entries => .obj (Entries.ofPairs (normalEntries entries))
  | v => v

def normalItems : List Json → List Json
  | [] => []
  | v :: vs => normal v :: normalItems vs

/-- The entries with their values in normal form, repeated keys still in place. -/
def normalEntries : List (String × Json) → List (String × Json)
  | [] => []
  | (k, v) :: es => (k, normal v) :: normalEntries es

end

mutual

/-- How deep containers nest in the value. -/
def depth : Json → Nat
  | .arr items => depthItems items + 1
  | .obj entries => depthEntries entries + 1
  | _ => 0

def depthItems : List Json → Nat
  | [] => 0
  | v :: vs => max (depth v) (depthItems vs)

def depthEntries : List (String × Json) → Nat
  | [] => 0
  | (_, v) :: es => max (depth v) (depthEntries es)

end

end Json

end RestContract
