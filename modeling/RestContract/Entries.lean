-- Entries: pairs of a key and a value, in the order in which the keys first came.
-- A key that comes again keeps its place and takes the newer value.
namespace RestContract

/-- Pairs of a key and a value in insertion order. -/
abbrev Entries (κ α : Type) := List (κ × α)

namespace Entries

variable {κ α : Type} [BEq κ]

/-- The value stored under a key. -/
def get? (es : Entries κ α) (k : κ) : Option α := es.lookup k

def has (es : Entries κ α) (k : κ) : Bool := es.any (·.1 == k)

/-- Stores a value under a key: in place if the key is there, else at the end. -/
def put (es : Entries κ α) (k : κ) (v : α) : Entries κ α :=
  match es with
  | [] => [(k, v)]
  | e :: rest => if e.1 == k then (k, v) :: rest else e :: put rest k v

/-- The entries that a sequence of pairs leaves behind. -/
def ofPairs (pairs : List (κ × α)) : Entries κ α :=
  pairs.foldl (fun es p => put es p.1 p.2) []

def keys (es : Entries κ α) : List κ := es.map (·.1)

def values (es : Entries κ α) : List α := es.map (·.2)

/-- Equality of entries in any order, given an equality of values. -/
def same (eq : α → α → Bool) (as bs : Entries κ α) : Bool :=
  as.length == bs.length && as.all fun e =>
    match get? bs e.1 with
    | some b => eq e.2 b
    | none => false

end Entries

end RestContract
