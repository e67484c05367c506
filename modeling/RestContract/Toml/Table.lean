-- Tables of TOML documents while they are built. A table is defined once: by a header,
-- or by the dotted keys of one table. A header may also go through tables that only
-- stand there because longer headers came first.
import RestContract.Json.Value

namespace RestContract.Toml

/-- How a table came to be. -/
inductive TableKind where
  /-- By a header of its own, or as the table around. -/
  | defined
  /-- On the way of a longer header. -/
  | implied
  /-- On the way of a dotted key. -/
  | dotted
  deriving DecidableEq, Repr

/-- What stands under a key. -/
inductive Item where
  | value (v : Json)
  | table (kind : TableKind) (entries : List (String × Item))
  /-- The tables of an array, oldest first, as headers with double brackets add them. -/
  | tables (rows : List (List (String × Item)))

namespace Item

mutual

/-- An item as a value. -/
def toJson : Item → Json
  | value v => v
  | table _ entries => .obj (entriesJson entries)
  | tables rows => .arr (rowsJson rows)

def entriesJson : List (String × Item) → List (String × Json)
  | [] => []
  | (k, i) :: es => (k, toJson i) :: entriesJson es

def rowsJson : List (List (String × Item)) → List Json
  | [] => []
  | row :: rows => .obj (entriesJson row) :: rowsJson rows

end

end Item

abbrev Table := List (String × Item)

namespace Table

/-- Changes the table that a path leads to, creating the tables that are not there. A path
of a dotted key does not go into tables that have a header. Of an array of tables, the
last one is meant. -/
def updateAt (byKey : Bool) (change : TableKind → Table → Option Table) :
    TableKind → List String → Table → Option Table
  | kind, [], es => change kind es
  | _, key :: path, es =>
    match Entries.get? es key with
    | none =>
      let kind := if byKey then TableKind.dotted else .implied
      (updateAt byKey change kind path []).map fun t => es ++ [(key, .table kind t)]
    | some (.value _) => none
    | some (.table kind t) =>
      if byKey && kind == .defined then none
      else (updateAt byKey change kind path t).map fun t => Entries.put es key (.table kind t)
    | some (.tables rows) =>
      match rows.getLast? with
      | none => none
      | some row =>
        (updateAt byKey change .defined path row).map fun row =>
          Entries.put es key (.tables (rows.dropLast ++ [row]))

/-- Adds a value under a key that is free. -/
def addValue (key : String) (v : Json) (es : Table) : Option Table :=
  if Entries.has es key then none else some (es ++ [(key, .value v)])

/-- Adds a value under a key, which may be dotted. A dotted key only adds to tables that
dotted keys created. -/
def addPair (es : Table) (key : List String × Json) : Option Table :=
  match key.1.getLast? with
  | none => none
  | some last =>
    let path := key.1.dropLast
    updateAt true (fun kind t =>
      if !path.isEmpty && kind != .dotted then none else addValue last key.2 t) .defined path es

/-- Adds values under their keys, in order. -/
def addPairs (es : Table) (pairs : List (List String × Json)) : Option Table :=
  pairs.foldlM addPair es

/-- Opens the table of a header, fills it, and puts it behind the others. The table may be
there already if only longer headers needed it. -/
def addTable (key : String) (pairs : List (List String × Json)) (es : Table) : Option Table :=
  match Entries.get? es key with
  | none => (addPairs [] pairs).map fun t => es ++ [(key, .table .defined t)]
  | some (.table .implied t) =>
    (addPairs t pairs).map fun t => es.filter (·.1 != key) ++ [(key, .table .defined t)]
  | some _ => none

/-- Adds a table to the array of a header with double brackets. -/
def addRow (key : String) (pairs : List (List String × Json)) (es : Table) : Option Table :=
  match Entries.get? es key with
  | none => (addPairs [] pairs).map fun t => es ++ [(key, .tables [t])]
  | some (.tables rows) => (addPairs [] pairs).map fun t => Entries.put es key (.tables (rows ++ [t]))
  | some _ => none

end Table

/-- A part of a document: a header, and the pairs below it. -/
structure Section where
  header : List String
  /-- The header has double brackets. -/
  isRow : Bool
  pairs : List (List String × Json)

/-- The table of the document with one more section. -/
def Section.addTo (root : Table) (s : Section) : Option Table :=
  match s.header.getLast? with
  | none => none
  | some last =>
    Table.updateAt false
      (fun _ t => if s.isRow then t.addRow last s.pairs else t.addTable last s.pairs)
      .defined s.header.dropLast root

end RestContract.Toml
