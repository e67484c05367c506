-- Lines of the log: which events a filter lets through, and how an event is written.
import RestContract.Journal.Event
import RestContract.Journal.Filter
import RestContract.Settings.Basic

namespace RestContract

namespace LogSettings

/-- The level that a filter names for everything: its last directive that is a level. -/
def threshold? (s : LogSettings) : Option Nat :=
  let named := ((s.level.splitOn ",").map fun d => d.map Char.toLower).filterMap fun d =>
    filterLevels.idxOf? d
  named.getLast?

/-- The log holds an event of a level. -/
def admits (s : LogSettings) (level : Level) : Bool :=
  s.enabled && level.rank < s.threshold?.getD 1

end LogSettings

namespace Event

def fieldJson : FieldValue → Json
  | .text s => .str s
  | .count n => .nat n

/-- The event as JSON: its level, its message and its fields. -/
def toJson (e : Event) : Json :=
  .obj [("level", .str e.level.name), ("message", .str e.message),
    ("fields", .obj (e.fields.map fun (n, v) => (n, fieldJson v)))]

end Event

end RestContract
