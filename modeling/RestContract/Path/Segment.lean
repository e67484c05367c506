-- Paths as lists of segments. A path is split at its slashes; blanks around a segment
-- and empty segments do not count. A segment in braces captures a part of the request.
import RestContract.Text.Blank

namespace RestContract

namespace Path

/-- The parts of a text between slashes. -/
def parts : List Char → List (List Char)
  | [] => [[]]
  | c :: cs =>
    if c == '/' then [] :: parts cs
    else match parts cs with
      | p :: ps => (c :: p) :: ps
      | [] => [[c]]

/-- The trimmed, non-empty segments of a path, in order. -/
def segments (path : String) : List String :=
  ((parts path.toList).map Text.trimChars).filterMap fun cs =>
    if cs.isEmpty then none else some (String.ofList cs)

/-- The path of a list of segments. -/
def join (segments : List String) : String := "/" ++ String.intercalate "/" segments

end Path

inductive SegmentKind where
  | static
  /-- `{name}`, which captures one segment. -/
  | param (name : String)
  /-- `{name+}`, which captures the rest of the path. -/
  | greedy (name : String)
  deriving DecidableEq, Repr, Inhabited

namespace SegmentKind

/-- What stands between braces. -/
def insideBraces? : List Char → Option (List Char)
  | '\x7b' :: cs => if cs.getLast? == some '\x7d' then some cs.dropLast else none
  | _ => none

/-- The kind of a segment that is already trimmed. -/
def of (segment : String) : SegmentKind :=
  match insideBraces? segment.toList with
  | none => static
  | some inner =>
    if inner.getLast? == some '+' then greedy (String.ofList inner.dropLast)
    else param (String.ofList inner)

def captureName? : SegmentKind → Option String
  | static => none
  | param name | greedy name => some name

def isCapture (k : SegmentKind) : Bool := k != static

/-- The segment captures the rest of the path. -/
def isGreedy : SegmentKind → Bool
  | greedy _ => true
  | _ => false

end SegmentKind

/-- The names of the captures of a path, in order. -/
def Path.params (path : String) : List String :=
  (segments path).filterMap fun s => (SegmentKind.of s).captureName?

end RestContract
