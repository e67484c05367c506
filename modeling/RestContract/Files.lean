-- Files as they are found: a path leads to nothing, to a directory or to bytes. The
-- part of a file's name after its last dot tells what format the file has.
namespace RestContract

/-- What a path leads to. -/
inductive Found where
  | nothing
  | directory
  | bytes (content : ByteArray)

namespace Found

/-- The path leads to something. -/
def isThere : Found → Bool
  | nothing => false
  | _ => true

def isFile : Found → Bool
  | bytes _ => true
  | _ => false

/-- The text of a file; nothing if the path leads to no file, or the bytes are no text. -/
def text? : Found → Option String
  | bytes content => String.fromUTF8? content
  | _ => none

end Found

namespace FilePath

/-- The parts of a path that name something. -/
def parts (path : String) : List String :=
  (path.splitOn "/").filter fun part => part != "" && part != "."

def fileName? (path : String) : Option String :=
  match (parts path).getLast? with
  | some ".." => none
  | name => name

/-- What follows the last dot, with what stands before it. -/
def splitAtLastDot (name : List Char) : Option (List Char × List Char) :=
  match name.reverse.span (· != '.') with
  | (_, []) => none
  | (after, _ :: before) => some (before.reverse, after.reverse)

/-- The extension of a path: what follows the last dot of the file's name, unless the name
begins with it. -/
def extension? (path : String) : Option String := do
  match splitAtLastDot (← fileName? path).toList with
  | some (_ :: _, after) => some (String.ofList after)
  | _ => none

end FilePath

end RestContract
