-- The command line program. It reads the files and the environment that a run looks at,
-- and then prints and writes what the run says.
import RestContract.CommandLine.Run
import RestContract.Journal.Line
import RestContract.Json.Printer

namespace RestContract.Main

open CommandLine

/-- What a path leads to. -/
def find (path : String) : IO Found := do
  let place := (← IO.currentDir) / path
  if !(← place.pathExists) then return .nothing
  if ← place.isDir then return .directory
  try return .bytes (← IO.FS.readBinFile place)
  catch _ => return .directory

/-- The file of variables in this directory, or in the nearest one above that has it. -/
def findAbove (name : String) : IO Found := do
  let depth := ((← IO.currentDir).components).length
  let mut steps := ""
  for _ in List.range depth do
    let found ← find (steps ++ name)
    if found.isFile then return found
    steps := steps ++ "../"
  return .nothing

/-- What the paths of an invocation lead to. -/
def findAll (i : Invocation) : IO (List (String × Found)) := do
  i.paths.mapM fun path => do
    if path == dotenvPath then return (path, ← findAbove path)
    return (path, ← find path)

/-- A variable as it is written, with an equals sign behind its name. -/
def readVariable (bytes : List UInt8) : Option (String × String) := do
  let text ← String.fromUTF8? (ByteArray.mk bytes.toArray)
  match text.toList.span (· != '=') with
  | (name, _ :: value) => some (String.ofList name, String.ofList value)
  | _ => none

/-- The environment. Where the system does not show it, only the variables that override
settings are asked for. -/
def environment : IO Variables := do
  try
    let bytes ← IO.FS.readBinFile "/proc/self/environ"
    return (bytes.toList.splitOn 0).filterMap readVariable
  catch _ =>
    Overridable.all.filterMapM fun o => do
      let name := variableBeginning ++ o.suffix
      return (← IO.getEnv name).map (name, ·)

/-- Writes a file, and says whether that went well. -/
def write (path content : String) : IO Bool := do
  try
    IO.FS.writeFile path content
    return true
  catch _ => return false

def log (settings : LogSettings) (events : List Event) : IO Unit := do
  let err ← IO.getStderr
  for e in events do
    if settings.admits e.level then err.putStrLn e.toJson.compact

/-- Does what a run says, and gives the exit code. -/
def perform (r : Run) : IO UInt32 := do
  if let some text := r.complaint then (← IO.getStderr).putStrLn text
  log r.logging r.events
  match r.outcome with
  | .print code output => do
    (← IO.getStdout).putStr output
    return code.toUInt32
  | .write path content methods => do
    let written ← write path content
    log r.logging [eventAfterWrite written path methods]
    return (codeAfterWrite written).toUInt32

end RestContract.Main

open RestContract CommandLine in
def main (args : List String) : IO UInt32 := do
  match parse args with
  | .error refusal => Main.perform refusal.run
  | .ok i =>
    let found ← Main.findAll i
    let look (path : String) : Found := (found.lookup path).getD .nothing
    Main.perform (i.run look (← Main.environment))
