import ShapeQuery.Command.Run

/-!
The command as a program.
-/
namespace ShapeQuery.Main

open ShapeQuery.Command

/-- What an action on files comes to, with its failure as a fault. -/
def guarded (action : IO Unit) : IO (Except FileFault Unit) := do
  try
    action
    return .ok ()
  catch failure =>
    return .error (.other (toString failure))

def readFile (path : String) : IO (Option (List UInt8)) := do
  try
    return some (← IO.FS.readBinFile path).data.toList
  catch _ => return none

def listDirectory (path : String) : IO (Option (List String)) := do
  try
    let entries ← ((← IO.currentDir) / path).readDir
    return some (entries.toList.map (·.fileName))
  catch _ => return none

/-- The disk and the outputs of the computer. There is no parser of queries, so
none is refused. -/
def host : Host IO where
  readFile := readFile
  listDirectory := listDirectory
  makeDirectories path := guarded (IO.FS.createDirAll path)
  writeFile path text := guarded (IO.FS.writeFile path text)
  checkQuery _ := return none
  out text := do (← IO.getStdout).putStr text
  err text := do (← IO.getStderr).putStr text

end ShapeQuery.Main

/-- Runs the command; fresh variables are counted from a number taken by chance. -/
def main (arguments : List String) : IO UInt32 := do
  let first ← IO.rand 0 (Nat.pow 2 64 - 1)
  let second ← IO.rand 0 (Nat.pow 2 62 - 1)
  ShapeQuery.Command.run ShapeQuery.Main.host arguments (second * Nat.pow 2 64 + first)
