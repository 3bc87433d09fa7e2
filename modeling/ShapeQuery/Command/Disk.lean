import ShapeQuery.Command.Run

/-!
A model of a disk and of the two outputs, on which the command can be run. Places are told by the
names on the way to them from the root, and the command is run in one of the directories. What
refuses a query and how a text is encoded is given from outside.
-/
namespace ShapeQuery.Command

/-- A place, as the names on the way to it from the root. -/
abbrev Location := List String

/-- The state of the disk and what has been written to the two outputs. Files
and directories are kept by their locations, and the directory that the command
is run in is one of these. -/
structure Disk where
  /-- The directory that the command is run in. It is there, and so are those
  above it. -/
  current : Location := []
  files : List (Location × List UInt8) := []
  directories : List Location := []
  out : String := ""
  err : String := ""
deriving Inhabited

/-- What a run uses and does not do itself: a parser of queries, and the
encoding of files. Both may refuse a text, and what a theorem needs of them it
states. -/
structure Tools where
  /-- What the parser holds against a query, if anything. -/
  objection : String → Option String := fun _ => none
  /-- The bytes of a text, unless it has a character that cannot be encoded. -/
  encode : String → Except FileFault (List UInt8) := fun text => .ok text.toUTF8.data.toList

def maxNameBytes : Nat := 255

namespace Disk

def file? (disk : Disk) (location : Location) : Option (List UInt8) :=
  disk.files.lookup location

def isDirectory (disk : Disk) (location : Location) : Bool :=
  location.isPrefixOf disk.current || disk.directories.contains location

def existsAt (disk : Disk) (location : Location) : Bool :=
  disk.isDirectory location || (disk.file? location).isSome

/-- The names on a path. Slashes at its start, at its end or in a row have
empty names between them. -/
def names (path : String) : List String :=
  (Text.splitAt '/' path.toList).map String.ofList

/-- The location that a name leads to from a directory. Nothing is above the root. -/
def step (path : String) (location : Location) (name : String) : Except FileFault Location :=
  if name = "" ∨ name = "." then .ok location
  else if name = ".." then .ok location.dropLast
  else if maxNameBytes < name.utf8ByteSize then .error (.nameTooLong path)
  else .ok (location ++ [name])

/-- Follows the names of a path from a location. There must be a directory
before each name; at the end there need not be anything. -/
def follow (disk : Disk) (path : String) (location : Location) :
    List String → Except FileFault Location
  | [] => .ok location
  | name :: rest =>
    if !disk.existsAt location then .error (.notFound path)
    else if !disk.isDirectory location then .error (.notDirectory path)
    else
      match step path location name with
      | .ok next => disk.follow path next rest
      | .error fault => .error fault

/-- The location that the names of a path are followed from: the root for a
path that starts with a slash, else the directory that the command is run
in. -/
def origin (disk : Disk) (path : String) : Location :=
  if path.toList.head? = some '/' then [] else disk.current

def place (disk : Disk) (path : String) : Except FileFault Location :=
  if path = "" then .error (.notFound path)
  else if path.toList.contains '\x00' then .error .nullByte
  else disk.follow path (disk.origin path) (names path)

def pathExists (disk : Disk) (path : String) : Bool :=
  match disk.place path with
  | .ok location => disk.existsAt location
  | .error _ => false

def isDirectoryPath (disk : Disk) (path : String) : Bool :=
  match disk.place path with
  | .ok location => disk.isDirectory location
  | .error _ => false

def putFile (disk : Disk) (location : Location) (content : List UInt8) : Disk :=
  { disk with files := (location, content) :: disk.files.filter (·.1 != location) }

def addParents (disk : Disk) (location : Location) : Disk :=
  let parents := (List.range location.length).map (location.take ·)
  { disk with directories := disk.directories ++ parents.filter (!disk.isDirectory ·) }

/-- A disk that holds files in the directory that the command is run in. -/
def ofFiles (current : Location) (files : List (String × List UInt8)) : Disk :=
  files.foldl (fun disk (path, content) =>
    let location := current ++ (names path).filter fun name => name != "" && name != "."
    (disk.addParents location).putFile location content) { current }

/-- The locations of everything on the disk, the way to the current directory
among them. -/
def locations (disk : Disk) : List Location :=
  disk.files.map (·.1) ++ disk.directories ++
    (List.range (disk.current.length + 1)).map (disk.current.take ·)

def entries (disk : Disk) (location : Location) : List String :=
  (disk.locations.filterMap fun found =>
    if found.length = location.length + 1 && location.isPrefixOf found then found.getLast?
    else none).eraseDups

def makeDirectory (path : String) : EStateM FileFault Disk Unit := do
  let disk ← get
  match disk.place path with
  | .error fault => throw fault
  | .ok location =>
    if disk.existsAt location then throw (.alreadyExists path)
    else set { disk with directories := disk.directories ++ [location] }

/-- Makes a directory unless it is there. -/
def ensureDirectory (path : String) : EStateM FileFault Disk Unit := do
  unless (← get).isDirectoryPath path do
    makeDirectory path

/-- A part of a path, from its start to one of its names, and that name. -/
structure PathPart where
  path : String
  name : String

/-- The parts of a path that has the given names behind `done`, the shortest
first. The slashes stay as they are written. -/
def pathParts (done : List String) : List String → List PathPart
  | [] => []
  | name :: rest =>
    let done := done ++ [name]
    if name = "" then pathParts done rest
    else ⟨"/".intercalate done, name⟩ :: pathParts done rest

/-- Makes the directories for the parts of a path, the longest of which comes
first. The part before it is made first if nothing is there; that it has come
to be there meanwhile does not matter. -/
def makeParts : List PathPart → EStateM FileFault Disk Unit
  | [] => pure ()
  | [part] => ensureDirectory part.path
  | part :: outer :: rest => do
    if (← get).pathExists outer.path then
      ensureDirectory part.path
    else
      try
        makeParts (outer :: rest)
      catch
        | .alreadyExists _ => pure ()
        | fault => throw fault
      unless part.name = "." do
        ensureDirectory part.path

def makeDirectories (path : String) : StateM Disk (Except FileFault Unit) := fun disk =>
  if path = "" then (.error (.notFound path), disk)
  else
    match (makeParts (pathParts [] (names path)).reverse).run disk with
    | .ok _ after => (.ok (), after)
    | .error fault after => (.error fault, after)

/-- Writes a file anew. It is emptied when it is opened, before the text is
encoded, so a text that cannot be encoded leaves an empty file. -/
def writeFile (tools : Tools) (path text : String) : StateM Disk (Except FileFault Unit) :=
  fun disk =>
  match disk.place path with
  | .error fault => (.error fault, disk)
  | .ok location =>
    if disk.isDirectory location then (.error (.isDirectory path), disk)
    else
      match tools.encode text with
      | .ok content => (.ok (), disk.putFile location content)
      | .error fault => (.error fault, disk.putFile location [])

def readFile (disk : Disk) (path : String) : Option (List UInt8) :=
  match disk.place path with
  | .ok location => disk.file? location
  | .error _ => none

def listDirectory (disk : Disk) (path : String) : Option (List String) :=
  match disk.place path with
  | .ok location => if disk.isDirectory location then some (disk.entries location) else none
  | .error _ => none

/-- The model as the surroundings of a run. Every action is total: what can go
wrong with a file is told in its result. -/
def host (tools : Tools) : Host (StateM Disk) where
  readFile path := do return (← get).readFile path
  listDirectory path := do return (← get).listDirectory path
  makeDirectories := makeDirectories
  writeFile := writeFile tools
  checkQuery query := return tools.objection query
  out text := modify fun disk => { disk with out := disk.out ++ text }
  err text := modify fun disk => { disk with err := disk.err ++ text }

/-- Runs the command on a disk, counting fresh variables from zero. -/
def run (disk : Disk) (tools : Tools) (arguments : List String) : UInt32 × Disk :=
  (Command.run (host tools) arguments 0).run disk

/-- The files below the directory that the command is run in that one disk has
and another has not, or has with another content, in order. -/
def changedFiles (before after : Disk) : List (String × List UInt8) :=
  let changed := after.files.filter fun (location, content) =>
    before.current.isPrefixOf location && before.file? location != some content
  (changed.map fun (location, content) =>
    ("/".intercalate (location.drop before.current.length), content)).mergeSort fun a b => a.1 ≤ b.1

end Disk

end ShapeQuery.Command
