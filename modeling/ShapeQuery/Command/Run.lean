import ShapeQuery.Command.Conversion
import ShapeQuery.Command.Paths
import ShapeQuery.Text.Utf8

/-!
Running the command. What it does to files and to its two outputs goes through a `Host`, so that the
same run can be made on a disk or on a model of one.
-/
namespace ShapeQuery.Command

inductive FileFault where
  | notFound (path : String)
  | alreadyExists (path : String)
  | notDirectory (path : String)
  | isDirectory (path : String)
  | nameTooLong (path : String)
  | nullByte
  | other (message : String)
deriving DecidableEq, Repr

def FileFault.message : FileFault → String
  | .notFound path => "[Errno 2] No such file or directory: " ++ Text.quoted path
  | .alreadyExists path => "[Errno 17] File exists: " ++ Text.quoted path
  | .notDirectory path => "[Errno 20] Not a directory: " ++ Text.quoted path
  | .isDirectory path => "[Errno 21] Is a directory: " ++ Text.quoted path
  | .nameTooLong path => "[Errno 36] File name too long: " ++ Text.quoted path
  | .nullByte => "embedded null byte"
  | .other message => message

/-- What a run needs from its surroundings: files and directories, the two
outputs and a parser of queries. The run itself is written over any monad. -/
structure Host (m : Type → Type) where
  /-- The bytes of a file, if it can be opened. -/
  readFile : String → m (Option (List UInt8))
  /-- The names in a directory, if it can be listed. -/
  listDirectory : String → m (Option (List String))
  /-- Makes a directory and those above it, unless they are there. -/
  makeDirectories : String → m (Except FileFault Unit)
  /-- Writes a file anew. A text that has no encoding leaves it empty. -/
  writeFile : String → String → m (Except FileFault Unit)
  /-- Parses a query. The result is what the parser holds against it, if anything. -/
  checkQuery : String → m (Option String)
  /-- Writes to the standard output. -/
  out : String → m Unit
  /-- Writes to the standard error output. -/
  err : String → m Unit

def programName : String := "main.py"

def helpText : String :=
  "usage: main.py [-h] [--input INPUT] [--output OUTPUT]
               [--form \x7bCONSTRUCT,SELECT,ASK\x7d] [--uri URI]
               [--format \x7bshexc,shexj\x7d] [--check] [--input-dir INPUT_DIR]
               [--output-dir OUTPUT_DIR] [--verbose]

Compile a ShEx schema into a SPARQL query

options:
  -h, --help            show this help message and exit
  --input INPUT, -i INPUT
                        Input schema file (ShExC or ShExJ)
  --output OUTPUT, -o OUTPUT
                        Output file path (default: stdout)
  --form \x7bCONSTRUCT,SELECT,ASK\x7d, -f \x7bCONSTRUCT,SELECT,ASK\x7d
                        SPARQL query form (default: CONSTRUCT)
  --uri URI, -u URI     IRI of the start shape's focus node (CONSTRUCT and
                        ASK)
  --format \x7bshexc,shexj\x7d
                        Input syntax (default: from file extension)
  --check               Parse the generated query with rdflib before printing
                        it
  --input-dir INPUT_DIR
                        Input directory for batch conversion
  --output-dir OUTPUT_DIR
                        Output directory for batch conversion
  --verbose, -v         Log debug output

ShEx -> SPARQL compiler: CLI entry point.

Usage:
    python main.py --input FILE [--form CONSTRUCT|SELECT|ASK] [--uri IRI] [--output FILE]
    python main.py --input-dir DIR --output-dir DIR [--form CONSTRUCT|SELECT|ASK]
"

variable {m : Type → Type} [Monad m]

def writeLog (host : Host m) (verbose : Bool) (log : List LogLine) : m Unit :=
  log.forM fun line =>
    if verbose || line.severity != .debug then host.err (line.text ++ "\n") else pure ()

/-- The schema text behind an input path: the content of the file, or the path
itself if there is no file that can be opened. -/
def sourceText (host : Host m) (path : String) : m (Except String (List Char)) := do
  if path.toList.contains '\x00' then
    return .error FileFault.nullByte.message
  match ← host.readFile path with
  | none => return .ok path.toList
  | some bytes =>
    match Text.decode bytes with
    | .ok text => return .ok (Text.unifyLineEnds text)
    | .error fault => return .error fault.message

/-- Writes a query to a file, whose directory is made if need be. A path
without a directory part stands for a file of the current directory. -/
def writeQuery (host : Host m) (path query : String) : m (Except String Unit) := do
  let directory := directoryOf path
  match ← host.makeDirectories (if directory = "" then "." else directory) with
  | .error fault => return .error fault.message
  | .ok () =>
    match ← host.writeFile path (query ++ "\n") with
    | .error fault => return .error fault.message
    | .ok () => return .ok ()

def invalidQueryMessage (objection : String) : String :=
  "Invalid SPARQL: " ++ objection

/-- Has a query parsed, if that is asked for. The objection of the parser
becomes the message of the failure. -/
def objectionTo (host : Host m) (options : Options) (query : String) : m (Option String) :=
  if options.check then host.checkQuery query else pure none

/-- Converts one file, has the query checked if that is asked for, and writes
it to a file if one is named. The result is the query, or the message of what
went wrong, with the number of the next fresh variable. -/
def convertFile (host : Host m) (options : Options) (input : String) (uri : Option String)
    (output : String) (format : Option Format) (fresh : Nat) : m (Except String String × Nat) := do
  match ← sourceText host input with
  | .error message => return (.error message, fresh)
  | .ok source =>
    let conversion := convertText (format.getD (formatOf input)) source options.form uri fresh
    writeLog host options.verbose conversion.log
    match conversion.query with
    | .error message => return (.error message, conversion.fresh)
    | .ok query =>
      match ← objectionTo host options query with
      | some objection => return (.error (invalidQueryMessage objection), conversion.fresh)
      | none =>
        if output = "" then
          return (.ok query, conversion.fresh)
        else
          match ← writeQuery host output query with
          | .error message => return (.error message, conversion.fresh)
          | .ok () => return (.ok query, conversion.fresh)

structure Tally where
  converted : Nat := 0
  failed : Nat := 0
deriving DecidableEq, Repr

def convertEach (host : Host m) (options : Options) (tally : Tally) (fresh : Nat) :
    List String → m Tally
  | [] => return tally
  | name :: rest => do
    let output := outputName name
    let (result, fresh) ← convertFile host options (joinPath options.inputDir name) none
      (joinPath options.outputDir output) none fresh
    match result with
    | .ok _ =>
      host.out ("  OK  " ++ name ++ " -> " ++ output ++ "\n")
      convertEach host options { tally with converted := tally.converted + 1 } fresh rest
    | .error message =>
      host.out ("  FAIL " ++ name ++ ": " ++ message ++ "\n")
      convertEach host options { tally with failed := tally.failed + 1 } fresh rest

/-- The schema files among names, in order. Other names in the directory are
passed over. -/
def schemaNames (names : List String) : List String :=
  (names.filter isSchemaName).mergeSort (· ≤ ·)

/-- Converts all schema files of a directory. Without the directories there is
no result. -/
def convertBatch (host : Host m) (options : Options) (fresh : Nat) :
    m (Except FileFault Tally) := do
  match ← host.makeDirectories options.outputDir with
  | .error fault => return .error fault
  | .ok () =>
    match ← host.listDirectory options.inputDir with
    | none => return .error (.notFound options.inputDir)
    | some names => return .ok (← convertEach host options {} fresh (schemaNames names))

/-- Converts all schema files of a directory and reports how many there were.
The result is the exit code. -/
def runBatch (host : Host m) (options : Options) (fresh : Nat) : m UInt32 := do
  match ← convertBatch host options fresh with
  | .error fault =>
    host.err (fault.message ++ "\n")
    return 1
  | .ok tally =>
    host.out ("\nConverted " ++ decimalText tally.converted ++ " files, " ++
      decimalText tally.failed ++ " failed\n")
    return if tally.failed = 0 then 0 else 1

/-- Converts one file and prints the query unless it goes to a file. The result
is the exit code. -/
def runSingle (host : Host m) (options : Options) (fresh : Nat) : m UInt32 := do
  let (result, _) ← convertFile host options options.input options.uri options.output
    options.format fresh
  match result with
  | .error message =>
    host.err ("error: " ++ message ++ "\n")
    return 1
  | .ok query =>
    if options.output = "" then
      host.out (query ++ "\n")
    return 0

/-- Runs the command with its arguments. The result is the exit code. -/
def run (host : Host m) (arguments : List String) (fresh : Nat) : m UInt32 := do
  match parseArguments arguments with
  | .error .help =>
    host.out helpText
    return 0
  | .error (.usage fault) =>
    host.err (programName ++ ": error: " ++ fault.message ++ "\n")
    return 2
  | .ok options =>
    if options.inputDir != "" && options.outputDir != "" then
      runBatch host options fresh
    else if options.input != "" then
      runSingle host options fresh
    else
      host.out helpText
      return 1

end ShapeQuery.Command
