import ShapeQuery.Command.Options
import ShapeQuery.Compact.Reader
import ShapeQuery.Compile.Builder
import ShapeQuery.Schema.Document

/-!
Converting one schema text into a query, with the lines that go to the log on the way.
-/
namespace ShapeQuery.Command

structure LogLine where
  severity : Compile.Severity
  source : String
  message : String
deriving DecidableEq, Repr

def levelWord : Compile.Severity → String
  | .error => "ERROR"
  | .warning => "WARNING"
  | .debug => "DEBUG"

def LogLine.text (line : LogLine) : String :=
  levelWord line.severity ++ " " ++ line.source ++ ": " ++ line.message

def problemLine (d : Compile.Diagnostic) : LogLine :=
  ⟨d.severity, "shex2sparql.converter.shex_to_blocks", d.message⟩

def noQueryLine : LogLine :=
  ⟨.error, "shex2sparql.converter.shex_to_sparql",
    "Could not generate SPARQL query: no usable start shape"⟩

/-- What a conversion comes to: a query or the message of what went wrong, the
log lines on the way, and the number of the next fresh variable. -/
structure Conversion where
  /-- The query, or the message of what went wrong. -/
  query : Except String String
  log : List LogLine
  /-- The number of the next fresh variable. -/
  fresh : Nat

def readSchema (format : Format) (source : List Char) : Except String Schema :=
  match format with
  | .shexc => (Compact.parse source).mapError Compact.Fault.message
  | .shexj => (Document.parse source).mapError Document.Fault.message

/-- The message for a schema that gives no query: all errors found. -/
def noQueryMessage (diagnostics : List Compile.Diagnostic) : String :=
  let errors := diagnostics.filter (·.severity = .error)
  "No query generated: " ++ "; ".intercalate (errors.map (·.message))

def convertSchema (schema : Schema) (form : Form) (uri : Option String) (fresh : Nat) :
    Conversion :=
  let builder : Compile.Builder := { schema, fresh }
  let (result, after) := builder.buildForm form uri
  let problems := after.diagnostics.map problemLine
  match result with
  | .error fault => ⟨.error fault.message, problems, after.fresh⟩
  | .ok none => ⟨.error (noQueryMessage after.diagnostics), problems ++ [noQueryLine], after.fresh⟩
  | .ok (some query) => ⟨.ok query, problems, after.fresh⟩

def noFormMessage : String :=
  (Compile.BuildFault.unsupportedForm (.array [])).message

/-- Converts a schema text. The text is read before the form is asked for, so a
text that cannot be read is reported first. -/
def convertText (format : Format) (source : List Char) (form : Option Form) (uri : Option String)
    (fresh : Nat) : Conversion :=
  match readSchema format source, form with
  | .error message, _ => ⟨.error message, [], fresh⟩
  | .ok _, none => ⟨.error noFormMessage, [], fresh⟩
  | .ok schema, some form => convertSchema schema form uri fresh

end ShapeQuery.Command
