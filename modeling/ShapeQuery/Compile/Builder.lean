import ShapeQuery.Compile.Expansion
import ShapeQuery.Query.Render
import ShapeQuery.Text.Upper

/-!
Building queries for the start shape of a schema. A schema without a usable start shape gives no
query; the problems found by the latest build are kept.
-/
namespace ShapeQuery.Compile

/-- A schema to build queries from, the problems of the latest build, and the
number of the next fresh variable. -/
structure Builder where
  schema : Schema
  diagnostics : List Diagnostic := []
  fresh : Nat := 0

inductive BuildFault where
  | unsupportedForm (form : Json)
  | walk (fault : Fault)

def BuildFault.message : BuildFault → String
  | .unsupportedForm form =>
    "Unsupported query form: " ++ form.literal ++ " (expected one of " ++
      ", ".intercalate (Form.all.map Form.word) ++ ")"
  | .walk fault => fault.message

def formOf? (form : Json) : Option Form :=
  match form with
  | .string text => Form.all.find? fun candidate => candidate.word.toList = Text.upper text.toList
  | _ => none

namespace Builder

def setStart (builder : Builder) (start : Start) : Builder :=
  { builder with schema := { builder.schema with start } }

/-- Compiles the start shape into a group that is ready to be written. The
problems found replace those of the build before. -/
def group (builder : Builder) : Except Fault (Option Group) × Builder :=
  match Context.ofSchema builder.schema with
  | .error misuse => (.error (.misuse misuse), { builder with diagnostics := [] })
  | .ok context =>
    match context.startGroup.run { fresh := builder.fresh } with
    | .ok group after =>
      (.ok (group.map Group.postProcess),
        { builder with diagnostics := after.diagnostics, fresh := after.fresh })
    | .error fault after =>
      (.error fault, { builder with diagnostics := after.diagnostics, fresh := after.fresh })

def bracket (uri : String) : String :=
  if uri.toList.head? = some '<' && uri.toList.getLast? = some '>' then uri else "<" ++ uri ++ ">"

/-- Puts a node in place of the start shape's variable. An empty node stands
for none. -/
def bindStart (start : Start) (uri : Option String) (group : Group) : Group :=
  match start.label?, uri with
  | some label, some uri =>
    if uri = "" then group else group.substitute (stableVariable label) (bracket uri)
  | _, _ => group

/-- Builds the query of a form. A query that selects ignores the node. -/
def buildForm (builder : Builder) (form : Form) (uri : Option String) :
    Except Fault (Option String) × Builder :=
  let (result, after) := builder.group
  let bound := fun group =>
    match form with
    | .select => group
    | _ => bindStart builder.schema.start uri group
  (result.map fun group => group.map fun group => form.render (bound group), after)

/-- Builds the query of the form that a value names. An unknown form is refused
before the schema is looked at. -/
def build (builder : Builder) (form : Json) (uri : Option String) :
    Except BuildFault (Option String) × Builder :=
  match formOf? form with
  | none => (.error (.unsupportedForm form), builder)
  | some form =>
    let (result, after) := builder.buildForm form uri
    (result.mapError .walk, after)

end Builder

end ShapeQuery.Compile
