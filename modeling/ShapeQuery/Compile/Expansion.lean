import ShapeQuery.Compile.Fragment
import ShapeQuery.Schema.Labels

/-!
Following references. A shape, or a labelled triple expression, is not expanded again while it is
being expanded further up on the same way; the arc that leads to it is still written, with the
variable of the shape, so that it binds to the same node.
-/
namespace ShapeQuery.Compile

/-- A schema with the meaning of its triple expression labels. The labels are
looked up once, before the walk starts. -/
structure Context where
  schema : Schema
  labels : LabelIndex

/-- A schema, made ready. A label that cannot be a key is refused. -/
def Context.ofSchema (schema : Schema) : Checked Context := do
  return { schema, labels := ← schema.labelIndex }

/-- The number of targets that references can lead to, which bounds their nesting. -/
def Context.targetCount (context : Context) : Nat :=
  context.schema.shapes.length + context.labels.length

mutual

/-- The fragment of a declared shape, with references nested at most `depth`
deep. A shape that is being expanded is cut off with a warning. -/
def expandShape (context : Context) (depth : Nat) (label : String) (focus : Focus) :
    Walk Fragment :=
  match context.schema.find? label with
  | none => do
    Walk.report (.shapeNotDeclared label)
    return {}
  | some decl => do
    let focus := focus.getD (stableVariable label)
    if ← Walk.isExpanding (.shape label) then
      Walk.report (.recursiveShape label)
      return {}
    else
      match depth with
      | 0 => throw .nestedTooDeep
      | depth + 1 =>
        Walk.whileExpanding (.shape label)
          (shapeFragment ⟨expandShape context depth, expandTripleExpr context depth⟩ (some focus)
            decl.expr)
termination_by structural depth

/-- The fragment of a labelled triple expression, with references nested at
most `depth` deep. -/
def expandTripleExpr (context : Context) (depth : Nat) (label subject : String) : Walk Fragment :=
  match context.labels.lookup label with
  | none => do
    Walk.report (.tripleExprNotDefined label)
    return {}
  | some target => do
    if ← Walk.isExpanding (.tripleExpr label) then
      Walk.report (.recursiveTripleExpr label)
      return {}
    else
      match depth with
      | 0 => throw .nestedTooDeep
      | depth + 1 =>
        Walk.whileExpanding (.tripleExpr label)
          (tripleFragment ⟨expandShape context depth, expandTripleExpr context depth⟩
            subject target)
termination_by structural depth

end

namespace Context

def links (context : Context) : Links :=
  ⟨expandShape context context.targetCount, expandTripleExpr context context.targetCount⟩

def shape (context : Context) (label : String) (focus : Focus) : Walk Fragment :=
  context.links.shape label focus

def shapeExpr (context : Context) (expr : ShapeExpr) (focus : Focus) : Walk Fragment :=
  shapeFragment context.links focus expr

def tripleExpr (context : Context) (expr : TripleExpr) (subject : String) : Walk Fragment :=
  tripleFragment context.links subject expr

/-- Reports that the start is no label of a declared shape. A label that is
declared but is no text stops the walk. -/
def refuseStart (context : Context) : Walk Unit :=
  match context.schema.start with
  | .illFormed codes =>
    if context.schema.declaresIllFormed codes then throw (.unencodable codes)
    else Walk.report (.illFormedStart codes)
  | _ => Walk.report .invalidStart

/-- The declaration that the start names. A start that cannot be used is reported. -/
def findStart (context : Context) : Walk (Option (String × ShapeDecl)) := do
  match context.schema.start.label? with
  | none =>
    context.refuseStart
    return none
  | some label =>
    match context.schema.find? label with
    | none =>
      Walk.report (.startNotDeclared label)
      return none
    | some decl => return some (label, decl)

/-- The declaration of the start shape. Imports are reported first. -/
def startShape (context : Context) : Walk (Option (String × ShapeDecl)) := do
  unless context.schema.imports.isEmpty do
    Walk.report (.importsIgnored context.schema.imports.length)
  context.findStart

/-- The group of the start shape, if the schema has a usable one. The start
shape is compiled as a reference to it would be. -/
def startGroup (context : Context) : Walk (Option Group) := do
  match ← context.startShape with
  | none => return none
  | some (label, _) =>
    let fragment ← context.shape label none
    return some (fragment.group.addLines fragment.loose)

end Context

end ShapeQuery.Compile
