import ShapeQuery.Number.Decimal
import ShapeQuery.Text.Quoted

/-!
Problems that do not stop the compilation of a schema.
-/
namespace ShapeQuery.Compile

inductive Severity where
  | error
  | warning
  | debug
deriving DecidableEq, Repr

def Severity.word : Severity → String
  | .error => "error"
  | .warning => "warning"
  | .debug => "debug"

/-- A problem found while a schema is compiled. Errors keep the query from
being built, and what is left out of the query is told by a warning. -/
inductive Diagnostic where
  | importsIgnored (count : Nat)
  | invalidStart
  | startNotDeclared (label : String)
  /-- The start is a label that is no text, and no shape is declared with it. -/
  | illFormedStart (codes : List Nat)
  | shapeNotDeclared (label : String)
  | tripleExprNotDefined (label : String)
  | externalShape
  | unknownShapeExpr (typeName : String)
  | unknownTripleExpr (typeName : String)
  | recursiveShape (label : String)
  | recursiveTripleExpr (label : String)
deriving DecidableEq, Repr

namespace Diagnostic

def severity : Diagnostic → Severity
  | .invalidStart | .startNotDeclared _ | .illFormedStart _ => .error
  | .recursiveShape _ | .recursiveTripleExpr _ => .debug
  | _ => .warning

def code : Diagnostic → String
  | .importsIgnored _ => "imports-unsupported"
  | .invalidStart => "invalid-start"
  | .startNotDeclared _ | .illFormedStart _ => "missing-start-shape"
  | .shapeNotDeclared _ => "unresolved-shape-reference"
  | .tripleExprNotDefined _ => "unresolved-triple-reference"
  | .externalShape => "shape-external"
  | .unknownShapeExpr _ | .unknownTripleExpr _ => "unknown-expression"
  | .recursiveShape _ | .recursiveTripleExpr _ => "recursive-reference"

def message : Diagnostic → String
  | .importsIgnored count =>
    "Ignoring " ++ decimalText count ++ " import(s): imports are not supported"
  | .invalidStart => "Invalid start shape(s): exactly one start shape label is required"
  | .startNotDeclared label =>
    "Start shape " ++ Text.quoted label ++ " is not declared in the schema"
  | .illFormedStart codes =>
    "Start shape " ++ Text.quotedCodes codes ++ " is not declared in the schema"
  | .shapeNotDeclared label => "Shape " ++ Text.quoted label ++ " is not declared in the schema"
  | .tripleExprNotDefined label =>
    "Triple expression " ++ Text.quoted label ++ " is not defined in the schema"
  | .externalShape => "Found ShapeExternal: imports are not supported"
  | .unknownShapeExpr typeName => "Unsupported shape expression type: " ++ typeName
  | .unknownTripleExpr typeName => "Unsupported triple expression type: " ++ typeName
  | .recursiveShape label =>
    "Not expanding " ++ Text.quoted label ++ " again inside its own expansion"
  | .recursiveTripleExpr label =>
    "Not expanding triple expression " ++ Text.quoted label ++ " inside itself"

/-- A problem in one line, from its parts. -/
def oneLine (severity code message : String) : String :=
  severity ++ ": " ++ message ++ " [" ++ code ++ "]"

def text (d : Diagnostic) : String :=
  oneLine d.severity.word d.code d.message

end Diagnostic

end ShapeQuery.Compile
