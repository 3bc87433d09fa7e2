import ShapeQuery.Schema.Basic

/-!
The labelled triple expressions of a schema, in document order: an expression before its operands,
value expressions included. A label means the first expression that carries it.
-/
namespace ShapeQuery

abbrev Labelled := Json × TripleExpr

/-- The expression itself, if its label counts as present. -/
def labelledIf (id : Json) (expr : TripleExpr) : List Labelled :=
  if id.truthy then [(id, expr)] else []

mutual

def ShapeExpr.labelled : ShapeExpr → List Labelled
  | .shape (some expression) _ _ => expression.labelled
  | .and operands | .or operands | .notEach operands => labelledInShapes operands
  | .not operand => operand.labelled
  | _ => []

/-- A triple expression, if labelled, and the labelled ones inside it. -/
def TripleExpr.labelled : TripleExpr → List Labelled
  | .constraint predicate inverse value bounds id =>
    labelledIf id (.constraint predicate inverse value bounds id) ++ value.labelled
  | .eachOf operands bounds id =>
    labelledIf id (.eachOf operands bounds id) ++ labelledInTriples operands
  | .oneOf operands bounds id =>
    labelledIf id (.oneOf operands bounds id) ++ labelledInTriples operands
  | _ => []

def labelledInShapes : List ShapeExpr → List Labelled
  | [] => []
  | expr :: rest => expr.labelled ++ labelledInShapes rest

def labelledInTriples : List TripleExpr → List Labelled
  | [] => []
  | expr :: rest => expr.labelled ++ labelledInTriples rest

end

def Schema.labelled (schema : Schema) : List Labelled :=
  labelledInShapes (schema.shapes.map (·.expr))

/-- The meaning of labels: the first expression with a label comes first. -/
abbrev LabelIndex := List (String × TripleExpr)

/-- Keeps the expressions labelled by strings. A label that cannot be a key is
refused, and of two equal labels the first one counts. -/
def LabelIndex.ofLabelled : List Labelled → Except Json.Misuse LabelIndex
  | [] => .ok []
  | (id, expr) :: rest => do
    id.hashable
    let index ← ofLabelled rest
    match id with
    | .string label => return (label, expr) :: index
    | _ => return index

def Schema.labelIndex (schema : Schema) : Except Json.Misuse LabelIndex :=
  LabelIndex.ofLabelled schema.labelled

end ShapeQuery
