import ShapeQuery.Compact.Constraint

/-!
Shape and triple expressions in the compact syntax. The two kinds of expressions contain each other,
so each rule takes the readers of nested expressions as arguments, and `shapeExpr` and `tripleExpr`
tie them together. Their bound is more than the characters left to read: a nested expression starts
at least one character later, so it is read with a bound that is one smaller, and every loop reads
at least one character in each round.
-/
namespace ShapeQuery.Compact.Scan

/-- The readers of nested expressions, and the bound that they and the loops
work with. -/
structure Nested where
  bound : Nat
  shapeExpr : Scan ShapeExpr
  tripleExpr : Scan TripleExpr

/-- Reads further operands as long as a separator comes next. The bound is on
their number, for each of them takes at least one character. -/
def operandsAfter {α : Type} (separator : Scan Bool) (operand : Scan α) : Nat → Scan (List α)
  | 0 => throw .outOfBound
  | bound + 1 => do
    if ← separator then
      let first ← operand
      let others ← operandsAfter separator operand bound
      return first :: others
    else
      return []

/-- A single operand stands for itself; more of them are combined. -/
def combine {α : Type} (combined : List α → α) (first : α) (others : List α) : α :=
  if others.isEmpty then first else combined (first :: others)

/-- Whether a predicate of an extra list comes next. The word `a` counts if a
plain space follows. -/
def atExtraPredicate : Scan Bool := do
  if ← atIri then return true
  return ['a', ' '].isPrefixOf (← rest)

def extraPredicates (names : Names) : Nat → Scan (List Json)
  | 0 => throw .outOfBound
  | bound + 1 => do
    if ← atExtraPredicate then
      let first ← predicate names
      let others ← extraPredicates names bound
      return .string first :: others
    else
      return []

/-- Reads what stands before the braces of a shape: extra lists and the closed
mark, in any order and number. -/
def shapeHead (names : Names) : Nat → Scan (List Json × Bool)
  | 0 => throw .outOfBound
  | bound + 1 => do
    if ← tryKeyword "EXTRA" then
      let first ← extraPredicates names bound
      let (others, closed) ← shapeHead names bound
      return (first ++ others, closed)
    else if ← tryKeyword "CLOSED" then
      let (extra, _) ← shapeHead names bound
      return (extra, true)
    else
      return ([], false)

def shapeDefinitionWith (names : Names) (nested : Nested) : Scan ShapeExpr := do
  let (extra, closed) ← shapeHead names nested.bound
  expect "\x7b"
  if ← tryText "\x7d" then
    return .shape none closed extra
  else
    let expression ← nested.tripleExpr
    expect "\x7d"
    return .shape (some expression) closed extra

def atShapeOrRef : Scan Bool := do
  let next ← peek
  if next = some '@' || next = some '{' then return true
  if ← atKeyword "EXTRA" then return true
  atKeyword "CLOSED"

def shapeOrRef (names : Names) (nested : Nested) : Scan ShapeExpr := do
  if ← tryText "@" then
    return .reference (← label names)
  else
    shapeDefinitionWith names nested

/-- Whether a node kind that shapes may have comes next. -/
def atNonLiteralKind : Scan Bool := do
  if ← atKeyword "IRI" then return true
  if ← atKeyword "BNODE" then return true
  atKeyword "NONLITERAL"

/-- Reads an operand: brackets, a point, a shape or reference, or a node
constraint. A shape and a node constraint may stand side by side, which means
both. -/
def shapeAtom (names : Names) (nested : Nested) : Scan ShapeExpr := do
  let next ← peek
  if next = some '(' then
    advance 1
    let expr ← nested.shapeExpr
    expect ")"
    return expr
  else if next = some '.' then
    advance 1
    return .any
  else if ← atShapeOrRef then
    let shape ← shapeOrRef names nested
    if ← atNonLiteralKind then
      match ← nodeConstraint? names nested.bound with
      | some nc => return .and [shape, .node nc]
      | none => return .and [shape, .any]
    else
      return shape
  else
    match ← nodeConstraint? names nested.bound with
    | none => fail .expectedShapeExpr
    | some nc =>
      if nc.nodeKind != some .literal then
        if ← atShapeOrRef then
          return .and [.node nc, ← shapeOrRef names nested]
      return .node nc

def shapeNot (names : Names) (nested : Nested) : Scan ShapeExpr := do
  if ← tryKeyword "NOT" then
    return .not (← shapeAtom names nested)
  else
    shapeAtom names nested

def shapeAnd (names : Names) (nested : Nested) : Scan ShapeExpr := do
  let first ← shapeNot names nested
  let others ← operandsAfter (tryKeyword "AND") (shapeNot names nested) nested.bound
  return combine .and first others

/-- Reads a shape expression: a disjunction of conjunctions. -/
def shapeExprWith (names : Names) (nested : Nested) : Scan ShapeExpr := do
  let first ← shapeAnd names nested
  let others ← operandsAfter (tryKeyword "OR") (shapeAnd names nested) nested.bound
  return combine .or first others

def startsCardinality : List Char → Bool
  | '{' :: rest =>
    match (Text.trimStart rest).head? with
    | some c => Text.isDecimalDigit c
    | none => false
  | _ => false

/-- Reads the numbers of a cardinality in braces. A single number is both bounds. -/
def braceBounds : Scan Bounds := do
  expect "\x7b"
  let min ← count
  let max ←
    if ← tryText "," then
      if ← tryText "*" then
        pure unbounded
      else if (← peek) = some '}' then
        pure unbounded
      else
        pure (.int (← count))
    else
      pure (.int min)
  expect "\x7d"
  return { min := .int min, max }

def cardinality? : Scan (Option Bounds) := do
  if ← atEnd then
    return none
  else if ← tryText "?" then
    return some { min := .int 0, max := .int 1 }
  else if ← tryText "*" then
    return some { min := .int 0, max := unbounded }
  else if ← tryText "+" then
    return some { min := .int 1, max := unbounded }
  else if startsCardinality (← rest) then
    return some (← braceBounds)
  else
    return none

/-- Whether a character ends a triple constraint that has no value. Such a
constraint takes any value, as with a point. -/
def endsConstraint (next : Option Char) : Bool :=
  match next with
  | none => true
  | some c => [';', '}', ')', '|', '?', '*', '+'].contains c

/-- Reads the value of a triple constraint. It may be a point, or not there at all. -/
def constraintValue (nested : Nested) : Scan ShapeExpr := do
  let next ← peek
  if next = some '.' then
    advance 1
    return .any
  else if endsConstraint next then
    return .any
  else if startsCardinality (← rest) then
    return .any
  else
    nested.shapeExpr

/-- Reads a triple constraint, to which a label is given. -/
def tripleConstraintWith (names : Names) (nested : Nested) (id : Json) : Scan TripleExpr := do
  let inverse ← tryText "^"
  let predicate ← predicate names
  let value ← constraintValue nested
  let bounds ← cardinality?
  return .constraint (.string predicate) inverse value (bounds.getD {}) id

/-- The label of a triple expression; a reference has none. -/
def labelOf : TripleExpr → Json
  | .constraint _ _ _ _ id | .eachOf _ _ id | .oneOf _ _ id => id
  | _ => .null

def setBounds (bounds : Bounds) : TripleExpr → TripleExpr
  | .constraint predicate inverse value _ id => .constraint predicate inverse value bounds id
  | .eachOf operands _ id => .eachOf operands bounds id
  | .oneOf operands _ id => .oneOf operands bounds id
  | expr => expr

def setLabel (id : Json) : TripleExpr → TripleExpr
  | .constraint predicate inverse value bounds _ => .constraint predicate inverse value bounds id
  | .eachOf operands bounds _ => .eachOf operands bounds id
  | .oneOf operands bounds _ => .oneOf operands bounds id
  | expr => expr

/-- Whether brackets need a group of their own: around a reference, and where
both the brackets and the expression inside are labelled. -/
def needsGroup (id : Json) : TripleExpr → Bool
  | .reference _ => true
  | expr => id.truthy && (labelOf expr).truthy

/-- What brackets with a label and a cardinality around an expression mean.
They are given to the expression inside, unless it needs a group of its own. -/
def bracketed (id : Json) (bounds : Option Bounds) (expr : TripleExpr) : TripleExpr :=
  let expr := if needsGroup id expr then .eachOf [expr] {} .null else expr
  let expr := match bounds with
    | some bounds => setBounds bounds expr
    | none => expr
  if id.truthy then setLabel id expr else expr

def tripleLabel? (names : Names) : Scan Json := do
  if ← tryText "$" then
    return .string (← label names)
  else
    return .null

/-- Reads one item of a group: a reference, brackets, or a triple
constraint. -/
def tripleItem (names : Names) (nested : Nested) : Scan TripleExpr := do
  if ← tryText "&" then
    return .reference (← label names)
  else
    let id ← tripleLabel? names
    if ← tryText "(" then
      let expr ← nested.tripleExpr
      expect ")"
      let bounds ← cardinality?
      return bracketed id bounds expr
    else
      tripleConstraintWith names nested id

/-- Reads a semicolon, and tells whether another item follows it. Behind the
last semicolon of a group there is none. -/
def itemSeparator : Scan Bool := do
  if ← tryText ";" then
    match ← peek with
    | none => return false
    | some c => return (['}', ')', '|'].contains c).not
  else
    return false

/-- Reads a group: items with semicolons between them, and perhaps one at the end. -/
def tripleGroup (names : Names) (nested : Nested) : Scan TripleExpr := do
  let first ← tripleItem names nested
  let others ← operandsAfter itemSeparator (tripleItem names nested) nested.bound
  return combine (.eachOf · {} .null) first others

def tripleExprWith (names : Names) (nested : Nested) : Scan TripleExpr := do
  let first ← tripleGroup names nested
  let others ← operandsAfter (tryText "|") (tripleGroup names nested) nested.bound
  return combine (.oneOf · {} .null) first others

mutual

/-- Reads a shape expression, with a bound on the characters left. A nested
expression starts behind a character, so a smaller bound is enough for it. -/
def shapeExpr (names : Names) : Nat → Scan ShapeExpr
  | 0 => throw .outOfBound
  | bound + 1 => shapeExprWith names ⟨bound, shapeExpr names bound, tripleExpr names bound⟩

/-- Reads a triple expression, with a bound on the characters left. -/
def tripleExpr (names : Names) : Nat → Scan TripleExpr
  | 0 => throw .outOfBound
  | bound + 1 => tripleExprWith names ⟨bound, shapeExpr names bound, tripleExpr names bound⟩

end

def nested (names : Names) (bound : Nat) : Nested :=
  ⟨bound, shapeExpr names bound, tripleExpr names bound⟩

def shapeDefinition (names : Names) (bound : Nat) : Scan ShapeExpr :=
  shapeDefinitionWith names (nested names bound)

def tripleConstraint (names : Names) (bound : Nat) : Scan TripleExpr :=
  tripleConstraintWith names (nested names bound) .null

end ShapeQuery.Compact.Scan
