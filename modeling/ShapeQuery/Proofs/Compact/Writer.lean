import ShapeQuery.Compact.Reader

/-!
Writing schemas in the compact syntax, as words with blanks between them: every operand of a shape
expression and every value stands in brackets, and so does every group of triple expressions.
-/
namespace ShapeQuery.Compact

/-- Words with single blanks between them. Every word is a token or starts with
one, so that a reader stops at the blanks. -/
def spell (words : List String) : String :=
  " ".intercalate words

def iriWord (iri : String) : String :=
  "<" ++ iri ++ ">"

def boundsWords : Bounds → List String
  | ⟨.int min, .int max⟩ =>
    ["\x7b" ++ (decimalText min ++ ("," ++ ((if max < 0 then "*" else decimalText max) ++ "\x7d")))]
  | _ => []

def labelWords : Json → List String
  | .string label => ["$" ++ iriWord label]
  | _ => []

def kindWord : NodeKind → String
  | .iri => "IRI"
  | .bnode => "BNODE"
  | .literal => "LITERAL"
  | .nonliteral => "NONLITERAL"

/-- A node constraint with a node kind or a datatype. -/
def nodeWords (nc : NodeConstraint) : List String :=
  match nc.nodeKind with
  | some kind => [kindWord kind]
  | none => [iriWord nc.datatype.display]

def extraWords (predicates : List Json) : List String :=
  if predicates.isEmpty then [] else "EXTRA" :: predicates.map fun p => iriWord p.display

def closedWords (closed : Bool) : List String :=
  if closed then ["CLOSED"] else []

def isAny : ShapeExpr → Bool
  | .any => true
  | _ => false

def inBrackets (words : List String) : List String :=
  "(" :: (words ++ [")"])

mutual

/-- The words of a shape expression. Operands stand in brackets, so their order
of precedence does not matter. -/
def shapeWords : ShapeExpr → List String
  | .reference label => ["@" ++ iriWord label]
  | .any => ["."]
  | .shape none closed extra => extraWords extra ++ (closedWords closed ++ ["\x7b", "\x7d"])
  | .shape (some expression) closed extra =>
    extraWords extra ++ (closedWords closed ++ "\x7b" :: (tripleWords expression ++ ["\x7d"]))
  | .and [] | .or [] => []
  | .and (first :: others) => inBrackets (shapeWords first) ++ furtherShapes "AND" others
  | .or (first :: others) => inBrackets (shapeWords first) ++ furtherShapes "OR" others
  | .not operand => "NOT" :: inBrackets (shapeWords operand)
  | .node nc => nodeWords nc
  | .notEach _ | .external | .unsupported _ => []

def furtherShapes (separator : String) : List ShapeExpr → List String
  | [] => []
  | operand :: rest =>
    separator :: (inBrackets (shapeWords operand) ++ furtherShapes separator rest)

/-- The words of a triple expression. -/
def tripleWords : TripleExpr → List String
  | .reference label => ["&" ++ iriWord label]
  | .constraint predicate inverse value bounds id =>
    labelWords id ++ ((if inverse then ["^"] else []) ++ iriWord predicate.display ::
      ((if isAny value then ["."] else inBrackets (shapeWords value)) ++ boundsWords bounds))
  | .eachOf [] _ _ | .oneOf [] _ _ => []
  | .eachOf (first :: others) bounds id =>
    labelWords id ++
      (inBrackets (tripleWords first ++ furtherTriples ";" others) ++ boundsWords bounds)
  | .oneOf (first :: others) bounds id =>
    labelWords id ++
      (inBrackets (tripleWords first ++ furtherTriples "|" others) ++ boundsWords bounds)
  | .unsupported _ => []

def furtherTriples (separator : String) : List TripleExpr → List String
  | [] => []
  | operand :: rest => separator :: (tripleWords operand ++ furtherTriples separator rest)

end

def declWords (decl : ShapeDecl) : List String :=
  iriWord decl.id.display :: shapeWords decl.expr

def startWords : Start → List String
  | .label label => ["START", "=", "@" ++ iriWord label]
  | _ => []

/-- The text of a schema. -/
def write (schema : Schema) : String :=
  spell (startWords schema.start ++ schema.shapes.flatMap declWords)

/-! ### What can be written -/

/-- A text that can stand between angle brackets. -/
def isIriText (text : String) : Bool :=
  text != "" && !text.toList.contains '>'

def isIri : Json → Bool
  | .string text => isIriText text
  | _ => false

def isIriOrNull : Json → Bool
  | .null => true
  | value => isIri value

/-- A number that is not too long to be read. -/
def isCount (n : Int) : Bool :=
  0 ≤ n && (decimalDigits n.toNat).length ≤ Json.maxIntegerDigits

/-- Bounds that are absent, or start at a number and end at a number or not at all. -/
def writableBounds : Bounds → Bool
  | ⟨.null, .null⟩ => true
  | ⟨.int min, .int max⟩ => isCount min && (max == -1 || isCount max)
  | _ => false

/-- A node constraint with just a node kind, or just a datatype. -/
def writableNode : NodeConstraint → Bool
  | ⟨some _, .null, none, .null, .null, .null, .null, .null, .null, .null, .null, .null⟩ => true
  | ⟨none, datatype, none, .null, .null, .null, .null, .null, .null, .null, .null, .null⟩ =>
    isIri datatype
  | _ => false

mutual

/-- A shape expression that can be written. Conjunctions and disjunctions have
at least two operands, for a single one would be read as itself. -/
def writableShape : ShapeExpr → Bool
  | .reference label => isIriText label
  | .shape none _ extra => extra.all isIri
  | .shape (some expression) _ extra => extra.all isIri && writableTriple expression
  | .and operands | .or operands => 2 ≤ operands.length && writableShapes operands
  | .not operand => writableShape operand
  | .node nc => writableNode nc
  | .any | .notEach _ | .external | .unsupported _ => false

def writableShapes : List ShapeExpr → Bool
  | [] => true
  | expr :: rest => writableShape expr && writableShapes rest

def writableTriple : TripleExpr → Bool
  | .reference label => isIriText label
  | .constraint predicate _ value bounds id =>
    isIri predicate && (isAny value || writableShape value) && writableBounds bounds &&
      isIriOrNull id
  | .eachOf operands bounds id | .oneOf operands bounds id =>
    2 ≤ operands.length && writableTriples operands && writableBounds bounds && isIriOrNull id
  | .unsupported _ => false

def writableTriples : List TripleExpr → Bool
  | [] => true
  | expr :: rest => writableTriple expr && writableTriples rest

end

def writableDecl (decl : ShapeDecl) : Bool :=
  isIri decl.id && !decl.abstract && writableShape decl.expr

/-- A schema that can be written: a start label and declarations, and nothing else. -/
def writable (schema : Schema) : Bool :=
  (match schema.start with
  | .label label => isIriText label
  | _ => false) &&
    schema.shapes.all writableDecl && schema.namespaces.isEmpty && schema.imports.isEmpty

end ShapeQuery.Compact
