import ShapeQuery.Json.Basic

/-!
Shape schemas: declarations of labelled shape expressions, which constrain single nodes and, through
triple expressions, the arcs around them. Where a schema document may carry a value of any kind (a
predicate, a bound, a facet), the field is a JSON value and null stands for absence.
-/
namespace ShapeQuery

inductive NodeKind where
  | iri
  | bnode
  | literal
  | nonliteral
deriving DecidableEq, Repr

def NodeKind.word : NodeKind → String
  | .iri => "iri"
  | .bnode => "bnode"
  | .literal => "literal"
  | .nonliteral => "nonliteral"

def NodeKind.all : List NodeKind := [.iri, .bnode, .literal, .nonliteral]

def NodeKind.ofWord? (word : String) : Option NodeKind :=
  NodeKind.all.find? (·.word = word)

/-- What the values of a stem or a stem range are. -/
inductive StemKind where
  | iri
  | literal
  | language
deriving DecidableEq, Repr

/-- The stem of a range: a given start of the value, or any value. -/
inductive Stem where
  | text (value : Json)
  | wildcard
deriving Repr

/-- A value, or all values with a stem, that a range leaves out. -/
inductive Exclusion where
  | value (value : Json)
  | stem (stem : Json)
deriving Repr

inductive ValueSetEntry where
  | iri (iri : String)
  | literal (value datatype language : Json)
  | language (tag : Json)
  | stem (kind : StemKind) (stem : Json)
  | range (kind : StemKind) (stem : Stem) (exclusions : List Exclusion)
deriving Repr

structure NodeConstraint where
  nodeKind : Option NodeKind := none
  datatype : Json := .null
  values : Option (List ValueSetEntry) := none
  length : Json := .null
  minLength : Json := .null
  maxLength : Json := .null
  pattern : Json := .null
  flags : Json := .null
  minInclusive : Json := .null
  minExclusive : Json := .null
  maxInclusive : Json := .null
  maxExclusive : Json := .null
deriving Inhabited, Repr

structure Bounds where
  min : Json := .null
  max : Json := .null
deriving Inhabited, Repr

/-- The upper bound of an expression that may occur any number of times. -/
def unbounded : Json := .int (-1)

mutual

/-- An expression that a node satisfies or not. Negations have either one
operand or, as some documents write them, several. -/
inductive ShapeExpr where
  /-- A reference to a declaration. -/
  | reference (label : String)
  /-- No constraint at all, written `.` in the compact syntax. -/
  | any
  /-- A constraint on the arcs around the node. -/
  | shape (expression : Option TripleExpr) (closed : Bool) (extra : List Json)
  | and (operands : List ShapeExpr)
  | or (operands : List ShapeExpr)
  | not (operand : ShapeExpr)
  /-- A negation whose operands were given as a list. -/
  | notEach (operands : List ShapeExpr)
  | node (constraint : NodeConstraint)
  /-- A shape that another schema defines. -/
  | external
  /-- An expression with a type that has no meaning here. -/
  | unsupported (typeName : String)

/-- An expression over the arcs around a node. Groups and alternatives have
bounds and labels as single constraints have. -/
inductive TripleExpr where
  /-- A reference to a labelled triple expression. -/
  | reference (label : String)
  /-- Arcs with a predicate; `any` as the value leaves their other end free. -/
  | constraint (predicate : Json) (inverse : Bool) (value : ShapeExpr) (bounds : Bounds) (id : Json)
  | eachOf (operands : List TripleExpr) (bounds : Bounds) (id : Json)
  | oneOf (operands : List TripleExpr) (bounds : Bounds) (id : Json)
  /-- An expression with a type that has no meaning here. -/
  | unsupported (typeName : String)

end

instance : Inhabited ShapeExpr := ⟨.any⟩

instance : Inhabited TripleExpr := ⟨.reference ""⟩

structure ShapeDecl where
  id : Json
  expr : ShapeExpr
  abstract : Bool := false

structure NamespaceDecl where
  name : String
  iri : String

/-- The start of a schema. Only a label can be compiled; what else can stand
there is kept for the report. -/
inductive Start where
  | none
  | label (label : String)
  /-- A label that is no text. -/
  | illFormed (codes : List Nat)
  | expression (expr : ShapeExpr)
  | value (value : Json)

/-- A shape expression as a start. -/
def Start.ofExpr : ShapeExpr → Start
  | .reference name => .label name
  | .any => .none
  | expr => .expression expr

/-- A JSON value as a start. -/
def Start.ofJson : Json → Start
  | .null => .none
  | .string name => .label name
  | .illFormed codes => .illFormed codes
  | other => .value other

def Start.label? : Start → Option String
  | .label name => some name
  | _ => Option.none

structure Schema where
  shapes : List ShapeDecl := []
  start : Start := .none
  namespaces : List NamespaceDecl := []
  imports : List Json := []

def Schema.find? (schema : Schema) (label : String) : Option ShapeDecl :=
  schema.shapes.find? (·.id.isString label)

/-- Whether there is a declaration with a label that is no text. -/
def Schema.declaresIllFormed (schema : Schema) (codes : List Nat) : Bool :=
  schema.shapes.any (·.id.isIllFormed codes)

end ShapeQuery
