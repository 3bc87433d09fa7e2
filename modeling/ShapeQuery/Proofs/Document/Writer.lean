import ShapeQuery.Schema.Document

/-!
Writing schemas as ShExJ. A value that is absent is a field that is not there, a wildcard and the
stems that a range leaves out are objects, and a declaration stands in one of two layouts.
-/
namespace ShapeQuery.Document

/-- The fields that are there. A field that would be null is left out, as
documents do. -/
def present (fields : Fields) : Fields :=
  fields.filter fun field => !field.2.isNull

/-- The fields of an object with a type; an expression that carries a label has
its label in front. -/
def typedFields (id : Json) (type : String) (fields : Fields) : Fields :=
  present (("id", id) :: ("type", .string type) :: fields)

def record (id : Json) (type : String) (fields : Fields) : Json :=
  .object (typedFields id type fields)

def flag (set : Bool) : Json :=
  if set then .bool true else .null

def listed (items : List Json) : Json :=
  if items.isEmpty then .null else .array items

def stemType : StemKind → String
  | .iri => "IriStem"
  | .literal => "LiteralStem"
  | .language => "LanguageStem"

def rangeType : StemKind → String
  | .iri => "IriStemRange"
  | .literal => "LiteralStemRange"
  | .language => "LanguageStemRange"

def stemDocument (kind : StemKind) (stem : Json) : Json :=
  record .null (stemType kind) [("stem", stem)]

def rangeStemDocument : Stem → Json
  | .text value => value
  | .wildcard => record .null "Wildcard" []

def exclusionDocument (kind : StemKind) : Exclusion → Json
  | .value value => value
  | .stem stem => stemDocument kind stem

/-- The fields of a literal. Its type is its datatype, so it may be missing. -/
def literalFields (value datatype language : Json) : Fields :=
  [("value", value), ("type", datatype), ("language", language)]

def rangeFields (kind : StemKind) (stem : Stem) (exclusions : List Exclusion) : Fields :=
  [("stem", rangeStemDocument stem), ("exclusions",
    listed (exclusions.map (exclusionDocument kind)))]

def entryDocument : ValueSetEntry → Json
  | .iri iri => .string iri
  | .literal value datatype language => .object (present (literalFields value datatype language))
  | .language tag => record .null "Language" [("languageTag", tag)]
  | .stem kind stem => stemDocument kind stem
  | .range kind stem exclusions => record .null (rangeType kind) (rangeFields kind stem exclusions)

def nodeFields (nc : NodeConstraint) : Fields := [
  ("nodeKind", nc.nodeKind.elim .null fun kind => .string kind.word),
  ("datatype", nc.datatype),
  ("values", nc.values.elim .null fun entries => .array (entries.map entryDocument)),
  ("length", nc.length),
  ("minlength", nc.minLength),
  ("maxlength", nc.maxLength),
  ("pattern", nc.pattern),
  ("flags", nc.flags),
  ("mininclusive", nc.minInclusive),
  ("minexclusive", nc.minExclusive),
  ("maxinclusive", nc.maxInclusive),
  ("maxexclusive", nc.maxExclusive)]

mutual

/-- A shape expression, with a label of its own or none. A reference stays a
bare label, and the point is absent. -/
def shapeDocument (id : Json) : ShapeExpr → Json
  | .reference label => .string label
  | .any => .null
  | .shape none closed extra => record id "Shape"
    [("closed", flag closed), ("extra", listed extra)]
  | .shape (some expression) closed extra => record id "Shape"
    [("expression", tripleDocument expression), ("closed", flag closed), ("extra", listed extra)]
  | .and operands => record id "ShapeAnd" [("shapeExprs", .array (shapeDocuments operands))]
  | .or operands => record id "ShapeOr" [("shapeExprs", .array (shapeDocuments operands))]
  | .not operand => record id "ShapeNot" [("shapeExpr", shapeDocument .null operand)]
  | .notEach operands => record id "ShapeNot" [("shapeExpr", .array (shapeDocuments operands))]
  | .node nc => record id "NodeConstraint" (nodeFields nc)
  | .external => record id "ShapeExternal" []
  | .unsupported typeName => record id typeName []

def tripleDocument : TripleExpr → Json
  | .reference label => .string label
  | .constraint predicate inverse value bounds id => record id "TripleConstraint"
    [("predicate", predicate), ("inverse", flag inverse), ("valueExpr", shapeDocument .null value),
      ("min", bounds.min), ("max", bounds.max)]
  | .eachOf operands bounds id => record id "EachOf"
    [("expressions", .array (tripleDocuments operands)), ("min", bounds.min), ("max", bounds.max)]
  | .oneOf operands bounds id => record id "OneOf"
    [("expressions", .array (tripleDocuments operands)), ("min", bounds.min), ("max", bounds.max)]
  | .unsupported typeName => record .null typeName []

def shapeDocuments : List ShapeExpr → List Json
  | [] => []
  | expr :: rest => shapeDocument .null expr :: shapeDocuments rest

def tripleDocuments : List TripleExpr → List Json
  | [] => []
  | expr :: rest => tripleDocument expr :: tripleDocuments rest

end

/-- How a declaration is laid out: with the expression in a field of its own,
or as an expression that carries the label. -/
inductive Layout where
  /-- The expression stands in a field of the declaration. -/
  | wrapped
  /-- The expression carries the label itself. -/
  | inline
deriving DecidableEq

def declDocument (decl : ShapeDecl) : Layout → Json
  | .wrapped => record decl.id "ShapeDecl"
    [("shapeExpr", shapeDocument .null decl.expr), ("abstract", flag decl.abstract)]
  | .inline => shapeDocument decl.id decl.expr

def startDocument : Start → Json
  | .label label => .string label
  | _ => .null

def schemaFields (schema : Schema) (layouts : List Layout) : Fields := [
  ("@context", .string "http://www.w3.org/ns/shex.jsonld"),
  ("type", .string "Schema"),
  ("imports", listed schema.imports),
  ("start", startDocument schema.start),
  ("shapes", listed (schema.shapes.zipWith declDocument layouts))]

def schemaDocument (schema : Schema) (layouts : List Layout) : Json :=
  .object (present (schemaFields schema layouts))

end ShapeQuery.Document

namespace ShapeQuery

open Document

/-- Whether a value names the type of an entry that is no literal. -/
def Json.namesEntryType (value : Json) : Bool :=
  value.isString "Language" || [StemKind.iri, .literal, .language].any fun kind =>
    value.isString (stemType kind) || value.isString (rangeType kind)

/-- Whether an entry is read back as what it is: the datatype of a literal is
no entry type. -/
def ValueSetEntry.expressible : ValueSetEntry → Bool
  | .literal _ datatype _ => !datatype.namesEntryType
  | _ => true

mutual

/-- Whether an expression has a form in a document: its types are known, and a
point is only the value of an arc. -/
def ShapeExpr.expressible : ShapeExpr → Bool
  | .any | .unsupported _ => false
  | .reference _ | .external | .shape none _ _ => true
  | .shape (some expression) _ _ => expression.expressible
  | .and operands | .or operands | .notEach operands => expressibleShapes operands
  | .not operand => operand.expressible
  | .node nc => (nc.values.getD []).all ValueSetEntry.expressible

def TripleExpr.expressible : TripleExpr → Bool
  | .reference _ => true
  | .unsupported _ => false
  | .constraint _ _ value _ _ =>
    match value with
    | .any => true
    | value => value.expressible
  | .eachOf operands _ _ | .oneOf operands _ _ => expressibleTriples operands

def expressibleShapes : List ShapeExpr → Bool
  | [] => true
  | expr :: rest => expr.expressible && expressibleShapes rest

def expressibleTriples : List TripleExpr → Bool
  | [] => true
  | expr :: rest => expr.expressible && expressibleTriples rest

end

/-- Whether a start is a label that is a text, or absent. -/
def Start.expressible : Start → Bool
  | .none | .label _ => true
  | .illFormed _ | .expression _ | .value _ => false

/-- Whether a schema has a form in a document, which has no place for
namespaces. -/
def Schema.expressible (schema : Schema) : Bool :=
  schema.shapes.all (·.expr.expressible) && schema.start.expressible && schema.namespaces.isEmpty

/-- Whether a declaration can stand in a layout: an expression that carries the
label is an object, and it says nothing of being abstract. -/
def Document.Layout.suits (decl : ShapeDecl) : Layout → Bool
  | .wrapped => true
  | .inline => !decl.abstract && match decl.expr with
    | .reference _ => false
    | _ => true

end ShapeQuery
