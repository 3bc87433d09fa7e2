import ShapeQuery.Json.Reader
import ShapeQuery.Schema.Basic
import ShapeQuery.Text.Split

/-!
Reading schemas from ShExJ, the JSON form of shape schemas. Values are taken as they are where the
form allows only one kind of value, so that a document with an odd predicate or facet still reads.
-/
namespace ShapeQuery.Document

inductive Fault where
  /-- The text is no JSON; `text` is kept for the line and column. -/
  | json (text : List Char) (fault : Json.ReadFault)
  | notObject
  /-- An object, named by its type, lacks a field. -/
  | missing (holder field : String)
  | unexpectedEntry (value : Json)
  | unexpectedShapeExpr (value : Json)
  | unexpectedTripleExpr (value : Json)
  | unknownNodeKind (value : Json)
  /-- A value of the wrong kind is used. -/
  | misuse (misuse : Json.Misuse)

def Fault.message : Fault → String
  | .json _ (.longInteger digits) => Json.longIntegerMessage digits
  | .json text fault => "Invalid ShExJ: " ++ fault.message text
  | .notObject => "ShExJ document must be a JSON object"
  | .missing holder field => holder ++ " is missing " ++ Text.quoted field
  | .unexpectedEntry value => "Unexpected value set entry: " ++ value.literal
  | .unexpectedShapeExpr value => "Unexpected shape expression: " ++ value.literal
  | .unexpectedTripleExpr value => "Unexpected triple expression: " ++ value.literal
  | .unknownNodeKind value => "Unknown nodeKind " ++ value.literal
  | .misuse use => use.message

abbrev Fields := List (String × Json)

/-- A use of a value, with its misuse as a fault. A value of the wrong kind
only matters where it is used. -/
def use {α : Type} : Except Json.Misuse α → Except Fault α
  | .ok result => .ok result
  | .error misuse => .error (.misuse misuse)

def holderName (fields : Fields) : String :=
  match Json.field? fields "type" with
  | some type => type.display
  | none => "object"

def require (fields : Fields) (name : String) : Except Fault Json :=
  match Json.field? fields name with
  | some value => .ok value
  | none => .error (.missing (holderName fields) name)

/-- The items of a field; a field that is not there has none. -/
def itemsOf (fields : Fields) (name : String) : Except Fault (List Json) :=
  match Json.field? fields name with
  | some value => use value.items
  | none => .ok []

/-- The kind that a stem type names. -/
def stemKind? : String → Option StemKind
  | "IriStem" => some .iri
  | "LiteralStem" => some .literal
  | "LanguageStem" => some .language
  | _ => none

/-- The kind that a stem range type names. -/
def rangeKind? : String → Option StemKind
  | "IriStemRange" => some .iri
  | "LiteralStemRange" => some .literal
  | "LanguageStemRange" => some .language
  | _ => none

/-- The stem of a range: every object stands for the wildcard. -/
def readStem : Json → Stem
  | .object _ => .wildcard
  | value => .text value

def readExclusion : Json → Except Fault Exclusion
  | .object fields => do return .stem (← require fields "stem")
  | value => .ok (.value value)

/-- A value-set entry without a type of its own: a literal, whose type is its
datatype. -/
def readLiteral (fields : Fields) (type : Json) : Except Fault ValueSetEntry := do
  let value ← require fields "value"
  return .literal value type (Json.fieldD fields "language")

def readTypedEntry (fields : Fields) (type : String) : Except Fault ValueSetEntry :=
  if type = "Language" then do
    return .language (← require fields "languageTag")
  else
    match stemKind? type, rangeKind? type with
    | some kind, _ => do return .stem kind (← require fields "stem")
    | none, some kind => do
      let exclusions ← (← itemsOf fields "exclusions").mapM readExclusion
      return .range kind (readStem (← require fields "stem")) exclusions
    | none, none => readLiteral fields (.string type)

def readEntry : Json → Except Fault ValueSetEntry
  | .string iri => .ok (.iri iri)
  | .illFormed codes => .ok (.iri (Json.mended codes))
  | .object fields =>
    match Json.fieldD fields "type" with
    | .string type => readTypedEntry fields type
    | type => do
      use type.hashable
      readLiteral fields type
  | value => .error (.unexpectedEntry value)

def readNodeKind (value : Json) : Except Fault NodeKind :=
  match value.string?.bind NodeKind.ofWord? with
  | some kind => .ok kind
  | none => .error (.unknownNodeKind value)

def readNodeConstraint (fields : Fields) : Except Fault NodeConstraint := do
  let nodeKind ← (Json.field? fields "nodeKind").mapM readNodeKind
  let values ← (Json.field? fields "values").mapM fun value => do
    (← use value.items).mapM readEntry
  return {
    nodeKind
    datatype := Json.fieldD fields "datatype"
    values
    length := Json.fieldD fields "length"
    minLength := Json.fieldD fields "minlength"
    maxLength := Json.fieldD fields "maxlength"
    pattern := Json.fieldD fields "pattern"
    flags := Json.fieldD fields "flags"
    minInclusive := Json.fieldD fields "mininclusive"
    minExclusive := Json.fieldD fields "minexclusive"
    maxInclusive := Json.fieldD fields "maxinclusive"
    maxExclusive := Json.fieldD fields "maxexclusive" }

def readBounds (fields : Fields) : Bounds :=
  { min := Json.fieldD fields "min", max := Json.fieldD fields "max" }

/-- A field's value is smaller than the object that holds it. -/
theorem sizeOf_field_lt {fields : Fields} {name : String} {value : Json}
    (found : Json.field? fields name = some value) :
    sizeOf value < sizeOf (Json.object fields) := by
  induction fields with
  | nil => simp [Json.field?] at found
  | cons field rest ih =>
    obtain ⟨key, item⟩ := field
    simp only [Json.field?, List.lookup_cons] at found ih
    split at found
    · cases found
      simp only [Json.object.sizeOf_spec, List.cons.sizeOf_spec, Prod.mk.sizeOf_spec]
      omega
    · have smaller := ih found
      simp only [Json.object.sizeOf_spec, List.cons.sizeOf_spec, Prod.mk.sizeOf_spec] at smaller ⊢
      omega

/-- What a negation is of: its operand, which may also stand in the field for
several operands. -/
def negated? (fields : Fields) : Option Json :=
  match Json.field? fields "shapeExpr" with
  | some operand => some operand
  | none => Json.field? fields "shapeExprs"

/-- The operand of a negation is smaller than the negation. -/
theorem sizeOf_negated_lt {fields : Fields} {value : Json} (found : negated? fields = some value) :
    sizeOf value < sizeOf (Json.object fields) := by
  unfold negated? at found
  split at found
  · rename_i single
    cases found
    exact sizeOf_field_lt single
  · exact sizeOf_field_lt found

mutual

/-- A shape expression: an object, or a label. The type of the object tells
which expression it is, and an unknown type is kept as one that is not
supported. -/
def readShapeExpr (value : Json) : Except Fault ShapeExpr :=
  match value with
  | .string label => .ok (.reference label)
  | .illFormed codes => .ok (.reference (Json.mended codes))
  | .object fields =>
    let type := Json.fieldD fields "type"
    if type.isString "Shape" then do
      let expression ← match _h : Json.field? fields "expression" with
        | none | some .null => pure none
        | some expression => do pure (some (← readTripleExpr expression))
      let extra ← itemsOf fields "extra"
      return .shape expression (Json.fieldD fields "closed").truthy extra
    else if type.isString "ShapeAnd" then
      match _h : Json.field? fields "shapeExprs" with
      | none => .error (.missing (holderName fields) "shapeExprs")
      | some operands => do return .and (← readShapeExprs operands)
    else if type.isString "ShapeOr" then
      match _h : Json.field? fields "shapeExprs" with
      | none => .error (.missing (holderName fields) "shapeExprs")
      | some operands => do return .or (← readShapeExprs operands)
    else if type.isString "ShapeNot" then
      match _h : negated? fields with
      | none | some .null => .error (.missing "ShapeNot" "shapeExpr")
      | some (.array operands) => do return .notEach (← readShapeExprItems operands)
      | some operand => do return .not (← readShapeExpr operand)
    else if type.isString "NodeConstraint" then do
      return .node (← readNodeConstraint fields)
    else if type.isString "ShapeExternal" then
      .ok .external
    else
      .ok (.unsupported type.display)
  | value => .error (.unexpectedShapeExpr value)
termination_by sizeOf value
decreasing_by
  all_goals
    first
    | exact sizeOf_field_lt _h
    | exact sizeOf_negated_lt _h
    | exact Nat.lt_trans (by simp only [Json.array.sizeOf_spec]; omega) (sizeOf_negated_lt _h)

/-- The operands of a shape expression. The characters of a string and the
names of an object are labels. -/
def readShapeExprs (value : Json) : Except Fault (List ShapeExpr) :=
  match value with
  | .array items => readShapeExprItems items
  | .string text => .ok (text.toList.map fun c => .reference (String.singleton c))
  | .illFormed codes => .ok (codes.map fun code => .reference (Json.mended [code]))
  | .object fields => .ok (fields.map fun field => .reference field.1)
  | value => .error (.misuse (.notIterable value.kind))
termination_by sizeOf value

def readShapeExprItems (items : List Json) : Except Fault (List ShapeExpr) :=
  match items with
  | [] => .ok []
  | item :: rest => do
    let expr ← readShapeExpr item
    let others ← readShapeExprItems rest
    return expr :: others
termination_by sizeOf items

/-- A triple expression: an object, or a label. -/
def readTripleExpr (value : Json) : Except Fault TripleExpr :=
  match value with
  | .string label => .ok (.reference label)
  | .illFormed codes => .ok (.reference (Json.mended codes))
  | .object fields =>
    let type := Json.fieldD fields "type"
    let id := Json.fieldD fields "id"
    if type.isString "TripleConstraint" then do
      let predicate ← require fields "predicate"
      let object ← match _h : Json.field? fields "valueExpr" with
        | none | some .null => pure .any
        | some object => readShapeExpr object
      return .constraint predicate (Json.fieldD fields "inverse").truthy object
        (readBounds fields) id
    else if type.isString "EachOf" then
      match _h : Json.field? fields "expressions" with
      | none => .error (.missing (holderName fields) "expressions")
      | some operands => do return .eachOf (← readTripleExprs operands) (readBounds fields) id
    else if type.isString "OneOf" then
      match _h : Json.field? fields "expressions" with
      | none => .error (.missing (holderName fields) "expressions")
      | some operands => do return .oneOf (← readTripleExprs operands) (readBounds fields) id
    else
      .ok (.unsupported type.display)
  | value => .error (.unexpectedTripleExpr value)
termination_by sizeOf value
decreasing_by all_goals exact sizeOf_field_lt _h

/-- The operands of a triple expression. The characters of a string and the
names of an object are labels. -/
def readTripleExprs (value : Json) : Except Fault (List TripleExpr) :=
  match value with
  | .array items => readTripleExprItems items
  | .string text => .ok (text.toList.map fun c => .reference (String.singleton c))
  | .illFormed codes => .ok (codes.map fun code => .reference (Json.mended [code]))
  | .object fields => .ok (fields.map fun field => .reference field.1)
  | value => .error (.misuse (.notIterable value.kind))
termination_by sizeOf value

def readTripleExprItems (items : List Json) : Except Fault (List TripleExpr) :=
  match items with
  | [] => .ok []
  | item :: rest => do
    let expr ← readTripleExpr item
    let others ← readTripleExprItems rest
    return expr :: others
termination_by sizeOf items

end

/-- What goes wrong when a string is taken for a declaration. -/
def stringMisuse (text : String) : Json.Misuse :=
  if Text.hasPart "id".toList text.toList then .notKeyed .string else .noOperation .string "get"

/-- What goes wrong when a value that is no object is taken for a declaration:
its members are looked through for an id, which is then asked for by name. -/
def declMisuse (value : Json) : Json.Misuse :=
  match value with
  | .string text => stringMisuse text
  | .illFormed codes => stringMisuse (Json.mended codes)
  | .array items =>
    if items.any (·.isString "id") then .notKeyed .array else .noOperation .array "get"
  | value => .notContainer value.kind

/-- A declaration, in either layout: with the expression in a field of its own,
or as an expression that carries the label. -/
def readDecl : Json → Except Fault ShapeDecl
  | .object fields => do
    let id ← require fields "id"
    if (Json.fieldD fields "type").isString "ShapeDecl" then
      let expr ← readShapeExpr (← require fields "shapeExpr")
      return { id, expr, abstract := (Json.fieldD fields "abstract").truthy }
    else
      return { id, expr := ← readShapeExpr (.object fields) }
  | value => .error (.misuse (declMisuse value))

/-- The start of a schema. Only objects are read as expressions. -/
def readStart (fields : Fields) : Except Fault Start :=
  match Json.fieldD fields "start" with
  | .object start => do return .expression (← readShapeExpr (.object start))
  | start => .ok (.ofJson start)

def readSchema : Json → Except Fault Schema
  | .object fields => do
    let start ← readStart fields
    let shapes ← (← itemsOf fields "shapes").mapM readDecl
    let imports ← itemsOf fields "imports"
    return { shapes, start, imports }
  | _ => .error .notObject

def parseJson (text : List Char) : Except Fault Json :=
  match Json.parse text with
  | .ok value => .ok value
  | .error fault => .error (.json text fault)

/-- The schema that a ShExJ text holds. The text has to be one JSON value, and
that value an object. -/
def parse (text : List Char) : Except Fault Schema := do
  readSchema (← parseJson text)

end ShapeQuery.Document
