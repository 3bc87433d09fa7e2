import ShapeQuery.Compile.Walk
import ShapeQuery.Query.Passes

/-!
Expressions as query groups. Operands that hold together are collected in one group,
alternatives become sibling groups marked `UNION`, a negation becomes a `MINUS` group, and
arcs that are optional or excluded get a group of their own. References are left to the
caller, who says how they are followed.
-/
namespace ShapeQuery.Compile

/-- What an expression contributes: a group, and loose lines for the group
around it. -/
structure Fragment where
  group : Group := {}
  loose : List String := []
deriving Inhabited, Repr

/-- The term that an expression is about. Without one, a referenced shape is
about its own variable. -/
abbrev Focus := Option String

def Focus.text : Focus → String
  | some term => term
  | none => "None"

/-- How references are followed. The fragments of expressions are defined for
any way of following them, as a depth has to be counted down there. -/
structure Links where
  shape : String → Focus → Walk Fragment
  tripleExpr : String → String → Walk Fragment

/-- The alternatives of a disjunction so far: those with a group of their own,
and the filters of those that only have filters. -/
structure Alternatives where
  group : Group := {}
  filters : List String := []

def Alternatives.add (alternatives : Alternatives) (fragment : Fragment) : Alternatives :=
  let group := alternatives.group.addChild? (fragment.group.asBranch [] (some .union))
  if fragment.loose.isEmpty then
    { alternatives with group }
  else if fragment.loose.all isFilter then
    { group, filters := alternatives.filters ++ [mergeFilters fragment.loose "&&"] }
  else
    { alternatives with
      group := group.addChild { clause := some .union, lines := fragment.loose } }

/-- The group of a disjunction. Its filters make up one more alternative, or
its only line. -/
def Alternatives.close (alternatives : Alternatives) : Group :=
  let { group, filters } := alternatives
  if filters.isEmpty then
    group
  else
    let merged := mergeFilters filters "||"
    if group.children.isEmpty then
      group.addLines [merged]
    else
      group.addChild { clause := some .union, lines := [merged] }

/-- The clause of a triple constraint: excluded if nothing may occur, optional
if nothing need occur. -/
def constraintClause (bounds : Bounds) : Option Clause :=
  if bounds.max.isZero then some .notExists
  else if bounds.min.isZero then some .optional
  else none

def groupClause (bounds : Bounds) : Checked (Option Clause) := do
  if bounds.min.isNull then
    return none
  else
    return if ← bounds.min.isBelowOne then some .optional else none

def withClause (group : Group) (clause : Option Clause) : Group :=
  match clause with
  | some clause => { group with clause := some clause }
  | none => group

/-- The lines of a node constraint on the objects of a predicate, or on the
subject if the predicate is null. -/
def nodeLines (nc : NodeConstraint) (subject : String) (predicate : Json) (inverse : Bool) :
    Walk (List String) := do
  if predicate.isNull then
    Walk.use (constraintLines nc subject)
  else
    let object ← Walk.fresh
    let lines ← Walk.use (constraintLines nc object)
    return triplePattern subject predicate.display object inverse :: lines

/-- Loose lines stay inside a group that has a clause. -/
def keepInside (clause : Option Clause) (lines : List String) : Fragment :=
  if clause.isSome then ⟨{ clause, lines }, []⟩ else ⟨{}, lines⟩

/-- An arc to an object that is described by a fragment: the description, and
the arc behind its lines. -/
def arcTo (clause : Option Clause) (described : Fragment) (arc : String) : Fragment :=
  ⟨({ clause } : Group).addChild described.group |>.addLines (described.loose ++ [arc]), []⟩

mutual

/-- The fragment of a shape expression. Constraints on the focus come out as
loose lines, so that the group around can hold them. -/
def shapeFragment (links : Links) (focus : Focus) : ShapeExpr → Walk Fragment
  | .reference label => links.shape label focus
  | .any => do
    Walk.report (.unknownShapeExpr "NoneType")
    return {}
  | .shape none _ _ => return {}
  | .shape (some expression) _ _ => do
    let inner ← tripleFragment links focus.text expression
    return ⟨({} : Group).addChild inner.group |>.addLines inner.loose, []⟩
  | .and operands => do return ⟨← gatherShapes links focus {} operands, []⟩
  | .or operands => do return ⟨(← gatherAlternatives links focus {} operands).close, []⟩
  | .not operand => do
    let inner ← shapeFragment links focus operand
    return ⟨({ clause := some .minus } : Group).addChild inner.group |>.addLines inner.loose, []⟩
  | .notEach operands => do
    return ⟨← gatherShapes links focus { clause := some .minus } operands, []⟩
  | .node nc => do return ⟨{}, ← nodeLines nc focus.text .null false⟩
  | .external => do
    Walk.report .externalShape
    return {}
  | .unsupported typeName => do
    Walk.report (.unknownShapeExpr typeName)
    return {}

def gatherShapes (links : Links) (focus : Focus) (group : Group) : List ShapeExpr → Walk Group
  | [] => return group
  | operand :: rest => do
    let inner ← shapeFragment links focus operand
    gatherShapes links focus (group.addChild inner.group |>.addLines inner.loose) rest

def gatherAlternatives (links : Links) (focus : Focus) (alternatives : Alternatives) :
    List ShapeExpr → Walk Alternatives
  | [] => return alternatives
  | operand :: rest => do
    let inner ← shapeFragment links focus operand
    gatherAlternatives links focus (alternatives.add inner) rest

/-- The fragment of a triple expression. -/
def tripleFragment (links : Links) (subject : String) : TripleExpr → Walk Fragment
  | .reference label => links.tripleExpr label subject
  | .constraint predicate inverse value bounds _ =>
    let clause := constraintClause bounds
    let arc := fun object => triplePattern subject predicate.display object inverse
    match value with
    | .reference label => do
      let object := stableVariable label
      let described ← links.shape label (some object)
      return arcTo clause described (arc object)
    | .any => do
      let object ← Walk.fresh
      return keepInside clause [arc object]
    | .node nc => do return keepInside clause (← nodeLines nc subject predicate inverse)
    | value => do
      let object ← Walk.fresh
      let described ← shapeFragment links (some object) value
      return arcTo clause described (arc object)
  | .eachOf operands bounds _ => do
    let group ← gatherTriples links subject {} operands
    return ⟨withClause group (← Walk.use (groupClause bounds)), []⟩
  | .oneOf operands bounds _ => do
    let group ← gatherBranches links subject {} operands
    return ⟨withClause group (← Walk.use (groupClause bounds)), []⟩
  | .unsupported typeName => do
    Walk.report (.unknownTripleExpr typeName)
    return {}

def gatherTriples (links : Links) (subject : String) (group : Group) : List TripleExpr → Walk Group
  | [] => return group
  | operand :: rest => do
    let inner ← tripleFragment links subject operand
    gatherTriples links subject (group.addChild inner.group |>.addLines inner.loose) rest

/-- Collects the fragments of triple expressions as alternatives. Other than
with shapes, loose lines go into the branch of their own operand. -/
def gatherBranches (links : Links) (subject : String) (group : Group) : List TripleExpr → Walk Group
  | [] => return group
  | operand :: rest => do
    let inner ← tripleFragment links subject operand
    gatherBranches links subject
      (group.addChild? (inner.group.asBranch inner.loose (some .union))) rest

end

end ShapeQuery.Compile
