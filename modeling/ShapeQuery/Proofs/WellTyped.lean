import ShapeQuery.Proofs.Checks
import ShapeQuery.Proofs.Visit

/-!
Well-typed schemas: every value has the kind that the syntax gives it. Such a schema is compiled
without misusing a value, so a declared start shape always has a group.
-/
namespace ShapeQuery

namespace Json

def isText : Json → Bool
  | .string _ => true
  | _ => false

def isTextOrNull : Json → Bool
  | .string _ | .null => true
  | _ => false

def isIntOrNull : Json → Bool
  | .int _ | .null => true
  | _ => false

def isNumberOrNull : Json → Bool
  | .int _ | .float _ | .null => true
  | _ => false

theorem isIntOrNull_cases {value : Json} (typed : value.isIntOrNull = true) :
    value = .null ∨ ∃ n, value = .int n := by
  cases value <;> simp_all [isIntOrNull]

theorem isText_iff {value : Json} : value.isText = true ↔ ∃ text, value = .string text := by
  cases value <;> simp [isText]

end Json

def Stem.wellTyped : Stem → Bool
  | .text value => value.isText
  | .wildcard => true

def Exclusion.wellTyped : Exclusion → Bool
  | .value text => text.isText
  | .stem text => text.isText

def ValueSetEntry.wellTyped : ValueSetEntry → Bool
  | .iri _ => true
  | .literal value datatype tag => value.isText && datatype.isTextOrNull && tag.isTextOrNull
  | .language tag => tag.isText
  | .stem _ text => text.isText
  | .range _ start exclusions => start.wellTyped && exclusions.all Exclusion.wellTyped

/-- Whether a constraint on a node is well-typed. -/
def NodeConstraint.wellTyped (nc : NodeConstraint) : Bool :=
  nc.datatype.isTextOrNull && (nc.values.getD []).all ValueSetEntry.wellTyped &&
    nc.length.isIntOrNull && nc.minLength.isIntOrNull && nc.maxLength.isIntOrNull &&
    nc.pattern.isTextOrNull && nc.flags.isTextOrNull &&
    nc.minInclusive.isNumberOrNull && nc.minExclusive.isNumberOrNull &&
    nc.maxInclusive.isNumberOrNull && nc.maxExclusive.isNumberOrNull

def Bounds.wellTyped (bounds : Bounds) : Bool :=
  bounds.min.isIntOrNull && bounds.max.isIntOrNull

mutual

/-- Whether a shape expression is well-typed. -/
def ShapeExpr.wellTyped : ShapeExpr → Bool
  | .shape none _ extra => extra.all Json.isText
  | .shape (some expression) _ extra => expression.wellTyped && extra.all Json.isText
  | .and operands | .or operands | .notEach operands => wellTypedShapes operands
  | .not operand => operand.wellTyped
  | .node nc => nc.wellTyped
  | .reference _ | .any | .external | .unsupported _ => true

/-- Whether a triple expression is well-typed. -/
def TripleExpr.wellTyped : TripleExpr → Bool
  | .constraint predicate _ value bounds id =>
    predicate.isText && value.wellTyped && bounds.wellTyped && id.isTextOrNull
  | .eachOf operands bounds id | .oneOf operands bounds id =>
    wellTypedTriples operands && bounds.wellTyped && id.isTextOrNull
  | .reference _ | .unsupported _ => true

def wellTypedShapes : List ShapeExpr → Bool
  | [] => true
  | expr :: rest => expr.wellTyped && wellTypedShapes rest

def wellTypedTriples : List TripleExpr → Bool
  | [] => true
  | expr :: rest => expr.wellTyped && wellTypedTriples rest

end

/-- Whether a schema is well-typed. A schema whose values are of the types that
the syntax asks for can be compiled without a misuse. -/
def Schema.wellTyped (schema : Schema) : Bool :=
  schema.shapes.all (fun decl => decl.id.isText && decl.expr.wellTyped) &&
    schema.imports.all Json.isText

theorem Schema.wellTyped_of_mem {schema : Schema} (typed : schema.wellTyped = true)
    {decl : ShapeDecl} (member : decl ∈ schema.shapes) : decl.expr.wellTyped = true := by
  simp only [wellTyped, Bool.and_eq_true, List.all_eq_true] at typed
  exact (typed.1 decl member).2

/-- A labelled expression inside a well-typed one. -/
def Labelled.wellTyped (labelled : Labelled) : Prop :=
  labelled.1.isText = true ∧ labelled.2.wellTyped = true

theorem labelledIf_wellTyped {id : Json} {expr : TripleExpr} (named : id.isTextOrNull = true)
    (typed : expr.wellTyped = true) : ∀ labelled ∈ labelledIf id expr, labelled.wellTyped := by
  intro labelled member
  unfold labelledIf at member
  split at member
  · next present =>
    simp only [List.mem_singleton] at member
    subst member
    refine ⟨?_, typed⟩
    cases id <;> simp_all [Json.isTextOrNull, Json.isText, Json.truthy]
  · cases member

mutual

/-- The labelled expressions in a well-typed shape expression are well-typed.
Induction together with triple expressions and lists of both. -/
theorem ShapeExpr.labelled_wellTyped : ∀ {expr : ShapeExpr}, expr.wellTyped = true →
    ∀ labelled ∈ expr.labelled, labelled.wellTyped
  | .shape (some expression) _ _, typed => by
    rw [ShapeExpr.wellTyped, Bool.and_eq_true] at typed
    rw [ShapeExpr.labelled]
    exact TripleExpr.labelled_wellTyped typed.1
  | .and operands, typed => by
    rw [ShapeExpr.wellTyped] at typed
    rw [ShapeExpr.labelled]
    exact labelledInShapes_wellTyped typed
  | .or operands, typed => by
    rw [ShapeExpr.wellTyped] at typed
    rw [ShapeExpr.labelled]
    exact labelledInShapes_wellTyped typed
  | .notEach operands, typed => by
    rw [ShapeExpr.wellTyped] at typed
    rw [ShapeExpr.labelled]
    exact labelledInShapes_wellTyped typed
  | .not operand, typed => by
    rw [ShapeExpr.wellTyped] at typed
    rw [ShapeExpr.labelled]
    exact ShapeExpr.labelled_wellTyped typed
  | .shape none _ _, _ => by simp [ShapeExpr.labelled]
  | .reference _, _ => by simp [ShapeExpr.labelled]
  | .any, _ => by simp [ShapeExpr.labelled]
  | .node _, _ => by simp [ShapeExpr.labelled]
  | .external, _ => by simp [ShapeExpr.labelled]
  | .unsupported _, _ => by simp [ShapeExpr.labelled]

theorem TripleExpr.labelled_wellTyped : ∀ {expr : TripleExpr}, expr.wellTyped = true →
    ∀ labelled ∈ expr.labelled, labelled.wellTyped
  | .constraint predicate inverse value bounds id, typed => by
    have parts := typed
    simp only [TripleExpr.wellTyped, Bool.and_eq_true] at parts
    rw [TripleExpr.labelled]
    intro entry member
    rcases List.mem_append.mp member with own | inside
    · exact labelledIf_wellTyped parts.2 typed entry own
    · exact ShapeExpr.labelled_wellTyped parts.1.1.2 entry inside
  | .eachOf operands bounds id, typed => by
    have parts := typed
    simp only [TripleExpr.wellTyped, Bool.and_eq_true] at parts
    rw [TripleExpr.labelled]
    intro entry member
    rcases List.mem_append.mp member with own | inside
    · exact labelledIf_wellTyped parts.2 typed entry own
    · exact labelledInTriples_wellTyped parts.1.1 entry inside
  | .oneOf operands bounds id, typed => by
    have parts := typed
    simp only [TripleExpr.wellTyped, Bool.and_eq_true] at parts
    rw [TripleExpr.labelled]
    intro entry member
    rcases List.mem_append.mp member with own | inside
    · exact labelledIf_wellTyped parts.2 typed entry own
    · exact labelledInTriples_wellTyped parts.1.1 entry inside
  | .reference _, _ => by simp [TripleExpr.labelled]
  | .unsupported _, _ => by simp [TripleExpr.labelled]

theorem labelledInShapes_wellTyped :
    ∀ {operands : List ShapeExpr}, wellTypedShapes operands = true →
      ∀ labelled ∈ labelledInShapes operands, labelled.wellTyped
  | [], _ => by simp [labelledInShapes]
  | expr :: rest, typed => by
    rw [wellTypedShapes, Bool.and_eq_true] at typed
    rw [labelledInShapes]
    intro entry member
    rcases List.mem_append.mp member with first | others
    · exact ShapeExpr.labelled_wellTyped typed.1 entry first
    · exact labelledInShapes_wellTyped typed.2 entry others

theorem labelledInTriples_wellTyped :
    ∀ {operands : List TripleExpr}, wellTypedTriples operands = true →
      ∀ labelled ∈ labelledInTriples operands, labelled.wellTyped
  | [], _ => by simp [labelledInTriples]
  | expr :: rest, typed => by
    rw [wellTypedTriples, Bool.and_eq_true] at typed
    rw [labelledInTriples]
    intro entry member
    rcases List.mem_append.mp member with first | others
    · exact TripleExpr.labelled_wellTyped typed.1 entry first
    · exact labelledInTriples_wellTyped typed.2 entry others

end

/-- Well-typed entries can all be put into the index, as their labels are texts. -/
theorem LabelIndex.ofLabelled_ok {entries : List Labelled}
    (typed : ∀ labelled ∈ entries, labelled.wellTyped) :
    ∃ index, LabelIndex.ofLabelled entries = .ok index ∧
      ∀ entry ∈ index, entry.2.wellTyped = true := by
  induction entries with
  | nil => exact ⟨[], rfl, by simp⟩
  | cons first rest ih =>
    obtain ⟨index, built, typedRest⟩ := ih fun entry member => typed entry (by simp [member])
    obtain ⟨id, expr⟩ := first
    obtain ⟨named, typedExpr⟩ := typed (id, expr) (by simp)
    obtain ⟨label, rfl⟩ := Json.isText_iff.mp named
    refine ⟨(label, expr) :: index, ?_, ?_⟩
    · simp only [ofLabelled, built]
      rfl
    · intro entry member
      rcases List.mem_cons.mp member with rfl | others
      · exact typedExpr
      · exact typedRest entry others

theorem wellTypedShapes_map {decls : List ShapeDecl}
    (typed : ∀ decl ∈ decls, decl.expr.wellTyped = true) :
    wellTypedShapes (decls.map (·.expr)) = true := by
  induction decls with
  | nil => rfl
  | cons decl rest ih =>
    rw [List.map_cons, wellTypedShapes, Bool.and_eq_true]
    exact ⟨typed decl (by simp), ih fun other member => typed other (by simp [member])⟩

/-- Labels of a well-typed schema can all be keys, and what they mean is
well-typed. -/
theorem Schema.labelIndex_ok {schema : Schema} (typed : schema.wellTyped = true) :
    ∃ index, schema.labelIndex = .ok index ∧ ∀ entry ∈ index, entry.2.wellTyped = true := by
  have exprs := wellTypedShapes_map fun decl member => Schema.wellTyped_of_mem typed member
  exact LabelIndex.ofLabelled_ok (labelledInShapes_wellTyped exprs)

end ShapeQuery

namespace ShapeQuery.Compile

/-- A checked result without misuse. -/
def Succeeds {α : Type} (checked : Checked α) : Prop :=
  ∃ result, checked = .ok result

namespace Succeeds

variable {α β : Type}

theorem pure (result : α) : Succeeds (Pure.pure result : Checked α) :=
  ⟨result, rfl⟩

theorem bind {checked : Checked α} {next : α → Checked β} (first : Succeeds checked)
    (second : ∀ result, Succeeds (next result)) : Succeeds (checked >>= next) := by
  obtain ⟨result, rfl⟩ := first
  exact second result

/-- A list of checked results succeeds if each of them does. -/
theorem mapM {f : α → Checked β} {items : List α} (each : ∀ item ∈ items, Succeeds (f item)) :
    Succeeds (items.mapM f) := by
  induction items with
  | nil => exact .pure []
  | cons item rest ih =>
    rw [List.mapM_cons]
    exact .bind (each item (by simp)) fun first =>
      .bind (ih fun other member => each other (by simp [member])) fun others => .pure _

end Succeeds

theorem quoteValue_succeeds {value : Json} (typed : value.isText = true) :
    Succeeds (quoteValue value) := by
  obtain ⟨text, rfl⟩ := Json.isText_iff.mp typed
  exact ⟨quote text, rfl⟩

theorem stemTest_succeeds {stem : Json} (typed : stem.isText = true) (var : String)
    (kind : StemKind) : Succeeds (stemTest var kind stem) := by
  have quoted := quoteValue_succeeds typed
  cases kind with
  | iri => exact .bind quoted fun _ => .pure _
  | literal => exact .bind quoted fun _ => .pure _
  | language =>
    refine .bind ?_ fun _ => .pure _
    split
    · exact quoted
    · exact ⟨_, rfl⟩

/-- The stem of a range is a text or a wildcard, and both have a test. -/
theorem rangeStemTest_succeeds {stem : Stem} (typed : stem.wellTyped = true) (var : String)
    (kind : StemKind) : Succeeds (rangeStemTest var kind stem) := by
  cases stem with
  | text value => exact stemTest_succeeds typed var kind
  | wildcard => cases kind <;> exact ⟨_, rfl⟩

theorem exclusionTest_succeeds {exclusion : Exclusion} (typed : exclusion.wellTyped = true)
    (var : String) (kind : StemKind) : Succeeds (exclusionTest var kind exclusion) := by
  cases exclusion with
  | stem stem => exact .bind (stemTest_succeeds typed var kind) fun _ => .pure _
  | value value =>
    have quoted := quoteValue_succeeds typed
    cases kind with
    | iri => exact ⟨_, rfl⟩
    | literal => exact .bind quoted fun _ => .pure _
    | language => exact .bind quoted fun _ => .pure _

/-- A well-typed entry of a value set contributes something. One case for each
kind of entry. -/
theorem entryPart_succeeds {entry : ValueSetEntry} (typed : entry.wellTyped = true) (var : String) :
    Succeeds (entryPart var entry) := by
  cases entry with
  | iri iri => exact ⟨_, rfl⟩
  | literal value datatype language =>
    simp only [ValueSetEntry.wellTyped, Bool.and_eq_true] at typed
    exact .bind (.bind (quoteValue_succeeds typed.1.1) fun _ => .pure _) fun _ => .pure _
  | language tag => exact .bind (quoteValue_succeeds typed) fun _ => .pure _
  | stem kind stem => exact .bind (stemTest_succeeds typed var kind) fun _ => .pure _
  | range kind stem exclusions =>
    simp only [ValueSetEntry.wellTyped, Bool.and_eq_true, List.all_eq_true] at typed
    have others : Succeeds (exclusions.mapM (exclusionTest var kind)) :=
      .mapM fun exclusion member => exclusionTest_succeeds (typed.2 exclusion member) var kind
    exact .bind (rangeStemTest_succeeds typed.1 var kind) fun _ => .bind others fun _ => .pure _

theorem patternLine_succeeds {pattern flags : Json} (typed : pattern.isTextOrNull = true)
    (typedFlags : flags.isTextOrNull = true) (var : String) :
    Succeeds (patternLine var pattern flags) := by
  unfold patternLine
  cases pattern with
  | null => exact .pure _
  | string text =>
    refine .bind ⟨_, rfl⟩ fun _ => ?_
    cases flags with
    | null => exact .pure _
    | string letters =>
      split
      · exact .bind ⟨_, rfl⟩ fun _ => .pure _
      · exact .pure _
    | _ => cases typedFlags
  | _ => cases typed

/-- A well-typed node constraint has lines on every variable. -/
theorem constraintLines_succeeds {nc : NodeConstraint} (typed : nc.wellTyped = true)
    (var : String) : Succeeds (constraintLines nc var) := by
  simp only [NodeConstraint.wellTyped, Bool.and_eq_true] at typed
  obtain ⟨⟨⟨⟨⟨⟨⟨⟨⟨⟨-, entries⟩, -⟩, -⟩, -⟩, pattern⟩, flags⟩, -⟩, -⟩, -⟩, -⟩ := typed
  have values : Succeeds (valuesLines var nc.values) := by
    cases listed : nc.values with
    | none => exact ⟨_, rfl⟩
    | some members =>
      rw [listed, Option.getD_some, List.all_eq_true] at entries
      exact .bind (.mapM fun entry member => entryPart_succeeds (entries entry member) var)
        fun _ => .pure _
  have facets : Succeeds (facetLines nc var) :=
    .bind (patternLine_succeeds pattern flags var) fun _ => .pure _
  exact .bind values fun _ => .bind facets fun _ => .pure _

/-- Well-typed bounds can be compared, so they have a clause. -/
theorem groupClause_succeeds {bounds : Bounds} (typed : bounds.wellTyped = true) :
    Succeeds (groupClause bounds) := by
  simp only [Bounds.wellTyped, Bool.and_eq_true] at typed
  unfold groupClause
  cases least : bounds.min with
  | null => exact .pure _
  | int n => exact .bind ⟨_, rfl⟩ fun _ => .pure _
  | _ => simp [least, Json.isIntOrNull] at typed

/-- A walk that misuses no value, from any state: it stops for nothing but the
depth of references. -/
def NoMisuse {α : Type} (walk : Walk α) : Prop :=
  ∀ p fault q, walk p = .error fault q → fault = .nestedTooDeep

namespace NoMisuse

variable {α β : Type}

theorem pure (result : α) : NoMisuse (Pure.pure result) := by
  intro p fault q failure
  cases failure

theorem bind {walk : Walk α} {next : α → Walk β} (first : NoMisuse walk)
    (second : ∀ result, NoMisuse (next result)) : NoMisuse (walk >>= next) := by
  intro p fault q failure
  simp only [Bind.bind, EStateM.bind] at failure
  cases outcome : walk p with
  | ok result middle =>
    rw [outcome] at failure
    exact second result middle fault q failure
  | error found middle =>
    rw [outcome] at failure
    cases failure
    exact first p fault q outcome

theorem report (diagnostic : Diagnostic) : NoMisuse (Walk.report diagnostic) := by
  intro p fault q failure
  cases failure

theorem fresh : NoMisuse Walk.fresh := by
  intro p fault q failure
  cases failure

theorem use {checked : Checked α} (succeeds : Succeeds checked) : NoMisuse (Walk.use checked) := by
  obtain ⟨result, rfl⟩ := succeeds
  exact .pure result

/-- A guarded step misuses nothing if what it leads to does not, at every
smaller depth. -/
theorem guarded {target : Target} {cut : Diagnostic} {body : Nat → Walk Fragment} {depth : Nat}
    (inner : ∀ below, below < depth → NoMisuse (body below)) :
    NoMisuse (Compile.guarded target cut body depth) := by
  intro p fault q failure
  by_cases mark : target ∈ p.expanding
  · rw [guarded_of_mem cut body depth mark] at failure
    cases failure
  · cases depth with
    | zero =>
      rw [guarded_zero cut body mark] at failure
      cases failure
      rfl
    | succ below =>
      rw [guarded_of_not_mem cut body below mark] at failure
      simp only [Walk.whileExpanding] at failure
      cases outcome : body below { p with expanding := target :: p.expanding } with
      | ok result middle =>
        rw [outcome] at failure
        cases failure
      | error found middle =>
        rw [outcome] at failure
        cases failure
        exact inner below (Nat.lt_succ_self below) _ fault middle outcome

end NoMisuse

structure LinksNoMisuse (links : Links) : Prop where
  shape : ∀ label focus, NoMisuse (links.shape label focus)
  tripleExpr : ∀ label subject, NoMisuse (links.tripleExpr label subject)

theorem nodeLines_noMisuse {nc : NodeConstraint} (typed : nc.wellTyped = true) (subject : String)
    (predicate : Json) (inverse : Bool) : NoMisuse (nodeLines nc subject predicate inverse) := by
  unfold nodeLines
  split
  · exact .use (constraintLines_succeeds typed subject)
  · exact .bind .fresh fun object =>
      .bind (.use (constraintLines_succeeds typed object)) fun lines => .pure _

section Expressions

variable {links : Links}

mutual

/-- A walk through a well-typed shape expression misuses nothing if following
references does not. Induction together with triple expressions. -/
theorem shapeFragment_noMisuse (follow : LinksNoMisuse links) (focus : Focus) :
    ∀ {expr : ShapeExpr}, expr.wellTyped = true → NoMisuse (shapeFragment links focus expr)
  | .reference label, _ => by
    rw [shapeFragment]
    exact follow.shape label focus
  | .any, _ => by
    rw [shapeFragment]
    exact .bind (.report _) fun _ => .pure _
  | .shape none _ _, _ => by
    rw [shapeFragment]
    exact .pure _
  | .shape (some expression) _ _, typed => by
    rw [ShapeExpr.wellTyped, Bool.and_eq_true] at typed
    rw [shapeFragment]
    exact .bind (tripleFragment_noMisuse follow focus.text typed.1) fun _ => .pure _
  | .and operands, typed => by
    rw [ShapeExpr.wellTyped] at typed
    rw [shapeFragment]
    exact .bind (gatherShapes_noMisuse follow focus {} typed) fun _ => .pure _
  | .or operands, typed => by
    rw [ShapeExpr.wellTyped] at typed
    rw [shapeFragment]
    exact .bind (gatherAlternatives_noMisuse follow focus {} typed) fun _ => .pure _
  | .not operand, typed => by
    rw [ShapeExpr.wellTyped] at typed
    rw [shapeFragment]
    exact .bind (shapeFragment_noMisuse follow focus typed) fun _ => .pure _
  | .notEach operands, typed => by
    rw [ShapeExpr.wellTyped] at typed
    rw [shapeFragment]
    exact .bind (gatherShapes_noMisuse follow focus _ typed) fun _ => .pure _
  | .node nc, typed => by
    rw [ShapeExpr.wellTyped] at typed
    rw [shapeFragment]
    exact .bind (nodeLines_noMisuse typed focus.text .null false) fun _ => .pure _
  | .external, _ => by
    rw [shapeFragment]
    exact .bind (.report _) fun _ => .pure _
  | .unsupported typeName, _ => by
    rw [shapeFragment]
    exact .bind (.report _) fun _ => .pure _

theorem gatherShapes_noMisuse (follow : LinksNoMisuse links) (focus : Focus) (group : Group) :
    ∀ {operands : List ShapeExpr}, wellTypedShapes operands = true →
      NoMisuse (gatherShapes links focus group operands)
  | [], _ => by
    rw [gatherShapes]
    exact .pure _
  | operand :: rest, typed => by
    rw [wellTypedShapes, Bool.and_eq_true] at typed
    rw [gatherShapes]
    exact .bind (shapeFragment_noMisuse follow focus typed.1) fun _ =>
      gatherShapes_noMisuse follow focus _ typed.2

theorem gatherAlternatives_noMisuse (follow : LinksNoMisuse links) (focus : Focus)
    (alternatives : Alternatives) : ∀ {operands : List ShapeExpr}, wellTypedShapes operands = true →
      NoMisuse (gatherAlternatives links focus alternatives operands)
  | [], _ => by
    rw [gatherAlternatives]
    exact .pure _
  | operand :: rest, typed => by
    rw [wellTypedShapes, Bool.and_eq_true] at typed
    rw [gatherAlternatives]
    exact .bind (shapeFragment_noMisuse follow focus typed.1) fun _ =>
      gatherAlternatives_noMisuse follow focus _ typed.2

/-- A walk through a well-typed triple expression misuses nothing, in the same
induction. -/
theorem tripleFragment_noMisuse (follow : LinksNoMisuse links) (subject : String) :
    ∀ {expr : TripleExpr}, expr.wellTyped = true → NoMisuse (tripleFragment links subject expr)
  | .reference label, _ => by
    rw [tripleFragment]
    exact follow.tripleExpr label subject
  | .constraint predicate inverse value bounds id, typed => by
    simp only [TripleExpr.wellTyped, Bool.and_eq_true] at typed
    have nested : ∀ object, NoMisuse (shapeFragment links (some object) value) :=
      fun object => shapeFragment_noMisuse follow (some object) typed.1.1.2
    unfold tripleFragment
    cases value with
    | reference label => exact .bind (follow.shape label _) fun _ => .pure _
    | any => exact .bind .fresh fun _ => .pure _
    | node nc =>
      have constrained : nc.wellTyped = true := by simpa [ShapeExpr.wellTyped] using typed.1.1.2
      exact .bind (nodeLines_noMisuse constrained subject predicate inverse) fun _ => .pure _
    | _ => exact .bind .fresh fun object => .bind (nested object) fun _ => .pure _
  | .eachOf operands bounds id, typed => by
    simp only [TripleExpr.wellTyped, Bool.and_eq_true] at typed
    rw [tripleFragment]
    exact .bind (gatherTriples_noMisuse follow subject {} typed.1.1) fun _ =>
      .bind (.use (groupClause_succeeds typed.1.2)) fun _ => .pure _
  | .oneOf operands bounds id, typed => by
    simp only [TripleExpr.wellTyped, Bool.and_eq_true] at typed
    rw [tripleFragment]
    exact .bind (gatherBranches_noMisuse follow subject {} typed.1.1) fun _ =>
      .bind (.use (groupClause_succeeds typed.1.2)) fun _ => .pure _
  | .unsupported typeName, _ => by
    rw [tripleFragment]
    exact .bind (.report _) fun _ => .pure _

theorem gatherTriples_noMisuse (follow : LinksNoMisuse links) (subject : String) (group : Group) :
    ∀ {operands : List TripleExpr}, wellTypedTriples operands = true →
      NoMisuse (gatherTriples links subject group operands)
  | [], _ => by
    rw [gatherTriples]
    exact .pure _
  | operand :: rest, typed => by
    rw [wellTypedTriples, Bool.and_eq_true] at typed
    rw [gatherTriples]
    exact .bind (tripleFragment_noMisuse follow subject typed.1) fun _ =>
      gatherTriples_noMisuse follow subject _ typed.2

theorem gatherBranches_noMisuse (follow : LinksNoMisuse links) (subject : String) (group : Group) :
    ∀ {operands : List TripleExpr}, wellTypedTriples operands = true →
      NoMisuse (gatherBranches links subject group operands)
  | [], _ => by
    rw [gatherBranches]
    exact .pure _
  | operand :: rest, typed => by
    rw [wellTypedTriples, Bool.and_eq_true] at typed
    rw [gatherBranches]
    exact .bind (tripleFragment_noMisuse follow subject typed.1) fun _ =>
      gatherBranches_noMisuse follow subject _ typed.2

end

end Expressions

/-- A schema whose declarations and labelled triple expressions are
well-typed. -/
structure Context.WellTyped (context : Context) : Prop where
  decls : ∀ decl ∈ context.schema.shapes, decl.expr.wellTyped = true
  labels : ∀ entry ∈ context.labels, entry.2.wellTyped = true

theorem Context.ofSchema_schema {schema : Schema} {context : Context}
    (built : Context.ofSchema schema = .ok context) : context.schema = schema := by
  obtain ⟨index, -, same⟩ := checked_bind_ok built
  cases same
  rfl

/-- A well-typed schema has a context, and everything that references can lead
to in it is well-typed. -/
theorem Context.ofSchema_ok {schema : Schema} (typed : schema.wellTyped = true) :
    ∃ context, Context.ofSchema schema = .ok context ∧ context.schema = schema ∧
      context.WellTyped := by
  obtain ⟨index, built, typedIndex⟩ := Schema.labelIndex_ok typed
  refine ⟨⟨schema, index⟩, ?_, rfl, ?_, typedIndex⟩
  · simp only [ofSchema, built]
    rfl
  · exact fun decl member => Schema.wellTyped_of_mem typed member

/-- Following references in a well-typed schema misuses nothing, at any depth.
Induction on the depth. -/
theorem linksTo_noMisuse {context : Context} (typed : context.WellTyped) (depth : Nat) :
    LinksNoMisuse (context.linksTo depth) := by
  induction depth using Nat.strongRecOn with
  | ind depth ih =>
    refine ⟨fun label focus => ?_, fun label subject => ?_⟩
    · simp only [Context.linksTo, expandShape_eq]
      cases found : context.schema.find? label with
      | none => exact .bind (.report _) fun _ => .pure _
      | some decl =>
        have typedDecl := typed.decls decl (List.mem_of_find?_eq_some found)
        exact .guarded fun below smaller => shapeFragment_noMisuse (ih below smaller) _ typedDecl
    · simp only [Context.linksTo, expandTripleExpr_eq]
      cases found : context.labels.lookup label with
      | none => exact .bind (.report _) fun _ => .pure _
      | some target =>
        obtain ⟨front, back, split, -⟩ := List.lookup_eq_some_iff.mp found
        have typedTarget := typed.labels (label, target) (by simp [split])
        exact .guarded fun below smaller => tripleFragment_noMisuse (ih below smaller) _ typedTarget

/-- A call that misuses no value has a result, as the depth suffices for all
references. -/
theorem Call.walk_ok {context : Context} {call : Call} (safe : NoMisuse (call.walk context.links))
    (p : Progress) : ∃ f q, call.walk context.links p = .ok f q := by
  have most := context.unexpanded_le_targetCount p.expanding
  obtain ⟨-, -, shallow⟩ := Call.walk_links_settled context call p.expanding _ most p rfl
  cases outcome : call.walk context.links p with
  | ok f q => exact ⟨f, q, rfl⟩
  | error fault q =>
    rw [outcome, safe p fault q outcome] at shallow
    cases shallow

/-- A reference to a shape of a well-typed schema is visited with a result. -/
theorem Context.shape_ok {context : Context} (typed : context.WellTyped) (label : String)
    (focus : Focus) (p : Progress) :
    ∃ f q, context.shape label focus p = .ok f q ∧
      Visit context p (.shape focus (.reference label)) f q := by
  have safe : NoMisuse ((Call.shape label focus).walk context.links) :=
    (linksTo_noMisuse typed context.targetCount).shape label focus
  obtain ⟨f, q, visited⟩ := Call.walk_ok safe p
  exact ⟨f, q, visited, (linksTo_visit context context.targetCount).shape visited⟩

/-- A well-typed triple expression of a well-typed schema is visited with a result. -/
theorem Context.tripleExpr_ok {context : Context} (typed : context.WellTyped) {expr : TripleExpr}
    (typedExpr : expr.wellTyped = true) (subject : String) (p : Progress) :
    ∃ f q, context.tripleExpr expr subject p = .ok f q := by
  have safe : NoMisuse ((Call.tripleExpr expr subject).walk context.links) :=
    tripleFragment_noMisuse (linksTo_noMisuse typed context.targetCount) subject typedExpr
  exact Call.walk_ok safe p

/-- The state in which the start shape is come to: what is imported has been noted. -/
def Context.announced (context : Context) (p : Progress) : Progress :=
  if context.schema.imports.isEmpty then p
  else p.noting (.importsIgnored context.schema.imports.length)

theorem Context.announced_fresh (context : Context) (p : Progress) :
    (context.announced p).fresh = p.fresh := by
  unfold announced
  split <;> rfl

theorem Context.announced_expanding (context : Context) (p : Progress) :
    (context.announced p).expanding = p.expanding := by
  unfold announced
  split <;> rfl

/-- The start shape is looked for after the imports have been noted. -/
theorem Context.startShape_eq (context : Context) (p : Progress) :
    context.startShape p = context.findStart (context.announced p) := by
  unfold startShape announced
  split <;> rfl

/-- A declared start shape is found after the imports have been noted. -/
theorem Context.startShape_ok {context : Context} {label : String}
    (start : context.schema.start = .label label) {decl : ShapeDecl}
    (declared : context.schema.find? label = some decl) (p : Progress) :
    context.startShape p = .ok (some (label, decl)) (context.announced p) := by
  rw [startShape_eq, findStart, start]
  simp only [Start.label?, declared]
  rfl

/-- Looking for the start shape finds its declaration, or reports an error, or
stops at a label that is declared but is no text. -/
theorem Context.startShape_cases (context : Context) (p : Progress) :
    (∃ label decl, context.schema.start = .label label ∧ context.schema.find? label = some decl ∧
      context.startShape p = .ok (some (label, decl)) (context.announced p)) ∨
    ((∀ label, context.schema.start = .label label → context.schema.find? label = none) ∧
      (∀ codes, context.schema.start = .illFormed codes →
        context.schema.declaresIllFormed codes = false) ∧
      ∃ d, d.severity = .error ∧ context.startShape p = .ok none ((context.announced p).noting d)) ∨
    ∃ codes, context.schema.start = .illFormed codes ∧
      context.schema.declaresIllFormed codes = true ∧
      context.startShape p = .error (.unencodable codes) (context.announced p) := by
  cases start : context.schema.start with
  | label label =>
    cases declared : context.schema.find? label with
    | some decl => exact .inl ⟨label, decl, rfl, declared, startShape_ok start declared p⟩
    | none =>
      refine .inr (.inl ⟨?_, nofun, .startNotDeclared label, rfl, ?_⟩)
      · rintro _ ⟨⟩
        exact declared
      · rw [startShape_eq, findStart, start]
        simp only [Start.label?, declared]
        rfl
  | illFormed codes =>
    rw [startShape_eq, findStart, start]
    simp only [Start.label?, refuseStart, start]
    cases declared : context.schema.declaresIllFormed codes with
    | true => exact .inr (.inr ⟨codes, rfl, declared, rfl⟩)
    | false =>
      refine .inr (.inl ⟨nofun, ?_, .illFormedStart codes, rfl, rfl⟩)
      rintro _ ⟨⟩
      exact declared
  | none | expression | value =>
    refine .inr (.inl ⟨nofun, nofun, .invalidStart, rfl, ?_⟩)
    rw [startShape_eq, findStart, start]
    simp only [Start.label?, refuseStart, start]
    rfl

/-- The group of the start is that of the visit of its shape, with the loose
lines in it. -/
theorem Context.startGroup_of_shape {context : Context} {label : String}
    (start : context.schema.start = .label label) {decl : ShapeDecl}
    (declared : context.schema.find? label = some decl) {p q : Progress} {f : Fragment}
    (visited : context.shape label none (context.announced p) = .ok f q) :
    context.startGroup p = .ok (some (f.group.addLines f.loose)) q := by
  unfold startGroup
  simp only [Bind.bind, EStateM.bind, startShape_ok start declared, visited]
  rfl

/-- The group of a declared start shape, from a visit of the shape. Only
problems are noted before. -/
theorem Context.startGroup_ok {context : Context} (typed : context.WellTyped) {label : String}
    (start : context.schema.start = .label label) {decl : ShapeDecl}
    (declared : context.schema.find? label = some decl) (p : Progress) :
    ∃ f before q, context.startGroup p = .ok (some (f.group.addLines f.loose)) q ∧
      before.fresh = p.fresh ∧ before.expanding = p.expanding ∧
      Visit context before (.shape none (.reference label)) f q := by
  obtain ⟨f, q, visited, visit⟩ := context.shape_ok typed label none (context.announced p)
  exact ⟨f, context.announced p, q, startGroup_of_shape start declared visited,
    context.announced_fresh p, context.announced_expanding p, visit⟩

end ShapeQuery.Compile
