import ShapeQuery.Proofs.Compact.Logic
import ShapeQuery.Proofs.References

/-!
What the compact syntax can produce: well-typed expressions, all of whose types are known. A point
that stands for an operand is kept, and it is the only thing in them that the compiler has no case
for; a compilation says so exactly if such a point can be reached from the start.
-/
namespace ShapeQuery

open Compile

/-- Whether a leaf has a type that is known. -/
def Compile.Leaf.known : Leaf → Bool
  | .unsupportedShape _ | .unsupportedTriple _ => false
  | _ => true

structure ShapeExpr.Sound (expr : ShapeExpr) : Prop where
  typed : expr.wellTyped = true
  known : ∀ leaf ∈ expr.leaves, leaf.known = true

/-- A triple expression that is well-typed and all of whose types are known.
The values of its constraints are sound as well. -/
structure TripleExpr.Sound (expr : TripleExpr) : Prop where
  typed : expr.wellTyped = true
  known : ∀ leaf ∈ expr.leaves, leaf.known = true

theorem wellTypedShapes_iff {operands : List ShapeExpr} :
    wellTypedShapes operands = true ↔ ∀ expr ∈ operands, expr.wellTyped = true := by
  induction operands with
  | nil => simp [wellTypedShapes]
  | cons expr rest ih => rw [wellTypedShapes, Bool.and_eq_true, ih, List.forall_mem_cons]

theorem wellTypedTriples_iff {operands : List TripleExpr} :
    wellTypedTriples operands = true ↔ ∀ expr ∈ operands, expr.wellTyped = true := by
  induction operands with
  | nil => simp [wellTypedTriples]
  | cons expr rest ih => rw [wellTypedTriples, Bool.and_eq_true, ih, List.forall_mem_cons]

/-- Operands that are sound one by one are sound together. -/
theorem sound_shapes {operands : List ShapeExpr} (sound : ∀ expr ∈ operands, expr.Sound) :
    wellTypedShapes operands = true ∧ ∀ leaf ∈ leavesOfShapes operands, leaf.known = true := by
  refine ⟨wellTypedShapes_iff.mpr fun expr member => (sound expr member).typed, ?_⟩
  rw [leavesOfShapes_eq]
  exact List.forall_mem_flatMap.mpr fun expr member => (sound expr member).known

theorem sound_triples {operands : List TripleExpr} (sound : ∀ expr ∈ operands, expr.Sound) :
    wellTypedTriples operands = true ∧ ∀ leaf ∈ leavesOfTriples operands, leaf.known = true := by
  refine ⟨wellTypedTriples_iff.mpr fun expr member => (sound expr member).typed, ?_⟩
  rw [leavesOfTriples_eq]
  exact List.forall_mem_flatMap.mpr fun expr member => (sound expr member).known

namespace ShapeExpr.Sound

theorem reference (label : String) : (ShapeExpr.reference label).Sound :=
  ⟨rfl, by simp [leaves, Leaf.known]⟩

theorem any : ShapeExpr.any.Sound :=
  ⟨rfl, by simp [leaves, Leaf.known]⟩

theorem external : ShapeExpr.external.Sound :=
  ⟨rfl, by simp [leaves, Leaf.known]⟩

theorem node {nc : NodeConstraint} (typed : nc.wellTyped = true) : (ShapeExpr.node nc).Sound :=
  ⟨by rwa [wellTyped], by simp [leaves, Leaf.known]⟩

/-- A shape is sound if its triple expression is, and its extra predicates are texts. -/
theorem shape {expression : Option TripleExpr} (inside : ∀ expr ∈ expression, expr.Sound)
    (closed : Bool) {extra : List Json} (texts : extra.all Json.isText = true) :
    (ShapeExpr.shape expression closed extra).Sound := by
  cases expression with
  | none => exact ⟨by rwa [wellTyped], by simp [leaves]⟩
  | some expr =>
    obtain ⟨typed, known⟩ := inside expr rfl
    refine ⟨by rw [wellTyped, typed, texts]; rfl, ?_⟩
    rwa [leaves]

theorem and {operands : List ShapeExpr} (sound : ∀ expr ∈ operands, expr.Sound) :
    (ShapeExpr.and operands).Sound := by
  obtain ⟨typed, known⟩ := sound_shapes sound
  exact ⟨by rwa [wellTyped], by rwa [leaves]⟩

theorem or {operands : List ShapeExpr} (sound : ∀ expr ∈ operands, expr.Sound) :
    (ShapeExpr.or operands).Sound := by
  obtain ⟨typed, known⟩ := sound_shapes sound
  exact ⟨by rwa [wellTyped], by rwa [leaves]⟩

theorem not {operand : ShapeExpr} (sound : operand.Sound) : (ShapeExpr.not operand).Sound := by
  obtain ⟨typed, known⟩ := sound
  exact ⟨by rwa [wellTyped], by rwa [leaves]⟩

end ShapeExpr.Sound

namespace TripleExpr.Sound

theorem reference (label : String) : (TripleExpr.reference label).Sound :=
  ⟨rfl, by simp [leaves, Leaf.known]⟩

/-- A triple constraint is sound with a sound value, integers for bounds, and a
label that is a text or none. -/
theorem constraint {value : ShapeExpr} (sound : value.Sound) (predicate : String) (inverse : Bool)
    {bounds : Bounds} (typedBounds : bounds.wellTyped = true) {id : Json}
    (named : id.isTextOrNull = true) :
    (TripleExpr.constraint (.string predicate) inverse value bounds id).Sound := by
  refine ⟨?_, ?_⟩
  · rw [wellTyped, sound.typed, typedBounds, named]
    rfl
  · by_cases point : value = .any
    · subst point
      simp [leaves, Leaf.known]
    · rw [leaves_constraint point]
      exact List.forall_mem_cons.mpr ⟨rfl, sound.known⟩

theorem eachOf {operands : List TripleExpr} (sound : ∀ expr ∈ operands, expr.Sound)
    {bounds : Bounds} (typedBounds : bounds.wellTyped = true) {id : Json}
    (named : id.isTextOrNull = true) : (TripleExpr.eachOf operands bounds id).Sound := by
  obtain ⟨typed, known⟩ := sound_triples sound
  refine ⟨?_, by rwa [leaves]⟩
  rw [wellTyped, typed, typedBounds, named]
  rfl

theorem oneOf {operands : List TripleExpr} (sound : ∀ expr ∈ operands, expr.Sound) {bounds : Bounds}
    (typedBounds : bounds.wellTyped = true) {id : Json} (named : id.isTextOrNull = true) :
    (TripleExpr.oneOf operands bounds id).Sound := by
  obtain ⟨typed, known⟩ := sound_triples sound
  refine ⟨?_, by rwa [leaves]⟩
  rw [wellTyped, typed, typedBounds, named]
  rfl

end TripleExpr.Sound

namespace Compact.Scan

abbrev Returns {α : Type} (good : α → Prop) (scan : Scan α) : Prop :=
  Yields (fun _ => True) good scan

theorem Returns.of_ok {α : Type} {good : α → Prop} {scan : Scan α} (returns : Returns good scan)
    {c c' : Cursor} {result : α} (read : scan c = .ok (result, c')) : good result :=
  (Yields.of_ok returns trivial read).2

/-! ### Node constraints -/

/-- A number is an integer or a double, never another value. -/
theorem number_returns : Returns (fun value => value.isNumberOrNull = true) number := by
  refine .next fun found => .lift fun value read => ?_
  unfold Numeral.value at read
  split at read
  · split at read
    · cases read
    · cases read
      rfl
  · cases read
    rfl

theorem exclusion_returns (names : Names) (kind : StemKind) :
    Returns (fun left => left.wellTyped = true) (exclusion names kind) := by
  refine .next fun value => .next fun tilde => ?_
  split <;> exact .pure rfl

/-- Exclusions are well-typed, as each of them holds a text. -/
theorem exclusions_returns (names : Names) (kind : StemKind) (bound : Nat) :
    Returns (fun left => left.all Exclusion.wellTyped = true) (exclusions names kind bound) := by
  rw [exclusions_eq]
  have each := operandsAfter_yields (.any (tryText "-")) (exclusion_returns names kind) bound
  exact each.mono fun left typed => List.all_eq_true.mpr typed

theorem optional_isTextOrNull (text : Option String) : (optional text).isTextOrNull = true := by
  cases text <;> rfl

/-- A value with a tilde behind it is a stem or a range of texts; without one
it is the plain entry. -/
theorem stemOr_returns (names : Names) (bound : Nat) (kind : StemKind) (value : String)
    {plain : ValueSetEntry} (typed : plain.wellTyped = true) :
    Returns (fun entry => entry.wellTyped = true) (stemOr names bound kind value plain) := by
  refine .next fun tilde => ?_
  split
  · refine .bind (exclusions_returns names kind bound) fun left all => ?_
    split
    · exact .pure rfl
    · exact .pure (by rw [ValueSetEntry.wellTyped, all]; rfl)
  · exact .pure typed

theorem Literal.entry_wellTyped (literal : Literal) : literal.entry.wellTyped = true := by
  rw [entry, ValueSetEntry.wellTyped, optional_isTextOrNull, optional_isTextOrNull]
  rfl

theorem entry_returns (names : Names) (bound : Nat) :
    Returns (fun entry => entry.wellTyped = true) (entry names bound) := by
  refine .next fun next => ?_
  split
  · refine .next fun _ => .next fun text => ?_
    exact .bind (exclusions_returns names _ bound) fun left all => .pure all
  · split
    · exact .next fun tag => stemOr_returns names bound .language tag rfl
    · refine .next fun text => ?_
      split
      · exact .next fun found => stemOr_returns names bound .literal _ found.entry_wellTyped
      · exact .next fun found => stemOr_returns names bound .iri found rfl

/-- All entries of a value set are well-typed. The loop adds one in each round. -/
theorem entries_returns (names : Names) (bound : Nat) :
    Returns (fun entries => entries.all ValueSetEntry.wellTyped = true) (entries names bound) := by
  refine Yields.loop (entriesLoop names) (fun _ => True)
    (fun _ entries => entries.all ValueSetEntry.wellTyped = true)
      (fun bound _ rest _ _ => ?_) bound ()
    trivial
  refine .next fun bracket => .ite (fun _ => .pure rfl) fun _ => ?_
  refine .next fun ended => .ite (fun _ => .fail _) fun _ => ?_
  refine .bind (entry_returns names bound) fun first typed => ?_
  refine .bind (rest () trivial) fun others all => .pure ?_
  rw [List.all_cons, typed, all]
  rfl

/-- The facets of a constraint are filled one by one; each of them gets a value
of its kind. -/
theorem facetValue_returns {nc : NodeConstraint} (typed : nc.wellTyped = true) (facet : Facet) :
    Returns (fun nc => nc.wellTyped = true) (facetValue nc facet) := by
  cases facet with
  | length | minLength | maxLength =>
    exact .next fun n => .pure (by simp_all [NodeConstraint.wellTyped, Json.isIntOrNull])
  | minInclusive | minExclusive | maxInclusive | maxExclusive =>
    exact .bind number_returns fun n isNumber => .pure (by simp_all [NodeConstraint.wellTyped])
  | ignored => exact .next fun _ => .pure typed
  | pattern =>
    exact .next fun text => .pure (by simp_all [NodeConstraint.wellTyped, Json.isTextOrNull])

theorem facet?_returns {nc : NodeConstraint} (typed : nc.wellTyped = true) :
    Returns (fun found => ∀ nc ∈ found, nc.wellTyped = true) (facet? nc) := by
  refine .next fun keyword => ?_
  split
  · exact .bind (facetValue_returns typed _) fun filled good => .pure (by simpa using good)
  · refine .next fun next => ?_
    split
    · refine .next fun (pattern, flags) => .pure ?_
      have text : (Json.string pattern).isTextOrNull = true := rfl
      have flagged := optional_isTextOrNull flags
      simp_all [NodeConstraint.wellTyped]
    · exact .pure (by simp)

/-- A constraint stays well-typed while facets are read into it. -/
theorem facets_returns (bound : Nat) {nc : NodeConstraint} (typed : nc.wellTyped = true)
    (found : Bool) : Returns (fun result => result.1.wellTyped = true) (facets nc found bound) := by
  refine Yields.loop facetsLoop (fun state => state.1.wellTyped = true)
    (fun _ result => result.1.wellTyped = true) (fun bound _ rest state typed => ?_) bound
      (nc, found) typed
  refine .bind (facet?_returns typed) fun read good => ?_
  cases read with
  | some filled => exact rest (filled, true) (good filled rfl)
  | none => exact .pure typed

theorem constraintHead_returns (names : Names) (bound : Nat) :
    Returns (fun result => result.1.wellTyped = true) (constraintHead names bound) := by
  refine .next fun keyword => ?_
  split
  · exact .pure rfl
  · refine .next fun next => ?_
    split
    · refine .bind (.next fun _ => entries_returns names bound) fun values all => .pure ?_
      rw [NodeConstraint.wellTyped, Option.getD_some, all]
      rfl
    · refine .next fun datatype => ?_
      split
      · exact .next fun found => .pure rfl
      · exact .pure rfl

/-- A node constraint that is read is well-typed, whatever it starts with. -/
theorem nodeConstraint?_returns (names : Names) (bound : Nat) :
    Returns (fun found => ∀ nc ∈ found, nc.wellTyped = true) (nodeConstraint? names bound) := by
  refine .bind (constraintHead_returns names bound) fun (head, started) typed => ?_
  refine .bind (facets_returns bound typed started) fun (nc, found) good => .pure ?_
  split
  · simpa using good
  · simp

/-! ### Expressions -/

/-- Readers of nested expressions that produce sound ones. The readers of the
grammar are followed for any such readers of what is nested. -/
structure Nested.Sound (nested : Nested) : Prop where
  shapeExpr : Returns ShapeExpr.Sound nested.shapeExpr
  tripleExpr : Returns TripleExpr.Sound nested.tripleExpr

/-- What is good of all operands is good of their combination, if the way of
combining them keeps it. -/
theorem combine_good {α : Type} {good : α → Prop} {combined : List α → α}
    (closed : ∀ operands, (∀ expr ∈ operands, good expr) → good (combined operands)) {first : α}
    (here : good first) {others : List α} (all : ∀ expr ∈ others, good expr) :
    good (combine combined first others) := by
  unfold combine
  split
  · exact here
  · exact closed _ (List.forall_mem_cons.mpr ⟨here, all⟩)

theorem extraPredicates_returns (names : Names) (bound : Nat) :
    Returns (fun found => found.all Json.isText = true) (extraPredicates names bound) := by
  refine Yields.loop (extraLoop names) (fun _ => True) (fun _ found => found.all Json.isText = true)
    (fun bound _ rest _ _ => ?_) bound () trivial
  refine .next fun more => .ite (fun _ => ?_) fun _ => .pure rfl
  refine .next fun first => .bind (rest () trivial) fun others all => .pure ?_
  rw [List.all_cons, all]
  rfl

theorem shapeHead_returns (names : Names) (bound : Nat) :
    Returns (fun head => head.1.all Json.isText = true) (shapeHead names bound) := by
  refine Yields.loop (headLoop names) (fun _ => True) (fun _ head => head.1.all Json.isText = true)
    (fun bound _ rest _ _ => ?_) bound () trivial
  refine .next fun extra => .ite (fun _ => ?_) fun _ => ?_
  · refine .bind (extraPredicates_returns names bound) fun first texts => ?_
    refine .bind (rest () trivial) fun (others, closed) all => .pure ?_
    rw [List.all_append, texts, all]
    rfl
  · refine .next fun mark => .ite (fun _ => ?_) fun _ => .pure rfl
    exact .bind (rest () trivial) fun (extra, _) all => .pure all

section Rules

variable {nested : Nested} (sound : nested.Sound) (names : Names)
include sound

/-- A shape definition is sound if the triple expression between its braces is. -/
theorem shapeDefinitionWith_returns :
    Returns ShapeExpr.Sound (shapeDefinitionWith names nested) := by
  refine .bind (shapeHead_returns names _) fun (extra, closed) texts => .next fun _ =>
    .next fun empty => ?_
  split
  · exact .pure (.shape (by simp) closed texts)
  · refine .bind sound.tripleExpr fun expression good => .next fun _ => .pure ?_
    exact .shape (by simpa using good) closed texts

theorem shapeOrRef_returns : Returns ShapeExpr.Sound (shapeOrRef names nested) := by
  refine .next fun mark => ?_
  split
  · exact .next fun label => .pure (.reference label)
  · exact shapeDefinitionWith_returns sound names

/-- An operand is sound, in each of its forms: brackets, a point, a shape, a
reference or a node constraint. -/
theorem shapeAtom_returns : Returns ShapeExpr.Sound (shapeAtom names nested) := by
  have pair : ∀ {first second : ShapeExpr}, first.Sound → second.Sound →
      (ShapeExpr.and [first, second]).Sound := fun first second =>
    .and (List.forall_mem_cons.mpr ⟨first, List.forall_mem_singleton.mpr second⟩)
  refine .next fun next => ?_
  split
  · exact .next fun _ => .bind sound.shapeExpr fun expr good => .next fun _ => .pure good
  · split
    · exact .next fun _ => .pure .any
    · refine .next fun opened => ?_
      split
      · refine .bind (shapeOrRef_returns sound names) fun shape good => .next fun kind => ?_
        split
        · refine .bind (nodeConstraint?_returns names _) fun found typed => ?_
          split
          · next nc => exact .pure (pair good (.node (typed nc rfl)))
          · exact .pure (pair good .any)
        · exact .pure good
      · refine .bind (nodeConstraint?_returns names _) fun found typed => ?_
        split
        · exact .fail _
        · next nc =>
          have constrained := ShapeExpr.Sound.node (typed nc rfl)
          split
          · refine .next fun opened => ?_
            split
            · exact .bind (shapeOrRef_returns sound names) fun shape good =>
                .pure (pair constrained good)
            · exact .pure constrained
          · exact .pure constrained

theorem shapeNot_returns : Returns ShapeExpr.Sound (shapeNot names nested) := by
  refine .next fun negated => ?_
  split
  · exact .bind (shapeAtom_returns sound names) fun operand good => .pure (.not good)
  · exact shapeAtom_returns sound names

theorem shapeAnd_returns : Returns ShapeExpr.Sound (shapeAnd names nested) := by
  have operand := shapeNot_returns sound names
  exact .bind operand fun first here =>
    .bind (operandsAfter_yields (.any _) operand _) fun others all =>
    .pure (combine_good (fun _ => .and) here all)

theorem shapeExprWith_returns : Returns ShapeExpr.Sound (shapeExprWith names nested) := by
  have operand := shapeAnd_returns sound names
  exact .bind operand fun first here =>
    .bind (operandsAfter_yields (.any _) operand _) fun others all =>
    .pure (combine_good (fun _ => .or) here all)

theorem constraintValue_returns : Returns ShapeExpr.Sound (constraintValue nested) := by
  refine .next fun next => ?_
  split
  · exact .next fun _ => .pure .any
  · split
    · exact .pure .any
    · refine .next fun text => ?_
      split
      · exact .pure .any
      · exact sound.shapeExpr

end Rules

theorem braceBounds_returns : Returns (fun bounds => bounds.wellTyped = true) braceBounds := by
  have close : ∀ (min : Int) {max : Json}, max.isIntOrNull = true →
      Returns (fun bounds => bounds.wellTyped = true)
        (do expect "\x7d"; return ({ min := .int min, max } : Bounds)) :=
    fun min max isInt => .next fun _ => .pure isInt
  refine .next fun _ => .next fun min => .next fun comma => ?_
  dsimp only [pure_bind]
  split
  · refine .next fun star => ?_
    split
    · exact close min rfl
    · refine .next fun next => ?_
      split
      · exact close min rfl
      · exact .next fun max => close min rfl
  · exact close min rfl

theorem cardinality?_returns :
    Returns (fun found => ∀ bounds ∈ found, bounds.wellTyped = true) cardinality? := by
  have given : ∀ {bounds : Bounds}, bounds.wellTyped = true →
      ∀ other ∈ some bounds, other.wellTyped = true := by
    rintro bounds typed other ⟨⟩
    exact typed
  refine .next fun ended => ?_
  split
  · exact .pure (by simp)
  · refine .next fun mark => ?_
    split
    · exact .pure (given rfl)
    · refine .next fun star => ?_
      split
      · exact .pure (given rfl)
      · refine .next fun plus => ?_
        split
        · exact .pure (given rfl)
        · refine .next fun text => ?_
          split
          · exact .bind braceBounds_returns fun bounds typed => .pure (given typed)
          · exact .pure (by simp)

theorem tripleLabel?_returns (names : Names) :
    Returns (fun id => id.isTextOrNull = true) (tripleLabel? names) := by
  refine .next fun mark => ?_
  split
  · exact .next fun label => .pure rfl
  · exact .pure rfl

theorem setBounds_sound {expr : TripleExpr} (sound : expr.Sound) {bounds : Bounds}
    (typed : bounds.wellTyped = true) : (setBounds bounds expr).Sound := by
  obtain ⟨typedExpr, known⟩ := sound
  cases expr with
  | constraint predicate inverse value old id =>
    refine ⟨?_, ?_⟩
    · simp_all [setBounds, TripleExpr.wellTyped]
    · cases value <;> simpa [setBounds, TripleExpr.leaves] using known
  | eachOf operands old id | oneOf operands old id =>
    refine ⟨?_, ?_⟩
    · simp_all [setBounds, TripleExpr.wellTyped]
    · simpa [setBounds, TripleExpr.leaves] using known
  | _ => exact ⟨typedExpr, known⟩

theorem setLabel_sound {expr : TripleExpr} (sound : expr.Sound) {id : Json}
    (named : id.isTextOrNull = true) : (setLabel id expr).Sound := by
  obtain ⟨typedExpr, known⟩ := sound
  cases expr with
  | constraint predicate inverse value bounds old =>
    refine ⟨?_, ?_⟩
    · simp_all [setLabel, TripleExpr.wellTyped]
    · cases value <;> simpa [setLabel, TripleExpr.leaves] using known
  | eachOf operands bounds old | oneOf operands bounds old =>
    refine ⟨?_, ?_⟩
    · simp_all [setLabel, TripleExpr.wellTyped]
    · simpa [setLabel, TripleExpr.leaves] using known
  | _ => exact ⟨typedExpr, known⟩

/-- Brackets make a group or change the label and the bounds, and both keep an
expression sound. -/
theorem bracketed_sound {id : Json} (named : id.isTextOrNull = true) {bounds : Option Bounds}
    (typed : ∀ found ∈ bounds, found.wellTyped = true) {expr : TripleExpr} (sound : expr.Sound) :
    (bracketed id bounds expr).Sound := by
  have grouped : (if needsGroup id expr then .eachOf [expr] {} .null else expr).Sound := by
    split
    · exact .eachOf (List.forall_mem_singleton.mpr sound) rfl rfl
    · exact sound
  have labelled : ∀ {expr : TripleExpr}, expr.Sound →
      (if id.truthy then setLabel id expr else expr).Sound := by
    intro expr sound
    split
    · exact setLabel_sound sound named
    · exact sound
  cases bounds with
  | none => exact labelled grouped
  | some found => exact labelled (setBounds_sound grouped (typed found rfl))

section Rules

variable {nested : Nested} (sound : nested.Sound) (names : Names)
include sound

theorem tripleConstraintWith_returns {id : Json} (named : id.isTextOrNull = true) :
    Returns TripleExpr.Sound (tripleConstraintWith names nested id) := by
  refine .next fun inverse => .next fun predicate =>
    .bind (constraintValue_returns sound) fun value good =>
    .bind cardinality?_returns fun bounds typed =>
      .pure (.constraint good predicate inverse ?_ named)
  cases bounds with
  | none => rfl
  | some found => exact typed found rfl

/-- An item of a group is sound, with the label that it is given. -/
theorem tripleItem_returns : Returns TripleExpr.Sound (tripleItem names nested) := by
  refine .next fun mark => ?_
  split
  · exact .next fun label => .pure (.reference label)
  · refine .bind (tripleLabel?_returns names) fun id named => .next fun opened => ?_
    split
    · exact .bind sound.tripleExpr fun expr good => .next fun _ =>
        .bind cardinality?_returns fun bounds typed => .pure (bracketed_sound named typed good)
    · exact tripleConstraintWith_returns sound names named

theorem tripleGroup_returns : Returns TripleExpr.Sound (tripleGroup names nested) := by
  have item := tripleItem_returns sound names
  exact .bind item fun first here => .bind (operandsAfter_yields (.any _) item _) fun others all =>
    .pure (combine_good (fun _ all => .eachOf all rfl rfl) here all)

theorem tripleExprWith_returns : Returns TripleExpr.Sound (tripleExprWith names nested) := by
  have group := tripleGroup_returns sound names
  exact .bind group fun first here =>
    .bind (operandsAfter_yields (.any _) group _) fun others all =>
    .pure (combine_good (fun _ all => .oneOf all rfl rfl) here all)

end Rules

/-- All expressions that are read are sound. The induction is on the bound of
the readers. -/
theorem nested_sound (names : Names) (bound : Nat) : (nested names bound).Sound := by
  induction bound with
  | zero => exact ⟨.throw _, .throw _⟩
  | succ bound ih => exact ⟨shapeExprWith_returns ih names, tripleExprWith_returns ih names⟩

/-- A declaration that is read is sound, and is more than a point. -/
structure SoundDecl (decl : ShapeDecl) : Prop where
  named : decl.id.isText = true
  sound : decl.expr.Sound
  solid : decl.expr ≠ .any

/-- A declaration has a sound expression. Where a point is declared, the
expression is an empty shape. -/
theorem shapeDecl_returns (names : Names) (bound : Nat) (abstract : Bool) :
    Returns SoundDecl (shapeDecl names bound abstract) := by
  refine .next fun id => .next fun external => ?_
  split
  · exact .pure ⟨rfl, .external, by simp⟩
  · refine .bind (nested_sound names bound).shapeExpr fun expr good => ?_
    split
    · exact .pure ⟨rfl, .shape (by simp) false rfl, by simp⟩
    · next solid => exact .pure ⟨rfl, good, solid⟩

end Compact.Scan

namespace Compact

open Scan

/-- A schema whose declarations are sound and whose imports are texts. -/
structure SoundSchema (schema : Schema) : Prop where
  decls : ∀ decl ∈ schema.shapes, SoundDecl decl
  imports : schema.imports.all Json.isText = true

/-- A sound schema is well-typed: labels, expressions and imports have the
types that they should have. -/
theorem SoundSchema.wellTyped {schema : Schema} (sound : SoundSchema schema) :
    schema.wellTyped = true := by
  simp only [Schema.wellTyped, Bool.and_eq_true, List.all_eq_true]
  refine ⟨fun decl member => ?_, List.all_eq_true.mp sound.imports⟩
  exact ⟨(sound.decls decl member).named, (sound.decls decl member).sound.typed⟩

theorem addShape_sound {progress : Progress} (sound : SoundSchema progress.schema)
    {decl : ShapeDecl} (good : SoundDecl decl) : SoundSchema (progress.addShape decl).schema :=
  ⟨List.forall_mem_append.mpr ⟨sound.decls, List.forall_mem_singleton.mpr good⟩, sound.imports⟩

/-- One statement keeps a schema sound. Only declarations and imports add to
what is asked of it. -/
theorem statement_returns (bound : Nat) {progress : Progress}
    (sound : SoundSchema progress.schema) :
    Returns (fun after => SoundSchema after.schema) (statement bound progress) := by
  refine .next fun space => ?_
  split
  · refine .next fun name => ?_
    split
    · exact .fail _
    · exact .next fun iri => .pure ⟨sound.decls, sound.imports⟩
  · refine .next fun base => ?_
    split
    · exact .next fun iri => .pure sound
    · refine .next fun imported => ?_
      split
      · refine .next fun iri => .pure ⟨sound.decls, ?_⟩
        rw [List.all_append, sound.imports]
        rfl
      · refine .next fun start => ?_
        split
        · exact .next fun _ => .next fun expr => .pure ⟨sound.decls, sound.imports⟩
        · refine .next fun abstract => ?_
          split
          · exact .bind (shapeDecl_returns _ bound true) fun decl good =>
              .pure (addShape_sound sound good)
          · refine .next fun declared => ?_
            split
            · exact .bind (shapeDecl_returns _ bound false) fun decl good =>
                .pure (addShape_sound sound good)
            · exact .fail _

/-- A whole text, statement by statement. -/
theorem statements_returns (bound left : Nat) {progress : Progress}
    (sound : SoundSchema progress.schema) :
    Returns SoundSchema (statements bound left progress) := by
  refine Yields.loop (statementsLoop bound) (fun progress => SoundSchema progress.schema)
    (fun _ => SoundSchema) (fun _ _ rest progress sound => ?_) left progress sound
  refine .next fun ended => .ite (fun _ => .pure sound) fun _ => ?_
  exact .bind (statement_returns bound sound) fun after good => rest after good

/-- A text that is accepted holds a sound schema. -/
theorem parse_sound {text : List Char} {schema : Schema} (parsed : parse text = .ok schema) :
    SoundSchema schema := by
  have returns : Returns SoundSchema Compact.schema :=
    .next fun c => statements_returns _ _ ⟨List.forall_mem_nil _, rfl⟩
  unfold parse StateT.run' at parsed
  cases outcome : Compact.schema (Cursor.start text) with
  | error fault =>
    rw [outcome] at parsed
    cases parsed
  | ok pair =>
    rw [outcome] at parsed
    cases parsed
    exact returns.of_ok outcome

theorem SoundSchema.known_leaves {schema : Schema} (sound : SoundSchema schema) :
    ∀ leaf ∈ schema.leaves, leaf.known = true := by
  refine (sound_shapes fun expr member => ?_).2
  obtain ⟨decl, declared, rfl⟩ := List.mem_map.mp member
  exact (sound.decls decl declared).sound

theorem known_unknown_iff {leaf : Leaf} (known : leaf.known = true) {d : Diagnostic} :
    leaf.problem? = some d ∧ d.isUnknown = true ↔
      leaf = .point ∧ d = .unknownShapeExpr "NoneType" := by
  cases leaf with
  | unsupportedShape typeName => cases known
  | unsupportedTriple typeName => cases known
  | external =>
    constructor
    · rintro ⟨⟨⟩, ⟨⟩⟩
    · rintro ⟨⟨⟩, -⟩
  | point =>
    constructor
    · rintro ⟨⟨⟩, -⟩
      exact ⟨rfl, rfl⟩
    · rintro ⟨-, rfl⟩
      exact ⟨rfl, rfl⟩
  | _ => simp [Leaf.problem?]

open Relation in
/-- In a schema that is read from a text, no declaration is a mere point, and
with any declared shape as the start, all that has no meaning is a point as an
operand: one is noted if and only if it is in reach of the start, and no other
type is ever noted as unknown. -/
theorem parse_unknown_iff_point (text : List Char) (schema : Schema) (label : String)
    (progress : Compile.Progress) (parsed : parse text = .ok schema)
    (declared : (schema.find? label).isSome = true) (idle : progress.expanding = []) :
    (∀ decl ∈ schema.shapes, decl.expr ≠ .any) ∧
    ∃ context group after added, Context.ofSchema { schema with start := .label label } =
      .ok context ∧
      context.startGroup progress = .ok (some group) after ∧
      after.diagnostics = progress.diagnostics ++ added ∧
      (∀ d ∈ added, d.code = "unknown-expression" → d = .unknownShapeExpr "NoneType") ∧
      ((∃ d ∈ added, d.code = "unknown-expression") ↔
        ∃ target leaves, ReflTransGen context.Refers (.shape label) target ∧
          context.resolve target = some leaves ∧ .point ∈ leaves) := by
  have sound := parse_sound parsed
  refine ⟨fun decl member => (sound.decls decl member).solid, ?_⟩
  have typed : ({ schema with start := .label label } : Schema).wellTyped = true := sound.wellTyped
  obtain ⟨context, built, same, typedContext⟩ := Context.ofSchema_ok typed
  obtain ⟨decl, found⟩ := Option.isSome_iff_exists.mp declared
  have start : context.schema.start = .label label := by rw [same]
  have foundHere : context.schema.find? label = some decl := by rw [same]; exact found
  obtain ⟨f, after, visited, visit⟩ :=
    context.shape_ok typedContext label none (context.announced progress)
  obtain ⟨added, grown, each⟩ := visit.start_notes
  -- What is noted as unknown comes of a leaf in reach, which is known and hence a point.
  have reached : ∀ d, d.isUnknown = true → (d ∈ added ↔
      d = .unknownShapeExpr "NoneType" ∧ ∃ target leaves,
        ReflTransGen context.Refers (.shape label) target ∧ context.resolve target = some leaves ∧
          .point ∈ leaves) := by
    intro d unknown
    rw [each, idle, context.unknown_iff_reaches unknown]
    constructor
    · rintro (⟨-, rfl⟩ | ⟨target, leaves, leaf, path, resolved, member, own⟩)
      · cases unknown
      · have known := sound.known_leaves leaf
          (Context.mem_leaves_of_resolve built resolved leaf member)
        obtain ⟨rfl, rfl⟩ := (known_unknown_iff known).mp ⟨own, unknown⟩
        exact ⟨rfl, target, leaves, path, resolved, member⟩
    · rintro ⟨rfl, target, leaves, path, resolved, member⟩
      exact Or.inr ⟨target, leaves, .point, path, resolved, member, rfl⟩
  refine ⟨context, _, after, added, built, Context.startGroup_of_shape start foundHere visited,
    grown, ?_, ?_⟩
  · intro d member code
    have unknown := d.isUnknown_iff_code.mpr code
    exact ((reached d unknown).mp member).1
  · constructor
    · rintro ⟨d, member, code⟩
      exact ((reached d (d.isUnknown_iff_code.mpr code)).mp member).2
    · intro reach
      exact ⟨_, (reached (.unknownShapeExpr "NoneType") rfl).mpr ⟨rfl, reach⟩, rfl⟩

def negatedPoint : Schema where
  shapes := [⟨.string "S", .not .any, false⟩]
  start := .label "S"

open Relation in
/-- A negation of a point is accepted, and its point is reported as an unknown
expression. -/
theorem parse_unknown_iff_point_negated :
    parse "start = @<S> <S> NOT .".toList = .ok negatedPoint ∧
      (negatedPoint.find? "S").isSome = true ∧
    (∀ decl ∈ negatedPoint.shapes, decl.expr ≠ .any) ∧
    ∃ context group after added,
      Context.ofSchema { negatedPoint with start := .label "S" } = .ok context ∧
      context.startGroup {} = .ok (some group) after ∧
      after.diagnostics = [] ++ added ∧
      (∀ d ∈ added, d.code = "unknown-expression" → d = .unknownShapeExpr "NoneType") ∧
      ((∃ d ∈ added, d.code = "unknown-expression") ↔
        ∃ target leaves, ReflTransGen context.Refers (.shape "S") target ∧
          context.resolve target = some leaves ∧ .point ∈ leaves) := by
  have parsed : parse "start = @<S> <S> NOT .".toList = .ok negatedPoint := by rfl
  exact ⟨parsed, by decide,
    parse_unknown_iff_point _ negatedPoint "S" {} parsed (by decide) rfl⟩

/-- Here the point is in reach, so it is noted. -/
example : ∃ group after, Context.startGroup ⟨negatedPoint, []⟩ {} = .ok (some group) after ∧
    after.diagnostics = [.unknownShapeExpr "NoneType"] :=
  ⟨_, _, rfl, rfl⟩

end Compact

end ShapeQuery
