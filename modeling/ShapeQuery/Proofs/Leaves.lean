import ShapeQuery.Proofs.Lines
import ShapeQuery.Proofs.WellTyped

/-!
The leaves of expressions: references, predicates, node constraints and what has no
meaning. What a compilation takes from an expression, it takes from its leaves, so a
condition on schemas is said of them.
-/
namespace ShapeQuery.Compile

/-- A part of an expression that has no expression inside: a reference, a
predicate, a node constraint, a point, or an expression that is not
supported. -/
inductive Leaf where
  | reference (target : Target)
  | predicate (name : Json)
  | node (constraint : NodeConstraint)
  /-- A point where an expression is asked for. The value of an arc may be a
  point, and is none. -/
  | point
  | external
  | unsupportedShape (typeName : String)
  | unsupportedTriple (typeName : String)

/-- Whether a leaf is anything but the predicate of an arc that has none. -/
def Leaf.isNamed : Leaf → Bool
  | .predicate name => !name.isNull
  | _ => true

def Leaf.wellTyped : Leaf → Bool
  | .predicate name => name.isText
  | .node nc => nc.wellTyped
  | _ => true

end ShapeQuery.Compile

namespace ShapeQuery

open Compile

mutual

/-- The leaves of a shape expression. A property that the compiler needs of an
expression is said of its leaves, wherever they stand. -/
def ShapeExpr.leaves : ShapeExpr → List Leaf
  | .reference label => [.reference (.shape label)]
  | .any => [.point]
  | .shape none _ _ => []
  | .shape (some expression) _ _ => expression.leaves
  | .and operands | .or operands | .notEach operands => leavesOfShapes operands
  | .not operand => operand.leaves
  | .node nc => [.node nc]
  | .external => [.external]
  | .unsupported typeName => [.unsupportedShape typeName]

def TripleExpr.leaves : TripleExpr → List Leaf
  | .reference label => [.reference (.tripleExpr label)]
  | .constraint predicate _ value _ _ =>
    match value with
    | .any => [.predicate predicate]
    | value => .predicate predicate :: value.leaves
  | .eachOf operands _ _ | .oneOf operands _ _ => leavesOfTriples operands
  | .unsupported typeName => [.unsupportedTriple typeName]

def leavesOfShapes : List ShapeExpr → List Leaf
  | [] => []
  | expr :: rest => expr.leaves ++ leavesOfShapes rest

def leavesOfTriples : List TripleExpr → List Leaf
  | [] => []
  | expr :: rest => expr.leaves ++ leavesOfTriples rest

end

theorem leavesOfShapes_eq (operands : List ShapeExpr) :
    leavesOfShapes operands = operands.flatMap ShapeExpr.leaves := by
  induction operands with
  | nil => rw [leavesOfShapes, List.flatMap_nil]
  | cons expr rest ih => rw [leavesOfShapes, ih, List.flatMap_cons]

theorem leavesOfTriples_eq (operands : List TripleExpr) :
    leavesOfTriples operands = operands.flatMap TripleExpr.leaves := by
  induction operands with
  | nil => rw [leavesOfTriples, List.flatMap_nil]
  | cons expr rest ih => rw [leavesOfTriples, ih, List.flatMap_cons]

/-- The leaves of an operand are among those of all operands. -/
theorem subset_leavesOfShapes {operand : ShapeExpr} {operands : List ShapeExpr}
    (member : operand ∈ operands) : operand.leaves ⊆ leavesOfShapes operands := by
  intro leaf found
  rw [leavesOfShapes_eq]
  exact List.mem_flatMap.mpr ⟨operand, member, found⟩

theorem subset_leavesOfTriples {operand : TripleExpr} {operands : List TripleExpr}
    (member : operand ∈ operands) : operand.leaves ⊆ leavesOfTriples operands := by
  intro leaf found
  rw [leavesOfTriples_eq]
  exact List.mem_flatMap.mpr ⟨operand, member, found⟩

theorem TripleExpr.leaves_constraint {value : ShapeExpr} (other : value ≠ .any) (predicate : Json)
    (inverse : Bool) (bounds : Bounds) (id : Json) :
    (TripleExpr.constraint predicate inverse value bounds id).leaves =
      .predicate predicate :: value.leaves := by
  rw [TripleExpr.leaves]
  exact other

/-- The leaves of the value of an arc are leaves of the arc. -/
theorem TripleExpr.mem_leaves_of_value {value : ShapeExpr} (other : value ≠ .any) {leaf : Leaf}
    (member : leaf ∈ value.leaves) (predicate : Json) (inverse : Bool) (bounds : Bounds)
    (id : Json) : leaf ∈ (TripleExpr.constraint predicate inverse value bounds id).leaves := by
  rw [leaves_constraint other]
  exact List.mem_cons_of_mem _ member

theorem mem_labelledIf {id : Json} {expr : TripleExpr} {entry : Labelled}
    (member : entry ∈ labelledIf id expr) : entry.2 = expr := by
  unfold labelledIf at member
  split at member
  · rw [List.mem_singleton.mp member]
  · cases member

mutual

/-- The leaves of a labelled triple expression are leaves of the shape
expression that it stands in. -/
theorem ShapeExpr.labelled_leaves : ∀ {expr : ShapeExpr}, ∀ entry ∈ expr.labelled,
    ∀ leaf ∈ entry.2.leaves, leaf ∈ expr.leaves
  | .shape (some expression) _ _, entry, member => by
    rw [ShapeExpr.labelled] at member
    rw [ShapeExpr.leaves]
    exact TripleExpr.labelled_leaves entry member
  | .and operands, entry, member => by
    rw [ShapeExpr.labelled] at member
    rw [ShapeExpr.leaves]
    exact labelledInShapes_leaves entry member
  | .or operands, entry, member => by
    rw [ShapeExpr.labelled] at member
    rw [ShapeExpr.leaves]
    exact labelledInShapes_leaves entry member
  | .notEach operands, entry, member => by
    rw [ShapeExpr.labelled] at member
    rw [ShapeExpr.leaves]
    exact labelledInShapes_leaves entry member
  | .not operand, entry, member => by
    rw [ShapeExpr.labelled] at member
    rw [ShapeExpr.leaves]
    exact ShapeExpr.labelled_leaves entry member
  | .shape none _ _, _, member => by simp [ShapeExpr.labelled] at member
  | .reference _, _, member => by simp [ShapeExpr.labelled] at member
  | .any, _, member => by simp [ShapeExpr.labelled] at member
  | .node _, _, member => by simp [ShapeExpr.labelled] at member
  | .external, _, member => by simp [ShapeExpr.labelled] at member
  | .unsupported _, _, member => by simp [ShapeExpr.labelled] at member

/-- The same for a labelled triple expression in a triple expression. -/
theorem TripleExpr.labelled_leaves : ∀ {expr : TripleExpr}, ∀ entry ∈ expr.labelled,
    ∀ leaf ∈ entry.2.leaves, leaf ∈ expr.leaves
  | .constraint predicate inverse value bounds id, entry, member => by
    rw [TripleExpr.labelled] at member
    rcases List.mem_append.mp member with own | inside
    · rw [mem_labelledIf own]
      exact fun _ found => found
    · have other : value ≠ .any := by
        rintro rfl
        simp [ShapeExpr.labelled] at inside
      intro leaf leafMember
      exact TripleExpr.mem_leaves_of_value other
        (ShapeExpr.labelled_leaves entry inside leaf leafMember) predicate inverse bounds id
  | .eachOf operands bounds id, entry, member => by
    rw [TripleExpr.labelled] at member
    rcases List.mem_append.mp member with own | inside
    · rw [mem_labelledIf own]
      exact fun _ found => found
    · rw [TripleExpr.leaves]
      exact labelledInTriples_leaves entry inside
  | .oneOf operands bounds id, entry, member => by
    rw [TripleExpr.labelled] at member
    rcases List.mem_append.mp member with own | inside
    · rw [mem_labelledIf own]
      exact fun _ found => found
    · rw [TripleExpr.leaves]
      exact labelledInTriples_leaves entry inside
  | .reference _, _, member => by simp [TripleExpr.labelled] at member
  | .unsupported _, _, member => by simp [TripleExpr.labelled] at member

theorem labelledInShapes_leaves :
    ∀ {operands : List ShapeExpr}, ∀ entry ∈ labelledInShapes operands, ∀ leaf ∈ entry.2.leaves,
      leaf ∈ leavesOfShapes operands
  | [], _, member => by simp [labelledInShapes] at member
  | expr :: rest, entry, member => by
    rw [labelledInShapes] at member
    rw [leavesOfShapes]
    intro leaf leafMember
    rcases List.mem_append.mp member with first | others
    · exact List.mem_append_left _ (ShapeExpr.labelled_leaves entry first leaf leafMember)
    · exact List.mem_append_right _ (labelledInShapes_leaves entry others leaf leafMember)

theorem labelledInTriples_leaves :
    ∀ {operands : List TripleExpr}, ∀ entry ∈ labelledInTriples operands, ∀ leaf ∈ entry.2.leaves,
      leaf ∈ leavesOfTriples operands
  | [], _, member => by simp [labelledInTriples] at member
  | expr :: rest, entry, member => by
    rw [labelledInTriples] at member
    rw [leavesOfTriples]
    intro leaf leafMember
    rcases List.mem_append.mp member with first | others
    · exact List.mem_append_left _ (TripleExpr.labelled_leaves entry first leaf leafMember)
    · exact List.mem_append_right _ (labelledInTriples_leaves entry others leaf leafMember)

end

theorem Json.not_isNull_of_isText {value : Json} (text : value.isText = true) :
    value.isNull = false := by
  cases value <;> first | rfl | cases text

mutual

/-- The leaves of a well-typed shape expression are well-typed. Induction
together with triple expressions. -/
theorem ShapeExpr.wellTyped_leaves : ∀ {expr : ShapeExpr}, expr.wellTyped = true →
    ∀ leaf ∈ expr.leaves, leaf.wellTyped = true
  | .shape (some expression) _ _, typed, leaf, member => by
    rw [ShapeExpr.wellTyped, Bool.and_eq_true] at typed
    rw [ShapeExpr.leaves] at member
    exact TripleExpr.wellTyped_leaves typed.1 leaf member
  | .and operands, typed, leaf, member => by
    rw [ShapeExpr.wellTyped] at typed
    rw [ShapeExpr.leaves] at member
    exact wellTyped_leavesOfShapes typed leaf member
  | .or operands, typed, leaf, member => by
    rw [ShapeExpr.wellTyped] at typed
    rw [ShapeExpr.leaves] at member
    exact wellTyped_leavesOfShapes typed leaf member
  | .notEach operands, typed, leaf, member => by
    rw [ShapeExpr.wellTyped] at typed
    rw [ShapeExpr.leaves] at member
    exact wellTyped_leavesOfShapes typed leaf member
  | .not operand, typed, leaf, member => by
    rw [ShapeExpr.wellTyped] at typed
    rw [ShapeExpr.leaves] at member
    exact ShapeExpr.wellTyped_leaves typed leaf member
  | .shape none _ _, _, leaf, member => by simp [ShapeExpr.leaves] at member
  | .reference _, _, leaf, member => by simp [ShapeExpr.leaves] at member; subst member; rfl
  | .any, _, leaf, member => by simp [ShapeExpr.leaves] at member; subst member; rfl
  | .node nc, typed, leaf, member => by
    rw [ShapeExpr.leaves, List.mem_singleton] at member
    rw [ShapeExpr.wellTyped] at typed
    rwa [member]
  | .external, _, leaf, member => by simp [ShapeExpr.leaves] at member; subst member; rfl
  | .unsupported _, _, leaf, member => by simp [ShapeExpr.leaves] at member; subst member; rfl

theorem TripleExpr.wellTyped_leaves : ∀ {expr : TripleExpr}, expr.wellTyped = true →
    ∀ leaf ∈ expr.leaves, leaf.wellTyped = true
  | .constraint predicate inverse value bounds id, typed, leaf, member => by
    simp only [TripleExpr.wellTyped, Bool.and_eq_true] at typed
    have named : (Leaf.predicate predicate).wellTyped = true := typed.1.1.1
    by_cases point : value = .any
    · subst point
      rw [TripleExpr.leaves, List.mem_singleton] at member
      rwa [member]
    · rw [TripleExpr.leaves_constraint point] at member
      rcases List.mem_cons.mp member with rfl | inside
      · exact named
      · exact ShapeExpr.wellTyped_leaves typed.1.1.2 leaf inside
  | .eachOf operands _ _, typed, leaf, member => by
    simp only [TripleExpr.wellTyped, Bool.and_eq_true] at typed
    rw [TripleExpr.leaves] at member
    exact wellTyped_leavesOfTriples typed.1.1 leaf member
  | .oneOf operands _ _, typed, leaf, member => by
    simp only [TripleExpr.wellTyped, Bool.and_eq_true] at typed
    rw [TripleExpr.leaves] at member
    exact wellTyped_leavesOfTriples typed.1.1 leaf member
  | .reference _, _, leaf, member => by simp [TripleExpr.leaves] at member; subst member; rfl
  | .unsupported _, _, leaf, member => by simp [TripleExpr.leaves] at member; subst member; rfl

theorem wellTyped_leavesOfShapes : ∀ {operands : List ShapeExpr}, wellTypedShapes operands = true →
    ∀ leaf ∈ leavesOfShapes operands, leaf.wellTyped = true
  | [], _, leaf, member => by simp [leavesOfShapes] at member
  | expr :: rest, typed, leaf, member => by
    rw [wellTypedShapes, Bool.and_eq_true] at typed
    rw [leavesOfShapes] at member
    rcases List.mem_append.mp member with first | others
    · exact ShapeExpr.wellTyped_leaves typed.1 leaf first
    · exact wellTyped_leavesOfShapes typed.2 leaf others

theorem wellTyped_leavesOfTriples :
    ∀ {operands : List TripleExpr}, wellTypedTriples operands = true →
      ∀ leaf ∈ leavesOfTriples operands, leaf.wellTyped = true
  | [], _, leaf, member => by simp [leavesOfTriples] at member
  | expr :: rest, typed, leaf, member => by
    rw [wellTypedTriples, Bool.and_eq_true] at typed
    rw [leavesOfTriples] at member
    rcases List.mem_append.mp member with first | others
    · exact TripleExpr.wellTyped_leaves typed.1 leaf first
    · exact wellTyped_leavesOfTriples typed.2 leaf others

end

/-- The leaves of the declarations of a schema. -/
def Schema.leaves (schema : Schema) : List Leaf :=
  leavesOfShapes (schema.shapes.map (·.expr))

/-- The leaves of a declaration are leaves of the schema. -/
theorem Schema.mem_leaves_of_decl {schema : Schema} {decl : ShapeDecl}
    (member : decl ∈ schema.shapes) {leaf : Leaf} (leafMember : leaf ∈ decl.expr.leaves) :
    leaf ∈ schema.leaves := by
  rw [leaves, leavesOfShapes_eq]
  exact List.mem_flatMap.mpr ⟨decl.expr, List.mem_map_of_mem member, leafMember⟩

/-- The leaves of a well-typed schema are well-typed. -/
theorem Schema.wellTyped_leaves {schema : Schema} (typed : schema.wellTyped = true) :
    ∀ leaf ∈ schema.leaves, leaf.wellTyped = true := by
  intro leaf member
  rw [leaves, leavesOfShapes_eq] at member
  obtain ⟨expr, declared, inside⟩ := List.mem_flatMap.mp member
  obtain ⟨decl, listed, rfl⟩ := List.mem_map.mp declared
  exact ShapeExpr.wellTyped_leaves (Schema.wellTyped_of_mem typed listed) leaf inside

theorem Compile.Leaf.isNamed_of_wellTyped {leaf : Leaf} (typed : leaf.wellTyped = true) :
    leaf.isNamed = true := by
  cases leaf with
  | predicate name =>
    rw [Leaf.isNamed, Json.not_isNull_of_isText typed]
    rfl
  | _ => rfl

/-- Every arc of a well-typed schema has a predicate. -/
theorem Schema.named_leaves {schema : Schema} (typed : schema.wellTyped = true) :
    ∀ leaf ∈ schema.leaves, leaf.isNamed = true :=
  fun leaf member => Leaf.isNamed_of_wellTyped (Schema.wellTyped_leaves typed leaf member)

/-- What is in the index of labels is a labelled expression with that label. -/
theorem LabelIndex.mem_labelled {entries : List Labelled} {index : LabelIndex}
    (built : LabelIndex.ofLabelled entries = .ok index) {label : String} {expr : TripleExpr}
    (member : (label, expr) ∈ index) : (Json.string label, expr) ∈ entries := by
  induction entries generalizing index with
  | nil =>
    cases built
    cases member
  | cons first rest ih =>
    obtain ⟨id, found⟩ := first
    unfold ofLabelled at built
    obtain ⟨-, -, built⟩ := checked_bind_ok built
    obtain ⟨others, builtRest, built⟩ := checked_bind_ok built
    cases id with
    | string name =>
      cases built
      rcases List.mem_cons.mp member with same | later
      · cases same
        exact List.mem_cons_self
      · exact List.mem_cons_of_mem _ (ih builtRest later)
    | _ =>
      cases built
      exact List.mem_cons_of_mem _ (ih builtRest member)

end ShapeQuery
