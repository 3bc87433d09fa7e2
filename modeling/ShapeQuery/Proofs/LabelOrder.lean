import ShapeQuery.Compact.Grammar
import ShapeQuery.Proofs.Checks
import ShapeQuery.Schema.Labels

/-!
What a label means. Every expression in a schema has a position: the number of its declaration, and
then the numbers of the operands on the way down to it. Positions are compared from the left, so
that an expression comes before its operands and an operand before the next one. A label means the
first triple expression that has it, and it has no meaning only if it is empty or no triple
expression in the schema has it.
-/
namespace ShapeQuery

open Compact.Scan (labelOf)

/-! ### Positions -/

inductive Expression where
  | shape (expr : ShapeExpr)
  | triple (expr : TripleExpr)

namespace Expression

/-- The expressions that an expression is made of. -/
def operands : Expression → List Expression
  | .shape (.shape (some expression) _ _) => [.triple expression]
  | .shape (.and operands) | .shape (.or operands) | .shape (.notEach operands) =>
    operands.map .shape
  | .shape (.not operand) => [.shape operand]
  | .triple (.constraint _ _ value _ _) => [.shape value]
  | .triple (.eachOf operands _ _) | .triple (.oneOf operands _ _) => operands.map .triple
  | _ => []

/-- The expression at a position inside of an expression. A position is a list
of numbers, one for each step down to an operand. -/
def at? (expr : Expression) : List Nat → Option Expression
  | [] => some expr
  | index :: rest => (expr.operands[index]?).bind (·.at? rest)

def amongAt? (exprs : List Expression) : List Nat → Option Expression
  | [] => none
  | index :: rest => (exprs[index]?).bind (·.at? rest)

def labelled : Expression → List Labelled
  | .shape expr => expr.labelled
  | .triple expr => expr.labelled

def ownLabelled : Expression → List Labelled
  | .shape _ => []
  | .triple expr => labelledIf (labelOf expr) expr

theorem sizeOf_lt_of_mem_map {α : Type} [SizeOf α] {kind : α → Expression}
    (size : ∀ expr, sizeOf (kind expr) = 1 + sizeOf expr) {exprs : List α} {operand : Expression}
    (listed : operand ∈ exprs.map kind) : sizeOf operand < 1 + sizeOf exprs := by
  obtain ⟨inner, inside, rfl⟩ := List.mem_map.mp listed
  have smaller := List.sizeOf_lt_of_mem inside
  rw [size]
  omega

/-- An operand is smaller than its expression, which the induction over both
kinds rests on. -/
theorem sizeOf_operand_lt {expr operand : Expression} (member : operand ∈ expr.operands) :
    sizeOf operand < sizeOf expr := by
  unfold operands at member
  split at member
  · rw [List.mem_singleton.mp member]
    simp only [Expression.triple.sizeOf_spec, Expression.shape.sizeOf_spec,
      ShapeExpr.shape.sizeOf_spec, Option.some.sizeOf_spec]
    omega
  · have smaller := sizeOf_lt_of_mem_map Expression.shape.sizeOf_spec member
    simp only [Expression.shape.sizeOf_spec, ShapeExpr.and.sizeOf_spec]
    omega
  · have smaller := sizeOf_lt_of_mem_map Expression.shape.sizeOf_spec member
    simp only [Expression.shape.sizeOf_spec, ShapeExpr.or.sizeOf_spec]
    omega
  · have smaller := sizeOf_lt_of_mem_map Expression.shape.sizeOf_spec member
    simp only [Expression.shape.sizeOf_spec, ShapeExpr.notEach.sizeOf_spec]
    omega
  · rw [List.mem_singleton.mp member]
    simp only [Expression.shape.sizeOf_spec, ShapeExpr.not.sizeOf_spec]
    omega
  · rw [List.mem_singleton.mp member]
    simp only [Expression.shape.sizeOf_spec, Expression.triple.sizeOf_spec,
      TripleExpr.constraint.sizeOf_spec]
    omega
  · have smaller := sizeOf_lt_of_mem_map Expression.triple.sizeOf_spec member
    simp only [Expression.triple.sizeOf_spec, TripleExpr.eachOf.sizeOf_spec]
    omega
  · have smaller := sizeOf_lt_of_mem_map Expression.triple.sizeOf_spec member
    simp only [Expression.triple.sizeOf_spec, TripleExpr.oneOf.sizeOf_spec]
    omega
  · cases member

/-- Induction over expressions of both kinds: operands come first. -/
theorem induct {motive : Expression → Prop}
    (step : ∀ expr, (∀ operand ∈ expr.operands, motive operand) → motive expr) (expr : Expression) :
    motive expr :=
  step expr fun operand _ => induct step operand
termination_by sizeOf expr
decreasing_by
  apply sizeOf_operand_lt
  assumption

theorem labelledInShapes_eq (exprs : List ShapeExpr) :
    labelledInShapes exprs = (exprs.map .shape).flatMap labelled := by
  induction exprs with
  | nil => rw [labelledInShapes, List.map_nil, List.flatMap_nil]
  | cons expr rest ih =>
    rw [labelledInShapes, List.map_cons, List.flatMap_cons, ih]
    rfl

theorem labelledInTriples_eq (exprs : List TripleExpr) :
    labelledInTriples exprs = (exprs.map .triple).flatMap labelled := by
  induction exprs with
  | nil => rw [labelledInTriples, List.map_nil, List.flatMap_nil]
  | cons expr rest ih =>
    rw [labelledInTriples, List.map_cons, List.flatMap_cons, ih]
    rfl

/-- An expression comes before what is inside of its operands. -/
theorem labelled_eq (expr : Expression) :
    expr.labelled = expr.ownLabelled ++ expr.operands.flatMap labelled := by
  have unnamed : ∀ expr : TripleExpr, labelledIf .null expr = [] := fun _ => rfl
  cases expr with
  | shape expr =>
    rw [labelled, ownLabelled, List.nil_append]
    cases expr with
    | shape expression closed extra =>
      cases expression with
      | none => simp [ShapeExpr.labelled, operands]
      | some expression => simp [ShapeExpr.labelled, operands, labelled]
    | and exprs => rw [ShapeExpr.labelled, labelledInShapes_eq, operands]
    | or exprs => rw [ShapeExpr.labelled, labelledInShapes_eq, operands]
    | notEach exprs => rw [ShapeExpr.labelled, labelledInShapes_eq, operands]
    | not operand => simp [ShapeExpr.labelled, operands, labelled]
    | _ => simp [ShapeExpr.labelled, operands]
  | triple expr =>
    rw [labelled, ownLabelled]
    cases expr with
    | constraint predicate inverse value bounds id =>
      simp [TripleExpr.labelled, labelOf, operands, labelled]
    | eachOf exprs bounds id => rw [TripleExpr.labelled, labelledInTriples_eq, operands, labelOf]
    | oneOf exprs bounds id => rw [TripleExpr.labelled, labelledInTriples_eq, operands, labelOf]
    | _ => simp [TripleExpr.labelled, labelOf, operands, unnamed]

/-! ### First expressions -/

/-- What a label means where expressions are found at positions: the first
triple expression that has it, or nothing if none has it. -/
inductive Means (found : List Nat → Option Expression) (label : String) :
    Option TripleExpr → Prop where
  | first {position expr} (here : found position = some (.triple expr))
      (named : labelOf expr = .string label)
        (least : ∀ other later, found other = some (.triple later) → labelOf later = .string label →
        position.le other) : Means found label (some expr)
  | nothing (absent : ∀ position expr, found position = some (.triple expr) →
    labelOf expr ≠ .string label) :
      Means found label none

def named? (label : String) : Labelled → Option TripleExpr
  | (.string name, expr) => if name = label then some expr else none
  | _ => none

theorem named?_eq_some {label : String} {entry : Labelled} {expr : TripleExpr} :
    named? label entry = some expr ↔ entry = (.string label, expr) := by
  obtain ⟨id, other⟩ := entry
  cases id with
  | string name => simp [named?]
  | _ => simp [named?]

/-- Of several expressions, those in front come first. -/
theorem Means.cons {label : String} {expr : Expression} {exprs : List Expression}
    {own others : Option TripleExpr} (inside : Means expr.at? label own)
    (behind : Means (amongAt? exprs) label others) :
    Means (amongAt? (expr :: exprs)) label (own.or others) := by
  cases inside with
  | @first position first here named least =>
    have there : amongAt? (expr :: exprs) (0 :: position) = some (.triple first) := here
    apply Means.first there named
    intro other later found alike
    obtain _ | ⟨_ | index, rest⟩ := other
    · cases found
    · exact List.cons_le_cons_iff.mpr (Or.inr ⟨rfl, least rest later found alike⟩)
    · exact List.cons_le_cons_iff.mpr (Or.inl (Nat.succ_pos index))
  | nothing absent =>
    rw [Option.none_or]
    cases behind with
    | @first position first here named least =>
      obtain _ | ⟨index, rest⟩ := position
      · cases here
      have there : amongAt? (expr :: exprs) ((index + 1) :: rest) = some (.triple first) := here
      apply Means.first there named
      intro other later found alike
      obtain _ | ⟨_ | number, more⟩ := other
      · cases found
      · exact absurd alike (absent more later found)
      · have earlier := List.cons_le_cons_iff.mp (least (number :: more) later found alike)
        exact List.cons_le_cons_iff.mpr (earlier.imp Nat.succ_lt_succ
          (And.imp_left (congrArg Nat.succ)))
    | nothing none =>
      apply Means.nothing
      intro position later found
      obtain _ | ⟨_ | index, rest⟩ := position
      · cases found
      · exact absent rest later found
      · exact none (index :: rest) later found

/-- The meaning of a label in several expressions is the first entry in the
first of them that has one. -/
theorem means_among {label : String} {exprs : List Expression}
    (each : ∀ expr ∈ exprs, Means expr.at? label (expr.labelled.findSome? (named? label))) :
    Means (amongAt? exprs) label ((exprs.flatMap labelled).findSome? (named? label)) := by
  induction exprs with
  | nil =>
    apply Means.nothing
    intro position expr found
    cases position with
    | nil => cases found
    | cons index rest => cases found
  | cons expr exprs ih =>
    obtain ⟨here, others⟩ := List.forall_mem_cons.mp each
    rw [List.flatMap_cons, List.findSome?_append]
    exact here.cons (ih others)

/-- An expression is an entry of its own exactly if it is a triple expression
with the label. -/
theorem findSome?_ownLabelled {label : String} (present : label ≠ "") (expr : Expression)
    {own : TripleExpr} :
    expr.ownLabelled.findSome? (named? label) = some own ↔
      expr = .triple own ∧ labelOf own = .string label := by
  cases expr with
  | shape expr => simp [ownLabelled]
  | triple expr =>
    rw [ownLabelled, labelledIf]
    constructor
    · intro found
      split at found
      · rw [List.findSome?_singleton, named?_eq_some, Prod.mk.injEq] at found
        obtain ⟨named, rfl⟩ := found
        exact ⟨rfl, named⟩
      · cases found
    · rintro ⟨⟨⟩, named⟩
      have truthy : (labelOf own).truthy = true := by simpa [named, Json.truthy] using present
      rw [if_pos truthy, List.findSome?_singleton, named?_eq_some, named]

/-- The meaning of a label in an expression is the first entry with the label. -/
theorem means_labelled {label : String} (present : label ≠ "") (expr : Expression) :
    Means expr.at? label (expr.labelled.findSome? (named? label)) := by
  induction expr using induct with
  | step expr ih =>
    have behind := means_among ih
    rw [labelled_eq, List.findSome?_append]
    cases first : expr.ownLabelled.findSome? (named? label) with
    | some own =>
      obtain ⟨rfl, named⟩ := (findSome?_ownLabelled present expr).mp first
      have here : (Expression.triple own).at? [] = some (.triple own) := rfl
      apply Means.first here named
      intro position later found alike
      exact List.nil_le position
    | none =>
      have other : ∀ own, expr = .triple own → labelOf own ≠ .string label := by
        intro own same named
        rw [(findSome?_ownLabelled present expr).mpr ⟨same, named⟩] at first
        cases first
      rw [Option.none_or]
      generalize (expr.operands.flatMap labelled).findSome? (named? label) = answer at behind
      cases behind with
      | @first position first here named least =>
        obtain _ | ⟨index, rest⟩ := position
        · cases here
        have there : expr.at? (index :: rest) = some (.triple first) := here
        apply Means.first there named
        intro position later found alike
        obtain _ | ⟨number, more⟩ := position
        · exact absurd alike (other later (Option.some.inj found))
        · exact least (number :: more) later found alike
      | nothing absent =>
        apply Means.nothing
        intro position later found
        obtain _ | ⟨index, rest⟩ := position
        · exact other later (Option.some.inj found)
        · exact absent (index :: rest) later found

/-- A label has one meaning. -/
theorem Means.eq_some_iff {found : List Nat → Option Expression} {label : String}
    {answer : Option TripleExpr} (means : Means found label answer) {expr : TripleExpr} :
    answer = some expr ↔ ∃ position, (found position = some (.triple expr) ∧
      labelOf expr = .string label) ∧
      ∀ other later, found other = some (.triple later) ∧ labelOf later = .string label →
        position.le other := by
  cases means with
  | @first position first here named least =>
    constructor
    · rintro ⟨⟩
      exact ⟨position, ⟨here, named⟩, fun other later alike => least other later alike.1 alike.2⟩
    · rintro ⟨other, ⟨there, alike⟩, least'⟩
      have same : position = other :=
        List.le_antisymm (least other expr there alike) (least' position first ⟨here, named⟩)
      rw [same, there] at here
      cases here
      rfl
  | nothing absent =>
    constructor
    · nofun
    · rintro ⟨position, ⟨there, alike⟩, -⟩
      exact absurd alike (absent position expr there)

theorem Means.eq_none_iff {found : List Nat → Option Expression} {label : String}
    {answer : Option TripleExpr} (means : Means found label answer) :
    answer = none ↔ ∀ position expr, ¬ (found position = some (.triple expr) ∧
      labelOf expr = .string label) := by
  cases means with
  | @first position first here named least =>
    constructor
    · nofun
    · intro absent
      exact absurd ⟨here, named⟩ (absent position first)
  | nothing absent =>
    constructor
    · intro _ position expr alike
      exact absent position expr alike.1 alike.2
    · intro _
      rfl

/-! ### Entries -/

theorem exists_amongAt?_iff {exprs : List Expression} {inner : Expression} :
    (∃ position, amongAt? exprs position = some inner) ↔
      ∃ expr ∈ exprs, ∃ position, expr.at? position = some inner := by
  constructor
  · rintro ⟨_ | ⟨index, rest⟩, there⟩
    · cases there
    · obtain ⟨expr, listed, inside⟩ := Option.bind_eq_some_iff.mp there
      exact ⟨expr, List.mem_of_getElem? listed, rest, inside⟩
  · rintro ⟨expr, member, rest, inside⟩
    obtain ⟨index, listed⟩ := List.mem_iff_getElem?.mp member
    exact ⟨index :: rest, Option.bind_eq_some_iff.mpr ⟨expr, listed, inside⟩⟩

/-- What is found at some position is the expression itself, or is found in an
operand. -/
theorem exists_at?_iff {expr inner : Expression} : (∃ position, expr.at? position = some inner) ↔
    expr = inner ∨ ∃ operand ∈ expr.operands, ∃ position, operand.at? position = some inner := by
  rw [← exists_amongAt?_iff]
  constructor
  · rintro ⟨_ | ⟨index, rest⟩, there⟩
    · exact Or.inl (Option.some.inj there)
    · exact Or.inr ⟨index :: rest, there⟩
  · rintro (rfl | ⟨_ | ⟨index, rest⟩, there⟩)
    · exact ⟨[], rfl⟩
    · cases there
    · exact ⟨index :: rest, there⟩

theorem mem_ownLabelled {expr : Expression} {entry : Labelled} : entry ∈ expr.ownLabelled ↔
    expr = .triple entry.2 ∧ labelOf entry.2 = entry.1 ∧ entry.1.truthy = true := by
  obtain ⟨id, inner⟩ := entry
  cases expr with
  | shape expr => simp [ownLabelled]
  | triple expr =>
    rw [ownLabelled, labelledIf]
    split
    · next truthy =>
      simp only [List.mem_singleton, Prod.mk.injEq, Expression.triple.injEq]
      constructor
      · rintro ⟨rfl, rfl⟩
        exact ⟨rfl, rfl, truthy⟩
      · rintro ⟨rfl, named, -⟩
        exact ⟨named.symm, rfl⟩
    · next absent =>
      simp only [List.not_mem_nil, Expression.triple.injEq, false_iff]
      rintro ⟨rfl, rfl, truthy⟩
      exact absent truthy

/-- The entries of an expression are the triple expressions in it whose label
counts as present. -/
theorem mem_labelled {expr : Expression} {entry : Labelled} : entry ∈ expr.labelled ↔
    (∃ position, expr.at? position = some (.triple entry.2)) ∧ labelOf entry.2 = entry.1 ∧
      entry.1.truthy = true := by
  induction expr using induct with
  | step expr ih =>
    rw [labelled_eq, List.mem_append, mem_ownLabelled, exists_at?_iff, or_and_right,
      List.mem_flatMap]
    refine or_congr_right ?_
    constructor
    · rintro ⟨operand, member, inside⟩
      obtain ⟨found, named⟩ := (ih operand member).mp inside
      exact ⟨⟨operand, member, found⟩, named⟩
    · rintro ⟨⟨operand, member, found⟩, named⟩
      exact ⟨operand, member, (ih operand member).mpr ⟨found, named⟩⟩

end Expression

/-! ### The meaning of labels -/

open Expression

namespace LabelIndex

/-- The entries can be made an index if all labels can be keys. -/
theorem ofLabelled_ok_iff {entries : List Labelled} :
    (∃ index, ofLabelled entries = .ok index) ↔ ∀ entry ∈ entries, entry.1.hashable = .ok () := by
  induction entries with
  | nil => exact ⟨fun _ => List.forall_mem_nil _, fun _ => ⟨[], rfl⟩⟩
  | cons entry rest ih =>
    obtain ⟨id, expr⟩ := entry
    rw [List.forall_mem_cons, ← ih]
    constructor
    · rintro ⟨index, built⟩
      obtain ⟨done, hashed, built⟩ := checked_bind_ok built
      obtain ⟨others, builtRest, -⟩ := checked_bind_ok built
      exact ⟨hashed, others, builtRest⟩
    · rintro ⟨hashed, others, builtRest⟩
      rw [ofLabelled, hashed, builtRest]
      cases id <;> exact ⟨_, rfl⟩

/-- A label is looked up by going through the entries. -/
theorem lookup_ofLabelled {entries : List Labelled} {index : LabelIndex}
    (built : ofLabelled entries = .ok index) (label : String) :
    index.lookup label = entries.findSome? (named? label) := by
  induction entries generalizing index with
  | nil =>
    cases built
    rfl
  | cons entry rest ih =>
    obtain ⟨id, expr⟩ := entry
    obtain ⟨-, -, built⟩ := checked_bind_ok built
    obtain ⟨others, builtRest, built⟩ := checked_bind_ok built
    have later := ih builtRest
    rw [List.findSome?_cons]
    cases id with
    | string name =>
      cases built
      by_cases same : name = label
      · simp [named?, same]
      · have other : (label == name) = false := beq_false_of_ne (Ne.symm same)
        simp [named?, same, List.lookup_cons, other, later]
    | _ =>
      cases built
      exact later

end LabelIndex

def Schema.expressions (schema : Schema) : List Expression :=
  schema.shapes.map fun decl => .shape decl.expr

/-- The expression at a position in a schema: the number of a declaration comes
first. -/
def Schema.at? (schema : Schema) : List Nat → Option Expression :=
  amongAt? schema.expressions

/-- A triple expression stands at a position and has a label. -/
def Schema.LabelledAt (schema : Schema) (label : String) (position : List Nat) (expr : TripleExpr) :
    Prop :=
  schema.at? position = some (.triple expr) ∧ labelOf expr = .string label

theorem Schema.labelled_eq (schema : Schema) :
    schema.labelled = schema.expressions.flatMap Expression.labelled := by
  rw [Schema.labelled, labelledInShapes_eq, List.map_map]
  rfl

/-- The entries of a schema are the triple expressions in it whose label counts
as present. -/
theorem Schema.mem_labelled {schema : Schema} {entry : Labelled} : entry ∈ schema.labelled ↔
    (∃ position, schema.at? position = some (.triple entry.2)) ∧ labelOf entry.2 = entry.1 ∧
      entry.1.truthy = true := by
  rw [Schema.labelled_eq, List.mem_flatMap, Schema.at?, exists_amongAt?_iff]
  simp only [Expression.mem_labelled]
  constructor
  · rintro ⟨expr, member, found, named⟩
    exact ⟨⟨expr, member, found⟩, named⟩
  · rintro ⟨⟨expr, member, found⟩, named⟩
    exact ⟨expr, member, found, named⟩

theorem Schema.findSome?_labelled_empty (schema : Schema) :
    schema.labelled.findSome? (named? "") = none := by
  rw [List.findSome?_eq_none_iff]
  intro entry member
  rw [Option.eq_none_iff_forall_ne_some]
  intro expr same
  have truthy := (Schema.mem_labelled.mp member).2.2
  rw [named?_eq_some.mp same] at truthy
  cases truthy

/-- The index can be made exactly if every label that counts as present can be a key. -/
theorem Schema.labelIndex_ok_iff (schema : Schema) : (∃ index, schema.labelIndex = .ok index) ↔
    ∀ position expr, schema.at? position = some (.triple expr) → (labelOf expr).truthy = true →
      (labelOf expr).hashable = .ok () := by
  rw [Schema.labelIndex, LabelIndex.ofLabelled_ok_iff]
  constructor
  · intro keys position expr found truthy
    exact keys (labelOf expr, expr) (Schema.mem_labelled.mpr ⟨⟨position, found⟩, rfl, truthy⟩)
  · intro keys entry member
    obtain ⟨⟨position, found⟩, named, truthy⟩ := Schema.mem_labelled.mp member
    rw [← named] at truthy ⊢
    exact keys position entry.2 found truthy

/-- The index of labels can be made unless a label that counts as present
cannot be a key. It maps a label to the first triple expression with it in the
order of the document, value expressions and operands of negations included,
and it has no entry for a label exactly if the label is empty or no triple
expression has it. -/
theorem labelIndex_first (schema : Schema) :
    ((∃ index, schema.labelIndex = .ok index) ↔
      ∀ position expr, schema.at? position = some (.triple expr) →
      (labelOf expr).truthy = true → (labelOf expr).hashable = .ok ()) ∧
    ∀ index, schema.labelIndex = .ok index → ∀ label,
      (∀ expr, index.lookup label = some expr ↔
        label ≠ "" ∧ ∃ position, schema.LabelledAt label position expr ∧
        ∀ other later, schema.LabelledAt label other later → position.le other) ∧
      (index.lookup label = none ↔ label = "" ∨
        ∀ position expr, ¬ schema.LabelledAt label position expr) := by
  refine ⟨schema.labelIndex_ok_iff, ?_⟩
  intro index built label
  have entries : index.lookup label = schema.labelled.findSome? (named? label) :=
    LabelIndex.lookup_ofLabelled built label
  by_cases empty : label = ""
  · rw [entries, empty, schema.findSome?_labelled_empty]
    simp
  · have means : Means schema.at? label (index.lookup label) := by
      rw [entries, Schema.labelled_eq]
      exact means_among fun expr _ => means_labelled empty expr
    constructor
    · intro expr
      rw [means.eq_some_iff, and_iff_right empty]
      rfl
    · rw [means.eq_none_iff, or_iff_right empty]
      rfl

/-- A schema in which two triple expressions have the same label: one in the
value of a triple constraint, inside of negations, and one in another
declaration. The triple constraint has an empty label. -/
def relabelledSchema : Schema where
  shapes := [
    ⟨.string "S", .notEach [.node {}, .shape (some (.eachOf [.constraint (.string "p") false
      (.not (.shape (some (.constraint (.string "q") false .any {} (.string "inner"))) false [])) {}
        (.string "")]
      {} .null)) false []], false⟩,
    ⟨.string "T", .shape (some (.oneOf [.reference "inner"] {} (.string "inner"))) false [], false⟩]

/-- The first of the two is the meaning of the label, and a label that only a
declaration has means nothing. -/
theorem labelIndex_first_relabelled :
    ∃ index, relabelledSchema.labelIndex = .ok index ∧
      (∃ position, relabelledSchema.LabelledAt "inner" position
          (.constraint (.string "q") false .any {} (.string "inner")) ∧
        ∀ other later, relabelledSchema.LabelledAt "inner" other later → position.le other) ∧
      ∀ position expr, ¬ relabelledSchema.LabelledAt "S" position expr := by
  have index : relabelledSchema.labelIndex = .ok
      [("inner", .constraint (.string "q") false .any {} (.string "inner")),
        ("inner", .oneOf [.reference "inner"] {} (.string "inner"))] := rfl
  have meaning := (labelIndex_first relabelledSchema).2 _ index
  refine ⟨_, index, ?_, ?_⟩
  · exact (((meaning "inner").1 _).mp rfl).2
  · exact ((meaning "S").2.mp rfl).resolve_left (by decide)

end ShapeQuery
