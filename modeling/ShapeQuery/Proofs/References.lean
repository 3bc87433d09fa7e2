import ShapeQuery.Proofs.Leaves
import ShapeQuery.Proofs.WellTyped
import Mathlib.Logic.Relation

/-!
The graph of references of a schema, and the problems that a compilation notes on its way through
it. A reference is cut off exactly if it leads back to a target on the way, so something is cut off
if and only if a cycle can be reached; and everything that can be reached is come upon.
-/
namespace ShapeQuery.Compile

open Relation

def Item.leaves : Item → List Leaf
  | .shape _ expr => expr.leaves
  | .triple _ expr => expr.leaves

/-- The leaves of what a target stands for, if the schema has it. -/
def Context.resolve (context : Context) : Target → Option (List Leaf)
  | .shape label => (context.schema.find? label).map (·.expr.leaves)
  | .tripleExpr label => (context.labels.lookup label).map (·.leaves)

/-- What one target stands for has a reference to another one that the schema has. -/
def Context.Refers (context : Context) (source target : Target) : Prop :=
  ∃ leaves, context.resolve source = some leaves ∧ .reference target ∈ leaves ∧
    (context.resolve target).isSome = true

def Target.missing : Target → Diagnostic
  | .shape label => .shapeNotDeclared label
  | .tripleExpr label => .tripleExprNotDefined label

def Target.cut : Target → Diagnostic
  | .shape label => .recursiveShape label
  | .tripleExpr label => .recursiveTripleExpr label

def Leaf.problem? : Leaf → Option Diagnostic
  | .point => some (.unknownShapeExpr "NoneType")
  | .external => some .externalShape
  | .unsupportedShape typeName => some (.unknownShapeExpr typeName)
  | .unsupportedTriple typeName => some (.unknownTripleExpr typeName)
  | .reference _ | .predicate _ | .node _ => none

/-- The problems that come of a reference while some targets are being
expanded. It says what a run notes without speaking of runs. -/
inductive Context.Notes (context : Context) : List Target → Target → Diagnostic → Prop where
  | missing {expanding target} (absent : context.resolve target = none) :
      Notes context expanding target target.missing
  | cut {expanding target leaves} (found : context.resolve target = some leaves)
      (mark : target ∈ expanding) : Notes context expanding target target.cut
  | problem {expanding target leaves leaf d} (found : context.resolve target = some leaves)
      (new : target ∉ expanding) (member : leaf ∈ leaves) (own : leaf.problem? = some d) :
      Notes context expanding target d
  | inside {expanding target leaves next d} (found : context.resolve target = some leaves)
      (new : target ∉ expanding) (member : .reference next ∈ leaves)
      (inner : Notes context (target :: expanding) next d) : Notes context expanding target d

/-- The problems that come of leaves. -/
def Context.NotesAmong (context : Context) (expanding : List Target) (leaves : List Leaf)
    (d : Diagnostic) : Prop :=
  ∃ leaf ∈ leaves, leaf.problem? = some d ∨
    ∃ target, leaf = .reference target ∧ context.Notes expanding target d

section Among

variable {context : Context} {expanding : List Target} {d : Diagnostic}

theorem notesAmong_nil : ¬ context.NotesAmong expanding [] d := by
  rintro ⟨leaf, member, -⟩
  cases member

/-- The problems of leaves in a row are those of the leaves one by one. -/
theorem notesAmong_append {front back : List Leaf} :
    context.NotesAmong expanding (front ++ back) d ↔
      context.NotesAmong expanding front d ∨ context.NotesAmong expanding back d := by
  simp only [Context.NotesAmong, List.mem_append, or_and_right, exists_or]

theorem notesAmong_reference {target : Target} :
    context.NotesAmong expanding [.reference target] d ↔ context.Notes expanding target d := by
  simp [Context.NotesAmong, Leaf.problem?]

theorem notesAmong_predicate {name : Json} {leaves : List Leaf} :
    context.NotesAmong expanding (.predicate name :: leaves) d ↔
      context.NotesAmong expanding leaves d := by
  simp [Context.NotesAmong, Leaf.problem?]

/-- A target that is new is expanded: what comes of it is what comes of its leaves. -/
theorem notes_of_new {target : Target} {leaves : List Leaf}
    (found : context.resolve target = some leaves) (new : target ∉ expanding) :
    context.Notes expanding target d ↔ context.NotesAmong (target :: expanding) leaves d := by
  constructor
  · intro notes
    cases notes with
    | missing absent => rw [found] at absent; cases absent
    | cut _ mark => exact absurd mark new
    | problem again _ member own =>
      cases found.symm.trans again
      exact ⟨_, member, Or.inl own⟩
    | inside again _ member inner =>
      cases found.symm.trans again
      exact ⟨_, member, Or.inr ⟨_, rfl, inner⟩⟩
  · rintro ⟨leaf, member, own | ⟨next, rfl, inner⟩⟩
    · exact .problem found new member own
    · exact .inside found new member inner

/-- A target that the schema does not have gives rise to one problem, whatever
is being expanded. -/
theorem notes_of_missing {target : Target} (absent : context.resolve target = none) :
    context.Notes expanding target d ↔ d = target.missing := by
  constructor
  · intro notes
    cases notes with
    | missing => rfl
    | cut found => rw [absent] at found; cases found
    | problem found => rw [absent] at found; cases found
    | inside found => rw [absent] at found; cases found
  · rintro rfl
    exact .missing absent

/-- A target that is being expanded is cut off, and nothing else is noted there. -/
theorem notes_of_cut {target : Target} {leaves : List Leaf}
    (found : context.resolve target = some leaves) (mark : target ∈ expanding) :
    context.Notes expanding target d ↔ d = target.cut := by
  constructor
  · intro notes
    cases notes with
    | missing absent => rw [found] at absent; cases absent
    | cut => rfl
    | problem _ new => exact absurd mark new
    | inside _ new => exact absurd mark new
  · rintro rfl
    exact .cut found mark

end Among

/-- A step that adds just the problems that come of some leaves. -/
def NotesJust (context : Context) (p : Progress) (leaves : List Leaf) (q : Progress) : Prop :=
  ∃ added, q.diagnostics = p.diagnostics ++ added ∧
    ∀ d, d ∈ added ↔ context.NotesAmong p.expanding leaves d

namespace NotesJust

variable {context : Context} {p q : Progress}

theorem nothing {leaves : List Leaf} (quiet : ∀ d, ¬ context.NotesAmong p.expanding leaves d)
    (same : q.diagnostics = p.diagnostics) : NotesJust context p leaves q := by
  refine ⟨[], by rw [same, List.append_nil], fun d => ?_⟩
  exact ⟨fun member => absurd member (List.not_mem_nil), fun notes => absurd notes (quiet d)⟩

theorem one {leaves : List Leaf} {problem : Diagnostic}
    (only : ∀ d, context.NotesAmong p.expanding leaves d ↔ d = problem) :
    NotesJust context p leaves (p.noting problem) := by
  refine ⟨[problem], rfl, fun d => ?_⟩
  rw [only, List.mem_singleton]

theorem leaf {leaf : Leaf} {problem : Diagnostic} (own : leaf.problem? = some problem) :
    NotesJust context p [leaf] (p.noting problem) := by
  refine .one fun d => ?_
  have different : ∀ target, leaf ≠ .reference target := by
    rintro target rfl
    cases own
  simp [Context.NotesAmong, own, different, eq_comm]

theorem node (nc : NodeConstraint) (same : q.diagnostics = p.diagnostics) :
    NotesJust context p [.node nc] q :=
  .nothing (fun d => by simp [Context.NotesAmong, Leaf.problem?]) same

theorem predicate {leaves : List Leaf} (name : Json) (notes : NotesJust context p leaves q) :
    NotesJust context p (.predicate name :: leaves) q := by
  obtain ⟨added, grown, each⟩ := notes
  exact ⟨added, grown, fun d => by rw [each, notesAmong_predicate]⟩

/-- Visits one after the other note just the problems of their leaves, as each
leaves what is being expanded as it was. Induction on the chain. -/
theorem chain {items : List Item} {fs : List Fragment}
    (steps : Chain (fun p item f q => Visit context p item f q ∧ NotesJust context p item.leaves q)
      p items fs q) : NotesJust context p (items.flatMap Item.leaves) q := by
  induction steps with
  | nil => exact .nothing (fun d => notesAmong_nil) rfl
  | cons first _ ih =>
    obtain ⟨added, grown, each⟩ := first.2
    obtain ⟨more, grownMore, eachMore⟩ := ih
    refine ⟨added ++ more, by rw [grownMore, grown, List.append_assoc], fun d => ?_⟩
    rw [List.flatMap_cons, notesAmong_append, List.mem_append, each, eachMore, first.1.expanding_eq]

theorem shapes {focus : Focus} {operands : List ShapeExpr} {fs : List Fragment}
    (steps : Chain (fun p item f q => Visit context p item f q ∧ NotesJust context p item.leaves q)
      p (operands.map (.shape focus)) fs q) : NotesJust context p (leavesOfShapes operands) q := by
  have notes := chain steps
  rw [List.flatMap_map] at notes
  rw [leavesOfShapes_eq]
  exact notes

theorem triples {subject : String} {operands : List TripleExpr} {fs : List Fragment}
    (steps : Chain (fun p item f q => Visit context p item f q ∧ NotesJust context p item.leaves q)
      p (operands.map (.triple subject)) fs q) :
    NotesJust context p (leavesOfTriples operands) q := by
  have notes := chain steps
  rw [List.flatMap_map] at notes
  rw [leavesOfTriples_eq]
  exact notes

theorem missing {target : Target} (absent : context.resolve target = none) :
    NotesJust context p [.reference target] (p.noting target.missing) :=
  .one fun d => by rw [notesAmong_reference, notes_of_missing absent]

theorem cut {target : Target} {leaves : List Leaf} (found : context.resolve target = some leaves)
    (mark : target ∈ p.expanding) : NotesJust context p [.reference target] (p.noting target.cut) :=
  .one fun d => by rw [notesAmong_reference, notes_of_cut found mark]

/-- To follow a reference to a new target notes just the problems of what it
stands for, with the target marked. -/
theorem follow {target : Target} {leaves : List Leaf} (found : context.resolve target = some leaves)
    (new : target ∉ p.expanding) (inner : NotesJust context (p.entering target) leaves q) :
    NotesJust context p [.reference target] (q.leaving target) := by
  obtain ⟨added, grown, each⟩ := inner
  refine ⟨added, grown, fun d => ?_⟩
  rw [each, notesAmong_reference, notes_of_new found new]
  rfl

end NotesJust

theorem Context.resolve_decl {context : Context} {label : String} {decl : ShapeDecl}
    (found : context.schema.find? label = some decl) :
    context.resolve (.shape label) = some decl.expr.leaves := by
  rw [resolve, found, Option.map_some]

theorem Context.resolve_label {context : Context} {label : String} {target : TripleExpr}
    (found : context.labels.lookup label = some target) :
    context.resolve (.tripleExpr label) = some target.leaves := by
  rw [resolve, found, Option.map_some]

theorem Context.resolve_undeclared {context : Context} {label : String}
    (missing : context.schema.find? label = none) : context.resolve (.shape label) = none := by
  rw [resolve, missing, Option.map_none]

theorem Context.resolve_undefined {context : Context} {label : String}
    (missing : context.labels.lookup label = none) :
    context.resolve (.tripleExpr label) = none := by
  rw [resolve, missing, Option.map_none]

theorem ne_any_of_isInline {value : ShapeExpr} (inline : isInline value = true) : value ≠ .any := by
  rintro rfl
  cases inline

/-- A visit notes just the problems that come of the leaves of its expression.
One case for each rule. -/
theorem Visit.notesJust {context : Context} {p q : Progress} {item : Item} {f : Fragment}
    (visit : Visit context p item f q) : NotesJust context p item.leaves q := by
  refine Visit.induct (fun p item _ q => NotesJust context p item.leaves q)
    (fun {p item f q} rule => ?_) visit
  cases rule with
  | shapeMissing missing =>
    rw [Item.leaves, ShapeExpr.leaves]
    exact .missing (Context.resolve_undeclared missing)
  | shapeCut found mark =>
    rw [Item.leaves, ShapeExpr.leaves]
    exact .cut (Context.resolve_decl found) mark
  | shapeReference found new inner =>
    rw [Item.leaves, ShapeExpr.leaves]
    exact .follow (Context.resolve_decl found) new inner.2
  | any =>
    rw [Item.leaves, ShapeExpr.leaves]
    exact .leaf rfl
  | emptyShape =>
    rw [Item.leaves, ShapeExpr.leaves]
    exact .nothing (fun d => notesAmong_nil) rfl
  | shape inner =>
    rw [Item.leaves, ShapeExpr.leaves]
    exact inner.2
  | and inner =>
    rw [Item.leaves, ShapeExpr.leaves]
    exact .shapes inner
  | or inner =>
    rw [Item.leaves, ShapeExpr.leaves]
    exact .shapes inner
  | not inner =>
    rw [Item.leaves, ShapeExpr.leaves]
    exact inner.2
  | notEach inner =>
    rw [Item.leaves, ShapeExpr.leaves]
    exact .shapes inner
  | node written =>
    rw [Item.leaves, ShapeExpr.leaves]
    exact .node _ rfl
  | external =>
    rw [Item.leaves, ShapeExpr.leaves]
    exact .leaf rfl
  | unsupportedShape =>
    rw [Item.leaves, ShapeExpr.leaves]
    exact .leaf rfl
  | tripleMissing missing =>
    rw [Item.leaves, TripleExpr.leaves]
    exact .missing (Context.resolve_undefined missing)
  | tripleCut found mark =>
    rw [Item.leaves, TripleExpr.leaves]
    exact .cut (Context.resolve_label found) mark
  | tripleReference found new inner =>
    rw [Item.leaves, TripleExpr.leaves]
    exact .follow (Context.resolve_label found) new inner.2
  | arcToReference inner =>
    rw [Item.leaves, TripleExpr.leaves_constraint (by simp)]
    exact .predicate _ inner.2
  | arc =>
    rw [Item.leaves, TripleExpr.leaves]
    exact .predicate _ (.nothing (fun d => notesAmong_nil) rfl)
  | arcToNode named written =>
    rw [Item.leaves, TripleExpr.leaves_constraint (by simp), ShapeExpr.leaves]
    exact .predicate _ (.node _ rfl)
  | nodeWithoutArc unnamed written =>
    rw [Item.leaves, TripleExpr.leaves_constraint (by simp), ShapeExpr.leaves]
    exact .predicate _ (.node _ rfl)
  | arcToInline inline inner =>
    rw [Item.leaves, TripleExpr.leaves_constraint (ne_any_of_isInline inline)]
    exact .predicate _ inner.2
  | eachOf inner marked =>
    rw [Item.leaves, TripleExpr.leaves]
    exact .triples inner
  | oneOf inner marked =>
    rw [Item.leaves, TripleExpr.leaves]
    exact .triples inner
  | unsupportedTriple =>
    rw [Item.leaves, TripleExpr.leaves]
    exact .leaf rfl

/-- The problems of a start: its imports, and those that come of a reference to
the start shape. -/
theorem Visit.start_notes {context : Context} {p q : Progress} {label : String} {f : Fragment}
    (visit : Visit context (context.announced p) (.shape none (.reference label)) f q) :
    ∃ added, q.diagnostics = p.diagnostics ++ added ∧
      ∀ d, d ∈ added ↔ (context.schema.imports ≠ [] ∧
        d = .importsIgnored context.schema.imports.length) ∨
        context.Notes p.expanding (.shape label) d := by
  obtain ⟨added, grown, each⟩ := visit.notesJust
  simp only [Item.leaves, ShapeExpr.leaves, context.announced_expanding,
    notesAmong_reference] at each
  unfold Context.announced at grown
  by_cases none : context.schema.imports = []
  · rw [if_pos (by rw [none]; rfl)] at grown
    exact ⟨added, grown, fun d => by simp [each, none]⟩
  · rw [if_neg (by simpa using none)] at grown
    refine ⟨.importsIgnored context.schema.imports.length :: added, ?_, fun d => ?_⟩
    · rw [grown]
      exact List.append_assoc _ _ _
    · simp [each, none]

/-! ### Cycles -/

def Diagnostic.isRecursive : Diagnostic → Bool
  | .recursiveShape _ | .recursiveTripleExpr _ => true
  | _ => false

theorem Diagnostic.isRecursive_iff_code (d : Diagnostic) :
    d.isRecursive = true ↔ d.code = "recursive-reference" := by
  cases d <;> simp [isRecursive, code]

theorem Target.cut_isRecursive (target : Target) : target.cut.isRecursive = true := by
  cases target <;> rfl

theorem Diagnostic.ne_missing_of_isRecursive {d : Diagnostic} (recursive : d.isRecursive = true)
    (target : Target) : d ≠ target.missing := by
  rintro rfl
  cases target <;> cases recursive

/-- No leaf is cut off by itself. A cut only comes of the way to it. -/
theorem Leaf.problem_isRecursive {leaf : Leaf} {d : Diagnostic} (own : leaf.problem? = some d) :
    d.isRecursive = false := by
  cases leaf <;> cases own <;> rfl

/-- A cycle of references can be reached from a target. -/
def Context.ReachesCycle (context : Context) (target : Target) : Prop :=
  ∃ other, ReflTransGen context.Refers target other ∧ TransGen context.Refers other other

section Cycles

variable {context : Context}

/-- A target of which anything but its absence is noted is there. -/
theorem Context.Notes.resolves {expanding : List Target} {target : Target} {d : Diagnostic}
    (notes : context.Notes expanding target d) (other : d ≠ target.missing) :
    (context.resolve target).isSome = true := by
  cases notes with
  | missing => exact absurd rfl other
  | cut found => rw [found, Option.isSome_some]
  | problem found => rw [found, Option.isSome_some]
  | inside found => rw [found, Option.isSome_some]

/-- Where something is cut off, the references lead back to a target on the
way, or around in a cycle. -/
theorem Context.Notes.leads_back {expanding : List Target} {target : Target} {d : Diagnostic}
    (notes : context.Notes expanding target d) (recursive : d.isRecursive = true) :
    (∃ back ∈ expanding, ReflTransGen context.Refers target back) ∨
      context.ReachesCycle target := by
  induction notes with
  | missing absent => exact absurd rfl (Diagnostic.ne_missing_of_isRecursive recursive _)
  | cut found mark => exact Or.inl ⟨_, mark, .refl⟩
  | problem found new member own =>
    rw [Leaf.problem_isRecursive own] at recursive
    cases recursive
  | @inside expanding target leaves next d found new member inner ih =>
    have step : context.Refers target next :=
      ⟨leaves, found, member, inner.resolves (d.ne_missing_of_isRecursive recursive next)⟩
    rcases ih recursive with ⟨back, onWay, path⟩ | ⟨other, path, cycle⟩
    · rcases List.mem_cons.mp onWay with rfl | earlier
      · exact Or.inr ⟨back, .refl, .head' step path⟩
      · exact Or.inl ⟨back, earlier, .head step path⟩
    · exact Or.inr ⟨other, .head step path, cycle⟩

/-- What a target stands for is in the schema, so the target is among those
that are counted. -/
theorem Context.mem_targets_of_resolve {target : Target} {leaves : List Leaf}
    (found : context.resolve target = some leaves) : target ∈ context.targets := by
  cases target with
  | shape label =>
    obtain ⟨decl, declared, -⟩ := Option.map_eq_some_iff.mp found
    exact shape_mem_targets declared
  | tripleExpr label =>
    obtain ⟨expr, defined, -⟩ := Option.map_eq_some_iff.mp found
    exact tripleExpr_mem_targets defined

/-- Where nothing is cut off, the references come to an end. The induction is
on the number of targets that are not on the way yet. -/
theorem Context.acc_of_not_notes (count : Nat) : ∀ (expanding : List Target) (target : Target),
    context.unexpanded expanding = count →
    (∀ d, d.isRecursive = true → ¬ context.Notes expanding target d) →
    Acc (fun next source => context.Refers source next) target := by
  induction count using Nat.strongRecOn with
  | ind count ih =>
    intro expanding target left quiet
    refine Acc.intro target fun next step => ?_
    obtain ⟨leaves, found, member, -⟩ := step
    have new : target ∉ expanding := fun mark =>
      quiet target.cut target.cut_isRecursive (.cut found mark)
    have fewer := context.unexpanded_cons_lt (mem_targets_of_resolve found) new
    refine ih _ (by omega) (target :: expanding) next rfl fun d recursive notes => ?_
    exact quiet d recursive (.inside found new member notes)

/-- Where references come to an end, they lead to no cycle. -/
theorem Context.not_reachesCycle_of_acc {target : Target}
    (ends : Acc (fun next source => context.Refers source next) target) :
    ¬ context.ReachesCycle target := by
  induction ends with
  | intro target _ ih =>
    rintro ⟨other, path, cycle⟩
    rcases path.cases_head with rfl | ⟨next, step, rest⟩
    · obtain ⟨next, step, rest⟩ := TransGen.head'_iff.mp cycle
      exact ih next step ⟨target, rest, cycle⟩
    · exact ih next step ⟨other, rest, cycle⟩

/-- From a start with nothing on the way, something is cut off if and only if a
cycle can be reached. -/
theorem Context.cut_iff_reachesCycle (target : Target) :
    (∃ d, context.Notes [] target d ∧ d.isRecursive = true) ↔ context.ReachesCycle target := by
  constructor
  · rintro ⟨d, notes, recursive⟩
    rcases notes.leads_back recursive with ⟨back, onWay, -⟩ | cycle
    · cases onWay
    · exact cycle
  · intro cycle
    by_contra none
    refine not_reachesCycle_of_acc (acc_of_not_notes _ [] target rfl ?_) cycle
    exact fun d recursive notes => none ⟨d, notes, recursive⟩

end Cycles

/-! ### Problems in reach -/

def Diagnostic.isUnknown : Diagnostic → Bool
  | .unknownShapeExpr _ | .unknownTripleExpr _ => true
  | _ => false

theorem Diagnostic.isUnknown_iff_code (d : Diagnostic) :
    d.isUnknown = true ↔ d.code = "unknown-expression" := by
  cases d <;> simp [isUnknown, code]

/-- A way from a place to another one that does not come back to a place on the way. -/
inductive Unrolls {α : Type} (step : α → α → Prop) : List α → α → α → Prop where
  | here {past place} (new : place ∉ past) : Unrolls step past place place
  | onward {past place next goal} (new : place ∉ past) (first : step place next)
      (rest : Unrolls step (place :: past) next goal) : Unrolls step past place goal

/-- One more step: where it comes back to a place on the way, the way ends there. -/
theorem Unrolls.tail {α : Type} {step : α → α → Prop} {past : List α} {start middle goal : α}
    (unrolls : Unrolls step past start middle) (last : step middle goal) (new : goal ∉ past) :
    Unrolls step past start goal := by
  induction unrolls with
  | @here past place unseen =>
    by_cases back : goal = place
    · subst back
      exact .here unseen
    · exact .onward unseen last (.here (by simp [back, new]))
  | @onward past place next middle unseen first _ ih =>
    by_cases back : goal = place
    · subst back
      exact .here unseen
    · exact .onward unseen first (ih last (by simp [back, new]))

/-- Every way can be made one that does not come back to a place on it, by
leaving out what is between. -/
theorem unrolls_of_path {α : Type} {step : α → α → Prop} {start goal : α}
    (path : ReflTransGen step start goal) : Unrolls step [] start goal := by
  induction path with
  | refl => exact .here List.not_mem_nil
  | tail _ last ih => exact ih.tail last List.not_mem_nil

section Reach

variable {context : Context}

/-- The problem of a leaf in a schema: its own, or that of a reference to a
target that is not there. -/
def Context.leafProblem? (context : Context) : Leaf → Option Diagnostic
  | .reference target => if (context.resolve target).isNone then some target.missing else none
  | leaf => leaf.problem?

theorem Context.leafProblem?_of_problem {leaf : Leaf} {d : Diagnostic}
    (own : leaf.problem? = some d) : context.leafProblem? leaf = some d := by
  cases leaf with
  | reference target => cases own
  | _ => exact own

theorem Context.notes_of_leaf {expanding : List Target} {target : Target} {leaves : List Leaf}
    (found : context.resolve target = some leaves) (new : target ∉ expanding) {leaf : Leaf}
    (member : leaf ∈ leaves) {d : Diagnostic} (own : context.leafProblem? leaf = some d) :
    context.Notes expanding target d := by
  cases leaf with
  | reference next =>
    simp only [leafProblem?, Option.isNone_iff_eq_none] at own
    split at own
    · next absent =>
      cases own
      exact .inside found new member (.missing absent)
    · cases own
  | _ => exact .problem found new member own

/-- What is noted at a target on a way that does not come back is noted. -/
theorem Context.notes_of_unrolls {expanding : List Target} {start target : Target} {d : Diagnostic}
    (unrolls : Unrolls context.Refers expanding start target)
    (noted : ∀ others, target ∉ others → context.Notes others target d) :
    context.Notes expanding start d := by
  induction unrolls with
  | here new => exact noted _ new
  | onward new first _ ih =>
    obtain ⟨leaves, found, member, -⟩ := first
    exact .inside found new member (ih noted)

/-- What is noted and is not cut off is the problem of a leaf in reach. -/
theorem Context.Notes.path {expanding : List Target} {start : Target} {d : Diagnostic}
    (notes : context.Notes expanding start d) (lasting : d.isRecursive = false)
    (present : (context.resolve start).isSome = true) :
    ∃ target leaves leaf, ReflTransGen context.Refers start target ∧
      context.resolve target = some leaves ∧ leaf ∈ leaves ∧
        context.leafProblem? leaf = some d := by
  induction notes with
  | missing absent =>
    rw [absent] at present
    cases present
  | cut found mark =>
    rw [Target.cut_isRecursive] at lasting
    cases lasting
  | problem found new member own =>
    exact ⟨_, _, _, .refl, found, member, leafProblem?_of_problem own⟩
  | @inside expanding start leaves next d found new member inner ih =>
    cases there : context.resolve next with
    | none =>
      have same := (notes_of_missing there).mp inner
      exact ⟨start, leaves, .reference next, .refl, found, member,
        by simp [leafProblem?, there, same]⟩
    | some nextLeaves =>
      have resolved : (context.resolve next).isSome = true := by rw [there, Option.isSome_some]
      obtain ⟨target, targetLeaves, leaf, path, rest⟩ := ih lasting resolved
      exact ⟨target, targetLeaves, leaf, .head ⟨leaves, found, member, resolved⟩ path, rest⟩

/-- From a declared start with nothing on the way, a problem other than a cut
is noted if and only if it is that of a leaf in reach. -/
theorem Context.notes_iff_reaches {start : Target}
    (present : (context.resolve start).isSome = true) {d : Diagnostic}
    (lasting : d.isRecursive = false) :
    context.Notes [] start d ↔ ∃ target leaves leaf, ReflTransGen context.Refers start target ∧
      context.resolve target = some leaves ∧ leaf ∈ leaves ∧
        context.leafProblem? leaf = some d := by
  constructor
  · exact fun notes => notes.path lasting present
  · rintro ⟨target, leaves, leaf, path, resolved, member, own⟩
    exact notes_of_unrolls (unrolls_of_path path)
      fun others new => notes_of_leaf resolved new member own

/-- An expression without a meaning is a problem of its own, never that of a
reference. -/
theorem Context.leafProblem?_unknown {leaf : Leaf} {d : Diagnostic} (unknown : d.isUnknown = true) :
    context.leafProblem? leaf = some d ↔ leaf.problem? = some d := by
  refine ⟨fun own => ?_, leafProblem?_of_problem⟩
  cases leaf with
  | reference target =>
    simp only [leafProblem?] at own
    split at own
    · cases own
      cases target <;> cases unknown
    · cases own
  | _ => exact own

/-- From a start with nothing on the way, an expression without a meaning is
noted if and only if it is in reach. -/
theorem Context.unknown_iff_reaches {start : Target} {d : Diagnostic}
    (unknown : d.isUnknown = true) :
    context.Notes [] start d ↔ ∃ target leaves leaf, ReflTransGen context.Refers start target ∧
      context.resolve target = some leaves ∧ leaf ∈ leaves ∧ leaf.problem? = some d := by
  have lasting : d.isRecursive = false := by cases d <;> first | rfl | cases unknown
  simp only [← context.leafProblem?_unknown unknown]
  cases there : context.resolve start with
  | some leaves => exact context.notes_iff_reaches (by rw [there, Option.isSome_some]) lasting
  | none =>
    rw [notes_of_missing there]
    constructor
    · rintro rfl
      cases start <;> cases unknown
    · rintro ⟨target, leaves, leaf, path, resolved, -⟩
      rcases path.cases_head with rfl | ⟨next, ⟨startLeaves, startFound, -⟩, -⟩
      · rw [there] at resolved
        cases resolved
      · rw [there] at startFound
        cases startFound

theorem Context.mem_leaves_of_resolve {schema : Schema}
    (built : Context.ofSchema schema = .ok context) {target : Target} {leaves : List Leaf}
    (found : context.resolve target = some leaves) : ∀ leaf ∈ leaves, leaf ∈ schema.leaves := by
  unfold ofSchema at built
  obtain ⟨index, indexed, same⟩ := checked_bind_ok built
  cases same
  intro leaf member
  cases target with
  | shape label =>
    obtain ⟨decl, declared, rfl⟩ := Option.map_eq_some_iff.mp found
    exact Schema.mem_leaves_of_decl (List.mem_of_find?_eq_some declared) member
  | tripleExpr label =>
    obtain ⟨expr, defined, rfl⟩ := Option.map_eq_some_iff.mp found
    obtain ⟨front, back, split, -⟩ := List.lookup_eq_some_iff.mp defined
    have listed : (label, expr) ∈ index := by
      rw [show index = front ++ (label, expr) :: back from split]
      exact List.mem_append_right _ (.head _)
    exact labelledInShapes_leaves _ (LabelIndex.mem_labelled indexed listed) leaf member

end Reach

end ShapeQuery.Compile
