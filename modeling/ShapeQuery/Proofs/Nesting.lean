import ShapeQuery.Proofs.Leaves
import ShapeQuery.Proofs.WellTyped
import Mathlib.Logic.Relation

/-!
What is expanded inside what. A traversal goes from place to place: from an expression to its
operands, from an arc to its value, and from a reference to its target. The targets on the way to a
place are marked, so nothing is expanded through a reference below its own expansion through a
reference. An expression that is visited in place is not marked: on one way it can be visited once
for each target that it stands in.
-/
namespace ShapeQuery

mutual

theorem ShapeExpr.labelled_self : ∀ {expr : ShapeExpr}, ∀ entry ∈ expr.labelled,
    entry ∈ entry.2.labelled
  | .shape (some expression) _ _, entry, member => by
    rw [ShapeExpr.labelled] at member
    exact TripleExpr.labelled_self entry member
  | .and operands, entry, member => by
    rw [ShapeExpr.labelled] at member
    exact labelledInShapes_self entry member
  | .or operands, entry, member => by
    rw [ShapeExpr.labelled] at member
    exact labelledInShapes_self entry member
  | .notEach operands, entry, member => by
    rw [ShapeExpr.labelled] at member
    exact labelledInShapes_self entry member
  | .not operand, entry, member => by
    rw [ShapeExpr.labelled] at member
    exact ShapeExpr.labelled_self entry member
  | .shape none _ _, _, member => by simp [ShapeExpr.labelled] at member
  | .reference _, _, member => by simp [ShapeExpr.labelled] at member
  | .any, _, member => by simp [ShapeExpr.labelled] at member
  | .node _, _, member => by simp [ShapeExpr.labelled] at member
  | .external, _, member => by simp [ShapeExpr.labelled] at member
  | .unsupported _, _, member => by simp [ShapeExpr.labelled] at member

theorem TripleExpr.labelled_self : ∀ {expr : TripleExpr}, ∀ entry ∈ expr.labelled,
    entry ∈ entry.2.labelled
  | .constraint predicate inverse value bounds id, entry, member => by
    rw [TripleExpr.labelled] at member
    rcases List.mem_append.mp member with own | inside
    · rw [mem_labelledIf own, TripleExpr.labelled]
      exact List.mem_append_left _ own
    · exact ShapeExpr.labelled_self entry inside
  | .eachOf operands bounds id, entry, member => by
    rw [TripleExpr.labelled] at member
    rcases List.mem_append.mp member with own | inside
    · rw [mem_labelledIf own, TripleExpr.labelled]
      exact List.mem_append_left _ own
    · exact labelledInTriples_self entry inside
  | .oneOf operands bounds id, entry, member => by
    rw [TripleExpr.labelled] at member
    rcases List.mem_append.mp member with own | inside
    · rw [mem_labelledIf own, TripleExpr.labelled]
      exact List.mem_append_left _ own
    · exact labelledInTriples_self entry inside
  | .reference _, _, member => by simp [TripleExpr.labelled] at member
  | .unsupported _, _, member => by simp [TripleExpr.labelled] at member

theorem labelledInShapes_self : ∀ {operands : List ShapeExpr}, ∀ entry ∈ labelledInShapes operands,
    entry ∈ entry.2.labelled
  | [], _, member => by simp [labelledInShapes] at member
  | _ :: _, entry, member => by
    rw [labelledInShapes] at member
    rcases List.mem_append.mp member with first | others
    · exact ShapeExpr.labelled_self entry first
    · exact labelledInShapes_self entry others

theorem labelledInTriples_self :
    ∀ {operands : List TripleExpr}, ∀ entry ∈ labelledInTriples operands, entry ∈ entry.2.labelled
  | [], _, member => by simp [labelledInTriples] at member
  | _ :: _, entry, member => by
    rw [labelledInTriples] at member
    rcases List.mem_append.mp member with first | others
    · exact TripleExpr.labelled_self entry first
    · exact labelledInTriples_self entry others

end

theorem mem_labelledInShapes {operands : List ShapeExpr} {operand : ShapeExpr}
    (member : operand ∈ operands) {entry : Labelled} (inside : entry ∈ operand.labelled) :
    entry ∈ labelledInShapes operands := by
  induction operands with
  | nil => cases member
  | cons first rest ih =>
    rw [labelledInShapes]
    rcases List.mem_cons.mp member with rfl | others
    · exact List.mem_append_left _ inside
    · exact List.mem_append_right _ (ih others)

theorem mem_labelledInTriples {operands : List TripleExpr} {operand : TripleExpr}
    (member : operand ∈ operands) {entry : Labelled} (inside : entry ∈ operand.labelled) :
    entry ∈ labelledInTriples operands := by
  induction operands with
  | nil => cases member
  | cons first rest ih =>
    rw [labelledInTriples]
    rcases List.mem_cons.mp member with rfl | others
    · exact List.mem_append_left _ inside
    · exact List.mem_append_right _ (ih others)

namespace Compile

open Relation

/-- A place of a traversal: what is visited, and the state in which the visit starts. -/
structure Place where
  progress : Progress
  item : Item

namespace Item

/-- What is visited inside an item, one after the other and without following a
reference; the values of arcs are left out. -/
def operands : Item → List Item
  | .shape focus (.and operands) | .shape focus (.or operands) | .shape focus (.notEach operands) =>
    operands.map (.shape focus)
  | .shape focus (.not operand) => [.shape focus operand]
  | .shape focus (.shape (some expression) _ _) => [.triple focus.text expression]
  | .triple subject (.eachOf operands _ _) | .triple subject (.oneOf operands _ _) =>
    operands.map (.triple subject)
  | _ => []

def target? : Item → Option Target
  | .shape _ (.reference label) => some (.shape label)
  | .triple _ (.reference label) => some (.tripleExpr label)
  | _ => none

def labelled : Item → List Labelled
  | .shape _ expr => expr.labelled
  | .triple _ expr => expr.labelled

noncomputable def size : Item → Nat
  | .shape _ expr => sizeOf expr
  | .triple _ expr => sizeOf expr

end Item

/-- One place is entered from another one: an operand behind those in front of
it, the value of an arc, or the target of a reference that is not on the way.
Only what is visited before the place has to come to an end, not the visit of
the place itself. -/
inductive Context.Enters (context : Context) : Place → Place → Prop where
  | operand {p q item front inner back fs} (operands : item.operands = front ++ inner :: back)
      (before : Chain (Visit context) p front fs q) : Enters context ⟨p, item⟩ ⟨q, inner⟩
  | arcToReference {p subject predicate inverse label bounds id} :
      Enters context ⟨p, .triple subject
        (.constraint predicate inverse (.reference label) bounds id)⟩
        ⟨p, .shape (some (stableVariable label)) (.reference label)⟩
  | arcToInline {p subject predicate inverse value bounds id} (inline : isInline value = true) :
      Enters context ⟨p, .triple subject (.constraint predicate inverse value bounds id)⟩
        ⟨p.counting, .shape (some (freshVariable p.fresh)) value⟩
  | shapeReference {p focus label decl} (found : context.schema.find? label = some decl)
      (new : .shape label ∉ p.expanding) :
      Enters context ⟨p, .shape focus (.reference label)⟩
        ⟨p.entering (.shape label), .shape (some (focus.getD (stableVariable label))) decl.expr⟩
  | tripleReference {p subject label target} (found : context.labels.lookup label = some target)
      (new : .tripleExpr label ∉ p.expanding) :
      Enters context ⟨p, .triple subject (.reference label)⟩
        ⟨p.entering (.tripleExpr label), .triple subject target⟩

variable {context : Context}

/-! ### Visits go from place to place -/

theorem Chain.append {step : Outcomes} {p middle q : Progress} {items others : List Item}
    {fs gs : List Fragment} (first : Chain step p items fs middle)
    (second : Chain step middle others gs q) : Chain step p (items ++ others) (fs ++ gs) q := by
  induction first with
  | nil => exact second
  | cons visited _ ih => exact .cons visited (ih second)

/-- The visits of operands are entered one after the other. -/
theorem Chain.entered {item : Item} {p middle q : Progress} {front back : List Item}
    {gs fs : List Fragment} (before : Chain (Visit context) p front gs middle)
    (chain : Chain (Visit context) middle back fs q) (operands : item.operands = front ++ back) :
    Chain (fun p' item' f' q' => Visit context p' item' f' q' ∧
      context.Enters ⟨p, item⟩ ⟨p', item'⟩)
      middle back fs q := by
  induction chain generalizing front gs with
  | nil => exact .nil
  | cons visited _ ih =>
    refine .cons ⟨visited, .operand operands before⟩ ?_
    exact ih (before.append (.cons visited .nil)) (by rw [operands, List.append_assoc]; rfl)

theorem Visit.entered {p q : Progress} {item : Item} {f : Fragment}
    (visit : Visit context p item f q) :
    Rule context
      (fun p' item' f' q' => Visit context p' item' f' q' ∧ context.Enters ⟨p, item⟩ ⟨p', item'⟩)
      p item f q := by
  have single : ∀ {inner : Item} {g : Fragment} {r : Progress}, item.operands = [] ++ [inner] →
      Visit context p inner g r → Visit context p inner g r ∧ context.Enters ⟨p, item⟩ ⟨p, inner⟩ :=
    fun only visited => ⟨visited, .operand only .nil⟩
  cases visit.rule with
  | shapeMissing missing => exact .shapeMissing missing
  | shapeCut found mark => exact .shapeCut found mark
  | shapeReference found new inner =>
    exact .shapeReference found new ⟨inner, .shapeReference found new⟩
  | any => exact .any
  | emptyShape => exact .emptyShape
  | shape inner => exact .shape (single rfl inner)
  | and inner => exact .and (Chain.nil.entered inner rfl)
  | or inner => exact .or (Chain.nil.entered inner rfl)
  | not inner => exact .not (single rfl inner)
  | notEach inner => exact .notEach (Chain.nil.entered inner rfl)
  | node written => exact .node written
  | external => exact .external
  | unsupportedShape => exact .unsupportedShape
  | tripleMissing missing => exact .tripleMissing missing
  | tripleCut found mark => exact .tripleCut found mark
  | tripleReference found new inner =>
    exact .tripleReference found new ⟨inner, .tripleReference found new⟩
  | arcToReference inner => exact .arcToReference ⟨inner, .arcToReference⟩
  | arc => exact .arc
  | arcToNode named written => exact .arcToNode named written
  | nodeWithoutArc unnamed written => exact .nodeWithoutArc unnamed written
  | arcToInline inline inner => exact .arcToInline inline ⟨inner, .arcToInline inline⟩
  | eachOf inner marked => exact .eachOf (Chain.nil.entered inner rfl) marked
  | oneOf inner marked => exact .oneOf (Chain.nil.entered inner rfl) marked
  | unsupportedTriple => exact .unsupportedTriple

/-! ### What a step does to the marks -/

theorem Item.operands_of_target {item : Item} {target : Target}
    (reference : item.target? = some target) : item.operands = [] := by
  cases item with
  | shape focus expr => cases expr <;> first | rfl | cases reference
  | triple subject expr => cases expr <;> first | rfl | cases reference

/-- A step through a reference marks its target, which was not marked; no other
step marks anything. -/
theorem Context.Enters.expanding_eq {a b : Place} (step : context.Enters a b) :
    b.progress.expanding = a.item.target?.toList ++ a.progress.expanding ∧
      ∀ target ∈ a.item.target?, target ∉ a.progress.expanding := by
  cases step with
  | operand operands before =>
    rename_i item front inner back fs
    have plain : item.target? = none := by
      cases reference : item.target? with
      | none => rfl
      | some target =>
        rw [Item.operands_of_target reference] at operands
        cases front <;> cases operands
    simp only [plain]
    exact ⟨before.keeps (·.expanding) Visit.expanding_eq, by rintro target ⟨⟩⟩
  | arcToReference => exact ⟨rfl, by rintro target ⟨⟩⟩
  | arcToInline inline => exact ⟨rfl, by rintro target ⟨⟩⟩
  | shapeReference found new =>
    refine ⟨rfl, ?_⟩
    rintro target ⟨⟩
    exact new
  | tripleReference found new =>
    refine ⟨rfl, ?_⟩
    rintro target ⟨⟩
    exact new

theorem Item.size_operand {item inner : Item} (member : inner ∈ item.operands) :
    inner.size < item.size := by
  cases item with
  | shape focus expr =>
    cases expr with
    | and operands | or operands | notEach operands =>
      obtain ⟨operand, there, rfl⟩ := List.mem_map.mp member
      have smaller := List.sizeOf_lt_of_mem there
      simp only [size, ShapeExpr.and.sizeOf_spec, ShapeExpr.or.sizeOf_spec,
        ShapeExpr.notEach.sizeOf_spec]
      omega
    | not operand =>
      cases List.mem_singleton.mp member
      simp only [size, ShapeExpr.not.sizeOf_spec]
      omega
    | shape expression closed extra =>
      cases expression with
      | none => cases member
      | some expression =>
        cases List.mem_singleton.mp member
        simp only [size, ShapeExpr.shape.sizeOf_spec, Option.some.sizeOf_spec]
        omega
    | _ => cases member
  | triple subject expr =>
    cases expr with
    | eachOf operands bounds id | oneOf operands bounds id =>
      obtain ⟨operand, there, rfl⟩ := List.mem_map.mp member
      have smaller := List.sizeOf_lt_of_mem there
      simp only [size, TripleExpr.eachOf.sizeOf_spec, TripleExpr.oneOf.sizeOf_spec]
      omega
    | _ => cases member

/-- A step that follows no reference goes to a smaller expression, so only
references can lead around in a cycle. -/
theorem Context.Enters.size_lt {a b : Place} (step : context.Enters a b)
    (plain : a.item.target? = none) : b.item.size < a.item.size := by
  cases step with
  | operand operands before => exact Item.size_operand (by rw [operands]; simp)
  | arcToReference =>
    simp only [Item.size, TripleExpr.constraint.sizeOf_spec]
    omega
  | arcToInline inline =>
    simp only [Item.size, TripleExpr.constraint.sizeOf_spec]
    omega
  | shapeReference found new => cases plain
  | tripleReference found new => cases plain

/-! ### The way to a place -/

/-- The marks at a place below are those above and more: the target of a
reference from which the way goes on is one of them. Without more of them, what
is visited is smaller. -/
theorem Context.Enters.marks {a b : Place} (way : TransGen context.Enters a b) :
    ∃ more, b.progress.expanding = more ++ a.progress.expanding ∧
      (∀ target ∈ a.item.target?, target ∈ more) ∧ (more = [] → b.item.size < a.item.size) := by
  induction way with
  | single step =>
    refine ⟨a.item.target?.toList, step.expanding_eq.1, fun target => Option.mem_toList.mpr,
      fun none => ?_⟩
    exact step.size_lt (Option.toList_eq_nil_iff.mp none)
  | tail _ step ih =>
    obtain ⟨more, same, marked, smaller⟩ := ih
    refine ⟨_, by rw [step.expanding_eq.1, same, ← List.append_assoc], fun target there => ?_,
      fun none => ?_⟩
    · exact List.mem_append_right _ (marked target there)
    · obtain ⟨plain, none⟩ := List.append_eq_nil_iff.mp none
      exact Nat.lt_trans (step.size_lt (Option.toList_eq_nil_iff.mp plain)) (smaller none)

/-- No target is marked twice, as a step through a reference only goes to one
that is not marked. -/
theorem Context.Enters.nodup {a b : Place} (way : ReflTransGen context.Enters a b)
    (distinct : a.progress.expanding.Nodup) : b.progress.expanding.Nodup := by
  induction way with
  | refl => exact distinct
  | tail _ step ih =>
    obtain ⟨same, new⟩ := step.expanding_eq
    rw [same]
    cases reference : Item.target? _ with
    | none => exact ih
    | some target => exact List.nodup_cons.mpr ⟨new target reference, ih⟩

/-! ### Labelled expressions -/

/-- An indexed expression is among the labelled expressions of itself. -/
theorem Context.labelled_of_lookup {schema : Schema} (built : Context.ofSchema schema = .ok context)
    {label : String} {expr : TripleExpr} (indexed : context.labels.lookup label = some expr) :
    (Json.string label, expr) ∈ expr.labelled := by
  unfold ofSchema at built
  obtain ⟨index, made, same⟩ := checked_bind_ok built
  cases same
  obtain ⟨front, back, split, -⟩ := List.lookup_eq_some_iff.mp indexed
  have listed : (label, expr) ∈ index := by
    rw [show index = front ++ (label, expr) :: back from split]
    exact List.mem_append_right _ (.head _)
  exact labelledInShapes_self _ (LabelIndex.mem_labelled made listed)

/-- The labelled expressions of an operand are among those of what it stands in. -/
theorem Item.labelled_operand {item inner : Item} (member : inner ∈ item.operands)
    {entry : Labelled} (inside : entry ∈ inner.labelled) : entry ∈ item.labelled := by
  cases item with
  | shape focus expr =>
    cases expr with
    | and operands | or operands | notEach operands =>
      obtain ⟨operand, there, rfl⟩ := List.mem_map.mp member
      rw [Item.labelled, ShapeExpr.labelled]
      exact mem_labelledInShapes there inside
    | not operand =>
      cases List.mem_singleton.mp member
      rwa [Item.labelled, ShapeExpr.labelled]
    | shape expression closed extra =>
      cases expression with
      | none => cases member
      | some expression =>
        cases List.mem_singleton.mp member
        rwa [Item.labelled, ShapeExpr.labelled]
    | _ => cases member
  | triple subject expr =>
    cases expr with
    | eachOf operands bounds id | oneOf operands bounds id =>
      obtain ⟨operand, there, rfl⟩ := List.mem_map.mp member
      rw [Item.labelled, TripleExpr.labelled]
      exact List.mem_append_right _ (mem_labelledInTriples there inside)
    | _ => cases member

/-- The labelled expressions that stand in what a target means. -/
def Context.labelledIn (context : Context) : Target → List Labelled
  | .shape label => ((context.schema.find? label).map (·.expr.labelled)).getD []
  | .tripleExpr label => ((context.labels.lookup label).map (·.labelled)).getD []

/-- What is visited at a place stands in the innermost target on the way. So
all labels that can come up in place are those of one declaration or one
labelled expression. -/
def Context.Within (context : Context) (place : Place) : Prop :=
  ∀ entry ∈ place.item.labelled, ∃ target, place.progress.expanding.head? = some target ∧
    entry ∈ context.labelledIn target

theorem Context.Enters.within {a b : Place} (step : context.Enters a b) (above : context.Within a) :
    context.Within b := by
  cases step with
  | operand operands before =>
    rename_i p q item front inner back fs
    intro entry member
    have kept : q.expanding = p.expanding := before.keeps (·.expanding) Visit.expanding_eq
    simp only [kept]
    exact above entry (Item.labelled_operand (by rw [operands]; simp) member)
  | arcToReference => simp [Within, Item.labelled, ShapeExpr.labelled]
  | arcToInline inline =>
    intro entry member
    refine above entry ?_
    rw [Item.labelled, TripleExpr.labelled]
    exact List.mem_append_right _ member
  | shapeReference found new =>
    rename_i label decl
    exact fun entry member => ⟨.shape label, rfl,
      by simpa [labelledIn, found, Item.labelled] using member⟩
  | tripleReference found new =>
    rename_i label target
    intro entry member
    exact ⟨.tripleExpr label, rfl, by simpa [labelledIn, found, Item.labelled] using member⟩

/-- What is visited stands in the innermost target on the way, all along a way.
Induction on the steps. -/
theorem Context.Enters.within_of_way {a b : Place} (way : ReflTransGen context.Enters a b)
    (above : context.Within a) : context.Within b := by
  induction way with
  | refl => exact above
  | tail _ step ih => exact step.within ih

/-! ### What is expanded below its own expansion -/

/-- The place where the traversal of a schema starts. -/
def Context.Root (context : Context) (progress : Progress) (root : Place) : Prop :=
  ∃ label, context.schema.start.label? = some label ∧
    root = ⟨context.announced progress, .shape none (.reference label)⟩

/-- A target is expanded through a reference: the traversal goes on from the
reference. -/
def Context.Follows (context : Context) (place : Place) (target : Target) : Prop :=
  place.item.target? = some target ∧ ∃ next, context.Enters place next

/-- A triple expression is expanded, in place or through a reference. -/
def Place.Expands (place : Place) (expr : TripleExpr) : Prop :=
  ∃ subject, place.item = .triple subject expr

/-- What is known of a place and one below it on the same way. -/
structure Context.Apart (context : Context) (above below : Place) : Prop where
  /-- No shape, and no labelled expression, is expanded through a reference in both. -/
  references : ∀ target, context.Follows above target → ¬ context.Follows below target
  /-- A labelled expression that is expanded in both stands in two targets, of
  which the inner one was come to in between. -/
  labelled : ∀ {label : String} {expr : TripleExpr}, context.labels.lookup label = some expr →
    above.Expands expr → below.Expands expr →
    ∃ outer inner, above.progress.expanding.head? = some outer ∧
      below.progress.expanding.head? = some inner ∧ inner ∉ above.progress.expanding ∧
      (Json.string label, expr) ∈ context.labelledIn outer ∧
      (Json.string label, expr) ∈ context.labelledIn inner

/-- Two places on one way are apart, if the way starts where the traversal of a
schema does. -/
theorem Context.apart {schema : Schema} (built : Context.ofSchema schema = .ok context)
    {progress : Progress} (idle : progress.expanding = []) {root above below : Place}
    (starts : context.Root progress root) (reached : ReflTransGen context.Enters root above)
    (way : TransGen context.Enters above below) : context.Apart above below := by
  obtain ⟨start, -, rfl⟩ := starts
  have outermost : context.Within ⟨context.announced progress, .shape none (.reference start)⟩ := by
    simp [Within, Item.labelled, ShapeExpr.labelled]
  have bare : (context.announced progress).expanding = [] := by
    rw [context.announced_expanding, idle]
  have reachedBelow := reached.trans way.to_reflTransGen
  have distinct := Enters.nodup reachedBelow (by rw [bare]; exact List.nodup_nil)
  obtain ⟨more, marks, followed, smaller⟩ := Enters.marks way
  constructor
  case references =>
    rintro target ⟨reference, -⟩ ⟨again, next, step⟩
    refine step.expanding_eq.2 target again ?_
    rw [marks]
    exact List.mem_append_left _ (followed target reference)
  case labelled =>
    rintro label expr indexed ⟨subject, here⟩ ⟨subject', there⟩
    have own := Context.labelled_of_lookup built indexed
    obtain ⟨outer, head, stands⟩ := Enters.within_of_way reached outermost (.string label, expr)
      (by rwa [here])
    obtain ⟨inner, headBelow, standsBelow⟩ := Enters.within_of_way reachedBelow outermost
      (.string label, expr) (by rwa [there])
    refine ⟨outer, inner, head, headBelow, ?_, stands, standsBelow⟩
    -- the same expression again is no smaller, so a reference was followed in between
    cases more with
    | nil =>
      have less := smaller rfl
      rw [here, there] at less
      exact absurd less (Nat.lt_irrefl _)
    | cons first rest =>
      rw [marks] at headBelow distinct
      cases headBelow
      exact fun twice => (List.nodup_cons.mp distinct).1 (List.mem_append_right _ twice)

/-- A start that is found is the label of the schema, and only the imports have
been announced by then. -/
theorem Context.startShape_some {progress middle : Progress} {label : String} {decl : ShapeDecl}
    (begun : context.startShape progress = .ok (some (label, decl)) middle) :
    context.schema.start.label? = some label ∧ middle = context.announced progress := by
  rcases context.startShape_cases progress with
    ⟨name, decl, start, -, found⟩ | ⟨-, -, d, -, found⟩ | ⟨codes, -, -, found⟩
  · cases found.symm.trans begun
    rw [start]
    exact ⟨rfl, rfl⟩
  · cases found.symm.trans begun
  · cases found.symm.trans begun

/-- A run that gives a group has visited the place where the traversal starts. -/
theorem Context.startGroup_rooted {progress after : Progress} {group : Group}
    (success : context.startGroup progress = .ok (some group) after) :
    ∃ root f, context.Root progress root ∧ Visit context root.progress root.item f after := by
  unfold startGroup at success
  obtain ⟨found, middle, begun, success⟩ := bind_ok success
  cases found with
  | none => cases success
  | some declared =>
    obtain ⟨start, rfl⟩ := startShape_some begun
    obtain ⟨f, visited, run, success⟩ := bind_ok success
    cases success
    exact ⟨_, f, ⟨_, start, rfl⟩, (linksTo_visit context context.targetCount).shape run⟩

/-- Every run goes from place to place, and on each way no target is expanded
through a reference below its own expansion through a reference. A labelled
expression that is expanded again below itself was come to through a target
that it stands in and that was not on the way before. -/
theorem expansions_apart {schema : Schema} (built : Context.ofSchema schema = .ok context)
    {progress : Progress} (idle : progress.expanding = []) :
    (∀ {group after}, context.startGroup progress = .ok (some group) after →
      ∃ root f, context.Root progress root ∧ Visit context root.progress root.item f after) ∧
    (∀ {place : Place} {f q}, Visit context place.progress place.item f q →
      Rule context (fun p' item' f' q' => Visit context p' item' f' q' ∧
        context.Enters place ⟨p', item'⟩)
        place.progress place.item f q) ∧
    ∀ {root above below : Place}, context.Root progress root →
      ReflTransGen context.Enters root above → TransGen context.Enters above below →
      context.Apart above below :=
  ⟨Context.startGroup_rooted, Visit.entered, Context.apart built idle⟩

def loop : TripleExpr :=
  .eachOf [.constraint (.string "p") false .any {} .null, .reference "l"] {} (.string "l")

def loopSchema : Schema where
  shapes := [⟨.string "S", .shape (some loop) false [], false⟩]
  start := .label "S"

/-- The group is expanded in place, and once more below that, through its own
reference. -/
theorem expansions_apart_loop :
    ∃ context root above below, Context.ofSchema loopSchema = .ok context ∧ context.Root {} root ∧
      ReflTransGen context.Enters root above ∧ TransGen context.Enters above below ∧
      context.labels.lookup "l" = some loop ∧ above.Expands loop ∧ below.Expands loop ∧
      context.Apart above below := by
  let context : Context := ⟨loopSchema, [("l", loop)]⟩
  let shaped : Progress := { expanding := [.shape "S"] }
  have built : Context.ofSchema loopSchema = .ok context := rfl
  have starts : context.Root {} ⟨{}, .shape none (.reference "S")⟩ := ⟨"S", rfl, rfl⟩
  have declared : context.schema.find? "S" =
    some ⟨.string "S", .shape (some loop) false [], false⟩ := rfl
  have opened : context.Enters ⟨{}, .shape none (.reference "S")⟩
      ⟨shaped, .shape (some (stableVariable "S")) (.shape (some loop) false [])⟩ :=
    .shapeReference declared List.not_mem_nil
  have inside : context.Enters ⟨shaped,
    .shape (some (stableVariable "S")) (.shape (some loop) false [])⟩
      ⟨shaped, .triple (stableVariable "S") loop⟩ := .operand (List.nil_append _).symm .nil
  have referred : context.Enters ⟨shaped, .triple (stableVariable "S") loop⟩
      ⟨shaped.counting, .triple (stableVariable "S") (.reference "l")⟩ :=
    .operand List.singleton_append.symm (.cons (.intro .arc) .nil)
  have again : context.Enters ⟨shaped.counting, .triple (stableVariable "S") (.reference "l")⟩
      ⟨shaped.counting.entering (.tripleExpr "l"), .triple (stableVariable "S") loop⟩ :=
    .tripleReference rfl (by decide)
  have reached := (ReflTransGen.single opened).tail inside
  have way := (TransGen.single referred).tail again
  exact ⟨context, _, _, _, built, starts, reached, way, rfl, ⟨_, rfl⟩, ⟨_, rfl⟩,
    (expansions_apart built rfl).2.2 starts reached way⟩

end Compile

end ShapeQuery
