import ShapeQuery.Compile.Expansion
import Mathlib.Data.Finset.Card
import Mathlib.Data.Finset.SDiff

/-!
The guard against endless expansion. What is being expanded grows by one target with each reference
that is followed, so references nest at most as deep as there are targets left. The limit on the
depth is then never reached, every larger limit gives the same outcome, and a walk leaves what is
being expanded as it found it, with a result or with a fault.
-/
namespace ShapeQuery.Compile

/-- The targets that references of a schema can lead to. -/
def Context.targets (context : Context) : List Target :=
  context.schema.shapes.filterMap (fun decl => decl.id.string?.map .shape) ++
    context.labels.map (fun entry => .tripleExpr entry.1)

/-- The number of targets, each counted once, that are not being expanded. It
goes down with every reference that is followed. -/
def Context.unexpanded (context : Context) (expanding : List Target) : Nat :=
  (context.targets.toFinset \ expanding.toFinset).card

def Context.linksTo (context : Context) (depth : Nat) : Links :=
  ⟨expandShape context depth, expandTripleExpr context depth⟩

theorem Context.shape_mem_targets {context : Context} {label : String} {decl : ShapeDecl}
    (found : context.schema.find? label = some decl) : .shape label ∈ context.targets := by
  have member := List.mem_of_find?_eq_some found
  have named : decl.id = .string label := by
    have accepted := List.find?_some found
    cases id : decl.id with
    | string name => simpa [Json.isString, id] using accepted
    | _ => simp [Json.isString, id] at accepted
  apply List.mem_append_left
  exact List.mem_filterMap.mpr ⟨decl, member, by rw [named]; rfl⟩

theorem Context.tripleExpr_mem_targets {context : Context} {label : String} {target : TripleExpr}
    (found : context.labels.lookup label = some target) : .tripleExpr label ∈ context.targets := by
  apply List.mem_append_right
  have member := List.lookup_eq_some_iff.mp found
  obtain ⟨front, back, split, -⟩ := member
  exact List.mem_map.mpr ⟨(label, target), by simp [split], rfl⟩

/-- Following a reference to a new target leaves fewer of them. -/
theorem Context.unexpanded_cons_lt {context : Context} {target : Target} {expanding : List Target}
    (member : target ∈ context.targets) (new : target ∉ expanding) :
    context.unexpanded (target :: expanding) < context.unexpanded expanding := by
  apply Finset.card_lt_card
  rw [Finset.ssubset_iff_of_subset]
  · exact ⟨target, by simp [member, new], by simp⟩
  · apply Finset.sdiff_subset_sdiff (Finset.Subset.refl _)
    intro other belongs
    simp only [List.toFinset_cons, Finset.mem_insert]
    exact Or.inr belongs

/-- There are never more targets left than there are targets. -/
theorem Context.unexpanded_le_targetCount (context : Context) (expanding : List Target) :
    context.unexpanded expanding ≤ context.targetCount := by
  calc
    context.unexpanded expanding ≤ context.targets.toFinset.card :=
      Finset.card_le_card Finset.sdiff_subset
    _ ≤ context.targets.length := List.toFinset_card_le _
    _ ≤ context.targetCount := by
      simp only [targets, targetCount, List.length_append, List.length_map]
      have shapes := List.length_filterMap_le
        (fun decl : ShapeDecl => decl.id.string?.map Target.shape)
        context.schema.shapes
      omega

def finalState {α : Type} : EStateM.Result Fault Progress α → Progress
  | .ok _ after => after
  | .error _ after => after

def endsTooDeep {α : Type} : EStateM.Result Fault Progress α → Bool
  | .error .nestedTooDeep _ => true
  | _ => false

/-- Two walks agree from every state with the same targets being expanded.
Neither ends because of its depth, and afterwards the same targets are being
expanded again. -/
def Settled {α : Type} (expanding : List Target) (walk other : Walk α) : Prop :=
  ∀ progress : Progress, progress.expanding = expanding →
    walk progress = other progress ∧ (finalState (walk progress)).expanding = expanding ∧
      endsTooDeep (walk progress) = false

/-- When a walk ends, the mark of its target is taken away from those that are left. -/
theorem whileExpanding_expanding {α : Type} (target : Target) (walk : Walk α)
    (progress : Progress) :
    (finalState (Walk.whileExpanding target walk progress)).expanding =
      (finalState (walk
        { progress with expanding := target :: progress.expanding })).expanding.erase target := by
  unfold Walk.whileExpanding
  cases walk { progress with expanding := target :: progress.expanding } <;> rfl

theorem whileExpanding_tooDeep {α : Type} (target : Target) (walk : Walk α) (progress : Progress) :
    endsTooDeep (Walk.whileExpanding target walk progress) =
      endsTooDeep (walk { progress with expanding := target :: progress.expanding }) := by
  unfold Walk.whileExpanding
  cases walk { progress with expanding := target :: progress.expanding } with
  | ok result after => rfl
  | error fault after => cases fault <;> rfl

namespace Settled

variable {α β : Type} {expanding : List Target}

theorem pure (result : α) : Settled expanding (Pure.pure result) (Pure.pure result) := by
  intro progress same
  exact ⟨rfl, same, rfl⟩

/-- Two walks in a row agree if the first ones do and the second ones do for
every result. -/
theorem bind {walk other : Walk α} {next nextOther : α → Walk β}
    (first : Settled expanding walk other)
    (second : ∀ result, Settled expanding (next result) (nextOther result)) :
    Settled expanding (walk >>= next) (other >>= nextOther) := by
  intro progress same
  obtain ⟨agree, restored, shallow⟩ := first progress same
  simp only [Bind.bind, EStateM.bind, ← agree]
  cases outcome : walk progress with
  | ok result after =>
    rw [outcome] at restored
    exact second result after restored
  | error fault after =>
    rw [outcome] at restored shallow
    cases fault with
    | misuse | unencodable => exact ⟨rfl, restored, rfl⟩
    | nestedTooDeep => cases shallow

theorem fresh : Settled expanding Walk.fresh Walk.fresh := by
  intro progress same
  exact ⟨rfl, same, rfl⟩

theorem report (diagnostic : Diagnostic) :
    Settled expanding (Walk.report diagnostic) (Walk.report diagnostic) := by
  intro progress same
  exact ⟨rfl, same, rfl⟩

theorem use (checked : Checked α) : Settled expanding (Walk.use checked) (Walk.use checked) := by
  intro progress same
  cases checked with
  | ok result => exact ⟨rfl, same, rfl⟩
  | error misuse => exact ⟨rfl, same, rfl⟩

/-- The mark is taken away again, also after a fault. -/
theorem whileExpanding {target : Target} {walk other : Walk α}
    (inner : Settled (target :: expanding) walk other) :
    Settled expanding (Walk.whileExpanding target walk) (Walk.whileExpanding target other) := by
  intro progress same
  obtain ⟨agree, restored, shallow⟩ :=
    inner { progress with expanding := target :: progress.expanding } (by rw [same])
  refine ⟨?_, ?_, ?_⟩
  · unfold Walk.whileExpanding
    rw [agree]
  · rw [whileExpanding_expanding, restored]
    exact List.erase_cons_head target expanding
  · rw [whileExpanding_tooDeep]
    exact shallow

end Settled

/-- Two ways of following references that agree while some targets are being
expanded. -/
structure LinksSettled (expanding : List Target) (links other : Links) : Prop where
  shape : ∀ label focus, Settled expanding (links.shape label focus) (other.shape label focus)
  tripleExpr : ∀ label subject,
    Settled expanding (links.tripleExpr label subject) (other.tripleExpr label subject)

theorem nodeLines_settled {expanding : List Target} (nc : NodeConstraint) (subject : String)
    (predicate : Json) (inverse : Bool) :
    Settled expanding (nodeLines nc subject predicate inverse)
      (nodeLines nc subject predicate inverse) := by
  unfold nodeLines
  split
  · exact .use _
  · exact .bind .fresh fun object => .bind (.use _) fun lines => .pure _

section Expressions

variable {expanding : List Target} {links other : Links}

mutual

/-- Fragments of shape expressions agree if references are followed alike.
Induction on the expression, together with triple expressions and lists of
both. -/
theorem shapeFragment_settled (follow : LinksSettled expanding links other) (focus : Focus) :
    ∀ expr, Settled expanding (shapeFragment links focus expr) (shapeFragment other focus expr)
  | .reference label => by
    rw [shapeFragment, shapeFragment]
    exact follow.shape label focus
  | .any => by
    rw [shapeFragment, shapeFragment]
    exact .bind (.report _) fun _ => .pure _
  | .shape none _ _ => by
    rw [shapeFragment, shapeFragment]
    exact .pure _
  | .shape (some expression) _ _ => by
    rw [shapeFragment, shapeFragment]
    exact .bind (tripleFragment_settled follow focus.text expression) fun _ => .pure _
  | .and operands => by
    rw [shapeFragment, shapeFragment]
    exact .bind (gatherShapes_settled follow focus {} operands) fun _ => .pure _
  | .or operands => by
    rw [shapeFragment, shapeFragment]
    exact .bind (gatherAlternatives_settled follow focus {} operands) fun _ => .pure _
  | .not operand => by
    rw [shapeFragment, shapeFragment]
    exact .bind (shapeFragment_settled follow focus operand) fun _ => .pure _
  | .notEach operands => by
    rw [shapeFragment, shapeFragment]
    exact .bind (gatherShapes_settled follow focus _ operands) fun _ => .pure _
  | .node nc => by
    rw [shapeFragment, shapeFragment]
    exact .bind (nodeLines_settled nc focus.text .null false) fun _ => .pure _
  | .external => by
    rw [shapeFragment, shapeFragment]
    exact .bind (.report _) fun _ => .pure _
  | .unsupported typeName => by
    rw [shapeFragment, shapeFragment]
    exact .bind (.report _) fun _ => .pure _

theorem gatherShapes_settled (follow : LinksSettled expanding links other) (focus : Focus)
    (group : Group) :
    ∀ operands, Settled expanding (gatherShapes links focus group operands)
      (gatherShapes other focus group operands)
  | [] => by
    rw [gatherShapes, gatherShapes]
    exact .pure _
  | operand :: rest => by
    rw [gatherShapes, gatherShapes]
    exact .bind (shapeFragment_settled follow focus operand) fun inner =>
      gatherShapes_settled follow focus _ rest

/-- The alternatives of a disjunction agree operand by operand. -/
theorem gatherAlternatives_settled (follow : LinksSettled expanding links other) (focus : Focus)
    (alternatives : Alternatives) : ∀ operands,
    Settled expanding (gatherAlternatives links focus alternatives operands)
      (gatherAlternatives other focus alternatives operands)
  | [] => by
    rw [gatherAlternatives, gatherAlternatives]
    exact .pure _
  | operand :: rest => by
    rw [gatherAlternatives, gatherAlternatives]
    exact .bind (shapeFragment_settled follow focus operand) fun inner =>
      gatherAlternatives_settled follow focus _ rest

/-- Fragments of triple expressions agree, in the same induction. -/
theorem tripleFragment_settled (follow : LinksSettled expanding links other) (subject : String) :
    ∀ expr, Settled expanding (tripleFragment links subject expr)
      (tripleFragment other subject expr)
  | .reference label => by
    rw [tripleFragment, tripleFragment]
    exact follow.tripleExpr label subject
  | .constraint predicate inverse value bounds id => by
    unfold tripleFragment
    have nested : ∀ object, Settled expanding (shapeFragment links (some object) value)
        (shapeFragment other (some object) value) :=
      fun object => shapeFragment_settled follow (some object) value
    cases value with
    | reference label => exact .bind (follow.shape label _) fun _ => .pure _
    | any => exact .bind .fresh fun _ => .pure _
    | node nc => exact .bind (nodeLines_settled nc subject predicate inverse) fun _ => .pure _
    | _ => exact .bind .fresh fun object => .bind (nested object) fun _ => .pure _
  | .eachOf operands bounds id => by
    rw [tripleFragment, tripleFragment]
    exact .bind (gatherTriples_settled follow subject {} operands) fun _ =>
      .bind (.use _) fun _ => .pure _
  | .oneOf operands bounds id => by
    rw [tripleFragment, tripleFragment]
    exact .bind (gatherBranches_settled follow subject {} operands) fun _ =>
      .bind (.use _) fun _ => .pure _
  | .unsupported typeName => by
    rw [tripleFragment, tripleFragment]
    exact .bind (.report _) fun _ => .pure _

theorem gatherTriples_settled (follow : LinksSettled expanding links other) (subject : String)
    (group : Group) : ∀ operands,
    Settled expanding (gatherTriples links subject group operands)
      (gatherTriples other subject group operands)
  | [] => by
    rw [gatherTriples, gatherTriples]
    exact .pure _
  | operand :: rest => by
    rw [gatherTriples, gatherTriples]
    exact .bind (tripleFragment_settled follow subject operand) fun inner =>
      gatherTriples_settled follow subject _ rest

theorem gatherBranches_settled (follow : LinksSettled expanding links other) (subject : String)
    (group : Group) : ∀ operands,
    Settled expanding (gatherBranches links subject group operands)
      (gatherBranches other subject group operands)
  | [] => by
    rw [gatherBranches, gatherBranches]
    exact .pure _
  | operand :: rest => by
    rw [gatherBranches, gatherBranches]
    exact .bind (tripleFragment_settled follow subject operand) fun inner =>
      gatherBranches_settled follow subject _ rest

end

end Expressions

/-- The step to a target that exists: it is cut off on the way to itself, and
takes one level of the depth otherwise. -/
def guarded (target : Target) (cut : Diagnostic) (body : Nat → Walk Fragment) (depth : Nat) :
    Walk Fragment := do
  if ← Walk.isExpanding target then
    Walk.report cut
    return {}
  else
    match depth with
    | 0 => throw .nestedTooDeep
    | depth + 1 => Walk.whileExpanding target (body depth)

/-- Expanding a shape is the guarded step to it, if it is declared. -/
theorem expandShape_eq (context : Context) (depth : Nat) (label : String) (focus : Focus) :
    expandShape context depth label focus =
      match context.schema.find? label with
      | none => do
        Walk.report (.shapeNotDeclared label)
        return {}
      | some decl =>
        guarded (.shape label) (.recursiveShape label) (fun depth =>
          shapeFragment (context.linksTo depth)
            (some (focus.getD (stableVariable label))) decl.expr)
          depth := by
  cases depth <;> rw [expandShape] <;> cases context.schema.find? label <;> rfl

theorem expandTripleExpr_eq (context : Context) (depth : Nat) (label subject : String) :
    expandTripleExpr context depth label subject =
      match context.labels.lookup label with
      | none => do
        Walk.report (.tripleExprNotDefined label)
        return {}
      | some target =>
        guarded (.tripleExpr label) (.recursiveTripleExpr label) (fun depth =>
          tripleFragment (context.linksTo depth) subject target) depth := by
  cases depth <;> rw [expandTripleExpr] <;> cases context.labels.lookup label <;> rfl

theorem Walk.isExpanding_eq (target : Target) (progress : Progress) :
    Walk.isExpanding target progress = .ok (progress.expanding.contains target) progress := rfl

/-- On the way to itself a target is cut off, with a note, and nothing is
contributed. -/
theorem guarded_of_mem {target : Target} {progress : Progress} (cut : Diagnostic)
    (body : Nat → Walk Fragment) (depth : Nat) (member : target ∈ progress.expanding) :
    guarded target cut body depth progress =
      .ok {} { progress with diagnostics := progress.diagnostics ++ [cut] } := by
  have cutOff : progress.expanding.contains target = true := List.contains_iff_mem.mpr member
  simp only [guarded, bind, EStateM.bind, Walk.isExpanding_eq, cutOff, if_true]
  rfl

theorem guarded_zero {target : Target} {progress : Progress} (cut : Diagnostic)
    (body : Nat → Walk Fragment) (new : target ∉ progress.expanding) :
    guarded target cut body 0 progress = .error .nestedTooDeep progress := by
  have free : progress.expanding.contains target = false := by simpa using new
  simp only [guarded, bind, EStateM.bind, Walk.isExpanding_eq, free]
  rfl

/-- A new target is expanded while it is marked, with one level less. -/
theorem guarded_of_not_mem {target : Target} {progress : Progress} (cut : Diagnostic)
    (body : Nat → Walk Fragment) (depth : Nat) (new : target ∉ progress.expanding) :
    guarded target cut body (depth + 1) progress =
      Walk.whileExpanding target (body depth) progress := by
  have free : progress.expanding.contains target = false := by simpa using new
  simp only [guarded, bind, EStateM.bind, Walk.isExpanding_eq, free, Bool.false_eq_true, if_false]

/-- The guarded step agrees for any two depths that suffice, if what it leads
to does for smaller ones. -/
theorem guarded_settled {context : Context} {target : Target} {expanding : List Target}
    {cut : Diagnostic} {body : Nat → Walk Fragment} {depth other : Nat}
    (member : target ∈ context.targets) (enough : context.unexpanded expanding ≤ depth)
    (enoughOther : context.unexpanded expanding ≤ other)
    (inner : ∀ below belowOther, depth = below + 1 → other = belowOther + 1 →
      context.unexpanded (target :: expanding) ≤ below →
      context.unexpanded (target :: expanding) ≤ belowOther →
      Settled (target :: expanding) (body below) (body belowOther)) :
    Settled expanding (guarded target cut body depth) (guarded target cut body other) := by
  intro progress same
  by_cases mark : target ∈ progress.expanding
  · rw [guarded_of_mem cut body depth mark, guarded_of_mem cut body other mark]
    exact ⟨rfl, same, rfl⟩
  · have fewer := Context.unexpanded_cons_lt member (same ▸ mark)
    obtain ⟨below, rfl⟩ : ∃ below, depth = below + 1 := ⟨depth - 1, by omega⟩
    obtain ⟨belowOther, rfl⟩ : ∃ below, other = below + 1 := ⟨other - 1, by omega⟩
    rw [guarded_of_not_mem cut body below mark, guarded_of_not_mem cut body belowOther mark]
    have settled := inner below belowOther rfl rfl (by omega) (by omega)
    exact Settled.whileExpanding settled progress same

/-- Following references up to any two depths that suffice comes to the same.
The induction is on the first depth: each reference that is followed uses up
one level of it and one of the targets left. -/
theorem linksTo_settled (context : Context) (depth : Nat) :
    ∀ (other : Nat) (expanding : List Target), context.unexpanded expanding ≤ depth →
      context.unexpanded expanding ≤ other →
      LinksSettled expanding (context.linksTo depth) (context.linksTo other) := by
  induction depth using Nat.strongRecOn with
  | ind depth ih =>
    intro other expanding enough enoughOther
    refine ⟨fun label focus => ?_, fun label subject => ?_⟩
    · simp only [Context.linksTo, expandShape_eq]
      cases found : context.schema.find? label with
      | none => exact .bind (.report _) fun _ => .pure _
      | some decl =>
        refine guarded_settled (Context.shape_mem_targets found) enough enoughOther ?_
        intro below belowOther hbelow _ left leftOther
        exact shapeFragment_settled (ih below (by omega) belowOther _ left leftOther) _ _
    · simp only [Context.linksTo, expandTripleExpr_eq]
      cases found : context.labels.lookup label with
      | none => exact .bind (.report _) fun _ => .pure _
      | some target =>
        refine guarded_settled (Context.tripleExpr_mem_targets found) enough enoughOther ?_
        intro below belowOther hbelow _ left leftOther
        exact tripleFragment_settled (ih below (by omega) belowOther _ left leftOther) _ _

inductive Call where
  | shape (label : String) (focus : Focus)
  | shapeExpr (expr : ShapeExpr) (focus : Focus)
  | tripleExpr (expr : TripleExpr) (subject : String)

def Call.walk (links : Links) : Call → Walk Fragment
  | .shape label focus => links.shape label focus
  | .shapeExpr expr focus => shapeFragment links focus expr
  | .tripleExpr expr subject => tripleFragment links subject expr

theorem Call.walk_settled {expanding : List Target} {links other : Links}
    (follow : LinksSettled expanding links other) (call : Call) :
    Settled expanding (call.walk links) (call.walk other) := by
  cases call with
  | shape label focus => exact follow.shape label focus
  | shapeExpr expr focus => exact shapeFragment_settled follow focus expr
  | tripleExpr expr subject => exact tripleFragment_settled follow subject expr

/-- The links of a context agree with those of every depth that suffices for
the targets not yet expanded. -/
theorem Call.walk_links_settled (context : Context) (call : Call) (expanding : List Target)
    (depth : Nat) (enough : context.unexpanded expanding ≤ depth) :
    Settled expanding (call.walk context.links) (call.walk (context.linksTo depth)) := by
  have most := context.unexpanded_le_targetCount expanding
  exact Call.walk_settled (linksTo_settled context context.targetCount depth _ most enough) call

/-- Every call comes to an end with references nested no deeper than there are
targets left: with any limit from there on the outcome is the same, and it is
not the fault of a limit that is too small. Whatever the outcome, the same
targets are being expanded afterwards as before. -/
theorem call_ends_and_restores (context : Context) (call : Call) (progress : Progress) :
    (∀ more, call.walk (context.linksTo (context.unexpanded progress.expanding + more)) progress =
      call.walk context.links progress) ∧
    endsTooDeep (call.walk context.links progress) = false ∧
    (finalState (call.walk context.links progress)).expanding = progress.expanding := by
  have settled : ∀ more, Settled progress.expanding (call.walk context.links)
      (call.walk (context.linksTo (context.unexpanded progress.expanding + more))) := by
    intro more
    exact Call.walk_links_settled context call _ _ (Nat.le_add_right _ more)
  obtain ⟨-, restored, shallow⟩ := settled 0 progress rfl
  refine ⟨?_, shallow, restored⟩
  intro more
  exact (settled more progress rfl).1.symm

end ShapeQuery.Compile
