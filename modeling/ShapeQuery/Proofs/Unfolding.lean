import ShapeQuery.Proofs.Change
import ShapeQuery.Proofs.References

/-!
Plain unfolding: every reference is followed, and nothing is kept in mind about the way. It comes to
an end if the references do, and then the guard against endless expansion makes no difference.
-/
namespace ShapeQuery.Compile

mutual

/-- The fragment of a declared shape with every reference followed, nested at
most `depth` deep. No target is remembered on the way. -/
def unfoldShape (context : Context) (depth : Nat) (label : String) (focus : Focus) :
    Walk Fragment :=
  match context.schema.find? label with
  | none => do
    Walk.report (.shapeNotDeclared label)
    return {}
  | some decl =>
    match depth with
    | 0 => throw .nestedTooDeep
    | depth + 1 =>
      shapeFragment ⟨unfoldShape context depth, unfoldTripleExpr context depth⟩
        (some (focus.getD (stableVariable label))) decl.expr
termination_by structural depth

/-- The fragment of a labelled triple expression with every reference followed,
nested at most `depth` deep. -/
def unfoldTripleExpr (context : Context) (depth : Nat) (label subject : String) : Walk Fragment :=
  match context.labels.lookup label with
  | none => do
    Walk.report (.tripleExprNotDefined label)
    return {}
  | some target =>
    match depth with
    | 0 => throw .nestedTooDeep
    | depth + 1 =>
      tripleFragment ⟨unfoldShape context depth, unfoldTripleExpr context depth⟩ subject target
termination_by structural depth

end

namespace Context

def plainLinks (context : Context) (depth : Nat) : Links :=
  ⟨unfoldShape context depth, unfoldTripleExpr context depth⟩

/-- The group of the start shape by plain unfolding, if the schema has a usable one. -/
def plainGroup (context : Context) (depth : Nat) : Walk (Option Group) := do
  match ← context.startShape with
  | none => return none
  | some (label, _) =>
    let fragment ← (context.plainLinks depth).shape label none
    return some (fragment.group.addLines fragment.loose)

end Context

/-- What is being expanded is forgotten, and nothing else changes. -/
def forgetting (expanding : List Target) : Change where
  admits p := p.expanding = expanding
  state p := { p with expanding := [] }
  text := id
  noting _ same := ⟨same, rfl⟩
  counting same := ⟨same, rfl, rfl⟩
  stable _ := rfl
  absent := rfl
  empty _ := Iff.rfl
  filter _ := rfl
  merge _ _ := by rw [List.map_id, id]

theorem forgetting_fragment (expanding : List Target) :
    (forgetting expanding).fragment = id := by
  funext f
  have same := Group.mapText_id f.group
  simp only [Change.fragment, forgetting, same, List.map_id, id]

theorem forgetting_keepsPredicate (expanding : List Target) (predicate : Json) :
    (forgetting expanding).KeepsPredicate predicate :=
  fun _ _ _ => rfl

/-- A node constraint is not concerned with what is being expanded. -/
theorem forgetting_keepsNode (expanding : List Target) (nc : NodeConstraint) :
    (forgetting expanding).KeepsNode nc := by
  intro var
  have same : List.map (forgetting expanding).text = id := List.map_id_fun
  rw [same]
  change constraintLines nc var = (constraintLines nc var).map id
  cases constraintLines nc var <;> rfl

/-- The step to a target that is new differs from the plain step only by what
is being expanded. -/
theorem carries_guarded {expanding : List Target} {target : Target} {cut : Diagnostic}
    {body : Nat → Walk Fragment} {depth : Nat} {plain : Walk Fragment} (new : target ∉ expanding)
    (inner : (forgetting (target :: expanding)).Carries (fun _ => True) id (body depth) plain) :
    (forgetting expanding).Carries (fun _ => True) id
      (guarded target cut body (depth + 1)) plain := by
  intro p same
  change p.expanding = expanding at same
  have here := inner (p.entering target) (by rw [Progress.entering, same]; rfl)
  rw [guarded_of_not_mem cut body depth (by rwa [same])]
  unfold Walk.whileExpanding
  unfold Progress.entering at here
  cases outcome : body depth { p with expanding := target :: p.expanding } with
  | ok f q =>
    rw [outcome] at here
    obtain ⟨marked, -, result⟩ := here
    change q.expanding = target :: expanding at marked
    refine ⟨?_, trivial, result⟩
    change q.expanding.erase target = expanding
    rw [marked, List.erase_cons_head]
  | error fault q =>
    rw [outcome] at here
    obtain ⟨marked, result⟩ := here
    change q.expanding = target :: expanding at marked
    refine ⟨?_, result⟩
    change q.expanding.erase target = expanding
    rw [marked, List.erase_cons_head]

theorem unfoldShape_missing {context : Context} {label : String}
    (missing : context.schema.find? label = none) (depth : Nat) (focus : Focus) :
    unfoldShape context depth label focus = do
      Walk.report (.shapeNotDeclared label)
      return {} := by
  cases depth <;> rw [unfoldShape, missing]

/-- With depth left, a declared shape is walked through, its references with
one level less. -/
theorem unfoldShape_succ {context : Context} {label : String} {decl : ShapeDecl}
    (found : context.schema.find? label = some decl) (depth : Nat) (focus : Focus) :
    unfoldShape context (depth + 1) label focus =
      shapeFragment (context.plainLinks depth) (some (focus.getD (stableVariable label)))
        decl.expr := by
  rw [unfoldShape, found]
  rfl

theorem unfoldTripleExpr_missing {context : Context} {label : String}
    (missing : context.labels.lookup label = none) (depth : Nat) (subject : String) :
    unfoldTripleExpr context depth label subject = do
      Walk.report (.tripleExprNotDefined label)
      return {} := by
  cases depth <;> rw [unfoldTripleExpr, missing]

theorem unfoldTripleExpr_succ {context : Context} {label : String} {target : TripleExpr}
    (found : context.labels.lookup label = some target) (depth : Nat) (subject : String) :
    unfoldTripleExpr context (depth + 1) label subject =
      tripleFragment (context.plainLinks depth) subject target := by
  rw [unfoldTripleExpr, found]
  rfl

/-- Where nothing is cut off, the guarded and the plain way of following a
reference differ only by what is being expanded. The induction is on the first
depth: each reference that is followed uses up one level of both depths and one
of the targets left. -/
theorem keeps_reference_of_not_cut {context : Context} (depth : Nat) :
    ∀ (other : Nat) (expanding : List Target) (target : Target),
      context.unexpanded expanding ≤ depth → context.unexpanded expanding ≤ other →
      (∀ d, d.isRecursive = true → ¬ context.Notes expanding target d) →
      (forgetting expanding).Keeps (context.linksTo depth) (context.plainLinks other)
        (.reference target) := by
  induction depth using Nat.strongRecOn with
  | ind depth ih =>
    intro other expanding target enough enoughOther quiet
    -- One level further in, the leaves of what the target stands for are treated the same way.
    have step : ∀ leaves, context.resolve target = some leaves →
        target ∉ expanding ∧ ∃ below belowOther, depth = below + 1 ∧ other = belowOther + 1 ∧
          ∀ leaf ∈ leaves, (forgetting (target :: expanding)).Keeps (context.linksTo below)
            (context.plainLinks belowOther) leaf := by
      intro leaves found
      have new : target ∉ expanding := fun mark =>
        quiet target.cut target.cut_isRecursive (.cut found mark)
      have fewer := context.unexpanded_cons_lt (Context.mem_targets_of_resolve found) new
      refine ⟨new, depth - 1, other - 1, by omega, by omega, fun leaf member => ?_⟩
      cases leaf with
      | reference next =>
        refine ih _ (by omega) _ _ next (by omega) (by omega) fun d recursive notes => ?_
        exact quiet d recursive (.inside found new member notes)
      | predicate name => exact forgetting_keepsPredicate _ name
      | node nc => exact forgetting_keepsNode _ nc
      | _ => trivial
    cases target with
    | shape label =>
      intro focus
      simp only [Context.linksTo, Context.plainLinks, expandShape_eq]
      cases found : context.schema.find? label with
      | none =>
        rw [unfoldShape_missing found]
        exact .nothing _
      | some decl =>
        obtain ⟨new, below, belowOther, rfl, rfl, kept⟩ := step _ (context.resolve_decl found)
        rw [unfoldShape_succ found, forgetting_fragment]
        refine carries_guarded new ?_
        have inner := Change.carries_shapeFragment (some (focus.getD (stableVariable label))) kept
        rw [forgetting_fragment] at inner
        have same : focus.map (forgetting expanding).text = focus := Option.map_id_apply
        rw [same]
        exact inner
    | tripleExpr label =>
      intro subject
      simp only [Context.linksTo, Context.plainLinks, expandTripleExpr_eq]
      cases found : context.labels.lookup label with
      | none =>
        rw [unfoldTripleExpr_missing found]
        exact .nothing _
      | some expr =>
        obtain ⟨new, below, belowOther, rfl, rfl, kept⟩ := step _ (context.resolve_label found)
        rw [unfoldTripleExpr_succ found, forgetting_fragment]
        refine carries_guarded new ?_
        have inner := Change.carries_tripleFragment subject kept
        rw [forgetting_fragment] at inner
        exact inner

/-- Without a cycle in reach, the start shape is walked with and without the
guard alike. -/
theorem plainGroup_of_shape {context : Context} {label : String}
    (start : context.schema.start = .label label) {decl : ShapeDecl}
    (declared : context.schema.find? label = some decl)
    (acyclic : ¬ context.ReachesCycle (.shape label)) {p q : Progress} (idle : p.expanding = [])
    {f : Fragment} (visited : context.shape label none (context.announced p) = .ok f q)
    (more : Nat) :
    context.plainGroup (context.targetCount + more) p =
      .ok (some (f.group.addLines f.loose)) q := by
  have most := context.unexpanded_le_targetCount []
  have kept : (forgetting []).Keeps (context.linksTo context.targetCount)
      (context.plainLinks (context.targetCount + more)) (.reference (.shape label)) := by
    refine keeps_reference_of_not_cut _ _ [] _ most (by omega) fun d recursive notes => ?_
    exact acyclic (context.cut_iff_reachesCycle _ |>.mp ⟨d, notes, recursive⟩)
  have idleNow : (context.announced p).expanding = [] := by rw [context.announced_expanding, idle]
  obtain ⟨idleAfter, -, same⟩ := (kept none).of_ok idleNow visited
  have unchanged : ∀ p : Progress, p.expanding = [] → (forgetting []).state p = p := by
    rintro ⟨fresh, diagnostics, expanding⟩ rfl
    rfl
  rw [unchanged _ idleNow, unchanged _ idleAfter, forgetting_fragment, Option.map_none] at same
  unfold Context.plainGroup
  simp only [Bind.bind, EStateM.bind, Context.startShape_ok start declared, same]
  rfl

/-- In a well-typed schema with a declared start shape, a reference is cut off
as recursive if and only if a cycle of references can be reached from the
start. If none can, the group and the problems are those of plain unfolding,
which follows every reference, with any limit on the depth from the number of
targets on. -/
theorem startGroup_cuts_cycles_only (schema : Schema) (label : String) (progress : Progress)
    (typed : schema.wellTyped = true) (start : schema.start = .label label)
    (declared : (schema.find? label).isSome = true) (idle : progress.expanding = []) :
    ∃ context group after added, Context.ofSchema schema = .ok context ∧
      context.startGroup progress = .ok (some group) after ∧
      after.diagnostics = progress.diagnostics ++ added ∧
      ((∃ d ∈ added, d.code = "recursive-reference") ↔ context.ReachesCycle (.shape label)) ∧
      (¬ context.ReachesCycle (.shape label) →
        ∀ more, context.plainGroup (context.targetCount + more) progress =
          .ok (some group) after) := by
  obtain ⟨context, built, rfl, typedContext⟩ := Context.ofSchema_ok typed
  obtain ⟨decl, found⟩ := Option.isSome_iff_exists.mp declared
  obtain ⟨f, after, visited, visit⟩ :=
    context.shape_ok typedContext label none (context.announced progress)
  obtain ⟨added, grown, each⟩ := visit.start_notes
  refine ⟨context, _, after, added, built,
    Context.startGroup_of_shape start found visited, grown, ?_, fun acyclic =>
      plainGroup_of_shape start found acyclic idle visited⟩
  rw [← context.cut_iff_reachesCycle]
  simp only [each, idle, ← Diagnostic.isRecursive_iff_code]
  constructor
  · rintro ⟨d, ⟨-, rfl⟩ | notes, recursive⟩
    · cases recursive
    · exact ⟨d, notes, recursive⟩
  · rintro ⟨d, notes, recursive⟩
    exact ⟨d, Or.inr notes, recursive⟩

def diamondSchema : Schema where
  shapes := [
    ⟨.string "S", .and [.reference "A", .reference "B", .shape (some (.eachOf [
      .constraint (.string "p") false (.reference "T") {} (.string "link"),
      .reference "link", .reference "link"] {} .null)) false []], false⟩,
    ⟨.string "A", .not (.reference "T"), false⟩,
    ⟨.string "B", .or [.reference "T", .reference "A"], false⟩,
    ⟨.string "T", .shape (some (.constraint (.string "q") true .any ⟨.int 0, .int 1⟩ .null)) false
      [], false⟩]
  start := .label "S"

/-- The equivalence on a schema whose shapes meet again in a third one, but
never in a cycle. -/
theorem startGroup_cuts_cycles_only_diamond :
    diamondSchema.wellTyped = true ∧ diamondSchema.start = .label "S" ∧
    (diamondSchema.find? "S").isSome = true ∧
    ∃ context group after added, Context.ofSchema diamondSchema = .ok context ∧
      context.startGroup {} = .ok (some group) after ∧
      after.diagnostics = [] ++ added ∧
      ((∃ d ∈ added, d.code = "recursive-reference") ↔ context.ReachesCycle (.shape "S")) ∧
      (¬ context.ReachesCycle (.shape "S") →
        ∀ more, context.plainGroup (context.targetCount + more) {} = .ok (some group) after) :=
  ⟨by decide, rfl, by decide,
    startGroup_cuts_cycles_only diamondSchema "S" {} (by decide) rfl (by decide) rfl⟩

end ShapeQuery.Compile
