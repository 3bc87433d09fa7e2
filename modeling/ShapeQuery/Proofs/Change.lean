import ShapeQuery.Proofs.GroupForm
import ShapeQuery.Proofs.Leaves

/-!
Walks that differ by a change of state and of texts. If the change cannot be told by what the
compiler looks at, and the ways of following references differ by it, then whole walks differ by it:
the results are those of the first walk with their texts changed.
-/
namespace ShapeQuery

namespace Group

mutual

def mapText (change : String → String) : Group → Group
  | ⟨clause, suffix, lines, children⟩ =>
    ⟨clause, change suffix, lines.map change, mapTextAll change children⟩

def mapTextAll (change : String → String) : List Group → List Group
  | [] => []
  | group :: rest => group.mapText change :: mapTextAll change rest

end

theorem mapTextAll_eq (change : String → String) (groups : List Group) :
    mapTextAll change groups = groups.map (mapText change) := by
  induction groups with
  | nil => rw [mapTextAll, List.map_nil]
  | cons group rest ih => rw [mapTextAll, ih, List.map_cons]

theorem mapText_eq (change : String → String) (group : Group) :
    group.mapText change =
      ⟨group.clause, change group.suffix, group.lines.map change,
        group.children.map (mapText change)⟩ := by
  cases group
  rw [mapText, mapTextAll_eq]

@[simp] theorem mapText_clause (change : String → String) (group : Group) :
    (group.mapText change).clause = group.clause := by
  rw [mapText_eq]

@[simp] theorem mapText_suffix (change : String → String) (group : Group) :
    (group.mapText change).suffix = change group.suffix := by
  rw [mapText_eq]

@[simp] theorem mapText_lines (change : String → String) (group : Group) :
    (group.mapText change).lines = group.lines.map change := by
  rw [mapText_eq]

@[simp] theorem mapText_children (change : String → String) (group : Group) :
    (group.mapText change).children = group.children.map (mapText change) := by
  rw [mapText_eq]

theorem mapText_id (group : Group) : group.mapText id = group := by
  induction group using Group.induct with
  | step group ih =>
    have inside : group.children.map (mapText id) = group.children := by
      rw [List.map_congr_left ih, List.map_id']
    cases group
    rw [mapText_eq, inside, List.map_id]
    rfl

theorem mapText_addLines (change : String → String) (group : Group) (lines : List String) :
    (group.addLines lines).mapText change = (group.mapText change).addLines (lines.map change) := by
  rw [mapText_eq, mapText_eq, addLines, addLines]
  simp

end Group

namespace Compile

/-- A change of states and texts that the compiler cannot tell: problems and
fresh variables come the same way, the variables of shapes stay, and a filter
stays a filter. It is meant for the states that it admits. -/
structure Change where
  admits : Progress → Prop
  state : Progress → Progress
  text : String → String
  noting : ∀ {p} (d), admits p → admits (p.noting d) ∧ state (p.noting d) = (state p).noting d
  counting : ∀ {p}, admits p → admits p.counting ∧ state p.counting = (state p).counting ∧
    text (freshVariable p.fresh) = freshVariable (state p).fresh
  stable : ∀ label, text (stableVariable label) = stableVariable label
  absent : text (Focus.text none) = Focus.text none
  empty : ∀ line, text line = "" ↔ line = ""
  filter : ∀ line, isFilter (text line) = isFilter line
  merge : ∀ {filters operator}, IsConnective operator → (∀ line ∈ filters, isFilter line = true) →
    text (mergeFilters filters operator) = mergeFilters (filters.map text) operator

namespace Change

variable (change : Change)

def fragment (f : Fragment) : Fragment :=
  ⟨f.group.mapText change.text, f.loose.map change.text⟩

def alternatives (a : Alternatives) : Alternatives :=
  ⟨a.group.mapText change.text, a.filters.map change.text⟩

/-! ### The steps that build groups -/

theorem isEmpty_mapText (group : Group) : (group.mapText change.text).isEmpty = group.isEmpty := by
  have suffix : (change.text group.suffix == "") = (group.suffix == "") := by
    rw [Bool.eq_iff_iff, beq_iff_eq, beq_iff_eq, change.empty]
  simp only [Group.isEmpty, Group.mapText_clause, Group.mapText_suffix, Group.mapText_children,
    Group.mapText_lines, suffix, List.isEmpty_map]

theorem mapText_plain (clause : Option Clause) (lines : List String) (children : List Group) :
    Group.mapText change.text { clause, lines, children } =
      { clause, lines := lines.map change.text
        children := children.map (·.mapText change.text) } := by
  rw [Group.mapText_eq, (change.empty "").mpr rfl]

theorem mapText_clause_only (clause : Option Clause) :
    Group.mapText change.text { clause } = { clause } :=
  change.mapText_plain clause [] []

/-- A change of texts goes through the operations on groups. Whether a group is
empty cannot be told from its texts, so the same groups are dropped. -/
theorem mapText_addChild (group child : Group) :
    (group.addChild child).mapText change.text =
      (group.mapText change.text).addChild (child.mapText change.text) := by
  unfold Group.addChild
  rw [isEmpty_mapText]
  split
  · rfl
  · rw [Group.mapText_eq, Group.mapText_eq]
    simp

theorem mapText_addChild? (group : Group) (child : Option Group) :
    (group.addChild? child).mapText change.text =
      (group.mapText change.text).addChild? (child.map (·.mapText change.text)) := by
  cases child with
  | none => rfl
  | some child => exact change.mapText_addChild group child

/-- A fragment becomes the same branch before and after a change of its texts. -/
theorem mapText_asBranch (group : Group) (lines : List String) (clause : Option Clause) :
    (group.asBranch lines clause).map (·.mapText change.text) =
      (group.mapText change.text).asBranch (lines.map change.text) clause := by
  unfold Group.asBranch
  rw [isEmpty_mapText, Group.mapText_clause, List.isEmpty_map]
  split
  · split
    · rfl
    · rw [Option.map_some, mapText_plain]
      rfl
  · split
    · rw [Option.map_some, Group.mapText_eq, Group.mapText_eq]
      simp
    · rw [Option.map_some, mapText_plain]
      rfl

/-- Collecting a fragment in a group and changing the texts can be done in
either order. -/
theorem mapText_collect (group : Group) (f : Fragment) :
    (group.addChild f.group |>.addLines f.loose).mapText change.text =
      ((group.mapText change.text).addChild (change.fragment f).group |>.addLines
        (change.fragment f).loose) := by
  rw [Group.mapText_addLines, mapText_addChild]
  rfl

theorem mapText_branch (group : Group) (f : Fragment) (lines : List String)
    (clause : Option Clause) :
    (group.addChild? (f.group.asBranch lines clause)).mapText change.text =
      (group.mapText change.text).addChild?
        ((change.fragment f).group.asBranch (lines.map change.text) clause) := by
  rw [mapText_addChild?, mapText_asBranch]
  rfl

/-- A change leaves filters filters, and makes none of other lines. -/
theorem all_filter (lines : List String) :
    (lines.map change.text).all isFilter = lines.all isFilter := by
  rw [List.all_map]
  congr 1
  funext line
  exact change.filter line

/-- An alternative goes where its changed texts would go, to the branches or to
the filters. -/
theorem alternatives_add (a : Alternatives) (f : Fragment) :
    change.alternatives (a.add f) = (change.alternatives a).add (change.fragment f) := by
  have branch := change.mapText_branch a.group f [] (some .union)
  have loose : (change.fragment f).loose = f.loose.map change.text := rfl
  unfold Alternatives.add
  dsimp only
  rw [loose, List.isEmpty_map, all_filter]
  split
  · simp only [alternatives, branch]
    rfl
  · split
    · next filters =>
      rw [List.all_eq_true] at filters
      simp only [alternatives, branch, List.map_append, List.map_cons, List.map_nil,
        change.merge (Or.inl rfl) filters]
    · simp only [alternatives, mapText_addChild, branch, mapText_plain, List.map_nil]

theorem add_filters {a : Alternatives} (filters : ∀ line ∈ a.filters, isFilter line = true)
    (f : Fragment) : ∀ line ∈ (a.add f).filters, isFilter line = true := by
  unfold Alternatives.add
  dsimp only
  split
  · exact filters
  · split
    · next loose =>
      rw [List.all_eq_true] at loose
      refine List.forall_mem_append.mpr ⟨filters, List.forall_mem_singleton.mpr ?_⟩
      exact mergeFilters_filter "&&" loose
    · exact filters

/-- The filters of a disjunction are merged, and merged filters are changed in
their conditions. This is where a change has to know about filters. -/
theorem mapText_close {a : Alternatives} (filters : ∀ line ∈ a.filters, isFilter line = true) :
    a.close.mapText change.text = (change.alternatives a).close := by
  unfold Alternatives.close alternatives
  dsimp only
  rw [List.isEmpty_map, Group.mapText_children, List.isEmpty_map,
    ← change.merge (Or.inr rfl) filters]
  split
  · rfl
  · split
    · rw [Group.mapText_addLines]
      rfl
    · rw [mapText_addChild, mapText_plain]
      rfl

theorem fragment_keepInside (clause : Option Clause) (lines : List String) :
    change.fragment (keepInside clause lines) = keepInside clause (lines.map change.text) := by
  unfold keepInside
  split
  · rw [fragment, mapText_plain]
    rfl
  · rw [fragment, mapText_clause_only]

theorem fragment_arcTo (clause : Option Clause) (described : Fragment) (arc : String) :
    change.fragment (arcTo clause described arc) =
      arcTo clause (change.fragment described) (change.text arc) := by
  simp only [arcTo, fragment, Group.mapText_addLines, mapText_addChild, mapText_clause_only,
    List.map_append, List.map_cons, List.map_nil]

theorem mapText_withClause (group : Group) (clause : Option Clause) :
    (withClause group clause).mapText change.text =
      withClause (group.mapText change.text) clause := by
  cases clause with
  | none => rfl
  | some clause =>
    rw [withClause, withClause, Group.mapText_eq, Group.mapText_eq]

theorem focus_text (focus : Focus) :
    Focus.text (focus.map change.text) = change.text focus.text := by
  cases focus with
  | none => exact change.absent.symm
  | some term => rfl

/-! ### Walks -/

/-- From a changed state, the other walk has the outcome of the first one,
changed. Results of the first walk are good, and its states stay admitted. -/
def Carries {α β : Type} (good : α → Prop) (f : α → β) (walk : Walk α) (other : Walk β) : Prop :=
  ∀ p, change.admits p →
    match walk p with
    | .ok result q =>
      change.admits q ∧ good result ∧ other (change.state p) = .ok (f result) (change.state q)
    | .error fault q => change.admits q ∧ other (change.state p) = .error fault (change.state q)

variable {change}

namespace Carries

variable {α β γ δ : Type} {good : α → Prop} {fine : γ → Prop} {f : α → β} {g : γ → δ}

/-- What a walk carries over for a run that ends with a result. -/
theorem of_ok {walk : Walk α} {other : Walk β} (carries : change.Carries good f walk other)
    {p q : Progress} {result : α} (admitted : change.admits p) (success : walk p = .ok result q) :
    change.admits q ∧ good result ∧ other (change.state p) = .ok (f result) (change.state q) := by
  have here := carries p admitted
  rw [success] at here
  exact here

theorem pure {result : α} {value : β} (holds : good result) (same : f result = value) :
    change.Carries good f (Pure.pure result) (Pure.pure value) := by
  intro p admitted
  rw [← same]
  exact ⟨admitted, holds, rfl⟩

/-- Two walks are followed by two walks. The results of the first one are good,
so the second has to be followed from good results only. -/
theorem bind {walk : Walk α} {other : Walk β} {next : α → Walk γ} {nextOther : β → Walk δ}
    (first : change.Carries good f walk other)
    (second : ∀ result, good result → change.Carries fine g (next result) (nextOther (f result))) :
    change.Carries fine g (walk >>= next) (other >>= nextOther) := by
  intro p admitted
  have here := first p admitted
  simp only [Bind.bind, EStateM.bind]
  cases outcome : walk p with
  | ok result q =>
    rw [outcome] at here
    obtain ⟨still, holds, same⟩ := here
    simp only [same]
    exact second result holds q still
  | error fault q =>
    rw [outcome] at here
    obtain ⟨still, same⟩ := here
    simp only [same]
    exact ⟨still, trivial⟩

/-- Fresh variables are taken from states that differ by the change, so they
differ by it too. -/
theorem fresh : change.Carries (fun _ => True) change.text Walk.fresh Walk.fresh := by
  intro p admitted
  obtain ⟨still, same, renamed⟩ := change.counting admitted
  refine ⟨still, trivial, ?_⟩
  change EStateM.Result.ok (freshVariable (change.state p).fresh) (change.state p).counting =
    .ok (change.text (freshVariable p.fresh)) (change.state p.counting)
  rw [same, renamed]

theorem report (d : Diagnostic) :
    change.Carries (fun _ => True) id (Walk.report d) (Walk.report d) := by
  intro p admitted
  obtain ⟨still, same⟩ := change.noting d admitted
  refine ⟨still, trivial, ?_⟩
  change EStateM.Result.ok () ((change.state p).noting d) = .ok () (change.state (p.noting d))
  rw [same]

theorem stop (fault : Fault) : change.Carries good f (throw fault) (throw fault) :=
  fun _ admitted => ⟨admitted, rfl⟩

/-- A checked value is used alike if the check is. A misuse stops both walks. -/
theorem use (checked : Checked α) (f : α → β) :
    change.Carries (fun _ => True) f (Walk.use checked) (Walk.use (checked.map f)) := by
  intro p admitted
  cases checked with
  | ok result => exact ⟨admitted, trivial, rfl⟩
  | error misuse => exact ⟨admitted, rfl⟩

theorem use_same (checked : Checked α) :
    change.Carries (fun _ => True) id (Walk.use checked) (Walk.use checked) := by
  intro p admitted
  cases checked with
  | ok result => exact ⟨admitted, trivial, rfl⟩
  | error misuse => exact ⟨admitted, rfl⟩

theorem empty : change.Carries (fun _ => True) change.fragment (Pure.pure {}) (Pure.pure {}) := by
  refine .pure trivial ?_
  rw [fragment, mapText_clause_only]
  rfl

theorem nothing (d : Diagnostic) : change.Carries (fun _ => True) change.fragment
    (do Walk.report d; return {}) (do Walk.report d; return {}) :=
  .bind (.report d) fun _ _ => .empty

end Carries

/-- The lines of a triple pattern with a predicate are changed in their ends. -/
def KeepsPredicate (change : Change) (predicate : Json) : Prop :=
  ∀ subject object inverse,
    change.text (triplePattern subject predicate.display object inverse) =
      triplePattern (change.text subject) predicate.display (change.text object) inverse

def KeepsNode (change : Change) (nc : NodeConstraint) : Prop :=
  ∀ var, constraintLines nc (change.text var) = (constraintLines nc var).map (List.map change.text)

/-- What comes of a leaf is changed as the rest is. For a reference, this is
about the two ways of following it. -/
def Keeps (change : Change) (links other : Links) : Leaf → Prop
  | .reference (.shape label) => ∀ focus, change.Carries (fun _ => True) change.fragment
    (links.shape label focus) (other.shape label (focus.map change.text))
  | .reference (.tripleExpr label) => ∀ subject, change.Carries (fun _ => True) change.fragment
    (links.tripleExpr label subject) (other.tripleExpr label (change.text subject))
  | .predicate name => change.KeepsPredicate name
  | .node nc => change.KeepsNode nc
  | _ => True

/-- The lines of a node constraint are changed in their variable, with a fresh
one for the object where there is a predicate. -/
theorem carries_nodeLines {nc : NodeConstraint} {predicate : Json} (kept : change.KeepsNode nc)
    (named : predicate.isNull = false → change.KeepsPredicate predicate) (subject : String)
    (inverse : Bool) :
    change.Carries (fun _ => True) (List.map change.text) (nodeLines nc subject predicate inverse)
      (nodeLines nc (change.text subject) predicate inverse) := by
  unfold nodeLines
  split
  · rw [kept]
    exact .use _ _
  · next present =>
    refine .bind .fresh fun object _ => ?_
    rw [kept]
    refine .bind (.use _ _) fun lines _ => .pure trivial ?_
    rw [List.map_cons, named (by simpa using present)]

section Expressions

variable {links other : Links}

mutual

/-- Whole shape expressions are followed alike if their leaves are. The
induction is on the expression, together with the lists of operands and the
triple expressions inside. -/
theorem carries_shapeFragment (focus : Focus) :
    ∀ {expr : ShapeExpr}, (∀ leaf ∈ expr.leaves, change.Keeps links other leaf) →
      change.Carries (fun _ => True) change.fragment (shapeFragment links focus expr)
        (shapeFragment other (focus.map change.text) expr)
  | .reference label, kept => by
    rw [ShapeExpr.leaves, List.forall_mem_singleton] at kept
    rw [shapeFragment, shapeFragment]
    exact kept focus
  | .any, _ => by
    rw [shapeFragment, shapeFragment]
    exact .nothing _
  | .shape none _ _, _ => by
    rw [shapeFragment, shapeFragment]
    exact .empty
  | .shape (some expression) _ _, kept => by
    rw [ShapeExpr.leaves] at kept
    rw [shapeFragment, shapeFragment, focus_text]
    refine .bind (carries_tripleFragment focus.text kept) fun inner _ => .pure trivial ?_
    rw [fragment, mapText_collect, mapText_clause_only]
    rfl
  | .and operands, kept => by
    rw [ShapeExpr.leaves] at kept
    rw [shapeFragment, shapeFragment]
    have gathered := carries_gatherShapes focus {} kept
    rw [mapText_clause_only] at gathered
    exact .bind gathered fun group _ => .pure trivial rfl
  | .or operands, kept => by
    rw [ShapeExpr.leaves] at kept
    rw [shapeFragment, shapeFragment]
    have start : change.alternatives {} = {} := by rw [alternatives, mapText_clause_only]; rfl
    have gathered := carries_gatherAlternatives focus {} (List.forall_mem_nil _) kept
    rw [start] at gathered
    refine .bind gathered fun found filters => .pure trivial ?_
    rw [fragment, change.mapText_close filters]
    rfl
  | .not operand, kept => by
    rw [ShapeExpr.leaves] at kept
    rw [shapeFragment, shapeFragment]
    refine .bind (carries_shapeFragment focus kept) fun inner _ => .pure trivial ?_
    rw [fragment, mapText_collect, mapText_clause_only]
    rfl
  | .notEach operands, kept => by
    rw [ShapeExpr.leaves] at kept
    rw [shapeFragment, shapeFragment]
    have gathered := carries_gatherShapes focus { clause := some .minus } kept
    rw [mapText_clause_only] at gathered
    exact .bind gathered fun group _ => .pure trivial rfl
  | .node nc, kept => by
    rw [ShapeExpr.leaves, List.forall_mem_singleton] at kept
    rw [shapeFragment, shapeFragment, focus_text]
    refine .bind (carries_nodeLines kept (by simp [Json.isNull]) focus.text false) fun lines _ =>
      .pure trivial ?_
    rw [fragment, mapText_clause_only]
  | .external, _ => by
    rw [shapeFragment, shapeFragment]
    exact .nothing _
  | .unsupported typeName, _ => by
    rw [shapeFragment, shapeFragment]
    exact .nothing _

theorem carries_gatherShapes (focus : Focus) (group : Group) :
    ∀ {operands : List ShapeExpr}, (∀ leaf ∈ leavesOfShapes operands,
      change.Keeps links other leaf) →
      change.Carries (fun _ => True) (·.mapText change.text)
        (gatherShapes links focus group operands)
        (gatherShapes other (focus.map change.text) (group.mapText change.text) operands)
  | [], _ => by
    rw [gatherShapes, gatherShapes]
    exact .pure trivial rfl
  | operand :: rest, kept => by
    rw [leavesOfShapes, List.forall_mem_append] at kept
    rw [gatherShapes, gatherShapes]
    refine .bind (carries_shapeFragment focus kept.1) fun inner _ => ?_
    rw [← mapText_collect]
    exact carries_gatherShapes focus _ kept.2

/-- The alternatives of a disjunction, with the fact that what is kept apart as
filters are filters. -/
theorem carries_gatherAlternatives (focus : Focus) (found : Alternatives)
    (filters : ∀ line ∈ found.filters, isFilter line = true) :
    ∀ {operands : List ShapeExpr}, (∀ leaf ∈ leavesOfShapes operands,
      change.Keeps links other leaf) →
      change.Carries (fun a => ∀ line ∈ a.filters, isFilter line = true) change.alternatives
        (gatherAlternatives links focus found operands)
        (gatherAlternatives other (focus.map change.text) (change.alternatives found) operands)
  | [], _ => by
    rw [gatherAlternatives, gatherAlternatives]
    exact .pure filters rfl
  | operand :: rest, kept => by
    rw [leavesOfShapes, List.forall_mem_append] at kept
    rw [gatherAlternatives, gatherAlternatives]
    refine .bind (carries_shapeFragment focus kept.1) fun inner _ => ?_
    rw [← alternatives_add]
    exact carries_gatherAlternatives focus _ (add_filters filters inner) kept.2

/-- Whole triple expressions are followed alike, with the subject changed as
the texts are. -/
theorem carries_tripleFragment (subject : String) :
    ∀ {expr : TripleExpr}, (∀ leaf ∈ expr.leaves, change.Keeps links other leaf) →
      change.Carries (fun _ => True) change.fragment (tripleFragment links subject expr)
        (tripleFragment other (change.text subject) expr)
  | .reference label, kept => by
    rw [TripleExpr.leaves, List.forall_mem_singleton] at kept
    rw [tripleFragment, tripleFragment]
    exact kept subject
  | .constraint predicate inverse value bounds id, kept => by
    have named : change.KeepsPredicate predicate := by
      refine kept (.predicate predicate) ?_
      by_cases point : value = .any
      · subst point
        simp [TripleExpr.leaves]
      · simp [TripleExpr.leaves_constraint point]
    have inside : value ≠ .any → ∀ leaf ∈ value.leaves, change.Keeps links other leaf :=
      fun different leaf member =>
        kept leaf (TripleExpr.mem_leaves_of_value different member predicate inverse bounds id)
    have nested : value ≠ .any → ∀ object, change.Carries (fun _ => True) change.fragment
        (shapeFragment links (some object) value)
        (shapeFragment other (some (change.text object)) value) :=
      fun different object => carries_shapeFragment (some object) (inside different)
    unfold tripleFragment
    cases value with
    | reference label =>
      have described := nested (by simp) (stableVariable label)
      rw [shapeFragment, shapeFragment, change.stable] at described
      refine .bind described fun inner _ => .pure trivial ?_
      rw [fragment_arcTo, named, change.stable]
    | any =>
      refine .bind .fresh fun object _ => .pure trivial ?_
      rw [fragment_keepInside, List.map_cons, List.map_nil, named]
    | node nc =>
      have kept : change.KeepsNode nc := inside (by simp) (.node nc) (by simp [ShapeExpr.leaves])
      refine .bind (carries_nodeLines kept (fun _ => named) subject inverse) fun lines _ =>
        .pure trivial ?_
      rw [fragment_keepInside]
    | _ =>
      refine .bind .fresh fun object _ => .bind (nested (by simp) object) fun inner _ =>
        .pure trivial ?_
      rw [fragment_arcTo, named]
  | .eachOf operands bounds id, kept => by
    rw [TripleExpr.leaves] at kept
    rw [tripleFragment, tripleFragment]
    have gathered := carries_gatherTriples subject {} kept
    rw [mapText_clause_only] at gathered
    refine .bind gathered fun group _ => .bind (.use_same _) fun clause _ => .pure trivial ?_
    rw [fragment, mapText_withClause]
    rfl
  | .oneOf operands bounds id, kept => by
    rw [TripleExpr.leaves] at kept
    rw [tripleFragment, tripleFragment]
    have gathered := carries_gatherBranches subject {} kept
    rw [mapText_clause_only] at gathered
    refine .bind gathered fun group _ => .bind (.use_same _) fun clause _ => .pure trivial ?_
    rw [fragment, mapText_withClause]
    rfl
  | .unsupported typeName, _ => by
    rw [tripleFragment, tripleFragment]
    exact .nothing _

theorem carries_gatherTriples (subject : String) (group : Group) :
    ∀ {operands : List TripleExpr}, (∀ leaf ∈ leavesOfTriples operands,
      change.Keeps links other leaf) →
      change.Carries (fun _ => True) (·.mapText change.text)
        (gatherTriples links subject group operands)
        (gatherTriples other (change.text subject) (group.mapText change.text) operands)
  | [], _ => by
    rw [gatherTriples, gatherTriples]
    exact .pure trivial rfl
  | operand :: rest, kept => by
    rw [leavesOfTriples, List.forall_mem_append] at kept
    rw [gatherTriples, gatherTriples]
    refine .bind (carries_tripleFragment subject kept.1) fun inner _ => ?_
    rw [← mapText_collect]
    exact carries_gatherTriples subject _ kept.2

theorem carries_gatherBranches (subject : String) (group : Group) :
    ∀ {operands : List TripleExpr}, (∀ leaf ∈ leavesOfTriples operands,
      change.Keeps links other leaf) →
      change.Carries (fun _ => True) (·.mapText change.text)
        (gatherBranches links subject group operands)
        (gatherBranches other (change.text subject) (group.mapText change.text) operands)
  | [], _ => by
    rw [gatherBranches, gatherBranches]
    exact .pure trivial rfl
  | operand :: rest, kept => by
    rw [leavesOfTriples, List.forall_mem_append] at kept
    rw [gatherBranches, gatherBranches]
    refine .bind (carries_tripleFragment subject kept.1) fun inner _ => ?_
    have branch := change.mapText_branch group inner inner.loose (some .union)
    have loose : (change.fragment inner).loose = inner.loose.map change.text := rfl
    rw [loose, ← branch]
    exact carries_gatherBranches subject _ kept.2

end

end Expressions

end Change

end Compile

end ShapeQuery
