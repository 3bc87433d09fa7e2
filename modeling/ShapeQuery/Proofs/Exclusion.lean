import ShapeQuery.Proofs.Bubbling
import ShapeQuery.Proofs.FragmentForm
import ShapeQuery.Proofs.Placement

/-!
Arcs that must not occur. A triple constraint that may occur at most zero times is a group that must
not match, with all that is nested in it, and stays one in the finished group. For a group of triple
expressions only the lower bound is looked at, so its upper bound excludes nothing: it has an arc
outside of such groups if and only if one of its operands has.
-/
namespace ShapeQuery

namespace Group

/-! ### Lines outside of excluded groups -/

/-- The lines of a group that stand in no group that must not match. -/
def outside (group : Group) : List String :=
  group.linesThrough (· != some .notExists)

section Outside

variable {group child branch : Group} {line : String} {lines : List String}

/-- What a group has outside of excluded groups are its own lines and those of
its children, unless it is excluded itself. -/
theorem mem_outside :
    line ∈ group.outside ↔ group.clause ≠ some .notExists ∧
      (line ∈ group.lines ∨ ∃ child ∈ group.children, line ∈ child.outside) := by
  rw [outside, linesThrough_eq]
  split
  · next entered =>
    have other : group.clause ≠ some .notExists := by simpa using entered
    simp only [List.mem_append, List.mem_flatMap, outside, ne_eq, other,
      not_false_eq_true, true_and]
  · next closed =>
    have same : group.clause = some .notExists := by simpa using closed
    simp [same]

theorem mem_outside_mk {clause : Option Clause} {suffix : String} {children : List Group} :
    line ∈ (⟨clause, suffix, lines, children⟩ : Group).outside ↔ clause ≠ some .notExists ∧
      (line ∈ lines ∨ ∃ child ∈ children, line ∈ child.outside) :=
  mem_outside

theorem outside_of_notExists (excluded : group.clause = some .notExists) : group.outside = [] := by
  rw [outside, linesThrough_eq, excluded]
  rfl

theorem not_mem_outside_of_isEmpty (empty : group.isEmpty = true) : line ∉ group.outside := by
  simp only [isEmpty, Bool.and_eq_true, List.isEmpty_iff] at empty
  rw [mem_outside, empty.1.2, empty.2]
  simp

theorem mem_outside_addLines (entered : group.clause ≠ some .notExists) :
    line ∈ (group.addLines lines).outside ↔ line ∈ group.outside ∨ line ∈ lines := by
  rw [addLines, mem_outside_mk, mem_outside, List.mem_append, and_iff_right entered,
    and_iff_right entered, or_right_comm]

/-- A child adds what it has outside of excluded groups. A child that is
dropped for being empty has nothing. -/
theorem mem_outside_addChild (entered : group.clause ≠ some .notExists) :
    line ∈ (group.addChild child).outside ↔ line ∈ group.outside ∨ line ∈ child.outside := by
  unfold addChild
  split
  · next empty => simp [not_mem_outside_of_isEmpty empty]
  · rw [mem_outside_mk, mem_outside, and_iff_right entered, and_iff_right entered]
    simp only [List.mem_append, List.mem_singleton, or_and_right, exists_or,
      exists_eq_left, or_assoc]

/-- An alternative is outside with the lines that are given for it, and as far
as its group is. -/
theorem mem_outside_addBranch (entered : group.clause ≠ some .notExists) :
    line ∈ (group.addChild? (branch.asBranch lines (some .union))).outside ↔
      line ∈ group.outside ∨ line ∈ branch.outside ∨ line ∈ lines := by
  have union : some Clause.union ≠ some .notExists := by decide
  unfold asBranch
  split
  · next empty =>
    have none : line ∉ branch.outside := not_mem_outside_of_isEmpty empty
    split
    · next noLines => simp [addChild?, none, List.isEmpty_iff.mp noLines]
    · rw [addChild?, mem_outside_addChild entered, mem_outside_mk, and_iff_right union]
      simp [none]
  · split
    · next untagged =>
      have own : line ∈ branch.outside ↔
          line ∈ branch.lines ∨ ∃ child ∈ branch.children, line ∈ child.outside := by
        rw [mem_outside, Option.isNone_iff_eq_none.mp untagged, and_iff_right (by decide)]
      rw [addChild?, mem_outside_addChild entered, mem_outside_mk, and_iff_right union,
        List.mem_append, or_assoc, ← own, or_comm (a := line ∈ lines)]
    · rw [addChild?, mem_outside_addChild entered, mem_outside_mk, and_iff_right union]
      simp only [List.mem_singleton, exists_eq_left, or_comm]

end Outside

/-! ### Excluded groups in a finished group -/

theorem linesThrough_untagUnion {enters : Option Clause → Bool}
    (same : enters (some .union) = enters none) (group : Group) :
    group.untagUnion.linesThrough enters = group.linesThrough enters := by
  unfold untagUnion
  split
  · next union => rw [linesThrough_eq, linesThrough_eq group, union, same]
  · rfl

/-- Taking marks of alternatives away changes no line that is reached, if an
alternative is entered like a plain group. -/
theorem linesThrough_stripLeadingUnion {enters : Option Clause → Bool}
    (same : enters (some .union) = enters none) (group : Group) :
    group.stripLeadingUnion.linesThrough enters = group.linesThrough enters := by
  induction group using Group.induct with
  | step group ih =>
    rw [linesThrough_eq, linesThrough_eq group, stripLeadingUnion_clause, stripLeadingUnion_lines,
      stripLeadingUnion_children, flatMap_stripChildren (linesThrough_untagUnion same),
      List.flatMap_congr ih]

/-- The passes take no line out of the groups that must not match, and put none
into them. -/
theorem outside_postProcess (group : Group) : group.postProcess.outside.Perm group.outside := by
  rw [outside, postProcess, linesThrough_stripLeadingUnion rfl]
  exact linesThrough_bubbleFilters rfl group

/-- A group with a clause is still there when filters have moved up. -/
theorem bubbleFilters_mem_nodes {root node : Group} (member : node ∈ root.nodes)
    (tagged : node.clause ≠ none) : node.bubbleFilters ∈ root.bubbleFilters.nodes := by
  induction root using Group.induct with
  | step root ih =>
    rw [nodes_eq] at member
    rcases List.mem_cons.mp member with rfl | inside
    · exact mem_nodes_self _
    · obtain ⟨child, childMember, there⟩ := List.mem_flatMap.mp inside
      have shown := ih child childMember there
      have kept : child.bubbleFilters.isFilterLeaf = false := by
        rw [Bool.eq_false_iff]
        intro leaf
        have leaf := isFilterLeaf_iff.mp leaf
        rw [nodes_eq, leaf.childless, List.flatMap_nil, List.mem_singleton] at shown
        rw [← bubbleFilters_clause, shown, leaf.plain] at tagged
        exact tagged rfl
      refine mem_nodes_of_child ?_ shown
      rw [bubbleFilters_eq]
      exact List.mem_filter.mpr ⟨List.mem_map_of_mem childMember, by simp [kept]⟩

/-- So is a group that is no alternative when the marks of alternatives have
been taken away. -/
theorem stripLeadingUnion_mem_nodes {root node : Group} (member : node ∈ root.nodes)
    (other : node.clause ≠ some .union) :
    node.stripLeadingUnion ∈ root.stripLeadingUnion.nodes := by
  induction root using Group.induct with
  | step root ih =>
    rw [nodes_eq] at member
    rcases List.mem_cons.mp member with rfl | inside
    · exact mem_nodes_self _
    · obtain ⟨child, childMember, there⟩ := List.mem_flatMap.mp inside
      have shown := ih child childMember there
      have untagged : node.stripLeadingUnion ∈ child.stripLeadingUnion.untagUnion.nodes := by
        rw [nodes_eq] at shown
        rcases List.mem_cons.mp shown with same | deeper
        · rw [untagUnion_of_ne (by rwa [← same, stripLeadingUnion_clause]), same]
          exact mem_nodes_self _
        · rw [nodes_eq, untagUnion_children]
          exact List.mem_cons_of_mem _ deeper
      rcases stripChildren_mem childMember with kept | kept
      · exact mem_nodes_of_child (by rwa [stripLeadingUnion_children]) shown
      · exact mem_nodes_of_child (by rwa [stripLeadingUnion_children]) untagged

/-- A group that must not match is still there in the finished group. -/
theorem postProcess_mem_nodes {root node : Group} (member : node ∈ root.nodes)
    (excluded : node.clause = some .notExists) : node.postProcess ∈ root.postProcess.nodes := by
  have bubbled := bubbleFilters_mem_nodes member (by rw [excluded]; decide)
  exact stripLeadingUnion_mem_nodes bubbled (by rw [bubbleFilters_clause, excluded]; decide)

end Group

def TripleExpr.bounds? : TripleExpr → Option Bounds
  | .constraint _ _ _ bounds _ | .eachOf _ bounds _ | .oneOf _ bounds _ => some bounds
  | .reference _ | .unsupported _ => none

namespace Compile

open ShapeQuery.Group

/-! ### Arcs -/

/-- A line that is a triple pattern. -/
def IsArc (line : String) : Prop :=
  ∃ subject predicate object inverse, line = triplePattern subject predicate object inverse

theorem IsArc.getLast? {line : String} (arc : IsArc line) : line.toList.getLast? = some '.' := by
  obtain ⟨subject, predicate, object, inverse, rfl⟩ := arc
  unfold triplePattern
  split <;> rw [String.toList_append, List.getLast?_append] <;> rfl

/-- A line of a node constraint is none: it ends in a bracket. -/
theorem IsConstraintLine.not_isArc {var line : String} (constraint : IsConstraintLine var line) :
    ¬ IsArc line := by
  intro arc
  have last := arc.getLast?
  rcases constraint with ⟨condition, rfl⟩ | ⟨terms, rfl⟩
  · rw [filterLine, String.toList_append, List.getLast?_append] at last
    exact absurd last (by simp)
  · rw [String.toList_append, List.getLast?_append] at last
    exact absurd last (by simp)

/-- A triple expression asks for an arc that may occur: a triple constraint
whose upper bound is not zero, by itself, among the operands of groups, or
behind references to triple expressions that are not on the way. A node
constraint without a predicate asks for no arc. -/
inductive Context.Shows (context : Context) : List Target → TripleExpr → Prop where
  | constraint {expanding predicate inverse value bounds id} (possible : bounds.max.isZero = false)
      (named : predicate.isNull = true → ∀ nc, value ≠ .node nc) :
      Shows context expanding (.constraint predicate inverse value bounds id)
  | eachOf {expanding operand operands bounds id} (member : operand ∈ operands)
      (inner : Shows context expanding operand) :
        Shows context expanding (.eachOf operands bounds id)
  | oneOf {expanding operand operands bounds id} (member : operand ∈ operands)
      (inner : Shows context expanding operand) :
        Shows context expanding (.oneOf operands bounds id)
  | reference {expanding label target} (found : context.labels.lookup label = some target)
      (new : .tripleExpr label ∉ expanding)
      (inner : Shows context (.tripleExpr label :: expanding) target) :
      Shows context expanding (.reference label)

def Fragment.outside (f : Fragment) : List String :=
  f.group.outside ++ f.loose

/-- A fragment with an arc that stands in no group that must not match. -/
def Fragment.ShowsArc (f : Fragment) : Prop :=
  ∃ line ∈ f.outside, IsArc line

section Fragments

variable {line : String} {group : Group} {clause : Option Clause} {lines : List String}

theorem not_showsArc_empty : ¬ Fragment.ShowsArc {} := by
  rintro ⟨line, member, -⟩
  simp [Fragment.outside, mem_outside_mk] at member

/-- Collected fragments have outside of excluded groups what they have there
one by one. Induction on the fragments. -/
theorem mem_outside_collect (fs : List Fragment) : ∀ group : Group, group.clause ≠ some .notExists →
    (line ∈ (collect group fs).outside ↔ line ∈ group.outside ∨ ∃ f ∈ fs, line ∈ f.outside) := by
  induction fs with
  | nil => simp [collect]
  | cons f rest ih =>
    intro group entered
    have added := ih (group.addChild f.group |>.addLines f.loose) (by simpa using entered)
    rw [mem_outside_addLines (by simpa using entered), mem_outside_addChild entered,
      or_assoc, or_assoc, ← or_assoc (b := _ ∈ f.loose), ← List.mem_append] at added
    rw [List.exists_mem_cons_iff]
    exact added

theorem mem_outside_branches (fs : List Fragment) :
    ∀ group : Group, group.clause ≠ some .notExists →
      (line ∈ (branches group fs).outside ↔ line ∈ group.outside ∨ ∃ f ∈ fs, line ∈ f.outside) := by
  induction fs with
  | nil => simp [branches]
  | cons f rest ih =>
    intro group entered
    have added := ih (group.addChild? (f.group.asBranch f.loose (some .union)))
      (by simpa using entered)
    rw [mem_outside_addBranch entered, or_assoc, ← List.mem_append] at added
    rw [List.exists_mem_cons_iff]
    exact added

theorem mem_outside_collected (fs : List Fragment) (line : String) :
    line ∈ (collect {} fs).outside ↔ ∃ f ∈ fs, line ∈ f.outside := by
  rw [mem_outside_collect fs {} (by decide)]
  simp [mem_outside_mk]

theorem mem_outside_branched (fs : List Fragment) (line : String) :
    line ∈ (branches {} fs).outside ↔ ∃ f ∈ fs, line ∈ f.outside := by
  rw [mem_outside_branches fs {} (by decide)]
  simp [mem_outside_mk]

theorem mem_outside_withClause (plain : group.clause = none) (entered : clause ≠ some .notExists) :
    line ∈ (withClause group clause).outside ↔ line ∈ group.outside := by
  unfold withClause
  split
  · rw [mem_outside_mk, mem_outside, plain, and_iff_right entered, and_iff_right (by decide)]
  · rfl

theorem mem_outside_keepInside :
    line ∈ (keepInside clause lines).outside ↔ clause ≠ some .notExists ∧ line ∈ lines := by
  unfold keepInside
  split
  · rw [Fragment.outside, List.append_nil, mem_outside_mk]
    simp
  · next absent =>
    have plain : clause = none := by simpa using absent
    simp [Fragment.outside, mem_outside_mk, plain]

/-- An arc is outside unless it stands under the clause of what must not match. -/
theorem arcTo_showsArc {described : Fragment} (arc : IsArc line) :
    (arcTo clause described line).ShowsArc ↔ clause ≠ some .notExists := by
  constructor
  · rintro ⟨shown, member, -⟩ excluded
    rw [arcTo, Fragment.outside, outside_of_notExists (by simpa using excluded)] at member
    cases member
  · intro entered
    refine ⟨line, ?_, arc⟩
    rw [arcTo, Fragment.outside, List.append_nil, mem_outside_addLines (by simpa using entered)]
    exact Or.inr (by simp)

/-- The fragments of a group of triple expressions are outside as they are by
themselves. -/
theorem grouped_showsArc {fs : List Fragment} (plain : group.clause = none)
    (entered : clause ≠ some .notExists)
    (same : ∀ line, line ∈ group.outside ↔ ∃ f ∈ fs, line ∈ f.outside) :
    Fragment.ShowsArc ⟨withClause group clause, []⟩ ↔ ∃ f ∈ fs, f.ShowsArc := by
  simp only [Fragment.ShowsArc, Fragment.outside, List.append_nil,
    mem_outside_withClause plain entered, same]
  constructor
  · rintro ⟨line, ⟨f, member, there⟩, arc⟩
    exact ⟨f, member, line, there, arc⟩
  · rintro ⟨f, member, line, there, arc⟩
    exact ⟨line, ⟨f, member, there⟩, arc⟩

end Fragments

/-- A triple constraint must not match exactly if its upper bound is zero. -/
theorem constraintClause_eq_notExists {bounds : Bounds} :
    constraintClause bounds = some .notExists ↔ bounds.max.isZero = true := by
  unfold constraintClause
  split
  · next zero => simp [zero]
  · next zero => split <;> simp [zero]

/-- A group of triple expressions is never one that must not match, whatever
its bounds. -/
theorem groupClause_ne_notExists {bounds : Bounds} {clause : Option Clause}
    (marked : groupClause bounds = .ok clause) : clause ≠ some .notExists := by
  rcases groupClause_cases marked with rfl | rfl <;> decide

/-! ### Visits -/

section Visits

variable {context : Context}

/-- The fragments of operands show arcs if and only if an operand asks for one
that may occur. -/
theorem Chain.showsArc {subject : String} {operands : List TripleExpr} :
    ∀ {p q : Progress} {fs : List Fragment},
      Chain (fun p item f q => Visit context p item f q ∧
      ∀ subject expr, item = .triple subject expr → (f.ShowsArc ↔ context.Shows p.expanding expr)) p
      (operands.map (.triple subject)) fs q →
      ((∃ f ∈ fs, f.ShowsArc) ↔ ∃ operand ∈ operands, context.Shows p.expanding operand) := by
  induction operands with
  | nil =>
    intro p q fs chain
    cases chain
    simp
  | cons operand rest ih =>
    intro p q fs chain
    cases chain with
    | cons first others =>
      rw [List.exists_mem_cons_iff, List.exists_mem_cons_iff, first.2 _ _ rfl, ih others,
        first.1.expanding_eq]

/-- A triple constraint asks for an arc that may occur exactly if its upper
bound is not zero. -/
theorem shows_constraint_iff {expanding : List Target} {predicate id : Json} {inverse : Bool}
    {value : ShapeExpr} {bounds : Bounds}
    (named : predicate.isNull = true → ∀ nc, value ≠ .node nc) :
    context.Shows expanding (.constraint predicate inverse value bounds id) ↔
      constraintClause bounds ≠ some .notExists := by
  rw [ne_eq, constraintClause_eq_notExists, Bool.not_eq_true]
  constructor
  · intro shows
    cases shows with
    | constraint possible _ => exact possible
  · exact fun possible => .constraint possible named

theorem shows_eachOf_iff {expanding : List Target} {operands : List TripleExpr} {bounds : Bounds}
    {id : Json} :
    context.Shows expanding (.eachOf operands bounds id) ↔
      ∃ operand ∈ operands, context.Shows expanding operand := by
  constructor
  · intro shows
    cases shows with
    | eachOf member inner => exact ⟨_, member, inner⟩
  · rintro ⟨operand, member, inner⟩
    exact .eachOf member inner

theorem shows_oneOf_iff {expanding : List Target} {operands : List TripleExpr} {bounds : Bounds}
    {id : Json} :
    context.Shows expanding (.oneOf operands bounds id) ↔
      ∃ operand ∈ operands, context.Shows expanding operand := by
  constructor
  · intro shows
    cases shows with
    | oneOf member inner => exact ⟨_, member, inner⟩
  · rintro ⟨operand, member, inner⟩
    exact .oneOf member inner

/-- What a visit of a triple expression shows is what the expression asks for. -/
theorem Visit.showsArc_iff {p q : Progress} {subject : String} {expr : TripleExpr} {f : Fragment}
    (visit : Visit context p (.triple subject expr) f q) :
    f.ShowsArc ↔ context.Shows p.expanding expr := by
  have general := Visit.induct
    (fun p item f _ => ∀ subject expr, item = .triple subject expr →
      (f.ShowsArc ↔ context.Shows p.expanding expr))
    (fun {p item f q} rule => ?_) visit
  · exact general subject expr rfl
  · rintro subject expr rfl
    have arc : ∀ {predicate object inverse},
        IsArc (triplePattern subject predicate object inverse) :=
      ⟨_, _, _, _, rfl⟩
    have kept : ∀ {clause : Option Clause} {line : String} {lines : List String}, IsArc line →
        ((keepInside clause (line :: lines)).ShowsArc ↔ clause ≠ some .notExists) := by
      intro clause line lines arc
      simp only [Fragment.ShowsArc, mem_outside_keepInside]
      exact ⟨fun ⟨_, ⟨entered, _⟩, _⟩ => entered, fun entered => ⟨line, ⟨entered, by simp⟩, arc⟩⟩
    cases rule with
    | tripleMissing missing =>
      refine iff_of_false not_showsArc_empty fun shows => ?_
      cases shows with
      | reference found new inner =>
        rw [missing] at found
        cases found
    | tripleCut found mark =>
      refine iff_of_false not_showsArc_empty fun shows => ?_
      cases shows with
      | reference other new inner => exact new mark
    | tripleReference found new inner =>
      rw [inner.2 _ _ rfl]
      constructor
      · exact fun shows => .reference found new shows
      · intro shows
        cases shows with
        | reference other _ inner =>
          rw [found] at other
          cases other
          exact inner
    | arcToReference inner => rw [arcTo_showsArc arc, shows_constraint_iff (by simp)]
    | arc => rw [kept arc, shows_constraint_iff (by simp)]
    | arcToNode named written => rw [kept arc, shows_constraint_iff (by simp [named])]
    | nodeWithoutArc unnamed written =>
      refine iff_of_false ?_ fun shows => ?_
      · rintro ⟨line, member, arc⟩
        rw [mem_outside_keepInside] at member
        exact (constraintLines_constraint written line member.2).not_isArc arc
      · cases shows with
        | constraint possible named => exact named unnamed _ rfl
    | arcToInline inline inner =>
      rw [arcTo_showsArc arc, shows_constraint_iff]
      rintro - nc rfl
      cases inline
    | eachOf inner marked =>
      rw [grouped_showsArc (collect_clause _ _) (groupClause_ne_notExists marked)
        (mem_outside_collected _), inner.showsArc, shows_eachOf_iff]
    | oneOf inner marked =>
      rw [grouped_showsArc (branches_clause _) (groupClause_ne_notExists marked)
        (mem_outside_branched _), inner.showsArc, shows_oneOf_iff]
    | unsupportedTriple =>
      refine iff_of_false not_showsArc_empty fun shows => ?_
      cases shows

/-- A triple constraint that must not occur is a group of its own that must not
match. -/
theorem Visit.constraint_excluded {p q : Progress} {subject : String} {predicate id : Json}
    {inverse : Bool} {value : ShapeExpr} {bounds : Bounds} {f : Fragment}
    (visit : Visit context p (.triple subject (.constraint predicate inverse value bounds id)) f q)
    (excluded : bounds.max.isZero = true) : f.loose = [] ∧ f.group.clause = some .notExists := by
  have clause := constraintClause_eq_notExists.mpr excluded
  cases visit.rule <;> simp [keepInside, arcTo, clause]

/-- A triple expression with the upper bound zero gives no loose lines. -/
theorem Visit.bounded_loose {p q : Progress} {subject : String} {expr : TripleExpr}
    {bounds : Bounds} {f : Fragment} (visit : Visit context p (.triple subject expr) f q)
    (bounded : expr.bounds? = some bounds) (excluded : bounds.max.isZero = true) :
    f.loose = [] := by
  cases expr with
  | constraint =>
    cases bounded
    exact (visit.constraint_excluded excluded).1
  | eachOf =>
    cases visit.rule
    rfl
  | oneOf =>
    cases visit.rule
    rfl
  | reference => cases bounded
  | unsupported => cases bounded

end Visits

/-- A triple expression with the upper bound zero, on any subject and in any
state. In a well-typed schema it has a fragment, which has no loose lines. A
triple constraint is then a group that must not match, which stays one in every
finished group around it, so that nothing of it is outside. In general the
passes put no line into such groups and take none out, and there is an arc
outside of them if and only if the expression asks for an arc that may
occur. -/
theorem excluded_arcs (context : Context) (expr : TripleExpr) (bounds : Bounds)
    (bounded : expr.bounds? = some bounds) (excluded : bounds.max.isZero = true)
    (subject : String) (p : Progress) :
    (context.WellTyped → expr.wellTyped = true →
      ∃ f q, context.tripleExpr expr subject p = .ok f q) ∧
    ∀ f q, context.tripleExpr expr subject p = .ok f q →
      f.loose = [] ∧
      (∀ predicate inverse value id, expr = .constraint predicate inverse value bounds id →
        f.group.clause = some .notExists ∧ f.group.outside = [] ∧ f.group.postProcess.outside = [] ∧
        ∀ root : Group, f.group ∈ root.nodes → f.group.postProcess ∈ root.postProcess.nodes) ∧
      f.group.postProcess.outside.Perm f.group.outside ∧
      ((∃ line ∈ f.group.outside, IsArc line) ↔ context.Shows p.expanding expr) := by
  refine ⟨fun typed typedExpr => context.tripleExpr_ok typed typedExpr subject p,
    fun f q visited => ?_⟩
  have visit := tripleFragment_visit (linksTo_visit context context.targetCount) visited
  have loose := visit.bounded_loose bounded excluded
  have finished := outside_postProcess f.group
  refine ⟨loose, ?_, finished, ?_⟩
  · rintro predicate inverse value id rfl
    have clause := (visit.constraint_excluded excluded).2
    have none := outside_of_notExists clause
    rw [none] at finished
    exact ⟨clause, none, finished.eq_nil, fun root member => postProcess_mem_nodes member clause⟩
  · have shows := visit.showsArc_iff
    rwa [Fragment.ShowsArc, Fragment.outside, loose, List.append_nil] at shows

/-- A group of an arc that may occur and one that must not, none of which is to
occur. -/
def excludedPair : TripleExpr :=
  .eachOf [.constraint (.string "http://ex/p") false .any { min := .int 1, max := .int 1 } .null,
    .constraint (.string "http://ex/q") false .any { min := .int 0, max := .int 0 } .null]
    { min := .int 0, max := .int 0 } .null

/-- The first of the two arcs is outside, also in the finished group. -/
theorem excluded_arcs_pair :
    ∃ f q, Context.tripleExpr ⟨{}, []⟩ excludedPair "?s" {} = .ok f q ∧ f.loose = [] ∧
      (∃ line ∈ f.group.outside, IsArc line) ∧ ∃ line ∈ f.group.postProcess.outside,
        IsArc line := by
  obtain ⟨returns, results⟩ := excluded_arcs ⟨{}, []⟩ excludedPair _ rfl rfl "?s" {}
  obtain ⟨f, q, visited⟩ := returns ⟨by simp, by simp⟩ (by decide)
  obtain ⟨loose, -, finished, shown⟩ := results f q visited
  have possible : Context.Shows ⟨{}, []⟩ [] excludedPair :=
    .eachOf List.mem_cons_self (.constraint rfl (by simp [Json.isNull]))
  obtain ⟨line, member, arc⟩ := shown.mpr possible
  exact ⟨f, q, visited, loose, ⟨line, member, arc⟩, line, finished.mem_iff.mpr member, arc⟩

end Compile

end ShapeQuery
