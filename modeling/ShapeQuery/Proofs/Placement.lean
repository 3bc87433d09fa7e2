import ShapeQuery.Proofs.Lines
import ShapeQuery.Proofs.WellTyped
import Mathlib.Algebra.BigOperators.Group.Multiset.Basic

/-!
Where the triple patterns of a compiled group stand. The arcs of an expression are read off the
schema directly, each with the clauses that the expressions around it call for, and references are
unfolded until they come back to a target on the way. The compiled group of the start shape has the
same triple patterns under the same clauses: none is lost, repeated or moved into another clause.
-/
namespace ShapeQuery

/-- A triple pattern with the clauses around it, outermost first. Two patterns
are only the same if they stand under the same clauses. -/
structure Placed where
  clauses : List Clause
  line : String

def Placed.under (clauses : List Clause) (placed : Placed) : Placed :=
  ⟨clauses ++ placed.clauses, placed.line⟩

def placedLines (lines : List String) : Multiset Placed :=
  ↑((lines.filter isTriple).map (Placed.mk []))

mutual

/-- The triple patterns of a group and the groups inside it, with the clauses
of the groups that they are in. -/
def Group.placed : Group → Multiset Placed
  | ⟨clause, _, lines, children⟩ =>
    (placedLines lines + placedInAll children).map (Placed.under clause.toList)

def placedInAll : List Group → Multiset Placed
  | [] => 0
  | group :: rest => group.placed + placedInAll rest

end

theorem Placed.map_under_nil (all : Multiset Placed) : all.map (Placed.under []) = all := by
  have same : Placed.under [] = id := by
    funext placed
    rfl
  rw [same, Multiset.map_id]

theorem Placed.map_under_under (outer inner : List Clause) (all : Multiset Placed) :
    (all.map (Placed.under inner)).map (Placed.under outer) =
      all.map (Placed.under (outer ++ inner)) := by
  rw [Multiset.map_map]
  congr 1
  funext placed
  simp [Placed.under, List.append_assoc]

@[simp] theorem placedLines_nil : placedLines [] = 0 := rfl

theorem placedLines_append (front back : List String) :
    placedLines (front ++ back) = placedLines front + placedLines back := by
  simp [placedLines]

theorem placedLines_singleton {line : String} (triple : isTriple line = true) :
    placedLines [line] = {⟨[], line⟩} := by
  simp [placedLines, triple]

theorem placedLines_eq_zero {lines : List String} (none : ∀ line ∈ lines, isTriple line = false) :
    placedLines lines = 0 := by
  have empty : lines.filter isTriple = [] := by
    rw [List.filter_eq_nil_iff]
    intro line member
    simp [none line member]
  simp [placedLines, empty]

theorem placedInAll_append (front back : List Group) :
    placedInAll (front ++ back) = placedInAll front + placedInAll back := by
  induction front with
  | nil => simp [placedInAll]
  | cons group rest ih => rw [List.cons_append, placedInAll, placedInAll, ih, add_assoc]

namespace Group

/-- The patterns of a group are those of its lines and of its children, under
its own clause. -/
theorem placed_eq (group : Group) :
    group.placed =
      (placedLines group.lines + placedInAll group.children).map
        (Placed.under group.clause.toList) := by
  cases group
  rw [placed]

/-- An empty group has no patterns, so nothing is lost when it is dropped. -/
theorem placed_of_isEmpty {group : Group} (empty : group.isEmpty = true) : group.placed = 0 := by
  simp only [isEmpty, Bool.and_eq_true, List.isEmpty_iff] at empty
  rw [placed_eq, empty.2, empty.1.2]
  simp [placedInAll]

@[simp] theorem addChild_clause (group child : Group) :
    (group.addChild child).clause = group.clause := by
  unfold addChild
  split <;> rfl

@[simp] theorem addChild?_clause (group : Group) (child : Option Group) :
    (group.addChild? child).clause = group.clause := by
  cases child with
  | none => rfl
  | some child => exact addChild_clause group child

@[simp] theorem addLines_clause (group : Group) (lines : List String) :
    (group.addLines lines).clause = group.clause := rfl

/-- A child adds its patterns, under the clause of the group that it is added to. -/
theorem placed_addChild (group child : Group) :
    (group.addChild child).placed =
      group.placed + child.placed.map (Placed.under group.clause.toList) := by
  unfold addChild
  split
  · next empty => simp [placed_of_isEmpty empty]
  · rw [placed_eq, placed_eq group]
    simp only [placedInAll_append, placedInAll, Multiset.map_add, add_zero, add_assoc]

theorem placed_addLines (group : Group) (lines : List String) :
    (group.addLines lines).placed =
      group.placed + (placedLines lines).map (Placed.under group.clause.toList) := by
  rw [placed_eq, placed_eq group]
  simp only [addLines, placedLines_append, Multiset.map_add]
  rw [add_right_comm]

theorem placed_of_asBranch_none {branch : Group} {lines : List String} {clause : Clause}
    (nothing : branch.asBranch lines (some clause) = none) :
    branch.placed + placedLines lines = 0 := by
  unfold asBranch at nothing
  split at nothing
  · next empty =>
    split at nothing
    · next noLines =>
      rw [placed_of_isEmpty empty, List.isEmpty_iff.mp noLines]
      rfl
    · cases nothing
  · split at nothing <;> cases nothing

/-- An alternative keeps its triple patterns and gets one clause more, whether
it is marked itself or wrapped in a group that is. -/
theorem placed_of_asBranch {branch result : Group} {lines : List String} {clause : Clause}
    (made : branch.asBranch lines (some clause) = some result) :
    result.placed = (branch.placed + placedLines lines).map (Placed.under [clause]) := by
  unfold asBranch at made
  split at made
  · next empty =>
    split at made
    · cases made
    · cases made
      rw [placed_of_isEmpty empty, zero_add, placed, placedInAll, add_zero]
      rfl
  · split at made
    · next untagged =>
      have plain : branch.clause = none := by simpa using untagged
      cases made
      rw [placed_eq branch, plain, Option.toList_none, Placed.map_under_nil, placed,
        placedLines_append, add_comm (placedLines branch.lines + placedInAll branch.children),
          add_assoc]
      rfl
    · cases made
      rw [placed, placedInAll, placedInAll, add_zero, add_comm (placedLines lines)]
      rfl

theorem placed_addBranch (group branch : Group) (lines : List String) (clause : Clause)
    (plain : group.clause = none) :
    (group.addChild? (branch.asBranch lines (some clause))).placed =
      group.placed + (branch.placed + placedLines lines).map (Placed.under [clause]) := by
  cases made : branch.asBranch lines (some clause) with
  | none => rw [addChild?, placed_of_asBranch_none made, Multiset.map_zero, add_zero]
  | some result =>
    rw [addChild?, placed_addChild, plain, Option.toList_none, Placed.map_under_nil,
      placed_of_asBranch made]

end Group

namespace Compile

def Fragment.placed (f : Fragment) : Multiset Placed :=
  f.group.placed + placedLines f.loose

def placedInFragments (fs : List Fragment) : Multiset Placed :=
  (fs.map Fragment.placed).sum

@[simp] theorem placedInFragments_nil : placedInFragments [] = 0 := rfl

@[simp] theorem placedInFragments_cons (f : Fragment) (fs : List Fragment) :
    placedInFragments (f :: fs) = f.placed + placedInFragments fs := by
  simp [placedInFragments]

theorem placed_plain (clause : Option Clause) : ({ clause } : Group).placed = 0 := by
  rw [Group.placed, placedInAll]
  rfl

theorem Fragment.placed_of_group (group : Group) : Fragment.placed ⟨group, []⟩ = group.placed := by
  rw [Fragment.placed, placedLines_nil, add_zero]

theorem Fragment.placed_empty : Fragment.placed {} = 0 := by
  rw [placed_of_group]
  exact placed_plain none

/-- Collecting fragments puts their patterns under the clause of the group.
Induction on the fragments. -/
theorem collect_placed (fs : List Fragment) : ∀ group : Group,
    (collect group fs).placed =
      group.placed + (placedInFragments fs).map (Placed.under group.clause.toList) := by
  induction fs with
  | nil =>
    intro group
    simp [collect]
  | cons f fs ih =>
    intro group
    have rest := ih (group.addChild f.group |>.addLines f.loose)
    rw [Group.placed_addLines, Group.placed_addChild, Group.addLines_clause,
      Group.addChild_clause] at rest
    rw [collect, List.foldl_cons, ← collect, rest, placedInFragments_cons, Fragment.placed,
      Multiset.map_add, Multiset.map_add]
    simp only [add_assoc]

theorem collected_placed (clause : Option Clause) (fs : List Fragment) :
    Fragment.placed ⟨collect { clause } fs, []⟩ =
      (placedInFragments fs).map (Placed.under clause.toList) := by
  rw [Fragment.placed_of_group, collect_placed, placed_plain, zero_add]

theorem collect_clause (fs : List Fragment) :
    ∀ group : Group, (collect group fs).clause = group.clause := by
  induction fs with
  | nil => exact fun group => rfl
  | cons f fs ih =>
    intro group
    rw [collect, List.foldl_cons, ← collect, ih, Group.addLines_clause, Group.addChild_clause]

/-- Fragments that become alternatives have their patterns under the mark of an
alternative. -/
theorem branches_placed (fs : List Fragment) : ∀ group : Group, group.clause = none →
    (branches group fs).placed =
      group.placed + (placedInFragments fs).map (Placed.under [.union]) ∧
    (branches group fs).clause = none := by
  induction fs with
  | nil =>
    intro group plain
    simp [branches, plain]
  | cons f fs ih =>
    intro group plain
    have step := Group.placed_addBranch group f.group f.loose .union plain
    obtain ⟨rest, clause⟩ := ih (group.addChild? (f.group.asBranch f.loose (some .union)))
      (by rw [Group.addChild?_clause, plain])
    rw [branches, List.foldl_cons, ← branches]
    refine ⟨?_, clause⟩
    rw [rest, step, placedInFragments_cons,
      Multiset.map_add (Placed.under [.union]) f.placed, add_assoc]
    rfl

/-- What is known of the alternatives of a disjunction while they are gathered:
the group has no clause, and what is kept aside are filters. -/
structure Alternatives.Pending (alternatives : Alternatives) : Prop where
  plain : alternatives.group.clause = none
  filters : ∀ line ∈ alternatives.filters, isFilter line = true

/-- An operand of a disjunction adds its patterns as an alternative. Filters
that are kept aside have none. -/
theorem Alternatives.add_placed {alternatives : Alternatives} (pending : alternatives.Pending)
    (f : Fragment) :
    (alternatives.add f).Pending ∧
    (alternatives.add f).group.placed =
      alternatives.group.placed + f.placed.map (Placed.under [.union]) := by
  obtain ⟨plain, filters⟩ := pending
  have branch := Group.placed_addBranch alternatives.group f.group [] .union plain
  have kept : (alternatives.group.addChild? (f.group.asBranch [] (some .union))).clause = none := by
    rw [Group.addChild?_clause, plain]
  rw [placedLines_nil, add_zero] at branch
  unfold Alternatives.add
  dsimp only
  split
  · next noLines =>
    refine ⟨⟨kept, filters⟩, ?_⟩
    rw [branch, Fragment.placed, List.isEmpty_iff.mp noLines, placedLines_nil, add_zero]
  · split
    · next allFilters =>
      rw [List.all_eq_true] at allFilters
      have none := placedLines_eq_zero fun line member =>
        isTriple_of_isFilter (allFilters line member)
      refine ⟨⟨kept, ?_⟩, ?_⟩
      · intro line member
        rcases List.mem_append.mp member with before | merged
        · exact filters line before
        · rw [List.mem_singleton.mp merged]
          exact mergeFilters_filter _ allFilters
      · rw [branch, Fragment.placed, none, add_zero]
    · refine ⟨⟨?_, filters⟩, ?_⟩
      · rw [Group.addChild_clause, kept]
      · rw [Group.placed_addChild, kept, Option.toList_none, Placed.map_under_nil, branch,
          Group.placed, placedInAll, add_zero, Option.toList_some, add_assoc, ← Multiset.map_add]
        rfl

/-- The filter that is made in the end adds no pattern. -/
theorem Alternatives.close_placed {alternatives : Alternatives} (pending : alternatives.Pending) :
    alternatives.close.placed = alternatives.group.placed := by
  have merged : placedLines [mergeFilters alternatives.filters "||"] = 0 := by
    apply placedLines_eq_zero
    intro line member
    rw [List.mem_singleton.mp member]
    exact isTriple_of_isFilter (mergeFilters_filter _ pending.filters)
  unfold Alternatives.close
  dsimp only
  split
  · rfl
  · split
    · rw [Group.placed_addLines, merged, Multiset.map_zero, add_zero]
    · rw [Group.placed_addChild, Group.placed, merged, placedInAll]
      simp

/-- The patterns of a disjunction are those of its operands, each as an
alternative. Induction on the operands. -/
theorem disjunction_placed (fs : List Fragment) :
    ∀ alternatives : Alternatives, alternatives.Pending →
      (fs.foldl Alternatives.add alternatives).close.placed =
      alternatives.group.placed + (placedInFragments fs).map (Placed.under [.union]) := by
  induction fs with
  | nil =>
    intro alternatives pending
    simp [Alternatives.close_placed pending]
  | cons f fs ih =>
    intro alternatives pending
    obtain ⟨next, step⟩ := Alternatives.add_placed pending f
    rw [List.foldl_cons, ih _ next, step, placedInFragments_cons, Multiset.map_add, add_assoc]

/-- An arc stands with what describes its object under the clause of the arc. -/
theorem arcTo_placed (clause : Option Clause) (described : Fragment) {subject object : String}
    (bound : IsVariable subject) (other : IsVariable object) (predicate : String) (inverse : Bool) :
    (arcTo clause described (triplePattern subject predicate object inverse)).placed =
      (described.placed + {⟨[], triplePattern subject predicate object inverse⟩}).map
        (Placed.under clause.toList) := by
  have triple := (triplePattern_starts bound other predicate inverse).isTriple
  rw [arcTo, Fragment.placed_of_group, Group.placed_addLines, Group.placed_addChild,
    Group.addChild_clause, placed_plain, zero_add, placedLines_append, placedLines_singleton triple,
    ← Multiset.map_add, Fragment.placed, add_assoc]

theorem keepInside_placed (clause : Option Clause) (lines : List String) :
    (keepInside clause lines).placed = (placedLines lines).map (Placed.under clause.toList) := by
  cases clause with
  | none =>
    rw [keepInside, if_neg (by simp), Fragment.placed, Group.placed, placedInAll]
    simp [Placed.map_under_nil]
  | some clause =>
    rw [keepInside, if_pos Option.isSome_some, Fragment.placed_of_group, Group.placed,
      placedInAll, add_zero]

/-- An arc to a described value is the only pattern of its lines, the others
being filters or lists of values. -/
theorem keepInside_arc_placed (clause : Option Clause) {subject object : String}
    (bound : IsVariable subject) (other : IsVariable object) (predicate : String) (inverse : Bool)
    {lines : List String} (none : ∀ line ∈ lines, isTriple line = false) :
    (keepInside clause (triplePattern subject predicate object inverse :: lines)).placed =
      ({⟨[], triplePattern subject predicate object inverse⟩} : Multiset Placed).map
        (Placed.under clause.toList) := by
  have triple := (triplePattern_starts bound other predicate inverse).isTriple
  rw [keepInside_placed, ← List.singleton_append, placedLines_append, placedLines_eq_zero none,
    placedLines_singleton triple, add_zero]

theorem withClause_placed {group : Group} (plain : group.clause = none) (clause : Option Clause) :
    (withClause group clause).placed = group.placed.map (Placed.under clause.toList) := by
  cases clause with
  | none => rw [withClause, Option.toList_none, Placed.map_under_nil]
  | some clause =>
    rw [withClause, Group.placed_eq group, plain, Option.toList_none, Placed.map_under_nil,
      Group.placed]

/-- A disjunction that starts without alternatives has the patterns of its
operands and no others. -/
theorem disjoined_placed (fs : List Fragment) :
    Fragment.placed ⟨(fs.foldl Alternatives.add {}).close, []⟩ =
      (placedInFragments fs).map (Placed.under [.union]) := by
  rw [Fragment.placed_of_group, disjunction_placed fs {} ⟨rfl, by simp⟩, placed_plain, zero_add]

theorem grouped_placed (clause : Option Clause) (fs : List Fragment) :
    Fragment.placed ⟨withClause (collect {} fs) clause, []⟩ =
      (placedInFragments fs).map (Placed.under clause.toList) := by
  rw [Fragment.placed_of_group, withClause_placed (collect_clause fs {}), collect_placed,
    placed_plain, zero_add, Option.toList_none, Placed.map_under_nil]

/-- In a choice between triple expressions the patterns are alternatives below
the clause of the choice. -/
theorem branched_placed (clause : Option Clause) (fs : List Fragment) :
    Fragment.placed ⟨withClause (branches {} fs) clause, []⟩ =
      (placedInFragments fs).map (Placed.under (clause.toList ++ [.union])) := by
  obtain ⟨placed, plain⟩ := branches_placed fs {} rfl
  rw [Fragment.placed_of_group, withClause_placed plain, placed, placed_plain, zero_add,
    Placed.map_under_under]

end Compile

end ShapeQuery
