import ShapeQuery.Proofs.GroupForm
import Mathlib.Data.Multiset.Basic

/-!
What moving filters up leaves as it was. Filters leave plain groups only, so a group with a clause
holds the same lines as before, its own and those of the plain groups inside it; lines that are no
filters stay in their group; and as no plain group of filters is left inside the result, moving
filters up once more changes nothing.
-/
namespace ShapeQuery

namespace Group

structure HoldsOnlyFilters (group : Group) : Prop where
  plain : group.clause = none
  bare : group.suffix = ""
  childless : group.children = []
  filled : group.lines ≠ []
  filters : ∀ line ∈ group.lines, isFilter line = true

/-- The test for the groups that filters leave, as a statement about their parts. -/
theorem isFilterLeaf_iff {group : Group} : group.isFilterLeaf = true ↔ group.HoldsOnlyFilters := by
  simp only [isFilterLeaf, Bool.and_eq_true, Option.isNone_iff_eq_none, beq_iff_eq,
    List.isEmpty_iff, Bool.not_eq_true', List.isEmpty_eq_false_iff, List.all_eq_true]
  constructor
  · rintro ⟨⟨⟨⟨plain, bare⟩, childless⟩, filled⟩, filters⟩
    exact ⟨plain, bare, childless, filled, filters⟩
  · rintro ⟨plain, bare, childless, filled, filters⟩
    exact ⟨⟨⟨⟨plain, bare⟩, childless⟩, filled⟩, filters⟩

/-! ### Lines up to certain clauses -/

mutual

/-- The lines of a group and of the groups inside it, where only groups with
certain clauses are entered. -/
def linesThrough (enters : Option Clause → Bool) : Group → List String
  | ⟨clause, _, lines, children⟩ => if enters clause
    then lines ++ linesThroughAll enters children else []

def linesThroughAll (enters : Option Clause → Bool) : List Group → List String
  | [] => []
  | group :: rest => group.linesThrough enters ++ linesThroughAll enters rest

end

section LinesThrough

variable {enters : Option Clause → Bool}

theorem linesThroughAll_eq (groups : List Group) :
    linesThroughAll enters groups = groups.flatMap (linesThrough enters) := by
  induction groups with
  | nil => rw [linesThroughAll, List.flatMap_nil]
  | cons group rest ih => rw [linesThroughAll, ih, List.flatMap_cons]

theorem linesThrough_eq (group : Group) :
    group.linesThrough enters =
      if enters group.clause then group.lines ++ group.children.flatMap (linesThrough enters)
        else [] := by
  cases group
  rw [linesThrough, linesThroughAll_eq]

theorem HoldsOnlyFilters.linesThrough {group : Group} (leaf : group.HoldsOnlyFilters)
    (plain : enters none = true) : group.linesThrough enters = group.lines := by
  rw [linesThrough_eq, leaf.plain, leaf.childless, if_pos plain, List.flatMap_nil, List.append_nil]

/-- Filters move up from plain groups only, so wherever plain groups are
entered the same lines are met. -/
theorem linesThrough_bubbleFilters (plain : enters none = true) (group : Group) :
    (group.bubbleFilters.linesThrough enters).Perm (group.linesThrough enters) := by
  induction group using Group.induct with
  | step group ih =>
    have lifted : ((group.children.map bubbleFilters).filter isFilterLeaf).flatMap lines =
        ((group.children.map bubbleFilters).filter isFilterLeaf).flatMap (linesThrough enters) := by
      refine List.flatMap_congr fun leaf member => ?_
      rw [(isFilterLeaf_iff.mp (List.mem_filter.mp member).2).linesThrough plain]
    rw [bubbleFilters_eq, linesThrough_eq, linesThrough_eq]
    split
    · rw [List.append_assoc]
      refine List.Perm.append_left _ ?_
      calc
        _ = ((group.children.map bubbleFilters).filter isFilterLeaf ++
              (group.children.map bubbleFilters).filter (!·.isFilterLeaf)).flatMap
                (linesThrough enters) := by
          rw [lifted, List.flatMap_append]
        List.Perm _ ((group.children.map bubbleFilters).flatMap (linesThrough enters)) :=
          (List.filter_append_perm isFilterLeaf _).flatMap_right _
        _ = group.children.flatMap fun child => child.bubbleFilters.linesThrough enters :=
          List.flatMap_map ..
        List.Perm _ (group.children.flatMap (linesThrough enters)) := List.Perm.flatMap_left _ ih
    · rfl

end LinesThrough

/-! ### Groups with a clause -/

/-- The lines of a group and of the plain groups inside it, up to groups with a
clause. -/
def openLines (group : Group) : List String :=
  linesThrough Option.isNone { group with clause := none }

/-- The lines that count as standing in a group are the same after filters have
moved up, in another order. -/
theorem openLines_bubbleFilters (group : Group) :
    group.bubbleFilters.openLines.Perm group.openLines := by
  have same : ({ group.bubbleFilters with clause := none } : Group) =
      ({ group with clause := none } : Group).bubbleFilters := by
    rw [bubbleFilters_eq, bubbleFilters_eq]
  rw [openLines, same]
  exact linesThrough_bubbleFilters rfl _

/-- A group without the plain groups inside it: what stands in them counts as
standing in the group with a clause around them. The group at the top is kept
even if it is plain. -/
structure Outline where
  clause : Option Clause
  lines : Multiset String
  inner : List Outline

mutual

/-- The outlines of the groups with a clause inside a group. Plain groups on
the way to them do not show. -/
def tagged : Group → List Outline
  | ⟨_, _, _, children⟩ => taggedInAll children

def taggedInAll : List Group → List Outline
  | [] => []
  | group :: rest =>
    (if group.clause.isNone then group.tagged
      else [⟨group.clause, group.openLines, group.tagged⟩]) ++
      taggedInAll rest

end

def outline (group : Group) : Outline :=
  ⟨group.clause, group.openLines, group.tagged⟩

/-- What a group inside another one contributes to the outline of that one. -/
def outlines (group : Group) : List Outline :=
  if group.clause.isNone then group.tagged else [group.outline]

theorem tagged_eq (group : Group) : group.tagged = group.children.flatMap outlines := by
  have inAll : ∀ groups, taggedInAll groups = groups.flatMap outlines := by
    intro groups
    induction groups with
    | nil => rw [taggedInAll, List.flatMap_nil]
    | cons group rest ih =>
      rw [taggedInAll, ih, List.flatMap_cons]
      rfl
  cases group
  rw [tagged, inAll]

/-- The groups that move up can be left out where they contribute nothing. -/
theorem flatMap_kept {α : Type} {view : Group → List α}
    (leaves : ∀ group, group.HoldsOnlyFilters → view group = []) (groups : List Group) :
    (groups.filter (!·.isFilterLeaf)).flatMap view = groups.flatMap view := by
  induction groups with
  | nil => rfl
  | cons group rest ih =>
    by_cases leaf : group.isFilterLeaf = true
    · rw [List.filter_cons_of_neg (by simp [leaf]), ih, List.flatMap_cons,
        leaves group (isFilterLeaf_iff.mp leaf), List.nil_append]
    · rw [List.filter_cons_of_pos (by simpa using leaf), List.flatMap_cons, ih, List.flatMap_cons]

theorem HoldsOnlyFilters.outlines {group : Group} (leaf : group.HoldsOnlyFilters) :
    group.outlines = [] := by
  rw [Group.outlines, leaf.plain, tagged_eq, leaf.childless]
  rfl

/-- The groups with a clause inside a group are the same, at every depth.
Induction on the group, as what moves up inside a child stays inside it or
leaves a plain one. -/
theorem tagged_bubbleFilters (group : Group) : group.bubbleFilters.tagged = group.tagged := by
  induction group using Group.induct with
  | step group ih =>
    have each : ∀ child ∈ group.children, child.bubbleFilters.outlines = child.outlines := by
      intro child member
      have lines : (child.bubbleFilters.openLines : Multiset String) = child.openLines :=
        Multiset.coe_eq_coe.mpr (openLines_bubbleFilters child)
      simp only [outlines, outline, bubbleFilters_clause, ih child member, lines]
    rw [tagged_eq, tagged_eq, bubbleFilters_eq, flatMap_kept fun _ leaf => leaf.outlines,
      List.flatMap_map]
    exact List.flatMap_congr each

/-- No filter leaves a group with a clause, and none comes into one from outside. -/
theorem outline_bubbleFilters (group : Group) : group.bubbleFilters.outline = group.outline := by
  have lines : (group.bubbleFilters.openLines : Multiset String) = group.openLines :=
    Multiset.coe_eq_coe.mpr (openLines_bubbleFilters group)
  rw [outline, outline, bubbleFilters_clause, lines, tagged_bubbleFilters]

/-! ### Lines that are no filters -/

mutual

/-- A group without its filters, and without the plain groups that then have
nothing in them. -/
def withoutFilters : Group → Group
  | ⟨clause, suffix, lines, children⟩ =>
    ⟨clause, suffix, lines.filter (!isFilter ·), withoutFiltersAll children⟩

def withoutFiltersAll : List Group → List Group
  | [] => []
  | group :: rest =>
    if group.withoutFilters.isEmpty then withoutFiltersAll rest
    else group.withoutFilters :: withoutFiltersAll rest

end

def remains (group : Group) : List Group :=
  if group.withoutFilters.isEmpty then [] else [group.withoutFilters]

theorem withoutFilters_eq (group : Group) :
    group.withoutFilters =
      { group with
        lines := group.lines.filter (!isFilter ·)
        children := group.children.flatMap remains } := by
  have inAll : ∀ groups, withoutFiltersAll groups = groups.flatMap remains := by
    intro groups
    induction groups with
    | nil => rw [withoutFiltersAll, List.flatMap_nil]
    | cons group rest ih =>
      rw [withoutFiltersAll, ih, List.flatMap_cons, remains]
      split <;> rfl
  cases group
  rw [withoutFilters, inAll]

theorem filter_eq_nil_of_filters {lines : List String}
    (filters : ∀ line ∈ lines, isFilter line = true) : lines.filter (!isFilter ·) = [] := by
  rw [List.filter_eq_nil_iff]
  intro line member
  simp [filters line member]

theorem HoldsOnlyFilters.remains {group : Group} (leaf : group.HoldsOnlyFilters) :
    group.remains = [] := by
  have empty : group.withoutFilters.isEmpty = true := by
    rw [withoutFilters_eq]
    simp [isEmpty, leaf.plain, leaf.bare, leaf.childless, filter_eq_nil_of_filters leaf.filters]
  rw [Group.remains, if_pos empty]

/-- Every line that is no filter stays in its group, in its order. -/
theorem withoutFilters_bubbleFilters (group : Group) :
    group.bubbleFilters.withoutFilters = group.withoutFilters := by
  induction group using Group.induct with
  | step group ih =>
    have lifted : (((group.children.map bubbleFilters).filter isFilterLeaf).flatMap lines).filter
        (!isFilter ·) = [] := by
      refine filter_eq_nil_of_filters fun line member => ?_
      obtain ⟨leaf, leafMember, lineMember⟩ := List.mem_flatMap.mp member
      exact (isFilterLeaf_iff.mp (List.mem_filter.mp leafMember).2).filters line lineMember
    have inside : ((group.children.map bubbleFilters).filter (!·.isFilterLeaf)).flatMap remains =
        group.children.flatMap remains := by
      rw [flatMap_kept fun _ leaf => leaf.remains, List.flatMap_map]
      exact List.flatMap_congr fun child member => by rw [remains, remains, ih child member]
    rw [bubbleFilters_eq, withoutFilters_eq, withoutFilters_eq]
    simp only [List.filter_append, lifted, List.append_nil, inside]

/-! ### Normal form -/

/-- No group inside, at any depth, is a plain one with nothing but filters. -/
def IsBubbled (group : Group) : Prop :=
  group.EveryNode fun node => ∀ child ∈ node.children, ¬ child.HoldsOnlyFilters

/-- After filters have moved up, no plain group of filters is left. A group
that becomes one on the way is moved up itself. -/
theorem isBubbled_bubbleFilters (group : Group) : group.bubbleFilters.IsBubbled := by
  induction group using Group.induct with
  | step group ih =>
    rw [IsBubbled, bubbleFilters_eq, everyNode_iff]
    refine ⟨fun child member leaf => ?_, fun child member => ?_⟩
    · have stays := (List.mem_filter.mp member).2
      rw [isFilterLeaf_iff.mpr leaf] at stays
      cases stays
    · obtain ⟨original, originalMember, rfl⟩ := List.mem_map.mp (List.mem_filter.mp member).1
      exact ih original originalMember

theorem bubbleFilters_eq_self {group : Group} (bubbled : group.IsBubbled) :
    group.bubbleFilters = group := by
  induction group using Group.induct with
  | step group ih =>
    obtain ⟨here, inside⟩ := everyNode_iff.mp bubbled
    have same : group.children.map bubbleFilters = group.children := by
      rw [List.map_congr_left fun child member => ih child member (inside child member),
        List.map_id']
    have noLeaf : ∀ child ∈ group.children, child.isFilterLeaf = false := by
      intro child member
      rw [Bool.eq_false_iff]
      exact fun leaf => here child member (isFilterLeaf_iff.mp leaf)
    have none : group.children.filter isFilterLeaf = [] :=
      List.filter_eq_nil_iff.mpr fun child member => by simp [noLeaf child member]
    have all : group.children.filter (!·.isFilterLeaf) = group.children :=
      List.filter_eq_self.mpr fun child member => by simp [noLeaf child member]
    rw [bubbleFilters_eq, same]
    simp only [none, all, List.flatMap_nil, List.append_nil]
    cases group
    rfl

/-- Moving filters up keeps the groups with a clause as they are, with the
lines that belong to each, and every other line in its group; the result has no
plain group of filters inside, exactly the groups without one are left
unchanged, and doing it twice is doing it once. -/
theorem bubbleFilters_normalizes (group : Group) :
    group.bubbleFilters.outline = group.outline ∧
    group.bubbleFilters.withoutFilters = group.withoutFilters ∧
    group.bubbleFilters.IsBubbled ∧
    (group.bubbleFilters = group ↔ group.IsBubbled) ∧
    group.bubbleFilters.bubbleFilters = group.bubbleFilters := by
  have normal := isBubbled_bubbleFilters group
  refine ⟨outline_bubbleFilters group, withoutFilters_bubbleFilters group, normal,
    ⟨fun unchanged => ?_, bubbleFilters_eq_self⟩, bubbleFilters_eq_self normal⟩
  rw [← unchanged]
  exact normal

end Group

end ShapeQuery
