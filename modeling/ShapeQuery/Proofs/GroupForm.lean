import ShapeQuery.Proofs.Lines

/-!
The form of groups, level by level. While a group is built, all alternatives of a disjunction are
marked; the passes over the finished group leave the mark on all but the first, and nothing else
changes in what stands beside what.
-/
namespace ShapeQuery

namespace Group

/-- Induction over groups: what is inside comes first. -/
theorem induct {motive : Group → Prop}
    (step : ∀ group, (∀ child ∈ group.children, motive child) → motive group) (group : Group) :
    motive group :=
  step group fun child _ => induct step child
termination_by sizeOf group
decreasing_by
  have smaller := List.sizeOf_lt_of_mem ‹_›
  cases group
  simp only [Group.mk.sizeOf_spec] at smaller ⊢
  omega

theorem nodesOfAll_eq (groups : List Group) : nodesOfAll groups = groups.flatMap nodes := by
  induction groups with
  | nil => rw [nodesOfAll, List.flatMap_nil]
  | cons group rest ih => rw [nodesOfAll, ih, List.flatMap_cons]

/-- The groups of a group: itself, and those of its children in their order. -/
theorem nodes_eq (group : Group) : group.nodes = group :: group.children.flatMap nodes := by
  cases group
  rw [nodes, nodesOfAll_eq]

def EveryNode (property : Group → Prop) (group : Group) : Prop :=
  ∀ node ∈ group.nodes, property node

/-- A property of all groups in a group is one of the group itself and of all
groups in its children. -/
theorem everyNode_iff {property : Group → Prop} {group : Group} :
    group.EveryNode property ↔
      property group ∧ ∀ child ∈ group.children, child.EveryNode property := by
  unfold EveryNode
  rw [nodes_eq, List.forall_mem_cons, List.forall_mem_flatMap]

@[simp] theorem addLines_nil (group : Group) : group.addLines [] = group := by
  cases group
  rw [addLines, List.append_nil]

/-- A group that is plain or an alternative has something in it. -/
def Filled (group : Group) : Prop :=
  group.clause = none ∨ group.clause = some .union → group.lines ≠ [] ∨ group.children ≠ []

theorem Filled.not_isEmpty {group : Group} (filled : group.Filled) : group.isEmpty = false := by
  cases plain : group.clause with
  | some clause => simp [isEmpty, plain]
  | none =>
    rcases filled (Or.inl plain) with lines | children
    · simp [isEmpty, lines]
    · simp [isEmpty, children]

/-! ### What the passes do at one level -/

theorem bubbleChildren_eq (children : List Group) :
    bubbleChildren children =
      (((children.map bubbleFilters).filter isFilterLeaf).flatMap lines,
        (children.map bubbleFilters).filter (!·.isFilterLeaf)) := by
  induction children with
  | nil => rfl
  | cons child rest ih =>
    rw [bubbleChildren, ih]
    by_cases leaf : child.bubbleFilters.isFilterLeaf = true <;> simp [leaf]

/-- Moving filters up, in one equation: the lines of the children that become
filter leaves come behind those of the group, and the other children stay. -/
theorem bubbleFilters_eq (group : Group) :
    group.bubbleFilters =
      { group with
        lines := group.lines ++ ((group.children.map bubbleFilters).filter isFilterLeaf).flatMap
          lines
        children := (group.children.map bubbleFilters).filter (!·.isFilterLeaf) } := by
  cases group
  rw [bubbleFilters, bubbleChildren_eq]

@[simp] theorem bubbleFilters_clause (group : Group) :
    group.bubbleFilters.clause = group.clause := by
  rw [bubbleFilters_eq]

theorem stripChildren_false (children : List Group) :
    stripChildren false children = children.map stripLeadingUnion := by
  induction children with
  | nil => rfl
  | cons child rest ih => rw [stripChildren, ih, List.map_cons, if_neg (by decide)]

theorem stripLeadingUnion_eq (group : Group) :
    group.stripLeadingUnion = { group with children := stripChildren true group.children } := by
  cases group
  rw [stripLeadingUnion]

@[simp] theorem stripLeadingUnion_clause (group : Group) :
    group.stripLeadingUnion.clause = group.clause := by
  rw [stripLeadingUnion_eq]

/-- The first child loses its mark and the others keep it. -/
theorem stripChildren_cons (child : Group) (rest : List Group) :
    stripChildren true (child :: rest) =
      child.stripLeadingUnion.untagUnion :: rest.map stripLeadingUnion := by
  rw [stripChildren, stripChildren_false, if_pos rfl]

/-- What does not depend on the mark of an alternative is found in every group
of a row as before. -/
theorem flatMap_stripChildren {α : Type} {view : Group → List α}
    (unmarked : ∀ group, view group.untagUnion = view group) (children : List Group) :
    (stripChildren true children).flatMap view =
      children.flatMap fun child => view child.stripLeadingUnion := by
  cases children with
  | nil => rfl
  | cons child rest =>
    rw [stripChildren_cons, List.flatMap_cons, List.flatMap_cons, unmarked, List.flatMap_map]

@[simp] theorem stripLeadingUnion_lines (group : Group) :
    group.stripLeadingUnion.lines = group.lines := by
  rw [stripLeadingUnion_eq]

theorem stripLeadingUnion_children (group : Group) :
    group.stripLeadingUnion.children = stripChildren true group.children := by
  rw [stripLeadingUnion_eq]

@[simp] theorem untagUnion_children (group : Group) :
    group.untagUnion.children = group.children := by
  unfold untagUnion
  split <;> rfl

/-- A group that has something in it keeps something when filters move up. -/
theorem bubbleFilters_content {group : Group} (content : group.lines ≠ [] ∨ group.children ≠ []) :
    group.bubbleFilters.lines ≠ [] ∨ group.bubbleFilters.children ≠ [] := by
  rw [bubbleFilters_eq]
  rcases content with lines | children
  · exact Or.inl (List.append_ne_nil_of_left_ne_nil lines _)
  · obtain ⟨child, member⟩ := List.exists_mem_of_ne_nil _ children
    have listed : child.bubbleFilters ∈ group.children.map bubbleFilters :=
      List.mem_map_of_mem member
    by_cases leaf : child.bubbleFilters.isFilterLeaf = true
    · have some : child.bubbleFilters.lines ≠ [] := by
        simp only [isFilterLeaf, Bool.and_eq_true, Bool.not_eq_true',
          List.isEmpty_eq_false_iff] at leaf
        exact leaf.1.2
      obtain ⟨line, lineMember⟩ := List.exists_mem_of_ne_nil _ some
      have lifted := List.mem_flatMap.mpr ⟨_, List.mem_filter.mpr ⟨listed, leaf⟩, lineMember⟩
      exact Or.inl (List.append_ne_nil_of_right_ne_nil _ (List.ne_nil_of_mem lifted))
    · exact Or.inr (List.ne_nil_of_mem (List.mem_filter.mpr ⟨listed, by simpa using leaf⟩))

/-- A group that has something in it keeps something: what leaves a child moves
up into the group. -/
theorem Filled.bubbleFilters {group : Group} (filled : group.Filled) :
    group.bubbleFilters.Filled := by
  intro plain
  rw [bubbleFilters_clause] at plain
  exact bubbleFilters_content (filled plain)

theorem not_isFilterLeaf_of_union {group : Group} (union : group.clause = some .union) :
    group.isFilterLeaf = false := by
  simp [isFilterLeaf, union]

theorem stripChildren_ne_nil {children : List Group} (some : children ≠ []) :
    stripChildren true children ≠ [] := by
  cases children with
  | nil => exact absurd rfl some
  | cons child rest => simp [stripChildren_cons]

/-- Taking marks away leaves the lines and the number of groups as they are, so
nothing becomes empty. -/
theorem Filled.stripLeadingUnion {group : Group} (filled : group.Filled) :
    group.stripLeadingUnion.Filled := by
  intro plain
  rw [stripLeadingUnion_clause] at plain
  rw [stripLeadingUnion_lines, stripLeadingUnion_children]
  exact (filled plain).imp_right stripChildren_ne_nil

/-- Without its mark, an alternative still has something in it. -/
theorem Filled.untagUnion {group : Group} (filled : group.Filled) : group.untagUnion.Filled := by
  unfold Group.untagUnion
  split
  · next union => exact fun _ => filled (Or.inr union)
  · exact filled

theorem untagUnion_clause {group : Group} (union : group.clause = some .union) :
    group.untagUnion.clause = none := by
  rw [Group.untagUnion, if_pos union]

theorem untagUnion_of_ne {group : Group} (other : group.clause ≠ some .union) :
    group.untagUnion = group := by
  rw [Group.untagUnion, if_neg other]

/-- A group that is stripped of its first mark, seen from one of its groups. -/
theorem mem_stripChildren {child : Group} {children : List Group}
    (member : child ∈ stripChildren true children) :
    ∃ original ∈ children,
      child = original.stripLeadingUnion ∨ child = original.stripLeadingUnion.untagUnion := by
  cases children with
  | nil => cases member
  | cons first rest =>
    rw [stripChildren_cons] at member
    rcases List.mem_cons.mp member with rfl | later
    · exact ⟨first, List.mem_cons_self, Or.inr rfl⟩
    · obtain ⟨original, originalMember, rfl⟩ := List.mem_map.mp later
      exact ⟨original, List.mem_cons_of_mem first originalMember, Or.inl rfl⟩

/-- Each child is still there, perhaps without its mark. -/
theorem stripChildren_mem {original : Group} {children : List Group}
    (member : original ∈ children) :
    original.stripLeadingUnion ∈ stripChildren true children ∨
      original.stripLeadingUnion.untagUnion ∈ stripChildren true children := by
  cases children with
  | nil => cases member
  | cons first rest =>
    rw [stripChildren_cons]
    rcases List.mem_cons.mp member with rfl | later
    · exact Or.inr List.mem_cons_self
    · exact Or.inl (List.mem_cons_of_mem _ (List.mem_map_of_mem later))

/-! ### Where the groups of a group are after the passes -/

theorem mem_nodes_self (group : Group) : group ∈ group.nodes := by
  rw [nodes_eq]
  exact List.mem_cons_self

theorem mem_nodes_of_child {group child node : Group} (member : child ∈ group.children)
    (inside : node ∈ child.nodes) : node ∈ group.nodes := by
  rw [nodes_eq]
  exact List.mem_cons_of_mem _ (List.mem_flatMap.mpr ⟨child, member, inside⟩)

/-- Without its mark a group still has, for every group in it, one with the
same children. -/
theorem mem_nodes_untagUnion {group node : Group} (member : node ∈ group.nodes) :
    ∃ shown ∈ group.untagUnion.nodes, shown.children = node.children := by
  rw [nodes_eq] at member
  rcases List.mem_cons.mp member with rfl | inside
  · exact ⟨_, mem_nodes_self _, untagUnion_children node⟩
  · obtain ⟨child, childMember, nodeMember⟩ := List.mem_flatMap.mp inside
    exact ⟨node, mem_nodes_of_child (by rwa [untagUnion_children]) nodeMember, rfl⟩

/-- A group that becomes a filter leaf has no groups inside when it is finished. -/
theorem postProcess_nodes_of_leaf {group : Group} (leaf : group.bubbleFilters.isFilterLeaf = true) :
    group.postProcess.nodes = [group.postProcess] ∧ group.postProcess.children = [] := by
  have none : group.postProcess.children = [] := by
    simp only [isFilterLeaf, Bool.and_eq_true, List.isEmpty_iff] at leaf
    rw [postProcess, stripLeadingUnion_children, leaf.1.1.2]
    rfl
  refine ⟨?_, none⟩
  rw [nodes_eq, none, List.flatMap_nil]

/-- What is nested in a group is nested the same way in the finished group. -/
theorem exists_shown {group node : Group} (member : node ∈ group.nodes)
    (some : node.postProcess.children ≠ []) :
    ∃ shown ∈ group.postProcess.nodes, shown.children = node.postProcess.children := by
  induction group using Group.induct with
  | step group ih =>
    rw [nodes_eq] at member
    rcases List.mem_cons.mp member with rfl | inside
    · exact ⟨_, mem_nodes_self _, rfl⟩
    · obtain ⟨child, childMember, nodeMember⟩ := List.mem_flatMap.mp inside
      obtain ⟨shown, shownMember, same⟩ := ih child childMember nodeMember
      by_cases leaf : child.bubbleFilters.isFilterLeaf = true
      · obtain ⟨alone, none⟩ := postProcess_nodes_of_leaf leaf
        rw [alone, List.mem_singleton] at shownMember
        rw [← same, shownMember] at some
        exact absurd none some
      · have kept : child.bubbleFilters ∈ group.bubbleFilters.children := by
          rw [bubbleFilters_eq]
          exact List.mem_filter.mpr ⟨List.mem_map_of_mem childMember, by simpa using leaf⟩
        rcases stripChildren_mem kept with there | untagged
        · rw [← stripLeadingUnion_children] at there
          exact ⟨shown, mem_nodes_of_child there shownMember, same⟩
        · rw [← stripLeadingUnion_children] at untagged
          obtain ⟨other, otherMember, equal⟩ := mem_nodes_untagUnion shownMember
          exact ⟨other, mem_nodes_of_child untagged otherMember, equal.trans same⟩

/-- A disjunction keeps its alternatives, and all but the first keep their mark. -/
theorem postProcess_branches {group : Group} (nonempty : group.children ≠ [])
    (all : ∀ child ∈ group.children, child.clause = some .union) :
    group.postProcess.children.length = group.children.length ∧
      group.postProcess.children.countP (·.clause = some .union) + 1 = group.children.length := by
  have kept : group.bubbleFilters.children = group.children.map bubbleFilters := by
    rw [bubbleFilters_eq]
    refine List.filter_eq_self.mpr (List.forall_mem_map.mpr fun child member => ?_)
    rw [not_isFilterLeaf_of_union (by rw [bubbleFilters_clause, all child member])]
    rfl
  cases children : group.children with
  | nil => exact absurd children nonempty
  | cons first rest =>
    rw [children, List.forall_mem_cons] at all
    rw [postProcess, stripLeadingUnion_children, kept, children, List.map_cons, stripChildren_cons]
    have untagged : first.bubbleFilters.stripLeadingUnion.untagUnion.clause = none :=
      untagUnion_clause (by rw [stripLeadingUnion_clause, bubbleFilters_clause, all.1])
    have marked : ((rest.map bubbleFilters).map stripLeadingUnion).countP
        (·.clause = some .union) = rest.length := by
      rw [List.countP_eq_length.mpr, List.length_map, List.length_map]
      rw [List.forall_mem_map, List.forall_mem_map]
      intro child member
      rw [stripLeadingUnion_clause, bubbleFilters_clause, all.2 child member]
      decide
    refine ⟨by simp, ?_⟩
    rw [List.countP_cons, marked, untagged]
    rfl

end Group

namespace Compile

open ShapeQuery.Group

/-- A line of a group pattern: a triple pattern, a filter, or a list of values
of a variable. -/
def IsPatternLine (line : String) : Prop :=
  StartsWithVariable line ∨ IsFilterLine line ∨ ∃ var, IsVariable var ∧ IsValuesLine var line

theorem IsPatternLine.isFilterLine {line : String} (pattern : IsPatternLine line)
    (filter : isFilter line = true) : IsFilterLine line := by
  rcases pattern with starts | written | ⟨var, -, terms, rfl⟩
  · have triple := starts.isTriple
    simp [isTriple, filter] at triple
  · exact written
  · simp [isFilter] at filter

/-- A line of a node constraint about a variable is a line of a pattern. -/
theorem IsConstraintLine.isPatternLine {var line : String} (constraint : IsConstraintLine var line)
    (bound : IsVariable var) : IsPatternLine line :=
  constraint.elim (fun filter => Or.inr (Or.inl filter)) fun values =>
    Or.inr (Or.inr ⟨var, bound, values⟩)

/-- The form of a group before the passes: either no group inside is an
alternative, or all are, and then the group has no lines. -/
structure RawLevel (group : Group) : Prop where
  suffix : group.suffix = ""
  lines : ∀ line ∈ group.lines, IsPatternLine line
  filled : ∀ child ∈ group.children, child.Filled
  branches : (∀ child ∈ group.children, child.clause ≠ some .union) ∨
    (group.lines = [] ∧ ∀ child ∈ group.children, child.clause = some .union)

/-- The form of a group after the passes: the alternatives of a disjunction are
all it has, and all but the first are marked. -/
structure FinishedLevel (group : Group) : Prop where
  suffix : group.suffix = ""
  lines : ∀ line ∈ group.lines, IsPatternLine line
  filled : ∀ child ∈ group.children, child.Filled
  branches : (∀ child ∈ group.children, child.clause ≠ some .union) ∨
    (group.lines = [] ∧ ∃ first rest, group.children = first :: rest ∧ first.clause = none ∧
      ∀ child ∈ rest, child.clause = some .union)

theorem bubbleFilters_raw {group : Group} (raw : group.EveryNode RawLevel) :
    group.bubbleFilters.EveryNode RawLevel := by
  induction group using Group.induct with
  | step group ih =>
    obtain ⟨here, inside⟩ := everyNode_iff.mp raw
    have bubbled : ∀ child ∈ group.children.map bubbleFilters, child.EveryNode RawLevel := by
      rw [List.forall_mem_map]
      exact fun child member => ih child member (inside child member)
    have kept : ∀ child ∈ (group.children.map bubbleFilters).filter (!·.isFilterLeaf),
        ∃ original ∈ group.children, original.bubbleFilters = child :=
      fun child member => List.mem_map.mp (List.mem_filter.mp member).1
    rw [bubbleFilters_eq, everyNode_iff]
    refine ⟨⟨here.suffix, ?_, ?_, ?_⟩, ?_⟩
    · intro line member
      rcases List.mem_append.mp member with own | lifted
      · exact here.lines line own
      · obtain ⟨leaf, leafMember, lineMember⟩ := List.mem_flatMap.mp lifted
        have form := bubbled leaf (List.mem_filter.mp leafMember).1
        exact (everyNode_iff.mp form).1.lines line lineMember
    · intro child member
      obtain ⟨original, originalMember, rfl⟩ := kept child member
      exact (here.filled original originalMember).bubbleFilters
    · rcases here.branches with none | ⟨noLines, all⟩
      · refine Or.inl fun child member => ?_
        obtain ⟨original, originalMember, rfl⟩ := kept child member
        rw [bubbleFilters_clause]
        exact none original originalMember
      · have noLeaf : (group.children.map bubbleFilters).filter isFilterLeaf = [] := by
          rw [List.filter_eq_nil_iff, List.forall_mem_map]
          intro child member
          rw [not_isFilterLeaf_of_union (by rw [bubbleFilters_clause, all child member])]
          decide
        refine Or.inr ⟨?_, fun child member => ?_⟩
        · simp only [noLeaf, noLines, List.flatMap_nil, List.append_nil]
        · obtain ⟨original, originalMember, rfl⟩ := kept child member
          rw [bubbleFilters_clause, all original originalMember]
    · exact fun child member => bubbled child (List.mem_filter.mp member).1

theorem FinishedLevel.untagUnion {group : Group} (finished : group.EveryNode FinishedLevel) :
    group.untagUnion.EveryNode FinishedLevel := by
  obtain ⟨here, inside⟩ := everyNode_iff.mp finished
  unfold Group.untagUnion
  split
  · exact everyNode_iff.mpr ⟨⟨here.suffix, here.lines, here.filled, here.branches⟩, inside⟩
  · exact finished

/-- Taking the mark from every first alternative gives the final form. -/
theorem stripLeadingUnion_finished {group : Group} (raw : group.EveryNode RawLevel) :
    group.stripLeadingUnion.EveryNode FinishedLevel := by
  induction group using Group.induct with
  | step group ih =>
    obtain ⟨here, inside⟩ := everyNode_iff.mp raw
    rw [stripLeadingUnion_eq, everyNode_iff]
    refine ⟨⟨here.suffix, here.lines, ?_, ?_⟩, ?_⟩
    · intro child member
      obtain ⟨original, originalMember, rfl | rfl⟩ := mem_stripChildren member
      · exact (here.filled original originalMember).stripLeadingUnion
      · exact (here.filled original originalMember).stripLeadingUnion.untagUnion
    · rcases here.branches with none | ⟨noLines, all⟩
      · refine Or.inl fun child member => ?_
        obtain ⟨original, originalMember, same⟩ := mem_stripChildren member
        have other : original.stripLeadingUnion.clause ≠ some .union := by
          rw [stripLeadingUnion_clause]
          exact none original originalMember
        rw [untagUnion_of_ne other, or_self] at same
        rw [same]
        exact other
      · cases children : group.children with
        | nil => exact Or.inl (by simp [stripChildren])
        | cons first rest =>
          rw [children, List.forall_mem_cons] at all
          refine Or.inr ⟨noLines, _, _, stripChildren_cons first rest, ?_, ?_⟩
          · exact untagUnion_clause (by rw [stripLeadingUnion_clause, all.1])
          · rw [List.forall_mem_map]
            exact fun child member => by rw [stripLeadingUnion_clause, all.2 child member]
    · intro child member
      obtain ⟨original, originalMember, rfl | rfl⟩ := mem_stripChildren member
      · exact ih original originalMember (inside original originalMember)
      · exact FinishedLevel.untagUnion (ih original originalMember (inside original originalMember))

/-- The passes bring every group of the raw form into the final form. -/
theorem postProcess_finished {group : Group} (raw : group.EveryNode RawLevel) :
    group.postProcess.EveryNode FinishedLevel :=
  stripLeadingUnion_finished (bubbleFilters_raw raw)

end Compile

end ShapeQuery
