import ShapeQuery.Proofs.Grounded

/-!
Filters and what binds their variables. A filter sees the bindings of its own group only. Filters
that an arc leads to stand beside the arc, or move up to it; but filters that have a group to
themselves stay there if the group is a negation or an alternative, or if other groups are inside
it. In all other finished groups, a triple pattern or a list of values on the variable of a filter
stands in the group itself or in a group inside it.
-/
namespace ShapeQuery

open Compile

namespace Group

/-- Every group that is left comes of one that was there, with the filters of
its own children moved up. -/
theorem mem_nodes_bubbleFilters {group node : Group} (member : node ∈ group.bubbleFilters.nodes) :
    ∃ original ∈ group.nodes, node = original.bubbleFilters := by
  induction group using Group.induct with
  | step group ih =>
    rw [nodes_eq] at member
    rcases List.mem_cons.mp member with rfl | inside
    · exact ⟨group, mem_nodes_self group, rfl⟩
    · obtain ⟨shown, listed, there⟩ := List.mem_flatMap.mp inside
      rw [bubbleFilters_eq] at listed
      obtain ⟨child, childMember, rfl⟩ := List.mem_map.mp (List.mem_filter.mp listed).1
      obtain ⟨original, originalMember, same⟩ := ih child childMember there
      exact ⟨original, mem_nodes_of_child childMember originalMember, same⟩

/-- Every group is one that was there, perhaps without its mark. -/
theorem mem_nodes_stripLeadingUnion {group node : Group}
    (member : node ∈ group.stripLeadingUnion.nodes) :
    ∃ original ∈ group.nodes,
      node = original.stripLeadingUnion ∨ node = original.stripLeadingUnion.untagUnion := by
  induction group using Group.induct with
  | step group ih =>
    rw [nodes_eq] at member
    rcases List.mem_cons.mp member with rfl | inside
    · exact ⟨group, mem_nodes_self group, Or.inl rfl⟩
    · obtain ⟨shown, listed, there⟩ := List.mem_flatMap.mp inside
      rw [stripLeadingUnion_children] at listed
      obtain ⟨child, childMember, rfl | rfl⟩ := mem_stripChildren listed
      · obtain ⟨original, originalMember, same⟩ := ih child childMember there
        exact ⟨original, mem_nodes_of_child childMember originalMember, same⟩
      · rw [nodes_eq] at there
        rcases List.mem_cons.mp there with rfl | deeper
        · exact ⟨child, mem_nodes_of_child childMember (mem_nodes_self child), Or.inr rfl⟩
        · rw [untagUnion_children] at deeper
          have below : node ∈ child.stripLeadingUnion.nodes := by
            rw [nodes_eq]
            exact List.mem_cons_of_mem _ deeper
          obtain ⟨original, originalMember, same⟩ := ih child childMember below
          exact ⟨original, mem_nodes_of_child childMember originalMember, same⟩

theorem isNegated_untagUnion (group : Group) : group.untagUnion.isNegated = group.isNegated := by
  unfold untagUnion
  split
  · next union => simp [isNegated, union]
  · rfl

theorem visibleLines_untagUnion (group : Group) :
    group.untagUnion.visibleLines = group.visibleLines := by
  unfold untagUnion
  split <;> cases group <;> rfl

theorem visibleLines_stripLeadingUnion {group : Group} {line : String}
    (seen : line ∈ group.visibleLines) : line ∈ group.stripLeadingUnion.visibleLines := by
  induction group using Group.induct with
  | step group ih =>
    rw [mem_visibleLines, stripLeadingUnion_lines, stripLeadingUnion_children]
    rcases mem_visibleLines.mp seen with own | ⟨child, member, shown, inside⟩
    · exact Or.inl own
    · have stripped := ih child member inside
      have still : child.stripLeadingUnion.isNegated = false := by
        rwa [isNegated, stripLeadingUnion_clause]
      rcases stripChildren_mem member with there | there
      · exact Or.inr ⟨_, there, still, stripped⟩
      · refine Or.inr ⟨_, there, ?_, ?_⟩
        · rwa [isNegated_untagUnion]
        · rwa [visibleLines_untagUnion]

/-- A finished group out of which filters did not move: a negation, what came
of an alternative, or a plain group with groups inside. -/
inductive LeftInPlace (raw : Group) (block : Group) : Prop where
  | negation (clause : block.clause = some .minus)
  | alternative {branch} (member : branch ∈ raw.nodes) (union : branch.clause = some .union)
      (same : block = branch.postProcess ∨ block = branch.postProcess.untagUnion)
  | nested (plain : block.clause = none) (inside : block.children ≠ [])

theorem untagUnion_lines (group : Group) : group.untagUnion.lines = group.lines := by
  unfold untagUnion
  split <;> rfl

/-- What is grounded when filters have moved up stays so when marks are taken away. -/
theorem postProcess_grounded {raw block : Group} (grounded : raw.bubbleFilters.EveryNode Grounded)
    (member : block ∈ raw.postProcess.nodes) {var line : String} (own : line ∈ block.lines)
    (on : FilterOn var line) :
    (∃ binding ∈ block.visibleLines, Binds var binding) ∨
      ((∀ other ∈ block.lines, FilterOn var other) ∧ raw.LeftInPlace block) := by
  obtain ⟨node, nodeMember, shown⟩ := mem_nodes_stripLeadingUnion member
  obtain ⟨original, originalMember, same⟩ := mem_nodes_bubbleFilters nodeMember
  have lines : block.lines = node.lines := by
    rcases shown with rfl | rfl <;> simp [untagUnion_lines]
  have visible : ∀ {line}, line ∈ node.visibleLines → line ∈ block.visibleLines := by
    intro line seen
    have stripped := visibleLines_stripLeadingUnion seen
    rcases shown with rfl | rfl
    · exact stripped
    · rwa [visibleLines_untagUnion]
  rw [lines] at own ⊢
  rcases grounded node nodeMember var line own on with ⟨binding, seen, binds⟩ | ⟨filters, holds⟩
  · exact Or.inl ⟨binding, visible seen, binds⟩
  · refine Or.inr ⟨filters, ?_⟩
    rcases holds with minus | union | ⟨plain, inside⟩
    · refine .negation ?_
      rcases shown with rfl | rfl
      · rw [stripLeadingUnion_clause, minus]
      · rw [untagUnion_of_ne] <;> simp [minus]
    · rw [same, bubbleFilters_clause] at union
      rw [same] at shown
      exact .alternative originalMember union shown
    · have unchanged : node.stripLeadingUnion.untagUnion = node.stripLeadingUnion :=
        untagUnion_of_ne (by simp [plain])
      rw [unchanged, or_self] at shown
      rw [shown]
      refine .nested ?_ ?_
      · rw [stripLeadingUnion_clause, plain]
      · rw [stripLeadingUnion_children]
        exact stripChildren_ne_nil inside

end Group

namespace Compile

open ShapeQuery.Group

/-- In the finished group of a declared start shape of a well-typed schema,
take a variable that is at an end of a triple pattern, as the object of every
triple constraint that was visited is. A group with a filter on the variable
can see a triple pattern or a list of values that binds it; or all lines of the
group are filters on the variable, and it is a group out of which filters do
not move. -/
theorem startGroup_filters_bound (schema : Schema) (label : String) (progress : Progress)
    (typed : schema.wellTyped = true) (start : schema.start = .label label)
    (declared : (schema.find? label).isSome = true) :
    ∃ context raw after, Context.ofSchema schema = .ok context ∧
      context.startGroup progress = .ok (some raw) after ∧
      ∀ object, (∃ line ∈ raw.postProcess.allLines, IsArcOf object line) →
        ∀ block ∈ raw.postProcess.nodes, (∃ line ∈ block.lines, FilterOn object line) →
          (∃ line ∈ block.visibleLines, Binds object line) ∨
          ((∀ line ∈ block.lines, FilterOn object line) ∧ raw.LeftInPlace block) := by
  obtain ⟨context, built, same, typedContext⟩ := Context.ofSchema_ok typed
  subst same
  obtain ⟨decl, found⟩ := Option.isSome_iff_exists.mp declared
  obtain ⟨f, before, after, success, -, -, visit⟩ :=
    context.startGroup_ok typedContext start found progress
  have closed : context.Closed context.schema.leaves := fun resolved =>
    Context.mem_leaves_of_resolve built resolved
  refine ⟨context, _, after, built, success, ?_⟩
  rintro object ⟨arc, there, triple, -⟩ block member ⟨line, own, on⟩
  rcases visit.start_grounded closed (Schema.named_leaves typed) with grounded | none
  · exact postProcess_grounded grounded member own on
  · rw [none arc (mem_allLines_postProcess.mp there)] at triple
    cases triple

/-- A schema with arcs to what is not an IRI, to one of some values or an IRI,
and to an IRI without an arc of its own. -/
def strandedSchema : Schema where
  shapes := [⟨.string "S", .shape (some (.eachOf [
    .constraint (.string "p") false (.not (.node { nodeKind := some .iri })) {} .null,
    .constraint (.string "q") false (.or [.node { values := some [.iri "v"] },
      .node { nodeKind := some .iri }]) {} .null,
    .constraint (.string "r") false (.and [.node { nodeKind := some .iri },
      .not (.shape (some (.constraint (.string "s") false .any {} .null)) false [])]) {} .null]
    {} .null)) false [], false⟩]
  start := .label "S"

/-- In the sample schema a filter on the object of an arc has a binding in its
group, or was left in place in a group that has nothing but filters on this
object in its lines. -/
theorem startGroup_filters_bound_stranded :
    strandedSchema.wellTyped = true ∧ strandedSchema.start = .label "S" ∧
    (strandedSchema.find? "S").isSome = true ∧
    ∃ context raw after, Context.ofSchema strandedSchema = .ok context ∧
      context.startGroup {} = .ok (some raw) after ∧
      ∀ object, (∃ line ∈ raw.postProcess.allLines, IsArcOf object line) →
        ∀ block ∈ raw.postProcess.nodes, (∃ line ∈ block.lines, FilterOn object line) →
          (∃ line ∈ block.visibleLines, Binds object line) ∨
          ((∀ line ∈ block.lines, FilterOn object line) ∧ raw.LeftInPlace block) :=
  ⟨by decide, rfl, by decide,
    startGroup_filters_bound strandedSchema "S" {} (by decide) rfl (by decide)⟩

def iriFilter (number : Nat) : String :=
  filterLine (nodeKindTest (freshVariable number) .iri)

theorem iriFilter_on (number : Nat) : FilterOn (freshVariable number) (iriFilter number) :=
  Tests.filterOn (isNamed_fresh number) ⟨_, rfl, nodeKindTest_leads .iri⟩

/-- An arc of the start shape of `strandedSchema`, with what it leads to. -/
def strandedArc (name : String) (number : Nat) (described : Group) : Group where
  lines := [triplePattern (stableVariable "S") name (freshVariable number) false]
  children := [described]

def strandedNegation : Group where
  clause := some .minus
  lines := [iriFilter 0]

def strandedAlternative : Group where
  clause := some .union
  lines := [iriFilter 1]

def strandedConjunction : Group where
  lines := [iriFilter 2]
  children := [{
    clause := some .minus
    children := [{ lines := [triplePattern (freshVariable 2) "s" (freshVariable 3) false] }] }]

/-- The arcs of the start shape of `strandedSchema`. -/
def strandedArcs : List Group := [
  strandedArc "p" 0 strandedNegation,
  strandedArc "q" 1 {
    children := [
      { clause := some .union, lines := ["VALUES " ++ freshVariable 1 ++ " \x7b <v> \x7d"] },
      strandedAlternative] },
  strandedArc "r" 2 strandedConjunction]

def strandedGroup : Group where
  children := [{ children := strandedArcs }]

theorem startGroup_strandedSchema :
    Context.startGroup ⟨strandedSchema, []⟩ {} = .ok (some strandedGroup) { fresh := 4 } :=
  rfl

theorem strandedGroup_isArcOf {name : String} {number : Nat} {described : Group}
    (member : strandedArc name number described ∈ strandedArcs) :
    ∃ line ∈ strandedGroup.postProcess.allLines, IsArcOf (freshVariable number) line := by
  have triple := (triplePattern_starts (isVariable_stable "S") (isVariable_fresh number) name
    false).isTriple
  refine ⟨_, mem_allLines_postProcess.mpr ?_, triple, _, name, true, rfl⟩
  have inside : strandedArc name number described ∈ nodes { children := strandedArcs } :=
    mem_nodes_of_child member (mem_nodes_self _)
  exact List.mem_flatMap.mpr ⟨_, mem_nodes_of_child List.mem_cons_self inside, List.mem_cons_self⟩

theorem strandedGroup_blocks :
    ∀ block ∈ [strandedNegation, strandedAlternative, strandedConjunction],
      block ∈ strandedGroup.postProcess.nodes := by
  have triple := (triplePattern_starts (isVariable_fresh 2) (isVariable_fresh 3) "s" false).isTriple
  simp only [isTriple, Bool.and_eq_true, Bool.not_eq_true'] at triple
  simp [strandedGroup, strandedArcs, strandedArc, strandedNegation, strandedAlternative,
    strandedConjunction, postProcess, bubbleFilters, bubbleChildren, isFilterLeaf,
    stripLeadingUnion, stripChildren, untagUnion, nodes, nodesOfAll, triple.1]

/-- A group that shows nothing but such a test binds nothing. -/
theorem iriFilter_unbound {number : Nat} {block : Group}
    (seen : block.visibleLines = [iriFilter number]) :
    ∀ line ∈ block.visibleLines, ¬ Binds (freshVariable number) line := by
  intro line member binds
  have filter := (iriFilter_on number).1
  rw [seen, List.mem_singleton] at member
  rw [← member, binds.not_isFilter] at filter
  cases filter

/-- Filters on the objects of arcs are left where nothing binds the objects: in
a negation, in an alternative, and in a plain group. -/
theorem stranded_filters_unbound :
    ∃ context raw after, Context.ofSchema strandedSchema = .ok context ∧
      context.startGroup {} = .ok (some raw) after ∧
      ∀ clause ∈ [some Clause.minus, some Clause.union, none], ∃ object,
        (∃ line ∈ raw.postProcess.allLines, IsArcOf object line) ∧
        ∃ block ∈ raw.postProcess.nodes, block.clause = clause ∧
          (∃ line ∈ block.lines, FilterOn object line) ∧
          ∀ line ∈ block.visibleLines, ¬ Binds object line := by
  refine ⟨⟨strandedSchema, []⟩, strandedGroup, _, rfl, startGroup_strandedSchema, ?_⟩
  have negation : strandedNegation.visibleLines = [iriFilter 0] := by
    simp [strandedNegation, visibleLines, visibleInAll]
  have alternative : strandedAlternative.visibleLines = [iriFilter 1] := by
    simp [strandedAlternative, visibleLines, visibleInAll]
  have conjunction : strandedConjunction.visibleLines = [iriFilter 2] := by
    simp [strandedConjunction, visibleLines, visibleInAll, isNegated]
  intro clause member
  simp only [List.mem_cons, List.not_mem_nil, or_false] at member
  rcases member with rfl | rfl | rfl
  · exact ⟨_, strandedGroup_isArcOf List.mem_cons_self, strandedNegation,
      strandedGroup_blocks _ (by simp), rfl, ⟨_, List.mem_cons_self, iriFilter_on 0⟩,
      iriFilter_unbound negation⟩
  · exact ⟨_, strandedGroup_isArcOf (List.mem_cons_of_mem _ List.mem_cons_self),
      strandedAlternative, strandedGroup_blocks _ (by simp), rfl,
      ⟨_, List.mem_cons_self, iriFilter_on 1⟩, iriFilter_unbound alternative⟩
  · have last : strandedArc "r" 2 strandedConjunction ∈ strandedArcs := by simp [strandedArcs]
    exact ⟨_, strandedGroup_isArcOf last, strandedConjunction,
      strandedGroup_blocks _ (by simp), rfl, ⟨_, List.mem_cons_self, iriFilter_on 2⟩,
      iriFilter_unbound conjunction⟩

end Compile

end ShapeQuery
