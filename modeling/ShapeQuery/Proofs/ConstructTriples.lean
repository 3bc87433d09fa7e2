import ShapeQuery.Proofs.Bubbling
import ShapeQuery.Proofs.WholeOccurrences
import ShapeQuery.Query.Render

/-!
The triple patterns that a query constructs. They are the lines of a group and of the groups inside
it that are neither filters nor lists of values, in the order in which they are met, and each once.
The passes over a finished group move filters only, so the patterns are met as before; a term put in
place of a variable comes into each pattern, and patterns that become the same are named once.
-/
namespace ShapeQuery

namespace Group

/-! ### Lists without repetitions -/

/-- What is kept are the lines that have not been seen. -/
theorem mem_distinct {line : String} {lines seen : List String} :
    line ∈ distinct seen lines ↔ line ∈ lines ∧ line ∉ seen := by
  induction lines generalizing seen with
  | nil => simp [distinct]
  | cons first rest ih =>
    rw [distinct]
    split
    · next known =>
      rw [List.contains_iff_mem] at known
      rw [ih, List.mem_cons]
      constructor
      · rintro ⟨member, unseen⟩
        exact ⟨Or.inr member, unseen⟩
      · rintro ⟨rfl | member, unseen⟩
        · exact absurd known unseen
        · exact ⟨member, unseen⟩
    · next unknown =>
      rw [List.contains_iff_mem] at unknown
      rw [List.mem_cons, List.mem_cons, ih, List.mem_cons, not_or]
      constructor
      · rintro (rfl | ⟨member, -, unseen⟩)
        · exact ⟨Or.inl rfl, unknown⟩
        · exact ⟨Or.inr member, unseen⟩
      · rintro ⟨rfl | member, unseen⟩
        · exact Or.inl rfl
        · exact or_iff_not_imp_left.mpr fun other => ⟨member, other, unseen⟩

theorem nodup_distinct (seen lines : List String) : (distinct seen lines).Nodup := by
  induction lines generalizing seen with
  | nil => exact List.nodup_nil
  | cons first rest ih =>
    rw [distinct]
    split
    · exact ih seen
    · refine List.nodup_cons.mpr ⟨fun member => ?_, ih (first :: seen)⟩
      exact (mem_distinct.mp member).2 List.mem_cons_self

/-- Dropping later repetitions is what the library does, after the lines that
have been seen are filtered out. -/
theorem distinct_eq_eraseDups (seen lines : List String) :
    distinct seen lines = (lines.filter fun line => !seen.contains line).eraseDups := by
  induction lines generalizing seen with
  | nil => rfl
  | cons first rest ih =>
    rw [distinct]
    split
    · next known => rw [List.filter_cons_of_neg (by simpa using known), ih]
    · next unknown =>
      rw [List.filter_cons_of_pos (by simpa using unknown), List.eraseDups_cons, ih,
        List.filter_filter]
      simp only [List.contains_cons, Bool.not_or]

/-- Repetitions that are dropped before a change of the lines do not matter for
those dropped after it. -/
theorem distinct_map_distinct (change : String → String) (lines : List String)
    {seen before : List String} (changed : ∀ line ∈ before, change line ∈ seen) :
    distinct seen ((distinct before lines).map change) = distinct seen (lines.map change) := by
  induction lines generalizing seen before with
  | nil => rfl
  | cons first rest ih =>
    rw [distinct, List.map_cons, distinct]
    split
    · next known =>
      have there : seen.contains (change first) = true :=
        List.contains_iff_mem.mpr (changed first (List.contains_iff_mem.mp known))
      rw [if_pos there, ih changed]
    · rw [List.map_cons, distinct]
      split
      · next there =>
        rw [List.contains_iff_mem] at there
        exact ih (List.forall_mem_cons.mpr ⟨there, changed⟩)
      · refine congrArg (change first :: ·) (ih (List.forall_mem_cons.mpr ⟨List.mem_cons_self, ?_⟩))
        exact fun line member => List.mem_cons_of_mem _ (changed line member)

/-! ### Patterns in the order in which they are met -/

/-- The lines of a group that are neither filters nor lists of values. -/
def ownPatterns (group : Group) : List String :=
  group.lines.filter fun line => !isFilter line && !isValues line

/-- The patterns of a group and of the groups inside it. -/
def patterns (group : Group) : List String :=
  group.nodes.flatMap ownPatterns

theorem triples_eq (group : Group) : group.triples = distinct [] group.patterns := rfl

theorem patterns_eq (group : Group) :
    group.patterns = group.ownPatterns ++ group.children.flatMap patterns := by
  rw [patterns, nodes_eq, List.flatMap_cons, List.flatMap_assoc]
  rfl

theorem mem_patterns {group : Group} {line : String} :
    line ∈ group.patterns ↔
      ∃ node ∈ group.nodes, line ∈ node.lines ∧ isFilter line = false ∧ isValues line = false := by
  simp only [patterns, ownPatterns, List.mem_flatMap, List.mem_filter, Bool.and_eq_true,
    Bool.not_eq_true']

theorem ownPatterns_of_filters {group : Group}
    (filters : ∀ line ∈ group.lines, isFilter line = true) : group.ownPatterns = [] := by
  rw [ownPatterns, List.filter_eq_nil_iff]
  intro line member
  simp [filters line member]

theorem HoldsOnlyFilters.patterns {group : Group} (leaf : group.HoldsOnlyFilters) :
    group.patterns = [] := by
  rw [patterns_eq, ownPatterns_of_filters leaf.filters, leaf.childless]
  rfl

/-- Only filters move up, so the patterns stay, in their order. -/
theorem patterns_bubbleFilters (group : Group) : group.bubbleFilters.patterns = group.patterns := by
  induction group using Group.induct with
  | step group ih =>
    have own : group.bubbleFilters.ownPatterns = group.ownPatterns := by
      have lifted : ownPatterns
          { lines := ((group.children.map bubbleFilters).filter isFilterLeaf).flatMap lines } =
            [] := by
        refine ownPatterns_of_filters fun line member => ?_
        obtain ⟨leaf, leafMember, lineMember⟩ := List.mem_flatMap.mp member
        exact (isFilterLeaf_iff.mp (List.mem_filter.mp leafMember).2).filters line lineMember
      rw [ownPatterns] at lifted
      rw [bubbleFilters_eq, ownPatterns, List.filter_append, lifted, List.append_nil]
      rfl
    rw [patterns_eq, own, patterns_eq group, bubbleFilters_eq,
      flatMap_kept fun _ leaf => leaf.patterns, List.flatMap_map]
    exact congrArg _ (List.flatMap_congr ih)

theorem patterns_untagUnion (group : Group) : group.untagUnion.patterns = group.patterns := by
  unfold untagUnion
  split
  · rw [patterns_eq, patterns_eq]
    rfl
  · rfl

theorem patterns_stripLeadingUnion (group : Group) :
    group.stripLeadingUnion.patterns = group.patterns := by
  induction group using Group.induct with
  | step group ih =>
    rw [patterns_eq, patterns_eq group, stripLeadingUnion_children,
      flatMap_stripChildren patterns_untagUnion, List.flatMap_congr ih, ownPatterns,
      stripLeadingUnion_lines]
    rfl

/-- No pattern is moved, lost or made by the passes. -/
theorem patterns_postProcess (group : Group) : group.postProcess.patterns = group.patterns := by
  rw [postProcess, patterns_stripLeadingUnion, patterns_bubbleFilters]

/-! ### Patterns with a term in place of a variable -/

section Substitution

variable {variableName term : String} {name inner : List Char}

/-- Putting in a term changes the patterns one by one. No pattern becomes a
filter or a list of values by it. -/
theorem patterns_substitute (named : variableName.toList = '?' :: name)
    (word : ∀ c ∈ name, Text.isWord c = true) (opens : term.toList = '<' :: inner) (group : Group) :
    (group.substitute variableName term).patterns =
      group.patterns.map (substituteLine variableName term) := by
  have filters : ∀ line, isFilter (substituteLine variableName term line) = isFilter line :=
    isPrefixOf_substituteLine named word opens (by decide) (by decide)
  have values : ∀ line, isValues (substituteLine variableName term line) = isValues line :=
    isPrefixOf_substituteLine named word opens (by decide) (by decide)
  have own : ∀ node : Group, (node.substitute variableName term).ownPatterns =
      node.ownPatterns.map (substituteLine variableName term) := by
    intro node
    rw [substitute_eq, ownPatterns, List.filter_map, ownPatterns]
    simp only [Function.comp_def, filters, values]
  rw [patterns, nodes_substitute, List.flatMap_map, patterns, List.map_flatMap]
  exact List.flatMap_congr fun node _ => own node

end Substitution

/-- The triple patterns of a group: each line of it that is neither a filter
nor a list of values, once. The passes change nothing of them, not even their
order, and after a term that opens with an angle bracket is put in place of a
variable they are the patterns with the term in them, without later
repetitions. -/
theorem triples_stable (group : Group) :
    group.triples.Nodup ∧
    (∀ line, line ∈ group.triples ↔
      ∃ node ∈ group.nodes, line ∈ node.lines ∧ isFilter line = false ∧ isValues line = false) ∧
    group.postProcess.triples = group.triples ∧
    ∀ (variableName term : String) (name inner : List Char), variableName.toList = '?' :: name →
      (∀ c ∈ name, Text.isWord c = true) → term.toList = '<' :: inner →
        (group.substitute variableName term).triples =
          (group.triples.map (substituteLine variableName term)).eraseDups := by
  refine ⟨nodup_distinct [] _, fun line => ?_, ?_,
    fun variableName term name inner named word opens => ?_⟩
  · rw [triples_eq, mem_distinct, ← mem_patterns]
    simp
  · rw [triples_eq, triples_eq, patterns_postProcess]
  · have dropped : ∀ lines, distinct [] lines = lines.eraseDups := by
      intro lines
      rw [distinct_eq_eraseDups]
      simp
    rw [← dropped, triples_eq, triples_eq, patterns_substitute named word opens,
      distinct_map_distinct _ _ (by simp)]

/-- Two patterns that a term makes the same, in a group with a filter in a
plain group inside it. -/
theorem triples_stable_merged :
    let group : Group :=
      { lines := ["?a <p> ?b .", "<n> <p> ?b ."]
        children := [{ lines := ["FILTER (isIRI(?a))"] }] }
    group.postProcess.triples = ["?a <p> ?b .", "<n> <p> ?b ."] ∧
      (group.substitute "?a" "<n>").triples = ["<n> <p> ?b ."] := by
  intro group
  obtain ⟨-, -, kept, merged⟩ := triples_stable group
  have two : group.triples = ["?a <p> ?b .", "<n> <p> ?b ."] := by decide
  rw [kept, merged "?a" "<n>" ['a'] ['n', '>'] (by decide) (List.all_eq_true.mp (by decide))
    (by decide), two]
  decide

end Group

end ShapeQuery
