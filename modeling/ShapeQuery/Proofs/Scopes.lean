import ShapeQuery.Proofs.GroupForm
import ShapeQuery.Proofs.Visit

/-!
The lines of a group with what is in scope where they stand: the lines of their own group and of the
groups around it. A property of lines in scopes that triple patterns alone can bring about is kept
by every step that builds groups, and by the passes over a finished one.
-/
namespace ShapeQuery

namespace Group

mutual

/-- Every line of a group with the lines in its scope, given those of the
groups around. In scope are the lines of its own group and of those around
it. -/
def linesInScope (above : List String) : Group → List (List String × String)
  | ⟨_, _, lines, children⟩ =>
    lines.map (lines ++ above, ·) ++ linesInScopes (lines ++ above) children

def linesInScopes (above : List String) : List Group → List (List String × String)
  | [] => []
  | group :: rest => group.linesInScope above ++ linesInScopes above rest

end

theorem linesInScopes_eq (above : List String) (groups : List Group) :
    linesInScopes above groups = groups.flatMap (linesInScope above) := by
  induction groups with
  | nil => rw [linesInScopes, List.flatMap_nil]
  | cons group rest ih => rw [linesInScopes, ih, List.flatMap_cons]

/-- A line of a group sees the group and what is above. A line of a child sees
these, and its own group. -/
theorem linesInScope_eq (above : List String) (group : Group) :
    group.linesInScope above = group.lines.map (group.lines ++ above, ·) ++
      group.children.flatMap (linesInScope (group.lines ++ above)) := by
  cases group
  rw [linesInScope, linesInScopes_eq]

def Fits (good : List String → String → Prop) (above : List String) (group : Group) : Prop :=
  ∀ entry ∈ group.linesInScope above, good entry.1 entry.2

variable {good : List String → String → Prop}

/-- A property of lines in their scopes, step by step down the group. -/
theorem fits_iff {above : List String} {group : Group} :
    group.Fits good above ↔ (∀ line ∈ group.lines, good (group.lines ++ above) line) ∧
      ∀ child ∈ group.children, child.Fits good (group.lines ++ above) := by
  unfold Fits
  rw [linesInScope_eq, List.forall_mem_append, List.forall_mem_map, List.forall_mem_flatMap]

theorem fits_plain (clause : Option Clause) {lines above : List String}
    (each : ∀ line ∈ lines, good (lines ++ above) line) :
    Group.Fits good above { clause, lines } :=
  fits_iff.mpr ⟨each, List.forall_mem_nil _⟩

theorem Fits.withClause {group : Group} {above : List String} (fits : group.Fits good above)
    (clause : Option Clause) : Group.Fits good above { group with clause } :=
  fits_iff.mpr (fits_iff.mp fits :)

theorem Fits.untagUnion {group : Group} {above : List String} (fits : group.Fits good above) :
    group.untagUnion.Fits good above := by
  unfold Group.untagUnion
  split
  · exact fits.withClause none
  · exact fits

/-- Taking marks away moves no line, so every line keeps its scope. -/
theorem Fits.stripLeadingUnion {group : Group} : ∀ {above : List String}, group.Fits good above →
    group.stripLeadingUnion.Fits good above := by
  induction group using Group.induct with
  | step group ih =>
    intro above fits
    obtain ⟨own, children⟩ := fits_iff.mp fits
    rw [stripLeadingUnion_eq]
    refine fits_iff.mpr ⟨own, fun child member => ?_⟩
    obtain ⟨original, originalMember, rfl | rfl⟩ := mem_stripChildren member
    · exact ih original originalMember (children original originalMember)
    · exact (ih original originalMember (children original originalMember)).untagUnion

end Group

/-- A scope that has the triple patterns of another one. Filters and lists of
values may be missing, as nothing is linked through them. -/
def Covers (scope other : List String) : Prop :=
  ∀ line ∈ other, isTriple line = true → line ∈ scope

theorem Covers.of_subset {scope other : List String} (subset : other ⊆ scope) :
    Covers scope other :=
  fun _ member _ => subset member

/-- Lines that are no triple patterns add nothing to a scope. -/
theorem Covers.append {lines above : List String} (none : ∀ line ∈ lines, isTriple line = false) :
    Covers above (lines ++ above) := by
  intro line member triple
  rcases List.mem_append.mp member with own | outer
  · rw [none line own] at triple
    cases triple
  · exact outer

theorem Covers.append_right {scope other : List String} (covers : Covers scope other)
    (lines : List String) : Covers (lines ++ scope) (lines ++ other) := by
  intro line member triple
  rcases List.mem_append.mp member with own | outer
  · exact List.mem_append_left _ own
  · exact List.mem_append_right _ (covers line outer triple)

/-- A property of lines that is kept when triple patterns come into scope, and
when other lines leave it. -/
structure Steady (good : List String → String → Prop) : Prop where
  widen : ∀ {scope other line}, Covers other scope → good scope line → good other line

section Building

variable {good : List String → String → Prop} (steady : Steady good)
include steady

namespace Group

/-- A steady property stays when more comes into scope above the group.
Induction on the group. -/
theorem Fits.mono {group : Group} : ∀ {above other : List String}, Covers other above →
    group.Fits good above → group.Fits good other := by
  induction group using Group.induct with
  | step group ih =>
    intro above other covers fits
    have wider := covers.append_right group.lines
    obtain ⟨lines, children⟩ := fits_iff.mp fits
    refine fits_iff.mpr ⟨fun line member => steady.widen wider (lines line member),
      fun child member => ?_⟩
    exact ih child member wider (children child member)

theorem Fits.addChild {group child : Group} {above : List String} (fits : group.Fits good above)
    (inner : child.Fits good above) : (group.addChild child).Fits good above := by
  obtain ⟨own, children⟩ := fits_iff.mp fits
  have scope : Covers (group.lines ++ above) above := .of_subset (List.subset_append_right _ _)
  unfold Group.addChild
  split
  · exact fits
  · refine fits_iff.mpr ⟨own, List.forall_mem_append.mpr ⟨children, ?_⟩⟩
    exact List.forall_mem_singleton.mpr (inner.mono steady scope)

/-- Lines that a group takes up are in scope in all of it. -/
theorem Fits.addLines {group : Group} {lines above : List String}
    (fits : group.Fits good (lines ++ above)) (each : ∀ line ∈ lines, good (lines ++ above) line) :
    (group.addLines lines).Fits good above := by
  obtain ⟨own, children⟩ := fits_iff.mp fits
  have same : group.lines ++ lines ++ above = group.lines ++ (lines ++ above) :=
    List.append_assoc _ _ _
  have scope : Covers (group.lines ++ (lines ++ above)) (lines ++ above) :=
    .of_subset (List.subset_append_right _ _)
  refine fits_iff.mpr ⟨?_, ?_⟩
  · unfold Group.addLines
    rw [same]
    exact List.forall_mem_append.mpr ⟨own, fun line member => steady.widen scope (each line member)⟩
  · unfold Group.addLines
    rw [same]
    exact children

/-- A group that takes up a nested group and lines. Each may rely on the lines. -/
theorem Fits.collectOne {group child : Group} {lines above : List String}
    (fits : group.Fits good above) (inner : child.Fits good (lines ++ above))
    (each : ∀ line ∈ lines, good (lines ++ above) line) :
    (group.addChild child |>.addLines lines).Fits good above := by
  have wider := fits.mono steady (.of_subset (List.subset_append_right lines above))
  exact (wider.addChild steady inner).addLines steady each

/-- What becomes an alternative keeps the property. Its loose lines may have
been relied on by its group. -/
theorem Fits.asBranch {group branch : Group} {lines above : List String} {clause : Option Clause}
    (fits : group.Fits good (lines ++ above)) (each : ∀ line ∈ lines, good (lines ++ above) line)
    (made : group.asBranch lines clause = some branch) : branch.Fits good above := by
  unfold Group.asBranch at made
  split at made
  · split at made
    · cases made
    · cases made
      exact fits_plain clause each
  · split at made
    · cases made
      obtain ⟨own, children⟩ := fits_iff.mp fits
      have scope : Covers (lines ++ group.lines ++ above) (group.lines ++ (lines ++ above)) :=
        .of_subset fun line member => by simp only [List.mem_append] at member ⊢; tauto
      have outerScope : Covers (lines ++ group.lines ++ above) (lines ++ above) :=
        .of_subset fun line member => by simp only [List.mem_append] at member ⊢; tauto
      refine fits_iff.mpr ⟨fun line member => ?_, fun child member => ?_⟩
      · rcases List.mem_append.mp member with new | old
        · exact steady.widen outerScope (each line new)
        · exact steady.widen scope (own line old)
      · exact (children child member).mono steady scope
    · cases made
      refine fits_iff.mpr ⟨each, List.forall_mem_singleton.mpr fits⟩

theorem Fits.addBranch {group branch : Group} {lines above : List String} {clause : Option Clause}
    (fits : group.Fits good above) (inner : branch.Fits good (lines ++ above))
    (each : ∀ line ∈ lines, good (lines ++ above) line) :
    (group.addChild? (branch.asBranch lines clause)).Fits good above := by
  cases made : branch.asBranch lines clause with
  | none => exact fits
  | some child => exact fits.addChild steady (inner.asBranch steady each made)

/-- Filters that move up find the same triple patterns in scope: there are none
in the group that they leave. -/
theorem Fits.bubbleFilters {group : Group} : ∀ {above : List String}, group.Fits good above →
    group.bubbleFilters.Fits good above := by
  induction group using Group.induct with
  | step group ih =>
    intro above fits
    obtain ⟨own, children⟩ := fits_iff.mp fits
    have inner : ∀ child ∈ group.children.map Group.bubbleFilters,
        child.Fits good (group.lines ++ above) := by
      intro child member
      obtain ⟨original, originalMember, rfl⟩ := List.mem_map.mp member
      exact ih original originalMember (children original originalMember)
    rw [bubbleFilters_eq]
    generalize group.children.map Group.bubbleFilters = bubbled at inner
    have scope : Covers (group.lines ++ (bubbled.filter isFilterLeaf).flatMap lines ++ above)
        (group.lines ++ above) :=
      .of_subset fun line member => by simp only [List.mem_append] at member ⊢; tauto
    refine fits_iff.mpr ⟨fun line member => ?_, fun child member => ?_⟩
    · rcases List.mem_append.mp member with old | lifted
      · exact steady.widen scope (own line old)
      · obtain ⟨child, childMember, inside⟩ := List.mem_flatMap.mp lifted
        obtain ⟨kept, leaf⟩ := List.mem_filter.mp childMember
        have filters : ∀ line ∈ child.lines, isTriple line = false := by
          intro line member
          simp only [isFilterLeaf, Bool.and_eq_true, List.all_eq_true] at leaf
          exact isTriple_of_isFilter (leaf.2 line member)
        have before := (fits_iff.mp (inner child kept)).1 line inside
        exact steady.widen scope (steady.widen (.append filters) before)
    · exact (inner child (List.mem_of_mem_filter member)).mono steady scope

/-- A steady property of the lines of a group is kept by both passes. -/
theorem Fits.postProcess {group : Group} {above : List String} (fits : group.Fits good above) :
    group.postProcess.Fits good above :=
  (fits.bubbleFilters steady).stripLeadingUnion

end Group

end Building

end ShapeQuery
