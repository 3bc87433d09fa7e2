import ShapeQuery.Proofs.GroupForm
import ShapeQuery.Proofs.Visit

/-!
The lines of a group together with the lines of all groups inside it. Building a group
out of fragments loses no line but those of filters that are combined, and the passes
over a finished group lose none.
-/
namespace ShapeQuery

namespace Group

/-- All lines of a group and of the groups inside it. -/
def allLines (group : Group) : List String :=
  group.nodes.flatMap lines

variable {group child branch : Group} {line : String}

/-- A line of a group is its own or one of a group inside, at any depth. -/
theorem mem_allLines :
    line ∈ group.allLines ↔ line ∈ group.lines ∨
      ∃ child ∈ group.children, line ∈ child.allLines := by
  simp only [allLines]
  rw [nodes_eq, List.flatMap_cons, List.mem_append]
  simp only [List.mem_flatMap]
  constructor
  · rintro (own | ⟨node, ⟨child, member, inside⟩, there⟩)
    · exact Or.inl own
    · exact Or.inr ⟨child, member, node, inside, there⟩
  · rintro (own | ⟨child, member, node, inside, there⟩)
    · exact Or.inl own
    · exact Or.inr ⟨node, ⟨child, member, inside⟩, there⟩

theorem mem_allLines_mk {clause : Option Clause} {suffix : String} {lines : List String}
    {children : List Group} : line ∈ (⟨clause, suffix, lines, children⟩ : Group).allLines ↔
      line ∈ lines ∨ ∃ child ∈ children, line ∈ child.allLines :=
  mem_allLines

theorem not_mem_allLines_of_isEmpty (empty : group.isEmpty = true) : line ∉ group.allLines := by
  simp only [isEmpty, Bool.and_eq_true, List.isEmpty_iff] at empty
  rw [mem_allLines, empty.1.2, empty.2]
  simp

theorem mem_allLines_addLines {lines : List String} :
    line ∈ (group.addLines lines).allLines ↔ line ∈ group.allLines ∨ line ∈ lines := by
  rw [addLines, mem_allLines_mk, mem_allLines, List.mem_append, or_right_comm]

/-- A child that is added brings its lines. One that is dropped for being empty
has none. -/
theorem mem_allLines_addChild :
    line ∈ (group.addChild child).allLines ↔ line ∈ group.allLines ∨ line ∈ child.allLines := by
  unfold addChild
  split
  · next empty => simp [not_mem_allLines_of_isEmpty empty]
  · rw [mem_allLines_mk, mem_allLines]
    simp only [List.mem_append, List.mem_singleton, or_and_right, exists_or,
      exists_eq_left, or_assoc]

/-- A branch has the lines that are given for it and all those of its group. -/
theorem mem_allLines_addBranch {lines : List String} {clause : Option Clause} :
    line ∈ (group.addChild? (branch.asBranch lines clause)).allLines ↔
      line ∈ group.allLines ∨ line ∈ branch.allLines ∨ line ∈ lines := by
  unfold asBranch
  split
  · next empty =>
    have none : line ∉ branch.allLines := not_mem_allLines_of_isEmpty empty
    split
    · next noLines => simp [addChild?, none, List.isEmpty_iff.mp noLines]
    · simp [addChild?, mem_allLines_addChild, mem_allLines_mk, none]
  · split
    · rw [addChild?, mem_allLines_addChild, mem_allLines_mk, List.mem_append, or_assoc,
        ← @mem_allLines branch line, or_comm (a := line ∈ lines)]
    · rw [addChild?, mem_allLines_addChild, mem_allLines_mk]
      simp only [List.mem_singleton, exists_eq_left, or_comm]

/-- Filters that move up stay in the group that they move into. No line is lost
or made by it. -/
theorem mem_allLines_bubbleFilters :
    line ∈ group.bubbleFilters.allLines ↔ line ∈ group.allLines := by
  induction group using Group.induct with
  | step group ih =>
    rw [bubbleFilters_eq, mem_allLines_mk, mem_allLines, List.mem_append, or_assoc]
    refine or_congr_right ?_
    simp only [List.mem_flatMap, List.mem_filter, List.mem_map]
    constructor
    · rintro (⟨leaf, ⟨⟨child, member, rfl⟩, -⟩, own⟩ | ⟨kept, ⟨⟨child, member, rfl⟩, -⟩, inside⟩)
      · exact ⟨child, member, (ih child member).mp (mem_allLines.mpr (Or.inl own))⟩
      · exact ⟨child, member, (ih child member).mp inside⟩
    · rintro ⟨child, member, inside⟩
      have bubbled := (ih child member).mpr inside
      by_cases leaf : child.bubbleFilters.isFilterLeaf = true
      · have none : child.bubbleFilters.children = [] := by
          simp only [isFilterLeaf, Bool.and_eq_true, List.isEmpty_iff] at leaf
          exact leaf.1.1.2
        rw [mem_allLines, none] at bubbled
        exact Or.inl ⟨_, ⟨⟨child, member, rfl⟩, leaf⟩, by simpa using bubbled⟩
      · exact Or.inr ⟨_, ⟨⟨child, member, rfl⟩, by simpa using leaf⟩, bubbled⟩

theorem mem_allLines_untagUnion : line ∈ group.untagUnion.allLines ↔ line ∈ group.allLines := by
  unfold untagUnion
  split
  · rw [mem_allLines_mk, mem_allLines]
  · rfl

theorem mem_allLines_stripLeadingUnion :
    line ∈ group.stripLeadingUnion.allLines ↔ line ∈ group.allLines := by
  induction group using Group.induct with
  | step group ih =>
    rw [stripLeadingUnion_eq, mem_allLines_mk, mem_allLines]
    refine or_congr_right ?_
    constructor
    · rintro ⟨shown, member, inside⟩
      obtain ⟨child, childMember, rfl | rfl⟩ := mem_stripChildren member
      · exact ⟨child, childMember, (ih child childMember).mp inside⟩
      · exact ⟨child, childMember, (ih child childMember).mp (mem_allLines_untagUnion.mp inside)⟩
    · rintro ⟨child, member, inside⟩
      have stripped := (ih child member).mpr inside
      rcases stripChildren_mem member with there | there
      · exact ⟨_, there, stripped⟩
      · exact ⟨_, there, mem_allLines_untagUnion.mpr stripped⟩

/-- The passes keep the lines of a group. They only change where lines stand
and which groups are marked. -/
theorem mem_allLines_postProcess : line ∈ group.postProcess.allLines ↔ line ∈ group.allLines := by
  rw [postProcess, mem_allLines_stripLeadingUnion, mem_allLines_bubbleFilters]

end Group

namespace Compile

open ShapeQuery.Group

def Fragment.allLines (f : Fragment) : List String :=
  f.group.allLines ++ f.loose

section Fragments

variable {line : String} {group : Group} {clause : Option Clause}

theorem not_mem_allLines_plain : line ∉ ({ clause } : Group).allLines := by
  rw [mem_allLines_mk]
  simp

theorem Fragment.mem_allLines_ofGroup :
    line ∈ Fragment.allLines ⟨group, []⟩ ↔ line ∈ group.allLines := by
  rw [Fragment.allLines, List.append_nil]

theorem Fragment.mem_allLines_ofLines {lines : List String} :
    line ∈ Fragment.allLines ⟨{}, lines⟩ ↔ line ∈ lines := by
  simp [Fragment.allLines, not_mem_allLines_plain]

theorem Fragment.not_mem_allLines_empty : line ∉ Fragment.allLines {} := by
  simp [Fragment.allLines, not_mem_allLines_plain]

/-- Collecting fragments keeps all their lines. Induction on the fragments,
with the group for which they are collected left open. -/
theorem mem_allLines_collect {fs : List Fragment} : ∀ {group : Group},
    line ∈ (collect group fs).allLines ↔ line ∈ group.allLines ∨ ∃ f ∈ fs, line ∈ f.allLines := by
  induction fs with
  | nil => simp [collect]
  | cons f rest ih =>
    intro group
    have added := @ih (group.addChild f.group |>.addLines f.loose)
    rw [mem_allLines_addLines, mem_allLines_addChild, or_assoc, or_assoc,
      ← or_assoc (b := _ ∈ f.loose), ← List.mem_append] at added
    rw [List.exists_mem_cons_iff]
    exact added

theorem mem_allLines_branches {fs : List Fragment} : ∀ {group : Group},
    line ∈ (branches group fs).allLines ↔ line ∈ group.allLines ∨ ∃ f ∈ fs, line ∈ f.allLines := by
  induction fs with
  | nil => simp [branches]
  | cons f rest ih =>
    intro group
    have added := @ih (group.addChild? (f.group.asBranch f.loose (some .union)))
    rw [mem_allLines_addBranch, or_assoc, ← List.mem_append] at added
    rw [List.exists_mem_cons_iff]
    exact added

theorem mem_allLines_withClause :
    line ∈ (withClause group clause).allLines ↔ line ∈ group.allLines := by
  unfold withClause
  split
  · rw [mem_allLines_mk, mem_allLines]
  · rfl

theorem mem_allLines_keepInside {lines : List String} :
    line ∈ (keepInside clause lines).allLines ↔ line ∈ lines := by
  unfold keepInside
  split
  · rw [Fragment.mem_allLines_ofGroup, mem_allLines_mk]
    simp
  · exact Fragment.mem_allLines_ofLines

/-- An arc to an object has the lines that describe the object, and the arc itself. -/
theorem mem_allLines_arcTo {described : Fragment} {arc : String} :
    line ∈ (arcTo clause described arc).allLines ↔ line ∈ described.allLines ∨ line = arc := by
  rw [arcTo, Fragment.mem_allLines_ofGroup, mem_allLines_addLines, mem_allLines_addChild,
    Fragment.allLines, List.mem_append, List.mem_append, List.mem_singleton]
  have none : line ∉ ({ clause } : Group).allLines := not_mem_allLines_plain
  tauto

end Fragments

end Compile

end ShapeQuery
