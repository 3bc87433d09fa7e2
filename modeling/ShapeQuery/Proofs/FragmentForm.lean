import ShapeQuery.Proofs.GroupForm
import ShapeQuery.Proofs.Placement

/-!
The form of what the compiler builds. Every visit gives a group in which a level holds either groups
that stand together or alternatives that are all marked, and loose lines only beside an empty group.
-/
namespace ShapeQuery.Compile

open ShapeQuery.Group

structure Gathered (group : Group) : Prop where
  raw : group.EveryNode RawLevel
  unmarked : ∀ child ∈ group.children, child.clause ≠ some .union

structure Disjoined (group : Group) : Prop where
  raw : group.EveryNode RawLevel
  noLines : group.lines = []
  marked : ∀ child ∈ group.children, child.clause = some .union

/-- What is known of a fragment: its group has the form of groups before the
passes and is no alternative, its loose lines are lines of a pattern, and it
does not have both. -/
structure Fragment.Formed (f : Fragment) : Prop where
  raw : f.group.EveryNode RawLevel
  unmarked : f.group.clause ≠ some .union
  loose : ∀ line ∈ f.loose, IsPatternLine line
  apart : f.loose = [] ∨ f.group = {}

/-- A group without nested groups only has its lines to show. -/
theorem everyNode_leaf (clause : Option Clause) {lines : List String}
    (each : ∀ line ∈ lines, IsPatternLine line) :
    EveryNode RawLevel { clause, lines } :=
  everyNode_iff.mpr
    ⟨⟨rfl, each, List.forall_mem_nil _, Or.inl (List.forall_mem_nil _)⟩, List.forall_mem_nil _⟩

/-- A group of the right form that is no alternative and is not empty has
something in it. -/
theorem filled_of_not_isEmpty {group : Group} (raw : group.EveryNode RawLevel)
    (unmarked : group.clause ≠ some .union) (nonempty : group.isEmpty = false) : group.Filled := by
  rintro (plain | union)
  · have suffix := (everyNode_iff.mp raw).1.suffix
    simp only [isEmpty, plain, suffix, Option.isNone_none, beq_self_eq_true, Bool.and_self,
      Bool.true_and, Bool.and_eq_false_iff, List.isEmpty_eq_false_iff] at nonempty
    exact nonempty.symm
  · exact absurd union unmarked

/-- The own clause of a group says nothing about what is inside. -/
theorem everyNode_withClause {group : Group} (raw : group.EveryNode RawLevel)
    (clause : Option Clause) : EveryNode RawLevel (withClause group clause) := by
  obtain ⟨here, inside⟩ := everyNode_iff.mp raw
  cases clause with
  | none => exact raw
  | some clause =>
    exact everyNode_iff.mpr ⟨⟨here.suffix, here.lines, here.filled, here.branches⟩, inside⟩

/-! ### Groups that hold together -/

namespace Gathered

theorem plain (clause : Option Clause) : Gathered { clause } :=
  ⟨everyNode_leaf clause (List.forall_mem_nil _), List.forall_mem_nil _⟩

theorem addChild {group child : Group} (gathered : Gathered group) (raw : child.EveryNode RawLevel)
    (unmarked : child.clause ≠ some .union) : Gathered (group.addChild child) := by
  obtain ⟨here, inside⟩ := everyNode_iff.mp gathered.raw
  unfold Group.addChild
  split
  · exact gathered
  · next nonempty =>
    have filled := filled_of_not_isEmpty raw unmarked (Bool.eq_false_iff.mpr nonempty)
    have allUnmarked : ∀ other ∈ group.children ++ [child], other.clause ≠ some .union :=
      List.forall_mem_append.mpr ⟨gathered.unmarked, List.forall_mem_singleton.mpr unmarked⟩
    refine ⟨everyNode_iff.mpr ⟨⟨here.suffix, here.lines, ?_, Or.inl allUnmarked⟩, ?_⟩, allUnmarked⟩
    · exact List.forall_mem_append.mpr ⟨here.filled, List.forall_mem_singleton.mpr filled⟩
    · exact List.forall_mem_append.mpr ⟨inside, List.forall_mem_singleton.mpr raw⟩

theorem addLines {group : Group} (gathered : Gathered group) {lines : List String}
    (each : ∀ line ∈ lines, IsPatternLine line) : Gathered (group.addLines lines) := by
  obtain ⟨here, inside⟩ := everyNode_iff.mp gathered.raw
  refine ⟨everyNode_iff.mpr ⟨⟨here.suffix, ?_, here.filled, Or.inl gathered.unmarked⟩, inside⟩,
    gathered.unmarked⟩
  exact List.forall_mem_append.mpr ⟨here.lines, each⟩

theorem collect {fs : List Fragment} (formed : ∀ f ∈ fs, f.Formed) :
    ∀ {group : Group}, Gathered group → Gathered (collect group fs) := by
  induction fs with
  | nil => exact fun gathered => gathered
  | cons f fs ih =>
    intro group gathered
    rw [List.forall_mem_cons] at formed
    exact ih formed.2 ((gathered.addChild formed.1.raw formed.1.unmarked).addLines formed.1.loose)

end Gathered

/-! ### Alternatives -/

structure IsBranch (group : Group) : Prop where
  raw : group.EveryNode RawLevel
  filled : group.Filled
  marked : group.clause = some .union

theorem IsBranch.leaf {lines : List String} (each : ∀ line ∈ lines, IsPatternLine line)
    (nonempty : lines ≠ []) : IsBranch { clause := some .union, lines } :=
  ⟨everyNode_leaf _ each, fun _ => Or.inl nonempty, rfl⟩

/-- A fragment becomes an alternative with something in it, or nothing at all. -/
theorem asBranch_isBranch {f : Fragment} (formed : f.Formed) {lines : List String}
    (each : ∀ line ∈ lines, IsPatternLine line) (apart : lines = [] ∨ f.group = {}) {branch : Group}
    (result : f.group.asBranch lines (some .union) = some branch) : IsBranch branch := by
  obtain ⟨here, inside⟩ := everyNode_iff.mp formed.raw
  unfold asBranch at result
  split at result
  · split at result
    · cases result
    · next nonempty =>
      cases result
      exact .leaf each fun none => nonempty (List.isEmpty_iff.mpr none)
  · next nonempty =>
    have filled := filled_of_not_isEmpty formed.raw formed.unmarked (Bool.eq_false_iff.mpr nonempty)
    -- A group that is not empty has no loose lines beside it, so a disjunction stays without lines.
    have noLines : lines = [] := apart.resolve_right fun empty => nonempty (by rw [empty]; rfl)
    subst noLines
    split at result
    · next plain =>
      cases result
      rw [Option.isNone_iff_eq_none] at plain
      refine ⟨everyNode_iff.mpr ⟨⟨here.suffix, here.lines, here.filled, here.branches⟩, inside⟩, ?_,
        rfl⟩
      exact fun _ => filled (Or.inl plain)
    · cases result
      refine ⟨everyNode_iff.mpr ⟨⟨rfl, List.forall_mem_nil _, ?_, Or.inl ?_⟩, ?_⟩, ?_, rfl⟩
      · exact List.forall_mem_singleton.mpr filled
      · exact List.forall_mem_singleton.mpr formed.unmarked
      · exact List.forall_mem_singleton.mpr formed.raw
      · exact fun _ => Or.inr (List.cons_ne_nil _ _)

namespace Disjoined

theorem empty : Disjoined {} :=
  ⟨everyNode_leaf none (List.forall_mem_nil _), rfl, List.forall_mem_nil _⟩

theorem addChild {group branch : Group} (disjoined : Disjoined group) (isBranch : IsBranch branch) :
    Disjoined (group.addChild branch) := by
  obtain ⟨here, inside⟩ := everyNode_iff.mp disjoined.raw
  rw [Group.addChild, isBranch.filled.not_isEmpty, if_neg (by decide)]
  have allMarked : ∀ other ∈ group.children ++ [branch], other.clause = some .union :=
    List.forall_mem_append.mpr ⟨disjoined.marked, List.forall_mem_singleton.mpr isBranch.marked⟩
  refine ⟨everyNode_iff.mpr ⟨⟨here.suffix, here.lines, ?_, Or.inr ⟨disjoined.noLines, allMarked⟩⟩,
    ?_⟩, disjoined.noLines, allMarked⟩
  · exact List.forall_mem_append.mpr ⟨here.filled, List.forall_mem_singleton.mpr isBranch.filled⟩
  · exact List.forall_mem_append.mpr ⟨inside, List.forall_mem_singleton.mpr isBranch.raw⟩

theorem addBranch {group : Group} (disjoined : Disjoined group) {f : Fragment} (formed : f.Formed)
    {lines : List String} (each : ∀ line ∈ lines, IsPatternLine line)
    (apart : lines = [] ∨ f.group = {}) :
    Disjoined (group.addChild? (f.group.asBranch lines (some .union))) := by
  cases result : f.group.asBranch lines (some .union) with
  | none => exact disjoined
  | some branch => exact disjoined.addChild (asBranch_isBranch formed each apart result)

theorem branches {fs : List Fragment} (formed : ∀ f ∈ fs, f.Formed) :
    ∀ {group : Group}, Disjoined group → Disjoined (branches group fs) := by
  induction fs with
  | nil => exact fun disjoined => disjoined
  | cons f fs ih =>
    intro group disjoined
    rw [List.forall_mem_cons] at formed
    exact ih formed.2 (disjoined.addBranch formed.1 formed.1.loose formed.1.apart)

end Disjoined

/-- What is known of the alternatives of a disjunction of shapes while they are
gathered. -/
structure Alternatives.Formed (alternatives : Alternatives) : Prop where
  disjoined : Disjoined alternatives.group
  filters : ∀ line ∈ alternatives.filters, IsFilterLine line

namespace Alternatives

/-- An alternative more keeps the form: its group becomes a branch, or its
filters are kept apart. -/
theorem Formed.add {alternatives : Alternatives} (formed : alternatives.Formed) {f : Fragment}
    (operand : f.Formed) : (alternatives.add f).Formed := by
  have disjoined := formed.disjoined.addBranch operand (List.forall_mem_nil _) (Or.inl rfl)
  unfold Alternatives.add
  dsimp only
  split
  · exact ⟨disjoined, formed.filters⟩
  · next nonempty =>
    split
    · next allFilters =>
      rw [List.all_eq_true] at allFilters
      have merged := mergeFilters_isFilterLine "&&" fun line member =>
        (operand.loose line member).isFilterLine (allFilters line member)
      refine ⟨disjoined, ?_⟩
      exact List.forall_mem_append.mpr ⟨formed.filters, List.forall_mem_singleton.mpr merged⟩
    · have branch := IsBranch.leaf operand.loose fun none => nonempty (List.isEmpty_iff.mpr none)
      exact ⟨disjoined.addChild branch, formed.filters⟩

/-- All operands of a disjunction, one after the other. Induction on the operands. -/
theorem Formed.addAll {fs : List Fragment} (operands : ∀ f ∈ fs, f.Formed) :
    ∀ {alternatives : Alternatives}, alternatives.Formed →
      (fs.foldl Alternatives.add alternatives).Formed := by
  induction fs with
  | nil => exact fun formed => formed
  | cons f fs ih =>
    intro alternatives formed
    rw [List.forall_mem_cons] at operands
    exact ih operands.2 (formed.add operands.1)

/-- The group of a disjunction has the form of groups before the passes. -/
theorem Formed.close {alternatives : Alternatives} (formed : alternatives.Formed) :
    EveryNode RawLevel alternatives.close := by
  have merged : ∀ line ∈ [mergeFilters alternatives.filters "||"], IsPatternLine line :=
    List.forall_mem_singleton.mpr (Or.inr (Or.inl (mergeFilters_isFilterLine "||" formed.filters)))
  unfold Alternatives.close
  dsimp only
  split
  · exact formed.disjoined.raw
  · split
    · next none =>
      have gathered : Gathered alternatives.group := by
        refine ⟨formed.disjoined.raw, ?_⟩
        rw [List.isEmpty_iff.mp none]
        exact List.forall_mem_nil _
      exact (gathered.addLines merged).raw
    · have branch := IsBranch.leaf merged (List.cons_ne_nil _ _)
      exact (formed.disjoined.addChild branch).raw

@[simp] theorem add_clause (alternatives : Alternatives) (f : Fragment) :
    (alternatives.add f).group.clause = alternatives.group.clause := by
  unfold Alternatives.add
  dsimp only
  split
  · exact addChild?_clause _ _
  · split
    · exact addChild?_clause _ _
    · rw [addChild_clause, addChild?_clause]

theorem close_clause (alternatives : Alternatives) :
    alternatives.close.clause = alternatives.group.clause := by
  unfold Alternatives.close
  dsimp only
  split
  · rfl
  · split
    · exact addLines_clause _ _
    · exact addChild_clause _ _

theorem addAll_close_clause (fs : List Fragment) : ∀ alternatives : Alternatives,
    (fs.foldl Alternatives.add alternatives).close.clause = alternatives.group.clause := by
  induction fs with
  | nil => exact close_clause
  | cons f fs ih =>
    intro alternatives
    rw [List.foldl_cons, ih, add_clause]

end Alternatives

/-! ### Fragments of visits -/

namespace Fragment.Formed

theorem empty : Fragment.Formed {} :=
  ⟨everyNode_leaf none (List.forall_mem_nil _), by decide, List.forall_mem_nil _, Or.inl rfl⟩

theorem ofGroup {group : Group} (raw : group.EveryNode RawLevel)
    (unmarked : group.clause ≠ some .union) : Fragment.Formed ⟨group, []⟩ :=
  ⟨raw, unmarked, List.forall_mem_nil _, Or.inl rfl⟩

theorem ofLines {lines : List String} (each : ∀ line ∈ lines, IsPatternLine line) :
    Fragment.Formed ⟨{}, lines⟩ :=
  ⟨everyNode_leaf none (List.forall_mem_nil _), by simp, each, Or.inr rfl⟩

theorem collect {clause : Option Clause} (unmarked : clause ≠ some .union) {fs : List Fragment}
    (formed : ∀ f ∈ fs, f.Formed) : Fragment.Formed ⟨collect { clause } fs, []⟩ :=
  .ofGroup (Gathered.collect formed (.plain clause)).raw (by rwa [collect_clause])

/-- Lines that stay inside a group under a clause, or stay loose without one. -/
theorem keepInside {clause : Option Clause} (unmarked : clause ≠ some .union) {lines : List String}
    (each : ∀ line ∈ lines, IsPatternLine line) : (keepInside clause lines).Formed := by
  unfold Compile.keepInside
  split
  · exact .ofGroup (everyNode_leaf clause each) unmarked
  · exact .ofLines each

/-- The arc stands in a group with what describes its object, so the lines of
the description need not be loose any more. -/
theorem arcTo {clause : Option Clause} (unmarked : clause ≠ some .union) {described : Fragment}
    (formed : described.Formed) {arc : String} (pattern : IsPatternLine arc) :
    (arcTo clause described arc).Formed := by
  have gathered := (Gathered.plain clause).addChild formed.raw formed.unmarked
  refine .ofGroup (gathered.addLines ?_).raw ?_
  · exact List.forall_mem_append.mpr ⟨formed.loose, List.forall_mem_singleton.mpr pattern⟩
  · rwa [addLines_clause, addChild_clause]

theorem withClause {group : Group} (raw : group.EveryNode RawLevel) (plain : group.clause = none)
    {clause : Option Clause} (unmarked : clause ≠ some .union) :
    Fragment.Formed ⟨withClause group clause, []⟩ := by
  refine .ofGroup (everyNode_withClause raw clause) ?_
  cases clause with
  | none => simp [Compile.withClause, plain]
  | some clause => exact unmarked

end Fragment.Formed

theorem constraintClause_unmarked (bounds : Bounds) : constraintClause bounds ≠ some .union := by
  unfold constraintClause
  split
  · decide
  · split <;> decide

/-- A group of triple expressions is plain or optional. -/
theorem groupClause_cases {bounds : Bounds} {clause : Option Clause}
    (marked : groupClause bounds = .ok clause) : clause = none ∨ clause = some .optional := by
  unfold groupClause at marked
  split at marked
  · cases marked
    exact Or.inl rfl
  · obtain ⟨below, -, marked⟩ := checked_bind_ok marked
    cases marked
    cases below <;> simp

theorem groupClause_unmarked {bounds : Bounds} {clause : Option Clause}
    (marked : groupClause bounds = .ok clause) : clause ≠ some .union := by
  rcases groupClause_cases marked with rfl | rfl <;> decide

theorem branches_clause (fs : List Fragment) : (branches {} fs).clause = none :=
  (branches_placed fs {} rfl).2

/-- What holds of the fragment of every step holds of all fragments of a chain. -/
theorem Chain.forall_mem {step : Outcomes} {property : Fragment → Prop} {p q : Progress}
    {items : List Item} {fs : List Fragment} (chain : Chain step p items fs q)
    (each : ∀ item ∈ items, ∀ {p f q}, step p item f q → property f) : ∀ f ∈ fs, property f := by
  induction chain with
  | nil => exact List.forall_mem_nil _
  | cons first _ ih =>
    rw [List.forall_mem_cons] at each ⊢
    exact ⟨each.1 first, ih each.2⟩

/-- A visit with a fragment whose form is as it should be, if it is about a variable. -/
def GivesForm (context : Context) : Outcomes := fun p item f q =>
  Visit context p item f q ∧ (IsVariable item.term → f.Formed)

/-- The fragments of the operands of a shape expression are of the right form. -/
theorem Chain.shapes_formed {context : Context} {focus : Focus} (bound : IsVariable focus.text)
    {p q : Progress} {operands : List ShapeExpr} {fs : List Fragment}
    (chain : Chain (GivesForm context) p (operands.map (.shape focus)) fs q) :
    ∀ f ∈ fs, f.Formed := by
  refine chain.forall_mem (List.forall_mem_map.mpr fun operand _ p f q step => ?_)
  exact step.2 bound

/-- The fragments of the operands of a triple expression are, too. -/
theorem Chain.triples_formed {context : Context} {subject : String} (bound : IsVariable subject)
    {p q : Progress} {operands : List TripleExpr} {fs : List Fragment}
    (chain : Chain (GivesForm context) p (operands.map (.triple subject)) fs q) :
    ∀ f ∈ fs, f.Formed := by
  refine chain.forall_mem (List.forall_mem_map.mpr fun operand _ p f q step => ?_)
  exact step.2 bound

/-- Every visit about a variable gives a fragment of the right form. -/
theorem Visit.formed {context : Context} {p q : Progress} {item : Item} {f : Fragment}
    (visit : Visit context p item f q) (bound : IsVariable item.term) : f.Formed := by
  refine Visit.induct (fun _ item f _ => IsVariable item.term → f.Formed)
    (fun {p item f q} rule bound => ?_) visit bound
  cases rule with
  | shapeMissing missing => exact .empty
  | shapeCut found mark => exact .empty
  | shapeReference found new inner =>
    obtain ⟨term, rfl⟩ := focus_of_isVariable bound
    exact inner.2 bound
  | any => exact .empty
  | emptyShape => exact .empty
  | shape inner => exact .collect (by decide) (List.forall_mem_singleton.mpr (inner.2 bound))
  | and inner => exact .collect (by decide) (inner.shapes_formed bound)
  | or inner =>
    have start : Alternatives.Formed {} := ⟨.empty, List.forall_mem_nil _⟩
    refine .ofGroup (start.addAll (inner.shapes_formed bound)).close ?_
    simp [Alternatives.addAll_close_clause]
  | not inner => exact .collect (by decide) (List.forall_mem_singleton.mpr (inner.2 bound))
  | notEach inner => exact .collect (by decide) (inner.shapes_formed bound)
  | node written =>
    exact .ofLines fun line member => (constraintLines_constraint written line member).isPatternLine
      bound
  | external => exact .empty
  | unsupportedShape => exact .empty
  | tripleMissing missing => exact .empty
  | tripleCut found mark => exact .empty
  | tripleReference found new inner => exact inner.2 bound
  | arcToReference inner =>
    refine .arcTo (constraintClause_unmarked _) (inner.2 (isVariable_stable _)) (Or.inl ?_)
    exact triplePattern_starts bound (isVariable_stable _) _ _
  | arc =>
    refine .keepInside (constraintClause_unmarked _) (List.forall_mem_singleton.mpr (Or.inl ?_))
    exact triplePattern_starts bound (isVariable_fresh _) _ _
  | arcToNode named written =>
    refine .keepInside (constraintClause_unmarked _) (List.forall_mem_cons.mpr ⟨Or.inl ?_, ?_⟩)
    · exact triplePattern_starts bound (isVariable_fresh _) _ _
    · intro line member
      exact (constraintLines_constraint written line member).isPatternLine (isVariable_fresh _)
  | nodeWithoutArc unnamed written =>
    refine .keepInside (constraintClause_unmarked _) fun line member => ?_
    exact (constraintLines_constraint written line member).isPatternLine bound
  | arcToInline inline inner =>
    refine .arcTo (constraintClause_unmarked _) (inner.2 (isVariable_fresh _)) (Or.inl ?_)
    exact triplePattern_starts bound (isVariable_fresh _) _ _
  | eachOf inner marked =>
    have gathered := Gathered.collect (inner.triples_formed bound) (.plain none)
    exact .withClause gathered.raw (collect_clause _ _) (groupClause_unmarked marked)
  | oneOf inner marked =>
    have disjoined := Disjoined.branches (inner.triples_formed bound) .empty
    exact .withClause disjoined.raw (branches_clause _) (groupClause_unmarked marked)
  | unsupportedTriple => exact .empty

/-- The group of a shape expression is plain, or a negation. -/
theorem Visit.shape_clause {context : Context} {p q : Progress} {focus : Focus} {expr : ShapeExpr}
    {f : Fragment} (visit : Visit context p (.shape focus expr) f q) :
    f.group.clause = none ∨ f.group.clause = some .minus := by
  have general := Visit.induct
    (fun _ item f _ => ∀ focus expr, item = .shape focus expr →
      f.group.clause = none ∨ f.group.clause = some .minus)
    (fun {p item f q} rule => ?_) visit
  · exact general focus expr rfl
  · rintro focus expr rfl
    cases rule with
    | shapeReference found new inner => exact inner.2 _ _ rfl
    | shape inner => exact Or.inl (collect_clause _ _)
    | and inner => exact Or.inl (collect_clause _ _)
    | or inner => exact Or.inl (Alternatives.addAll_close_clause _ _)
    | not inner => exact Or.inr (collect_clause _ _)
    | notEach inner => exact Or.inr (collect_clause _ _)
    | _ => exact Or.inl rfl

/-- A root takes up the loose lines of its fragment and keeps the form. -/
theorem Fragment.Formed.rooted {f : Fragment} (formed : f.Formed) :
    (f.group.addLines f.loose).EveryNode RawLevel := by
  rcases formed.apart with none | empty
  · rw [none, addLines_nil]
    exact formed.raw
  · rw [empty]
    exact everyNode_leaf none formed.loose

end ShapeQuery.Compile
