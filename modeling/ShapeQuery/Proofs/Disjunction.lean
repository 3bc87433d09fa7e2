import ShapeQuery.Proofs.Conditions
import ShapeQuery.Proofs.Visit

/-!
The group of a disjunction. An operand has a group of its own or lines of a node constraint, never
both. The operands that have more than filters are branches, in their order; those that only have
filters make up one filter, which holds if all filters of one of them hold.
-/
namespace ShapeQuery.Compile

open Condition

def filterCondition (line : String) : String :=
  String.ofList ((line.toList.drop "FILTER(".length).dropLast)

theorem filterCondition_filterLine (condition : String) :
    filterCondition (filterLine condition) = condition := by
  have length : "FILTER(".length = 7 := by decide
  simp [filterCondition, filterLine, length]

namespace Fragment

/-- A fragment with a group or with loose lines, or with neither. The fragments
of shape expressions are of this kind. -/
def Separate (f : Fragment) : Prop :=
  f.group.isEmpty = true ∨ f.loose = []

/-- Whether there are loose lines and all of them are filters. -/
def onlyFilters (f : Fragment) : Bool :=
  !f.loose.isEmpty && f.loose.all isFilter

/-- The branch for an alternative that has more than filters. A clause of its
group stays, inside the branch. -/
def branch? (f : Fragment) : Option Group :=
  if f.group.isEmpty then
    if f.loose.all isFilter then none else some { clause := some .union, lines := f.loose }
  else if f.group.clause.isNone then
    some { f.group with clause := some .union }
  else
    some { clause := some .union, children := [f.group] }

def conditions (f : Fragment) : List String :=
  f.loose.map filterCondition

end Fragment

/-! ### Gathering alternatives -/

/-- An alternative is never empty, as it has its mark, so it is always added. -/
theorem Group.addChild_union {group child : Group} (marked : child.clause = some .union) :
    group.addChild child = { group with children := group.children ++ [child] } := by
  simp [Group.addChild, Group.isEmpty, marked]

/-- A group of its own becomes the branch of an alternative. -/
theorem Fragment.branch?_group {f : Fragment} (filled : f.group.isEmpty = false) :
    f.branch? = f.group.asBranch [] (some .union) := by
  simp [branch?, Group.asBranch, filled]

theorem Fragment.exists_branch? {f : Fragment} (filled : f.group.isEmpty = false) :
    ∃ branch, f.branch? = some branch := by
  rw [branch?_group filled, Group.asBranch, filled, if_neg (by decide)]
  split <;> exact ⟨_, rfl⟩

theorem Fragment.clause_of_branch? {f : Fragment} {branch : Group}
    (made : f.branch? = some branch) : branch.clause = some .union := by
  unfold branch? at made
  repeat' split at made
  all_goals cases made
  all_goals rfl

/-- An alternative adds its branch, or its filter, or nothing. -/
theorem Alternatives.add_eq {f : Fragment} (separate : f.Separate) (children : List Group)
    (filters : List String) :
    Alternatives.add ⟨{ children }, filters⟩ f =
      ⟨{ children := children ++ f.branch?.toList },
        filters ++ if f.onlyFilters then [mergeFilters f.loose "&&"] else []⟩ := by
  by_cases group : f.group.isEmpty = true
  · have nothing : f.group.asBranch [] (some .union) = none := by simp [Group.asBranch, group]
    by_cases filtering : f.loose.all isFilter = true
    · by_cases empty : f.loose = []
      · simp [Alternatives.add, Fragment.branch?, Fragment.onlyFilters, group, nothing,
          Group.addChild?, empty]
      · simp [Alternatives.add, Fragment.branch?, Fragment.onlyFilters, group, nothing,
          Group.addChild?, empty, filtering]
    · have some : f.loose ≠ [] := fun none => filtering (by simp [none])
      simp [Alternatives.add, Fragment.branch?, Fragment.onlyFilters, group, nothing,
        Group.addChild?, some, filtering, Group.addChild_union]
  · rw [Bool.not_eq_true] at group
    have loose : f.loose = [] := separate.resolve_left (by simp [group])
    obtain ⟨branch, made⟩ := Fragment.exists_branch? group
    have marked := Fragment.clause_of_branch? made
    simp [Alternatives.add, ← Fragment.branch?_group group, made, Group.addChild?,
      Group.addChild_union marked, loose, Fragment.onlyFilters]

theorem foldl_add {fs : List Fragment} (separate : ∀ f ∈ fs, f.Separate) (children : List Group)
    (filters : List String) :
    fs.foldl Alternatives.add ⟨{ children }, filters⟩ =
      ⟨{ children := children ++ fs.filterMap Fragment.branch? },
        filters ++ (fs.filter Fragment.onlyFilters).map fun f => mergeFilters f.loose "&&"⟩ := by
  induction fs generalizing children filters with
  | nil => simp
  | cons f rest ih =>
    obtain ⟨here, others⟩ := List.forall_mem_cons.mp separate
    rw [List.foldl_cons, Alternatives.add_eq here, ih others, List.filterMap_cons, List.filter_cons]
    cases f.branch? <;> split <;> simp

/-- What an operand that only has filters asks for: all of its conditions. -/
def Fragment.formula (f : Fragment) : Formula :=
  .merged .and (f.conditions.map .atom)

/-- What the operands that only have filters ask for together: all conditions
of one of them. -/
def commonFormula (fs : List Fragment) : Formula :=
  .merged .or ((fs.filter Fragment.onlyFilters).map Fragment.formula)

def commonFilter (fs : List Fragment) : String :=
  filterLine (commonFormula fs).text

/-- Loose lines of which each filter is written as one. -/
def Fragment.Lined (f : Fragment) : Prop :=
  ∀ line ∈ f.loose, isFilter line = true → IsFilterLine line

/-- Loose lines that are all filters are the filters of their conditions. -/
theorem Fragment.loose_eq {f : Fragment} (lined : f.Lined) (filtering : f.onlyFilters = true) :
    f.loose = f.conditions.map filterLine := by
  rw [onlyFilters, Bool.and_eq_true, List.all_eq_true] at filtering
  rw [conditions, List.map_map]
  refine (List.map_id' _).symm.trans (List.map_congr_left fun line member => ?_)
  obtain ⟨condition, rfl⟩ := lined line member (filtering.2 line member)
  exact congrArg filterLine (filterCondition_filterLine condition).symm

/-- The filters of an operand are merged into what it asks for. -/
theorem Fragment.mergeFilters_loose {f : Fragment} (lined : f.Lined)
    (filtering : f.onlyFilters = true) : mergeFilters f.loose "&&" = filterLine f.formula.text := by
  have atoms : f.loose = (f.conditions.map Formula.atom).map fun part => filterLine part.text := by
    rw [List.map_map, loose_eq lined filtering]
    exact List.map_congr_left fun condition _ => by rw [Function.comp_apply, Formula.text]
  rw [atoms]
  exact mergeFilters_formulas .and _

/-- What the operands ask for is merged into the common filter. -/
theorem mergeFilters_common {fs : List Fragment} (lined : ∀ f ∈ fs, f.Lined) :
    mergeFilters ((fs.filter Fragment.onlyFilters).map fun f => mergeFilters f.loose "&&") "||" =
      commonFilter fs := by
  rw [commonFilter, commonFormula, ← mergeFilters_formulas, List.map_map]
  refine congrArg (mergeFilters · "||") (List.map_congr_left fun f member => ?_)
  obtain ⟨among, filtering⟩ := List.mem_filter.mp member
  exact Fragment.mergeFilters_loose (lined f among) filtering

/-- The common filter asks that all conditions of one of the operands hold,
whatever texts the conditions are. -/
theorem commonFormula_met {fs : List Fragment} {truth : String → Prop} :
    (commonFormula fs).Met truth ↔
      ∃ f ∈ fs, f.onlyFilters = true ∧ ∀ condition ∈ f.conditions, truth condition := by
  have each : ∀ f : Fragment, f.formula.Met truth ↔
      ∀ condition ∈ f.conditions, truth condition := by
    intro f
    rw [Fragment.formula, Formula.met_and, List.forall_mem_map]
    simp only [Formula.Met]
  rw [commonFormula, Formula.met_or]
  simp only [List.mem_map, exists_exists_and_eq_and]
  simp only [List.mem_filter, and_assoc, each]

/-- The text of the common filter: alternatives of joined conditions. -/
theorem commonFormula_text (fs : List Fragment) :
    (commonFormula fs).text =
      joined "||" (((fs.filter Fragment.onlyFilters).map Fragment.conditions).map
        (joined "&&")) := by
  have each : ∀ f : Fragment, f.formula.text = joined "&&" f.conditions := by
    intro f
    rw [Fragment.formula, Formula.text, Formula.texts_eq_map, List.map_map]
    exact congrArg (joined "&&")
      ((List.map_congr_left fun condition _ => by rw [Function.comp_apply, Formula.text]).trans
        (List.map_id' _))
  rw [commonFormula, Formula.text, Formula.texts_eq_map, List.map_map, List.map_map]
  exact congrArg (joined "||") (List.map_congr_left fun f _ => each f)

/-- The group of a disjunction: the branches, and behind them the filter. -/
theorem close_foldl_add {fs : List Fragment} (separate : ∀ f ∈ fs, f.Separate)
    (lined : ∀ f ∈ fs, f.Lined) :
    (fs.foldl Alternatives.add {}).close =
      { lines := if fs.any Fragment.onlyFilters && (fs.filterMap Fragment.branch?).isEmpty
          then [commonFilter fs] else []
        children := fs.filterMap Fragment.branch? ++
          if fs.any Fragment.onlyFilters && !(fs.filterMap Fragment.branch?).isEmpty
          then [{ clause := some .union, lines := [commonFilter fs] }] else [] } := by
  have gathered : fs.foldl Alternatives.add {} = ⟨{ children := fs.filterMap Fragment.branch? },
      (fs.filter Fragment.onlyFilters).map fun f => mergeFilters f.loose "&&"⟩ := by
    simpa using foldl_add separate [] []
  have filters : (fs.filter Fragment.onlyFilters).isEmpty = !fs.any Fragment.onlyFilters := by
    rw [Bool.eq_iff_iff]
    simp
  rw [gathered, Alternatives.close, mergeFilters_common lined]
  simp only [List.isEmpty_map, filters]
  cases fs.any Fragment.onlyFilters with
  | false => simp
  | true =>
    cases (fs.filterMap Fragment.branch?).isEmpty with
    | false => simp [Group.addChild_union]
    | true => simp [Group.addLines]

/-! ### Visiting the operands -/

section Run

variable {context : Context} {links : Links}

theorem gatherAlternatives_eq (links : Links) (focus : Focus) (alternatives : Alternatives)
    (operands : List ShapeExpr) :
    gatherAlternatives links focus alternatives operands = (do
      let fs ← operands.mapM (shapeFragment links focus)
      return fs.foldl Alternatives.add alternatives) := by
  induction operands generalizing alternatives with
  | nil => simp [gatherAlternatives]
  | cons operand rest ih =>
    rw [gatherAlternatives, List.mapM_cons]
    simp [ih]

theorem mapM_shapeFragment (follow : LinksVisit context links) {focus : Focus} :
    ∀ {operands : List ShapeExpr} {p q : Progress} {fs : List Fragment},
      operands.mapM (shapeFragment links focus) p = .ok fs q → ∀ f ∈ fs, f.Separate ∧ f.Lined := by
  intro operands
  induction operands with
  | nil =>
    intro p q fs success
    cases success
    simp
  | cons operand rest ih =>
    intro p q fs success
    rw [List.mapM_cons] at success
    obtain ⟨f, middle, visited, success⟩ := bind_ok success
    obtain ⟨others, after, madeOthers, success⟩ := bind_ok success
    cases success
    refine List.forall_mem_cons.mpr ⟨?_, ih madeOthers⟩
    rcases (shapeFragment_visit follow visited).shape_loose with none | ⟨none, nc, var, written⟩
    · exact ⟨Or.inr none, by simp [Fragment.Lined, none]⟩
    · refine ⟨Or.inl (by rw [none]; rfl), fun line member filter => ?_⟩
      exact ((constraintLines_about written line member).tests filter).isFilterLine

theorem shapeFragment_or (links : Links) (focus : Focus) (operands : List ShapeExpr) :
    shapeFragment links focus (.or operands) = (do
      let fs ← operands.mapM (shapeFragment links focus)
      return ⟨(fs.foldl Alternatives.add {}).close, []⟩) := by
  rw [shapeFragment, gatherAlternatives_eq]
  simp

end Run

/-- Where the brackets and strings of the conditions are closed, the common
filter can also be read from its text. -/
theorem holds_commonFilter {fs : List Fragment} {truth : String → Prop}
    (filtering : ∃ f ∈ fs, f.onlyFilters = true)
    (closed : ∀ f ∈ fs, f.onlyFilters = true → ∀ condition ∈ f.conditions, Closed condition) :
    Holds truth (filterCondition (commonFilter fs)) ↔ (commonFormula fs).Met (Holds truth) := by
  rw [commonFilter, filterCondition_filterLine, commonFormula_text, holds_alternatives,
    commonFormula_met]
  · simp only [List.mem_map, exists_exists_and_eq_and]
    simp only [List.mem_filter, and_assoc]
  · obtain ⟨f, member, only⟩ := filtering
    exact List.ne_nil_of_mem (List.mem_map_of_mem (List.mem_filter.mpr ⟨member, only⟩))
  · intro empty
    obtain ⟨f, member, none⟩ := List.mem_map.mp empty
    have only := (List.mem_filter.mp member).2
    rw [Fragment.conditions, List.map_eq_nil_iff] at none
    simp [Fragment.onlyFilters, none] at only
  · intro conditions listed
    obtain ⟨f, member, rfl⟩ := List.mem_map.mp listed
    obtain ⟨among, only⟩ := List.mem_filter.mp member
    exact closed f among only

/-- A fragment that is not empty has a branch or takes part in the common
filter, and not both. -/
theorem Fragment.represented {f : Fragment} (separate : f.Separate) :
    (f.branch?.isSome || f.onlyFilters) = !(f.group.isEmpty && f.loose.isEmpty) ∧
      (f.branch?.isSome && f.onlyFilters) = false := by
  rcases separate with group | loose
  · cases filtering : f.loose.all isFilter with
    | false =>
      have filled : f.loose.isEmpty = false := by
        cases lines : f.loose with
        | nil => simp [lines] at filtering
        | cons line rest => rfl
      simp [branch?, onlyFilters, group, filtering, filled]
    | true => simp [branch?, onlyFilters, group, filtering]
  · cases group : f.group.isEmpty with
    | false =>
      obtain ⟨branch, made⟩ := exists_branch? group
      simp [onlyFilters, made, loose]
    | true => simp [branch?, onlyFilters, group, loose]

/-- A disjunction is visited operand by operand. Its group has no clause and no
loose lines; its children are the branches of the operands, in order, and the
operands that only have filters share one filter, which is the last branch, or
the only line if there are no branches. The shared filter is met exactly if all
conditions of one of these operands hold, for every truth of the conditions;
where their brackets and strings are closed, its text is read back so. -/
theorem shapeExpr_or_branches (context : Context) (focus : Focus) (operands : List ShapeExpr)
    (p : Progress) :
    (∀ fault q, operands.mapM (context.shapeExpr · focus) p = .error fault q →
      context.shapeExpr (.or operands) focus p = .error fault q) ∧
    ∀ fs q, operands.mapM (context.shapeExpr · focus) p = .ok fs q →
      (∀ f ∈ fs, f.group.isEmpty = true ∨ f.loose = []) ∧
      (∀ f ∈ fs, (f.branch?.isSome || f.onlyFilters) = !(f.group.isEmpty && f.loose.isEmpty) ∧
        (f.branch?.isSome && f.onlyFilters) = false) ∧
      (∀ f ∈ fs, f.onlyFilters = true → f.loose = f.conditions.map filterLine) ∧
      ∃ group, context.shapeExpr (.or operands) focus p = .ok ⟨group, []⟩ q ∧
        group.clause = none ∧ group.suffix = "" ∧
        group.lines = (if fs.any Fragment.onlyFilters && (fs.filterMap Fragment.branch?).isEmpty
          then [commonFilter fs] else []) ∧
        group.children = (fs.filterMap Fragment.branch? ++
          if fs.any Fragment.onlyFilters && !(fs.filterMap Fragment.branch?).isEmpty
          then [{ clause := some .union, lines := [commonFilter fs] }] else []) ∧
        commonFilter fs = filterLine (commonFormula fs).text ∧
        (∀ truth, (commonFormula fs).Met truth ↔
          ∃ f ∈ fs, f.onlyFilters = true ∧ ∀ condition ∈ f.conditions, truth condition) ∧
        ((∃ f ∈ fs, f.onlyFilters = true) →
          (∀ f ∈ fs, f.onlyFilters = true → ∀ condition ∈ f.conditions, Closed condition) →
          ∀ truth, Holds truth (filterCondition (commonFilter fs)) ↔
            (commonFormula fs).Met (Holds truth)) := by
  have run : context.shapeExpr (.or operands) focus = (do
      let fs ← operands.mapM (context.shapeExpr · focus)
      return ⟨(fs.foldl Alternatives.add {}).close, []⟩) :=
        shapeFragment_or context.links focus operands
  refine ⟨fun fault q failure => ?_, fun fs q success => ?_⟩
  · rw [run]
    simp [Bind.bind, EStateM.bind, failure]
  · have formed := mapM_shapeFragment (linksTo_visit context context.targetCount) success
    have separate : ∀ f ∈ fs, f.Separate := fun f member => (formed f member).1
    have lined : ∀ f ∈ fs, f.Lined := fun f member => (formed f member).2
    have made : context.shapeExpr (.or operands) focus p =
        .ok ⟨(fs.foldl Alternatives.add {}).close, []⟩ q := by
      rw [run]
      simp [Bind.bind, EStateM.bind, success, Pure.pure, EStateM.pure]
    rw [close_foldl_add separate lined] at made
    exact ⟨separate, fun f member => Fragment.represented (separate f member),
      fun f member => Fragment.loose_eq (lined f member), _, made, rfl, rfl, rfl, rfl, rfl,
      fun truth => commonFormula_met, fun filtering closed truth =>
        holds_commonFilter filtering closed⟩

/-- Two operands that only have filters, one with a list of values, and a
negation. The datatype has a bracket that closes nothing. -/
def sampleOperands : List ShapeExpr :=
  [.node { nodeKind := some .iri, pattern := .string "(" },
    .node { values := some [.iri "http://ex/a"] }, .not (.node { nodeKind := some .bnode }),
      .node { datatype := .string "http://ex/d)" }]

def sampleFragments : List Fragment :=
  [⟨{}, ["FILTER(isIRI(?o))", "FILTER(REGEX(STR(?o), \"(\"))"]⟩,
    ⟨{}, ["VALUES ?o \x7b <http://ex/a> \x7d"]⟩,
    ⟨{ clause := some .minus, lines := ["FILTER(isBlank(?o))"] }, []⟩,
      ⟨{}, ["FILTER(datatype(?o) = <http://ex/d)>)"]⟩]

def bareContext : Context :=
  ⟨{}, []⟩

theorem sampleOperands_fragments :
    sampleOperands.mapM (bareContext.shapeExpr · (some "?o")) {} = .ok sampleFragments {} := by
  rfl

/-- A list of values and a negation are branches of their own, and the other
two operands share a filter. Its text joins their conditions, the bracket that
closes nothing included. -/
theorem shapeExpr_or_branches_mixed :
    sampleOperands.mapM (bareContext.shapeExpr · (some "?o")) {} = .ok sampleFragments {} ∧
      ∃ group, bareContext.shapeExpr (.or sampleOperands) (some "?o") {} = .ok ⟨group, []⟩ {} ∧
        group.children = [{ clause := some .union, lines := ["VALUES ?o \x7b <http://ex/a> \x7d"] },
          { clause := some .union
            children := [{ clause := some .minus, lines := ["FILTER(isBlank(?o))"] }] },
          { clause := some .union, lines :=
            ["FILTER(((isIRI(?o)) && (REGEX(STR(?o), \"(\"))) || (datatype(?o) = <http://ex/d)>))"]
              }] ∧
        ∀ truth, (commonFormula sampleFragments).Met truth ↔
          ∃ f ∈ sampleFragments, f.onlyFilters = true ∧ ∀ condition ∈ f.conditions,
            truth condition := by
  obtain ⟨-, -, -, group, made, -, -, -, children, -, meaning, -⟩ :=
    (shapeExpr_or_branches bareContext (some "?o") sampleOperands {}).2 _ _ sampleOperands_fragments
  exact ⟨sampleOperands_fragments, group, made, children, meaning⟩

end ShapeQuery.Compile
