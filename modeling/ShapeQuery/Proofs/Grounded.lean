import ShapeQuery.Proofs.FirstVariable
import ShapeQuery.Proofs.FragmentForm
import ShapeQuery.Proofs.LinesInside
import ShapeQuery.Proofs.Linked

/-!
Groups that are grounded when filters have moved up: for every filter there is a line in the group,
or in a group inside it, that binds the variable of the filter; or the group has nothing but filters
on this variable, and they cannot leave it. What a shape expression gives to the group around it is
about the term of the expression, and what a triple expression gives brings its bindings along; so
every visit gives groups that are grounded.
-/
namespace ShapeQuery

open Compile

/-! ### Bindings that a group can see -/

def IsArcOf (var line : String) : Prop :=
  isTriple line = true ∧ ∃ other predicate inverse, line = triplePattern var predicate other inverse

/-- A line that binds a variable: a triple pattern with it at one end, or a
list of values for it. A filter binds nothing. -/
def Binds (var line : String) : Prop :=
  IsArcOf var line ∨ IsValuesLine var line

theorem Binds.not_isFilter {var line : String} (binds : Binds var line) :
    isFilter line = false := by
  rcases binds with ⟨triple, -⟩ | ⟨terms, rfl⟩
  · simp only [isTriple, Bool.and_eq_true, Bool.not_eq_true'] at triple
    exact triple.1
  · by_contra filter
    simp [isFilter] at filter

theorem binds_arc {subject object : String} (bound : IsVariable subject)
    (other : IsVariable object) (predicate : String) (inverse : Bool) :
    Binds object (triplePattern subject predicate object inverse) := by
  have triple := (triplePattern_starts bound other predicate inverse).isTriple
  refine Or.inl ⟨triple, subject, predicate, !inverse, ?_⟩
  cases inverse <;> rfl

namespace Group

def isNegated (group : Group) : Bool :=
  group.clause = some .minus || group.clause = some .notExists

mutual

/-- The lines of a group and of the groups inside it that are not negated. -/
def visibleLines : Group → List String
  | ⟨_, _, lines, children⟩ => lines ++ visibleInAll children

def visibleInAll : List Group → List String
  | [] => []
  | group :: rest => (if group.isNegated then [] else group.visibleLines) ++ visibleInAll rest

end

theorem mem_visibleInAll {groups : List Group} {line : String} :
    line ∈ visibleInAll groups ↔ ∃ child ∈ groups, child.isNegated = false ∧
      line ∈ child.visibleLines := by
  induction groups with
  | nil => simp [visibleInAll]
  | cons group rest ih =>
    rw [visibleInAll, List.mem_append, ih, List.exists_mem_cons_iff]
    refine or_congr_left ?_
    cases group.isNegated <;> simp

/-- A group sees its own lines and those of the groups inside it that are not
negated. -/
theorem mem_visibleLines {group : Group} {line : String} :
    line ∈ group.visibleLines ↔
      line ∈ group.lines ∨ ∃ child ∈ group.children, child.isNegated = false ∧
        line ∈ child.visibleLines := by
  cases group
  rw [visibleLines, List.mem_append, mem_visibleInAll]

/-- A group out of which filters do not move: a negation, an alternative, or a
plain group with groups inside. -/
def HoldsFilters (group : Group) : Prop :=
  group.clause = some .minus ∨ group.clause = some .union ∨
    (group.clause = none ∧ group.children ≠ [])

/-- For each filter of the group, the group can see a binding of its variable;
or the group holds filters on this variable and nothing else. -/
def Grounded (group : Group) : Prop :=
  ∀ var, ∀ line ∈ group.lines, FilterOn var line →
    (∃ binding ∈ group.visibleLines, Binds var binding) ∨
    ((∀ other ∈ group.lines, FilterOn var other) ∧ group.HoldsFilters)

/-- Lines among which every filter has a binding of its variable. Such lines
can be moved together without harm. -/
def Firm (lines : List String) : Prop :=
  ∀ line ∈ lines, isFilter line = true →
    ∃ var, FilterOn var line ∧ ∃ binding ∈ lines, Binds var binding

theorem firm_nil : Firm [] :=
  List.forall_mem_nil _

theorem Firm.congr {lines others : List String} (firm : Firm lines)
    (same : ∀ {line}, line ∈ others ↔ line ∈ lines) : Firm others := by
  intro line member filter
  obtain ⟨var, on, binding, there, binds⟩ := firm line (same.mp member) filter
  exact ⟨var, on, binding, same.mpr there, binds⟩

theorem Firm.append {front back : List String} (firm : Firm front) (other : Firm back) :
    Firm (front ++ back) := by
  refine List.forall_mem_append.mpr ⟨fun line member filter => ?_, fun line member filter => ?_⟩
  · obtain ⟨var, on, binding, there, binds⟩ := firm line member filter
    exact ⟨var, on, binding, List.mem_append_left _ there, binds⟩
  · obtain ⟨var, on, binding, there, binds⟩ := other line member filter
    exact ⟨var, on, binding, List.mem_append_right _ there, binds⟩

/-- Firm lines from several places are firm together. -/
theorem Firm.flatMap {α : Type} {items : List α} {lines : α → List String}
    (each : ∀ item ∈ items, Firm (lines item)) : Firm (items.flatMap lines) := by
  induction items with
  | nil => exact firm_nil
  | cons item rest ih =>
    rw [List.forall_mem_cons] at each
    exact each.1.append (ih each.2)

/-- Lines about a variable are firm beside a line that binds it. -/
theorem firm_of_about {var binding : String} (named : IsNamed var) {lines : List String}
    (about : ∀ line ∈ lines, About var line) (binds : Binds var binding) :
    Firm (lines ++ [binding]) := by
  intro line member filter
  rcases List.mem_append.mp member with own | last
  · exact ⟨var, ((about line own).tests filter).filterOn named, binding, by simp, binds⟩
  · rw [List.mem_singleton.mp last, binds.not_isFilter] at filter
    cases filter

theorem Firm.grounded {group : Group} (firm : Firm group.lines) : group.Grounded := by
  intro var line member on
  obtain ⟨other, also, binding, there, binds⟩ := firm line member on.1
  rw [on.unique also]
  exact Or.inl ⟨binding, mem_visibleLines.mpr (Or.inl there), binds⟩

theorem Firm.not_isFilterLeaf {group : Group} (firm : Firm group.lines) :
    group.isFilterLeaf = false := by
  by_contra leaf
  simp only [isFilterLeaf, Bool.not_eq_false, Bool.and_eq_true, List.all_eq_true, Bool.not_eq_true',
    List.isEmpty_eq_false_iff] at leaf
  obtain ⟨⟨-, nonempty⟩, filters⟩ := leaf
  obtain ⟨line, member⟩ := List.exists_mem_of_ne_nil _ nonempty
  obtain ⟨var, -, binding, there, binds⟩ := firm line member (filters line member)
  have filter := filters binding there
  rw [binds.not_isFilter] at filter
  cases filter

/-- A group that only has lines about a variable lists its values, or has
nothing but filters on it. -/
theorem grounded_of_about {var : String} (named : IsNamed var) {group : Group}
    (about : ∀ line ∈ group.lines, About var line)
    (holds : (∀ line ∈ group.lines, isFilter line = true) → group.lines ≠ [] → group.HoldsFilters) :
    group.Grounded := by
  intro other line member on
  have own := ((about line member).tests on.1).filterOn named
  rw [on.unique own]
  by_cases filters : ∀ line ∈ group.lines, isFilter line = true
  · refine Or.inr ⟨fun line member => ?_, holds filters (List.ne_nil_of_mem member)⟩
    exact ((about line member).tests (filters line member)).filterOn named
  · push Not at filters
    obtain ⟨values, there, filter⟩ := filters
    have listed := (about values there).isValuesLine (by simpa using filter)
    exact Or.inl ⟨values, mem_visibleLines.mpr (Or.inl there), Or.inr listed⟩

end Group

namespace Compile

open ShapeQuery.Group

/-! ### What fragments give to the group around them -/

def Fragment.risen (f : Fragment) : List String :=
  f.loose ++ if f.group.bubbleFilters.isFilterLeaf then f.group.bubbleFilters.lines else []

theorem Fragment.mem_risen {f : Fragment} {line : String} :
    line ∈ f.risen ↔ line ∈ f.loose ∨ f.group.bubbleFilters.isFilterLeaf = true ∧
      line ∈ f.group.bubbleFilters.lines := by
  rw [risen, List.mem_append]
  refine or_congr_right ?_
  cases f.group.bubbleFilters.isFilterLeaf <;> simp

theorem Fragment.risen_ofGroup {group : Group} (stays : group.bubbleFilters.isFilterLeaf = false) :
    Fragment.risen ⟨group, []⟩ = [] := by
  rw [risen, stays]
  rfl

theorem Fragment.risen_ofLines (lines : List String) : Fragment.risen ⟨{}, lines⟩ = lines := by
  rw [risen, bubbleFilters_eq]
  exact List.append_nil lines

/-- Collected fragments are loose lines and groups side by side, in their
order. Empty groups are left out. -/
theorem collect_eq (fs : List Fragment) : ∀ group : Group, collect group fs =
    { group with
      lines := group.lines ++ fs.flatMap (·.loose)
      children := group.children ++ (fs.map (·.group)).filter (!·.isEmpty) } := by
  induction fs with
  | nil =>
    intro group
    cases group
    simp [collect]
  | cons f rest ih =>
    intro group
    have added := ih (group.addChild f.group |>.addLines f.loose)
    rw [collect, List.foldl_cons]
    refine added.trans ?_
    unfold addChild addLines
    cases empty : f.group.isEmpty <;> simp [empty]

theorem withClause_collect (fs : List Fragment) (clause : Option Clause) :
    withClause (collect {} fs) clause = collect { clause } fs := by
  rw [collect_eq, collect_eq]
  cases clause <;> rfl

/-- When filters have moved up, the lines of the group are those that its
fragments give away. -/
theorem mem_lines_collect {clause : Option Clause} {fs : List Fragment} {line : String} :
    line ∈ (collect { clause } fs).bubbleFilters.lines ↔ line ∈ fs.flatMap (·.risen) := by
  rw [bubbleFilters_eq, collect_eq]
  simp only [List.nil_append, List.mem_append, List.mem_flatMap, List.mem_filter, List.mem_map,
    Fragment.mem_risen, and_or_left, exists_or]
  refine or_congr_right ?_
  constructor
  · rintro ⟨_, ⟨⟨_, ⟨⟨f, member, rfl⟩, -⟩, rfl⟩, leaf⟩, there⟩
    exact ⟨f, member, leaf, there⟩
  · rintro ⟨f, member, leaf, there⟩
    have nonempty : (!f.group.isEmpty) = true := by
      by_contra empty
      simp only [Bool.not_eq_true', Bool.not_eq_false, isEmpty, Bool.and_eq_true,
        List.isEmpty_iff] at empty
      rw [bubbleFilters_eq, empty.2, empty.1.2] at there
      cases there
    exact ⟨_, ⟨⟨_, ⟨⟨f, member, rfl⟩, nonempty⟩, rfl⟩, leaf⟩, there⟩

/-- The groups that are left inside come of fragments that stay. -/
theorem mem_children_collect {clause : Option Clause} {fs : List Fragment} {child : Group}
    (member : child ∈ (collect { clause } fs).bubbleFilters.children) :
    ∃ f ∈ fs, f.group.bubbleFilters = child ∧ child.isFilterLeaf = false := by
  rw [bubbleFilters_eq, collect_eq] at member
  simp only [List.nil_append, List.mem_filter, List.mem_map, Bool.not_eq_true'] at member
  obtain ⟨⟨_, ⟨⟨f, listed, rfl⟩, -⟩, rfl⟩, stays⟩ := member
  exact ⟨f, listed, rfl, stays⟩

/-- What the lines that a fragment gives away are like: those of a shape
expression are about its term, and those of a triple expression bring their
bindings along. -/
def Item.Gives : Item → List String → Prop
  | .shape focus _, lines => ∀ line ∈ lines, About focus.text line
  | .triple _ _, lines => Firm lines

/-- A fragment in which every group is grounded when filters have moved up,
unless the group moves up as a whole. -/
structure Fragment.Sound (item : Item) (f : Fragment) : Prop where
  gives : item.Gives f.risen
  stays : f.group.bubbleFilters.isFilterLeaf = false → f.group.bubbleFilters.EveryNode Grounded

section Sound

variable {item : Item} {f : Fragment} {group : Group}

theorem Item.gives_nil (item : Item) : item.Gives [] := by
  cases item <;> exact List.forall_mem_nil _

theorem Fragment.Sound.empty : Fragment.Sound item {} := by
  have risen : Fragment.risen {} = [] := Fragment.risen_ofLines []
  have alone : bubbleFilters {} = {} := by rw [bubbleFilters_eq]; rfl
  refine ⟨risen ▸ item.gives_nil, fun _ => ?_⟩
  rw [alone]
  exact everyNode_iff.mpr ⟨@Firm.grounded {} firm_nil, List.forall_mem_nil _⟩

theorem Fragment.Sound.ofFirm (firm : Firm group.bubbleFilters.lines)
    (inside : ∀ child ∈ group.bubbleFilters.children, child.EveryNode Grounded) :
    Fragment.Sound item ⟨group, []⟩ := by
  refine ⟨?_, fun _ => everyNode_iff.mpr ⟨firm.grounded, inside⟩⟩
  rw [Fragment.risen_ofGroup firm.not_isFilterLeaf]
  exact item.gives_nil

/-- A plain group or a negation with lines about the term. A plain group
without groups inside moves up if it only has filters. -/
theorem Fragment.Sound.ofAbout {focus : Focus} {expr : ShapeExpr} (named : IsNamed focus.text)
    (about : ∀ line ∈ group.bubbleFilters.lines, About focus.text line)
    (inside : ∀ child ∈ group.bubbleFilters.children, child.EveryNode Grounded)
    (suffix : group.suffix = "") (clause : group.clause = none ∨ group.clause = some .minus) :
    Fragment.Sound (.shape focus expr) ⟨group, []⟩ := by
  constructor
  · intro line member
    rcases Fragment.mem_risen.mp member with loose | ⟨-, own⟩
    · cases loose
    · exact about line own
  · intro stays
    refine everyNode_iff.mpr ⟨grounded_of_about named about fun filters nonempty => ?_, inside⟩
    rw [HoldsFilters, bubbleFilters_clause]
    rcases clause with plain | minus
    · refine Or.inr (Or.inr ⟨plain, fun none => ?_⟩)
      have leaf : group.bubbleFilters.isFilterLeaf = true := by
        have bare : group.bubbleFilters.suffix = "" := by rw [bubbleFilters_eq, suffix]
        simp only [isFilterLeaf, bubbleFilters_clause, plain, bare, none, Bool.and_eq_true,
          List.all_eq_true]
        simpa [nonempty] using filters
      rw [leaf] at stays
      cases stays
    · exact Or.inl minus

theorem collect_inside {clause : Option Clause} {fs : List Fragment}
    (stays : ∀ f ∈ fs, f.group.bubbleFilters.isFilterLeaf = false →
      f.group.bubbleFilters.EveryNode Grounded) :
    ∀ child ∈ (collect { clause } fs).bubbleFilters.children, child.EveryNode Grounded := by
  intro child member
  obtain ⟨f, listed, rfl, there⟩ := mem_children_collect member
  exact stays f listed there

/-- Fragments that are collected under a clause are sound if the lines they
give away are firm. -/
theorem Fragment.Sound.gatherFirm {clause : Option Clause} {fs : List Fragment}
    (firm : Firm (fs.flatMap (·.risen)))
    (stays : ∀ f ∈ fs, f.group.bubbleFilters.isFilterLeaf = false →
      f.group.bubbleFilters.EveryNode Grounded) : Fragment.Sound item ⟨collect { clause } fs, []⟩ :=
  .ofFirm (firm.congr mem_lines_collect) (collect_inside stays)

/-- Fragments of shape expressions about one term are sound together, in a
plain group or in a negation. -/
theorem Fragment.Sound.gatherAbout {focus : Focus} {expr : ShapeExpr} (named : IsNamed focus.text)
    {clause : Option Clause} (kind : clause = none ∨ clause = some .minus) {fs : List Fragment}
    (sound : ∀ f ∈ fs, ∃ operand, f.Sound (.shape focus operand)) :
    Fragment.Sound (.shape focus expr) ⟨collect { clause } fs, []⟩ := by
  refine .ofAbout named (fun line member => ?_) (collect_inside fun f member => ?_) ?_ ?_
  · obtain ⟨f, listed, there⟩ := List.mem_flatMap.mp (mem_lines_collect.mp member)
    obtain ⟨operand, gives, -⟩ := sound f listed
    exact gives line there
  · obtain ⟨operand, -, stays⟩ := sound f member
    exact stays
  · rw [collect_eq]
  · rwa [collect_eq]

/-- What describes the object of an arc is sound beside the arc, which binds
the object. -/
theorem Fragment.Sound.arcTo {clause : Option Clause} {object arc : String} {expr : ShapeExpr}
    {described : Fragment} (named : IsNamed object) (binds : Binds object arc)
    (sound : described.Sound (.shape (some object) expr)) :
    (arcTo clause described arc).Sound item := by
  have same : Compile.arcTo clause described arc =
      ⟨collect { clause } [⟨described.group, described.loose ++ [arc]⟩], []⟩ := rfl
  rw [same]
  refine .gatherFirm ?_ (List.forall_mem_singleton.mpr sound.stays)
  refine (firm_of_about named sound.gives binds).congr fun {line} => ?_
  simp only [List.flatMap_singleton, Fragment.mem_risen, List.mem_append]
  exact or_right_comm

theorem Fragment.Sound.keepInside {clause : Option Clause} {lines : List String}
    (firm : Firm lines) {subject : String} {expr : TripleExpr} :
    (keepInside clause lines).Sound (.triple subject expr) := by
  unfold Compile.keepInside
  split
  · refine .ofFirm ?_ ?_
    · rw [bubbleFilters_eq]
      simpa using firm
    · rw [bubbleFilters_eq]
      exact List.forall_mem_nil _
  · exact ⟨by rwa [Fragment.risen_ofLines], (@Fragment.Sound.empty (.triple subject expr)).stays⟩

/-! ### Alternatives -/

/-- A group that filters do not leave is grounded if its lines are such as the
item gives. -/
theorem Item.Gives.grounded (named : IsNamed item.term) (gives : item.Gives group.lines)
    (holds : group.HoldsFilters) : group.Grounded := by
  cases item with
  | shape focus expr => exact grounded_of_about named gives fun _ _ => holds
  | triple subject expr => exact Firm.grounded gives

theorem grounded_marked (grounded : group.Grounded) :
    Grounded { group with clause := some .union } := by
  intro var line member on
  rcases grounded var line member on with ⟨binding, there, binds⟩ | ⟨filters, -⟩
  · have seen := mem_visibleLines.mp there
    exact Or.inl ⟨binding, mem_visibleLines.mpr seen, binds⟩
  · exact Or.inr ⟨filters, Or.inr (Or.inl rfl)⟩

theorem grounded_ofLines (named : IsNamed item.term) {lines : List String}
    (gives : item.Gives lines) :
    EveryNode Grounded (bubbleFilters { clause := some .union, lines }) := by
  rw [bubbleFilters_eq, everyNode_iff]
  refine ⟨Item.Gives.grounded named ?_ (Or.inr (Or.inl rfl)), List.forall_mem_nil _⟩
  simpa using gives

theorem asBranch_clause {lines : List String} {clause : Option Clause} {branch : Group}
    (made : group.asBranch lines clause = some branch) : branch.clause = clause := by
  unfold asBranch at made
  split at made
  · split at made <;> cases made
    rfl
  · split at made <;> cases made <;> rfl

theorem asBranch_grounded (named : IsNamed item.term) (sound : f.Sound item) (formed : f.Formed)
    {lines : List String} (listed : lines = [] ∨ lines = f.loose) {branch : Group}
    (made : f.group.asBranch lines (some .union) = some branch) :
    branch.bubbleFilters.EveryNode Grounded := by
  unfold asBranch at made
  split at made
  · split at made
    · cases made
    · next nonempty =>
      cases made
      -- There are lines, so they are the loose lines, and the group beside them is empty.
      have loose : lines = f.loose := listed.resolve_left fun none => nonempty (by rw [none]; rfl)
      have empty : f.group = {} := formed.apart.resolve_left fun none =>
        nonempty (by rw [loose, none]; rfl)
      have gives : item.Gives lines := by
        have risen := sound.gives
        rw [show f = ⟨{}, f.loose⟩ by rw [← empty], Fragment.risen_ofLines, ← loose] at risen
        exact risen
      exact grounded_ofLines named gives
  · next nonempty =>
    have loose : f.loose = [] := formed.apart.resolve_right fun empty =>
      nonempty (by rw [empty]; rfl)
    have none : lines = [] := listed.elim id fun same => same.trans loose
    subst none
    split at made
    · cases made
      have same :
          bubbleFilters { f.group with clause := some .union, lines := [] ++ f.group.lines } =
          { f.group.bubbleFilters with clause := some .union } := by
        rw [bubbleFilters_eq, bubbleFilters_eq]
        rfl
      rw [same, everyNode_iff]
      cases leaf : f.group.bubbleFilters.isFilterLeaf with
      | false =>
        obtain ⟨own, inside⟩ := everyNode_iff.mp (sound.stays leaf)
        exact ⟨grounded_marked own, inside⟩
      | true =>
        have gives := sound.gives
        rw [Fragment.risen, loose, leaf] at gives
        have childless : f.group.bubbleFilters.children = [] := by
          simp only [isFilterLeaf, Bool.and_eq_true, List.isEmpty_iff] at leaf
          exact leaf.1.1.2
        refine ⟨Item.Gives.grounded named gives (Or.inr (Or.inl rfl)), ?_⟩
        rw [childless]
        exact List.forall_mem_nil _
    · next tagged =>
      cases made
      have stays : f.group.bubbleFilters.isFilterLeaf = false := by
        simp [isFilterLeaf, Bool.eq_false_iff.mpr tagged]
      rw [bubbleFilters_eq, everyNode_iff]
      simp only [List.map_cons, List.map_nil, List.filter_cons, stays, List.filter_nil]
      exact ⟨Firm.grounded firm_nil, List.forall_mem_singleton.mpr (sound.stays stays)⟩

/-- A group that has nothing but alternatives, all of them grounded. -/
structure Branching (group : Group) : Prop where
  bare : group = { children := group.children }
  marked : ∀ child ∈ group.children,
    child.clause = some .union ∧ child.bubbleFilters.EveryNode Grounded

namespace Branching

theorem empty : Branching {} :=
  ⟨rfl, List.forall_mem_nil _⟩

theorem addChild (branching : Branching group) {child : Group} (union : child.clause = some .union)
    (grounded : child.bubbleFilters.EveryNode Grounded) : Branching (group.addChild child) := by
  obtain ⟨bare, marked⟩ := branching
  have nonempty : child.isEmpty = false := by simp [isEmpty, union]
  rw [Group.addChild, nonempty, bare]
  exact ⟨rfl, List.forall_mem_append.mpr ⟨marked, List.forall_mem_singleton.mpr ⟨union, grounded⟩⟩⟩

theorem addBranch (branching : Branching group) (sound : f.Sound item) (named : IsNamed item.term)
    (formed : f.Formed) {lines : List String} (listed : lines = [] ∨ lines = f.loose) :
    Branching (group.addChild? (f.group.asBranch lines (some .union))) := by
  cases made : f.group.asBranch lines (some .union) with
  | none => exact branching
  | some branch =>
    refine branching.addChild ?_ (asBranch_grounded named sound formed listed made)
    exact asBranch_clause made

/-- All operands of a disjunction become grounded alternatives. Induction on
the operands. -/
theorem addAll {fs : List Fragment}
    (each : ∀ f ∈ fs, ∃ item : Item, IsNamed item.term ∧ f.Sound item ∧ f.Formed) :
    ∀ {group : Group}, Branching group → Branching (branches group fs) := by
  induction fs with
  | nil => exact fun branching => branching
  | cons f rest ih =>
    intro group branching
    rw [List.forall_mem_cons] at each
    obtain ⟨⟨item, named, sound, formed⟩, others⟩ := each
    exact ih others (branching.addBranch sound named formed (Or.inr rfl))

theorem sound (branching : Branching group) (clause : Option Clause) :
    Fragment.Sound item ⟨withClause group clause, []⟩ := by
  obtain ⟨bare, marked⟩ := branching
  have lines : (withClause group clause).lines = [] := by
    rw [bare]
    cases clause <;> rfl
  have children : (withClause group clause).children = group.children := by cases clause <;> rfl
  have stays : ∀ child ∈ group.children.map bubbleFilters, child.isFilterLeaf = false := by
    refine List.forall_mem_map.mpr fun child member => not_isFilterLeaf_of_union ?_
    rw [bubbleFilters_clause, (marked child member).1]
  have none : (group.children.map bubbleFilters).filter isFilterLeaf = [] :=
    List.filter_eq_nil_iff.mpr fun child member => by simp [stays child member]
  refine .ofFirm ?_ ?_
  · rw [bubbleFilters_eq, lines, children]
    simp only [none, List.flatMap_nil, List.append_nil]
    exact firm_nil
  · rw [bubbleFilters_eq, children]
    intro child member
    obtain ⟨original, listed, rfl⟩ := List.mem_map.mp (List.mem_filter.mp member).1
    exact (marked original listed).2

end Branching

/-- The alternatives of a disjunction of shapes so far, with filters on the
term that it is about. -/
structure Alternatives.Sound (term : String) (alternatives : Alternatives) : Prop where
  branching : Branching alternatives.group
  filters : ∀ filter ∈ alternatives.filters, Tests term filter

namespace Alternatives

variable {focus : Focus} {expr : ShapeExpr} {alternatives : Alternatives}

/-- An alternative of shapes gives a branch or a filter on the term, and both
keep what is known. -/
theorem Sound.add (sound : alternatives.Sound focus.text) (named : IsNamed focus.text)
    (operand : f.Sound (.shape focus expr)) (formed : f.Formed) :
    (alternatives.add f).Sound focus.text := by
  have branching := sound.branching.addBranch operand named formed (Or.inl rfl)
  have about : ∀ line ∈ f.loose, About focus.text line := fun line member =>
    operand.gives line (Fragment.mem_risen.mpr (Or.inl member))
  unfold Alternatives.add
  dsimp only
  split
  · exact ⟨branching, sound.filters⟩
  · next nonempty =>
    split
    · next filters =>
      rw [List.all_eq_true] at filters
      have merged := mergeFilters_tests (fun none => nonempty (List.isEmpty_iff.mpr none)) "&&"
        fun line member => (about line member).tests (filters line member)
      exact ⟨branching, List.forall_mem_append.mpr
        ⟨sound.filters, List.forall_mem_singleton.mpr merged⟩⟩
    · have marked := @grounded_ofLines (.shape focus expr) named f.loose about
      exact ⟨branching.addChild rfl marked, sound.filters⟩

theorem Sound.addAll (named : IsNamed focus.text) {fs : List Fragment}
    (operands : ∀ f ∈ fs, (∃ expr, f.Sound (.shape focus expr)) ∧ f.Formed) :
    ∀ {alternatives : Alternatives}, alternatives.Sound focus.text →
      (fs.foldl Alternatives.add alternatives).Sound focus.text := by
  induction fs with
  | nil => exact fun sound => sound
  | cons f rest ih =>
    intro alternatives sound
    rw [List.forall_mem_cons] at operands
    obtain ⟨⟨⟨expr, operand⟩, formed⟩, others⟩ := operands
    exact ih others (sound.add named operand formed)

/-- A disjunction of shapes is sound, as its filters become one filter on the term. -/
theorem Sound.close (sound : alternatives.Sound focus.text) (named : IsNamed focus.text) :
    Fragment.Sound (.shape focus expr) ⟨alternatives.close, []⟩ := by
  unfold Alternatives.close
  dsimp only
  split
  · exact sound.branching.sound none
  · next nonempty =>
    have merged := mergeFilters_tests (fun none => nonempty (List.isEmpty_iff.mpr none)) "||"
      sound.filters
    split
    · next childless =>
      have bare := sound.branching.bare
      rw [List.isEmpty_iff.mp childless] at bare
      rw [bare]
      refine .ofAbout named ?_ ?_ rfl (Or.inl rfl)
      · rw [bubbleFilters_eq]
        exact List.forall_mem_singleton.mpr (Or.inl merged)
      · rw [bubbleFilters_eq]
        exact List.forall_mem_nil _
    · refine (sound.branching.addChild rfl ?_).sound none
      refine @grounded_ofLines (.shape focus expr) named _ ?_
      exact List.forall_mem_singleton.mpr (Or.inl merged)

end Alternatives

/-! ### Visits -/

variable {context : Context} {leaves : List Leaf} {p q : Progress} {fs : List Fragment}

/-- A visit with a sound fragment, if it is about an allocated variable. -/
def GivesSound (context : Context) (leaves : List Leaf) : Outcomes := fun p item f q =>
  Visit context p item f q ∧ (item.leaves ⊆ leaves → IsNamed item.term → f.Sound item)

/-- The fragments of the operands of a shape expression are sound and have the
right form. -/
theorem Chain.shapes_sound {focus : Focus} (named : IsNamed focus.text) {operands : List ShapeExpr}
    (chain : Chain (GivesSound context leaves) p (operands.map (.shape focus)) fs q)
    (inside : leavesOfShapes operands ⊆ leaves) :
    ∀ f ∈ fs, (∃ operand, f.Sound (.shape focus operand)) ∧ f.Formed := by
  refine chain.forall_mem (List.forall_mem_map.mpr fun operand member p f q step => ?_)
  have own : (Item.shape focus operand).leaves ⊆ leaves :=
    List.Subset.trans (subset_leavesOfShapes member) inside
  exact ⟨⟨operand, step.2 own named⟩, step.1.formed named.isVariable⟩

/-- The fragments of the operands of a triple expression are sound and have the
right form. -/
theorem Chain.triples_sound {subject : String} (named : IsNamed subject)
    {operands : List TripleExpr}
    (chain : Chain (GivesSound context leaves) p (operands.map (.triple subject)) fs q)
    (inside : leavesOfTriples operands ⊆ leaves) :
    ∀ f ∈ fs, (∃ operand, f.Sound (.triple subject operand)) ∧ f.Formed := by
  refine chain.forall_mem (List.forall_mem_map.mpr fun operand member p f q step => ?_)
  have own : (Item.triple subject operand).leaves ⊆ leaves :=
    List.Subset.trans (subset_leavesOfTriples member) inside
  exact ⟨⟨operand, step.2 own named⟩, step.1.formed named.isVariable⟩

/-- Every visit about an allocated variable gives a sound fragment. One case
for each rule. -/
theorem Visit.sound (closed : context.Closed leaves)
    (predicates : ∀ leaf ∈ leaves, leaf.isNamed = true) (visit : Visit context p item f q) :
    item.leaves ⊆ leaves → IsNamed item.term → f.Sound item := by
  refine Visit.induct (fun _ item f _ => item.leaves ⊆ leaves → IsNamed item.term → f.Sound item)
    (fun {p item f q} rule inside named => ?_) visit
  cases rule with
  | shapeReference found new inner =>
    obtain ⟨term, rfl⟩ := focus_of_isVariable named.isVariable
    obtain ⟨gives, stays⟩ := inner.2 (closed (Context.resolve_decl found)) named
    exact ⟨gives, stays⟩
  | tripleReference found new inner =>
    obtain ⟨gives, stays⟩ := inner.2 (closed (Context.resolve_label found)) named
    exact ⟨gives, stays⟩
  | shape inner =>
    rw [Item.leaves, ShapeExpr.leaves] at inside
    obtain ⟨firm, stays⟩ := inner.2 inside named
    refine .gatherFirm (Firm.flatMap ?_) (List.forall_mem_singleton.mpr stays)
    exact List.forall_mem_singleton.mpr firm
  | and inner =>
    rw [Item.leaves, ShapeExpr.leaves] at inside
    have sound := inner.shapes_sound named inside
    exact .gatherAbout named (Or.inl rfl) fun f member => (sound f member).1
  | @or p q focus operands fs inner =>
    rw [Item.leaves, ShapeExpr.leaves] at inside
    have start : Alternatives.Sound focus.text {} := ⟨.empty, List.forall_mem_nil _⟩
    exact (start.addAll named (inner.shapes_sound named inside)).close named
  | not inner =>
    rw [Item.leaves, ShapeExpr.leaves] at inside
    refine .gatherAbout named (Or.inr rfl) ?_
    exact List.forall_mem_singleton.mpr ⟨_, inner.2 inside named⟩
  | notEach inner =>
    rw [Item.leaves, ShapeExpr.leaves] at inside
    have sound := inner.shapes_sound named inside
    exact .gatherAbout named (Or.inr rfl) fun f member => (sound f member).1
  | node written =>
    refine ⟨?_, (@Fragment.Sound.empty item).stays⟩
    rw [Fragment.risen_ofLines]
    exact constraintLines_about written
  | @arcToReference p q subject predicate inverse label bounds id f inner =>
    rw [Item.leaves, TripleExpr.leaves_constraint (by simp), ShapeExpr.leaves] at inside
    have object := isNamed_stable label
    refine .arcTo object (binds_arc named.isVariable object.isVariable _ _) (inner.2 ?_ object)
    rw [Item.leaves, ShapeExpr.leaves]
    exact (List.cons_subset.mp inside).2
  | @arc p subject predicate inverse bounds id =>
    have object := isNamed_fresh p.fresh
    have binds := binds_arc named.isVariable object.isVariable predicate.display inverse
    exact .keepInside (firm_of_about object (List.forall_mem_nil _) binds)
  | @arcToNode p subject predicate inverse nc bounds id lines given written =>
    have object := isNamed_fresh p.fresh
    have binds := binds_arc named.isVariable object.isVariable predicate.display inverse
    refine .keepInside ((firm_of_about object (constraintLines_about written) binds).congr
      fun {line} => ?_)
    rw [List.mem_cons, List.mem_append, List.mem_singleton, or_comm]
    rfl
  | nodeWithoutArc unnamed written =>
    rw [Item.leaves, TripleExpr.leaves_constraint (by simp), ShapeExpr.leaves] at inside
    have absurd := predicates _ (inside List.mem_cons_self)
    rw [Leaf.isNamed, unnamed] at absurd
    cases absurd
  | @arcToInline p q subject predicate inverse value bounds id f inline inner =>
    rw [Item.leaves, TripleExpr.leaves_constraint (ne_any_of_isInline inline)] at inside
    have object := isNamed_fresh p.fresh
    refine .arcTo object (binds_arc named.isVariable object.isVariable _ _) (inner.2 ?_ object)
    exact (List.cons_subset.mp inside).2
  | eachOf inner marked =>
    rw [Item.leaves, TripleExpr.leaves] at inside
    have sound := inner.triples_sound named inside
    rw [withClause_collect]
    refine .gatherFirm (Firm.flatMap fun f member => ?_) fun f member => ?_
    · obtain ⟨⟨operand, firm, -⟩, -⟩ := sound f member
      exact firm
    · obtain ⟨⟨operand, -, stays⟩, -⟩ := sound f member
      exact stays
  | @oneOf p q subject operands bounds id fs clause inner marked =>
    rw [Item.leaves, TripleExpr.leaves] at inside
    refine (Branching.addAll (fun f member => ?_) .empty).sound clause
    obtain ⟨⟨operand, sound⟩, formed⟩ := inner.triples_sound named inside f member
    exact ⟨.triple subject operand, named, sound, formed⟩
  | _ => exact .empty

/-- In the group of the start shape every group is grounded when filters have
moved up, unless there is no triple pattern in it at all. -/
theorem Visit.start_grounded (closed : context.Closed leaves)
    (predicates : ∀ leaf ∈ leaves, leaf.isNamed = true) {label : String}
    (visit : Visit context p (.shape none (.reference label)) f q) :
    (f.group.addLines f.loose).bubbleFilters.EveryNode Grounded ∨
      ∀ line ∈ (f.group.addLines f.loose).allLines, isTriple line = false := by
  have sound : f.Sound (.shape (some (stableVariable label)) (.reference label)) := by
    cases visit.rule with
    | shapeReference found new inner =>
      obtain ⟨gives, stays⟩ := inner.sound closed predicates (closed (Context.resolve_decl found))
        (isNamed_stable label)
      exact ⟨gives, stays⟩
    | _ => exact .empty
  have formed := visit.reference_focus.formed (isVariable_stable label)
  rcases formed.apart with noLoose | empty
  · rw [noLoose, addLines_nil]
    cases leaf : f.group.bubbleFilters.isFilterLeaf with
    | false => exact Or.inl (sound.stays leaf)
    | true =>
      refine Or.inr fun line member => ?_
      have bubbled := mem_allLines_bubbleFilters.mpr member
      simp only [isFilterLeaf, Bool.and_eq_true, List.isEmpty_iff, List.all_eq_true] at leaf
      rw [mem_allLines, leaf.1.1.2] at bubbled
      exact isTriple_of_isFilter (leaf.2 line (bubbled.resolve_right (by simp)))
  · refine Or.inr fun line member => ?_
    rw [empty, mem_allLines_addLines] at member
    have loose := member.resolve_left not_mem_allLines_plain
    have about := sound.gives line (Fragment.mem_risen.mpr (Or.inl loose))
    exact about.isConstraintLine.not_isTriple

end Sound

end Compile

end ShapeQuery
