import ShapeQuery.Proofs.LinesInside
import ShapeQuery.Proofs.Linked

/-!
Lists of values, and the node constraints that they come from. On the variable of a shape there is
such a list if a node constraint with plain terms is about the same node as the shape: it is reached
from the shape through references, conjunctions, disjunctions and negations alone. Every other list
is on a fresh variable or on the variable of another shape.
-/
namespace ShapeQuery

open Compile Relation

/-- Whether an entry is a plain term. -/
def ValueSetEntry.isTerm : ValueSetEntry → Bool
  | .iri _ | .literal _ _ _ => true
  | .language _ | .stem _ _ | .range _ _ _ => false

def NodeConstraint.listsTerms (nc : NodeConstraint) : Bool :=
  (nc.values.getD []).any ValueSetEntry.isTerm

mutual

/-- The leaves of a shape expression that are about the same node as the
expression. Those below an arc are about another node. -/
def ShapeExpr.ownLeaves : ShapeExpr → List Leaf
  | .reference label => [.reference (.shape label)]
  | .node nc => [.node nc]
  | .and operands | .or operands | .notEach operands => ownLeavesOfAll operands
  | .not operand => operand.ownLeaves
  | .any | .shape _ _ _ | .external | .unsupported _ => []

def ownLeavesOfAll : List ShapeExpr → List Leaf
  | [] => []
  | expr :: rest => expr.ownLeaves ++ ownLeavesOfAll rest

end

theorem ownLeavesOfAll_eq (operands : List ShapeExpr) :
    ownLeavesOfAll operands = operands.flatMap ShapeExpr.ownLeaves := by
  induction operands with
  | nil => rw [ownLeavesOfAll, List.flatMap_nil]
  | cons expr rest ih => rw [ownLeavesOfAll, ih, List.flatMap_cons]

namespace Compile

/-! ### Lines of a node constraint -/

/-- An entry contributes a term exactly if it is a plain term. -/
theorem entryPart_term? {var : String} {entry : ValueSetEntry} {part : EntryPart}
    (success : entryPart var entry = .ok part) : part.term?.isSome = entry.isTerm := by
  cases entry with
  | iri iri =>
    cases success
    rfl
  | literal value datatype language =>
    obtain ⟨text, -, success⟩ := checked_bind_ok success
    cases success
    rfl
  | language tag =>
    obtain ⟨text, -, success⟩ := checked_bind_ok success
    cases success
    rfl
  | stem kind stem =>
    obtain ⟨text, -, success⟩ := checked_bind_ok success
    cases success
    rfl
  | range kind stem exclusions =>
    obtain ⟨first, -, success⟩ := checked_bind_ok success
    obtain ⟨others, -, success⟩ := checked_bind_ok success
    cases success
    rfl

/-- There are terms among the contributions of entries if and only if there are
plain terms among the entries. -/
theorem mapM_entryPart_terms {var : String} {entries : List ValueSetEntry} :
    ∀ {parts : List EntryPart}, entries.mapM (entryPart var) = .ok parts →
      (parts.filterMap EntryPart.term? ≠ [] ↔ entries.any ValueSetEntry.isTerm = true) := by
  induction entries with
  | nil =>
    intro parts success
    cases success
    simp
  | cons entry rest ih =>
    intro parts success
    obtain ⟨part, others, made, madeOthers, rfl⟩ := checked_mapM_cons success
    have here := entryPart_term? made
    rw [List.any_cons, Bool.or_eq_true, ← ih madeOthers, ← here, List.filterMap_cons]
    cases part.term? <;> simp

/-- The lists of values of a value set: there is one exactly if it has plain terms. -/
theorem valuesLines_values_iff {var : String} {values : Option (List ValueSetEntry)}
    {lines : List String} (success : valuesLines var values = .ok lines) :
    (∃ line ∈ lines, isValues line = true) ↔ (values.getD []).any ValueSetEntry.isTerm = true := by
  cases values with
  | none =>
    cases success
    simp
  | some entries =>
    obtain ⟨parts, made, success⟩ := checked_bind_ok success
    cases success
    rw [Option.getD_some, ← mapM_entryPart_terms made]
    constructor
    · rintro ⟨line, member, values⟩ none
      rcases List.mem_append.mp member with filter | listed
      · have tests := alternativesLine_tests (entryParts_lead made) line filter
        rw [not_isValues_of_isFilter tests.isFilterLine.isFilter] at values
        cases values
      · rw [none] at listed
        cases listed
    · intro some
      have listed : valuesLine var (parts.filterMap EntryPart.term?) ≠ [] := by
        simp [valuesLine, some]
      obtain ⟨line, member⟩ := List.exists_mem_of_ne_nil _ listed
      exact ⟨line, List.mem_append_right _ member, (valuesLine_values var _ line member).isValues⟩

/-- A node constraint lists values if and only if it has plain terms. -/
theorem constraintLines_values_iff {nc : NodeConstraint} {var : String} {lines : List String}
    (success : constraintLines nc var = .ok lines) :
    (∃ line ∈ lines, isValues line = true) ↔ nc.listsTerms = true := by
  obtain ⟨values, listed, success⟩ := checked_bind_ok success
  obtain ⟨facets, written, success⟩ := checked_bind_ok success
  cases success
  rw [NodeConstraint.listsTerms, ← valuesLines_values_iff listed]
  have others : ∀ {line}, Tests var line → isValues line ≠ true := by
    intro line tests
    rw [not_isValues_of_isFilter tests.isFilterLine.isFilter]
    decide
  constructor
  · rintro ⟨line, member, isList⟩
    simp only [List.mem_append] at member
    rcases member with ((member | member) | member) | member
    · exact absurd isList (others (datatypeLine_tests _ line member))
    · exact ⟨line, member, isList⟩
    · exact absurd isList (others (nodeKindLine_tests _ line member))
    · exact absurd isList (others (facetLines_tests written line member))
  · rintro ⟨line, member, isList⟩
    exact ⟨line, by simp [member], isList⟩

theorem IsConstraintLine.isValuesLine {var line : String} (constraint : IsConstraintLine var line)
    (values : isValues line = true) : IsValuesLine var line := by
  rcases constraint with filter | listed
  · rw [not_isValues_of_isFilter filter.isFilter] at values
    cases values
  · exact listed

/-! ### Lists of values in fragments -/

section Fragments

variable {line : String}

theorem ne_of_isFilter (values : isValues line = true) {filter : String}
    (filtering : isFilter filter = true) : line ≠ filter := by
  rintro rfl
  rw [not_isValues_of_isFilter filtering] at values
  cases values

/-- A list of values of an operand is kept, for only filters are put aside. -/
theorem Alternatives.mem_allLines_add (values : isValues line = true) (alternatives : Alternatives)
    (f : Fragment) : line ∈ (alternatives.add f).group.allLines ↔
      line ∈ alternatives.group.allLines ∨ line ∈ f.allLines := by
  unfold Alternatives.add
  dsimp only
  rw [Fragment.allLines]
  split
  · next none => simp [Group.mem_allLines_addBranch, List.isEmpty_iff.mp none]
  · split
    · next filtering =>
      rw [List.all_eq_true] at filtering
      have absent : line ∉ f.loose := fun member =>
        ne_of_isFilter values (filtering line member) rfl
      simp [Group.mem_allLines_addBranch, absent]
    · simp [Group.mem_allLines_addChild, Group.mem_allLines_addBranch,
        Group.mem_allLines_mk, or_assoc]

/-- The filter that is made in the end is no list of values. -/
theorem Alternatives.mem_allLines_close (values : isValues line = true)
    {alternatives : Alternatives} (pending : alternatives.Pending) :
    line ∈ alternatives.close.allLines ↔ line ∈ alternatives.group.allLines := by
  have merged := ne_of_isFilter values (mergeFilters_filter "||" pending.filters)
  unfold Alternatives.close
  dsimp only
  split
  · rfl
  · split
    · simp [Group.mem_allLines_addLines, merged]
    · simp [Group.mem_allLines_addChild, Group.mem_allLines_mk, merged]

/-- A disjunction keeps the lists of values of its alternatives: only filters
are combined. -/
theorem mem_allLines_disjunction (values : isValues line = true) {fs : List Fragment} :
    ∀ {alternatives : Alternatives}, alternatives.Pending →
      (line ∈ (fs.foldl Alternatives.add alternatives).close.allLines ↔
        line ∈ alternatives.group.allLines ∨ ∃ f ∈ fs, line ∈ f.allLines) := by
  induction fs with
  | nil =>
    intro alternatives pending
    rw [List.foldl_nil, Alternatives.mem_allLines_close values pending]
    simp
  | cons f rest ih =>
    intro alternatives pending
    rw [List.foldl_cons, ih (Alternatives.add_placed pending f).1,
      Alternatives.mem_allLines_add values, List.exists_mem_cons_iff, or_assoc]

end Fragments

/-! ### Node constraints about the same node -/

def Item.ownLeaves : Item → List Leaf
  | .shape _ expr => expr.ownLeaves
  | .triple _ _ => []

namespace Context

def ownLeaves? (context : Context) : Target → Option (List Leaf)
  | .shape label => (context.schema.find? label).map (·.expr.ownLeaves)
  | .tripleExpr _ => none

/-- A node constraint that is about the same node as some leaves: it is one of
them, or it is about the same node as a shape that one of them refers to. -/
inductive Concerns (context : Context) : List Leaf → NodeConstraint → Prop where
  | here {leaves nc} (member : .node nc ∈ leaves) : Concerns context leaves nc
  | follow {leaves target inside nc} (member : .reference target ∈ leaves)
      (found : context.ownLeaves? target = some inside) (inner : Concerns context inside nc) :
      Concerns context leaves nc

/-- The node that a shape is about is constrained to a list of plain terms,
among others. -/
def ListsTerms (context : Context) (label : String) : Prop :=
  ∃ nc, context.Concerns [.reference (.shape label)] nc ∧ nc.listsTerms = true

variable {context : Context} {leaves others : List Leaf} {nc : NodeConstraint}

theorem ownLeaves?_decl {label : String} {decl : ShapeDecl}
    (found : context.schema.find? label = some decl) :
    context.ownLeaves? (.shape label) = some decl.expr.ownLeaves := by
  rw [ownLeaves?, found, Option.map_some]

/-- A constraint that is about the node of some leaves is about that of more
leaves, too. -/
theorem Concerns.mono (concerns : context.Concerns leaves nc) (subset : leaves ⊆ others) :
    context.Concerns others nc := by
  cases concerns with
  | here member => exact .here (subset member)
  | follow member found inner => exact .follow (subset member) found inner

/-- A shape refers to a target about the same node. -/
def Shares (context : Context) (source target : Target) : Prop :=
  ∃ leaves, context.ownLeaves? source = some leaves ∧ .reference target ∈ leaves

/-- A node constraint that is among some leaves, or is found on a way from them
that does not come back to a target on the way. -/
def Finds (context : Context) (expanding : List Target) (leaves : List Leaf) (nc : NodeConstraint) :
    Prop :=
  .node nc ∈ leaves ∨ ∃ start goal inside, .reference start ∈ leaves ∧
    Unrolls context.Shares expanding start goal ∧ context.ownLeaves? goal = some inside ∧
      .node nc ∈ inside

/-- A constraint about the same node is one of the leaves, or references about
the node lead to it. Induction on how it was come to. -/
theorem Concerns.path (concerns : context.Concerns leaves nc) :
    .node nc ∈ leaves ∨ ∃ start goal inside, .reference start ∈ leaves ∧
      ReflTransGen context.Shares start goal ∧ context.ownLeaves? goal = some inside ∧
        .node nc ∈ inside := by
  induction concerns with
  | here member => exact Or.inl member
  | @follow leaves target inside nc member found inner ih =>
    rcases ih with here | ⟨start, goal, last, first, path, rest⟩
    · exact Or.inr ⟨target, target, inside, member, .refl, found, here⟩
    · exact Or.inr ⟨target, goal, last, member, .head ⟨inside, found, first⟩ path, rest⟩

/-- It is also found on a way that does not come back to a target, so that
nothing is cut off on it. -/
theorem Concerns.finds (concerns : context.Concerns leaves nc) : context.Finds [] leaves nc := by
  rcases concerns.path with here | ⟨start, goal, inside, member, path, rest⟩
  · exact Or.inl here
  · exact Or.inr ⟨start, goal, inside, member, unrolls_of_path path, rest⟩

theorem not_finds_nil {expanding : List Target} : ¬ context.Finds expanding [] nc := by
  rintro (here | ⟨start, goal, inside, member, -⟩)
  · cases here
  · cases member

/-- What is found from the leaves of several operands is found from one of them. -/
theorem Finds.operand {expanding : List Target} {operands : List ShapeExpr}
    (finds : context.Finds expanding (ownLeavesOfAll operands) nc) :
    ∃ operand ∈ operands, context.Finds expanding operand.ownLeaves nc := by
  rw [ownLeavesOfAll_eq] at finds
  rcases finds with here | ⟨start, goal, inside, member, rest⟩
  · obtain ⟨operand, listed, own⟩ := List.mem_flatMap.mp here
    exact ⟨operand, listed, Or.inl own⟩
  · obtain ⟨operand, listed, own⟩ := List.mem_flatMap.mp member
    exact ⟨operand, listed, Or.inr ⟨start, goal, inside, own, rest⟩⟩

/-- What is found through a reference is found in the shape that it leads to,
with the shape on the way. -/
theorem Finds.inside {expanding : List Target} {target : Target}
    (finds : context.Finds expanding [.reference target] nc) :
    target ∉ expanding ∧ ∃ inside, context.ownLeaves? target = some inside ∧
      context.Finds (target :: expanding) inside nc := by
  rcases finds with here | ⟨start, goal, last, member, way, found, node⟩
  · simp at here
  · cases List.mem_singleton.mp member
    cases way with
    | here new => exact ⟨new, last, found, Or.inl node⟩
    | onward new first rest =>
      obtain ⟨leaves, own, next⟩ := first
      exact ⟨new, leaves, own, Or.inr ⟨_, goal, last, next, rest, found, node⟩⟩

end Context

/-! ### Visits -/

/-- What every visit of a chain gives, given what is being expanded, the items
and their fragments have one by one. -/
theorem Chain.forall₂ {context : Context} {property : List Target → Item → Fragment → Prop}
    {p q : Progress} {items : List Item} {fs : List Fragment}
    (chain : Chain (fun p item f q => Visit context p item f q ∧ property p.expanding item f)
      p items fs q) : List.Forall₂ (property p.expanding) items fs := by
  induction chain with
  | nil => exact .nil
  | cons first _ ih =>
    rw [first.1.expanding_eq] at ih
    exact .cons first.2 ih

theorem exists_of_forall₂ {α β : Type} {related : α → β → Prop} {front : List α} {back : List β}
    (all : List.Forall₂ related front back) :
    (∀ a ∈ front, ∃ b ∈ back, related a b) ∧ ∀ b ∈ back, ∃ a ∈ front, related a b := by
  induction all with
  | nil => simp
  | cons first _ ih =>
    simp only [List.forall_mem_cons, List.exists_mem_cons_iff]
    exact ⟨⟨Or.inl first, fun a member => Or.inr (ih.1 a member)⟩, Or.inl first,
      fun b member => Or.inr (ih.2 b member)⟩

/-- Where a list of values in the fragment of an item comes from: it is on the
term of the item and a node constraint about it has plain terms, or it is on a
fresh variable or on that of a shape that is new. -/
inductive ListOrigin (context : Context) (leaves : List Leaf) (expanding : List Target)
    (item : Item) (line : String) : Prop where
  | own {nc} (concerns : context.Concerns item.ownLeaves nc) (lists : nc.listsTerms = true)
      (values : IsValuesLine item.term line)
  | fresh {number} (values : IsValuesLine (freshVariable number) line)
  | other {label} (new : .shape label ∉ expanding) (referred : .reference (.shape label) ∈ leaves)
      (values : IsValuesLine (stableVariable label) line)

section Visits

variable {context : Context} {leaves : List Leaf} {expanding : List Target} {item : Item}
  {line : String}

/-- Where a list comes from is the same for an item around, if that is about
the same term. -/
theorem ListOrigin.outer {outside : Item} {before : List Target}
    (origin : ListOrigin context leaves expanding item line) (earlier : before ⊆ expanding)
    (same : outside.term = item.term)
    (concerns : ∀ {nc}, context.Concerns item.ownLeaves nc →
      context.Concerns outside.ownLeaves nc) :
    ListOrigin context leaves before outside line := by
  cases origin with
  | own own lists values => exact .own (concerns own) lists (same ▸ values)
  | fresh values => exact .fresh values
  | other new referred values => exact .other (fun mark => new (earlier mark)) referred values

/-- What an item does not own goes to the item around it as it is. -/
theorem ListOrigin.disowned {outside : Item}
    (origin : ListOrigin context leaves expanding item line) (none : item.ownLeaves = []) :
    ListOrigin context leaves expanding outside line := by
  cases origin with
  | own concerns lists values =>
    rw [none] at concerns
    cases concerns with
    | here member => cases member
    | follow member _ _ => cases member
  | fresh values => exact .fresh values
  | other new referred values => exact .other new referred values

def GivesOrigins (context : Context) (leaves : List Leaf) (expanding : List Target) (item : Item)
    (f : Fragment) : Prop :=
  item.leaves ⊆ leaves → IsVariable item.term →
    ∀ line ∈ f.allLines, isValues line = true → ListOrigin context leaves expanding item line

theorem arc_not_isValues {subject predicate object : String} {inverse : Bool}
    (bound : IsVariable subject) (other : IsVariable object) :
    ¬ isValues (triplePattern subject predicate object inverse) = true := by
  have triple := (triplePattern_starts bound other predicate inverse).isTriple
  rw [isTriple, Bool.and_eq_true] at triple
  simpa using triple.2

/-- The lists of values in the operands of a shape expression come from where
they should, for the expression as well. -/
theorem Chain.shapes_origins {focus : Focus} {operands : List ShapeExpr} {p q : Progress}
    {fs : List Fragment}
    (chain : Chain (fun p item f q => Visit context p item f q ∧
      GivesOrigins context leaves p.expanding item f) p (operands.map (.shape focus)) fs q)
    (inside : leavesOfShapes operands ⊆ leaves) (bound : IsVariable focus.text) {expr : ShapeExpr}
    (own : expr.ownLeaves = ownLeavesOfAll operands) :
    ∀ f ∈ fs, ∀ line ∈ f.allLines, isValues line = true →
      ListOrigin context leaves p.expanding (.shape focus expr) line := by
  intro f member line there values
  obtain ⟨item, listed, origins⟩ := (exists_of_forall₂ chain.forall₂).2 f member
  obtain ⟨operand, operandListed, rfl⟩ := List.mem_map.mp listed
  have within : (Item.shape focus operand).leaves ⊆ leaves :=
    List.Subset.trans (subset_leavesOfShapes operandListed) inside
  refine (origins within bound line there values).outer (List.Subset.refl _) rfl fun concerns => ?_
  refine concerns.mono fun leaf found => ?_
  rw [Item.ownLeaves, own, ownLeavesOfAll_eq]
  exact List.mem_flatMap.mpr ⟨operand, operandListed, found⟩

theorem Chain.triples_origins {subject : String} {operands : List TripleExpr} {p q : Progress}
    {fs : List Fragment}
    (chain : Chain (fun p item f q => Visit context p item f q ∧
      GivesOrigins context leaves p.expanding item f) p (operands.map (.triple subject)) fs q)
    (inside : leavesOfTriples operands ⊆ leaves) (bound : IsVariable subject) {outside : Item} :
    ∀ f ∈ fs, ∀ line ∈ f.allLines, isValues line = true →
      ListOrigin context leaves p.expanding outside line := by
  intro f member line there values
  obtain ⟨item, listed, origins⟩ := (exists_of_forall₂ chain.forall₂).2 f member
  obtain ⟨operand, operandListed, rfl⟩ := List.mem_map.mp listed
  have within : (Item.triple subject operand).leaves ⊆ leaves :=
    List.Subset.trans (subset_leavesOfTriples operandListed) inside
  exact (origins within bound line there values).disowned rfl

/-- One case for each rule: a rule keeps the lists of values of what is inside,
and a node constraint adds its own. -/
theorem Visit.origins (closed : context.Closed leaves)
    (named : ∀ leaf ∈ leaves, leaf.isNamed = true) {p q : Progress} {f : Fragment}
    (visit : Visit context p item f q) : GivesOrigins context leaves p.expanding item f := by
  refine Visit.induct (fun p item f _ => GivesOrigins context leaves p.expanding item f)
    (fun {p item f q} rule inside bound line there values => ?_) visit
  cases rule with
  | shapeReference found new inner =>
    obtain ⟨term, rfl⟩ := focus_of_isVariable bound
    have origin := inner.2 (closed (Context.resolve_decl found)) bound line there values
    refine origin.outer (List.subset_cons_self _ _) rfl fun concerns => ?_
    rw [Item.ownLeaves, ShapeExpr.ownLeaves]
    exact .follow List.mem_cons_self (Context.ownLeaves?_decl found) concerns
  | tripleReference found new inner =>
    have origin := inner.2 (closed (Context.resolve_label found)) bound line there values
    exact origin.outer (List.subset_cons_self _ _) rfl id
  | shape inner =>
    rw [Item.leaves, ShapeExpr.leaves] at inside
    simp only [Fragment.mem_allLines_ofGroup, mem_allLines_collect,
      not_mem_allLines_plain, false_or, List.mem_singleton, exists_eq_left] at there
    exact (inner.2 inside bound line there values).disowned rfl
  | and inner =>
    rw [Item.leaves, ShapeExpr.leaves] at inside
    simp only [Fragment.mem_allLines_ofGroup, mem_allLines_collect, not_mem_allLines_plain,
      false_or] at there
    obtain ⟨f, member, there⟩ := there
    exact inner.shapes_origins inside bound (by rw [ShapeExpr.ownLeaves]) f member line there values
  | or inner =>
    rw [Item.leaves, ShapeExpr.leaves] at inside
    rw [Fragment.mem_allLines_ofGroup,
      mem_allLines_disjunction values ⟨rfl, List.forall_mem_nil _⟩] at there
    obtain ⟨f, member, there⟩ := there.resolve_left not_mem_allLines_plain
    exact inner.shapes_origins inside bound (by rw [ShapeExpr.ownLeaves]) f member line there values
  | not inner =>
    rw [Item.leaves, ShapeExpr.leaves] at inside
    simp only [Fragment.mem_allLines_ofGroup, mem_allLines_collect,
      not_mem_allLines_plain, false_or, List.mem_singleton, exists_eq_left] at there
    refine (inner.2 inside bound line there values).outer (List.Subset.refl _) rfl
      fun concerns => ?_
    rwa [Item.ownLeaves, ShapeExpr.ownLeaves]
  | notEach inner =>
    rw [Item.leaves, ShapeExpr.leaves] at inside
    simp only [Fragment.mem_allLines_ofGroup, mem_allLines_collect, not_mem_allLines_plain,
      false_or] at there
    obtain ⟨f, member, there⟩ := there
    exact inner.shapes_origins inside bound (by rw [ShapeExpr.ownLeaves]) f member line there values
  | node written =>
    rw [Fragment.mem_allLines_ofLines] at there
    have own := (constraintLines_constraint written line there).isValuesLine values
    refine .own (.here ?_) ((constraintLines_values_iff written).mp ⟨line, there, values⟩) own
    rw [Item.ownLeaves, ShapeExpr.ownLeaves]
    exact List.mem_cons_self
  | arcToReference inner =>
    rw [Item.leaves, TripleExpr.leaves_constraint (by simp), ShapeExpr.leaves] at inside
    obtain ⟨-, referred⟩ := List.cons_subset.mp inside
    rcases mem_allLines_arcTo.mp there with described | rfl
    · have origin := inner.2 (by rwa [Item.leaves, ShapeExpr.leaves]) (isVariable_stable _)
        line described values
      cases origin with
      | own concerns lists own =>
        -- A fragment with lines comes of a reference that was followed, so the shape is new.
        cases inner.1.rule with
        | shapeReference found new _ => exact .other new (referred List.mem_cons_self) own
        | _ => exact absurd described Fragment.not_mem_allLines_empty
      | fresh own => exact .fresh own
      | other new referred own => exact .other new referred own
    · exact absurd values (arc_not_isValues bound (isVariable_stable _))
  | arc =>
    rw [mem_allLines_keepInside, List.mem_singleton] at there
    rw [there] at values
    exact absurd values (arc_not_isValues bound (isVariable_fresh _))
  | arcToNode named written =>
    rcases List.mem_cons.mp (mem_allLines_keepInside.mp there) with rfl | listed
    · exact absurd values (arc_not_isValues bound (isVariable_fresh _))
    · exact .fresh ((constraintLines_constraint written line listed).isValuesLine values)
  | nodeWithoutArc unnamed written =>
    rw [Item.leaves, TripleExpr.leaves_constraint (by simp), ShapeExpr.leaves] at inside
    have absurd := named _ (inside List.mem_cons_self)
    rw [Leaf.isNamed, unnamed] at absurd
    cases absurd
  | arcToInline inline inner =>
    rw [Item.leaves, TripleExpr.leaves_constraint (ne_any_of_isInline inline)] at inside
    rcases mem_allLines_arcTo.mp there with described | rfl
    · have origin := inner.2 (List.cons_subset.mp inside).2 (isVariable_fresh _) line
        described values
      cases origin with
      | own _ _ own => exact .fresh own
      | fresh own => exact .fresh own
      | other new referred own => exact .other new referred own
    · exact absurd values (arc_not_isValues bound (isVariable_fresh _))
  | eachOf inner marked =>
    rw [Item.leaves, TripleExpr.leaves] at inside
    simp only [Fragment.mem_allLines_ofGroup, mem_allLines_withClause, mem_allLines_collect,
      not_mem_allLines_plain, false_or] at there
    obtain ⟨f, member, there⟩ := there
    exact inner.triples_origins inside bound f member line there values
  | oneOf inner marked =>
    rw [Item.leaves, TripleExpr.leaves] at inside
    simp only [Fragment.mem_allLines_ofGroup, mem_allLines_withClause, mem_allLines_branches,
      not_mem_allLines_plain, false_or] at there
    obtain ⟨f, member, there⟩ := there
    exact inner.triples_origins inside bound f member line there values
  | _ => exact absurd there Fragment.not_mem_allLines_empty

/-- A fragment has a list of values on the term of its item if a node
constraint with plain terms is found from the item. -/
def GivesLists (context : Context) (expanding : List Target) (item : Item) (f : Fragment) : Prop :=
  IsVariable item.term → ∀ nc, context.Finds expanding item.ownLeaves nc → nc.listsTerms = true →
    ∃ line ∈ f.allLines, isValues line = true ∧ IsValuesLine item.term line

theorem Chain.shapes_lists {focus : Focus} {operands : List ShapeExpr} {p q : Progress}
    {fs : List Fragment}
    (chain : Chain (fun p item f q => Visit context p item f q ∧
      GivesLists context p.expanding item f) p (operands.map (.shape focus)) fs q)
    (bound : IsVariable focus.text) {nc : NodeConstraint}
    (finds : context.Finds p.expanding (ownLeavesOfAll operands) nc)
    (lists : nc.listsTerms = true) :
    ∃ line, (∃ f ∈ fs, line ∈ f.allLines) ∧ isValues line = true ∧
      IsValuesLine focus.text line := by
  obtain ⟨operand, member, found⟩ := finds.operand
  obtain ⟨f, listed, gives⟩ := (exists_of_forall₂ chain.forall₂).1 _ (List.mem_map_of_mem member)
  obtain ⟨line, there, values, own⟩ := gives bound nc found lists
  exact ⟨line, ⟨f, listed, there⟩, values, own⟩

/-- Every visit writes a list of values for a constraint with plain terms that
is found from it. One case for each rule. -/
theorem Visit.lists {p q : Progress} {f : Fragment} (visit : Visit context p item f q) :
    GivesLists context p.expanding item f := by
  refine Visit.induct (fun p item f _ => GivesLists context p.expanding item f)
    (fun {p item f q} rule bound nc finds lists => ?_) visit
  cases rule with
  | shapeMissing missing =>
    rw [Item.ownLeaves, ShapeExpr.ownLeaves] at finds
    obtain ⟨-, inside, found, -⟩ := finds.inside
    rw [Context.ownLeaves?, missing] at found
    cases found
  | shapeCut found mark =>
    rw [Item.ownLeaves, ShapeExpr.ownLeaves] at finds
    exact absurd mark finds.inside.1
  | shapeReference found new inner =>
    rw [Item.ownLeaves, ShapeExpr.ownLeaves] at finds
    obtain ⟨-, inside, own, later⟩ := finds.inside
    cases (Context.ownLeaves?_decl found).symm.trans own
    obtain ⟨term, rfl⟩ := focus_of_isVariable bound
    exact inner.2 bound nc later lists
  | and inner =>
    rw [Item.ownLeaves, ShapeExpr.ownLeaves] at finds
    obtain ⟨line, there, own⟩ := inner.shapes_lists bound finds lists
    refine ⟨line, ?_, own⟩
    simpa [Fragment.mem_allLines_ofGroup, mem_allLines_collect] using Or.inr there
  | or inner =>
    rw [Item.ownLeaves, ShapeExpr.ownLeaves] at finds
    obtain ⟨line, there, values, own⟩ := inner.shapes_lists bound finds lists
    refine ⟨line, ?_, values, own⟩
    rw [Fragment.mem_allLines_ofGroup, mem_allLines_disjunction values ⟨rfl, List.forall_mem_nil _⟩]
    exact Or.inr there
  | not inner =>
    rw [Item.ownLeaves, ShapeExpr.ownLeaves] at finds
    obtain ⟨line, there, own⟩ := inner.2 bound nc finds lists
    refine ⟨line, ?_, own⟩
    simpa [Fragment.mem_allLines_ofGroup, mem_allLines_collect] using Or.inr there
  | notEach inner =>
    rw [Item.ownLeaves, ShapeExpr.ownLeaves] at finds
    obtain ⟨line, there, own⟩ := inner.shapes_lists bound finds lists
    refine ⟨line, ?_, own⟩
    simpa [Fragment.mem_allLines_ofGroup, mem_allLines_collect] using Or.inr there
  | node written =>
    rw [Item.ownLeaves, ShapeExpr.ownLeaves] at finds
    rcases finds with here | ⟨start, goal, inside, member, -⟩
    · cases List.mem_singleton.mp here
      obtain ⟨line, there, values⟩ := (constraintLines_values_iff written).mpr lists
      refine ⟨line, Fragment.mem_allLines_ofLines.mpr there, values, ?_⟩
      exact (constraintLines_constraint written line there).isValuesLine values
    · simp at member
  | _ => exact absurd finds Context.not_finds_nil

end Visits

end Compile

end ShapeQuery
