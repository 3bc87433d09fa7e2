import ShapeQuery.Proofs.Arcs
import ShapeQuery.Proofs.FragmentForm
import ShapeQuery.Proofs.References
import ShapeQuery.Proofs.Scopes

/-!
Every pattern is linked to the node that the query is about. From the variable of the start shape,
triple patterns in the same group or in the groups around it lead to both ends of each triple
pattern, and to the variable of each line that a node constraint has written.
-/
namespace ShapeQuery.Compile

open Relation

/-- Where the lines of a group may come from: the start shape, the leaves of
the schema, and the numbers of the fresh variables that were taken. -/
structure Origin where
  label : String
  leaves : List Leaf
  first : Nat
  last : Nat

/-- A line that constrains a variable: a node constraint has written it, or
combined filters have. -/
inductive Constrains (leaves : List Leaf) (var : String) : String → Prop where
  | written {nc lines line} (leaf : .node nc ∈ leaves)
    (success : constraintLines nc var = .ok lines)
      (member : line ∈ lines) : Constrains leaves var line
  | merged {filters operator} (connective : IsConnective operator) (present : filters ≠ [])
      (each : ∀ filter ∈ filters, Constrains leaves var filter)
      (filtering : ∀ filter ∈ filters, isFilter filter = true) :
      Constrains leaves var (mergeFilters filters operator)

theorem IsConstraintLine.isFilterLine {var line : String} (constraint : IsConstraintLine var line)
    (filter : isFilter line = true) : IsFilterLine line := by
  rcases constraint with filtering | ⟨terms, rfl⟩
  · exact filtering
  · simp [isFilter] at filter

theorem Constrains.isConstraintLine {leaves : List Leaf} {var line : String}
    (constrains : Constrains leaves var line) : IsConstraintLine var line := by
  induction constrains with
  | written leaf success member => exact constraintLines_constraint success _ member
  | merged _ _ each filtering ih =>
    refine Or.inl (mergeFilters_isFilterLine _ fun filter member => ?_)
    exact (ih filter member).isFilterLine (filtering filter member)

namespace Origin

variable (origin : Origin)

/-- A variable that was allocated: that of the start shape or of a shape that
is referred to, or a fresh one that was taken. -/
def Allocated (term : String) : Prop :=
  (∃ label, (label = origin.label ∨ .reference (.shape label) ∈ origin.leaves) ∧
    term = stableVariable label) ∨
  ∃ number, origin.first ≤ number ∧ number < origin.last ∧ term = freshVariable number

def Joined (scope : List String) (x y : String) : Prop :=
  origin.Allocated x ∧ origin.Allocated y ∧ ∃ predicate,
    triplePattern x predicate y false ∈ scope ∨ triplePattern y predicate x false ∈ scope

/-- A chain of triple patterns in scope leads from the variable of the start
shape to a variable. The scope of a line is made of its own group and those
around it. -/
def Linked (scope : List String) (term : String) : Prop :=
  ReflTransGen (origin.Joined scope) (stableVariable origin.label) term

/-- A line that is linked to the start shape in its scope: a triple pattern
between allocated variables, or a filter or list of values on one. -/
inductive LinkedLine (scope : List String) : String → Prop where
  | triple {x y name} (leaf : .predicate name ∈ origin.leaves) (source : origin.Allocated x)
      (object : origin.Allocated y) (linkedSource : origin.Linked scope x)
      (linkedObject : origin.Linked scope y) :
        LinkedLine scope (triplePattern x name.display y false)
  | constraint {var line} (allocated : origin.Allocated var) (form : IsConstraintLine var line)
      (constrains : Constrains origin.leaves var line) (linked : origin.Linked scope var) :
      LinkedLine scope line

variable {origin}

theorem Allocated.isVariable {term : String} (allocated : origin.Allocated term) :
    IsVariable term := by
  rcases allocated with ⟨label, -, rfl⟩ | ⟨number, -, -, rfl⟩
  · exact isVariable_stable label
  · exact isVariable_fresh number

/-- A chain that is in scope stays in scope when there is more. -/
theorem Linked.mono {scope other : List String} (covers : Covers other scope) {term : String}
    (linked : origin.Linked scope term) : origin.Linked other term := by
  refine linked.lift id fun x y joined => ?_
  obtain ⟨allocated, otherAllocated, predicate, there⟩ := joined
  refine ⟨allocated, otherAllocated, predicate, there.imp (fun member => ?_) fun member => ?_⟩
  · exact covers _ member (triplePattern_starts allocated.isVariable otherAllocated.isVariable
      _ _).isTriple
  · exact covers _ member (triplePattern_starts otherAllocated.isVariable allocated.isVariable
      _ _).isTriple

/-- Linked lines stay linked when their scope grows, which lets the passes move them. -/
theorem linkedLine_steady : Steady origin.LinkedLine where
  widen covers line := by
    cases line with
    | triple leaf source object linkedSource linkedObject =>
      exact .triple leaf source object (linkedSource.mono covers) (linkedObject.mono covers)
    | constraint allocated form constrains linked =>
      exact .constraint allocated form constrains (linked.mono covers)

/-- The other end of a triple pattern in scope is linked, too. -/
theorem Linked.step {scope : List String} {x y predicate : String} {inverse : Bool}
    (linked : origin.Linked scope x) (source : origin.Allocated x) (object : origin.Allocated y)
    (member : triplePattern x predicate y inverse ∈ scope) : origin.Linked scope y := by
  refine ReflTransGen.tail linked ⟨source, object, predicate, ?_⟩
  cases inverse with
  | false => exact Or.inl member
  | true => exact Or.inr member

/-- A triple pattern that is in its own scope is linked if the end that it goes
out from is. -/
theorem LinkedLine.arc {scope : List String} {x y : String} {name : Json}
    (leaf : .predicate name ∈ origin.leaves) (source : origin.Allocated x)
    (object : origin.Allocated y) (linked : origin.Linked scope x) (inverse : Bool)
    (member : triplePattern x name.display y inverse ∈ scope) :
    origin.LinkedLine scope (triplePattern x name.display y inverse) := by
  have other := linked.step source object member
  cases inverse with
  | false => exact .triple leaf source object linked other
  | true => exact .triple leaf object source other linked

theorem LinkedLine.constrained {scope : List String} {var line : String}
    (allocated : origin.Allocated var) (constrains : Constrains origin.leaves var line)
    (linked : origin.Linked scope var) : origin.LinkedLine scope line :=
  .constraint allocated constrains.isConstraintLine constrains linked

end Origin

/-! ### Fragments -/

structure Fragment.Tied (origin : Origin) (above : List String) (f : Fragment) : Prop where
  loose : ∀ line ∈ f.loose, origin.LinkedLine (f.loose ++ above) line
  group : f.group.Fits origin.LinkedLine (f.loose ++ above)

section Building

variable {origin : Origin} {above : List String}

theorem fits_clause (clause : Option Clause) : Group.Fits origin.LinkedLine above { clause } :=
  Group.fits_plain clause (List.forall_mem_nil _)

theorem Fragment.Tied.ofGroup {group : Group} (fits : group.Fits origin.LinkedLine above) :
    Fragment.Tied origin above ⟨group, []⟩ :=
  ⟨List.forall_mem_nil _, fits⟩

theorem Fragment.Tied.empty : Fragment.Tied origin above {} :=
  .ofGroup (fits_clause none)

/-- Linked fragments are linked when they are collected, as each of them keeps
what is above it. Induction on the fragments. -/
theorem collect_fits {fs : List Fragment} (tied : ∀ f ∈ fs, f.Tied origin above) :
    ∀ {group : Group}, group.Fits origin.LinkedLine above →
      (collect group fs).Fits origin.LinkedLine above := by
  induction fs with
  | nil => exact fun fits => fits
  | cons f rest ih =>
    intro group fits
    rw [List.forall_mem_cons] at tied
    exact ih tied.2 (fits.collectOne Origin.linkedLine_steady tied.1.group tied.1.loose)

theorem branches_fits {fs : List Fragment} (tied : ∀ f ∈ fs, f.Tied origin above) :
    ∀ {group : Group}, group.Fits origin.LinkedLine above →
      (branches group fs).Fits origin.LinkedLine above := by
  induction fs with
  | nil => exact fun fits => fits
  | cons f rest ih =>
    intro group fits
    rw [List.forall_mem_cons] at tied
    exact ih tied.2 (fits.addBranch Origin.linkedLine_steady tied.1.group tied.1.loose)

theorem withClause_fits {group : Group} (fits : group.Fits origin.LinkedLine above)
    (clause : Option Clause) : (withClause group clause).Fits origin.LinkedLine above := by
  cases clause with
  | none => exact fits
  | some clause => exact fits.withClause (some clause)

theorem keepInside_tied (clause : Option Clause) {lines : List String}
    (each : ∀ line ∈ lines, origin.LinkedLine (lines ++ above) line) :
    (keepInside clause lines).Tied origin above := by
  unfold keepInside
  split
  · exact .ofGroup (Group.fits_plain clause each)
  · exact ⟨each, fits_clause none⟩

/-- What describes the object of an arc may rely on the arc, which stands
beside it or around it. -/
theorem arcTo_tied (clause : Option Clause) {described : Fragment} {x y : String} {name : Json}
    (leaf : .predicate name ∈ origin.leaves) (source : origin.Allocated x)
    (object : origin.Allocated y) (linked : origin.Linked above x) (inverse : Bool)
    (tied : ∀ scope, origin.Linked scope y → described.Tied origin scope) :
    (arcTo clause described (triplePattern x name.display y inverse)).Tied origin above := by
  generalize drawn : triplePattern x name.display y inverse = arc
  have linkedArc : origin.Linked (arc :: above) x :=
    linked.mono (.of_subset (List.subset_cons_self arc above))
  have member : triplePattern x name.display y inverse ∈ arc :: above := by simp [drawn]
  have inner := tied (arc :: above) (linkedArc.step source object member)
  have line : origin.LinkedLine (arc :: above) arc := by
    rw [← drawn] at linkedArc ⊢
    exact .arc leaf source object linkedArc inverse List.mem_cons_self
  have scope : Covers (described.loose ++ [arc] ++ above) (described.loose ++ arc :: above) :=
    .of_subset (by simp)
  have arcScope : Covers (described.loose ++ [arc] ++ above) (arc :: above) :=
    .of_subset (by simp)
  have steady : Steady origin.LinkedLine := Origin.linkedLine_steady
  refine .ofGroup ((fits_clause clause).collectOne steady (inner.group.mono steady scope) ?_)
  refine List.forall_mem_append.mpr ⟨fun line loose => steady.widen scope (inner.loose line loose),
    ?_⟩
  exact List.forall_mem_singleton.mpr (steady.widen arcScope line)

structure Alternatives.Tied (origin : Origin) (above : List String) (var : String)
    (alternatives : Alternatives) : Prop where
  group : alternatives.group.Fits origin.LinkedLine above
  filters : ∀ filter ∈ alternatives.filters, Constrains origin.leaves var filter
  filtering : ∀ filter ∈ alternatives.filters, isFilter filter = true

/-- An alternative more: its group becomes a branch, or its filters wait with
the others, all on one variable. -/
theorem Alternatives.Tied.add {var : String} {alternatives : Alternatives}
    (tied : alternatives.Tied origin above var) {f : Fragment} (fragment : f.Tied origin above)
    (constrains : ∀ line ∈ f.loose, Constrains origin.leaves var line) :
    (alternatives.add f).Tied origin above var := by
  have steady : Steady origin.LinkedLine := Origin.linkedLine_steady
  have scope : Covers above (f.loose ++ above) :=
    .append fun line member => (constrains line member).isConstraintLine.not_isTriple
  have branch : (alternatives.group.addChild? (f.group.asBranch [] (some .union))).Fits
      origin.LinkedLine above :=
    tied.group.addBranch steady (fragment.group.mono steady scope) (List.forall_mem_nil _)
  unfold Alternatives.add
  dsimp only
  split
  · exact ⟨branch, tied.filters, tied.filtering⟩
  · next present =>
    split
    · next filtering =>
      rw [List.all_eq_true] at filtering
      refine ⟨branch, ?_, ?_⟩
      · refine List.forall_mem_append.mpr ⟨tied.filters, List.forall_mem_singleton.mpr ?_⟩
        exact .merged (Or.inl rfl) (by simpa using present) constrains filtering
      · refine List.forall_mem_append.mpr ⟨tied.filtering, List.forall_mem_singleton.mpr ?_⟩
        exact mergeFilters_filter "&&" filtering
    · have own : Group.Fits origin.LinkedLine above { clause := some .union, lines := f.loose } :=
        Group.fits_plain _ fragment.loose
      exact ⟨branch.addChild steady own, tied.filters, tied.filtering⟩

theorem Alternatives.Tied.addAll {var : String} {fs : List Fragment}
    (each : ∀ f ∈ fs, f.Tied origin above ∧ ∀ line ∈ f.loose, Constrains origin.leaves var line) :
    ∀ {alternatives : Alternatives}, alternatives.Tied origin above var →
      (fs.foldl Alternatives.add alternatives).Tied origin above var := by
  induction fs with
  | nil => exact fun tied => tied
  | cons f rest ih =>
    intro alternatives tied
    rw [List.forall_mem_cons] at each
    exact ih each.2 (tied.add each.1.1 each.1.2)

/-- The filters that were kept aside become one filter, which still constrains
the variable. -/
theorem Alternatives.Tied.close {var : String} {alternatives : Alternatives}
    (tied : alternatives.Tied origin above var) (allocated : origin.Allocated var)
    (linked : origin.Linked above var) : alternatives.close.Fits origin.LinkedLine above := by
  have steady : Steady origin.LinkedLine := Origin.linkedLine_steady
  unfold Alternatives.close
  dsimp only
  split
  · exact tied.group
  · next present =>
    have constrains : Constrains origin.leaves var (mergeFilters alternatives.filters "||") :=
      .merged (Or.inr rfl) (by simpa using present) tied.filters tied.filtering
    have scope : Covers ([mergeFilters alternatives.filters "||"] ++ above) above :=
      .of_subset (List.subset_append_right _ _)
    have merged : ∀ line ∈ [mergeFilters alternatives.filters "||"],
        origin.LinkedLine ([mergeFilters alternatives.filters "||"] ++ above) line :=
      List.forall_mem_singleton.mpr (.constrained allocated constrains (linked.mono scope))
    split
    · exact (tied.group.mono steady scope).addLines steady merged
    · exact tied.group.addChild steady (Group.fits_plain _ merged)

end Building

/-! ### Visits -/

def Context.Closed (context : Context) (leaves : List Leaf) : Prop :=
  ∀ {target inside}, context.resolve target = some inside → inside ⊆ leaves

/-- The loose lines of a shape expression constrain the term that it is about. -/
theorem Visit.loose_constrains {context : Context} {leaves : List Leaf}
    (closed : context.Closed leaves) {p q : Progress} {term : String} {expr : ShapeExpr}
    {f : Fragment} (visit : Visit context p (.shape (some term) expr) f q)
    (here : expr.leaves ⊆ leaves) : ∀ line ∈ f.loose, Constrains leaves term line := by
  have general := Visit.induct
    (fun _ item f _ => ∀ expr, item = .shape (some term) expr → expr.leaves ⊆ leaves →
      ∀ line ∈ f.loose, Constrains leaves term line)
    (fun {p item f q} rule => ?_) visit
  · exact general expr rfl here
  · rintro expr rfl here
    cases rule with
    | shapeReference found new inner => exact inner.2 _ rfl (closed (Context.resolve_decl found))
    | node written =>
      rw [ShapeExpr.leaves] at here
      exact fun line member => .written (here List.mem_cons_self) written member
    | _ => exact List.forall_mem_nil _

/-- A visit whose fragment is linked wherever the term that it is about is. The
scope is left open, as the same visit may stand below different groups. -/
def GivesLinked (context : Context) (origin : Origin) : Outcomes := fun p item f q =>
  Visit context p item f q ∧ (item.leaves ⊆ origin.leaves → origin.Allocated item.term →
    origin.first ≤ p.fresh → q.fresh ≤ origin.last →
    ∀ above, origin.Linked above item.term → f.Tied origin above)

section Visits

variable {context : Context} {origin : Origin} {p q : Progress}

/-- Visits one after the other about the same variable give linked fragments,
each in the scope of that variable. -/
theorem Chain.tied {term : String} (allocated : origin.Allocated term) {items : List Item}
    {fs : List Fragment} (chain : Chain (GivesLinked context origin) p items fs q)
    (about : ∀ item ∈ items, item.term = term)
    (inside : ∀ item ∈ items, item.leaves ⊆ origin.leaves) (lower : origin.first ≤ p.fresh)
    (upper : q.fresh ≤ origin.last) {above : List String} (linked : origin.Linked above term) :
    ∀ f ∈ fs, f.Tied origin above := by
  induction chain with
  | nil => exact List.forall_mem_nil _
  | @cons p middle q item f items fs first others ih =>
    rw [List.forall_mem_cons] at about inside ⊢
    have taken : p.fresh ≤ middle.fresh := first.1.fresh_le
    have takenAfter : middle.fresh ≤ q.fresh := others.fresh_le fun step => step.1.fresh_le
    refine ⟨?_, ih about.2 inside.2 (by omega) upper⟩
    refine first.2 inside.1 ?_ lower (by omega) above ?_
    · rwa [about.1]
    · rwa [about.1]

theorem Chain.shapes_tied {focus : Focus} (allocated : origin.Allocated focus.text)
    {operands : List ShapeExpr} {fs : List Fragment}
    (chain : Chain (GivesLinked context origin) p (operands.map (.shape focus)) fs q)
    (inside : leavesOfShapes operands ⊆ origin.leaves) (lower : origin.first ≤ p.fresh)
    (upper : q.fresh ≤ origin.last) {above : List String}
    (linked : origin.Linked above focus.text) : ∀ f ∈ fs, f.Tied origin above := by
  refine chain.tied allocated (List.forall_mem_map.mpr fun _ _ => rfl) ?_ lower upper linked
  exact List.forall_mem_map.mpr fun operand member leaf found =>
    inside (subset_leavesOfShapes member found)

theorem Chain.triples_tied {subject : String} (allocated : origin.Allocated subject)
    {operands : List TripleExpr} {fs : List Fragment}
    (chain : Chain (GivesLinked context origin) p (operands.map (.triple subject)) fs q)
    (inside : leavesOfTriples operands ⊆ origin.leaves) (lower : origin.first ≤ p.fresh)
    (upper : q.fresh ≤ origin.last) {above : List String} (linked : origin.Linked above subject) :
    ∀ f ∈ fs, f.Tied origin above := by
  refine chain.tied allocated (List.forall_mem_map.mpr fun _ _ => rfl) ?_ lower upper linked
  exact List.forall_mem_map.mpr fun operand member leaf found =>
    inside (subset_leavesOfTriples member found)

/-- The loose lines of all alternatives constrain the term that a disjunction
is about. -/
theorem Chain.loose_constrain (closed : context.Closed origin.leaves) {term : String}
    {operands : List ShapeExpr} {fs : List Fragment}
    (chain : Chain (GivesLinked context origin) p (operands.map (.shape (some term))) fs q)
    (inside : leavesOfShapes operands ⊆ origin.leaves) :
    ∀ f ∈ fs, ∀ line ∈ f.loose, Constrains origin.leaves term line := by
  refine chain.forall_mem (List.forall_mem_map.mpr fun operand member p f q step => ?_)
  exact step.1.loose_constrains closed fun leaf found => inside (subset_leavesOfShapes member found)

/-- A fresh variable that was taken during the run is allocated. -/
theorem Origin.allocated_fresh {number : Nat} (lower : origin.first ≤ number)
    (upper : number < origin.last) : origin.Allocated (freshVariable number) :=
  Or.inr ⟨number, lower, upper, rfl⟩

/-- Every visit about an allocated variable gives a fragment that is linked
wherever the variable is. One case for each rule. -/
theorem Visit.tied (closed : context.Closed origin.leaves) {item : Item} {f : Fragment}
    (visit : Visit context p item f q) (inside : item.leaves ⊆ origin.leaves)
    (allocated : origin.Allocated item.term) (lower : origin.first ≤ p.fresh)
    (upper : q.fresh ≤ origin.last) {above : List String} (linked : origin.Linked above item.term) :
    f.Tied origin above := by
  refine Visit.induct (fun p item f q => item.leaves ⊆ origin.leaves → origin.Allocated item.term →
    origin.first ≤ p.fresh → q.fresh ≤ origin.last →
    ∀ above, origin.Linked above item.term → f.Tied origin above)
      (fun {p item f q} rule => ?_) visit
    inside allocated lower upper above linked
  intro inside allocated lower upper above linked
  cases rule with
  | shapeReference found new inner =>
    obtain ⟨term, rfl⟩ := focus_of_isVariable allocated.isVariable
    exact inner.2 (closed (Context.resolve_decl found)) allocated lower upper above linked
  | tripleReference found new inner =>
    exact inner.2 (closed (Context.resolve_label found)) allocated lower upper above linked
  | shape inner =>
    rw [Item.leaves, ShapeExpr.leaves] at inside
    have tied := inner.2 inside allocated lower upper above linked
    exact .ofGroup (collect_fits (List.forall_mem_singleton.mpr tied) (fits_clause none))
  | and inner =>
    rw [Item.leaves, ShapeExpr.leaves] at inside
    exact .ofGroup (collect_fits (inner.shapes_tied allocated inside lower upper linked)
      (fits_clause none))
  | or inner =>
    rw [Item.leaves, ShapeExpr.leaves] at inside
    obtain ⟨term, rfl⟩ := focus_of_isVariable allocated.isVariable
    have tied := inner.shapes_tied allocated inside lower upper linked
    have constrain := inner.loose_constrain closed inside
    have start : Alternatives.Tied origin above term {} :=
      ⟨fits_clause none, List.forall_mem_nil _, List.forall_mem_nil _⟩
    have added := Alternatives.Tied.addAll
      (fun f member => ⟨tied f member, constrain f member⟩) start
    exact .ofGroup (added.close allocated linked)
  | not inner =>
    rw [Item.leaves, ShapeExpr.leaves] at inside
    have tied := inner.2 inside allocated lower upper above linked
    exact .ofGroup (collect_fits (List.forall_mem_singleton.mpr tied) (fits_clause (some .minus)))
  | notEach inner =>
    rw [Item.leaves, ShapeExpr.leaves] at inside
    exact .ofGroup (collect_fits (inner.shapes_tied allocated inside lower upper linked)
      (fits_clause (some .minus)))
  | @node p focus nc lines written =>
    rw [Item.leaves, ShapeExpr.leaves] at inside
    refine ⟨fun line member => .constrained allocated ?_ (linked.mono ?_), fits_clause none⟩
    · exact .written (inside List.mem_cons_self) written member
    · exact .of_subset (List.subset_append_right _ _)
  | @arcToReference p q subject predicate inverse label bounds id f inner =>
    rw [Item.leaves, TripleExpr.leaves_constraint (by simp), ShapeExpr.leaves] at inside
    obtain ⟨named, referred⟩ := List.cons_subset.mp inside
    have object : origin.Allocated (stableVariable label) :=
      Or.inl ⟨label, Or.inr (referred List.mem_cons_self), rfl⟩
    refine arcTo_tied _ named allocated object linked inverse fun scope linkedObject => ?_
    refine inner.2 ?_ object lower upper scope linkedObject
    rwa [Item.leaves, ShapeExpr.leaves]
  | @arc p subject predicate inverse bounds id =>
    rw [Item.leaves, TripleExpr.leaves] at inside
    have object := Origin.allocated_fresh lower upper
    refine keepInside_tied _ (List.forall_mem_singleton.mpr ?_)
    refine .arc (inside List.mem_cons_self) allocated object (linked.mono ?_) inverse ?_
    · exact .of_subset (List.subset_append_right _ _)
    · exact List.mem_cons_self
  | @arcToNode p subject predicate inverse nc bounds id lines named written =>
    rw [Item.leaves, TripleExpr.leaves_constraint (by simp), ShapeExpr.leaves] at inside
    obtain ⟨namedLeaf, constrained⟩ := List.cons_subset.mp inside
    have object := Origin.allocated_fresh lower upper
    refine keepInside_tied _ ?_
    generalize drawn : triplePattern subject predicate.display (freshVariable p.fresh) inverse = arc
    have member : triplePattern subject predicate.display (freshVariable p.fresh) inverse ∈
        arc :: lines ++ above := by simp [drawn]
    have linkedHere : origin.Linked (arc :: lines ++ above) subject :=
      linked.mono (.of_subset (List.subset_append_right _ _))
    refine List.forall_mem_cons.mpr ⟨?_, fun line here => ?_⟩
    · rw [← drawn] at member linkedHere ⊢
      exact .arc namedLeaf allocated object linkedHere inverse member
    · exact .constrained object (.written (constrained List.mem_cons_self) written here)
        (linkedHere.step allocated object member)
  | @nodeWithoutArc p subject predicate inverse nc bounds id lines unnamed written =>
    rw [Item.leaves, TripleExpr.leaves_constraint (by simp), ShapeExpr.leaves] at inside
    obtain ⟨-, constrained⟩ := List.cons_subset.mp inside
    refine keepInside_tied _ fun line member => .constrained allocated ?_ (linked.mono ?_)
    · exact .written (constrained List.mem_cons_self) written member
    · exact .of_subset (List.subset_append_right _ _)
  | @arcToInline p q subject predicate inverse value bounds id f inline inner =>
    rw [Item.leaves, TripleExpr.leaves_constraint (ne_any_of_isInline inline)] at inside
    obtain ⟨named, nested⟩ := List.cons_subset.mp inside
    have taken : p.fresh + 1 ≤ q.fresh := inner.1.fresh_le
    have object : origin.Allocated (freshVariable p.fresh) :=
      Origin.allocated_fresh lower (by omega)
    refine arcTo_tied _ named allocated object linked inverse fun scope linkedObject => ?_
    exact inner.2 nested object (Nat.le_succ_of_le lower) upper scope linkedObject
  | eachOf inner marked =>
    rw [Item.leaves, TripleExpr.leaves] at inside
    have tied := inner.triples_tied allocated inside lower upper linked
    exact .ofGroup (withClause_fits (collect_fits tied (fits_clause none)) _)
  | oneOf inner marked =>
    rw [Item.leaves, TripleExpr.leaves] at inside
    have tied := inner.triples_tied allocated inside lower upper linked
    exact .ofGroup (withClause_fits (branches_fits tied (fits_clause none)) _)
  | _ => exact .empty

/-- The start shape is referred to from outside of the schema. What it is about
is linked to itself. -/
theorem Visit.start_tied (closed : context.Closed origin.leaves) {f : Fragment}
    (visit : Visit context p (.shape none (.reference origin.label)) f q)
    (lower : origin.first ≤ p.fresh) (upper : q.fresh ≤ origin.last) : f.Tied origin [] := by
  cases visit.rule with
  | shapeReference found new inner =>
    exact inner.tied closed (closed (Context.resolve_decl found))
      (Or.inl ⟨_, Or.inl rfl, rfl⟩) lower upper .refl
  | _ => exact .empty

end Visits

/-- In the group of a declared start shape of a well-typed schema, and in the
finished group, every line is a triple pattern between allocated variables, or
a filter or a list of values that constrains one; and its variables are linked
to that of the start shape by triple patterns in its own group and the groups
around it. -/
theorem startGroup_linked (schema : Schema) (label : String) (progress : Progress)
    (typed : schema.wellTyped = true) (start : schema.start = .label label)
    (declared : (schema.find? label).isSome = true) :
    ∃ context raw after, Context.ofSchema schema = .ok context ∧
      context.startGroup progress = .ok (some raw) after ∧
      ∀ group ∈ [raw, raw.postProcess], ∀ entry ∈ group.linesInScope [],
        Origin.LinkedLine ⟨label, schema.leaves, progress.fresh, after.fresh⟩ entry.1 entry.2 := by
  obtain ⟨context, built, rfl, typedContext⟩ := Context.ofSchema_ok typed
  obtain ⟨decl, found⟩ := Option.isSome_iff_exists.mp declared
  obtain ⟨f, before, after, success, fresh, -, visit⟩ :=
    context.startGroup_ok typedContext start found progress
  let origin : Origin := ⟨label, context.schema.leaves, progress.fresh, after.fresh⟩
  have closed : context.Closed origin.leaves := fun resolved =>
    Context.mem_leaves_of_resolve built resolved
  have tied : f.Tied origin [] :=
    visit.start_tied closed (Nat.le_of_eq fresh.symm) (Nat.le_refl after.fresh)
  have steady : Steady origin.LinkedLine := Origin.linkedLine_steady
  have raw : (f.group.addLines f.loose).Fits origin.LinkedLine [] :=
    tied.group.addLines steady tied.loose
  refine ⟨context, _, after, built, success, ?_⟩
  exact List.forall_mem_cons.mpr ⟨raw, List.forall_mem_singleton.mpr (raw.postProcess steady)⟩

/-- Every line is linked in a schema whose shapes refer to each other, under
all clauses. -/
theorem startGroup_linked_entangled :
    entangledSchema.wellTyped = true ∧ entangledSchema.start = .label "S" ∧
    (entangledSchema.find? "S").isSome = true ∧
    ∃ context raw after, Context.ofSchema entangledSchema = .ok context ∧
      context.startGroup {} = .ok (some raw) after ∧
      ∀ group ∈ [raw, raw.postProcess], ∀ entry ∈ group.linesInScope [],
        Origin.LinkedLine ⟨"S", entangledSchema.leaves, 0, after.fresh⟩ entry.1 entry.2 :=
  ⟨by decide, rfl, by decide, startGroup_linked entangledSchema "S" {} (by decide) rfl (by decide)⟩

end ShapeQuery.Compile
