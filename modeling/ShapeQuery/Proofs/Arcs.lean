import ShapeQuery.Proofs.Placement

/-!
The arcs of a schema, read off its expressions. Every triple constraint that is come upon gives one
arc, under the clauses that the expressions around it call for; references are unfolded, except to a
target that is being unfolded on the way. Fresh variables are numbered in the order of the document.
The compiled group of a start shape has exactly these arcs, each under its clauses.
-/
namespace ShapeQuery.Compile

/-- Arcs under their clauses, and the number of the next fresh variable. The
arcs are counted, so that an arc which is asked for twice is there twice. -/
abbrev Arcs := Multiset Placed × Nat

def Arcs.under (clauses : List Clause) (arcs : Arcs) : Arcs :=
  (arcs.1.map (Placed.under clauses), arcs.2)

/-- How the arcs behind a reference are found: from the label, the term that
they are about and the number of the next fresh variable. -/
structure Unfolding where
  shape : String → String → Nat → Arcs
  tripleExpr : String → String → Nat → Arcs

/-- The clauses of a triple constraint: what must not occur is excluded, what
need not occur is optional. -/
def constraintClauses (bounds : Bounds) : List Clause :=
  match bounds.min, bounds.max with
  | _, .int 0 => [.notExists]
  | .int 0, _ => [.optional]
  | _, _ => []

/-- The clauses of a group of triple expressions: it is optional if it need not
occur. A group that must not occur is not excluded. -/
def groupClauses (bounds : Bounds) : List Clause :=
  match bounds.min with
  | .int least => if least < 1 then [.optional] else []
  | _ => []

/-- The arc of a triple constraint; an inverse one leads to the subject. -/
def arcLine (subject object : String) (predicate : Json) (inverse : Bool) : String :=
  if inverse then object ++ " <" ++ predicate.display ++ "> " ++ subject ++ " ."
  else subject ++ " <" ++ predicate.display ++ "> " ++ object ++ " ."

/-- The object of a triple constraint, and the number of the next fresh
variable behind it: a referenced shape has its own variable, every other object
a fresh one. -/
def objectOf (value : ShapeExpr) (number : Nat) : String × Nat :=
  match value with
  | .reference label => (stableVariable label, number)
  | _ => (freshVariable number, number + 1)

mutual

/-- The arcs that a shape expression asks for around a term. -/
def shapeArcs (unfolding : Unfolding) (term : String) : ShapeExpr → Nat → Arcs
  | .reference label, number => unfolding.shape label term number
  | .shape (some expression) _ _, number => tripleArcs unfolding term expression number
  | .and operands, number => shapesArcs unfolding term operands number
  | .or operands, number => (shapesArcs unfolding term operands number).under [.union]
  | .not operand, number => (shapeArcs unfolding term operand number).under [.minus]
  | .notEach operands, number => (shapesArcs unfolding term operands number).under [.minus]
  | .shape none _ _, number | .any, number | .node _, number | .external, number
  | .unsupported _, number => (0, number)

def shapesArcs (unfolding : Unfolding) (term : String) : List ShapeExpr → Nat → Arcs
  | [], number => (0, number)
  | expr :: rest, number =>
    let first := shapeArcs unfolding term expr number
    let others := shapesArcs unfolding term rest first.2
    (first.1 + others.1, others.2)

/-- The arcs that a triple expression asks for around a subject. -/
def tripleArcs (unfolding : Unfolding) (subject : String) : TripleExpr → Nat → Arcs
  | .reference label, number => unfolding.tripleExpr label subject number
  | .constraint predicate inverse value bounds _, number =>
    let object := objectOf value number
    let nested := shapeArcs unfolding object.1 value object.2
    Arcs.under (constraintClauses bounds)
      (nested.1 + {⟨[], arcLine subject object.1 predicate inverse⟩}, nested.2)
  | .eachOf operands bounds _, number =>
    (triplesArcs unfolding subject operands number).under (groupClauses bounds)
  | .oneOf operands bounds _, number =>
    (triplesArcs unfolding subject operands number).under (groupClauses bounds ++ [.union])
  | .unsupported _, number => (0, number)

def triplesArcs (unfolding : Unfolding) (subject : String) : List TripleExpr → Nat → Arcs
  | [], number => (0, number)
  | expr :: rest, number =>
    let first := tripleArcs unfolding subject expr number
    let others := triplesArcs unfolding subject rest first.2
    (first.1 + others.1, others.2)

end

mutual

/-- The arcs behind a reference to a shape, while some targets are being
unfolded. There are none behind a target that is one of these, which makes the
unfolding end. -/
def Context.shapeTargetArcs (context : Context) (expanding : List Target) (label term : String)
    (number : Nat) : Arcs :=
  match _ : context.schema.find? label with
  | none => (0, number)
  | some decl =>
    if _ : .shape label ∈ expanding then (0, number)
    else
      shapeArcs
        ⟨context.shapeTargetArcs (.shape label :: expanding),
          context.tripleTargetArcs (.shape label :: expanding)⟩
        term decl.expr number
termination_by context.unexpanded expanding
decreasing_by all_goals exact Context.unexpanded_cons_lt (Context.shape_mem_targets ‹_›) ‹_›

/-- The arcs behind a reference to a triple expression, while some targets are
being unfolded. -/
def Context.tripleTargetArcs (context : Context) (expanding : List Target) (label subject : String)
    (number : Nat) : Arcs :=
  match _ : context.labels.lookup label with
  | none => (0, number)
  | some target =>
    if _ : .tripleExpr label ∈ expanding then (0, number)
    else
      tripleArcs
        ⟨context.shapeTargetArcs (.tripleExpr label :: expanding),
          context.tripleTargetArcs (.tripleExpr label :: expanding)⟩
        subject target number
termination_by context.unexpanded expanding
decreasing_by all_goals exact Context.unexpanded_cons_lt (Context.tripleExpr_mem_targets ‹_›) ‹_›

end

def Context.unfolding (context : Context) (expanding : List Target) : Unfolding :=
  ⟨context.shapeTargetArcs expanding, context.tripleTargetArcs expanding⟩

section References

variable {context : Context} {expanding : List Target} {label term : String} {number : Nat}

theorem shapeTargetArcs_missing (missing : context.schema.find? label = none) :
    context.shapeTargetArcs expanding label term number = (0, number) := by
  rw [Context.shapeTargetArcs]
  split
  · rfl
  · next found => rw [missing] at found; cases found

/-- A reference to a shape that is being unfolded contributes no arcs and takes
no fresh variable. -/
theorem shapeTargetArcs_cut (mark : .shape label ∈ expanding) :
    context.shapeTargetArcs expanding label term number = (0, number) := by
  rw [Context.shapeTargetArcs]
  split
  · rfl
  · rw [dif_pos mark]

/-- Behind a reference to a declared shape are the arcs of its expression, with
the shape among those that are being unfolded. -/
theorem shapeTargetArcs_new {decl : ShapeDecl} (found : context.schema.find? label = some decl)
    (new : .shape label ∉ expanding) :
    context.shapeTargetArcs expanding label term number =
      shapeArcs (context.unfolding (.shape label :: expanding)) term decl.expr number := by
  rw [Context.shapeTargetArcs]
  split
  · next missing => rw [missing] at found; cases found
  · next other again =>
    rw [dif_neg new]
    rw [found] at again
    cases again
    rfl

theorem tripleTargetArcs_missing (missing : context.labels.lookup label = none) :
    context.tripleTargetArcs expanding label term number = (0, number) := by
  rw [Context.tripleTargetArcs]
  split
  · rfl
  · next found => rw [missing] at found; cases found

theorem tripleTargetArcs_cut (mark : .tripleExpr label ∈ expanding) :
    context.tripleTargetArcs expanding label term number = (0, number) := by
  rw [Context.tripleTargetArcs]
  split
  · rfl
  · rw [dif_pos mark]

/-- The same behind a reference to a labelled triple expression, whose arcs are
about the subject of the reference. -/
theorem tripleTargetArcs_new {target : TripleExpr}
    (found : context.labels.lookup label = some target) (new : .tripleExpr label ∉ expanding) :
    context.tripleTargetArcs expanding label term number =
      tripleArcs (context.unfolding (.tripleExpr label :: expanding)) term target number := by
  rw [Context.tripleTargetArcs]
  split
  · next missing => rw [missing] at found; cases found
  · next other again =>
    rw [dif_neg new]
    rw [found] at again
    cases again
    rfl

end References

theorem objectOf_inline {value : ShapeExpr} (inline : isInline value = true) (number : Nat) :
    objectOf value number = (freshVariable number, number + 1) := by
  cases value with
  | reference label => cases inline
  | _ => rfl

theorem arcLine_eq (subject object : String) (predicate : Json) (inverse : Bool) :
    arcLine subject object predicate inverse = triplePattern subject predicate.display object
      inverse := by
  cases inverse <;> rfl

/-- For bounds that are integers the clauses are those that the compiler gives
the arc. -/
theorem constraintClauses_eq {bounds : Bounds} (typed : bounds.wellTyped = true) :
    constraintClauses bounds = (constraintClause bounds).toList := by
  obtain ⟨least, most⟩ := bounds
  simp only [Bounds.wellTyped, Bool.and_eq_true] at typed
  obtain rfl | ⟨m, rfl⟩ := Json.isIntOrNull_cases typed.2
  · obtain rfl | ⟨n, rfl⟩ := Json.isIntOrNull_cases typed.1
    · rfl
    · by_cases least : n = 0
      · subst least
        rfl
      · simp [constraintClauses, constraintClause, Json.isZero, least]
  · by_cases most : m = 0
    · subst most
      rfl
    · obtain rfl | ⟨n, rfl⟩ := Json.isIntOrNull_cases typed.1
      · simp [constraintClauses, constraintClause, Json.isZero, most]
      · by_cases least : n = 0
        · subst least
          simp [constraintClauses, constraintClause, Json.isZero, most]
        · simp [constraintClauses, constraintClause, Json.isZero, most, least]

theorem groupClauses_eq {bounds : Bounds} {clause : Option Clause} (typed : bounds.wellTyped = true)
    (marked : groupClause bounds = .ok clause) : groupClauses bounds = clause.toList := by
  obtain ⟨least, most⟩ := bounds
  simp only [Bounds.wellTyped, Bool.and_eq_true] at typed
  obtain rfl | ⟨n, rfl⟩ := Json.isIntOrNull_cases typed.1
  · cases marked
    rfl
  · change Except.ok (if decide (n < 1) = true then some Clause.optional else none) = _ at marked
    cases marked
    by_cases below : n < 1 <;> simp [groupClauses, below]

def Item.wellTyped : Item → Bool
  | .shape _ expr => expr.wellTyped
  | .triple _ expr => expr.wellTyped

def Item.arcs (unfolding : Unfolding) : Item → Nat → Arcs
  | .shape focus expr, number => shapeArcs unfolding focus.text expr number
  | .triple subject expr, number => tripleArcs unfolding subject expr number

/-- A visit of a well-typed item about a variable gives the arcs that the item
asks for, and takes as many fresh variables. -/
def GivesArcs (context : Context) : Outcomes := fun p item f q =>
  item.wellTyped = true → IsVariable item.term →
    (f.placed, q.fresh) = item.arcs (context.unfolding p.expanding) p.fresh

/-- Operands of a shape expression are visited one after the other, each from
the number that the one before it has left. Induction on the operands. -/
theorem Chain.shapesArcs_eq {context : Context} {focus : Focus} (bound : IsVariable focus.text) :
    ∀ {operands : List ShapeExpr} {p q : Progress} {fs : List Fragment},
      Chain (fun p item f q => Visit context p item f q ∧ GivesArcs context p item f q) p
        (operands.map (.shape focus)) fs q →
      wellTypedShapes operands = true →
      (placedInFragments fs, q.fresh) =
        shapesArcs (context.unfolding p.expanding) focus.text operands p.fresh := by
  intro operands
  induction operands with
  | nil =>
    intro p q fs chain _
    cases chain
    rw [shapesArcs]
    rfl
  | cons operand rest ih =>
    intro p q fs chain typed
    rw [wellTypedShapes, Bool.and_eq_true] at typed
    cases chain with
    | cons first others =>
      have here := first.2 typed.1 bound
      have later := ih others typed.2
      rw [first.1.expanding_eq] at later
      simp only [Item.arcs] at here
      rw [shapesArcs, ← here]
      simp only [← later, placedInFragments_cons]

/-- The same for the operands of a triple expression, which are all about one
subject. -/
theorem Chain.triplesArcs_eq {context : Context} {subject : String} (bound : IsVariable subject) :
    ∀ {operands : List TripleExpr} {p q : Progress} {fs : List Fragment},
      Chain (fun p item f q => Visit context p item f q ∧ GivesArcs context p item f q) p
        (operands.map (.triple subject)) fs q →
      wellTypedTriples operands = true →
      (placedInFragments fs, q.fresh) =
        triplesArcs (context.unfolding p.expanding) subject operands p.fresh := by
  intro operands
  induction operands with
  | nil =>
    intro p q fs chain _
    cases chain
    rw [triplesArcs]
    rfl
  | cons operand rest ih =>
    intro p q fs chain typed
    rw [wellTypedTriples, Bool.and_eq_true] at typed
    cases chain with
    | cons first others =>
      have here := first.2 typed.1 bound
      have later := ih others typed.2
      rw [first.1.expanding_eq] at later
      simp only [Item.arcs] at here
      rw [triplesArcs, ← here]
      simp only [← later, placedInFragments_cons]

theorem constraint_wellTyped {predicate : Json} {inverse : Bool} {value : ShapeExpr}
    {bounds : Bounds} {id : Json} {subject : String}
    (typed :
      (Item.triple subject (.constraint predicate inverse value bounds id)).wellTyped = true) :
    predicate.isText = true ∧ value.wellTyped = true ∧ bounds.wellTyped = true := by
  simp only [Item.wellTyped, TripleExpr.wellTyped, Bool.and_eq_true] at typed
  exact ⟨typed.1.1.1, typed.1.1.2, typed.1.2⟩

theorem group_wellTyped {operands : List TripleExpr} {bounds : Bounds} {id : Json}
    (typed : (wellTypedTriples operands && bounds.wellTyped && id.isTextOrNull) = true) :
    wellTypedTriples operands = true ∧ bounds.wellTyped = true := by
  simp only [Bool.and_eq_true] at typed
  exact typed.1

/-- One case for each rule: the group that the rule makes has the arcs of what
is inside, under the clause that it adds. -/
theorem Visit.givesArcs {context : Context} (typedContext : context.WellTyped) {p q : Progress}
    {item : Item} {f : Fragment} (visit : Visit context p item f q) :
    GivesArcs context p item f q := by
  refine Visit.induct (GivesArcs context) (fun {p item f q} rule => ?_) visit
  intro typed bound
  cases rule with
  | shapeMissing missing =>
    simp only [Item.arcs, shapeArcs, Context.unfolding, shapeTargetArcs_missing missing,
      Fragment.placed_empty]
    rfl
  | shapeCut found mark =>
    simp only [Item.arcs, shapeArcs, Context.unfolding, shapeTargetArcs_cut mark,
      Fragment.placed_empty]
    rfl
  | shapeReference found new inner =>
    obtain ⟨term, rfl⟩ := focus_of_isVariable bound
    have typedDecl := typedContext.decls _ (List.mem_of_find?_eq_some found)
    have arcs := inner.2 typedDecl bound
    simp only [Item.arcs, shapeArcs, Context.unfolding, shapeTargetArcs_new found new]
    exact arcs
  | any => simp only [Item.arcs, shapeArcs, Fragment.placed_empty]; rfl
  | emptyShape => simp only [Item.arcs, shapeArcs, Fragment.placed_empty]
  | external => simp only [Item.arcs, shapeArcs, Fragment.placed_empty]; rfl
  | unsupportedShape => simp only [Item.arcs, shapeArcs, Fragment.placed_empty]; rfl
  | shape inner =>
    simp only [Item.wellTyped, ShapeExpr.wellTyped, Bool.and_eq_true] at typed
    have arcs := inner.2 typed.1 bound
    simp only [Item.arcs, shapeArcs, collected_placed, Option.toList_none, Placed.map_under_nil,
      placedInFragments_cons, placedInFragments_nil, add_zero]
    exact arcs
  | and inner =>
    simp only [Item.wellTyped, ShapeExpr.wellTyped] at typed
    have arcs := inner.shapesArcs_eq bound typed
    simp only [Item.arcs, shapeArcs, collected_placed, Option.toList_none, Placed.map_under_nil]
    exact arcs
  | or inner =>
    simp only [Item.wellTyped, ShapeExpr.wellTyped] at typed
    have arcs := inner.shapesArcs_eq bound typed
    simp only [Item.arcs, shapeArcs, disjoined_placed, ← arcs]
    rfl
  | not inner =>
    simp only [Item.wellTyped, ShapeExpr.wellTyped] at typed
    have arcs := inner.2 typed bound
    simp only [Item.arcs] at arcs
    simp only [Item.arcs, shapeArcs, collected_placed, Option.toList_some, placedInFragments_cons,
      placedInFragments_nil, add_zero, ← arcs]
    rfl
  | notEach inner =>
    simp only [Item.wellTyped, ShapeExpr.wellTyped] at typed
    have arcs := inner.shapesArcs_eq bound typed
    simp only [Item.arcs, shapeArcs, collected_placed, Option.toList_some, ← arcs]
    rfl
  | node written =>
    have none := placedLines_eq_zero fun line member =>
      (constraintLines_constraint written line member).not_isTriple
    simp only [Item.arcs, shapeArcs, Fragment.placed, none, placed_plain, add_zero]
  | tripleMissing missing =>
    simp only [Item.arcs, tripleArcs, Context.unfolding, tripleTargetArcs_missing missing,
      Fragment.placed_empty]
    rfl
  | tripleCut found mark =>
    simp only [Item.arcs, tripleArcs, Context.unfolding, tripleTargetArcs_cut mark,
      Fragment.placed_empty]
    rfl
  | tripleReference found new inner =>
    obtain ⟨front, back, split, -⟩ := List.lookup_eq_some_iff.mp found
    have typedTarget := typedContext.labels _
      (split ▸ List.mem_append_right front List.mem_cons_self)
    have arcs := inner.2 typedTarget bound
    simp only [Item.arcs, tripleArcs, Context.unfolding, tripleTargetArcs_new found new]
    exact arcs
  | arcToReference inner =>
    obtain ⟨-, typedValue, typedBounds⟩ := constraint_wellTyped typed
    have arcs := inner.2 typedValue (isVariable_stable _)
    simp only [Item.arcs, Focus.text] at arcs
    simp only [Item.term] at bound
    simp only [Item.arcs, tripleArcs, objectOf, ← arcs, arcLine_eq,
      constraintClauses_eq typedBounds]
    rw [arcTo_placed _ _ bound (isVariable_stable _)]
    rfl
  | arc =>
    obtain ⟨-, -, typedBounds⟩ := constraint_wellTyped typed
    simp only [Item.term] at bound
    simp only [Item.arcs, tripleArcs, objectOf, shapeArcs, arcLine_eq,
      constraintClauses_eq typedBounds, zero_add]
    rw [keepInside_arc_placed _ bound (isVariable_fresh _) _ _ (List.forall_mem_nil _)]
    rfl
  | arcToNode named written =>
    obtain ⟨-, -, typedBounds⟩ := constraint_wellTyped typed
    have none := fun line member => (constraintLines_constraint written line member).not_isTriple
    simp only [Item.term] at bound
    simp only [Item.arcs, tripleArcs, objectOf, shapeArcs, arcLine_eq,
      constraintClauses_eq typedBounds, zero_add]
    rw [keepInside_arc_placed _ bound (isVariable_fresh _) _ _ none]
    rfl
  | nodeWithoutArc unnamed written =>
    obtain ⟨named, -, -⟩ := constraint_wellTyped typed
    obtain ⟨text, rfl⟩ := Json.isText_iff.mp named
    cases unnamed
  | arcToInline inline inner =>
    obtain ⟨-, typedValue, typedBounds⟩ := constraint_wellTyped typed
    have arcs := inner.2 typedValue (isVariable_fresh _)
    simp only [Item.arcs, Focus.text, Progress.counting] at arcs
    simp only [Item.term] at bound
    simp only [Item.arcs, tripleArcs, objectOf_inline inline, arcLine_eq,
      constraintClauses_eq typedBounds, ← arcs]
    rw [arcTo_placed _ _ bound (isVariable_fresh _)]
    rfl
  | eachOf inner marked =>
    obtain ⟨typedOperands, typedBounds⟩ := group_wellTyped typed
    have arcs := inner.triplesArcs_eq bound typedOperands
    simp only [Item.term] at arcs
    simp only [Item.arcs, tripleArcs, grouped_placed, groupClauses_eq typedBounds marked, ← arcs]
    rfl
  | oneOf inner marked =>
    obtain ⟨typedOperands, typedBounds⟩ := group_wellTyped typed
    have arcs := inner.triplesArcs_eq bound typedOperands
    simp only [Item.term] at arcs
    simp only [Item.arcs, tripleArcs, branched_placed, groupClauses_eq typedBounds marked, ← arcs]
    rfl
  | unsupportedTriple => simp only [Item.arcs, tripleArcs, Fragment.placed_empty]; rfl

/-- The root takes up the loose lines of the start shape, which are no arcs. -/
theorem rooted_placed {context : Context} {p q : Progress} {focus : Focus} {expr : ShapeExpr}
    {f : Fragment} (visit : Visit context p (.shape focus expr) f q) :
    (f.group.addLines f.loose).placed = f.placed := by
  have none : placedLines f.loose = 0 := by
    obtain noLines | ⟨-, nc, var, written⟩ := visit.shape_loose
    · rw [noLines, placedLines_nil]
    · exact placedLines_eq_zero fun line member =>
        (constraintLines_constraint written line member).not_isTriple
  rw [Group.placed_addLines, Fragment.placed, none, Multiset.map_zero]

/-- The group of a declared start shape of a well-typed schema has the arcs
that the schema asks for around the variable of the shape, each as often and
under the same clauses, whatever refers to what. -/
theorem startGroup_placed (schema : Schema) (label : String) (progress : Progress)
    (typed : schema.wellTyped = true) (start : schema.start = .label label)
    (declared : (schema.find? label).isSome = true) :
    ∃ context group after, Context.ofSchema schema = .ok context ∧
      context.startGroup progress = .ok (some group) after ∧
      (group.placed, after.fresh) =
        context.shapeTargetArcs progress.expanding label (stableVariable label) progress.fresh := by
  obtain ⟨context, built, rfl, typedContext⟩ := Context.ofSchema_ok typed
  obtain ⟨decl, found⟩ := Option.isSome_iff_exists.mp declared
  obtain ⟨f, before, after, success, fresh, expanding, visit⟩ :=
    context.startGroup_ok typedContext start found progress
  refine ⟨context, _, after, built, success, ?_⟩
  have arcs := visit.reference_focus.givesArcs typedContext rfl (isVariable_stable label)
  simp only [Item.arcs, shapeArcs, Context.unfolding, fresh, expanding] at arcs
  rw [rooted_placed visit]
  exact arcs

/-- Shapes that refer to each other, with every clause: a disjunction, a
negation, optional and excluded arcs, and a labelled arc that is used again. -/
def entangledSchema : Schema where
  shapes := [
    ⟨.string "S", .or [
      .shape (some (.oneOf [
        .constraint (.string "p") false (.reference "T") ⟨.int 0, .int 1⟩ (.string "link"),
        .constraint (.string "q") true .any ⟨.null, .int 0⟩ .null] ⟨.int 0, .null⟩ .null)) false [],
      .not (.reference "T")], false⟩,
    ⟨.string "T", .shape (some (.eachOf [
      .constraint (.string "r") false (.not (.reference "S")) {} .null,
      .constraint (.string "s") false (.node { nodeKind := some .iri }) {} .null,
      .reference "link"] {} .null)) true [], false⟩]
  start := .label "S"

/-- The arcs of a schema in which references lead around in a cycle, with all
clauses that an arc can be under. -/
theorem startGroup_placed_entangled :
    entangledSchema.wellTyped = true ∧ entangledSchema.start = .label "S" ∧
    (entangledSchema.find? "S").isSome = true ∧
    ∃ context group after, Context.ofSchema entangledSchema = .ok context ∧
      context.startGroup {} = .ok (some group) after ∧
      (group.placed, after.fresh) = context.shapeTargetArcs [] "S" (stableVariable "S") 0 :=
  ⟨by decide, rfl, by decide, startGroup_placed entangledSchema "S" {} (by decide) rfl (by decide)⟩

end ShapeQuery.Compile
