import ShapeQuery.Proofs.Guard

/-!
Visits: what the compiler makes of an expression, as rules without a limit on the depth. Every run
that ends with a result is a visit, so a fact about results is proved once for each rule.
-/
namespace ShapeQuery.Compile

/-- What is visited: a shape expression about a term, or a triple expression
about a subject. Both kinds are visited by one relation, so that an induction
covers both. -/
inductive Item where
  | shape (focus : Focus) (expr : ShapeExpr)
  | triple (subject : String) (expr : TripleExpr)

def Item.term : Item → String
  | .shape focus _ => focus.text
  | .triple subject _ => subject

/-- A relation between the state before, what is visited, its fragment and the
state after. Properties of visits have this form, too. -/
abbrev Outcomes := Progress → Item → Fragment → Progress → Prop

/-- Steps one after the other, from state to state. -/
inductive Chain (step : Outcomes) : Progress → List Item → List Fragment → Progress → Prop where
  | nil {p} : Chain step p [] [] p
  | cons {p middle q item f items fs} (first : step p item f middle)
      (others : Chain step middle items fs q) : Chain step p (item :: items) (f :: fs) q

theorem Chain.mono {step other : Outcomes}
    (weaker : ∀ {p item f q}, step p item f q → other p item f q) {p q : Progress}
    {items : List Item} {fs : List Fragment} (chain : Chain step p items fs q) :
    Chain other p items fs q := by
  induction chain with
  | nil => exact .nil
  | cons first _ ih => exact .cons (weaker first) ih

namespace Progress

def noting (p : Progress) (diagnostic : Diagnostic) : Progress :=
  { p with diagnostics := p.diagnostics ++ [diagnostic] }

def counting (p : Progress) : Progress :=
  { p with fresh := p.fresh + 1 }

def entering (p : Progress) (target : Target) : Progress :=
  { p with expanding := target :: p.expanding }

def leaving (p : Progress) (target : Target) : Progress :=
  { p with expanding := p.expanding.erase target }

end Progress

/-- A group with the fragments of operands that hold together. -/
def collect (group : Group) (fragments : List Fragment) : Group :=
  fragments.foldl (fun group inner => group.addChild inner.group |>.addLines inner.loose) group

/-- A group with the fragments of triple expressions as alternatives. -/
def branches (group : Group) (fragments : List Fragment) : Group :=
  fragments.foldl
    (fun group inner => group.addChild? (inner.group.asBranch inner.loose (some .union))) group

def isInline : ShapeExpr → Bool
  | .reference _ | .any | .node _ => false
  | _ => true

/-- The rules, by the form of what is visited. Each says what comes of it,
given what comes of the expressions inside. -/
inductive Rule (context : Context) (inside : Outcomes) : Outcomes where
  | shapeMissing {p focus label} (missing : context.schema.find? label = none) :
      Rule context inside p (.shape focus (.reference label)) {}
        (p.noting (.shapeNotDeclared label))
  | shapeCut {p focus label decl} (found : context.schema.find? label = some decl)
      (mark : .shape label ∈ p.expanding) :
      Rule context inside p (.shape focus (.reference label)) {} (p.noting (.recursiveShape label))
  | shapeReference {p q focus label decl f} (found : context.schema.find? label = some decl)
      (new : .shape label ∉ p.expanding)
      (inner : inside (p.entering (.shape label))
        (.shape (some (focus.getD (stableVariable label))) decl.expr) f q) :
      Rule context inside p (.shape focus (.reference label)) f (q.leaving (.shape label))
  | any {p focus} : Rule context inside p (.shape focus .any) {}
    (p.noting (.unknownShapeExpr "NoneType"))
  | emptyShape {p focus closed extra} :
    Rule context inside p (.shape focus (.shape none closed extra)) {} p
  | shape {p q focus expression closed extra f}
      (inner : inside p (.triple focus.text expression) f q) :
      Rule context inside p (.shape focus (.shape (some expression) closed extra))
        ⟨collect {} [f], []⟩ q
  | and {p q focus operands fs}
      (inner : Chain inside p (operands.map (.shape focus)) fs q) :
      Rule context inside p (.shape focus (.and operands)) ⟨collect {} fs, []⟩ q
  | or {p q focus operands fs}
      (inner : Chain inside p (operands.map (.shape focus)) fs q) :
      Rule context inside p (.shape focus (.or operands))
        ⟨(fs.foldl Alternatives.add {}).close, []⟩ q
  | not {p q focus operand f} (inner : inside p (.shape focus operand) f q) :
      Rule context inside p (.shape focus (.not operand))
        ⟨collect { clause := some .minus } [f], []⟩ q
  | notEach {p q focus operands fs}
      (inner : Chain inside p (operands.map (.shape focus)) fs q) :
      Rule context inside p (.shape focus (.notEach operands))
        ⟨collect { clause := some .minus } fs, []⟩ q
  | node {p focus nc lines} (written : constraintLines nc focus.text = .ok lines) :
      Rule context inside p (.shape focus (.node nc)) ⟨{}, lines⟩ p
  | external {p focus} : Rule context inside p (.shape focus .external) {} (p.noting .externalShape)
  | unsupportedShape {p focus typeName} :
      Rule context inside p (.shape focus (.unsupported typeName)) {}
        (p.noting (.unknownShapeExpr typeName))
  | tripleMissing {p subject label} (missing : context.labels.lookup label = none) :
      Rule context inside p (.triple subject (.reference label)) {}
        (p.noting (.tripleExprNotDefined label))
  | tripleCut {p subject label target} (found : context.labels.lookup label = some target)
      (mark : .tripleExpr label ∈ p.expanding) :
      Rule context inside p (.triple subject (.reference label)) {}
        (p.noting (.recursiveTripleExpr label))
  | tripleReference {p q subject label target f} (found : context.labels.lookup label = some target)
      (new : .tripleExpr label ∉ p.expanding)
      (inner : inside (p.entering (.tripleExpr label)) (.triple subject target) f q) :
      Rule context inside p (.triple subject (.reference label)) f (q.leaving (.tripleExpr label))
  | arcToReference {p q subject predicate inverse label bounds id f}
      (inner : inside p (.shape (some (stableVariable label)) (.reference label)) f q) :
      Rule context inside p (.triple subject
        (.constraint predicate inverse (.reference label) bounds id))
        (arcTo (constraintClause bounds) f
          (triplePattern subject predicate.display (stableVariable label) inverse)) q
  | arc {p subject predicate inverse bounds id} :
      Rule context inside p (.triple subject (.constraint predicate inverse .any bounds id))
        (keepInside (constraintClause bounds)
          [triplePattern subject predicate.display (freshVariable p.fresh) inverse]) p.counting
  | arcToNode {p subject predicate inverse nc bounds id lines} (named : predicate.isNull = false)
      (written : constraintLines nc (freshVariable p.fresh) = .ok lines) :
      Rule context inside p (.triple subject (.constraint predicate inverse (.node nc) bounds id))
        (keepInside (constraintClause bounds)
          (triplePattern subject predicate.display (freshVariable p.fresh) inverse :: lines))
            p.counting
  | nodeWithoutArc {p subject predicate inverse nc bounds id lines}
      (unnamed : predicate.isNull = true) (written : constraintLines nc subject = .ok lines) :
      Rule context inside p (.triple subject (.constraint predicate inverse (.node nc) bounds id))
        (keepInside (constraintClause bounds) lines) p
  | arcToInline {p q subject predicate inverse value bounds id f} (inline : isInline value = true)
      (inner : inside p.counting (.shape (some (freshVariable p.fresh)) value) f q) :
      Rule context inside p (.triple subject (.constraint predicate inverse value bounds id))
        (arcTo (constraintClause bounds) f
          (triplePattern subject predicate.display (freshVariable p.fresh) inverse)) q
  | eachOf {p q subject operands bounds id fs clause}
      (inner : Chain inside p (operands.map (.triple subject)) fs q)
      (marked : groupClause bounds = .ok clause) :
      Rule context inside p (.triple subject (.eachOf operands bounds id))
        ⟨withClause (collect {} fs) clause, []⟩ q
  | oneOf {p q subject operands bounds id fs clause}
      (inner : Chain inside p (operands.map (.triple subject)) fs q)
      (marked : groupClause bounds = .ok clause) :
      Rule context inside p (.triple subject (.oneOf operands bounds id))
        ⟨withClause (branches {} fs) clause, []⟩ q
  | unsupportedTriple {p subject typeName} :
      Rule context inside p (.triple subject (.unsupported typeName)) {}
        (p.noting (.unknownTripleExpr typeName))

/-- A rule asks for what is inside only in the positive, so it can ask for less. -/
theorem Rule.mono {context : Context} {inside other : Outcomes}
    (weaker : ∀ {p item f q}, inside p item f q → other p item f q) {p q : Progress} {item : Item}
    {f : Fragment} (rule : Rule context inside p item f q) : Rule context other p item f q := by
  cases rule with
  | shapeMissing missing => exact .shapeMissing missing
  | shapeCut found mark => exact .shapeCut found mark
  | shapeReference found new inner => exact .shapeReference found new (weaker inner)
  | any => exact .any
  | emptyShape => exact .emptyShape
  | shape inner => exact .shape (weaker inner)
  | and inner => exact .and (inner.mono weaker)
  | or inner => exact .or (inner.mono weaker)
  | not inner => exact .not (weaker inner)
  | notEach inner => exact .notEach (inner.mono weaker)
  | node written => exact .node written
  | external => exact .external
  | unsupportedShape => exact .unsupportedShape
  | tripleMissing missing => exact .tripleMissing missing
  | tripleCut found mark => exact .tripleCut found mark
  | tripleReference found new inner => exact .tripleReference found new (weaker inner)
  | arcToReference inner => exact .arcToReference (weaker inner)
  | arc => exact .arc
  | arcToNode named written => exact .arcToNode named written
  | nodeWithoutArc unnamed written => exact .nodeWithoutArc unnamed written
  | arcToInline inline inner => exact .arcToInline inline (weaker inner)
  | eachOf inner marked => exact .eachOf (inner.mono weaker) marked
  | oneOf inner marked => exact .oneOf (inner.mono weaker) marked
  | unsupportedTriple => exact .unsupportedTriple

/-- The least relation that keeps the rules. It is defined as the intersection
of all relations that do, and this gives induction over both kinds of
expressions at once. -/
def Visit (context : Context) : Outcomes := fun p item f q =>
  ∀ keeps : Outcomes, (∀ {p item f q}, Rule context keeps p item f q → keeps p item f q) →
    keeps p item f q

theorem Visit.intro {context : Context} {p q : Progress} {item : Item} {f : Fragment}
    (rule : Rule context (Visit context) p item f q) : Visit context p item f q := by
  intro keeps closed
  exact closed (rule.mono fun inner => inner keeps closed)

/-- Induction over visits: a rule may use that what is inside are visits with
the property. -/
theorem Visit.induct {context : Context} (property : Outcomes)
    (closed : ∀ {p item f q},
      Rule context (fun p item f q => Visit context p item f q ∧ property p item f q) p item f q →
        property p item f q)
    {p q : Progress} {item : Item} {f : Fragment} (visit : Visit context p item f q) :
    property p item f q := by
  refine (visit (fun p item f q => Visit context p item f q ∧ property p item f q) ?_).2
  intro p item f q rule
  exact ⟨.intro (rule.mono And.left), closed rule⟩

/-- What every step of a chain leaves as it was, the chain leaves as it was. -/
theorem Chain.keeps {α : Type} {step : Outcomes} (value : Progress → α)
    (each : ∀ {p item f q}, step p item f q → value q = value p) {p q : Progress}
    {items : List Item} {fs : List Fragment} (chain : Chain step p items fs q) :
    value q = value p := by
  induction chain with
  | nil => rfl
  | cons first _ ih => exact ih.trans (each first)

/-- A visit leaves what is being expanded as it was. -/
theorem Visit.expanding_eq {context : Context} {p q : Progress} {item : Item} {f : Fragment}
    (visit : Visit context p item f q) : q.expanding = p.expanding := by
  refine Visit.induct (fun p _ _ q => q.expanding = p.expanding) (fun {p item f q} rule => ?_) visit
  cases rule with
  | shapeReference found new inner =>
    rw [Progress.leaving, inner.2]
    exact List.erase_cons_head _ _
  | tripleReference found new inner =>
    rw [Progress.leaving, inner.2]
    exact List.erase_cons_head _ _
  | shape inner => exact inner.2
  | and inner => exact inner.keeps (·.expanding) And.right
  | or inner => exact inner.keeps (·.expanding) And.right
  | not inner => exact inner.2
  | notEach inner => exact inner.keeps (·.expanding) And.right
  | arcToReference inner => exact inner.2
  | arcToInline inline inner => exact inner.2
  | eachOf inner marked => exact inner.keeps (·.expanding) And.right
  | oneOf inner marked => exact inner.keeps (·.expanding) And.right
  | _ => rfl

/-- If no step gives a fresh variable back, the chain gives none back either. -/
theorem Chain.fresh_le {step : Outcomes}
    (each : ∀ {p item f q}, step p item f q → p.fresh ≤ q.fresh) {p q : Progress}
    {items : List Item} {fs : List Fragment} (chain : Chain step p items fs q) :
    p.fresh ≤ q.fresh := by
  induction chain with
  | nil => exact Nat.le_refl _
  | cons first _ ih => exact Nat.le_trans (each first) ih

/-- Fresh variables are only ever taken. -/
theorem Visit.fresh_le {context : Context} {p q : Progress} {item : Item} {f : Fragment}
    (visit : Visit context p item f q) : p.fresh ≤ q.fresh := by
  refine Visit.induct (fun p _ _ q => p.fresh ≤ q.fresh) (fun {p item f q} rule => ?_) visit
  cases rule with
  | shapeReference found new inner => exact inner.2
  | tripleReference found new inner => exact inner.2
  | shape inner => exact inner.2
  | and inner => exact inner.fresh_le And.right
  | or inner => exact inner.fresh_le And.right
  | not inner => exact inner.2
  | notEach inner => exact inner.fresh_le And.right
  | arcToReference inner => exact inner.2
  | arc => exact Nat.le_succ _
  | arcToNode named written => exact Nat.le_succ _
  | arcToInline inline inner => exact Nat.le_trans (Nat.le_succ _) inner.2
  | eachOf inner marked => exact inner.fresh_le And.right
  | oneOf inner marked => exact inner.fresh_le And.right
  | _ => exact Nat.le_refl _

theorem Visit.rule {context : Context} {p q : Progress} {item : Item} {f : Fragment}
    (visit : Visit context p item f q) : Rule context (Visit context) p item f q :=
  Visit.induct (Rule context (Visit context)) (fun rule => rule.mono And.left) visit

/-- Without a focus, a referenced shape is about its own variable. -/
theorem Visit.reference_focus {context : Context} {p q : Progress} {label : String} {f : Fragment}
    (visit : Visit context p (.shape none (.reference label)) f q) :
    Visit context p (.shape (some (stableVariable label)) (.reference label)) f q := by
  cases visit.rule with
  | shapeMissing missing => exact .intro (.shapeMissing missing)
  | shapeCut found mark => exact .intro (.shapeCut found mark)
  | shapeReference found new inner => exact .intro (.shapeReference found new inner)

/-- The loose lines of a shape expression are those of one node constraint, and
then there is nothing else. -/
theorem Visit.shape_loose {context : Context} {p q : Progress} {focus : Focus} {expr : ShapeExpr}
    {f : Fragment} (visit : Visit context p (.shape focus expr) f q) :
    f.loose = [] ∨ (f.group = {} ∧ ∃ nc var, constraintLines nc var = .ok f.loose) := by
  have general := Visit.induct
    (fun _ item f _ => ∀ focus expr, item = .shape focus expr →
      f.loose = [] ∨ (f.group = {} ∧ ∃ nc var, constraintLines nc var = .ok f.loose))
    (fun {p item f q} rule => ?_) visit
  · exact general focus expr rfl
  · rintro focus expr rfl
    cases rule with
    | shapeReference found new inner => exact inner.2 _ _ rfl
    | node written => exact Or.inr ⟨rfl, _, _, written⟩
    | _ => exact Or.inl rfl

theorem bind_ok {α β : Type} {walk : Walk α} {next : α → Walk β} {p q : Progress} {result : β}
    (success : (walk >>= next) p = .ok result q) :
    ∃ value middle, walk p = .ok value middle ∧ next value middle = .ok result q := by
  simp only [Bind.bind, EStateM.bind] at success
  cases outcome : walk p with
  | ok value middle =>
    rw [outcome] at success
    exact ⟨value, middle, rfl, success⟩
  | error fault middle =>
    rw [outcome] at success
    cases success

theorem use_ok {α : Type} {checked : Checked α} {p q : Progress} {result : α}
    (success : Walk.use checked p = .ok result q) : checked = .ok result ∧ p = q := by
  cases checked with
  | ok value =>
    cases success
    exact ⟨rfl, rfl⟩
  | error misuse => cases success

theorem whileExpanding_ok {α : Type} {target : Target} {walk : Walk α} {p q : Progress} {result : α}
    (success : Walk.whileExpanding target walk p = .ok result q) :
    ∃ middle, walk (p.entering target) = .ok result middle ∧ q = middle.leaving target := by
  simp only [Walk.whileExpanding] at success
  cases outcome : walk { p with expanding := target :: p.expanding } with
  | ok value middle =>
    rw [outcome] at success
    cases success
    exact ⟨middle, outcome, rfl⟩
  | error fault middle =>
    rw [outcome] at success
    cases success

/-- The lines of a node constraint, and whether a fresh variable was taken for them. -/
theorem nodeLines_ok {nc : NodeConstraint} {subject : String} {predicate : Json} {inverse : Bool}
    {p q : Progress} {lines : List String}
    (success : nodeLines nc subject predicate inverse p = .ok lines q) :
    (predicate.isNull = true ∧ constraintLines nc subject = .ok lines ∧ p = q) ∨
    (predicate.isNull = false ∧ q = p.counting ∧ ∃ others,
      constraintLines nc (freshVariable p.fresh) = .ok others ∧
      lines = triplePattern subject predicate.display (freshVariable p.fresh) inverse ::
        others) := by
  unfold nodeLines at success
  split at success
  · next unnamed =>
    obtain ⟨written, same⟩ := use_ok success
    exact Or.inl ⟨unnamed, written, same⟩
  · next named =>
    obtain ⟨object, middle, taken, success⟩ := bind_ok success
    cases taken
    obtain ⟨others, after, used, success⟩ := bind_ok success
    obtain ⟨written, rfl⟩ := use_ok used
    cases success
    exact Or.inr ⟨by simpa using named, rfl, others, written, rfl⟩

structure LinksVisit (context : Context) (links : Links) : Prop where
  shape : ∀ {label focus p f q}, links.shape label focus p = .ok f q →
    Visit context p (.shape focus (.reference label)) f q
  tripleExpr : ∀ {label subject p f q}, links.tripleExpr label subject p = .ok f q →
    Visit context p (.triple subject (.reference label)) f q

section Expressions

variable {context : Context} {links : Links}

mutual

/-- A run over a shape expression that succeeds is a visit of it. Induction on
the expression, together with triple expressions and lists of both. -/
theorem shapeFragment_visit (follow : LinksVisit context links) {focus : Focus} {p q : Progress}
    {f : Fragment} : ∀ {expr : ShapeExpr}, shapeFragment links focus expr p = .ok f q →
      Visit context p (.shape focus expr) f q
  | .reference label, success => by
    rw [shapeFragment] at success
    exact follow.shape success
  | .any, success => by
    rw [shapeFragment] at success
    cases success
    exact .intro .any
  | .shape none _ _, success => by
    rw [shapeFragment] at success
    cases success
    exact .intro .emptyShape
  | .shape (some expression) _ _, success => by
    rw [shapeFragment] at success
    obtain ⟨inner, middle, visited, success⟩ := bind_ok success
    cases success
    exact .intro (.shape (tripleFragment_visit follow visited))
  | .and operands, success => by
    rw [shapeFragment] at success
    obtain ⟨group, middle, gathered, success⟩ := bind_ok success
    cases success
    obtain ⟨fs, chain, rfl⟩ := gatherShapes_visit follow gathered
    exact .intro (.and chain)
  | .or operands, success => by
    rw [shapeFragment] at success
    obtain ⟨alternatives, middle, gathered, success⟩ := bind_ok success
    cases success
    obtain ⟨fs, chain, rfl⟩ := gatherAlternatives_visit follow gathered
    exact .intro (.or chain)
  | .not operand, success => by
    rw [shapeFragment] at success
    obtain ⟨inner, middle, visited, success⟩ := bind_ok success
    cases success
    exact .intro (.not (shapeFragment_visit follow visited))
  | .notEach operands, success => by
    rw [shapeFragment] at success
    obtain ⟨group, middle, gathered, success⟩ := bind_ok success
    cases success
    obtain ⟨fs, chain, rfl⟩ := gatherShapes_visit follow gathered
    exact .intro (.notEach chain)
  | .node nc, success => by
    rw [shapeFragment] at success
    obtain ⟨lines, middle, listed, success⟩ := bind_ok success
    cases success
    obtain ⟨-, written, rfl⟩ | ⟨named, -⟩ := nodeLines_ok listed
    · exact .intro (.node written)
    · cases named
  | .external, success => by
    rw [shapeFragment] at success
    cases success
    exact .intro .external
  | .unsupported typeName, success => by
    rw [shapeFragment] at success
    cases success
    exact .intro .unsupportedShape

theorem gatherShapes_visit (follow : LinksVisit context links) {focus : Focus} {p q : Progress}
    {group result : Group} : ∀ {operands : List ShapeExpr},
      gatherShapes links focus group operands p = .ok result q →
      ∃ fs, Chain (Visit context) p (operands.map (.shape focus)) fs q ∧ result = collect group fs
  | [], success => by
    rw [gatherShapes] at success
    cases success
    exact ⟨[], .nil, rfl⟩
  | operand :: rest, success => by
    rw [gatherShapes] at success
    obtain ⟨inner, middle, visited, success⟩ := bind_ok success
    obtain ⟨fs, chain, rfl⟩ := gatherShapes_visit follow success
    exact ⟨inner :: fs, .cons (shapeFragment_visit follow visited) chain, rfl⟩

/-- A run over the operands of a disjunction is a chain of visits, and the
alternatives are added one after the other. -/
theorem gatherAlternatives_visit (follow : LinksVisit context links) {focus : Focus}
    {p q : Progress} {alternatives result : Alternatives} :
    ∀ {operands : List ShapeExpr}, gatherAlternatives links focus alternatives operands p =
      .ok result q → ∃ fs, Chain (Visit context) p (operands.map (.shape focus)) fs q ∧
      result = fs.foldl Alternatives.add alternatives
  | [], success => by
    rw [gatherAlternatives] at success
    cases success
    exact ⟨[], .nil, rfl⟩
  | operand :: rest, success => by
    rw [gatherAlternatives] at success
    obtain ⟨inner, middle, visited, success⟩ := bind_ok success
    obtain ⟨fs, chain, rfl⟩ := gatherAlternatives_visit follow success
    exact ⟨inner :: fs, .cons (shapeFragment_visit follow visited) chain, rfl⟩

/-- A run over a triple expression that succeeds is a visit of it, in the same
induction. -/
theorem tripleFragment_visit (follow : LinksVisit context links) {subject : String} {p q : Progress}
    {f : Fragment} : ∀ {expr : TripleExpr}, tripleFragment links subject expr p = .ok f q →
      Visit context p (.triple subject expr) f q
  | .reference label, success => by
    rw [tripleFragment] at success
    exact follow.tripleExpr success
  | .constraint predicate inverse value bounds id, success => by
    unfold tripleFragment at success
    have nested : ∀ {object : String} {p q : Progress} {f : Fragment},
        shapeFragment links (some object) value p = .ok f q →
          Visit context p (.shape (some object) value) f q :=
      fun visited => shapeFragment_visit follow visited
    cases value with
    | reference label =>
      obtain ⟨described, middle, visited, success⟩ := bind_ok success
      cases success
      exact .intro (.arcToReference (follow.shape visited))
    | any =>
      cases success
      exact .intro .arc
    | node nc =>
      obtain ⟨lines, middle, listed, success⟩ := bind_ok success
      cases success
      obtain ⟨unnamed, written, rfl⟩ | ⟨named, rfl, others, written, rfl⟩ := nodeLines_ok listed
      · exact .intro (.nodeWithoutArc unnamed written)
      · exact .intro (.arcToNode named written)
    | _ =>
      obtain ⟨object, middle, taken, success⟩ := bind_ok success
      cases taken
      obtain ⟨described, after, visited, success⟩ := bind_ok success
      cases success
      exact .intro (.arcToInline rfl (nested visited))
  | .eachOf operands bounds id, success => by
    rw [tripleFragment] at success
    obtain ⟨group, middle, gathered, success⟩ := bind_ok success
    obtain ⟨fs, chain, rfl⟩ := gatherTriples_visit follow gathered
    obtain ⟨clause, after, used, success⟩ := bind_ok success
    obtain ⟨marked, rfl⟩ := use_ok used
    cases success
    exact .intro (.eachOf chain marked)
  | .oneOf operands bounds id, success => by
    rw [tripleFragment] at success
    obtain ⟨group, middle, gathered, success⟩ := bind_ok success
    obtain ⟨fs, chain, rfl⟩ := gatherBranches_visit follow gathered
    obtain ⟨clause, after, used, success⟩ := bind_ok success
    obtain ⟨marked, rfl⟩ := use_ok used
    cases success
    exact .intro (.oneOf chain marked)
  | .unsupported typeName, success => by
    rw [tripleFragment] at success
    cases success
    exact .intro .unsupportedTriple

theorem gatherTriples_visit (follow : LinksVisit context links) {subject : String}
    {p q : Progress} {group result : Group} :
    ∀ {operands : List TripleExpr}, gatherTriples links subject group operands p = .ok result q →
      ∃ fs, Chain (Visit context) p (operands.map (.triple subject)) fs q ∧
      result = collect group fs
  | [], success => by
    rw [gatherTriples] at success
    cases success
    exact ⟨[], .nil, rfl⟩
  | operand :: rest, success => by
    rw [gatherTriples] at success
    obtain ⟨inner, middle, visited, success⟩ := bind_ok success
    obtain ⟨fs, chain, rfl⟩ := gatherTriples_visit follow success
    exact ⟨inner :: fs, .cons (tripleFragment_visit follow visited) chain, rfl⟩

/-- A run over the operands of a choice is a chain of visits, whose fragments
become branches. -/
theorem gatherBranches_visit (follow : LinksVisit context links) {subject : String}
    {p q : Progress} {group result : Group} :
    ∀ {operands : List TripleExpr}, gatherBranches links subject group operands p = .ok result q →
      ∃ fs, Chain (Visit context) p (operands.map (.triple subject)) fs q ∧
      result = branches group fs
  | [], success => by
    rw [gatherBranches] at success
    cases success
    exact ⟨[], .nil, rfl⟩
  | operand :: rest, success => by
    rw [gatherBranches] at success
    obtain ⟨inner, middle, visited, success⟩ := bind_ok success
    obtain ⟨fs, chain, rfl⟩ := gatherBranches_visit follow success
    exact ⟨inner :: fs, .cons (tripleFragment_visit follow visited) chain, rfl⟩

end

end Expressions

/-- A guarded step that succeeds was cut off, or had depth left and expanded a
new target. -/
theorem guarded_ok {target : Target} {cut : Diagnostic} {body : Nat → Walk Fragment} {depth : Nat}
    {p q : Progress} {f : Fragment} (success : guarded target cut body depth p = .ok f q) :
    (target ∈ p.expanding ∧ f = {} ∧ q = p.noting cut) ∨
    (target ∉ p.expanding ∧ ∃ below middle, depth = below + 1 ∧
      body below (p.entering target) = .ok f middle ∧ q = middle.leaving target) := by
  by_cases mark : target ∈ p.expanding
  · rw [guarded_of_mem cut body depth mark] at success
    cases success
    exact Or.inl ⟨mark, rfl, rfl⟩
  · cases depth with
    | zero =>
      rw [guarded_zero cut body mark] at success
      cases success
    | succ below =>
      rw [guarded_of_not_mem cut body below mark] at success
      obtain ⟨middle, visited, rfl⟩ := whileExpanding_ok success
      exact Or.inr ⟨mark, below, middle, rfl, visited, rfl⟩

/-- Following references gives visits at every depth. Induction on the depth. -/
theorem linksTo_visit (context : Context) (depth : Nat) :
    LinksVisit context (context.linksTo depth) := by
  induction depth using Nat.strongRecOn with
  | ind depth ih =>
    refine ⟨fun {label focus p f q} success => ?_, fun {label subject p f q} success => ?_⟩
    · simp only [Context.linksTo, expandShape_eq] at success
      cases found : context.schema.find? label with
      | none =>
        rw [found] at success
        cases success
        exact .intro (.shapeMissing found)
      | some decl =>
        rw [found] at success
        obtain ⟨mark, rfl, rfl⟩ | ⟨new, below, middle, rfl, visited, rfl⟩ := guarded_ok success
        · exact .intro (.shapeCut found mark)
        · exact .intro (.shapeReference found new
            (shapeFragment_visit (ih below (Nat.lt_succ_self below)) visited))
    · simp only [Context.linksTo, expandTripleExpr_eq] at success
      cases found : context.labels.lookup label with
      | none =>
        rw [found] at success
        cases success
        exact .intro (.tripleMissing found)
      | some target =>
        rw [found] at success
        obtain ⟨mark, rfl, rfl⟩ | ⟨new, below, middle, rfl, visited, rfl⟩ := guarded_ok success
        · exact .intro (.tripleCut found mark)
        · exact .intro (.tripleReference found new
            (tripleFragment_visit (ih below (Nat.lt_succ_self below)) visited))

end ShapeQuery.Compile
