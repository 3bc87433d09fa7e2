import ShapeQuery.Compact.Reader

/-!
A logic of readers. What is said of readers has one form: from the cursors with a
property, two readers do the same, and what they come to is as expected from there. The
rules for sequences, choices and loops are proved for this form. With the same reader
twice it says what a reader returns.
-/
namespace ShapeQuery.Compact

/-- From the cursors with a property two readers do the same, and come to what
is expected there. -/
def Runs {α : Type} (start : Cursor → Prop) (expected : Cursor → Except Fault (α × Cursor) → Prop)
    (scan other : Scan α) : Prop :=
  ∀ c, start c → scan c = other c ∧ expected c (scan c)

namespace Runs

variable {α β : Type} {start : Cursor → Prop} {scan other yes yesOther no noOther : Scan α}
  {next nextOther : α → Scan β} {middle expected : Cursor → Except Fault (α × Cursor) → Prop}
  {final : Cursor → Except Fault (β × Cursor) → Prop}

/-- Readers that return at once come to what is expected of the result where
they stand. -/
theorem pure {result : α} (holds : ∀ c, start c → expected c (.ok (result, c))) :
    Runs start expected (Pure.pure result) (Pure.pure result) :=
  fun c here => ⟨rfl, holds c here⟩

theorem throw {fault : Fault} (holds : ∀ c, start c → expected c (.error fault)) :
    Runs start expected (MonadExcept.throw fault : Scan α) (MonadExcept.throw fault) :=
  fun c here => ⟨rfl, holds c here⟩

theorem fail {problem : Problem} (holds : ∀ c, start c → expected c (.error (c.fault problem))) :
    Runs start expected (Scan.fail problem : Scan α) (Scan.fail problem) :=
  fun c here => ⟨rfl, holds c here⟩

/-- A check moves no cursor. Both readers fail with it or go on with its result. -/
theorem lift {checked : Except Fault α}
    (fails : ∀ c fault, start c → checked = .error fault → expected c (.error fault))
    (holds : ∀ c result, start c → checked = .ok result → expected c (.ok (result, c))) :
    Runs start expected (liftM checked : Scan α) (liftM checked) := by
  cases checked with
  | error fault => exact .throw fun c here => fails c fault here rfl
  | ok result => exact .pure fun c here => holds c result here rfl

/-- In a sequence the second readers go on where the first ones return; where
these fail, so does the sequence. -/
theorem bind (first : Runs start middle scan other)
    (fails : ∀ c fault, start c → middle c (.error fault) → final c (.error fault))
    (second : ∀ c result c', start c → middle c (.ok (result, c')) →
      next result c' = nextOther result c' ∧ final c (next result c')) :
    Runs start final (scan >>= next) (other >>= nextOther) := by
  intro c here
  obtain ⟨agree, met⟩ := first c here
  simp only [Bind.bind, StateT.bind, Except.bind, ← agree]
  cases outcome : scan c with
  | error fault =>
    rw [outcome] at met
    exact ⟨rfl, fails c fault here met⟩
  | ok pair =>
    rw [outcome] at met
    exact second c pair.1 pair.2 here met

theorem ite {condition : Prop} [Decidable condition]
    (holds : condition → Runs start expected yes yesOther)
    (fails : ¬ condition → Runs start expected no noOther) :
    Runs start expected (if condition then yes else no) (if condition then yesOther
      else noOther) := by
  split
  · next yes => exact holds yes
  · next no => exact fails no

end Runs

/-- A loop whose rounds are bounded. A round is told by what stands for the
rounds that follow it. -/
structure Loop (σ α : Type) where
  run : Nat → σ → Scan α
  round : Nat → (σ → Scan α) → σ → Scan α
  last : ∀ state, run 0 state = MonadExcept.throw .outOfBound
  turn : ∀ bound state, run (bound + 1) state = round bound (run bound) state

/-! ### What readers return -/

/-- From a cursor with a property a reader gets to such a cursor, and what it
returns is good. -/
def Yields {α : Type} (kept : Cursor → Prop) (good : α → Prop) (scan : Scan α) : Prop :=
  Runs kept (fun _ outcome => ∀ result c, outcome = .ok (result, c) →
    kept c ∧ good result) scan scan

namespace Yields

variable {α β : Type} {kept : Cursor → Prop} {good : α → Prop} {fine : β → Prop}
  {scan yes no : Scan α} {following : α → Scan β}

theorem of_ok (yields : Yields kept good scan) {c c' : Cursor} {result : α} (here : kept c)
    (read : scan c = .ok (result, c')) : kept c' ∧ good result :=
  (yields c here).2 result c' read

theorem pure {result : α} (holds : good result) : Yields kept good (Pure.pure result) := by
  refine Runs.pure fun c here value c' same => ?_
  cases same
  exact ⟨here, holds⟩

theorem throw (fault : Fault) : Yields kept good (MonadExcept.throw fault : Scan α) :=
  Runs.throw fun _ _ => nofun

theorem fail (problem : Problem) : Yields kept good (Scan.fail problem : Scan α) :=
  Runs.fail fun _ _ => nofun

theorem lift {checked : Except Fault α} (holds : ∀ result, checked = .ok result → good result) :
    Yields kept good (liftM checked : Scan α) := by
  refine Runs.lift (fun _ _ _ _ => nofun) fun c result here done value c' same => ?_
  cases same
  exact ⟨here, holds result done⟩

theorem mono {better : α → Prop} (yields : Yields kept good scan)
    (weaker : ∀ result, good result → better result) : Yields kept better scan := by
  intro c here
  refine ⟨rfl, fun result c' read => ?_⟩
  obtain ⟨still, holds⟩ := yields.of_ok here read
  exact ⟨still, weaker result holds⟩

theorem bind (first : Yields kept good scan)
    (second : ∀ result, good result → Yields kept fine (following result)) :
    Yields kept fine (scan >>= following) := by
  refine Runs.bind first (fun _ _ _ _ => nofun) fun c result c' here met => ?_
  obtain ⟨still, holds⟩ := met result c' rfl
  exact second result holds c' still

theorem after (first : Yields kept good scan)
    (second : ∀ result, Yields kept fine (following result)) :
    Yields kept fine (scan >>= following) :=
  .bind first fun result _ => second result

theorem any (scan : Scan α) : Yields (fun _ => True) (fun _ => True) scan :=
  fun _ _ => ⟨rfl, fun _ _ _ => ⟨trivial, trivial⟩⟩

theorem next (second : ∀ result, Yields (fun _ => True) fine (following result)) :
    Yields (fun _ => True) fine (scan >>= following) :=
  .after (.any scan) second

theorem ite {condition : Prop} [Decidable condition] (holds : condition → Yields kept good yes)
    (fails : ¬ condition → Yields kept good no) :
    Yields kept good (if condition then yes else no) :=
  Runs.ite holds fails

/-- A loop returns what is good if a round does, whatever stands for the rounds
that follow. What is good may depend on the state. -/
theorem loop {σ : Type} (loop : Loop σ α) (fit : σ → Prop) (good : σ → α → Prop)
    (step : ∀ bound {again : σ → Scan α},
      (∀ state, fit state → Yields kept (good state) (again state)) → ∀ state, fit state →
      Yields kept (good state) (loop.round bound again state)) (bound : Nat) :
    ∀ state, fit state → Yields kept (good state) (loop.run bound state) := by
  induction bound with
  | zero =>
    intro state _
    rw [loop.last]
    exact .throw _
  | succ bound ih =>
    intro state fits
    rw [loop.turn]
    exact step bound ih state fits

end Yields

/-! ### The loops of the syntax -/

namespace Scan

/-- One round of reading operands; `again` reads those that follow. -/
def operandsRound {α : Type} (separator : Scan Bool) (operand : Scan α) (again : Scan (List α)) :
    Scan (List α) := do
  if ← separator then
    let first ← operand
    let others ← again
    return first :: others
  else
    return []

/-- A loop with a bound above zero makes one round, and stands for the rounds
behind it with a smaller bound. -/
theorem operandsAfter_succ {α : Type} (separator : Scan Bool) (operand : Scan α) (bound : Nat) :
    operandsAfter separator operand (bound + 1) =
      operandsRound separator operand (operandsAfter separator operand bound) := rfl

def operandsLoop {α : Type} (separator : Scan Bool) (operand : Scan α) : Loop Unit (List α) where
  run bound _ := operandsAfter separator operand bound
  round _ again _ := operandsRound separator operand (again ())
  last _ := rfl
  turn _ _ := rfl

/-- Exclusions are operands behind hyphens, so what is known of operands holds
of them. -/
theorem exclusions_eq (names : Names) (kind : StemKind) (bound : Nat) :
    exclusions names kind bound = operandsAfter (tryText "-") (exclusion names kind) bound := by
  induction bound with
  | zero => rfl
  | succ bound ih => rw [exclusions, ih, operandsAfter]

/-- One round of reading the entries of a value set; `again` reads those that follow. -/
def entriesRound (names : Names) (bound : Nat) (again : Scan (List ValueSetEntry)) :
    Scan (List ValueSetEntry) := do
  if ← tryText "]" then
    return []
  else if ← atEnd then
    fail .unterminatedValueSet
  else
    let first ← entry names bound
    let others ← again
    return first :: others

theorem entries_succ (names : Names) (bound : Nat) :
    entries names (bound + 1) = entriesRound names bound (entries names bound) := rfl

def entriesLoop (names : Names) : Loop Unit (List ValueSetEntry) where
  run bound _ := entries names bound
  round bound again _ := entriesRound names bound (again ())
  last _ := rfl
  turn _ _ := rfl

def facetsRound (again : NodeConstraint → Bool → Scan (NodeConstraint × Bool)) (nc : NodeConstraint)
    (found : Bool) : Scan (NodeConstraint × Bool) := do
  match ← facet? nc with
  | some nc => again nc true
  | none => return (nc, found)

def facetsLoop : Loop (NodeConstraint × Bool) (NodeConstraint × Bool) where
  run bound state := facets state.1 state.2 bound
  round _ again state := facetsRound (fun nc found => again (nc, found)) state.1 state.2
  last _ := rfl
  turn _ _ := rfl

def extraRound (names : Names) (again : Scan (List Json)) : Scan (List Json) := do
  if ← atExtraPredicate then
    let first ← predicate names
    let others ← again
    return .string first :: others
  else
    return []

def extraLoop (names : Names) : Loop Unit (List Json) where
  run bound _ := extraPredicates names bound
  round _ again _ := extraRound names (again ())
  last _ := rfl
  turn _ _ := rfl

/-- One round of reading what stands before the braces of a shape; `again`
reads what follows. -/
def headRound (names : Names) (bound : Nat) (again : Scan (List Json × Bool)) :
    Scan (List Json × Bool) := do
  if ← tryKeyword "EXTRA" then
    let first ← extraPredicates names bound
    let (others, closed) ← again
    return (first ++ others, closed)
  else if ← tryKeyword "CLOSED" then
    let (extra, _) ← again
    return (extra, true)
  else
    return ([], false)

theorem shapeHead_succ (names : Names) (bound : Nat) :
    shapeHead names (bound + 1) = headRound names bound (shapeHead names bound) := rfl

def headLoop (names : Names) : Loop Unit (List Json × Bool) where
  run bound _ := shapeHead names bound
  round bound again _ := headRound names bound (again ())
  last _ := rfl
  turn _ _ := rfl

theorem operandsAfter_yields {α : Type} {kept : Cursor → Prop} {good : α → Prop}
    {separator : Scan Bool} {operand : Scan α} (next : Yields kept (fun _ => True) separator)
    (each : Yields kept good operand) (bound : Nat) :
    Yields kept (fun found => ∀ expr ∈ found, good expr)
      (operandsAfter separator operand bound) := by
  refine Yields.loop (operandsLoop separator operand) (fun _ => True)
    (fun _ found => ∀ expr ∈ found, good expr) (fun _ _ rest _ _ => ?_) bound () trivial
  refine .after next fun more => .ite (fun _ => ?_) fun _ => .pure (List.forall_mem_nil _)
  refine .bind each fun first here => .bind (rest () trivial) fun others all => .pure ?_
  exact List.forall_mem_cons.mpr ⟨here, all⟩

end Scan

/-- One round of reading statements; `again` reads those that follow. -/
def statementsRound (bound : Nat) (again : Progress → Scan Schema) (progress : Progress) :
    Scan Schema := do
  if ← Scan.atEnd then
    return progress.schema
  else
    again (← statement bound progress)

theorem statements_succ (bound left : Nat) (progress : Progress) :
    statements bound (left + 1) progress =
      statementsRound bound (statements bound left) progress := rfl

def statementsLoop (bound : Nat) : Loop Progress Schema where
  run := statements bound
  round _ := statementsRound bound
  last _ := rfl
  turn := statements_succ bound

end ShapeQuery.Compact
