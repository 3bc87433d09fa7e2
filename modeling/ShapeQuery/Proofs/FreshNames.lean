import ShapeQuery.Proofs.References
import ShapeQuery.Proofs.SchemaTexts

/-!
Walks that start with another number for the next fresh variable. If no string of the schema has the
mark of fresh variables in it, such a walk finds the same problems, takes as many fresh variables,
and its texts differ in the numbers of the fresh variables only.
-/
namespace ShapeQuery.Compile

/-! ### Variables of shapes -/

/-- The name of a shape has word characters only, as a digest is written in
hexadecimal. -/
theorem isWord_of_mem_stableName (label : String) :
    ∀ c ∈ (stableName label).toList, Text.isWord c = true := by
  have letters : "shape_".toList.all Text.isWord = true := by decide
  intro c member
  simp only [stableName, String.toList_append, String.toList_ofList, List.mem_append] at member
  rcases member with letter | digit
  · exact List.all_eq_true.mp letters c letter
  · obtain ⟨word, -, inWord⟩ := List.mem_flatMap.mp digit
    obtain ⟨byte, -, inByte⟩ := List.mem_flatMap.mp inWord
    exact isWord_of_mem_hexDigits _ _ c inByte

theorem mark_not_mem_stableName (label : String) : '?' ∉ (stableName label).toList :=
  fun member => ne_mark_of_isWord (isWord_of_mem_stableName label '?' member) rfl

theorem stableName_cons (label : String) : ∃ tail, (stableName label).toList = 's' :: tail :=
  ⟨_, String.toList_append⟩

theorem stableVariable_toList (label : String) :
    (stableVariable label).toList = '?' :: (stableName label).toList := by
  rw [stableVariable, String.toList_append]
  rfl

/-- A variable that was allocated for a shape or for an arc. -/
def IsNamed (var : String) : Prop :=
  ∃ name, var.toList = '?' :: name ∧ ∀ c ∈ name, Text.isWord c = true

/-- The variable of a shape is a question mark and a name of word
characters. -/
theorem isNamed_stable (label : String) : IsNamed (stableVariable label) :=
  ⟨_, stableVariable_toList label, isWord_of_mem_stableName label⟩

theorem isNamed_fresh (number : Nat) : IsNamed (freshVariable number) :=
  ⟨_, by simp [freshVariable], isWord_of_mem_freshName number⟩

theorem IsNamed.isVariable {var : String} (named : IsNamed var) : IsVariable var := by
  obtain ⟨name, same, -⟩ := named
  exact ⟨String.ofList name, String.toList_inj.mp (by simp [same])⟩

/-- The mark of fresh variables does not occur in the variable of a shape. -/
theorem unmarked_stableVariable (label : String) : Unmarked (stableVariable label).toList := by
  intro inside
  rw [stableVariable_toList] at inside
  rcases List.infix_cons_iff.mp inside with start | later
  · obtain ⟨tail, named⟩ := stableName_cons label
    rw [named] at start
    have second := (List.cons_prefix_cons.mp (List.cons_prefix_cons.mp start).2).1
    revert second
    decide
  · exact mark_not_mem_stableName label (later.subset (by decide))

/-! ### Numbering from another number on -/

/-- The next fresh variable has a number that is larger by a base, and so have
those in texts. -/
def numberedFrom (base : Nat) : Change where
  admits _ := True
  state p := { p with fresh := base + p.fresh }
  text := renameFresh (base + ·)
  noting _ _ := ⟨trivial, rfl⟩
  counting {p} _ := ⟨trivial, rfl, renameFresh_fresh (base + ·) p.fresh⟩
  stable label := renameFresh_unmarked (unmarked_stableVariable label) _
  absent := renameFresh_plain (by decide) _
  empty := renameFresh_eq_empty _
  filter := isFilter_renameFresh _
  merge connective filtering := renameFresh_mergeFilters connective filtering _

variable {base : Nat}

/-- The guard treats walks alike that are numbered from different numbers on. -/
theorem carries_guarded_numberedFrom {target : Target} {cut : Diagnostic}
    {body other : Nat → Walk Fragment} {depth : Nat}
    (inner : ∀ below < depth, (numberedFrom base).Carries (fun _ => True)
      (numberedFrom base).fragment (body below) (other below)) :
    (numberedFrom base).Carries (fun _ => True) (numberedFrom base).fragment
      (guarded target cut body depth) (guarded target cut other depth) := by
  intro p _
  have same : ((numberedFrom base).state p).expanding = p.expanding := rfl
  by_cases mark : target ∈ p.expanding
  · rw [guarded_of_mem cut body depth mark, guarded_of_mem cut other depth (same ▸ mark)]
    refine ⟨trivial, trivial, ?_⟩
    rw [Change.fragment, Change.mapText_clause_only]
    rfl
  · cases depth with
    | zero =>
      rw [guarded_zero cut body mark, guarded_zero cut other (same ▸ mark)]
      exact ⟨trivial, rfl⟩
    | succ depth =>
      rw [guarded_of_not_mem cut body depth mark, guarded_of_not_mem cut other depth (same ▸ mark)]
      have here := inner depth (Nat.lt_succ_self depth) (p.entering target) trivial
      have entered : (numberedFrom base).state (p.entering target) =
          { (numberedFrom base).state p with
            expanding := target :: ((numberedFrom base).state p).expanding } := rfl
      rw [entered] at here
      unfold Progress.entering at here
      unfold Walk.whileExpanding
      cases outcome : body depth { p with expanding := target :: p.expanding } with
      | ok f q =>
        rw [outcome] at here
        simp only [here.2.2]
        exact ⟨trivial, trivial, rfl⟩
      | error fault q =>
        rw [outcome] at here
        simp only [here.2]
        exact ⟨trivial, rfl⟩

section Schemas

variable {schema : Schema} {context : Context}

/-- References are followed alike. The induction is on the depth, of which a
reference takes one level. -/
theorem numberedFrom_keeps_reference (base : Nat) (built : Context.ofSchema schema = .ok context)
    (unmarked : ∀ leaf ∈ schema.leaves, AllUnmarked leaf.strings) (depth : Nat) :
    ∀ target, (numberedFrom base).Keeps (context.linksTo depth) (context.linksTo depth)
      (.reference target) := by
  induction depth using Nat.strongRecOn with
  | ind depth ih =>
    have step : ∀ below < depth, ∀ {target leaves}, context.resolve target = some leaves →
        ∀ leaf ∈ leaves, (numberedFrom base).Keeps (context.linksTo below) (context.linksTo below)
          leaf := by
      intro below less target leaves found leaf member
      have texts := unmarked leaf (Context.mem_leaves_of_resolve built found leaf member)
      cases leaf with
      | reference next => exact ih below less next
      | predicate name => exact triplePattern_renameFresh (base + ·) texts
      | node nc => exact constraintLines_renameFresh (base + ·) texts
      | _ => trivial
    intro target
    cases target with
    | shape label =>
      intro focus
      simp only [Context.linksTo, expandShape_eq]
      cases found : context.schema.find? label with
      | none => exact .nothing _
      | some decl =>
        refine carries_guarded_numberedFrom fun below less => ?_
        have walked := Change.carries_shapeFragment (some (focus.getD (stableVariable label)))
          (step below less (context.resolve_decl found))
        -- Without a focus, the shape is about its own variable, and that one stays.
        have sameFocus : (some (focus.getD (stableVariable label))).map (numberedFrom base).text =
            some ((focus.map (numberedFrom base).text).getD (stableVariable label)) := by
          cases focus with
          | none => exact congrArg some ((numberedFrom base).stable label)
          | some term => rfl
        rw [sameFocus] at walked
        exact walked
    | tripleExpr label =>
      intro subject
      simp only [Context.linksTo, expandTripleExpr_eq]
      cases found : context.labels.lookup label with
      | none => exact .nothing _
      | some expr =>
        exact carries_guarded_numberedFrom fun below less =>
          Change.carries_tripleFragment subject (step below less (context.resolve_label found))

theorem numberedFrom_refuseStart (context : Context) :
    (numberedFrom base).Carries (fun _ => True) id context.refuseStart context.refuseStart := by
  unfold Context.refuseStart
  split
  · split_ifs
    · exact .stop _
    · exact .report _
  · exact .report _

/-- Finding the start takes no fresh variable, so it does not depend on their
numbers. -/
theorem numberedFrom_findStart (context : Context) :
    (numberedFrom base).Carries (fun _ => True) id context.findStart context.findStart := by
  unfold Context.findStart
  split
  · exact .bind (numberedFrom_refuseStart context) fun _ _ => .pure trivial rfl
  · split
    · exact .bind (.report _) fun _ _ => .pure trivial rfl
    · exact .pure trivial rfl

theorem numberedFrom_startShape (context : Context) :
    (numberedFrom base).Carries (fun _ => True) id context.startShape context.startShape := by
  have found : (numberedFrom base).Carries (fun _ => True) id context.findStart context.findStart :=
    numberedFrom_findStart context
  unfold Context.startShape
  split_ifs
  · exact found
  · exact .bind (.report _) fun _ _ => found

/-- The group of the start shape is the same up to the numbers of fresh
variables. -/
theorem numberedFrom_startGroup (base : Nat) (built : Context.ofSchema schema = .ok context)
    (unmarked : ∀ leaf ∈ schema.leaves, AllUnmarked leaf.strings) :
    (numberedFrom base).Carries (fun _ => True) (Option.map (·.mapText (renameFresh (base + ·))))
      context.startGroup context.startGroup := by
  unfold Context.startGroup
  refine .bind (numberedFrom_startShape context) fun found _ => ?_
  cases found with
  | none => exact .pure trivial rfl
  | some found =>
    have kept := numberedFrom_keeps_reference base built unmarked context.targetCount
      (.shape found.1) none
    refine .bind kept fun f _ => .pure trivial ?_
    rw [Option.map_some, Group.mapText_addLines]
    rfl

end Schemas

end ShapeQuery.Compile
