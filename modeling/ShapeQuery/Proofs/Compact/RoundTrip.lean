import ShapeQuery.Proofs.Compact.TripleReading

/-!
A schema that is written in the compact syntax and read again is the same schema.
The readers recurse with a bound, so what is said of them holds as long as the bound
is more than the words to read.
-/
namespace ShapeQuery.Compact

namespace Scan

/-! ### Bounds -/

/-- A bound above zero is handed on, one smaller, to the readers of nested
expressions. -/
theorem shapeExpr_succ (bound : Nat) :
    shapeExpr {} (bound + 1) = shapeExprWith {} (nested {} bound) := by
  rw [shapeExpr]
  rfl

theorem tripleExpr_succ (bound : Nat) :
    tripleExpr {} (bound + 1) = tripleExprWith {} (nested {} bound) := by
  rw [tripleExpr]
  rfl

@[simp] theorem length_inBrackets (words : List String) :
    (inBrackets words).length = words.length + 2 := by
  simp [inBrackets]

/-- Operands behind separators are fewer than their words, and so are the words
of each. -/
theorem length_separated {α : Type} (word : String) (wordsOf : α → List String) (xs : List α) :
    xs.length ≤ (xs.flatMap fun x => word :: wordsOf x).length ∧
      ∀ x ∈ xs, (wordsOf x).length < (xs.flatMap fun x => word :: wordsOf x).length := by
  induction xs with
  | nil => simp
  | cons x xs ih =>
    simp only [List.flatMap_cons, List.length_append, List.length_cons, List.forall_mem_cons]
    refine ⟨by omega, by omega, fun y member => ?_⟩
    have shorter := ih.2 y member
    omega

/-- There are fewer operands than words, and each of them has fewer words. So
the bounds of the readers are large enough. -/
theorem length_shapeOperands (separator : String) (first : ShapeExpr) (others : List ShapeExpr)
    {bound : Nat}
    (enough :
      (inBrackets (shapeWords first) ++ furtherShapes separator others).length < bound + 1) :
    others.length < bound ∧ ∀ expr ∈ first :: others, (shapeWords expr).length < bound := by
  obtain ⟨fewer, shorter⟩ := length_separated separator
    (fun expr => inBrackets (shapeWords expr)) others
  rw [furtherShapes_eq, List.length_append, length_inBrackets] at enough
  refine ⟨by omega, List.forall_mem_cons.mpr ⟨by omega, fun expr member => ?_⟩⟩
  have inside := shorter expr member
  rw [length_inBrackets] at inside
  omega

/-- The same for the operands of a triple expression. -/
theorem length_tripleOperands (separator : String) (first : TripleExpr) (others : List TripleExpr)
    {bound : Nat}
    (enough : (inBrackets (tripleWords first ++ furtherTriples separator others)).length ≤ bound) :
    ∃ more, bound = more + 1 ∧ others.length < more ∧
      ∀ expr ∈ first :: others, (tripleWords expr).length ≤ more := by
  obtain ⟨fewer, shorter⟩ := length_separated separator tripleWords others
  rw [length_inBrackets, furtherTriples_eq, List.length_append] at enough
  obtain ⟨more, rfl⟩ := Nat.exists_eq_succ_of_ne_zero (show bound ≠ 0 by omega)
  refine ⟨more, rfl, by omega, List.forall_mem_cons.mpr ⟨by omega, fun expr member => ?_⟩⟩
  have inside := shorter expr member
  omega

theorem length_extraWords (extra : List Json) : extra.length ≤ (extraWords extra).length := by
  unfold extraWords
  split
  · next none => simp [List.isEmpty_iff.mp none]
  · simp

theorem exists_two {α : Type} {xs : List α} (long : 2 ≤ xs.length) :
    ∃ first second others, xs = first :: second :: others := by
  match xs, long with
  | first :: second :: others, _ => exact ⟨first, second, others, rfl⟩

theorem writableNode_cases {nc : NodeConstraint} (written : writableNode nc = true) :
    (∃ kind, nc = { nodeKind := some kind }) ∨
      ∃ datatype, nc = { datatype := .string datatype } ∧ isIriText datatype = true := by
  unfold writableNode at written
  split at written
  · next kind => exact Or.inl ⟨kind, rfl⟩
  · obtain ⟨text, rfl, writtenText⟩ := isIri_iff.mp written
    exact Or.inr ⟨text, rfl, writtenText⟩
  · cases written

theorem writableTriples_iff {operands : List TripleExpr} :
    writableTriples operands = true ↔ ∀ expr ∈ operands, writableTriple expr = true := by
  induction operands with
  | nil => simp [writableTriples]
  | cons operand rest ih => simp [writableTriples, ih]

theorem endsGroup_bracket (words : List String) : EndsGroup (")" :: words) :=
  ⟨')', by decide, upcoming_head (by decide) words⟩

theorem endsGroup_brace (words : List String) : EndsGroup ("\x7d" :: words) :=
  ⟨'}', by decide, upcoming_head (by decide) words⟩

/-! ### Expressions -/

/-- The value of a triple constraint is read from its brackets. -/
theorem takes_inline {value : ShapeExpr} {bound : Nat}
    (enough : (shapeWords value).length + 3 ≤ bound)
    (read : ∀ {more : Nat}, (shapeWords value).length < more →
      ∀ {left : List String}, EndsShape left →
      Takes (shapeExpr {} more) (shapeWords value ++ left) value left) {left : List String}
    (quiet : Quiet left) :
    Takes (nested {} bound).shapeExpr (inBrackets (shapeWords value) ++ left) value left := by
  obtain ⟨bound, rfl⟩ := Nat.exists_eq_succ_of_ne_zero (show bound ≠ 0 by omega)
  change Takes (shapeExpr {} (bound + 1)) _ _ _
  rw [shapeExpr_succ]
  have inner := read (show (shapeWords value).length < bound by omega) (endsShape_bracket left)
  exact takes_shapeExpr_single (takes_shapeNot_bracket inner) quiet (show 0 < bound by omega)

/-- A group is read from its brackets, with the bounds and the label that stand
around them. -/
theorem takes_tripleItem_bracketed {group : List TripleExpr → Bounds → Json → TripleExpr}
    (kind : group = .eachOf ∨ group = .oneOf) {operands : List TripleExpr} {bounds : Bounds}
    (writtenBounds : writableBounds bounds = true) {id : Json} (writtenId : isIriOrNull id = true)
    {words left : List String} (ends : EndsItem left) {bound : Nat}
    (inside : ∀ rest, EndsGroup rest →
      Takes (tripleExprWith {} (nested {} bound)) (words ++ rest) (group operands {} .null) rest) :
    Takes (tripleItem {} (nested {} (bound + 1)))
      (labelWords id ++ (inBrackets words ++ (boundsWords bounds ++ left)))
        (group operands bounds id)
      left := by
  have read := inside _ (endsGroup_bracket (boundsWords bounds ++ left))
  rw [← tripleExpr_succ] at read
  rw [← bracketed_group kind operands writtenBounds writtenId]
  exact takes_tripleItem_group writtenId writtenBounds ends read

mutual

/-- A shape expression is read back from its words. -/
theorem takes_shapeExpr : ∀ {expr : ShapeExpr}, writableShape expr = true →
    ∀ {bound : Nat}, (shapeWords expr).length < bound → ∀ {left : List String}, EndsShape left →
      Takes (shapeExpr {} bound) (shapeWords expr ++ left) expr left
  | expr, written, 0, enough, _, _ => absurd enough (Nat.not_lt_zero _)
  | .reference label, written, bound + 1, enough, left, ends => by
    rw [shapeWords, List.length_singleton] at enough
    rw [shapeExpr_succ]
    exact takes_shapeExpr_single (takes_shapeNot_reference written ends.quiet) ends.quiet
      (Nat.lt_of_succ_lt_succ enough)
  | .shape none closed extra, written, bound + 1, enough, left, ends => by
    simp only [writableShape, List.all_eq_true] at written
    have fewer := length_extraWords extra
    simp only [shapeWords, List.length_append, List.length_cons, List.length_nil] at enough
    rw [shapeExpr_succ, shapeWords, List.append_assoc, List.append_assoc]
    refine takes_shapeExpr_single ?_ ends.quiet (show 0 < bound by omega)
    refine takes_shapeNot_shape written closed ends.quiet
      (show extra.length + 2 ≤ bound by omega) ?_
    exact .yes (takes_tryText_word (by decide) left) (.pure _ left)
  | .shape (some expression) closed extra, written, bound + 1, enough, left, ends => by
    simp only [writableShape, Bool.and_eq_true, List.all_eq_true] at written
    have fewer := length_extraWords extra
    simp only [shapeWords, List.length_append, List.length_cons, List.length_nil] at enough
    obtain ⟨more, rfl⟩ := Nat.exists_eq_succ_of_ne_zero (show bound ≠ 0 by omega)
    have item := takes_tripleItem written.2 (show (tripleWords expression).length ≤ more by omega)
      (endsGroup_brace left).endsItem
    have inside : Takes (tripleExpr {} (more + 1))
      (tripleWords expression ++ "\x7d" :: left) expression
        ("\x7d" :: left) := by
      rw [tripleExpr_succ]
      exact takes_tripleExpr_single item (endsGroup_brace left) (show 0 < more by omega)
    have noBrace := (startsItem_tripleWords written.2 ("\x7d" :: left)).head_ne
      (c := '}') (by decide)
    rw [shapeExpr_succ, shapeWords, List.append_assoc, List.append_assoc, List.cons_append,
      List.append_assoc]
    refine takes_shapeExpr_single ?_ ends.quiet (Nat.succ_pos more)
    refine takes_shapeNot_shape written.1 closed ends.quiet
      (show extra.length + 2 ≤ more + 1 by omega) ?_
    refine .no (takes_tryText_miss (by decide) noBrace) (.bind inside ?_)
    exact .bind (takes_expect (takes_tryText_word (by decide) left)) (.pure _ left)
  | .and operands, written, bound + 1, enough, left, ends => by
    simp only [writableShape, Bool.and_eq_true, decide_eq_true_eq] at written
    -- The recursion is on the operands as they stand, so they are read before they are told apart.
    have reads : (∀ expr ∈ operands, (shapeWords expr).length < bound) →
        ReadsShapes (nested {} bound) operands := takes_shapeExprs written.2
    obtain ⟨first, second, others, rfl⟩ := exists_two written.1
    rw [shapeWords] at enough
    obtain ⟨fewer, shorter⟩ := length_shapeOperands _ first (second :: others) enough
    rw [shapeExpr_succ]
    exact takes_and (reads shorter) ends.quiet fewer
  | .or operands, written, bound + 1, enough, left, ends => by
    simp only [writableShape, Bool.and_eq_true, decide_eq_true_eq] at written
    have reads : (∀ expr ∈ operands, (shapeWords expr).length < bound) →
        ReadsShapes (nested {} bound) operands := takes_shapeExprs written.2
    obtain ⟨first, second, others, rfl⟩ := exists_two written.1
    rw [shapeWords] at enough
    obtain ⟨fewer, shorter⟩ := length_shapeOperands _ first (second :: others) enough
    rw [shapeExpr_succ]
    exact takes_or (reads shorter) ends.quiet fewer
  | .not operand, written, bound + 1, enough, left, ends => by
    rw [writableShape] at written
    rw [shapeWords, List.length_cons, length_inBrackets] at enough
    have inner := takes_shapeExpr written (show (shapeWords operand).length < bound by omega)
      (endsShape_bracket left)
    rw [shapeExpr_succ]
    exact takes_shapeExpr_single (takes_shapeNot_not inner) ends.quiet (show 0 < bound by omega)
  | .node nc, written, bound + 1, enough, left, ends => by
    rw [writableShape] at written
    rw [shapeExpr_succ]
    have positive : 0 < bound := by
      rcases writableNode_cases written with ⟨kind, rfl⟩ | ⟨datatype, rfl, -⟩
      · exact Nat.lt_of_succ_lt_succ enough
      · exact Nat.lt_of_succ_lt_succ enough
    refine takes_shapeExpr_single ?_ ends.quiet positive
    rcases writableNode_cases written with ⟨kind, rfl⟩ | ⟨datatype, rfl, writtenDatatype⟩
    · exact takes_shapeNot_kind kind ends positive
    · exact takes_shapeNot_datatype writtenDatatype ends positive
  | .any, written, _, _, _, _ => by cases written
  | .notEach _, written, _, _, _, _ => by cases written
  | .external, written, _, _, _, _ => by cases written
  | .unsupported _, written, _, _, _, _ => by cases written

/-- Operands of a shape expression are read back one by one. Induction together
with that on expressions. -/
theorem takes_shapeExprs : ∀ {operands : List ShapeExpr}, writableShapes operands = true →
    ∀ {bound : Nat}, (∀ expr ∈ operands, (shapeWords expr).length < bound) →
      ReadsShapes (nested {} bound) operands
  | [], _, _, _ => fun _ member => absurd member List.not_mem_nil
  | operand :: rest, written, bound, enough => by
    rw [writableShapes, Bool.and_eq_true] at written
    rw [List.forall_mem_cons] at enough
    refine List.forall_mem_cons.mpr ⟨?_, takes_shapeExprs written.2 enough.2⟩
    exact fun left ends => takes_shapeExpr written.1 enough.1 ends

/-- A triple expression is read back from its words as an item of a group. -/
theorem takes_tripleItem : ∀ {expr : TripleExpr}, writableTriple expr = true →
    ∀ {bound : Nat}, (tripleWords expr).length ≤ bound → ∀ {left : List String}, EndsItem left →
      Takes (tripleItem {} (nested {} bound)) (tripleWords expr ++ left) expr left
  | .reference label, written, bound, _, left, _ => takes_tripleItem_reference written left
  | .constraint predicate inverse value bounds id, written, bound, enough, left, ends => by
    simp only [writableTriple, Bool.and_eq_true, Bool.or_eq_true] at written
    obtain ⟨⟨⟨writtenPredicate, writtenValue⟩, writtenBounds⟩, writtenId⟩ := written
    obtain ⟨iri, rfl, writtenIri⟩ := isIri_iff.mp writtenPredicate
    refine takes_tripleItem_constraint writtenIri inverse writtenBounds writtenId ends ?_
    intro notAny
    have writtenShape := writtenValue.resolve_left (by rw [notAny]; decide)
    simp only [tripleWords, notAny, Bool.false_eq_true, if_false, List.length_append,
      List.length_cons, length_inBrackets] at enough
    have shorter : (shapeWords value).length + 3 ≤ bound := by omega
    exact takes_inline shorter (takes_shapeExpr writtenShape) (quiet_bounds ends)
  | .eachOf operands bounds id, written, bound, enough, left, ends => by
    simp only [writableTriple, Bool.and_eq_true, decide_eq_true_eq] at written
    obtain ⟨⟨⟨two, writtenOperands⟩, writtenBounds⟩, writtenId⟩ := written
    have reads : ∀ more, (∀ expr ∈ operands, (tripleWords expr).length ≤ more) →
        ReadsItems (nested {} more) operands := fun more => takes_tripleItems writtenOperands
    have each := writableTriples_iff.mp writtenOperands
    obtain ⟨first, second, others, rfl⟩ := exists_two two
    rw [tripleWords, List.length_append, List.length_append] at enough
    obtain ⟨more, rfl, fewer, shorter⟩ := length_tripleOperands ";" first (second :: others)
      (show _ ≤ bound by omega)
    rw [tripleWords, List.append_assoc, List.append_assoc]
    refine takes_tripleItem_bracketed (Or.inl rfl) writtenBounds writtenId ends
      fun rest closing => ?_
    exact takes_eachOf (List.forall_mem_cons.mp each).2 (reads more shorter) closing fewer
  | .oneOf operands bounds id, written, bound, enough, left, ends => by
    simp only [writableTriple, Bool.and_eq_true, decide_eq_true_eq] at written
    obtain ⟨⟨⟨two, writtenOperands⟩, writtenBounds⟩, writtenId⟩ := written
    have reads : ∀ more, (∀ expr ∈ operands, (tripleWords expr).length ≤ more) →
        ReadsItems (nested {} more) operands := fun more => takes_tripleItems writtenOperands
    obtain ⟨first, second, others, rfl⟩ := exists_two two
    rw [tripleWords, List.length_append, List.length_append] at enough
    obtain ⟨more, rfl, fewer, shorter⟩ := length_tripleOperands "|" first (second :: others)
      (show _ ≤ bound by omega)
    rw [tripleWords, List.append_assoc, List.append_assoc]
    refine takes_tripleItem_bracketed (Or.inr rfl) writtenBounds writtenId ends
      fun rest closing => ?_
    exact takes_oneOf (reads more shorter) closing fewer
  | .unsupported _, written, _, _, _, _ => by cases written

theorem takes_tripleItems : ∀ {operands : List TripleExpr}, writableTriples operands = true →
    ∀ {bound : Nat}, (∀ expr ∈ operands, (tripleWords expr).length ≤ bound) →
      ReadsItems (nested {} bound) operands
  | [], _, _, _ => fun _ member => absurd member List.not_mem_nil
  | operand :: rest, written, bound, enough => by
    rw [writableTriples, Bool.and_eq_true] at written
    rw [List.forall_mem_cons] at enough
    refine List.forall_mem_cons.mpr ⟨?_, takes_tripleItems written.2 enough.2⟩
    exact fun left ends => takes_tripleItem written.1 enough.1 ends

end

/-! ### Declarations -/

/-- No expression is mistaken for the mark of an external shape. -/
theorem noExternal {expr : ShapeExpr} (written : writableShape expr = true) (left : List String) :
    startsKeyword "EXTERNAL" (upcoming (shapeWords expr ++ left)) = false := by
  match expr with
  | .reference label =>
    have head : (upcoming (("@" ++ iriWord label) :: left)).head? = some '@' :=
      head_append (by decide) _ left
    exact (quiet_of_head head (by decide)).startsKeyword _ (by decide)
  | .shape none closed extra =>
    rw [shapeWords, List.append_assoc, List.append_assoc]
    exact (startsShape extra closed (upcoming_head (by decide) _)).noExternal
  | .shape (some expression) closed extra =>
    rw [shapeWords, List.append_assoc, List.append_assoc]
    exact (startsShape extra closed (upcoming_head (by decide) _)).noExternal
  | .and (first :: others) =>
    rw [shapeWords, List.append_assoc]
    exact (quiet_inBrackets _ _).startsKeyword _ (by decide)
  | .or (first :: others) =>
    rw [shapeWords, List.append_assoc]
    exact (quiet_inBrackets _ _).startsKeyword _ (by decide)
  | .not operand =>
    rw [shapeWords, List.cons_append]
    exact startsKeyword_word (by decide) _
  | .node nc =>
    rcases writableNode_cases written with ⟨kind, rfl⟩ | ⟨datatype, rfl, -⟩
    · exact startsKeyword_word (by cases kind <;> decide) left
    · exact (quiet_of_head (head_iriWord datatype left) (by decide)).startsKeyword _ (by decide)
  | .and [] => simp [writableShape] at written
  | .or [] => simp [writableShape] at written

/-- A declaration is read back from its words, up to what follows. -/
theorem takes_shapeDecl {decl : ShapeDecl} (written : writableDecl decl = true) {bound : Nat}
    (enough : (declWords decl).length ≤ bound) {left : List String} (ends : EndsShape left) :
    Takes (shapeDecl {} bound false) (declWords decl ++ left) decl left := by
  obtain ⟨id, expr, abstract⟩ := decl
  simp only [writableDecl, Bool.and_eq_true, Bool.not_eq_true'] at written
  obtain ⟨⟨writtenId, rfl⟩, writtenExpr⟩ := written
  obtain ⟨label, rfl, writtenLabel⟩ := isIri_iff.mp writtenId
  have read := takes_shapeExpr writtenExpr enough ends
  refine .bind (takes_label writtenLabel _) ?_
  refine .no (takes_tryKeyword_miss (noExternal writtenExpr left)) (.bind read ?_)
  split
  · cases writtenExpr
  · exact .pure _ left

theorem endsShape_declarations (shapes : List ShapeDecl) :
    EndsShape (shapes.flatMap declWords) := by
  intro c member
  cases shapes with
  | nil => cases member
  | cons decl rest =>
    rw [List.flatMap_cons, declWords, List.cons_append, head_iriWord] at member
    exact Or.inr (Option.mem_some_iff.mp member).symm

end Scan

open Scan

/-- A declaration is the statement that starts with a label. -/
theorem takes_statement_decl (schema : Schema) {decl : ShapeDecl}
    (written : writableDecl decl = true) {bound : Nat} (enough : (declWords decl).length ≤ bound)
    {left : List String} (ends : EndsShape left) :
    Takes (statement bound { schema }) (declWords decl ++ left)
      { schema := { schema with shapes := schema.shapes ++ [decl] } } left := by
  have head : (upcoming (declWords decl ++ left)).head? = some '<' := head_iriWord _ _
  have miss : ∀ keyword : String, keyword.toList.head?.any (fun c => !isMark c) = true →
      Takes (tryKeyword keyword) (declWords decl ++ left) false (declWords decl ++ left) :=
    fun keyword letter => takes_tryKeyword_miss
      ((quiet_of_head head (by decide)).startsKeyword _ letter)
  refine .no (miss "PREFIX" (by decide))
    (.no (miss "BASE" (by decide)) (.no (miss "IMPORT" (by decide)) ?_))
  refine .no (miss "START" (by decide)) (.no (miss "ABSTRACT" (by decide)) ?_)
  refine .yes (.yes (takes_atIri _) (.pure true _)) ?_
  exact .bind (takes_shapeDecl written enough ends) (.pure _ left)

theorem takes_statement_start (schema : Schema) {label : String} (written : isIriText label = true)
    {bound : Nat} (enough : 1 < bound) {left : List String} (ends : EndsShape left) :
    Takes (statement bound { schema }) (startWords (.label label) ++ left)
      { schema := { schema with start := .label label } } left := by
  have miss : ∀ keyword : String, clashes keyword "START" = true →
      Takes (tryKeyword keyword) (startWords (.label label) ++ left) false
        (startWords (.label label) ++ left) :=
    fun keyword clash => takes_tryKeyword_miss (startsKeyword_word clash _)
  have writtenShape : writableShape (.reference label) = true := written
  have reference := takes_shapeExpr writtenShape enough ends
  refine .no (miss "PREFIX" (by decide))
    (.no (miss "BASE" (by decide)) (.no (miss "IMPORT" (by decide)) ?_))
  refine .yes (takes_tryKeyword (by decide) (by decide) _) ?_
  exact .bind (takes_expect (takes_tryText_word (by decide) _)) (.bind reference (.pure _ left))

/-- Declarations are read one after the other up to the end of the text. -/
theorem takes_statements (schema : Schema) {shapes : List ShapeDecl}
    (written : ∀ decl ∈ shapes, writableDecl decl = true) {bound : Nat}
    (enough : (shapes.flatMap declWords).length ≤ bound) {rounds : Nat}
    (more : shapes.length < rounds) :
    Takes (statements bound rounds { schema }) (shapes.flatMap declWords)
      { schema with shapes := schema.shapes ++ shapes } [] := by
  induction shapes generalizing schema rounds with
  | nil =>
    obtain ⟨rounds, rfl⟩ := Nat.exists_eq_succ_of_ne_zero (Nat.ne_of_gt more)
    rw [List.append_nil]
    exact .yes (looks_atEnd.takes []) (.pure schema [])
  | cons decl rest ih =>
    obtain ⟨rounds, rfl⟩ := Nat.exists_eq_succ_of_ne_zero (Nat.ne_of_gt (Nat.zero_lt_of_lt more))
    rw [List.forall_mem_cons] at written
    rw [List.flatMap_cons, List.length_append] at enough
    have first := takes_statement_decl schema written.1
      (show (declWords decl).length ≤ bound by omega)
      (endsShape_declarations rest)
    have others := ih { schema with shapes := schema.shapes ++ [decl] } written.2 (by omega)
      (Nat.lt_of_succ_lt_succ more)
    rw [List.append_assoc, List.singleton_append] at others
    exact .no (takes_atEnd_miss (head_iriWord _ _)) (.bind first others)

theorem length_spell (words : List String) : words.length ≤ (spell words).toList.length + 1 := by
  induction words with
  | nil => exact Nat.zero_le _
  | cons word words ih =>
    rw [spell_cons, List.length_append, List.length_cons]
    cases words with
    | nil => simp
    | cons next rest =>
      have behind : (after (next :: rest)).length = (spell (next :: rest)).toList.length + 1 := rfl
      omega

theorem length_declarations (shapes : List ShapeDecl) :
    shapes.length ≤ (shapes.flatMap declWords).length := by
  induction shapes with
  | nil => exact Nat.zero_le _
  | cons decl rest ih =>
    rw [List.flatMap_cons, List.length_append, declWords, List.length_cons, List.length_cons]
    omega

/-- What the statements of a text give is what the text holds. -/
theorem parse_of_takes {words : List String} {result : Schema}
    (takes : ∀ bound, words.length < bound → Takes (statements bound bound {}) words result []) :
    parse (spell words).toList = .ok result := by
  have short := length_spell words
  have bounded := takes ((spell words).toList.length + 2) (by omega)
  obtain ⟨last, read, -⟩ := bounded (Cursor.start (spell words).toList) rfl
  change Prod.fst <$> statements _ _ {} (Cursor.start (spell words).toList) = _
  rw [Cursor.bound]
  exact congrArg _ read

/-- A schema that can be written is read back from its text. -/
theorem parse_write (schema : Schema) (written : writable schema = true) :
    parse (write schema).toList = .ok schema := by
  obtain ⟨shapes, start, namespaces, imports⟩ := schema
  simp only [writable, Bool.and_eq_true, List.isEmpty_iff, List.all_eq_true] at written
  obtain ⟨⟨⟨writtenStart, writtenShapes⟩, rfl⟩, rfl⟩ := written
  cases start with
  | label label =>
    change parse (spell (startWords (.label label) ++ shapes.flatMap declWords)).toList = _
    refine parse_of_takes fun bound enough => ?_
    rw [List.length_append] at enough
    have three : (startWords (.label label)).length = 3 := rfl
    have fewer := length_declarations shapes
    obtain ⟨rounds, rfl⟩ := Nat.exists_eq_succ_of_ne_zero (show bound ≠ 0 by omega)
    have first := takes_statement_start {} writtenStart (show 1 < rounds + 1 by omega)
      (endsShape_declarations shapes)
    have others := takes_statements { start := .label label } writtenShapes
      (show (shapes.flatMap declWords).length ≤ rounds + 1 by omega)
        (show shapes.length < rounds by omega)
    have head : (upcoming (startWords (.label label) ++ shapes.flatMap declWords)).head? =
        some 'S' :=
      upcoming_head (by decide) _
    exact .no (takes_atEnd_miss head) (.bind first others)
  | none | illFormed | expression | value => cases writtenStart

/-- A schema with every kind of expression that can be written. -/
def orderSchema : Schema where
  start := .label "http://e/Order"
  shapes := [
    { id := .string "http://e/Order"
      expr := .and [
        .shape (some (.eachOf [
          .constraint (.string "http://e/item") false (.or [.reference "http://e/Item", .not (.node
            { nodeKind := some .literal })]) ⟨.int 1, unbounded⟩ (.string "http://e/items"),
          .oneOf [
            .constraint (.string "http://e/paid") false .any ⟨.int 0, .int 1⟩ .null,
            .constraint (.string "http://e/owes") true
              (.node { datatype := .string "http://e/money" })
              {} .null] ⟨.int 0, .int 12⟩ (.string "http://e/state"),
          .reference "http://e/items"] {} .null)) true [.string "http://e/note",
            .string "http://e/tag"],
        .node { nodeKind := some .nonliteral }] },
    { id := .string "http://e/Item", expr := .shape none false [] }]

/-- The text of the sample schema is read as the schema. -/
theorem parse_write_order :
    writable orderSchema = true ∧ parse (write orderSchema).toList = .ok orderSchema := by
  have written : writable orderSchema = true := by decide
  exact ⟨written, parse_write orderSchema written⟩

example : write {
      start := .label "S"
      shapes := [{
        id := .string "S"
        expr := .shape (some (.oneOf [
          .constraint (.string "p") true .any ⟨.int 0, unbounded⟩ .null,
          .constraint (.string "q") false (.node { nodeKind := some .iri }) {} (.string "l")]
          ⟨.int 1, .int 12⟩ .null)) true [.string "p"] }] } =
    "START = @<S> <S> EXTRA <p> CLOSED \x7b " ++
      "( ^ <p> . \x7b0,*\x7d | $<l> <q> ( IRI ) ) \x7b1,12\x7d \x7d" := by
  decide

end ShapeQuery.Compact
