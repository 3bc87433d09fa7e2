import ShapeQuery.Proofs.Compact.Terms

/-!
Shape expressions that are read back from their words, given that the expressions inside them are,
and whatever follows them that cannot belong to them.
-/
namespace ShapeQuery.Compact.Scan

/-- Operands are read one by one, each behind its separator, up to where no
separator follows. -/
theorem takes_operandsAfter {α : Type} {separator : Scan Bool} {operand : Scan α} {word : String}
    {wordsOf : α → List String} (follow : List String → Prop) {xs : List α} {left : List String}
    (hit : ∀ x ∈ xs, ∀ rest, Takes separator (word :: (wordsOf x ++ rest)) true (wordsOf x ++ rest))
    (each : ∀ x ∈ xs, ∀ rest, follow rest → Takes operand (wordsOf x ++ rest) x rest)
    (between : ∀ rest, follow (word :: rest)) (last : follow left)
    (stop : Takes separator left false left) {bound : Nat} (enough : xs.length < bound) :
    Takes (operandsAfter separator operand bound)
      (xs.flatMap (fun x => word :: wordsOf x) ++ left) xs left := by
  induction xs generalizing bound with
  | nil =>
    obtain ⟨bound, rfl⟩ := Nat.exists_eq_succ_of_ne_zero (Nat.ne_of_gt enough)
    exact .no stop (.pure [] left)
  | cons x xs ih =>
    obtain ⟨bound, rfl⟩ := Nat.exists_eq_succ_of_ne_zero (Nat.ne_of_gt (Nat.zero_lt_of_lt enough))
    rw [List.forall_mem_cons] at hit each
    have others := ih hit.2 each.2 (Nat.lt_of_succ_lt_succ enough)
    rw [List.flatMap_cons, List.cons_append, List.cons_append, List.append_assoc]
    -- Behind an operand there is another separator, or what follows them all.
    have next : follow (xs.flatMap (fun x => word :: wordsOf x) ++ left) := by
      cases xs with
      | nil => exact last
      | cons y ys => exact between _
    exact .yes (hit.1 _) (.bind (each.1 _ next) (.bind others (.pure _ left)))

theorem furtherShapes_eq (separator : String) (operands : List ShapeExpr) :
    furtherShapes separator operands =
      operands.flatMap fun expr => separator :: inBrackets (shapeWords expr) := by
  induction operands with
  | nil => rfl
  | cons operand rest ih => rw [furtherShapes, ih, List.flatMap_cons, List.cons_append]

theorem furtherTriples_eq (separator : String) (operands : List TripleExpr) :
    furtherTriples separator operands =
      operands.flatMap fun expr => separator :: tripleWords expr := by
  induction operands with
  | nil => rfl
  | cons operand rest ih => rw [furtherTriples, ih, List.flatMap_cons, List.cons_append]

/-! ### Shape expressions -/

/-- What follows a shape expression: the end of the text, a closing bracket or
the next declaration. -/
def EndsShape (words : List String) : Prop :=
  ∀ c ∈ (upcoming words).head?, c = ')' ∨ c = '<'

/-- Where a shape expression ends no keyword comes next. -/
theorem EndsShape.quiet {words : List String} (ends : EndsShape words) : Quiet words := by
  intro c member
  rcases ends c member with rfl | rfl <;> decide

theorem endsShape_bracket (words : List String) : EndsShape (")" :: words) := by
  intro c member
  rw [upcoming_head (by decide)] at member
  exact Or.inl (Option.mem_some_iff.mp member).symm

theorem head_bracket (words left : List String) :
    (upcoming (inBrackets words ++ left)).head? = some '(' :=
  upcoming_head (by decide) _

theorem quiet_inBrackets (words left : List String) : Quiet (inBrackets words ++ left) :=
  quiet_of_head (head_bracket words left) (by decide)

section Shapes

variable {nested : Nested}

/-- An expression in brackets is read as an operand, if the expression is. -/
theorem takes_shapeAtom_bracket {expr : ShapeExpr} {words left : List String}
    (inner : Takes nested.shapeExpr (words ++ ")" :: left) expr (")" :: left)) :
    Takes (shapeAtom {} nested) (inBrackets words ++ left) expr left := by
  refine looks_peek.bind ?_
  rw [head_bracket, if_pos rfl]
  have moved : TakesAt (advance 1) (inBrackets words ++ left) ()
      ("" :: (words ++ ")" :: left)) := by
    refine .advance ⟨['('], ?_, rfl⟩
    rw [inBrackets, List.cons_append, upcoming_cons (by decide), List.append_assoc]
    rfl
  refine moved.bind (.of_upcoming_eq (upcoming_empty_word _) ?_)
  exact .bind inner (.bind (takes_expect (takes_tryText_word (by decide) left)) (.pure expr left))

theorem takes_shapeNot_bracket {expr : ShapeExpr} {words left : List String}
    (inner : Takes nested.shapeExpr (words ++ ")" :: left) expr (")" :: left)) :
    Takes (shapeNot {} nested) (inBrackets words ++ left) expr left := by
  have miss := (quiet_inBrackets words left).startsKeyword "NOT" (by decide)
  exact .no (takes_tryKeyword_miss miss) (takes_shapeAtom_bracket inner)

/-- A negation is read from its keyword and its operand in brackets. -/
theorem takes_shapeNot_not {expr : ShapeExpr} {words left : List String}
    (inner : Takes nested.shapeExpr (words ++ ")" :: left) expr (")" :: left)) :
    Takes (shapeNot {} nested) ("NOT" :: (inBrackets words ++ left)) (.not expr) left :=
  .yes (takes_tryKeyword (by decide) (by decide) _)
    (.bind (takes_shapeAtom_bracket inner) (.pure _ left))

/-- Where no separator follows there are no further operands. -/
theorem takes_noOperands {α : Type} {separator : Scan Bool} {operand : Scan α} {bound : Nat}
    {left : List String} (stop : Takes separator left false left) (enough : 0 < bound) :
    Takes (operandsAfter separator operand bound) left [] left := by
  obtain ⟨bound, rfl⟩ := Nat.exists_eq_succ_of_ne_zero (Nat.ne_of_gt enough)
  exact .no stop (.pure [] left)

theorem takes_shapeAnd_single {expr : ShapeExpr} {words left : List String}
    (single : Takes (shapeNot {} nested) words expr left)
    (none : startsKeyword "AND" (upcoming left) = false) (enough : 0 < nested.bound) :
    Takes (shapeAnd {} nested) words expr left :=
  .bind single (.bind (takes_noOperands (takes_tryKeyword_miss none) enough) (.pure expr left))

/-- A single operand is the whole expression, if no keyword follows it. -/
theorem takes_shapeExpr_single {expr : ShapeExpr} {words left : List String}
    (single : Takes (shapeNot {} nested) words expr left) (quiet : Quiet left)
    (enough : 0 < nested.bound) : Takes (shapeExprWith {} nested) words expr left := by
  have noAnd := quiet.startsKeyword "AND" (by decide)
  have noOr := quiet.startsKeyword "OR" (by decide)
  exact .bind (takes_shapeAnd_single single noAnd enough)
    (.bind (takes_noOperands (takes_tryKeyword_miss noOr) enough) (.pure expr left))

/-- What reading the operands of an expression needs of nested expressions:
each of them is read back from its words. -/
def ReadsShapes (nested : Nested) (operands : List ShapeExpr) : Prop :=
  ∀ expr ∈ operands, ∀ left, EndsShape left →
    Takes nested.shapeExpr (shapeWords expr ++ left) expr left

theorem ReadsShapes.bracket {operands : List ShapeExpr} (reads : ReadsShapes nested operands)
    {expr : ShapeExpr} (member : expr ∈ operands) (left : List String) :
    Takes (shapeNot {} nested) (inBrackets (shapeWords expr) ++ left) expr left :=
  takes_shapeNot_bracket (reads expr member _ (endsShape_bracket left))

/-- A conjunction of two or more operands is read back, each operand in brackets. -/
theorem takes_and {first second : ShapeExpr} {others : List ShapeExpr}
    (reads : ReadsShapes nested (first :: second :: others)) {left : List String}
    (quiet : Quiet left) (enough : (second :: others).length < nested.bound) :
    Takes (shapeExprWith {} nested) (shapeWords (.and (first :: second :: others)) ++ left)
      (.and (first :: second :: others)) left := by
  have noAnd := quiet.startsKeyword "AND" (by decide)
  have noOr := quiet.startsKeyword "OR" (by decide)
  have further : Takes (operandsAfter (tryKeyword "AND") (shapeNot {} nested) nested.bound)
      (furtherShapes "AND" (second :: others) ++ left) (second :: others) left := by
    rw [furtherShapes_eq]
    refine takes_operandsAfter (fun _ => True) ?_ ?_ (fun _ => trivial) trivial
      (takes_tryKeyword_miss noAnd) enough
    · exact fun expr _ rest => takes_tryKeyword (by decide) (by decide) _
    · exact fun expr member rest _ => reads.bracket (List.mem_cons_of_mem first member) rest
  rw [shapeWords, List.append_assoc]
  refine .bind (.bind (reads.bracket List.mem_cons_self _) (.bind further (.pure _ left))) ?_
  exact .bind (takes_noOperands (takes_tryKeyword_miss noOr) (Nat.zero_lt_of_lt enough))
    (.pure _ left)

/-- A disjunction of two or more operands is read back. Each operand is a
conjunction of one. -/
theorem takes_or {first second : ShapeExpr} {others : List ShapeExpr}
    (reads : ReadsShapes nested (first :: second :: others)) {left : List String}
    (quiet : Quiet left) (enough : (second :: others).length < nested.bound) :
    Takes (shapeExprWith {} nested) (shapeWords (.or (first :: second :: others)) ++ left)
      (.or (first :: second :: others)) left := by
  have positive := Nat.zero_lt_of_lt enough
  have noAnd := quiet.startsKeyword "AND" (by decide)
  have noOr := quiet.startsKeyword "OR" (by decide)
  have orIsNotAnd : ∀ rest, startsKeyword "AND" (upcoming ("OR" :: rest)) = false :=
    startsKeyword_word (by decide)
  have operand : ∀ expr ∈ first :: second :: others, ∀ rest,
      startsKeyword "AND" (upcoming rest) = false →
        Takes (shapeAnd {} nested) (inBrackets (shapeWords expr) ++ rest) expr rest :=
    fun expr member rest none => takes_shapeAnd_single (reads.bracket member rest) none positive
  have further : Takes (operandsAfter (tryKeyword "OR") (shapeAnd {} nested) nested.bound)
      (furtherShapes "OR" (second :: others) ++ left) (second :: others) left := by
    rw [furtherShapes_eq]
    refine takes_operandsAfter (fun rest => startsKeyword "AND" (upcoming rest) = false) ?_ ?_
      orIsNotAnd noAnd (takes_tryKeyword_miss noOr) enough
    · exact fun expr _ rest => takes_tryKeyword (by decide) (by decide) _
    · exact fun expr member rest none => operand expr (List.mem_cons_of_mem first member) rest none
  rw [shapeWords, List.append_assoc]
  exact .bind (operand first List.mem_cons_self _ (orIsNotAnd _)) (.bind further (.pure _ left))

/-! ### References, shapes and node constraints -/

theorem takes_atShapeOrRef_miss {words : List String} (quiet : Quiet words)
    (other : (upcoming words).head? ≠ some '@') (noBrace : (upcoming words).head? ≠ some '{') :
    Takes atShapeOrRef words false words := by
  have noExtra := (looks_atKeyword "EXTRA").takes words
  have noClosed := (looks_atKeyword "CLOSED").takes words
  rw [quiet.startsKeyword _ (by decide)] at noExtra noClosed
  refine .bind (looks_peek.takes words) ?_
  rw [if_neg (by simp [other, noBrace])]
  exact .no noExtra noClosed

theorem takes_atShapeOrRef {words : List String} {c : Char} (head : (upcoming words).head? = some c)
    (mark : c = '@' ∨ c = '{') : Takes atShapeOrRef words true words := by
  refine .bind (looks_peek.takes words) ?_
  rw [head, if_pos (by rcases mark with rfl | rfl <;> decide)]
  exact .pure true words

theorem takes_atNonLiteralKind_miss {words : List String} (quiet : Quiet words) :
    Takes atNonLiteralKind words false words := by
  have none : ∀ keyword, keyword.toList.head?.any (fun c => !isMark c) = true →
      Takes (atKeyword keyword) words false words := by
    intro keyword letter
    have looked := (looks_atKeyword keyword).takes words
    rwa [quiet.startsKeyword keyword letter] at looked
  exact .no (none "IRI" (by decide)) (.no (none "BNODE" (by decide))
    (none "NONLITERAL" (by decide)))

/-- A shape or a reference is read as an operand, if no node constraint follows it. -/
theorem takes_shapeAtom_shape {words left : List String} {expr : ShapeExpr}
    (noBracket : (upcoming words).head? ≠ some '(') (noPoint : (upcoming words).head? ≠ some '.')
    (here : Takes atShapeOrRef words true words)
    (read : Takes (shapeOrRef {} nested) words expr left) (quiet : Quiet left) :
    Takes (shapeAtom {} nested) words expr left := by
  refine .bind (looks_peek.takes words) ?_
  rw [if_neg noBracket, if_neg noPoint]
  exact .yes here (.bind read (.no (takes_atNonLiteralKind_miss quiet) (.pure expr left)))

/-- A reference is read back from its mark and its label. -/
theorem takes_shapeNot_reference {label : String} (written : isIriText label = true)
    {left : List String} (quiet : Quiet left) :
    Takes (shapeNot {} nested) (("@" ++ iriWord label) :: left) (.reference label) left := by
  have head : (upcoming (("@" ++ iriWord label) :: left)).head? = some '@' :=
    head_append (by decide) _ left
  have noNot := (quiet_of_head head (by decide)).startsKeyword "NOT" (by decide)
  refine .no (takes_tryKeyword_miss noNot) ?_
  refine takes_shapeAtom_shape (by rw [head]; decide) (by rw [head]; decide)
    (takes_atShapeOrRef head (Or.inl rfl)) ?_ quiet
  exact takes_marked (by decide) written ShapeExpr.reference

/-! The head of a shape -/

theorem takes_atExtraPredicate_stop {words : List String} (noIri : Takes atIri words false words)
    (noWord : (upcoming words).head? ≠ some 'a') : Takes atExtraPredicate words false words := by
  refine .no noIri (.bind (looks_rest.takes words) ?_)
  have none : ['a', ' '].isPrefixOf (upcoming words) = false := by
    cases seen : upcoming words with
    | nil => rfl
    | cons c rest =>
      rw [seen, List.head?_cons] at noWord
      have other : 'a' ≠ c := fun same => noWord (by rw [same])
      simp [List.isPrefixOf, other]
  rw [id, none]
  exact .pure false words

/-- An extra list is read up to a word that starts no predicate. Induction on
the predicates. -/
theorem takes_extraPredicates {extra : List Json} (written : ∀ p ∈ extra, isIri p = true)
    {left : List String} (stop : Takes atExtraPredicate left false left) {bound : Nat}
    (enough : extra.length < bound) :
    Takes (extraPredicates {} bound) (extra.map (fun p => iriWord p.display) ++ left)
      extra left := by
  induction extra generalizing bound with
  | nil =>
    obtain ⟨bound, rfl⟩ := Nat.exists_eq_succ_of_ne_zero (Nat.ne_of_gt enough)
    exact .no stop (.pure [] left)
  | cons p rest ih =>
    obtain ⟨bound, rfl⟩ := Nat.exists_eq_succ_of_ne_zero (Nat.ne_of_gt (Nat.zero_lt_of_lt enough))
    rw [List.forall_mem_cons] at written
    obtain ⟨iri, rfl, writtenIri⟩ := isIri_iff.mp written.1
    have others := ih written.2 (Nat.lt_of_succ_lt_succ enough)
    refine .yes (.yes (takes_atIri _) (.pure true _)) ?_
    exact .bind (takes_predicate writtenIri _) (.bind others (.pure _ left))

theorem takes_shapeHead_closed (closed : Bool) {left : List String}
    (head : (upcoming left).head? = some '{') {bound : Nat} (enough : 2 ≤ bound) :
    Takes (shapeHead {} bound) (closedWords closed ++ left) ([], closed) left := by
  obtain ⟨bound, rfl⟩ := Nat.exists_eq_add_of_le' enough
  have quiet := quiet_of_head head (by decide)
  have noExtra := quiet.startsKeyword "EXTRA" (by decide)
  have noClosed := quiet.startsKeyword "CLOSED" (by decide)
  have plain : ∀ more, Takes (shapeHead {} (more + 1)) left ([], false) left := fun more =>
    .no (takes_tryKeyword_miss noExtra) (.no (takes_tryKeyword_miss noClosed) (.pure _ left))
  cases closed with
  | false => exact plain (bound + 1)
  | true =>
    have other : startsKeyword "EXTRA" (upcoming ("CLOSED" :: left)) = false :=
      startsKeyword_word (by decide) left
    exact .no (takes_tryKeyword_miss other)
      (.yes (takes_tryKeyword (by decide) (by decide) left) (.bind (plain bound) (.pure _ left)))

theorem takes_atExtraPredicate_closed (closed : Bool) {left : List String}
    (head : (upcoming left).head? = some '{') :
    Takes atExtraPredicate (closedWords closed ++ left) false (closedWords closed ++ left) := by
  cases closed with
  | false =>
    have quiet := quiet_of_head head (by decide)
    refine takes_atExtraPredicate_stop (takes_atIri_miss ?_ quiet.namespaceName?) ?_
    · rw [closedWords, if_neg (by decide), List.nil_append, head]
      decide
    · rw [closedWords, if_neg (by decide), List.nil_append, head]
      decide
  | true =>
    have seen : upcoming (closedWords true ++ left) = 'C' :: ("LOSED".toList ++ after left) :=
      upcoming_cons (by decide) left
    refine takes_atExtraPredicate_stop (takes_atIri_miss ?_ ?_) ?_
    · rw [seen, List.head?_cons]
      decide
    · rw [seen]
      cases left with
      | nil => decide
      | cons word rest => rfl
    · rw [seen, List.head?_cons]
      decide

/-- The head of a shape is read back: an extra list and the closed mark. -/
theorem takes_shapeHead {extra : List Json} (written : ∀ p ∈ extra, isIri p = true)
    {closed : Bool} {left : List String} (head : (upcoming left).head? = some '{') {bound : Nat}
    (enough : extra.length + 2 ≤ bound) :
    Takes (shapeHead {} bound) (extraWords extra ++ (closedWords closed ++ left))
      (extra, closed) left := by
  by_cases none : extra.isEmpty = true
  · rw [List.isEmpty_iff] at none
    subst none
    exact takes_shapeHead_closed closed head (by simpa using enough)
  · obtain ⟨bound, rfl⟩ := Nat.exists_eq_succ_of_ne_zero (show bound ≠ 0 by omega)
    have some : 0 < extra.length := by simpa [List.length_pos_iff] using none
    have predicates := takes_extraPredicates written (takes_atExtraPredicate_closed closed head)
      (show extra.length < bound by omega)
    have rest := takes_shapeHead_closed closed head (show 2 ≤ bound by omega)
    rw [extraWords, if_neg none, List.cons_append]
    refine .yes (takes_tryKeyword (by decide) (by decide) _) (.bind predicates (.bind rest ?_))
    have result := Takes.pure (extra ++ [], closed) left
    rw [List.append_nil] at result
    simpa using result

/-- How a shape definition starts: with one of its keywords or a brace, and as
nothing else does. -/
structure StartsShape (words : List String) : Prop where
  here : Takes atShapeOrRef words true words
  head : StartsWith ['E', 'C', '{'] words
  noNot : startsKeyword "NOT" (upcoming words) = false
  noExternal : startsKeyword "EXTERNAL" (upcoming words) = false

namespace StartsShape

theorem brace {words : List String} (head : (upcoming words).head? = some '{') :
    StartsShape words :=
  have quiet := quiet_of_head head (by decide)
  ⟨takes_atShapeOrRef head (Or.inr rfl), ⟨'{', by decide, head⟩, quiet.startsKeyword _ (by decide),
    quiet.startsKeyword _ (by decide)⟩

theorem extra (words : List String) : StartsShape ("EXTRA" :: words) := by
  have head : (upcoming ("EXTRA" :: words)).head? = some 'E' := upcoming_head (by decide) words
  have seen := (looks_atKeyword "EXTRA").takes ("EXTRA" :: words)
  rw [startsKeyword_self (by decide) (by decide)] at seen
  refine ⟨.bind (looks_peek.takes _) ?_, ⟨'E', by decide, head⟩, startsKeyword_word (by decide) _,
    startsKeyword_word (by decide) _⟩
  rw [head, if_neg (by decide)]
  exact .yes seen (.pure true _)

theorem closed (words : List String) : StartsShape ("CLOSED" :: words) := by
  have head : (upcoming ("CLOSED" :: words)).head? = some 'C' := upcoming_head (by decide) words
  have noExtra := (looks_atKeyword "EXTRA").takes ("CLOSED" :: words)
  have seen := (looks_atKeyword "CLOSED").takes ("CLOSED" :: words)
  rw [startsKeyword_word (by decide)] at noExtra
  rw [startsKeyword_self (by decide) (by decide)] at seen
  refine ⟨.bind (looks_peek.takes _) ?_, ⟨'C', by decide, head⟩, startsKeyword_word (by decide) _,
    startsKeyword_word (by decide) _⟩
  rw [head, if_neg (by decide)]
  exact .no noExtra seen

end StartsShape

theorem startsShape (extra : List Json) (closed : Bool) {left : List String}
    (head : (upcoming left).head? = some '{') :
    StartsShape (extraWords extra ++ (closedWords closed ++ left)) := by
  unfold extraWords
  split
  · cases closed with
    | true => exact .closed left
    | false => exact .brace head
  · exact .extra _

/-- A shape definition is read by its head and what is between its braces. -/
theorem takes_shapeNot_shape {extra : List Json} (written : ∀ p ∈ extra, isIri p = true)
    (closed : Bool) {expression : Option TripleExpr} {words left : List String}
    (quiet : Quiet left) (enough : extra.length + 2 ≤ nested.bound)
    (inside : Takes (do
        if ← tryText "\x7d" then return ShapeExpr.shape none closed extra
        else
          let expression ← nested.tripleExpr
          expect "\x7d"
          return .shape (some expression) closed extra)
      words (.shape expression closed extra) left) :
    Takes (shapeNot {} nested) (extraWords extra ++ (closedWords closed ++ "\x7b" :: words))
      (.shape expression closed extra) left := by
  have head : (upcoming ("\x7b" :: words)).head? = some '{' := upcoming_head (by decide) words
  have starts := startsShape extra closed head
  refine .no (takes_tryKeyword_miss starts.noNot) ?_
  refine takes_shapeAtom_shape (starts.head.head_ne (by decide)) (starts.head.head_ne (by decide))
    starts.here ?_ quiet
  refine .no (takes_tryText_miss (by decide) (starts.head.head_ne (by decide))) ?_
  refine .bind (takes_shapeHead written head enough) ?_
  exact .bind (takes_expect (takes_tryText_word (by decide) words)) inside

/-! Node constraints -/

theorem takes_tryKeywords_none {α : Type} {keywords : List (String × α)} {words : List String}
    (miss : ∀ entry ∈ keywords, startsKeyword entry.1 (upcoming words) = false) :
    Takes (tryKeywords keywords) words none words := by
  induction keywords with
  | nil => exact .pure none words
  | cons entry rest ih =>
    rw [List.forall_mem_cons] at miss
    exact .no (takes_tryKeyword_miss miss.1) (ih miss.2)

theorem Quiet.tryKeywords_none {α : Type} {words : List String} (quiet : Quiet words)
    {keywords : List (String × α)}
    (letters : ∀ entry ∈ keywords, entry.1.toList.head?.any (fun c => !isMark c) = true) :
    Takes (tryKeywords keywords) words none words :=
  takes_tryKeywords_none fun entry member => quiet.startsKeyword entry.1 (letters entry member)

theorem takes_facets {words : List String} (quiet : Quiet words) (nc : NodeConstraint)
    (found : Bool) {bound : Nat} (enough : 0 < bound) :
    Takes (facets nc found bound) words (nc, found) words := by
  obtain ⟨bound, rfl⟩ := Nat.exists_eq_succ_of_ne_zero (Nat.ne_of_gt enough)
  have noKeyword : Takes (tryKeywords facetKeywords) words none words :=
    quiet.tryKeywords_none (by decide)
  have noSlash : (upcoming words).head? ≠ some '/' := fun slash =>
    absurd (quiet '/' slash) (by decide)
  have noFacet : Takes (facet? nc) words none words := by
    refine .bind noKeyword (.bind (looks_peek.takes words) ?_)
    rw [if_neg noSlash]
    exact .pure none words
  exact .bind noFacet (.pure _ words)

theorem takes_nodeKind (kind : NodeKind) (words : List String) :
    Takes (tryKeywords nodeKindKeywords) (kindWord kind :: words) (some kind) words := by
  have miss : ∀ {keyword word : String}, clashes keyword word = true →
      Takes (tryKeyword keyword) (word :: words) false (word :: words) :=
    fun clash => takes_tryKeyword_miss (startsKeyword_word clash words)
  have hit : ∀ {keyword : String}, startsSolid keyword = true →
      Text.upper keyword.toList = keyword.toList →
        Takes (tryKeyword keyword) (keyword :: words) true words :=
    fun solid caps => takes_tryKeyword solid caps words
  cases kind with
  | iri => exact .yes (hit (by decide) (by decide)) (.pure _ words)
  | bnode => exact .no (miss (by decide)) (.yes (hit (by decide) (by decide)) (.pure _ words))
  | nonliteral =>
    exact .no (miss (by decide)) (.no (miss (by decide))
      (.yes (hit (by decide) (by decide)) (.pure _ words)))
  | literal =>
    exact .no (miss (by decide)) (.no (miss (by decide)) (.no (miss (by decide))
      (.yes (hit (by decide) (by decide)) (.pure _ words))))

/-- A node constraint is read as an operand, if no shape follows it. -/
theorem takes_shapeAtom_node {words left : List String} {nc : NodeConstraint}
    (noBracket : (upcoming words).head? ≠ some '(') (noPoint : (upcoming words).head? ≠ some '.')
    (noShape : Takes atShapeOrRef words false words)
    (head : Takes (constraintHead {} nested.bound) words (nc, true) left) (ends : EndsShape left)
    (enough : 0 < nested.bound) : Takes (shapeAtom {} nested) words (.node nc) left := by
  have none : Takes atShapeOrRef left false left := by
    refine takes_atShapeOrRef_miss ends.quiet ?_ ?_
    · exact fun other => absurd (ends '@' other) (by decide)
    · exact fun other => absurd (ends '{' other) (by decide)
  have read : Takes (nodeConstraint? {} nested.bound) words (some nc) left :=
    .bind head (.bind (takes_facets ends.quiet nc true enough) (.pure _ left))
  refine .bind (looks_peek.takes words) ?_
  rw [if_neg noBracket, if_neg noPoint]
  refine .no noShape (.bind read ?_)
  dsimp only
  split
  · exact .no none (.pure _ left)
  · exact .pure _ left

theorem takes_shapeNot_kind (kind : NodeKind) {left : List String} (ends : EndsShape left)
    (enough : 0 < nested.bound) :
    Takes (shapeNot {} nested) (kindWord kind :: left) (.node { nodeKind := some kind }) left := by
  have solid : startsSolid (kindWord kind) = true := by cases kind <;> decide
  have head := upcoming_head solid left
  have noNot : startsKeyword "NOT" (upcoming (kindWord kind :: left)) = false :=
    startsKeyword_word (by cases kind <;> decide) left
  have noExtra := (looks_atKeyword "EXTRA").takes (kindWord kind :: left)
  have noClosed := (looks_atKeyword "CLOSED").takes (kindWord kind :: left)
  rw [startsKeyword_word (by cases kind <;> decide)] at noExtra noClosed
  have noShape : Takes atShapeOrRef (kindWord kind :: left) false (kindWord kind :: left) := by
    refine .bind (looks_peek.takes _) ?_
    rw [head, if_neg (by cases kind <;> decide)]
    exact .no noExtra noClosed
  refine .no (takes_tryKeyword_miss noNot) ?_
  refine takes_shapeAtom_node ?_ ?_ noShape
    (.bind (takes_nodeKind kind left) (.pure _ left)) ends enough
  · rw [head]
    cases kind <;> decide
  · rw [head]
    cases kind <;> decide

theorem takes_shapeNot_datatype {datatype : String} (written : isIriText datatype = true)
    {left : List String} (ends : EndsShape left) (enough : 0 < nested.bound) :
    Takes (shapeNot {} nested) (iriWord datatype :: left)
      (.node { datatype := .string datatype }) left := by
  have head := head_iriWord datatype left
  have quiet := quiet_of_head head (by decide)
  have noShape := takes_atShapeOrRef_miss quiet (by rw [head]; decide) (by rw [head]; decide)
  have noKind : Takes (tryKeywords nodeKindKeywords) (iriWord datatype :: left) none
      (iriWord datatype :: left) := quiet.tryKeywords_none (by decide)
  refine .no (takes_tryKeyword_miss (quiet.startsKeyword _ (by decide))) ?_
  refine takes_shapeAtom_node (by rw [head]; decide) (by rw [head]; decide) noShape ?_ ends enough
  refine .bind noKind (.bind (looks_peek.takes _) ?_)
  rw [head, if_neg (by decide)]
  exact .yes (takes_atIri left) (.bind (takes_iri written left) (.pure _ left))

end Shapes

end ShapeQuery.Compact.Scan
