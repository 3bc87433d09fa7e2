import ShapeQuery.Proofs.Compact.ShapeReading

/-!
Triple expressions that are read back from their words, given that the expressions inside them are.
-/
namespace ShapeQuery.Compact.Scan

def StartsItem : List String → Prop :=
  StartsWith ['<', '^', '$', '&', '(']

theorem isIriOrNull_cases {id : Json} (written : isIriOrNull id = true) :
    id = .null ∨ ∃ label, id = .string label ∧ isIriText label = true := by
  cases id with
  | null => exact Or.inl rfl
  | string label => exact Or.inr ⟨label, rfl, written⟩
  | _ => cases written

/-- A label changes nothing about how an item starts. -/
theorem startsItem_label {id : Json} (written : isIriOrNull id = true) {words : List String}
    (starts : StartsItem words) : StartsItem (labelWords id ++ words) := by
  rcases isIriOrNull_cases written with rfl | ⟨label, rfl, -⟩
  · exact starts
  · exact ⟨'$', by decide, head_append (by decide) _ words⟩

theorem startsItem_bracket (words left : List String) : StartsItem (inBrackets words ++ left) :=
  ⟨'(', by decide, head_bracket words left⟩

theorem startsItem_arc (inverse : Bool) (predicate : String) (words : List String) :
    StartsWith ['<', '^'] ((if inverse then ["^"] else []) ++ iriWord predicate :: words) := by
  cases inverse with
  | true => exact ⟨'^', by decide, upcoming_head (by decide) _⟩
  | false => exact ⟨'<', by decide, head_iriWord predicate words⟩

/-- Every triple expression that can be written starts like an item. -/
theorem startsItem_tripleWords {expr : TripleExpr} (written : writableTriple expr = true)
    (left : List String) : StartsItem (tripleWords expr ++ left) := by
  match expr with
  | .reference label => exact ⟨'&', by decide, head_append (by decide) _ left⟩
  | .constraint predicate inverse value bounds id =>
    simp only [writableTriple, Bool.and_eq_true] at written
    rw [tripleWords, List.append_assoc, List.append_assoc, List.cons_append]
    exact startsItem_label written.2 ((startsItem_arc inverse _ _).mono (by decide))
  | .eachOf (first :: others) bounds id =>
    simp only [writableTriple, Bool.and_eq_true] at written
    rw [tripleWords, List.append_assoc, List.append_assoc]
    exact startsItem_label written.2 (startsItem_bracket _ _)
  | .oneOf (first :: others) bounds id =>
    simp only [writableTriple, Bool.and_eq_true] at written
    rw [tripleWords, List.append_assoc, List.append_assoc]
    exact startsItem_label written.2 (startsItem_bracket _ _)
  | .eachOf [] bounds id => simp [writableTriple] at written
  | .oneOf [] bounds id => simp [writableTriple] at written
  | .unsupported typeName => simp [writableTriple] at written

/-! ### Labels and values -/

/-- A label is read back, or none is found where no dollar sign comes next. -/
theorem takes_tripleLabel {id : Json} (written : isIriOrNull id = true) {words : List String}
    (other : (upcoming words).head? ≠ some '$') :
    Takes (tripleLabel? {}) (labelWords id ++ words) id words := by
  rcases isIriOrNull_cases written with rfl | ⟨label, rfl, writtenLabel⟩
  · exact .no (takes_tryText_miss (by decide) other) (.pure Json.null words)
  · exact takes_marked (by decide) writtenLabel Json.string

theorem quiet_bounds {bounds : Bounds} {left : List String} (ends : EndsItem left) :
    Quiet (boundsWords bounds ++ left) := by
  unfold boundsWords
  split
  · next min max =>
    exact quiet_of_head (head_append (by decide) _ left) (by decide)
  · obtain ⟨c, member, head⟩ := ends
    have all : [';', '|', ')', '}'].all isMark = true := by decide
    exact quiet_of_head head (List.all_eq_true.mp all c member)

theorem eq_any {expr : ShapeExpr} (any : isAny expr = true) : expr = .any := by
  unfold isAny at any
  split at any
  · rfl
  · cases any

section Items

variable {nested : Nested}

/-- The value of a triple constraint is read back from its brackets, and a
missing one as a point. -/
theorem takes_constraintValue {value : ShapeExpr} {words : List String}
    (inline : isAny value = false →
      Takes nested.shapeExpr (inBrackets (shapeWords value) ++ words) value words) :
    Takes (constraintValue nested)
      ((if isAny value then ["."] else inBrackets (shapeWords value)) ++ words) value words := by
  cases any : isAny value with
  | true =>
    obtain rfl := eq_any any
    have head : (upcoming ("." :: words)).head? = some '.' := upcoming_head (by decide) words
    rw [if_pos rfl, List.singleton_append]
    refine looks_peek.bind ?_
    rw [head, if_pos rfl]
    have moved : TakesAt (advance 1) ("." :: words) () ("" :: words) :=
      .advance ⟨['.'], upcoming_cons (by decide) words, rfl⟩
    exact moved.bind (.left_of_upcoming_eq (upcoming_empty_word words) (.pure _ _))
  | false =>
    rw [if_neg (by decide)]
    have head := head_bracket (shapeWords value) words
    have noBrace : startsCardinality (upcoming (inBrackets (shapeWords value) ++ words)) =
        false := by
      rw [inBrackets, List.cons_append, upcoming_cons (by decide)]
      rfl
    refine .bind (looks_peek.takes _) ?_
    rw [head, if_neg (by decide), if_neg (by decide)]
    refine .bind (looks_rest.takes _) ?_
    rw [id, noBrace, if_neg (by decide)]
    exact inline any

/-! ### Items -/

/-- A reference to a triple expression is read back from its mark and its label. -/
theorem takes_tripleItem_reference {label : String} (written : isIriText label = true)
    (left : List String) :
    Takes (tripleItem {} nested) (("&" ++ iriWord label) :: left) (.reference label) left :=
  takes_marked (by decide) written TripleExpr.reference

/-- The mark of an inverse arc is read, or is not there. -/
theorem takes_inverse (inverse : Bool) (predicate : String) (words : List String) :
    Takes (tryText "^") ((if inverse then ["^"] else []) ++ iriWord predicate :: words) inverse
      (iriWord predicate :: words) := by
  cases inverse with
  | true => exact takes_tryText_word (by decide) _
  | false =>
    have head := head_iriWord predicate words
    exact takes_tryText_miss (by decide) (by rw [if_neg (by decide), List.nil_append, head]; decide)

/-- What follows the label of an item decides what the item is. -/
theorem takes_tripleItem_labelled {id : Json} (written : isIriOrNull id = true)
    {words left : List String} {expr : TripleExpr}
    (noReference : (upcoming words).head? ≠ some '&')
    (noLabel : (upcoming words).head? ≠ some '$')
    (read : Takes (do
        if ← tryText "(" then
          let expr ← nested.tripleExpr
          expect ")"
          let bounds ← cardinality?
          return bracketed id bounds expr
        else tripleConstraintWith {} nested id)
      words expr left) :
    Takes (tripleItem {} nested) (labelWords id ++ words) expr left := by
  have noMark : (upcoming (labelWords id ++ words)).head? ≠ some '&' := by
    rcases isIriOrNull_cases written with rfl | ⟨label, rfl, -⟩
    · exact noReference
    · rw [labelWords, List.singleton_append, head_append (by decide)]
      decide
  exact .no (takes_tryText_miss (by decide) noMark) (.bind (takes_tripleLabel written noLabel) read)

/-- A triple constraint is read back with its label, its value and its bounds. -/
theorem takes_tripleItem_constraint {predicate : String}
    (writtenPredicate : isIriText predicate = true) (inverse : Bool) {value : ShapeExpr}
    {bounds : Bounds} (writtenBounds : writableBounds bounds = true) {id : Json}
    (writtenId : isIriOrNull id = true) {left : List String} (ends : EndsItem left)
    (inline : isAny value = false → Takes nested.shapeExpr
      (inBrackets (shapeWords value) ++ (boundsWords bounds ++ left)) value
      (boundsWords bounds ++ left)) :
    Takes (tripleItem {} nested)
      (tripleWords (.constraint (.string predicate) inverse value bounds id) ++ left)
      (.constraint (.string predicate) inverse value bounds id) left := by
  have valueRead := takes_constraintValue inline
  rw [tripleWords]
  simp only [List.append_assoc, List.cons_append]
  have arc := startsItem_arc inverse predicate
    ((if isAny value then ["."] else inBrackets (shapeWords value)) ++ (boundsWords bounds ++ left))
  refine takes_tripleItem_labelled writtenId (arc.head_ne (by decide)) (arc.head_ne (by decide)) ?_
  refine .no (takes_tryText_miss (by decide) (arc.head_ne (by decide))) ?_
  refine .bind (takes_inverse inverse predicate _) (.bind (takes_predicate writtenPredicate _) ?_)
  refine .bind valueRead (.bind (takes_cardinality writtenBounds ends) ?_)
  rw [given_getD writtenBounds]
  exact .pure _ left

/-! ### Groups -/

theorem null_or_truthy {id : Json} (written : isIriOrNull id = true) :
    id = .null ∨ id.truthy = true := by
  rcases isIriOrNull_cases written with rfl | ⟨label, rfl, writtenLabel⟩
  · exact Or.inl rfl
  · exact Or.inr (bne_iff_ne.mpr (isIriText_iff.mp writtenLabel).1)

/-- Brackets give their bounds and their label to a group that has none. -/
theorem bracketed_group {group : List TripleExpr → Bounds → Json → TripleExpr}
    (kind : group = .eachOf ∨ group = .oneOf) (operands : List TripleExpr) {bounds : Bounds}
    (writtenBounds : writableBounds bounds = true) {id : Json} (writtenId : isIriOrNull id = true) :
    bracketed id (given bounds) (group operands {} .null) = group operands bounds id := by
  have plain : needsGroup id (group operands {} .null) = false := by
    rcases kind with rfl | rfl
    · exact Bool.and_false _
    · exact Bool.and_false _
  have labelled : (if id.truthy then setLabel id (group operands bounds .null)
      else group operands bounds .null) = group operands bounds id := by
    rcases null_or_truthy writtenId with rfl | truthy
    · rfl
    · rw [if_pos truthy]
      rcases kind with rfl | rfl
      · rfl
      · rfl
  simp only [bracketed, plain, Bool.false_eq_true, if_false]
  rcases writableBounds_cases writtenBounds with rfl | ⟨min, max, rfl, -, -⟩
  · exact labelled
  · rcases kind with rfl | rfl
    · exact labelled
    · exact labelled

/-- A group in brackets is read back with the label and the bounds around them. -/
theorem takes_tripleItem_group {id : Json} (writtenId : isIriOrNull id = true) {bounds : Bounds}
    (writtenBounds : writableBounds bounds = true) {words left : List String}
    (ends : EndsItem left) {inner : TripleExpr}
    (read : Takes nested.tripleExpr (words ++ ")" :: (boundsWords bounds ++ left)) inner
      (")" :: (boundsWords bounds ++ left))) :
    Takes (tripleItem {} nested) (labelWords id ++
      (inBrackets words ++ (boundsWords bounds ++ left)))
      (bracketed id (given bounds) inner) left := by
  have head := head_bracket words (boundsWords bounds ++ left)
  refine takes_tripleItem_labelled writtenId (by rw [head]; decide) (by rw [head]; decide) ?_
  rw [inBrackets, List.cons_append, List.append_assoc]
  refine .yes (takes_tryText_word (by decide) _) (.bind read ?_)
  refine .bind (takes_expect (takes_tryText_word (by decide) _)) ?_
  exact .bind (takes_cardinality writtenBounds ends) (.pure _ left)

theorem takes_itemSeparator {words : List String} (starts : StartsItem words) :
    Takes itemSeparator (";" :: words) true words := by
  obtain ⟨c, member, head⟩ := starts
  have another : ['<', '^', '$', '&', '('].all
      (fun c => (['}', ')', '|'].contains c).not) = true := by
    decide
  refine .yes (takes_tryText_word (by decide) words) (.bind (looks_peek.takes words) ?_)
  rw [head]
  dsimp only
  rw [List.all_eq_true.mp another c member]
  exact .pure true words

theorem takes_itemSeparator_stop {words : List String} (other : (upcoming words).head? ≠ some ';') :
    Takes itemSeparator words false words :=
  .no (takes_tryText_miss (by decide) other) (.pure false words)

theorem takes_tripleGroup_single {expr : TripleExpr} {words left : List String}
    (single : Takes (tripleItem {} nested) words expr left)
    (other : (upcoming left).head? ≠ some ';') (enough : 0 < nested.bound) :
    Takes (tripleGroup {} nested) words expr left :=
  .bind single (.bind (takes_noOperands (takes_itemSeparator_stop other) enough) (.pure expr left))

/-- Where a triple expression ends. -/
def EndsGroup : List String → Prop :=
  StartsWith [')', '}']

theorem EndsGroup.endsItem {words : List String} (ends : EndsGroup words) : EndsItem words :=
  ends.mono (by decide)

/-- A single item is the whole expression where it ends. -/
theorem takes_tripleExpr_single {expr : TripleExpr} {words left : List String}
    (single : Takes (tripleItem {} nested) words expr left) (ends : EndsGroup left)
    (enough : 0 < nested.bound) : Takes (tripleExprWith {} nested) words expr left := by
  have stop : Takes (tryText "|") left false left :=
    takes_tryText_miss (by decide) (ends.head_ne (by decide))
  refine .bind (takes_tripleGroup_single single (ends.head_ne (by decide)) enough) ?_
  exact .bind (takes_noOperands stop enough) (.pure expr left)

/-- What reading the operands of a group needs of its items. -/
def ReadsItems (nested : Nested) (operands : List TripleExpr) : Prop :=
  ∀ expr ∈ operands, ∀ left, EndsItem left →
    Takes (tripleItem {} nested) (tripleWords expr ++ left) expr left

/-- A group of two or more items is read back, with semicolons between them. -/
theorem takes_eachOf {first second : TripleExpr} {others : List TripleExpr}
    (written : ∀ expr ∈ second :: others, writableTriple expr = true)
    (reads : ReadsItems nested (first :: second :: others)) {left : List String}
    (ends : EndsGroup left) (enough : (second :: others).length < nested.bound) :
    Takes (tripleExprWith {} nested) (tripleWords first ++
      furtherTriples ";" (second :: others) ++ left)
      (.eachOf (first :: second :: others) {} .null) left := by
  have between : ∀ rest, EndsItem (";" :: rest) :=
    fun rest => ⟨';', by decide, upcoming_head (by decide) rest⟩
  have stop : Takes (tryText "|") left false left :=
    takes_tryText_miss (by decide) (ends.head_ne (by decide))
  have further : Takes (operandsAfter itemSeparator (tripleItem {} nested) nested.bound)
      (furtherTriples ";" (second :: others) ++ left) (second :: others) left := by
    rw [furtherTriples_eq]
    refine takes_operandsAfter EndsItem ?_ ?_ between ends.endsItem
      (takes_itemSeparator_stop (ends.head_ne (by decide))) enough
    · exact fun expr member rest => takes_itemSeparator
        (startsItem_tripleWords (written expr member) rest)
    · exact fun expr member => reads expr (List.mem_cons_of_mem first member)
  rw [List.append_assoc]
  refine .bind (.bind (reads first List.mem_cons_self _ (between _))
    (.bind further (.pure _ left))) ?_
  exact .bind (takes_noOperands stop (Nat.zero_lt_of_lt enough)) (.pure _ left)

def EndsAlternative : List String → Prop :=
  StartsWith ['|', ')', '}']

/-- Two or more alternatives are read back. Each of them is a group of one item. -/
theorem takes_oneOf {first second : TripleExpr} {others : List TripleExpr}
    (reads : ReadsItems nested (first :: second :: others)) {left : List String}
    (ends : EndsGroup left) (enough : (second :: others).length < nested.bound) :
    Takes (tripleExprWith {} nested) (tripleWords first ++
      furtherTriples "|" (second :: others) ++ left)
      (.oneOf (first :: second :: others) {} .null) left := by
  have between : ∀ rest, EndsAlternative ("|" :: rest) :=
    fun rest => ⟨'|', by decide, upcoming_head (by decide) rest⟩
  have stop : Takes (tryText "|") left false left :=
    takes_tryText_miss (by decide) (ends.head_ne (by decide))
  have alternative : ∀ expr ∈ first :: second :: others, ∀ rest, EndsAlternative rest →
      Takes (tripleGroup {} nested) (tripleWords expr ++ rest) expr rest :=
    fun expr member rest next =>
      takes_tripleGroup_single (reads expr member rest (next.mono (by decide)))
        (next.head_ne (by decide)) (Nat.zero_lt_of_lt enough)
  have further : Takes (operandsAfter (tryText "|") (tripleGroup {} nested) nested.bound)
      (furtherTriples "|" (second :: others) ++ left) (second :: others) left := by
    rw [furtherTriples_eq]
    refine takes_operandsAfter EndsAlternative ?_ ?_ between (ends.mono (by decide)) stop enough
    · exact fun expr _ rest => takes_tryText_word (by decide) _
    · exact fun expr member => alternative expr (List.mem_cons_of_mem first member)
  rw [List.append_assoc]
  exact .bind (alternative first List.mem_cons_self _ (between _)) (.bind further (.pure _ left))

end Items

end ShapeQuery.Compact.Scan
