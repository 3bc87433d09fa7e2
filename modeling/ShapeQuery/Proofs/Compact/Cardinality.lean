import ShapeQuery.Proofs.Compact.SequelExpressions
import ShapeQuery.Proofs.Compact.ShapeReading

/-!
Cardinalities behind the value of a triple constraint. A cardinality in braces and a shape start
alike, so whether the braces are read as a cardinality depends on where the value ends.
-/
namespace ShapeQuery.Compact

namespace Scan

def ReadsWhole {α : Type} (scan : Nat → Scan α) (text : List Char) (result : α) : Prop :=
  ∃ c', scan (Cursor.start text).bound (Cursor.start text) = .ok (result, c') ∧ c'.rest = []

/-! ### Cardinalities -/

/-- A number that can be read: it is not too long. Numbers in braces are
written without leading zeros. -/
structure Count where
  value : Nat
  short : (decimalDigits value).length ≤ Json.maxIntegerDigits

/-- A cardinality as it is written: a mark, or one or two numbers in braces. -/
inductive Cardinality where
  /-- `?` -/
  | optional
  /-- `*` -/
  | star
  /-- `+` -/
  | plus
  /-- `{m}` -/
  | exactly (m : Count)
  /-- `{m,}` or, with a star, `{m,*}` -/
  | atLeast (m : Count) (starred : Bool)
  /-- `{m,n}` -/
  | between (m n : Count)

namespace Cardinality

/-- The text between the braces of a cardinality, and its closing brace. -/
def inside : Cardinality → List Char
  | optional | star | plus => []
  | exactly m => decimalDigits m.value ++ ['}']
  | atLeast m starred => decimalDigits m.value ++ ',' :: (if starred then ['*', '}'] else ['}'])
  | between m n => decimalDigits m.value ++ ',' :: (decimalDigits n.value ++ ['}'])

def mark : Cardinality → Char
  | optional => '?'
  | star => '*'
  | plus => '+'
  | exactly _ | atLeast _ _ | between _ _ => '{'

def text (k : Cardinality) : List Char :=
  k.mark :: k.inside

def bounds : Cardinality → Bounds
  | optional => { min := .int 0, max := .int 1 }
  | star => { min := .int 0, max := unbounded }
  | plus => { min := .int 1, max := unbounded }
  | exactly m => { min := .int m.value, max := .int m.value }
  | atLeast m _ => { min := .int m.value, max := unbounded }
  | between m n => { min := .int m.value, max := .int n.value }

end Cardinality

theorem skip_of_solid {c : Cursor} {first : Char} {rest : List Char} (here : c.rest = first :: rest)
    (solid : isSolid first = true) : c.skip = c := by
  refine c.skip_eq_self (by rw [here]; nofun) ?_
  rw [here]
  exact skipText_solid solid rest

theorem Count.digits (m : Count) : ∃ digit others, decimalDigits m.value = digit :: others ∧
    ∀ d ∈ digit :: others, d.isDigit = true := by
  obtain ⟨digit, others, same, -, each⟩ := decimalText_digits (Int.natCast_nonneg m.value)
  exact ⟨digit, others, by rwa [Int.toNat_natCast] at same, each⟩

/-- A number is read up to the comma or the brace behind it. -/
theorem count_reads (m : Count) {c : Cursor} {stop : Char} {rest : List Char}
    (here : c.rest = decimalDigits m.value ++ stop :: rest) (ends : stop = ',' ∨ stop = '}') :
    ∃ c', count c = .ok ((m.value : Int), c') ∧ c'.rest = stop :: rest := by
  obtain ⟨digit, others, digits, each⟩ := m.digits
  have value := digitsValue_decimalDigits m.value
  have short := m.short
  rw [digits] at here value short
  have solid : c.skip = c := skip_of_solid here (solid_of_isDigit (each digit List.mem_cons_self))
  have seen : skipText c.rest = c.rest := congrArg Cursor.rest solid
  have found : numeral? (skipText c.rest) = some ⟨.integer, [], digit :: others, []⟩ := by
    rw [seen, here]
    exact numeral?_digits each ends rest
  have whole : Numeral.count ⟨.integer, [], digit :: others, []⟩ = .ok (m.value : Int) := by
    rw [Numeral.count, Numeral.value]
    dsimp only
    rw [if_neg (by omega), value, signed, if_neg (by decide)]
    rfl
  have read := (lexeme?_token numeral? (·.text.length)).found (c := c) rfl
  rw [found, solid] at read
  have readNumeral : numeral c = .ok (⟨.integer, [], digit :: others, []⟩,
      c.advance (Numeral.text ⟨.integer, [], digit :: others, []⟩).length) := scan_bind_of_ok read
  refine ⟨c.advance (Numeral.text ⟨.integer, [], digit :: others, []⟩).length, ?_, ?_⟩
  · rw [count, scan_bind_of_ok readNumeral, whole]
    rfl
  · simp [here, Numeral.text]

/-- At a character that has been seen, an expected text of just that character
is read. -/
theorem expect_here (text : String) {first : Char} {rest : List Char} {c : Cursor}
    (here : c.rest = first :: rest) (solid : isSolid first = true)
    (single : text.toList = [first]) :
    expect text c = .ok ((), c.advance 1) ∧ (c.advance 1).rest = rest := by
  have stays : c.skip = c := skip_of_solid here solid
  have wide : text.length = 1 := by rw [← String.length_toList, single]; rfl
  have start : text.toList.isPrefixOf (skipText c.rest) = true := by
    rw [← Cursor.skip_rest, stays, here, single]
    simp [List.isPrefixOf]
  have read := expect_start (by simp [single]) start
  rw [stays, wide] at read
  exact ⟨read, by rw [Cursor.advance_rest, here]; rfl⟩

/-- A text is read if its character comes next, and it is not if that is
another one. -/
theorem tryText_here (text : String) (k : Char) {first : Char} {rest : List Char} {c : Cursor}
    (here : c.rest = first :: rest) (solid : isSolid first = true) (single : text.toList = [k]) :
    tryText text c = if first = k then .ok (true, c.advance 1) else .ok (false, c) := by
  have stays : c.skip = c := skip_of_solid here solid
  have wide : text.length = 1 := by rw [← String.length_toList, single]; rfl
  split
  · next same =>
    have start : text.toList.isPrefixOf (skipText c.rest) = true := by
      rw [← Cursor.skip_rest, stays, here, single, same]
      simp [List.isPrefixOf]
    rw [tryText_start (by simp [single]) start, stays, wide]
  · next other =>
    have miss : text.toList.isPrefixOf (skipText c.rest) = false := by
      rw [← Cursor.skip_rest, stays, here, single]
      simp [List.isPrefixOf, Ne.symm other]
    rw [tryText_miss (by simp [single]) miss, stays]

/-- A cardinality in braces is read to its end, with the bounds that its
numbers stand for. -/
theorem braceBounds_reads (k : Cardinality) (braced : k.mark = '{') {c : Cursor}
    (here : skipText c.rest = k.text) :
    ∃ c', braceBounds c = .ok (k.bounds, c') ∧ c'.rest = [] := by
  have opened : expect "\x7b" c = .ok ((), c.skip.advance 1) := by
    refine expect_start (by decide) ?_
    rw [here, Cardinality.text, braced]
    rfl
  have after : (c.skip.advance 1).rest = k.inside := by
    rw [Cursor.advance_rest, Cursor.skip_rest, here]
    rfl
  have closes : ∀ {min max : Json} {d : Cursor}, d.rest = ['}'] → ∃ c', (do
      expect "\x7d"
      return { min, max } : Scan Bounds) d = .ok ({ min, max }, c') ∧ c'.rest = [] := by
    intro min max d rest
    obtain ⟨closed, spent⟩ := expect_here "\x7d" rest (by decide) rfl
    exact ⟨d.advance 1, scan_bind_of_ok closed, spent⟩
  rw [braceBounds, scan_bind_of_ok opened]
  cases k with
  | optional | star | plus => cases braced
  | exactly m =>
    obtain ⟨d, counted, rest⟩ := count_reads m after (Or.inr rfl)
    have single := tryText_here "," ',' rest (by decide) rfl
    rw [if_neg (by decide)] at single
    rw [scan_bind_of_ok counted, scan_bind_of_ok single]
    exact closes rest
  | atLeast m starred =>
    obtain ⟨d, counted, rest⟩ := count_reads m after (Or.inl rfl)
    have comma := tryText_here "," ',' rest (by decide) rfl
    have behind : (d.advance 1).rest = if starred then ['*', '}'] else ['}'] := by
      rw [Cursor.advance_rest, rest]
      rfl
    rw [if_pos rfl] at comma
    rw [scan_bind_of_ok counted, scan_bind_of_ok comma]
    cases starred with
    | true =>
      have star := tryText_here "*" '*' behind (by decide) rfl
      rw [if_pos rfl] at star
      rw [if_pos rfl, scan_bind_of_ok star]
      exact closes (by rw [Cursor.advance_rest, behind]; rfl)
    | false =>
      have noStar := tryText_here "*" '*' behind (by decide) rfl
      rw [if_neg (by decide)] at noStar
      have stays : (d.advance 1).skip = d.advance 1 := skip_of_solid behind (by decide)
      have looked := looks_peek (d.advance 1)
      rw [← Cursor.skip_rest, stays, behind] at looked
      rw [if_pos rfl, scan_bind_of_ok noStar, if_neg Bool.false_ne_true, scan_bind_of_ok looked]
      exact closes behind
  | between m n =>
    obtain ⟨d, counted, rest⟩ := count_reads m after (Or.inl rfl)
    obtain ⟨digit, others, digits, each⟩ := n.digits
    have isDigit := each digit List.mem_cons_self
    have comma := tryText_here "," ',' rest (by decide) rfl
    have behind : (d.advance 1).rest = decimalDigits n.value ++ ['}'] := by
      rw [Cursor.advance_rest, rest]
      rfl
    have first : (d.advance 1).rest = digit :: (others ++ ['}']) := by
      rw [behind, digits, List.cons_append]
    have noStar := tryText_here "*" '*' first (solid_of_isDigit isDigit) rfl
    have stays : (d.advance 1).skip = d.advance 1 := skip_of_solid first (solid_of_isDigit isDigit)
    have looked := looks_peek (d.advance 1)
    rw [if_pos rfl] at comma
    rw [if_neg (by rintro rfl; cases isDigit)] at noStar
    rw [← Cursor.skip_rest, stays, first] at looked
    obtain ⟨d', countedNext, last⟩ := count_reads n behind (Or.inr rfl)
    rw [scan_bind_of_ok counted, scan_bind_of_ok comma, if_pos rfl, scan_bind_of_ok noStar,
      if_neg Bool.false_ne_true, scan_bind_of_ok looked, if_neg (by rintro ⟨⟩; cases isDigit),
      scan_bind_of_ok countedNext]
    exact closes last

theorem Cardinality.inside_digit {k : Cardinality} (braced : k.mark = '{') :
    ∃ digit rest, k.inside = digit :: rest ∧ digit.isDigit = true := by
  have starts : ∀ (m : Count) (more : List Char),
      ∃ digit rest, decimalDigits m.value ++ more = digit :: rest ∧ digit.isDigit = true := by
    intro m more
    obtain ⟨digit, others, digits, each⟩ := m.digits
    exact ⟨digit, others ++ more, by rw [digits, List.cons_append], each digit List.mem_cons_self⟩
  cases k with
  | optional | star | plus => cases braced
  | exactly m => exact starts m _
  | atLeast m starred => exact starts m _
  | between m n => exact starts m _

theorem startsCardinality_digit {digit : Char} (isDigit : digit.isDigit = true) (rest : List Char) :
    startsCardinality ('{' :: digit :: rest) = true := by
  have solid : ¬ Text.isBlank digit = true := by simp [notBlank_of_isDigit isDigit]
  rw [startsCardinality, Text.trimStart, List.dropWhile_cons_of_neg solid]
  exact isDecimalDigit_of_isDigit isDigit

/-- A cardinality at the end of a text is read to its end. -/
theorem cardinality?_reads (k : Cardinality) {c : Cursor} (here : skipText c.rest = k.text) :
    ∃ c', cardinality? c = .ok (some k.bounds, c') ∧ c'.rest = [] := by
  have solid : isSolid k.mark = true := by cases k <;> rfl
  have seen : c.skip.rest = k.mark :: k.inside := here
  have still : skipText c.skip.rest = k.text := (skipText_skipText c.rest).trans here
  have tried : ∀ (text : String) (mark : Char), text.toList = [mark] →
      tryText text c.skip = if k.mark = mark then .ok (true, c.skip.advance 1)
        else .ok (false, c.skip) :=
    fun text mark single => tryText_here text mark seen solid single
  have question := tried "?" '?' rfl
  have star := tried "*" '*' rfl
  have plus := tried "+" '+' rfl
  rw [cardinality?, scan_bind_of_ok (looks_atEnd c), here]
  change ∃ c', (tryText "?" >>= _) c.skip = _ ∧ _
  by_cases braced : k.mark = '{'
  · obtain ⟨digit, rest, inside, isDigit⟩ := Cardinality.inside_digit braced
    obtain ⟨c', read, spent⟩ := braceBounds_reads k braced still
    have starts : startsCardinality (skipText c.skip.rest) = true := by
      rw [still, Cardinality.text, braced, inside, startsCardinality_digit isDigit]
    rw [braced, if_neg (by decide)] at question star plus
    refine ⟨c', ?_, spent⟩
    rw [scan_bind_of_ok question, if_neg Bool.false_ne_true, scan_bind_of_ok star,
      if_neg Bool.false_ne_true, scan_bind_of_ok plus, if_neg Bool.false_ne_true,
      scan_bind_of_ok (looks_rest c.skip), id, starts, if_pos rfl, Cursor.skip_skip,
        scan_bind_of_ok read]
    rfl
  · have spent : (c.skip.advance 1).rest = k.inside := by
      rw [Cursor.advance_rest, seen]
      rfl
    cases k with
    | optional => exact ⟨c.skip.advance 1, scan_bind_of_ok question, spent⟩
    | star =>
      refine ⟨c.skip.advance 1, ?_, spent⟩
      rw [scan_bind_of_ok (question.trans (if_neg (by decide)))]
      exact scan_bind_of_ok star
    | plus =>
      refine ⟨c.skip.advance 1, ?_, spent⟩
      rw [scan_bind_of_ok (question.trans (if_neg (by decide))), if_neg Bool.false_ne_true,
        scan_bind_of_ok (star.trans (if_neg (by decide)))]
      exact scan_bind_of_ok plus
    | exactly m | atLeast m starred | between m n => exact absurd rfl braced

/-! ### Where a shape expression starts -/

def startsNode (first : Char) : Bool :=
  !isNeutral first || first.isAlpha || ['[', '<', ':', '/'].contains first

theorem takes_nodeConstraint_none (names : Names) {bound : Nat} (room : 0 < bound)
    {words : List String} {first : Char} {rest : List Char}
    (seen : upcoming words = first :: rest) (noNode : startsNode first = false) :
    Takes (nodeConstraint? names bound) words none words := by
  simp only [startsNode, Bool.or_eq_false_iff, Bool.not_eq_false', List.contains_eq_mem,
    List.mem_cons, List.not_mem_nil, or_false, decide_eq_false_iff_not, not_or] at noNode
  obtain ⟨⟨neutral, noLetter⟩, noBracket, noIri, noColon, noSlash⟩ := noNode
  obtain ⟨bound, rfl⟩ := Nat.exists_eq_succ_of_ne_zero (Nat.ne_of_gt room)
  have keywords : ∀ {α : Type} {table : List (String × α)},
    (∀ pair ∈ table, isKeyword pair.1 = true) →
      Takes (tryKeywords table) words none words := fun known =>
    takes_tryKeywords_none fun entry member => by
      rw [seen]
      exact startsKeyword_neutral (known entry member) neutral rest
  have noName : Takes atIri words false words := by
    refine takes_atIri_miss ?_ ?_
    · rw [seen]
      simpa using noIri
    · simp [seen, namespaceName?, noLetter, noColon]
  have noFacet : Takes (facet? {}) words none words := by
    refine .bind (keywords facetKeywords_words) (.bind (looks_peek.takes words) ?_)
    rw [seen, if_neg (by simpa using noSlash)]
    exact .pure none words
  have noHead : Takes (constraintHead names (bound + 1)) words ({}, false) words := by
    refine .bind (keywords nodeKindKeywords_words) (.bind (looks_peek.takes words) ?_)
    rw [seen, if_neg (by simpa using noBracket)]
    exact .no noName (.pure _ words)
  have noFacets : Takes (facets {} false (bound + 1)) words ({}, false) words :=
    .bind noFacet (.pure _ words)
  exact .bind noHead (.bind noFacets (.pure _ words))

/-- No node constraint is read at a character that starts none. -/
theorem nodeFirstAtom_misses (names : Names) {nested : Nested} (room : 0 < nested.bound)
    {c : Cursor} {first : Char} {rest : List Char} (here : skipText c.rest = first :: rest)
    (noNode : startsNode first = false) (result : ShapeExpr) (c' : Cursor) :
    nodeFirstAtom names nested c ≠ .ok (result, c') := by
  intro read
  have seen : upcoming [String.ofList (first :: rest)] = first :: rest := by
    rw [upcoming, spell_cons, String.toList_ofList, after, List.append_nil, ← here,
      skipText_skipText]
  obtain ⟨d, none, -⟩ := takes_nodeConstraint_none names room seen noNode c (here.trans seen.symm)
  rw [nodeFirstAtom, scan_bind_of_ok none] at read
  cases read

theorem letter_solid {c : Char} (letter : c.isAlpha = true) :
    Text.isBlank c = false ∧ Text.isDecimalDigit c = false := by
  have inside := letter_bounds letter
  refine ⟨?_, ?_⟩
  · simp [Text.isBlank, Text.blankRanges, Text.Ranges.contains]
    omega
  · rw [Text.isDecimalDigit, Text.digitValue?]
    have ascii : c.toNat < 128 := by omega
    have noDigit : ¬ (48 ≤ c.toNat ∧ c.toNat ≤ 57) := by omega
    simp only [ascii, noDigit, if_true, if_false]
    rfl

theorem startsItem_blankOrDigit {c : Char}
    (blankOrDigit : Text.isBlank c = true ∨ Text.isDecimalDigit c = true) :
    c ≠ '}' ∧ startsItem c = false := by
  refine ⟨by rintro rfl; revert blankOrDigit; decide, Bool.eq_false_iff.mpr fun starts => ?_⟩
  simp only [startsItem, Bool.or_eq_true, List.contains_iff_mem, List.mem_cons, List.not_mem_nil,
    or_false] at starts
  rcases starts with letter | rfl | rfl | rfl | rfl | rfl | rfl
  · obtain ⟨noBlank, noDigit⟩ := letter_solid letter
    simp [noBlank, noDigit] at blankOrDigit
  all_goals revert blankOrDigit; decide

theorem test_of_isBlank {test : Char → Bool} {answer : Bool}
    (each : [' ', '\t', '\n', '\r'].map test = List.replicate 4 answer) {c : Char}
    (blank : isBlank c = true) : test c = answer := by
  simp only [isBlank, Bool.or_eq_true, beq_iff_eq] at blank
  have member : c ∈ [' ', '\t', '\n', '\r'] := by simpa [or_assoc] using blank
  have answered := List.mem_map_of_mem (f := test) member
  rw [each] at answered
  exact List.eq_of_mem_replicate answered

/-- Behind the brace of a cardinality there is neither a closing brace nor an item. -/
theorem startsCardinality_inside {text : List Char}
    (starts : startsCardinality ('{' :: text) = true) :
    ∃ first rest, skipText text = first :: rest ∧ first ≠ '}' ∧ startsItem first = false := by
  rw [startsCardinality] at starts
  induction text with
  | nil => cases starts
  | cons c rest ih =>
    by_cases blank : isBlank c = true
    · have wide : Text.isBlank c = true := test_of_isBlank (by decide) blank
      rw [Text.trimStart, List.dropWhile_cons_of_pos wide] at starts
      obtain ⟨first, more, seen, apart⟩ := ih starts
      exact ⟨first, more, (skipFrom_blank blank rest).trans seen, apart⟩
    · have blankOrDigit : Text.isBlank c = true ∨ Text.isDecimalDigit c = true := by
        by_cases wide : Text.isBlank c = true
        · exact Or.inl wide
        · rw [Text.trimStart, List.dropWhile_cons_of_neg wide] at starts
          exact Or.inr starts
      have solid : isSolid c = true := by
        simp only [isSolid, Bool.and_eq_true, Bool.not_eq_true', bne_iff_ne]
        refine ⟨⟨Bool.eq_false_iff.mpr blank, ?_⟩, ?_⟩ <;> (rintro rfl; revert blankOrDigit; decide)
      exact ⟨c, rest, skipText_solid solid rest, startsItem_blankOrDigit blankOrDigit⟩

/-- A text that ends a triple constraint, or starts with a cardinality in braces. -/
def EndsValue (text : List Char) : Prop :=
  endsConstraint text.head? = true ∨ startsCardinality text = true

/-- Such a text is empty, or starts with a character that starts no keyword and
no node constraint. -/
theorem EndsValue.cases {text : List Char} (ends : EndsValue text) :
    text = [] ∨ ∃ first rest, text = first :: rest ∧ isNeutral first = true ∧
      startsNode first = false ∧
      first ∉ ['(', '.', '@'] ∧ (first = '{' → startsCardinality text = true) := by
  cases text with
  | nil => exact Or.inl rfl
  | cons first rest =>
    have member : first ∈ ['{', ';', '}', ')', '|', '?', '*', '+'] := by
      rcases ends with mark | count
      · exact List.mem_cons_of_mem _ (List.contains_iff_mem.mp mark)
      · unfold startsCardinality at count
        split at count
        · next same =>
          cases same
          exact List.mem_cons_self
        · cases count
    have all : ['{', ';', '}', ')', '|', '?', '*', '+'].all (fun c =>
        isNeutral c && !startsNode c && !(['(', '.', '@'].contains c)) = true := by decide
    have apart := List.all_eq_true.mp all first member
    simp only [Bool.and_eq_true, Bool.not_eq_true', List.contains_eq_mem,
      decide_eq_false_iff_not] at apart
    refine Or.inr ⟨first, rest, rfl, apart.1.1, apart.1.2, apart.2, ?_⟩
    rintro rfl
    exact ends.resolve_left (by rw [List.head?_cons]; decide)

/-- No operand starts where the value of a triple constraint ends. -/
theorem shapeAtom_fails (names : Names) {nested : Nested} (room : 0 < nested.bound)
    (refuses : RefusesOthers nested.tripleExpr) {c : Cursor} (ends : EndsValue (skipText c.rest))
    (result : ShapeExpr) (c' : Cursor) : shapeAtom names nested c ≠ .ok (result, c') := by
  intro read
  rw [shapeAtom_eq, scan_bind_of_ok (looks_peek c)] at read
  rcases ends.cases with ended | ⟨first, rest, here, neutral, noNode, other, count⟩
  · rw [ended] at read
    exact atomFrom_fails names room ended result c' read
  · have still : skipText c.skip.rest = first :: rest := (skipText_skipText c.rest).trans here
    simp only [List.mem_cons, List.not_mem_nil, or_false, not_or] at other
    obtain ⟨noBracket, noPoint, noReference⟩ := other
    rw [here, atomFrom, if_neg (by simpa using noBracket), if_neg (by simpa using noPoint),
      scan_bind_of_ok (looks_atShapeOrRef c.skip), still, Cursor.skip_skip] at read
    by_cases brace : first = '{'
    · subst brace
      rw [if_pos (by rw [opensShape]; rfl)] at read
      obtain ⟨shape, middle, readShape, -⟩ := scan_bind_ok read
      obtain ⟨same, inside⟩ := shapeOrRef_brace names room still
      rw [here] at count
      obtain ⟨next, more, seen, unclosed, noItem⟩ := startsCardinality_inside (count rfl)
      rw [same] at readShape
      exact shapeBody_fails refuses (by rw [inside, seen]) unclosed noItem shape middle readShape
    · have none : opensShape (first :: rest) = false := by
        rw [opensShape, startsKeyword_neutral (by decide) neutral,
          startsKeyword_neutral (by decide) neutral]
        simp [noReference, brace]
      rw [none, if_neg Bool.false_ne_true] at read
      exact nodeFirstAtom_misses names room still noNode result c' read

/-- A shape expression does not start where the value of a triple constraint ends. -/
theorem shapeExpr_fails (names : Names) (bound : Nat) {c : Cursor}
    (ends : EndsValue (skipText c.rest)) (result : ShapeExpr) (c' : Cursor) :
    shapeExpr names bound c ≠ .ok (result, c') := by
  intro read
  rcases bound with _ | _ | bound
  · cases read
  · exact shapeExpr_narrow names c result c' read
  · obtain ⟨conjunction, middle, readFirst, -⟩ := scan_bind_ok read
    obtain ⟨operand, last, readOperand, -⟩ := scan_bind_ok readFirst
    have noKeyword : startsKeyword "NOT" (skipText c.rest) = false := by
      rcases ends.cases with ended | ⟨first, rest, here, neutral, -⟩
      · rw [ended]
        decide
      · rw [here, startsKeyword_neutral (by decide) neutral]
    rw [shapeNot, scan_bind_of_ok (tryKeyword_miss noKeyword), if_neg Bool.false_ne_true]
      at readOperand
    have still : EndsValue (skipText c.skip.rest) := by rwa [Cursor.skip_rest, skipText_skipText]
    have refuses : RefusesOthers (tripleExpr names (bound + 1)) :=
      tripleExprWith_refusesOthers names _
    exact shapeAtom_fails names (Nat.succ_pos bound) refuses still operand last readOperand

/-! ### A point as a value -/

theorem shapeNot_point (names : Names) (nested : Nested) {c : Cursor} {rest : List Char}
    (here : skipText c.rest = '.' :: rest) :
    shapeNot names nested c = .ok (.any, c.skip.advance 1) ∧ (c.skip.advance 1).rest = rest := by
  obtain ⟨point, behind⟩ := expect_here "." (c := c.skip) here (by decide) rfl
  refine ⟨?_, behind⟩
  have noKeyword : startsKeyword "NOT" (skipText c.rest) = false := by
    rw [here, startsKeyword_neutral (by decide) (by decide)]
  have still : skipText c.skip.rest = '.' :: rest := (skipText_skipText c.rest).trans here
  rw [shapeNot, scan_bind_of_ok (tryKeyword_miss noKeyword), if_neg Bool.false_ne_true,
    shapeAtom_eq, scan_bind_of_ok (looks_peek c.skip), still, Cursor.skip_skip, atomFrom,
    if_neg (by simp), if_pos (List.head?_cons ..)]
  exact scan_bind_of_ok point

/-- Without a separator there are no further operands. -/
theorem operandsAfter_miss {α : Type} {separator : Scan Bool} {operand : Scan α} {bound : Nat}
    {c c' : Cursor} (room : 0 < bound) (miss : separator c = .ok (false, c')) :
    operandsAfter separator operand bound c = .ok ([], c') := by
  obtain ⟨bound, rfl⟩ := Nat.exists_eq_succ_of_ne_zero (Nat.ne_of_gt room)
  rw [operandsAfter_succ, operandsRound, scan_bind_of_ok miss]
  rfl

/-- If there are no further operands, no operator comes next. -/
theorem operandsAfter_nil {α : Type} {keyword : String} {operand : Scan α} {bound : Nat}
    {c c' : Cursor} (read : operandsAfter (tryKeyword keyword) operand bound c = .ok ([], c')) :
    c' = c.skip := by
  cases bound with
  | zero => cases read
  | succ bound =>
    have tried := (tryKeyword_token keyword).found (c := c) rfl
    rw [operandsAfter_succ, operandsRound, scan_bind_of_ok tried] at read
    cases starts : startsKeyword keyword (skipText c.rest) with
    | true =>
      rw [starts, if_pos rfl] at read
      obtain ⟨first, middle, -, readOthers⟩ := scan_bind_ok read
      obtain ⟨others, last, -, same⟩ := scan_bind_ok readOthers
      cases same
    | false =>
      rw [starts] at read
      cases read
      rfl

/-- Behind a point that is not followed by an operator a shape expression ends. -/
theorem shapeExpr_point (names : Names) (bound : Nat) {c : Cursor} {rest : List Char}
    (here : skipText c.rest = '.' :: rest) (noAnd : startsKeyword "AND" (skipText rest) = false)
    (noOr : startsKeyword "OR" (skipText rest) = false) :
    ∃ c', shapeExpr names (bound + 2) c = .ok (.any, c') ∧ c'.rest = skipText rest := by
  obtain ⟨point, behind⟩ := shapeNot_point names (nested names (bound + 1)) here
  have room : 0 < (nested names (bound + 1)).bound := Nat.succ_pos bound
  have alone : shapeAnd names (nested names (bound + 1)) c =
      .ok (.any, (c.skip.advance 1).skip) := by
    rw [shapeAnd, scan_bind_of_ok point,
      scan_bind_of_ok (operandsAfter_miss room (tryKeyword_miss (by rw [behind, noAnd])))]
    rfl
  refine ⟨(c.skip.advance 1).skip, ?_, by rw [Cursor.skip_rest, behind]⟩
  change shapeExprWith names (nested names (bound + 1)) c = _
  rw [shapeExprWith, scan_bind_of_ok alone,
    scan_bind_of_ok (operandsAfter_miss room (tryKeyword_miss ?_)), Cursor.skip_skip]
  · rfl
  · rw [Cursor.skip_rest, skipText_skipText, behind, noOr]

theorem combine_eq_any (make : List ShapeExpr → ShapeExpr)
    (other : ∀ operands, make operands ≠ .any) {first : ShapeExpr} {others : List ShapeExpr}
    (same : combine make first others = .any) : others = [] ∧ first = .any := by
  unfold combine at same
  split at same
  · next empty => exact ⟨List.isEmpty_iff.mp empty, same⟩
  · exact absurd same (other _)

/-- A shape expression that starts with a point and means no more than it ends
behind it. -/
theorem shapeExpr_any (names : Names) {bound : Nat} {c c' : Cursor} {rest : List Char}
    (here : skipText c.rest = '.' :: rest) (read : shapeExpr names bound c = .ok (.any, c')) :
    c'.rest = skipText rest := by
  cases bound with
  | zero => cases read
  | succ bound =>
    obtain ⟨point, behind⟩ := shapeNot_point names (nested names bound) here
    obtain ⟨conjunction, middle, readFirst, readNext⟩ := scan_bind_ok read
    obtain ⟨others, last, readOthers, same⟩ := scan_bind_ok readNext
    obtain ⟨rfl, rfl⟩ := combine_eq_any .or (by simp) (congrArg Prod.fst (Except.ok.inj same))
    obtain ⟨operand, next, readOperand, readMore⟩ := scan_bind_ok readFirst
    obtain ⟨more, final, readSome, alike⟩ := scan_bind_ok readMore
    obtain ⟨rfl, rfl⟩ := combine_eq_any .and (by simp) (congrArg Prod.fst (Except.ok.inj alike))
    cases point.symm.trans readOperand
    cases same
    cases alike
    rw [operandsAfter_nil readOthers, operandsAfter_nil readSome, Cursor.skip_skip,
      Cursor.skip_rest, behind]

/-! ### Values in front of cardinalities -/

namespace Cardinality

theorem inside_chars (k : Cardinality) {c : Char} (member : c ∈ k.inside) :
    c.isDigit = true ∨ c ∈ [',', '*', '}'] := by
  have digit : ∀ (m : Count), c ∈ decimalDigits m.value → c.isDigit = true := by
    intro m inside
    obtain ⟨first, others, digits, each⟩ := m.digits
    exact each c (digits ▸ inside)
  cases k with
  | optional | star | plus => cases member
  | exactly m | atLeast m starred | between m n => grind [inside]

def sequel (k : Cardinality) : Sequel where
  spaced := true
  mark := k.mark
  more := k.inside
  isMark := by cases k <;> simp [Cardinality.mark]
  adjacent := nofun
  plain := by
    have apart : ∀ c, c.isDigit = false → c ∉ [',', '*', '}'] → c ∉ k.inside := by
      intro c noDigit other member
      rcases k.inside_chars member with digit | mark
      · rw [noDigit] at digit
        cases digit
      · exact other mark
    exact ⟨apart '\n' (by decide) (by decide), apart '/' (by decide) (by decide)⟩
  noNumeral := by cases k <;> rfl

/-- What decides whether a cardinality is read behind a value. If it stands in
braces, these are read as a shape where an empty shape would be. Else it is
read unless it belongs to a comment, and then a bracket does too. -/
def rival (k : Cardinality) : List Char :=
  if k.mark = '{' then ['{', '}'] else [')']

def rivalSequel (k : Cardinality) : Sequel :=
  if k.mark = '{' then
    ⟨true, '{', ['}'], by decide, nofun, by decide, rfl⟩
  else
    ⟨true, ')', [], Sequel.isMark_closing, nofun, by decide, rfl⟩

theorem sequel_text (k : Cardinality) : k.sequel.text = ' ' :: k.text :=
  rfl

theorem rivalSequel_text (k : Cardinality) : k.rivalSequel.text = ' ' :: k.rival := by
  unfold rivalSequel rival
  split <;> rfl

theorem sequel_braces {k : Cardinality} (braced : k.mark = '{') : CountBraces k.sequel := by
  obtain ⟨digit, rest, inside, isDigit⟩ := inside_digit braced
  exact ⟨digit, rest, by rw [← braced, ← inside]; rfl, isDigit⟩

theorem rivalSequel_braces {k : Cardinality} (braced : k.mark = '{') :
    EmptyBraces k.rivalSequel := by
  rw [rivalSequel, if_pos braced]
  rfl

def both (k : Cardinality) (written : Bool) : Sequel :=
  if written then k.sequel else k.rivalSequel

/-- Both stand in braces, one around a number and one around nothing, or
neither of them starts with a brace. -/
theorem both_uniform (k : Cardinality) : Uniform k.both := by
  by_cases braced : k.mark = '{'
  · refine Or.inr fun written => ?_
    cases written with
    | true => exact Or.inr (sequel_braces braced)
    | false => exact Or.inl (rivalSequel_braces braced)
  · refine Or.inl fun written => ?_
    cases written with
    | true => exact braced
    | false => simp [both, rivalSequel, braced]

end Cardinality

theorem EmptyBraces.not_count {s : Sequel} (empty : EmptyBraces s) : ¬ CountBraces s := by
  rintro ⟨digit, rest, seen, isDigit⟩
  cases empty.symm.trans seen
  cases isDigit

/-- At the end of the text that is read alone, the cursors stand before what
follows or have used it up in a comment. -/
theorem trails_ended {ι : Type} {back : ι → Sequel} {c : Cursor} {ds : ι → Cursor}
    (trails : Trails back true c ds) (spent : c.rest = []) :
    (∀ i, (ds i).rest ≠ [] ∧ skipText (ds i).rest = (back i).seen) ∨ ∀ i, (ds i).rest = [] := by
  rcases trails with attached | ⟨-, there⟩
  · refine Or.inl fun i => ?_
    rw [attached, spent, List.nil_append, Sequel.skipText_text]
    obtain ⟨first, rest, same, -⟩ := (back i).stops
    exact ⟨by simp [same], rfl⟩
  · refine (there rfl).imp_left fun seen i => ?_
    rw [seen, Sequel.skipText_seen]
    exact ⟨nofun, rfl⟩

/-- The bound at the start of a text is wide enough for it. -/
theorem start_enough (text : List Char) :
    (Cursor.start text).rest.length + 1 < (Cursor.start text).bound := by
  rw [Cursor.bound]
  exact Nat.lt_succ_self _

theorem exists_wide (a b c : Nat) : ∃ wide, a ≤ wide ∧ b ≤ wide ∧ c ≤ wide :=
  ⟨a + b + c, by omega, by omega, by omega⟩

theorem shapeExpr_wider (names : Names) {bound other : Nat} {c : Cursor}
    (enough : c.rest.length + 1 < bound) (wider : bound ≤ other) :
    shapeExpr names bound c = shapeExpr names other c :=
  (shapeExpr_paced names enough (Nat.lt_of_lt_of_le enough wider) c (Nat.lt_succ_self _)).1

theorem shapeExpr_skip (names : Names) (bound : Nat) (c : Cursor) :
    shapeExpr names bound c.skip = shapeExpr names bound c := by
  cases bound with
  | zero => rfl
  | succ bound => exact ((((tryKeyword_skipsFirst "NOT").bind _).bind _).bind _) c

/-- A bound that is wide enough gives the reading from the start of a text. -/
theorem shapeExpr_start (names : Names) {text : List Char} {wide : Nat}
    (fits : (Cursor.start text).bound ≤ wide) :
    shapeExpr names (Cursor.start text).bound (Cursor.start text) =
      shapeExpr names wide (Cursor.start text).skip := by
  rw [shapeExpr_skip, shapeExpr_wider names (start_enough text) fits]

/-- A text that is read to its end starts with something, and what follows it
stays behind that. -/
theorem ReadsWhole.attached {names : Names} {v : List Char} {e : ShapeExpr}
    (read : ReadsWhole (shapeExpr names) v e) :
    ¬ EndsValue (skipText v) ∧ skipText v ≠ [] ∧
      ∀ s : Sequel, skipText (v ++ s.text) = skipText v ++ s.text := by
  obtain ⟨c', alone, -⟩ := read
  have starts : ¬ EndsValue (skipText v) := fun ends => shapeExpr_fails names _ ends e c' alone
  have something : skipText v ≠ [] := fun none => starts (Or.inl (by rw [none]; rfl))
  exact ⟨starts, something, fun s => skipText_append something s.stops⟩

/-- What a reader leaves of what stands behind a text: all of it, and then the
text cannot be read together with its rival; or nothing, and then it can. -/
def Leaves {α : Type} (scan : Nat → Scan α) (left rival : List Char) (result : α)
    (outcome : Except Fault (α × Cursor)) : Prop :=
  ((∃ d, outcome = .ok (result, d) ∧ skipText d.rest = left) ∧
    ¬ ∃ other, ReadsWhole scan rival other) ∨
  ((∀ other d, outcome = .ok (other, d) → skipText d.rest = []) ∧
    ∃ other, ReadsWhole scan rival other)

theorem Leaves.of_trails {α : Type} {scan : Nat → Scan α} {rival : List Char} {result : α}
    {back : Bool → Sequel} {c : Cursor} {ds : Bool → Cursor} (trails : Trails back true c ds)
    (spent : c.rest = [])
    (rivals : scan (Cursor.start rival).bound (Cursor.start rival) = .ok (result, ds false)) :
    Leaves scan (back true).seen rival result (.ok (result, ds true)) := by
  rcases trails_ended trails spent with left | none
  · refine Or.inl ⟨⟨ds true, rfl, (left true).2⟩, ?_⟩
    rintro ⟨other, p, read, whole⟩
    cases rivals.symm.trans read
    exact (left false).1 whole
  · refine Or.inr ⟨?_, result, ds false, rivals, none false⟩
    rintro other d ⟨⟩
    rw [none true]
    rfl

theorem shapeExpr_leaves (names : Names) (k : Cardinality) {v : List Char} {e : ShapeExpr}
    (read : ReadsWhole (shapeExpr names) v e) {bound : Nat} {d : Cursor}
    (here : d.rest = skipText v ++ ' ' :: k.text) (enough : d.rest.length + 1 < bound) :
    Leaves (shapeExpr names) k.text (v ++ ' ' :: k.rival) e (shapeExpr names bound d) := by
  obtain ⟨-, -, attached⟩ := read.attached
  obtain ⟨c', alone, spent⟩ := read
  -- One bound serves for all three texts.
  obtain ⟨wide, fits, fitsAlone, fitsRival⟩ := exists_wide bound (Cursor.start v).bound
    (Cursor.start (v ++ ' ' :: k.rival)).bound
  have start := shapeExpr_start names fitsRival
  rw [shapeExpr_start names fitsAlone] at alone
  rw [shapeExpr_wider names enough fits]
  have behind : (Cursor.start (v ++ ' ' :: k.rival)).skip.rest = skipText v ++
      k.rivalSequel.text := by
    rw [← attached, Cardinality.rivalSequel_text]
    rfl
  generalize (Cursor.start (v ++ ' ' :: k.rival)).skip = p at start behind
  -- The cardinality and its rival are followed side by side: the end of the value tells them apart
  -- only where it opens braces.
  have trails : Trails k.both true (Cursor.start v).skip fun written =>
      if written then d else p := by
    refine Or.inl fun written => ?_
    cases written with
    | true => exact here
    | false => exact behind
  rcases ((nested_faces names k.both_uniform wide).1 true).resumes alone
    trails with resumes | ⟨-, -, opens⟩
  · rcases resumes with jam | ⟨⟨⟩, -⟩ | ⟨ds, same, trailing⟩
    · exact absurd spent jam.ne_nil
    · have written : shapeExpr names wide d = .ok (e, ds true) := same true
      rw [written]
      exact .of_trails trailing spent (start.trans (same false))
  · have braced : k.mark = '{' := (opens true).mark
    refine Or.inr ⟨fun result d' read => ?_, ?_⟩
    · rcases opens true with ⟨empty, -⟩ | ⟨-, fails⟩
      · exact absurd (Cardinality.sequel_braces braced) empty.not_count
      · exact absurd read (fails result d')
    · rcases opens false with ⟨-, other, p', read, whole⟩ | ⟨count, -⟩
      · exact ⟨other, p', start.trans read, whole⟩
      · exact absurd count (Cardinality.rivalSequel_braces braced).not_count

theorem point_leaves (names : Names) (k : Cardinality) {v rest : List Char}
    (seen : skipText v = '.' :: rest)
    (attached : ∀ s : Sequel, skipText (v ++ s.text) = skipText v ++ s.text)
    (blank : skipText rest = []) {d : Cursor} (behind : d.rest = rest ++ k.sequel.text) :
    Leaves (shapeExpr names) k.text (v ++ ' ' :: k.rival) .any (.ok (.any, d)) := by
  have start : skipText (Cursor.start (v ++ ' ' :: k.rival)).rest = '.' ::
      (rest ++ k.rivalSequel.text) := by
    rw [← List.cons_append, ← seen, ← attached, Cardinality.rivalSequel_text]
    rfl
  have pointed : ∀ {left : List Char}, skipText (rest ++ k.rivalSequel.text) = left →
      (∀ keyword, isKeyword keyword = true → startsKeyword keyword left = false) →
      ∃ p, shapeExpr names (Cursor.start (v ++ ' ' :: k.rival)).bound
        (Cursor.start (v ++ ' ' :: k.rival)) =
        .ok (.any, p) ∧ p.rest = left := by
    rintro left rfl noKeyword
    exact shapeExpr_point names _ start (noKeyword "AND" (by decide)) (noKeyword "OR" (by decide))
  rcases skipsAlike .blanks rest with ⟨more, -⟩ | ⟨-, left | none⟩
  · exact absurd blank more
  · obtain ⟨p, read, remains⟩ := pointed (left _) fun keyword word => startsKeyword_seen word _
    refine Or.inl ⟨⟨d, rfl, by rw [behind]; exact left k.sequel⟩, ?_⟩
    rintro ⟨other, p', alike, whole⟩
    cases read.symm.trans alike
    cases remains.symm.trans whole
  · obtain ⟨p, read, spent⟩ := pointed (none _) fun keyword word =>
      startsKeyword_nil (isKeyword_iff.mp word).1
    refine Or.inr ⟨?_, .any, p, read, spent⟩
    rintro result d' ⟨⟩
    rw [behind]
    exact none k.sequel

/-- The value of a triple constraint in front of a cardinality leaves the
cardinality, or takes all of it in a comment. -/
theorem constraintValue_leaves (names : Names) (k : Cardinality) {v : List Char} {e : ShapeExpr}
    (read : ReadsWhole (shapeExpr names) v e) (point : (skipText v).head? = some '.' → e = .any)
    {bound : Nat} {c : Cursor} (here : skipText c.rest = skipText (v ++ ' ' :: k.text))
    (enough : c.rest.length + 1 < bound) :
    Leaves (shapeExpr names) k.text (v ++ ' ' :: k.rival) e
      (constraintValue (nested names bound) c) := by
  obtain ⟨starts, something, attached⟩ := read.attached
  rw [← Cardinality.sequel_text, attached] at here
  have head : (skipText c.rest).head? = (skipText v).head? := by
    rw [here, List.head?_append_of_ne_nil _ something]
  rw [constraintValue_eq, scan_bind_of_ok (looks_peek c), head]
  by_cases dot : (skipText v).head? = some '.'
  · obtain rfl := point dot
    obtain ⟨rest, seen⟩ := List.head?_eq_some_iff.mp dot
    rw [seen] at here
    obtain ⟨pointed, behind⟩ := expect_here "." (c := c.skip) here (by decide) rfl
    have value : valueFrom (nested names bound) (skipText v).head? c.skip =
        .ok (.any, c.skip.advance 1) := by
      rw [valueFrom, if_pos dot]
      exact scan_bind_of_ok pointed
    obtain ⟨c', alone, spent⟩ := read
    have blank : skipText rest = [] :=
      (shapeExpr_any names (c := Cursor.start v) seen alone).symm.trans spent
    rw [value]
    exact point_leaves names k seen attached blank behind
  · have ends : ¬ endsConstraint (skipText v).head? = true := fun mark => starts (Or.inl mark)
    have count : ¬ startsCardinality (skipText c.skip.rest) = true := by
      rw [Cursor.skip_rest, skipText_skipText, here, startsCardinality_text something]
      exact fun brace => starts (Or.inr brace)
    rw [valueFrom, if_neg dot, if_neg ends, scan_bind_of_ok (looks_rest c.skip), id, if_neg count,
      Cursor.skip_skip]
    refine shapeExpr_leaves names k read here (Nat.lt_of_le_of_lt (Nat.succ_le_succ ?_) enough)
    exact (List.length_drop ..).trans_le (Nat.sub_le _ _)

/-! ### Triple constraints with a cardinality -/

/-- An IRI is read up to the closing bracket behind it. -/
theorem iriRef_reads {p rest : List Char} (free : '>' ∉ p) {c : Cursor}
    (here : skipText c.rest = '<' :: p ++ '>' :: rest) :
    iriRef c = .ok (String.ofList p, c.skip.advance (p.length + 2)) := by
  have inside : ∀ x ∈ '<' :: p, (x != '>') = true := by
    intro x member
    rcases List.mem_cons.mp member with rfl | member
    · rfl
    · exact bne_iff_ne.mpr fun same => free (same ▸ member)
  have taken : (skipText c.rest).takeWhile (· != '>') = '<' :: p := by
    rw [here, List.takeWhile_append_of_pos inside]
    simp
  have dropped : (skipText c.rest).dropWhile (· != '>') = '>' :: rest := by
    rw [here, List.dropWhile_append_of_pos inside]
    simp
  refine iriRef_token.found ?_
  rw [iriRef?, taken, dropped, here]
  simp

theorem resolvedIriRef_reads (names : Names) {p rest : List Char} {iri : String} (free : '>' ∉ p)
    (resolved : names.resolve (String.ofList p) = .ok iri) {c : Cursor}
    (here : skipText c.rest = '<' :: p ++ '>' :: rest) :
    ∃ c', resolvedIriRef names c = .ok (iri, c') ∧ c'.rest = rest := by
  refine ⟨c.skip.advance (p.length + 2), ?_, ?_⟩
  · rw [resolvedIriRef, scan_bind_of_ok (iriRef_reads free here), resolved]
    rfl
  · rw [Cursor.advance_rest, Cursor.skip_rest, here]
    simp

/-- Behind its predicate a triple constraint is a value and a cardinality. -/
theorem tripleConstraint_eq (names : Names) {p : List Char} {predicate : String} (free : '>' ∉ p)
    (resolved : names.resolve (String.ofList p) = .ok predicate) (rest : List Char) (bound : Nat) :
    ∃ c : Cursor, c.rest = rest ∧ tripleConstraint names bound
      (Cursor.start ('<' :: p ++ '>' :: rest)) =
      (constraintValue (nested names bound) >>= fun value => cardinality? >>= fun bounds =>
        pure (.constraint (.string predicate) false value (bounds.getD {}) .null)) c := by
  have start : skipText (Cursor.start ('<' :: p ++ '>' :: rest)).rest = '<' :: p ++ '>' :: rest :=
    skipText_solid (by decide) _
  generalize Cursor.start ('<' :: p ++ '>' :: rest) = c at start
  have forward : tryText "^" c = .ok (false, c.skip) := by
    refine tryText_miss (by decide) ?_
    rw [start]
    rfl
  have noWord : startsRdfType (skipText c.skip.rest) = false := by
    rw [Cursor.skip_rest, skipText_skipText, start]
    rfl
  have still : skipText c.skip.rest = '<' :: p ++ '>' :: rest :=
    (skipText_skipText c.rest).trans start
  obtain ⟨c', read, behind⟩ := resolvedIriRef_reads names free resolved still
  have named : Scan.predicate names c.skip = .ok (predicate, c') := by
    rw [predicate_eq, scan_bind_of_ok (looks_atRdfType c.skip), noWord,
      if_neg Bool.false_ne_true, iri, scan_bind_of_ok (looks_peek _), Cursor.skip_skip,
      Cursor.skip_skip, still, List.cons_append, if_pos (List.head?_cons ..), read]
  refine ⟨c', behind, ?_⟩
  rw [tripleConstraint, tripleConstraintWith, scan_bind_of_ok forward, scan_bind_of_ok named]

/-- No cardinality stands for the bounds of a constraint without one. -/
theorem Cardinality.bounds_ne_default (k : Cardinality) : k.bounds ≠ {} := by
  cases k <;> nofun

theorem cardinality?_end {c : Cursor} (ended : skipText c.rest = []) :
    cardinality? c = .ok (none, c.skip) := by
  rw [cardinality?, scan_bind_of_ok (looks_atEnd c), ended]
  rfl

/-- Where a point comes next, the value is the point. -/
theorem constraintValue_point (nested : Nested) {c d : Cursor} {value : ShapeExpr}
    (head : (skipText c.rest).head? = some '.') (read : constraintValue nested c = .ok (value, d)) :
    value = .any := by
  rw [constraintValue_eq, scan_bind_of_ok (looks_peek c), valueFrom, if_pos head] at read
  obtain ⟨-, middle, -, same⟩ := scan_bind_ok read
  cases same
  rfl

/-- A triple constraint of an IRI, a value that can be read by itself and a
cardinality is read to its end, with the meaning of its parts, if the value
starts with a point only where it is one, and if the value cannot be read
together with the rival of the cardinality. Otherwise the cardinality is not
read. -/
theorem tripleConstraint_cardinality_iff (names : Names) {p v : List Char} {predicate : String}
    {e : ShapeExpr} (free : '>' ∉ p) (resolved : names.resolve (String.ofList p) = .ok predicate)
    (read : ReadsWhole (shapeExpr names) v e) (k : Cardinality) :
    ReadsWhole (tripleConstraint names) ('<' :: p ++ '>' :: ' ' :: (v ++ ' ' :: k.text))
        (.constraint (.string predicate) false e k.bounds .null) ↔
      ((skipText v).head? = some '.' → e = .any) ∧
        ¬ ∃ other, ReadsWhole (shapeExpr names) (v ++ ' ' :: k.rival) other := by
  obtain ⟨c, here, same⟩ := tripleConstraint_eq names free resolved (' ' :: (v ++ ' ' :: k.text))
    (Cursor.start ('<' :: p ++ '>' :: ' ' :: (v ++ ' ' :: k.text))).bound
  have seen : skipText c.rest = skipText (v ++ ' ' :: k.text) := by
    rw [here]
    rfl
  have enough : c.rest.length + 1 < (Cursor.start
      ('<' :: p ++ '>' :: ' ' :: (v ++ ' ' :: k.text))).bound := by
    rw [here]
    simp [Cursor.bound, Cursor.start]
    omega
  have leaves := fun point => constraintValue_leaves names k read point seen enough
  obtain ⟨-, something, attached⟩ := read.attached
  rw [ReadsWhole, same]
  constructor
  · rintro ⟨c', all, spent⟩
    obtain ⟨value, d, readValue, readBounds⟩ := scan_bind_ok all
    obtain ⟨bounds, last, counted, final⟩ := scan_bind_ok readBounds
    have parts := congrArg Prod.fst (Except.ok.inj final)
    injection parts with _ _ sameValue sameBounds _
    subst sameValue
    have point : (skipText v).head? = some '.' → value = .any := by
      intro head
      refine constraintValue_point _ ?_ readValue
      rw [seen, ← Cardinality.sequel_text, attached, List.head?_append_of_ne_nil _ something, head]
    refine ⟨point, ?_⟩
    rcases leaves point with ⟨-, noRival⟩ | ⟨nothing, -⟩
    · exact noRival
    · cases counted.symm.trans (cardinality?_end (nothing value d readValue))
      exact absurd sameBounds.symm k.bounds_ne_default
  · rintro ⟨point, noRival⟩
    rcases leaves point with ⟨⟨d, readValue, left⟩, -⟩ | ⟨-, rival⟩
    · obtain ⟨c', counted, spent⟩ := cardinality?_reads k left
      refine ⟨c', ?_, spent⟩
      rw [scan_bind_of_ok readValue, scan_bind_of_ok counted]
      rfl
    · exact absurd rival noRival

/-- Behind a reference a cardinality in braces is read. Behind a node kind it
is not, as braces there are a shape. -/
theorem tripleConstraint_cardinality_braces :
    ReadsWhole (tripleConstraint {}) "<p> @<S> \x7b2,3\x7d".toList
        (.constraint (.string "p") false (.reference "S") { min := .int 2, max := .int 3 } .null) ∧
      ¬ ReadsWhole (tripleConstraint {}) "<p> IRI \x7b1\x7d".toList
        (.constraint (.string "p") false (.node { nodeKind := some .iri })
          { min := .int 1, max := .int 1 } .null) := by
  have reference : ReadsWhole (shapeExpr {}) "@<S>".toList (.reference "S") := ⟨_, rfl, rfl⟩
  have kind : ReadsWhole (shapeExpr {}) "IRI".toList (.node { nodeKind := some .iri }) :=
    ⟨_, rfl, rfl⟩
  have empty : ReadsWhole (shapeExpr {}) "IRI \x7b\x7d".toList
      (.and [.node { nodeKind := some .iri }, .shape none false []]) := ⟨_, rfl, rfl⟩
  have apart : ¬ ∃ other, ReadsWhole (shapeExpr {}) "@<S> \x7b\x7d".toList other := by
    rintro ⟨other, c', read, whole⟩
    cases read
    cases whole
  have free : '>' ∉ ['p'] := by decide
  have resolved : Names.resolve {} (String.ofList ['p']) = .ok "p" := rfl
  have behind := tripleConstraint_cardinality_iff {} free resolved reference
    (.between ⟨2, by decide⟩ ⟨3, by decide⟩)
  have inside := tripleConstraint_cardinality_iff {} free resolved kind (.exactly ⟨1, by decide⟩)
  exact ⟨behind.mpr ⟨nofun, apart⟩, fun read => (inside.mp read).2 ⟨_, empty⟩⟩

end Scan

end ShapeQuery.Compact
