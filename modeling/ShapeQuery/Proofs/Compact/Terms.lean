import ShapeQuery.Proofs.Compact.Reading

/-!
Reading single words back: IRIs, labels, numbers and cardinalities.
-/
namespace ShapeQuery.Compact.Scan

/-! ### IRIs and labels -/

/-- What can stand between angle brackets: a text that is not empty and has no
closing bracket. -/
theorem isIriText_iff {text : String} :
    isIriText text = true ↔ text ≠ "" ∧ '>' ∉ text.toList := by
  simp [isIriText]

theorem isIri_iff {value : Json} :
    isIri value = true ↔ ∃ text, value = .string text ∧ isIriText text = true := by
  cases value <;> simp [isIri]

theorem toList_iriWord (iri : String) : (iriWord iri).toList = '<' :: (iri.toList ++ ['>']) := by
  simp [iriWord]

theorem solid_iriWord (iri : String) : startsSolid (iriWord iri) = true := by
  rw [startsSolid, toList_iriWord]
  rfl

/-- In front of an IRI its opening bracket is seen, and the IRI up to its
closing one. -/
theorem upcoming_iriWord (iri : String) (words : List String) :
    upcoming (iriWord iri :: words) = '<' :: (iri.toList ++ '>' :: after words) := by
  rw [upcoming_cons (solid_iriWord iri), toList_iriWord]
  simp

/-- An IRI without a closing bracket is read back from between its brackets. -/
theorem takes_iriRef {iri : String} (free : '>' ∉ iri.toList) (words : List String) :
    Takes iriRef (iriWord iri :: words) iri words := by
  have seen := upcoming_iriWord iri words
  have written : (upcoming (iriWord iri :: words)).takeWhile (· != '>') = '<' :: iri.toList := by
    rw [seen, List.takeWhile_cons_of_pos (by decide), List.takeWhile_append_of_pos]
    · simp
    · intro c member
      simpa using fun same : c = '>' => free (same ▸ member)
  refine looks_peek.bind ?_
  rw [seen, List.head?_cons, bne_self_eq_false, if_neg (by decide)]
  intro c here
  refine ⟨c.advance (iri.toList.length + 2), ?_, ?_⟩
  · change (if (c.rest.drop (c.rest.takeWhile (· != '>')).length).isEmpty = true then _ else _ :
      Scan String) c = _
    rw [here, written]
    simp [seen]
    rfl
  · rw [Cursor.advance_rest, here, seen]
    simp

theorem takes_iri {iri : String} (written : isIriText iri = true) (words : List String) :
    Takes (Scan.iri {}) (iriWord iri :: words) iri words := by
  have ref := takes_iriRef (isIriText_iff.mp written).2 words
  refine .bind (looks_peek.takes _) ?_
  rw [upcoming_iriWord, List.head?_cons, if_pos rfl]
  exact .bind ref (.pure iri words)

theorem head_iriWord (iri : String) (words : List String) :
    (upcoming (iriWord iri :: words)).head? = some '<' := by
  rw [upcoming_iriWord, List.head?_cons]

theorem takes_label {iri : String} (written : isIriText iri = true) (words : List String) :
    Takes (label {}) (iriWord iri :: words) iri words := by
  have miss : Takes (tryText "_:") (iriWord iri :: words) false (iriWord iri :: words) :=
    takes_tryText_miss (by decide) (by rw [head_iriWord]; decide)
  exact .no miss (takes_iri written words)

theorem takes_predicate {iri : String} (written : isIriText iri = true) (words : List String) :
    Takes (predicate {}) (iriWord iri :: words) iri words := by
  refine .bind (looks_rest.takes _) ?_
  rw [id, upcoming_iriWord, startsRdfType, if_neg (by decide)]
  · exact takes_iri written words
  · exact fun _ _ absurd => by simp at absurd

theorem takes_atIri {iri : String} (words : List String) :
    Takes atIri (iriWord iri :: words) true (iriWord iri :: words) := by
  refine .bind (looks_peek.takes _) ?_
  rw [head_iriWord, if_pos rfl]
  exact .pure true _

/-- No IRI comes next where there is neither a bracket nor a namespace name. -/
theorem takes_atIri_miss {words : List String} (other : (upcoming words).head? ≠ some '<')
    (none : namespaceName? (upcoming words) = none) : Takes atIri words false words := by
  refine .bind (looks_peek.takes _) ?_
  rw [if_neg other]
  have looked := looks_atPrefixedName.takes words
  rw [none] at looked
  exact looked

theorem Quiet.namespaceName? {words : List String} (quiet : Quiet words) :
    namespaceName? (upcoming words) = none := by
  have all : marks.all (fun c => !c.isAlpha && c != ':') = true := by decide
  cases seen : upcoming words with
  | nil => rfl
  | cons c rest =>
    have mark := of_isMark all (quiet c (by rw [seen]; rfl))
    simp only [Bool.and_eq_true, Bool.not_eq_true', bne_iff_ne] at mark
    obtain ⟨noLetter, noColon⟩ := mark
    simp [Compact.namespaceName?, noLetter, noColon]

/-- A marked label, such as a reference, is the mark and the IRI behind it. -/
theorem takes_marked {mark iri : String} (solid : startsSolid mark = true)
    (written : isIriText iri = true) {words : List String} {α : Type} {otherwise : Scan α}
    (make : String → α) :
    Takes (do if ← tryText mark then return make (← label {}) else otherwise)
      ((mark ++ iriWord iri) :: words) (make iri) words :=
  .yes (takes_tryText solid _ words) (.bind (takes_label written words) (.pure _ words))

/-! ### Numbers -/

/-- The value of a decimal digit is told by its place behind zero. -/
theorem digitValue?_of_isDigit {c : Char} (digit : c.isDigit = true) :
    Text.digitValue? c = some (c.toNat - '0'.toNat) := by
  simp only [Char.isDigit, Bool.and_eq_true, decide_eq_true_eq] at digit
  have low : 48 ≤ c.toNat := digit.1
  have high : c.toNat ≤ 57 := digit.2
  rw [Text.digitValue?]
  simp only [show c.toNat < 128 by omega, low, high, and_self, if_true]
  rfl

theorem isDecimalDigit_of_isDigit {c : Char} (digit : c.isDigit = true) :
    Text.isDecimalDigit c = true := by
  rw [Text.isDecimalDigit, digitValue?_of_isDigit digit]
  rfl

theorem isDigit_of_mem {n : Nat} {c : Char} (member : c ∈ decimalDigits n) : c.isDigit = true :=
  Nat.isDigit_of_mem_toDigits (by decide) (by decide) member

theorem solid_of_isDigit {c : Char} (digit : c.isDigit = true) : isSolid c = true := by
  simp only [isSolid, isBlank, Bool.and_eq_true, Bool.not_eq_true', Bool.or_eq_false_iff,
    beq_eq_false_iff_ne, bne_iff_ne, ne_eq]
  refine ⟨⟨⟨⟨⟨?_, ?_⟩, ?_⟩, ?_⟩, ?_⟩, ?_⟩ <;> (rintro rfl; revert digit; decide)

theorem notBlank_of_isDigit {c : Char} (digit : c.isDigit = true) : Text.isBlank c = false := by
  simp only [Char.isDigit, Bool.and_eq_true, decide_eq_true_eq] at digit
  have low : 48 ≤ c.toNat := digit.1
  have high : c.toNat ≤ 57 := digit.2
  simp [Text.isBlank, Text.blankRanges, Text.Ranges.contains]
  omega

/-- Digits are summed up from the left, whatever has been read before them. -/
theorem foldl_digitValues (digits : List Char) (each : ∀ c ∈ digits, c.isDigit = true)
    (value : Nat) :
    (digits.filterMap Text.digitValue?).foldl (fun value digit => value * 10 + digit) value =
      Nat.ofDigitChars 10 digits value := by
  induction digits generalizing value with
  | nil => rfl
  | cons c rest ih =>
    rw [List.forall_mem_cons] at each
    rw [List.filterMap_cons_some (digitValue?_of_isDigit each.1), List.foldl_cons, ih each.2,
      Nat.ofDigitChars_cons, Nat.mul_comm]

/-- The digits of a number have the number as their value. -/
theorem digitsValue_decimalDigits (n : Nat) : digitsValue (decimalDigits n) = n := by
  rw [digitsValue, foldl_digitValues _ fun c member => isDigit_of_mem member, decimalDigits,
    Nat.ofDigitChars_toDigits (by decide) (by decide)]

/-- A number can be read back if it is not negative and not too long. -/
theorem isCount_iff {n : Int} :
    isCount n = true ↔ 0 ≤ n ∧ (decimalDigits n.toNat).length ≤ Json.maxIntegerDigits := by
  simp [isCount]

theorem toList_decimalText {n : Int} (nonneg : 0 ≤ n) :
    (decimalText n).toList = decimalDigits n.toNat := by
  have same : n.natAbs = n.toNat := by omega
  rw [decimalText, if_neg (by omega), String.toList_ofList, same]

theorem decimalText_digits {n : Int} (nonneg : 0 ≤ n) :
    ∃ c others, decimalDigits n.toNat = c :: others ∧ (decimalText n).toList = c :: others ∧
      ∀ d ∈ c :: others, d.isDigit = true := by
  cases digits : decimalDigits n.toNat with
  | nil => exact absurd digits Nat.toDigits_ne_nil
  | cons c others =>
    refine ⟨c, others, rfl, by rw [toList_decimalText nonneg, digits], fun d member => ?_⟩
    rw [← digits] at member
    exact isDigit_of_mem member

theorem solid_decimalText {n : Int} (nonneg : 0 ≤ n) (more : String) :
    startsSolid (decimalText n ++ more) = true := by
  obtain ⟨c, others, -, text, each⟩ := decimalText_digits nonneg
  refine startsSolid_iff.mpr ⟨c, others ++ more.toList, ?_,
    solid_of_isDigit (each c List.mem_cons_self)⟩
  rw [String.toList_append, text, List.cons_append]

/-- A run of digits before a comma or a closing brace is a whole number. -/
theorem numeral?_digits {c : Char} {digits : List Char} (each : ∀ d ∈ c :: digits, d.isDigit = true)
    {stop : Char} (ends : stop = ',' ∨ stop = '}') (rest : List Char) :
    numeral? (c :: digits ++ stop :: rest) = some ⟨.integer, [], c :: digits, []⟩ := by
  have decimal : ∀ d ∈ c :: digits, Text.isDecimalDigit d = true :=
    fun d member => isDecimalDigit_of_isDigit (each d member)
  have sign : signRun (c :: digits ++ stop :: rest) = [] := by
    have digit := each c List.mem_cons_self
    unfold signRun
    split
    · next start =>
      rw [List.cons_append, List.cons.injEq] at start
      rw [start.1] at digit
      revert digit
      decide
    · next start =>
      rw [List.cons_append, List.cons.injEq] at start
      rw [start.1] at digit
      revert digit
      decide
    · rfl
  have noDigit : Text.isDecimalDigit stop = false := by
    rcases ends with rfl | rfl <;> decide
  have whole : digitRun (c :: digits ++ stop :: rest) = c :: digits := by
    rw [digitRun, List.takeWhile_append_of_pos decimal,
      List.takeWhile_cons_of_neg (by simp [noDigit]), List.append_nil]
  have behind : (c :: digits ++ stop :: rest).drop (c :: digits).length = stop :: rest :=
    List.drop_left
  have fraction : fractionRun (stop :: rest) = [] := by
    rcases ends with rfl | rfl <;> rfl
  have exponent : exponentRun (stop :: rest) = [] := by
    rcases ends with rfl | rfl <;> rfl
  simp only [numeral?, sign, List.length_nil, List.drop_zero, whole, behind, fraction,
    List.append_nil, exponent]
  rfl

theorem takes_lexeme {α : Type} {recognise : List Char → Option α} {width : α → Nat}
    {words left : List String} {found : α} (seen : recognise (upcoming words) = some found)
    (moved : TakesAt (advance (width found)) words () left) :
    Takes (lexeme? recognise width) words (some found) left := by
  refine looks_rest.bind ?_
  rw [id, seen]
  exact moved.bind (.pure (some found) left)

theorem takes_lift {α : Type} (value : α) (words : List String) :
    Takes (liftM (Except.ok value : Except Fault α)) words value words :=
  fun c here => ⟨c, rfl, here⟩

/-- A number is read up to the comma or the brace behind it. -/
theorem takes_count {n : Int} (counted : isCount n = true) {more : String} {stop : Char}
    {rest : List Char} (chars : more.toList = stop :: rest) (ends : stop = ',' ∨ stop = '}')
    (words : List String) : Takes count ((decimalText n ++ more) :: words) n (more :: words) := by
  obtain ⟨nonneg, short⟩ := isCount_iff.mp counted
  obtain ⟨c, others, digits, text, each⟩ := decimalText_digits nonneg
  have value := digitsValue_decimalDigits n.toNat
  rw [digits] at short value
  have seen : upcoming ((decimalText n ++ more) :: words) =
      c :: others ++ stop :: (rest ++ after words) := by
    rw [upcoming_cons (solid_decimalText nonneg more), String.toList_append, text, chars]
    simp
  have found := numeral?_digits each ends (rest ++ after words)
  rw [← seen] at found
  have read : Takes tryNumeral ((decimalText n ++ more) :: words)
      (some ⟨.integer, [], c :: others, []⟩) (more :: words) := by
    refine takes_lexeme found (.advance ⟨c :: others, ?_, ?_⟩)
    · rw [seen, chars]
      simp
    · simp [Numeral.text]
  have whole : Numeral.count ⟨.integer, [], c :: others, []⟩ = .ok n := by
    rw [Numeral.count, Numeral.value]
    dsimp only
    rw [if_neg (by omega), value, signed, if_neg (by decide), Int.toNat_of_nonneg nonneg]
    rfl
  refine .bind (.bind read (.pure _ _)) ?_
  rw [whole]
  exact takes_lift n _

/-! ### Cardinalities -/

theorem head_decimalText {n : Int} (nonneg : 0 ≤ n) (more : String) (words : List String) :
    ∃ c, (upcoming ((decimalText n ++ more) :: words)).head? = some c ∧ c.isDigit = true := by
  obtain ⟨c, others, -, text, each⟩ := decimalText_digits nonneg
  refine ⟨c, ?_, each c List.mem_cons_self⟩
  rw [upcoming_head (solid_decimalText nonneg more), String.toList_append, text, List.cons_append,
    List.head?_cons]

def upperText (max : Int) : String :=
  if max < 0 then "*" else decimalText max

theorem boundsWords_eq (min max : Int) :
    boundsWords ⟨.int min, .int max⟩ =
      ["\x7b" ++ (decimalText min ++ ("," ++ (upperText max ++ "\x7d")))] := rfl

/-- Bounds are read back from their braces, with an asterisk for an upper bound
that is missing. -/
theorem takes_braceBounds {min max : Int} (counted : isCount min = true)
    (upper : max = -1 ∨ isCount max = true) (words : List String) :
    Takes braceBounds (boundsWords ⟨.int min, .int max⟩ ++ words) ⟨.int min, .int max⟩ words := by
  rw [boundsWords_eq, List.singleton_append]
  have comma : ("," ++ (upperText max ++ "\x7d")).toList = ',' ::
      (upperText max ++ "\x7d").toList := by
    rw [String.toList_append]
    rfl
  have brace : Takes (expect "\x7d") ("\x7d" :: words) () words :=
    takes_expect (takes_tryText_word (by decide) words)
  refine .bind (takes_expect (takes_tryText (by decide) _ words)) ?_
  refine .bind (takes_count counted comma (Or.inl rfl) words) ?_
  refine .bind (takes_tryText (by decide) _ words) ?_
  rw [if_pos rfl]
  rcases upper with rfl | counted
  · refine .bind (takes_tryText (by decide) _ words) ?_
    rw [if_pos rfl]
    exact .bind (.pure _ _) (.bind brace (.pure _ words))
  · have nonneg := (isCount_iff.mp counted).1
    obtain ⟨c, head, digit⟩ := head_decimalText nonneg "\x7d" words
    rw [upperText, if_neg (by omega)]
    have noStar : Takes (tryText "*") ((decimalText max ++ "\x7d") :: words) false
        ((decimalText max ++ "\x7d") :: words) := by
      refine takes_tryText_miss (by decide) ?_
      rw [head]
      rintro ⟨⟩
      revert digit
      decide
    refine .bind noStar ?_
    rw [if_neg (by decide)]
    refine .bind (looks_peek.takes _) ?_
    rw [head, if_neg (by rintro ⟨⟩; revert digit; decide)]
    refine .bind (takes_count counted (by rfl) (Or.inr rfl) words) ?_
    exact .bind (.pure _ _) (.bind brace (.pure _ words))

/-- Where an item of a group ends. -/
def EndsItem : List String → Prop :=
  StartsWith [';', '|', ')', '}']

def given (bounds : Bounds) : Option Bounds :=
  if bounds.min.isNull then none else some bounds

/-- Bounds that can be written are the default, or two numbers of which the
second may be missing. -/
theorem writableBounds_cases {bounds : Bounds} (written : writableBounds bounds = true) :
    bounds = {} ∨ ∃ min max, bounds = ⟨.int min, .int max⟩ ∧ isCount min = true ∧
      (max = -1 ∨ isCount max = true) := by
  unfold writableBounds at written
  split at written
  · exact Or.inl rfl
  · next min max =>
    simp only [Bool.and_eq_true, Bool.or_eq_true, beq_iff_eq] at written
    exact Or.inr ⟨min, max, rfl, written.1, written.2⟩
  · cases written

theorem given_getD {bounds : Bounds} (written : writableBounds bounds = true) :
    (given bounds).getD {} = bounds := by
  rcases writableBounds_cases written with rfl | ⟨min, max, rfl, -, -⟩
  · rfl
  · rfl

theorem takes_cardinality_none {words : List String} (ends : EndsItem words) :
    Takes cardinality? words none words := by
  have noBrace : startsCardinality (upcoming words) = false := by
    have other := ends.head_ne (c := '{') (by decide)
    unfold startsCardinality
    split
    · next seen => exact absurd (by rw [seen]; rfl) other
    · rfl
  have notEnd : Takes atEnd words false words := by
    obtain ⟨c, -, head⟩ := ends
    exact takes_atEnd_miss head
  refine .no notEnd ?_
  refine .no (takes_tryText_miss (by decide) (ends.head_ne (by decide))) ?_
  refine .no (takes_tryText_miss (by decide) (ends.head_ne (by decide))) ?_
  refine .no (takes_tryText_miss (by decide) (ends.head_ne (by decide))) ?_
  refine .bind (looks_rest.takes words) ?_
  rw [id, noBrace, if_neg (by decide)]
  exact .pure none words

theorem takes_cardinality_some {min max : Int} (counted : isCount min = true)
    (upper : max = -1 ∨ isCount max = true) (words : List String) :
    Takes cardinality? (boundsWords ⟨.int min, .int max⟩ ++ words)
      (some ⟨.int min, .int max⟩) words := by
  have braces := takes_braceBounds counted upper words
  have nonneg := (isCount_iff.mp counted).1
  rw [boundsWords_eq, List.singleton_append] at braces ⊢
  generalize "," ++ (upperText max ++ "\x7d") = more at braces ⊢
  obtain ⟨c, others, -, text, each⟩ := decimalText_digits nonneg
  have digit := each c List.mem_cons_self
  have chars : ("\x7b" ++ (decimalText min ++ more)).toList = '{' :: c ::
      (others ++ more.toList) := by
    rw [String.toList_append, String.toList_append, text]
    rfl
  have seen : upcoming (("\x7b" ++ (decimalText min ++ more)) :: words) =
      '{' :: c :: (others ++ more.toList ++ after words) := by
    rw [upcoming_cons (startsSolid_iff.mpr ⟨_, _, chars, by decide⟩), chars]
    rfl
  have brace : startsCardinality (upcoming (("\x7b" ++ (decimalText min ++ more)) :: words)) =
      true := by
    have solid : Text.isBlank c = false := notBlank_of_isDigit digit
    rw [seen, startsCardinality, Text.trimStart, List.dropWhile_cons_of_neg (by simp [solid])]
    exact isDecimalDigit_of_isDigit digit
  have miss : ∀ text, startsSolid text = true → text.toList.head? ≠ some '{' →
      Takes (tryText text) (("\x7b" ++ (decimalText min ++ more)) :: words) false
        (("\x7b" ++ (decimalText min ++ more)) :: words) := by
    intro text solid other
    refine takes_tryText_miss solid ?_
    rw [seen]
    exact fun same => other same.symm
  refine .bind (looks_atEnd.takes _) ?_
  rw [seen, List.isEmpty_cons, if_neg (by decide)]
  refine .no (miss "?" (by decide) (by decide)) ?_
  refine .no (miss "*" (by decide) (by decide)) ?_
  refine .no (miss "+" (by decide) (by decide)) ?_
  refine .bind (looks_rest.takes _) ?_
  rw [id, brace, if_pos rfl]
  exact .bind braces (.pure _ words)

/-- A cardinality is read back as it was given, or as absent. -/
theorem takes_cardinality {bounds : Bounds} (written : writableBounds bounds = true)
    {words : List String} (ends : EndsItem words) :
    Takes cardinality? (boundsWords bounds ++ words) (given bounds) words := by
  rcases writableBounds_cases written with rfl | ⟨min, max, rfl, counted, upper⟩
  · exact takes_cardinality_none ends
  · exact takes_cardinality_some counted upper words

end ShapeQuery.Compact.Scan
