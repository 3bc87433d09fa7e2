import ShapeQuery.Proofs.Compact.Cardinality
import ShapeQuery.Proofs.Compact.Quotations

/-!
Numerals in value sets. The spelling of numerals is given by a grammar, and the recogniser finds
exactly the numerals of that grammar. In a value set a numeral is read as the literal that it
is, unless it starts with a point: then the point is read as a range without a stem, and the
digits behind it as another numeral.
-/
namespace ShapeQuery.Compact

/-! ### The spelling of numerals -/

def IsSign (text : List Char) : Prop :=
  text = [] ∨ text = ['+'] ∨ text = ['-']

def AreDigits (text : List Char) : Prop :=
  ∀ c ∈ text, Text.isDecimalDigit c = true

/-- Digits in front of an exponent: with a point behind or between them, with
one before them, or with none. -/
inductive IsMantissa : List Char → Prop where
  | pointed {whole fraction : List Char} : whole ≠ [] → AreDigits whole → AreDigits fraction →
    IsMantissa (whole ++ '.' :: fraction)
  | fraction {digits : List Char} : digits ≠ [] → AreDigits digits → IsMantissa ('.' :: digits)
  | whole {digits : List Char} : digits ≠ [] → AreDigits digits → IsMantissa digits

/-- A mark, perhaps a sign, and digits. -/
inductive IsExponent : List Char → Prop where
  | intro {mark : Char} {sign digits : List Char} :
    mark = 'e' ∨ mark = 'E' → IsSign sign → digits ≠ [] →
    AreDigits digits → IsExponent (mark :: (sign ++ digits))

/-- The numerals of each form. -/
inductive Numeral.Spelled : Numeral → Prop where
  | double {sign mantissa exponent : List Char} :
    IsSign sign → IsMantissa mantissa → IsExponent exponent →
    Spelled ⟨.double, sign, mantissa, exponent⟩
  | decimal {sign whole fraction : List Char} : IsSign sign → AreDigits whole → fraction ≠ [] →
    AreDigits fraction → Spelled ⟨.decimal, sign, whole ++ '.' :: fraction, []⟩
  | integer {sign digits : List Char} : IsSign sign → digits ≠ [] → AreDigits digits →
    Spelled ⟨.integer, sign, digits, []⟩

def IsNumeral (text : List Char) : Prop :=
  ∃ n : Numeral, n.Spelled ∧ n.text = text

def IsFraction (text : List Char) : Prop :=
  text = [] ∨ ∃ digits, AreDigits digits ∧ text = '.' :: digits

/-- A mantissa is digits and a fraction, of which one has digits. This is how
the pieces of a numeral are found. -/
theorem isMantissa_iff {text : List Char} :
    IsMantissa text ↔ ∃ whole fraction, AreDigits whole ∧ IsFraction fraction ∧
      (whole ≠ [] ∨ 2 ≤ fraction.length) ∧ whole ++ fraction = text := by
  constructor
  · rintro (⟨some, whole, fraction⟩ | ⟨some, fraction⟩ | ⟨some, whole⟩)
    · exact ⟨_, _, whole, Or.inr ⟨_, fraction, rfl⟩, Or.inl some, rfl⟩
    · have long := List.length_pos_iff.mpr some
      exact ⟨[], _, nofun, Or.inr ⟨_, fraction, rfl⟩, Or.inr (Nat.succ_le_succ long), rfl⟩
    · exact ⟨_, [], whole, Or.inl rfl, Or.inl some, List.append_nil _⟩
  · rintro ⟨whole, fraction, digits, rfl | ⟨more, behind, rfl⟩, some | long, rfl⟩
    · rw [List.append_nil]
      exact .whole some digits
    · cases long
    · exact .pointed some digits behind
    · have some : more ≠ [] := List.length_pos_iff.mp (Nat.le_of_succ_le_succ long)
      cases whole with
      | nil => exact .fraction some behind
      | cons first rest => exact .pointed (List.cons_ne_nil _ _) digits behind

/-! ### What the recogniser finds -/

theorem isSign_signRun (text : List Char) : IsSign (signRun text) := by
  unfold signRun
  split
  · exact Or.inr (Or.inl rfl)
  · exact Or.inr (Or.inr rfl)
  · exact Or.inl rfl

theorem areDigits_digitRun (text : List Char) : AreDigits (digitRun text) :=
  fun _ member => List.mem_takeWhile_imp member

theorem isFraction_fractionRun (text : List Char) : IsFraction (fractionRun text) := by
  unfold fractionRun
  split
  · exact Or.inr ⟨_, areDigits_digitRun _, rfl⟩
  · exact Or.inl rfl

/-- An exponent that is found is one: its mark is there, and there are digits
behind it. -/
theorem isExponent_exponentRun {text : List Char} (some : exponentRun text ≠ []) :
    IsExponent (exponentRun text) := by
  unfold exponentRun at some ⊢
  split at some
  · next mark rest =>
    split at some
    · next marked =>
      rw [if_pos marked]
      dsimp only at some ⊢
      split at some
      · exact absurd rfl some
      · next digits =>
        rw [if_neg digits]
        exact .intro marked (isSign_signRun rest) (by simpa using digits) (areDigits_digitRun _)
    · exact absurd rfl some
  · exact absurd rfl some

theorem spelled_of_numeral? {text : List Char} {n : Numeral} (found : numeral? text = some n) :
    n.Spelled := by
  simp only [numeral?, Bool.and_eq_true, Bool.or_eq_true, Bool.not_eq_true',
    List.isEmpty_eq_false_iff, decide_eq_true_eq] at found
  split at found
  · next double =>
    cases found
    refine .double (isSign_signRun _) (isMantissa_iff.mpr ?_) (isExponent_exponentRun double.2)
    exact ⟨_, _, areDigits_digitRun _, isFraction_fractionRun _, double.1, rfl⟩
  · split at found
    · next long =>
      cases found
      rcases isFraction_fractionRun _ with none | ⟨digits, are, same⟩
      · rw [none] at long
        cases long
      · rw [same] at long ⊢
        exact .decimal (isSign_signRun _) (areDigits_digitRun _)
          (List.length_pos_iff.mp (Nat.le_of_succ_le_succ long)) are
    · split at found
      · next some =>
        cases found
        exact .integer (isSign_signRun _) some (areDigits_digitRun _)
      · cases found

/-! ### What is found in front of other characters -/

/-- A text that is empty or starts with one of some characters. -/
def StartsIn (chars : List Char) (text : List Char) : Prop :=
  ∀ c ∈ text.head?, c ∈ chars

namespace StartsIn

variable {chars more front text : List Char}

theorem append (first : StartsIn chars front) (second : StartsIn more text) :
    StartsIn (chars ++ more) (front ++ text) := by
  intro c head
  rw [List.head?_append, Option.mem_def, Option.or_eq_some_iff] at head
  rcases head with here | ⟨-, behind⟩
  · exact List.mem_append_left _ (first c here)
  · exact List.mem_append_right _ (second c behind)

/-- A test that fails of some characters fails where a text starts with one of them. -/
theorem fails (starts : StartsIn chars text) {test : Char → Bool}
    (all : chars.all (!test ·) = true) : ∀ c ∈ text.head?, test c = false := by
  intro c head
  simpa using List.all_eq_true.mp all c (starts c head)

theorem head_ne (starts : StartsIn chars text) {c : Char} (other : c ∉ chars) :
    text.head? ≠ some c :=
  fun head => other (starts c head)

end StartsIn

theorem IsFraction.startsIn {text : List Char} (fraction : IsFraction text) :
    StartsIn ['.'] text := by
  rcases fraction with rfl | ⟨digits, -, rfl⟩
  · nofun
  · rintro c ⟨⟩
    exact List.mem_cons_self

/-- An exponent starts with its mark, which neither a digit nor a point is. -/
theorem IsExponent.startsIn {text : List Char} (exponent : IsExponent text) :
    StartsIn ['e', 'E'] text := by
  obtain ⟨rfl | rfl, -, -, -⟩ := exponent
  · rintro c ⟨⟩
    decide
  · rintro c ⟨⟩
    decide

theorem IsExponent.ne_nil {text : List Char} (exponent : IsExponent text) : text ≠ [] := by
  obtain ⟨-, -, -, -⟩ := exponent
  exact List.cons_ne_nil _ _

/-- A sign is found in front of what does not start with another one. -/
theorem signRun_append {sign text : List Char} (isSign : IsSign sign)
    (noPlus : text.head? ≠ some '+') (noMinus : text.head? ≠ some '-') :
    signRun (sign ++ text) = sign := by
  rcases isSign with rfl | rfl | rfl
  · rw [List.nil_append]
    unfold signRun
    split
    · exact absurd rfl noPlus
    · exact absurd rfl noMinus
    · rfl
  · rfl
  · rfl

/-- Digits are found up to the first character that is none. -/
theorem digitRun_append {digits text : List Char} (are : AreDigits digits)
    (stops : ∀ c ∈ text.head?, Text.isDecimalDigit c = false) :
    digitRun (digits ++ text) = digits :=
  takeWhile_front are stops

/-- A fraction is found up to the first character behind its point that is no digit. -/
theorem fractionRun_append {fraction text : List Char} (isFraction : IsFraction fraction)
    (stops : ∀ c ∈ text.head?, Text.isDecimalDigit c = false) (noPoint : text.head? ≠ some '.') :
    fractionRun (fraction ++ text) = fraction := by
  rcases isFraction with rfl | ⟨digits, are, rfl⟩
  · rw [List.nil_append]
    unfold fractionRun
    split
    · exact absurd rfl noPoint
    · rfl
  · rw [List.cons_append, fractionRun, digitRun_append are stops]

/-- In front of digits, or of what follows them, a sign is all that is taken. -/
theorem signRun_digits {sign digits text : List Char} (isSign : IsSign sign)
    (are : AreDigits digits) (noPlus : text.head? ≠ some '+') (noMinus : text.head? ≠ some '-') :
    signRun (sign ++ (digits ++ text)) = sign := by
  cases digits with
  | nil => exact signRun_append isSign noPlus noMinus
  | cons first rest =>
    have digit := are first List.mem_cons_self
    refine signRun_append isSign ?_ ?_
    · rintro ⟨⟩
      cases digit
    · rintro ⟨⟩
      cases digit

/-- An exponent is found in front of a blank, a closing bracket or the end.
Without one, none is found there. -/
theorem exponentRun_append {exponent text : List Char}
    (isExponent : exponent = [] ∨ IsExponent exponent) (ends : StartsIn [' ', ']'] text) :
    exponentRun (exponent ++ text) = exponent := by
  rcases isExponent with rfl | @⟨mark, sign, digits, marked, isSign, some, are⟩
  · cases text with
    | nil => rfl
    | cons c rest =>
      have other := ends c rfl
      rw [List.nil_append, exponentRun, if_neg]
      rintro (rfl | rfl)
      · revert other
        decide
      · revert other
        decide
  · have signed : signRun (sign ++ (digits ++ text)) = sign :=
      signRun_digits isSign are (ends.head_ne (by decide)) (ends.head_ne (by decide))
    rw [List.cons_append, List.append_assoc, exponentRun, if_pos marked]
    dsimp only
    rw [signed, List.drop_left, digitRun_append are (ends.fails (by decide)),
      if_neg (by rwa [List.isEmpty_iff])]
    rfl

/-- The pieces of a numeral are found one after the other, and tell its form. -/
theorem numeral?_append {sign whole fraction exponent following : List Char}
    (isSign : IsSign sign) (are : AreDigits whole) (isFraction : IsFraction fraction)
    (isExponent : exponent = [] ∨ IsExponent exponent) (ends : StartsIn [' ', ']'] following) :
    numeral? (sign ++ (whole ++ (fraction ++ (exponent ++ following)))) =
      if (whole ≠ [] ∨ 2 ≤ fraction.length) ∧ exponent ≠ [] then
        some ⟨.double, sign, whole ++ fraction, exponent⟩
      else if 2 ≤ fraction.length then some ⟨.decimal, sign, whole ++ fraction, []⟩
      else if whole ≠ [] then some ⟨.integer, sign, whole, []⟩
      else none := by
  -- No piece goes on with a character that the pieces behind it can start with.
  have marked : StartsIn ['e', 'E'] exponent := by
    rcases isExponent with rfl | exponent
    · nofun
    · exact exponent.startsIn
  have third : StartsIn ['e', 'E', ' ', ']'] (exponent ++ following) := marked.append ends
  have second : StartsIn ['.', 'e', 'E', ' ', ']'] (fraction ++ (exponent ++ following)) :=
    isFraction.startsIn.append third
  have signed := signRun_digits isSign are (second.head_ne (by decide)) (second.head_ne (by decide))
  simp only [numeral?]
  rw [signed, List.drop_left, digitRun_append are (second.fails (by decide)), List.drop_left,
    fractionRun_append isFraction (third.fails (by decide)) (third.head_ne (by decide)),
    ← List.append_assoc whole fraction, List.drop_left, exponentRun_append isExponent ends]
  simp

/-- A numeral is found as it is in front of a blank, a closing bracket or the end. -/
theorem Numeral.Spelled.numeral?_eq {n : Numeral} (spelled : n.Spelled) {following : List Char}
    (ends : StartsIn [' ', ']'] following) : numeral? (n.text ++ following) = some n := by
  cases spelled with
  | @double sign mantissa exponent isSign isMantissa isExponent =>
    obtain ⟨whole, fraction, are, isFraction, some, rfl⟩ := isMantissa_iff.mp isMantissa
    have found := numeral?_append isSign are isFraction (Or.inr isExponent) ends
    rw [if_pos ⟨some, isExponent.ne_nil⟩] at found
    rw [← found, Numeral.text]
    simp
  | @decimal sign whole fraction isSign are some behind =>
    have found := numeral?_append isSign are (Or.inr ⟨fraction, behind, rfl⟩) (Or.inl rfl) ends
    have long : 2 ≤ ('.' :: fraction).length := Nat.succ_le_succ (List.length_pos_iff.mpr some)
    rw [if_neg (by simp), if_pos long] at found
    rw [← found, Numeral.text]
    simp
  | @integer sign digits isSign some are =>
    have found := numeral?_append isSign are (Or.inl rfl) (Or.inl rfl) ends
    rw [if_neg (by simp), if_neg (by simp), if_pos some] at found
    rw [← found, Numeral.text]
    simp

/-- Whether a text is a numeral can be decided by finding one in it. -/
theorem isNumeral_iff {text : List Char} :
    IsNumeral text ↔ (numeral? text).any (·.text = text) = true := by
  rw [Option.any_eq_true]
  constructor
  · rintro ⟨n, spelled, rfl⟩
    have found : numeral? (n.text ++ []) = some n := spelled.numeral?_eq nofun
    rw [List.append_nil] at found
    exact ⟨n, found, decide_eq_true rfl⟩
  · rintro ⟨n, found, same⟩
    exact ⟨n, spelled_of_numeral? found, of_decide_eq_true same⟩

instance (text : List Char) : Decidable (IsNumeral text) :=
  decidable_of_iff _ isNumeral_iff.symm

example : IsNumeral "+.5E-٣".toList ∧ ¬ IsNumeral "5.".toList := by decide

/-! ### The first character -/

def startsNumeral (c : Char) : Bool :=
  c == '+' || c == '-' || c == '.' || Text.isDecimalDigit c

theorem startsNumeral_of_isDecimalDigit {c : Char} (digit : Text.isDecimalDigit c = true) :
    startsNumeral c = true := by
  rw [startsNumeral, digit, Bool.or_true]

theorem startsNumeral_ne {c d : Char} (starts : startsNumeral c = true)
    (other : startsNumeral d = false) : c ≠ d := by
  rintro rfl
  rw [starts] at other
  cases other

/-- The digits of other scripts lie outside of the runs of letters that have
capitals. -/
theorem digitRows_apart :
    Text.zeroDigits.all (fun row => Text.caseRuns.all
      (fun run => decide (run.last < row) || decide (row + 9 < run.first)) &&
      Text.caseExpansions.all fun pair =>
      decide (pair.1 < row) || decide (row + 9 < pair.1)) = true := by
  decide +kernel

theorem isDecimalDigit_row {c : Char} (digit : Text.isDecimalDigit c = true)
    (large : ¬ c.toNat < 128) : ∃ row ∈ Text.zeroDigits, row ≤ c.toNat ∧ c.toNat < row + 10 := by
  simp only [Text.isDecimalDigit, Text.digitValue?, if_neg large, Option.isSome_map] at digit
  obtain ⟨row, found⟩ := Option.isSome_iff_exists.mp digit
  have inside := List.find?_some found
  rw [Bool.and_eq_true, decide_eq_true_eq, decide_eq_true_eq] at inside
  exact ⟨row, List.mem_of_find?_eq_some found, inside⟩

theorem isNeutral_of_isDecimalDigit {c : Char} (digit : Text.isDecimalDigit c = true) :
    Scan.isNeutral c = true := by
  have noLetter : (c.isUpper || c.isLower) = false := by
    refine Bool.eq_false_iff.mpr fun letter => ?_
    rw [(Scan.letter_solid letter).2] at digit
    cases digit
  rw [Bool.or_eq_false_iff] at noLetter
  rw [Scan.isNeutral, noLetter.1, Bool.not_false, Bool.and_true, beq_iff_eq, Text.upperChar]
  split
  · have notLower : ¬ (c.val ≥ 'a'.val ∧ c.val ≤ 'z'.val) := by
      rintro ⟨above, below⟩
      have lower : c.isLower = true := Bool.and_eq_true_iff.mpr ⟨decide_eq_true above,
        decide_eq_true below⟩
      rw [noLetter.2] at lower
      cases lower
    have same : c.toUpper = c := dif_neg notLower
    rw [same]
  · next large =>
    obtain ⟨row, member, inside⟩ := isDecimalDigit_row digit large
    have apart := List.all_eq_true.mp digitRows_apart row member
    simp only [Bool.and_eq_true, List.all_eq_true, Bool.or_eq_true, decide_eq_true_eq] at apart
    have single : Text.caseExpansions.lookup c.toNat = none := by
      refine List.lookup_eq_none_iff.mpr fun pair among => bne_iff_ne.mpr ?_
      have outside := apart.2 pair among
      omega
    have none : Text.caseRuns.findSome? (·.upperOf? c.toNat) = none := by
      refine List.findSome?_eq_none_iff.mpr fun run among => if_neg ?_
      have outside := apart.1 run among
      omega
    rw [single, none]

/-- What starts a numeral is its own capital, so no keyword is mistaken for it. -/
theorem isNeutral_of_startsNumeral {c : Char} (starts : startsNumeral c = true) :
    Scan.isNeutral c = true := by
  simp only [startsNumeral, Bool.or_eq_true, beq_iff_eq] at starts
  rcases starts with ((rfl | rfl) | rfl) | digit
  · decide
  · decide
  · decide
  · exact isNeutral_of_isDecimalDigit digit

theorem isSolid_of_startsNumeral {c : Char} (starts : startsNumeral c = true) :
    isSolid c = true := by
  have apart : ∀ d, startsNumeral d = false → c ≠ d := fun d => startsNumeral_ne starts
  simp only [isSolid, isBlank, Bool.and_eq_true, Bool.not_eq_true', Bool.or_eq_false_iff,
    beq_eq_false_iff_ne, bne_iff_ne]
  exact ⟨⟨⟨⟨⟨apart _ rfl, apart _ rfl⟩, apart _ rfl⟩, apart _ rfl⟩, apart _ rfl⟩, apart _ rfl⟩

def OpensNumeral (text : List Char) : Prop :=
  ∃ first rest, text = first :: rest ∧ startsNumeral first = true

theorem OpensNumeral.append {text : List Char} (opens : OpensNumeral text) (behind : List Char) :
    OpensNumeral (text ++ behind) := by
  obtain ⟨first, rest, rfl, starts⟩ := opens
  exact ⟨first, rest ++ behind, rfl, starts⟩

theorem AreDigits.first {digits : List Char} (are : AreDigits digits) (some : digits ≠ []) :
    ∃ digit more, digits = digit :: more ∧ Text.isDecimalDigit digit = true := by
  obtain ⟨digit, more, rfl⟩ := List.exists_cons_of_ne_nil some
  exact ⟨digit, more, rfl, are digit List.mem_cons_self⟩

theorem AreDigits.opens {digits : List Char} (are : AreDigits digits) (some : digits ≠ []) :
    OpensNumeral digits := by
  obtain ⟨digit, more, same, isDigit⟩ := are.first some
  exact ⟨digit, more, same, startsNumeral_of_isDecimalDigit isDigit⟩

theorem IsMantissa.opens {text : List Char} (mantissa : IsMantissa text) : OpensNumeral text := by
  cases mantissa with
  | pointed some whole fraction => exact (whole.opens some).append _
  | fraction some digits => exact ⟨'.', _, rfl, rfl⟩
  | whole some digits => exact digits.opens some

theorem Numeral.Spelled.isSign {n : Numeral} (spelled : n.Spelled) : IsSign n.sign := by
  cases spelled with
  | double isSign => exact isSign
  | decimal isSign => exact isSign
  | integer isSign => exact isSign

theorem Numeral.Spelled.isMantissa {n : Numeral} (spelled : n.Spelled) : IsMantissa n.mantissa := by
  cases spelled with
  | double _ mantissa => exact mantissa
  | @decimal sign whole fraction _ are some behind =>
    cases whole with
    | nil => exact .fraction some behind
    | cons first rest => exact .pointed (List.cons_ne_nil _ _) are behind
  | integer _ some are => exact .whole some are

/-- A numeral starts with a sign, a digit or a point. -/
theorem IsNumeral.opens {text : List Char} (numeral : IsNumeral text) : OpensNumeral text := by
  obtain ⟨n, spelled, rfl⟩ := numeral
  rw [Numeral.text, List.append_assoc]
  rcases spelled.isSign with none | plus | minus
  · rw [none]
    exact spelled.isMantissa.opens.append _
  · rw [plus]
    exact ⟨'+', _, rfl, rfl⟩
  · rw [minus]
    exact ⟨'-', _, rfl, rfl⟩

theorem AreDigits.eq_nil_of_point {digits text rest : List Char} (are : AreDigits digits)
    (same : digits ++ text = '.' :: rest) : digits = [] := by
  cases digits with
  | nil => rfl
  | cons first more =>
    have digit := are first List.mem_cons_self
    rw [(List.cons.inj same).1] at digit
    cases digit

theorem IsSign.eq_nil_of_point {sign text rest : List Char} (isSign : IsSign sign)
    (same : sign ++ text = '.' :: rest) : sign = [] := by
  rcases isSign with rfl | rfl | rfl
  · rfl
  · cases (List.cons.inj same).1
  · cases (List.cons.inj same).1

/-- Behind a point that a numeral starts with there is a digit, and from it on
another numeral. -/
theorem IsNumeral.of_point {rest : List Char} (numeral : IsNumeral ('.' :: rest)) :
    IsNumeral rest ∧ ∃ digit more, rest = digit :: more ∧ Text.isDecimalDigit digit = true := by
  obtain ⟨n, spelled, same⟩ := numeral
  rw [Numeral.text, List.append_assoc] at same
  have noSign := spelled.isSign.eq_nil_of_point same
  rw [noSign, List.nil_append] at same
  cases spelled with
  | double _ isMantissa isExponent =>
    cases isMantissa with
    | pointed some whole _ =>
      rw [List.append_assoc] at same
      exact absurd (whole.eq_nil_of_point same) some
    | @fraction digits some are =>
      cases same
      refine ⟨⟨_, .double (Or.inl rfl) (.whole some are) isExponent, rfl⟩, ?_⟩
      obtain ⟨digit, more, rfl, isDigit⟩ := are.first some
      exact ⟨digit, _, rfl, isDigit⟩
    | whole some are => exact absurd (are.eq_nil_of_point same) some
  | @decimal _ whole fraction _ are some behind =>
    rw [List.append_assoc] at same
    rw [are.eq_nil_of_point same] at same
    cases same
    refine ⟨⟨_, .integer (Or.inl rfl) some behind, rfl⟩, ?_⟩
    obtain ⟨digit, more, rfl, isDigit⟩ := behind.first some
    exact ⟨digit, _, rfl, isDigit⟩
  | integer _ some are => exact absurd (are.eq_nil_of_point same) some

/-! ### Numerals as entries -/

/-- The datatype that the spelling of a numeral tells. -/
def datatypeOf (text : List Char) : String :=
  if 'e' ∈ text ∨ 'E' ∈ text then "http://www.w3.org/2001/XMLSchema#double"
  else if '.' ∈ text then "http://www.w3.org/2001/XMLSchema#decimal"
  else "http://www.w3.org/2001/XMLSchema#integer"

theorem AreDigits.not_mem {digits : List Char} (are : AreDigits digits) {c : Char}
    (other : Text.isDecimalDigit c = false) : c ∉ digits := by
  intro member
  rw [are c member] at other
  cases other

theorem IsSign.not_mem {sign : List Char} (isSign : IsSign sign) {c : Char}
    (other : c ∉ ['+', '-']) : c ∉ sign := by
  rintro member
  rcases isSign with rfl | rfl | rfl
  · cases member
  · exact other (List.mem_append_left ['-'] member)
  · exact other (List.mem_append_right ['+'] member)

/-- The form of a numeral can be told from the characters in it. -/
theorem Numeral.Spelled.datatype_eq {n : Numeral} (spelled : n.Spelled) :
    Scan.NumeralForm.datatype n.form = datatypeOf n.text := by
  rw [datatypeOf, Numeral.text]
  cases spelled with
  | @double sign mantissa exponent _ _ isExponent =>
    have marked : 'e' ∈ exponent ∨ 'E' ∈ exponent := by
      obtain ⟨rfl | rfl, -, -, -⟩ := isExponent
      · exact Or.inl List.mem_cons_self
      · exact Or.inr List.mem_cons_self
    rw [if_pos (marked.imp (List.mem_append_right _) (List.mem_append_right _))]
    rfl
  | @decimal sign whole fraction isSign are some behind =>
    have others : ∀ c, Text.isDecimalDigit c = false → c ∉ ['+', '-'] → c ≠ '.' →
        c ∉ sign ++ (whole ++ '.' :: fraction) ++ [] := by
      intro c noDigit noSign noPoint
      simp [isSign.not_mem noSign, are.not_mem noDigit, behind.not_mem noDigit, noPoint]
    rw [if_neg (not_or.mpr ⟨others _ rfl (by decide) (by decide),
      others _ rfl (by decide) (by decide)⟩), if_pos (by simp)]
    rfl
  | @integer sign digits isSign some are =>
    have others : ∀ c, Text.isDecimalDigit c = false → c ∉ ['+', '-'] →
        c ∉ sign ++ digits ++ [] := by
      intro c noDigit noSign
      simp [isSign.not_mem noSign, are.not_mem noDigit]
    rw [if_neg (not_or.mpr ⟨others _ rfl (by decide), others _ rfl (by decide)⟩),
      if_neg (others _ rfl (by decide))]
    rfl

/-- A numeral as an entry of a value set: a literal of that text, with the
datatype that it tells. -/
def numeralEntry (text : String) : ValueSetEntry :=
  .literal (.string text) (.string (datatypeOf text.toList)) .null

/-- What the numerals between brackets are read as: each as itself, except that
one that starts with a point is read as a range of everything, and then as the
numeral behind the point. -/
inductive ReadAs : List String → List ValueSetEntry → Prop where
  | nil : ReadAs [] []
  | whole {text : String} {texts : List String} {found : List ValueSetEntry} :
    text.toList.head? ≠ some '.' →
    ReadAs texts found → ReadAs (text :: texts) (numeralEntry text :: found)
  | cut {text : String} {rest : List Char} {kind : StemKind} {texts : List String}
    {found : List ValueSetEntry} : text.toList = '.' :: rest →
      ReadAs (String.ofList rest :: texts) found →
    ReadAs (text :: texts) (.range kind .wildcard [] :: found)

/-- Numerals are read as themselves exactly if none of them starts with a point. -/
theorem ReadAs.eq_map_iff {texts : List String} {found : List ValueSetEntry}
    (readAs : ReadAs texts found) :
    found = texts.map numeralEntry ↔ ∀ text ∈ texts, text.toList.head? ≠ some '.' := by
  induction readAs with
  | nil => simp
  | whole noPoint _ ih => simp [ih, noPoint]
  | cut point _ _ =>
    rw [List.map_cons, List.forall_mem_cons, point]
    constructor
    · rintro ⟨⟩
    · exact fun none => absurd rfl none.1

namespace Scan

def ahead (texts : List String) : List Char :=
  (spell texts).toList ++ [']']

def behind (texts : List String) : List Char :=
  after texts ++ [']']

theorem ahead_cons (text : String) (texts : List String) :
    ahead (text :: texts) = text.toList ++ behind texts := by
  rw [ahead, spell_cons, List.append_assoc, behind]

theorem startsIn_behind (texts : List String) : StartsIn [' ', ']'] (behind texts) := by
  cases texts with
  | nil =>
    rintro c ⟨⟩
    decide
  | cons text rest =>
    rintro c ⟨⟩
    decide

section

variable {texts : List String}

/-- In front of numerals comes a character that starts one, or the closing bracket. -/
theorem ahead_first (numerals : ∀ text ∈ texts, IsNumeral text.toList) :
    ∃ first rest, ahead texts = first :: rest ∧ (first = ']' ∨ startsNumeral first = true) := by
  cases texts with
  | nil => exact ⟨']', [], rfl, Or.inl rfl⟩
  | cons text others =>
    obtain ⟨first, rest, same, starts⟩ := (numerals text List.mem_cons_self).opens
    exact ⟨first, rest ++ behind others, by rw [ahead_cons, same]; rfl, Or.inr starts⟩

theorem skipText_ahead (numerals : ∀ text ∈ texts, IsNumeral text.toList) :
    skipText (ahead texts) = ahead texts := by
  obtain ⟨first, rest, same, rfl | starts⟩ := ahead_first numerals
  · rw [same]
    exact skipText_solid (by decide) rest
  · rw [same]
    exact skipText_solid (isSolid_of_startsNumeral starts) rest

/-- The blank between two numerals is skipped, and nothing else. -/
theorem skipText_behind (numerals : ∀ text ∈ texts, IsNumeral text.toList) :
    skipText (behind texts) = ahead texts := by
  cases texts with
  | nil => exact skipText_ahead numerals
  | cons text rest => exact (skipFrom_blank (by decide) _).trans (skipText_ahead numerals)

theorem head_ahead_ne (numerals : ∀ text ∈ texts, IsNumeral text.toList) {c : Char}
    (noBracket : c ≠ ']') (other : startsNumeral c = false) : (ahead texts).head? ≠ some c := by
  obtain ⟨first, rest, same, rfl | starts⟩ := ahead_first numerals
  · rw [same]
    simpa using noBracket.symm
  · rw [same]
    simpa using startsNumeral_ne starts other

theorem length_ahead_le (texts : List String) : (ahead texts).length ≤ (behind texts).length := by
  cases texts with
  | nil => exact Nat.le_refl _
  | cons text rest => exact Nat.le_succ _

end

/-! ### Reading the entries -/

/-- A text of one character is not read where another one comes next. -/
theorem tryText_other {text : String} {k : Char} (single : text.toList = [k]) {c : Cursor}
    (other : (skipText c.rest).head? ≠ some k) : tryText text c = .ok (false, c.skip) := by
  refine tryText_miss (by simp [single]) ?_
  rw [single]
  cases seen : skipText c.rest with
  | nil => rfl
  | cons first rest =>
    rw [seen, List.head?_cons, ne_eq, Option.some.injEq] at other
    simp [List.isPrefixOf, Ne.symm other]

section

variable (names : Names) {following : List Char} {c : Cursor}

/-- A numeral is read as a literal with the text that it is written with. -/
theorem literal_numeral {n : Numeral} (spelled : n.Spelled) (ends : StartsIn [' ', ']'] following)
    (here : skipText c.rest = n.text ++ following) :
    literal names c = .ok ({ value := String.ofList n.text, datatype := some (datatypeOf n.text) },
      c.skip.advance n.text.length) := by
  obtain ⟨first, rest, same, starts⟩ :=
    OpensNumeral.append (IsNumeral.opens ⟨n, spelled, rfl⟩) following
  have noQuote : isQuote (skipText c.rest).head? = false := by
    rw [here, same, List.head?_cons, isQuote]
    simp [startsNumeral_ne starts (d := '"') rfl, startsNumeral_ne starts (d := '\'') rfl]
  have noKeyword : ∀ keyword, isKeyword keyword = true →
      tryKeyword keyword c.skip = .ok (false, c.skip) := by
    intro keyword word
    have miss : startsKeyword keyword (skipText c.skip.rest) = false := by
      rw [Cursor.skip_rest, skipText_skipText, here, same]
      exact startsKeyword_neutral word (isNeutral_of_startsNumeral starts) rest
    rw [tryKeyword_miss miss, Cursor.skip_skip]
  have read : tryNumeral c.skip = .ok (some n, c.skip.advance n.text.length) := by
    have found : numeral? (skipText c.skip.rest) = some n := by
      rw [Cursor.skip_rest, skipText_skipText, here]
      exact spelled.numeral?_eq ends
    have tried := (lexeme?_token numeral? (·.text.length)).found (c := c.skip) rfl
    rwa [found, Cursor.skip_skip] at tried
  rw [literal, scan_bind_of_ok (looks_peek c), noQuote, if_neg Bool.false_ne_true,
    scan_bind_of_ok (noKeyword "TRUE" (by decide)), if_neg Bool.false_ne_true,
    scan_bind_of_ok (noKeyword "FALSE" (by decide)), if_neg Bool.false_ne_true,
    scan_bind_of_ok read, ← spelled.datatype_eq]
  rfl

/-- A numeral that does not start with a point is read as itself. -/
theorem entry_whole (bound : Nat) {text : String} {texts : List String}
    (numerals : ∀ word ∈ text :: texts, IsNumeral word.toList)
    (noPoint : text.toList.head? ≠ some '.') (here : skipText c.rest = ahead (text :: texts)) :
    ∃ c', entry names bound c = .ok (numeralEntry text, c') ∧ skipText c'.rest = ahead texts := by
  obtain ⟨numeral, others⟩ := List.forall_mem_cons.mp numerals
  have ends := startsIn_behind texts
  rw [ahead_cons] at here
  obtain ⟨first, more, chars, starts⟩ := numeral.opens
  obtain ⟨n, spelled, same⟩ := numeral
  have again : skipText c.skip.rest = n.text ++ behind texts := by
    rw [Cursor.skip_rest, skipText_skipText, here, same]
  have noPoint : some first ≠ some '.' := by rwa [chars] at noPoint
  have noTag : some first ≠ some '@' := by simpa using startsNumeral_ne starts (d := '@') rfl
  have head : (skipText c.rest).head? = some first := by rw [here, chars]; rfl
  have isLiteral : startsLiteral (skipText c.skip.rest) = true := by
    rw [startsLiteral, again, spelled.numeral?_eq ends, Option.isSome_some, Bool.or_true]
  have read := literal_numeral names spelled ends again
  rw [Cursor.skip_skip] at read
  have left : skipText (c.skip.advance n.text.length).rest = ahead texts := by
    rw [Cursor.advance_rest, Cursor.skip_rest, here, ← same, List.drop_left, skipText_behind others]
  have noTilde : (skipText (c.skip.advance n.text.length).rest).head? ≠ some '~' := by
    rw [left]
    exact head_ahead_ne others (by decide) rfl
  refine ⟨(c.skip.advance n.text.length).skip, ?_,
    by rw [Cursor.skip_rest, skipText_skipText, left]⟩
  rw [entry_eq, scan_bind_of_ok (looks_peek c), head, entryFrom, if_neg noPoint, if_neg noTag,
    scan_bind_of_ok (looks_atLiteral c.skip), isLiteral, if_pos rfl, Cursor.skip_skip,
    scan_bind_of_ok read, stemOr, scan_bind_of_ok (tryText_other rfl noTilde), same,
      String.ofList_toList]
  rfl

/-- The point that a numeral starts with is read as a range of everything, and
the rest of it is left. -/
theorem entry_cut {bound : Nat} (room : 0 < bound) {text : String} {rest : List Char}
    {texts : List String} (numeral : IsNumeral text.toList) (chars : text.toList = '.' :: rest)
    (here : skipText c.rest = ahead (text :: texts)) :
    ∃ kind c', entry names bound c = .ok (.range kind .wildcard [], c') ∧
      skipText c'.rest = ahead (String.ofList rest :: texts) := by
  rw [chars] at numeral
  obtain ⟨-, digit, more, rfl, isDigit⟩ := numeral.of_point
  rw [ahead_cons, String.toList_ofList, List.cons_append]
  rw [ahead_cons, chars, List.cons_append, List.cons_append] at here
  obtain ⟨read, left⟩ := expect_here "." (c := c.skip) here (by decide) rfl
  have solid := isSolid_of_startsNumeral (startsNumeral_of_isDecimalDigit isDigit)
  have stays : (c.skip.advance 1).skip = c.skip.advance 1 := skip_of_solid left solid
  have seen : skipText (c.skip.advance 1).rest = digit :: (more ++ behind texts) := by
    rw [← Cursor.skip_rest, stays, left]
  have noHyphen : (skipText (c.skip.advance 1).rest).head? ≠ some '-' := by
    rw [seen]
    rintro ⟨⟩
    cases isDigit
  refine ⟨wildcardKind (digit :: (more ++ behind texts)), c.skip.advance 1, ?_, seen⟩
  rw [entry_eq, scan_bind_of_ok (looks_peek c), here, List.head?_cons, entryFrom, if_pos rfl,
    scan_bind_of_ok read, scan_bind_of_ok (looks_rest _), seen, stays, rangeAfter, exclusions_eq,
    scan_bind_of_ok (operandsAfter_miss room (tryText_other rfl noHyphen)), stays]
  rfl

/-- The entries go on with one, unless the closing bracket is seen. -/
theorem entries_cons {bound : Nat} {first : Char} (seen : (skipText c.rest).head? = some first)
    (other : first ≠ ']') {c' d : Cursor} {head : ValueSetEntry} {others : List ValueSetEntry}
    (read : entry names bound c.skip = .ok (head, c'))
    (rest : entries names bound c' = .ok (others, d)) :
    entries names (bound + 1) c = .ok (head :: others, d) := by
  have noBracket : (skipText c.rest).head? ≠ some ']' := by
    rw [seen]
    simpa using other
  have goesOn : (skipText c.skip.rest).isEmpty = false := by
    obtain ⟨more, text⟩ := List.head?_eq_some_iff.mp seen
    rw [Cursor.skip_rest, skipText_skipText, text]
    rfl
  rw [entries_succ, entriesRound, scan_bind_of_ok (tryText_other rfl noBracket),
    if_neg Bool.false_ne_true, scan_bind_of_ok (looks_atEnd c.skip), goesOn,
    if_neg Bool.false_ne_true, Cursor.skip_skip, scan_bind_of_ok read, scan_bind_of_ok rest]
  rfl

/-- The numerals from a cursor on are read up to the end, one in each round or,
where it starts with a point, in two. -/
theorem entries_numerals {texts : List String} (numerals : ∀ text ∈ texts, IsNumeral text.toList)
    {bound : Nat} (room : (ahead texts).length < bound) (here : skipText c.rest = ahead texts) :
    ∃ found c', entries names bound c = .ok (found, c') ∧ c'.rest = [] ∧ ReadAs texts found := by
  induction bound generalizing texts c with
  | zero => exact absurd room (Nat.not_lt_zero _)
  | succ bound ih =>
    have again : skipText c.skip.rest = ahead texts := by
      rw [Cursor.skip_rest, skipText_skipText, here]
    cases texts with
    | nil =>
      have start : "]".toList.isPrefixOf (skipText c.rest) = true := by rw [here]; rfl
      refine ⟨[], c.skip.advance 1, ?_, ?_, .nil⟩
      · rw [entries_succ, entriesRound, scan_bind_of_ok (tryText_start (by decide) start)]
        rfl
      · rw [Cursor.advance_rest, Cursor.skip_rest, here]
        rfl
    | cons text texts =>
      obtain ⟨numeral, others⟩ := List.forall_mem_cons.mp numerals
      obtain ⟨first, more, chars, starts⟩ := numeral.opens
      have seen : (skipText c.rest).head? = some first := by rw [here, ahead_cons, chars]; rfl
      have open_ : first ≠ ']' := startsNumeral_ne starts rfl
      rw [ahead_cons, List.length_append, chars, List.length_cons] at room
      by_cases point : text.toList.head? = some '.'
      · -- The point takes a round of its own: what is left then is a numeral again,
        -- with the same ones behind it.
        obtain ⟨rest, dotted⟩ := List.head?_eq_some_iff.mp point
        obtain ⟨-, same⟩ := List.cons.inj (chars.symm.trans dotted)
        have some : 0 < bound := by omega
        obtain ⟨kind, c', read, left⟩ := entry_cut names some numeral dotted again
        rw [dotted] at numeral
        have cutNumerals : ∀ word ∈ String.ofList rest :: texts, IsNumeral word.toList :=
          List.forall_mem_cons.mpr ⟨by rw [String.toList_ofList]; exact numeral.of_point.1, others⟩
        have less : (ahead (String.ofList rest :: texts)).length < bound := by
          rw [ahead_cons, List.length_append, String.toList_ofList, ← same]
          omega
        obtain ⟨found, d, readOthers, ended, readAs⟩ := ih cutNumerals less left
        exact ⟨_, d, entries_cons names seen open_ read readOthers, ended, .cut dotted readAs⟩
      · obtain ⟨c', read, left⟩ := entry_whole names bound numerals point again
        have less := length_ahead_le texts
        obtain ⟨found, d, readOthers, ended, readAs⟩ := ih others (by omega) left
        exact ⟨_, d, entries_cons names seen open_ read readOthers, ended, .whole point readAs⟩

/-- A value set of numerals is read to its end. The bound is wide enough for a
round for each point and each numeral. -/
theorem valueSet_readAs {texts : List String} (numerals : ∀ text ∈ texts, IsNumeral text.toList) :
    ∃ found, ReadsWhole (valueSet names) ('[' :: ahead texts) found ∧ ReadAs texts found := by
  have enough := start_enough ('[' :: ahead texts)
  obtain ⟨opening, left⟩ := expect_here "[" (c := Cursor.start ('[' :: ahead texts)) rfl
    (by decide) rfl
  have room : (ahead texts).length < (Cursor.start ('[' :: ahead texts)).bound :=
    Nat.lt_of_succ_lt (Nat.lt_of_succ_lt enough)
  obtain ⟨found, c', within, ended, readAs⟩ :=
    entries_numerals names numerals room (left.symm ▸ skipText_ahead numerals)
  refine ⟨found, ⟨c', ?_, ended⟩, readAs⟩
  rw [valueSet, scan_bind_of_ok opening, within]

end

theorem ReadsWhole.unique {α : Type} {scan : Nat → Scan α} {text : List Char} {result other : α}
    (reads : ReadsWhole scan text result) (readsOther : ReadsWhole scan text other) :
    result = other := by
  obtain ⟨c, read, -⟩ := reads
  obtain ⟨d, readOther, -⟩ := readsOther
  rw [read] at readOther
  cases readOther
  rfl

/-- Numerals between brackets are read one by one, and each is read as itself
exactly if none starts with a point. -/
theorem valueSet_numerals (names : Names) {texts : List String}
    (numerals : ∀ text ∈ texts, IsNumeral text.toList) :
    (∃ found, ReadsWhole (valueSet names) ("[" ++ spell texts ++ "]").toList found ∧
      ReadAs texts found) ∧
      (ReadsWhole (valueSet names) ("[" ++ spell texts ++ "]").toList (texts.map numeralEntry) ↔
        ∀ text ∈ texts, text.toList.head? ≠ some '.') := by
  have chars : ("[" ++ spell texts ++ "]").toList = '[' :: ahead texts := by simp [ahead]
  rw [chars]
  obtain ⟨found, whole, readAs⟩ := valueSet_readAs names numerals
  refine ⟨⟨found, whole, readAs⟩, ?_⟩
  rw [← readAs.eq_map_iff]
  constructor
  · exact whole.unique
  · rintro rfl
    exact whole

/-- A point behind a sign or a digit is part of the numeral; one that comes
first is not. -/
theorem valueSet_numerals_point :
    ReadsWhole (valueSet {}) ("[" ++ spell ["-.5", "1.e3", "٣"] ++ "]").toList
        (["-.5", "1.e3", "٣"].map numeralEntry) ∧
      ¬ ReadsWhole (valueSet {}) ("[" ++ spell ["7", ".5"] ++ "]").toList
        (["7", ".5"].map numeralEntry) := by
  constructor
  · exact (valueSet_numerals {} (by decide)).2.mpr (by decide)
  · rw [(valueSet_numerals {} (by decide)).2]
    decide

end Scan

end ShapeQuery.Compact
