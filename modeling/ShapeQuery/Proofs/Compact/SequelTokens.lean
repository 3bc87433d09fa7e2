import ShapeQuery.Proofs.Compact.Iris
import ShapeQuery.Proofs.Compact.Sequel

/-!
Tokens in front of a sequel. No token goes on with the first character of a sequel, so the last
token of a text is the same with a sequel behind it.
-/
namespace ShapeQuery.Compact

namespace Scan

section

variable {ι : Type} {back : ι → Sequel} {exact : Bool}

/-! ### Given texts -/

def isApart (text : List Char) : Bool :=
  text.all fun c => c != ' ' && c != ')'

/-- A text that has no character of a sequel in it is found in front of a
sequel exactly if it is found in the text alone. -/
theorem isPrefixOf_append {text behind : List Char} (apart : isApart text = true) (seen : List Char)
    (stops : Stops behind) : text.isPrefixOf (seen ++ behind) = text.isPrefixOf seen := by
  induction text generalizing seen with
  | nil => rfl
  | cons c rest ih =>
    rw [isApart, List.all_cons, Bool.and_eq_true] at apart
    cases seen with
    | cons d more =>
      rw [List.cons_append, List.isPrefixOf, List.isPrefixOf, ih apart.2]
    | nil =>
      obtain ⟨first, more, same, member⟩ := stops
      have other : c ≠ first := by
        rintro rfl
        simp only [List.mem_cons, List.not_mem_nil, or_false] at member
        rcases member with rfl | rfl <;> cases apart.1
      simp [same, List.isPrefixOf, other]

/-- Whether a text can be looked for: it does not start like a text that is
stuck, and behind its first character it has none that a sequel starts with. -/
def isToken (text : String) : Bool :=
  match text.toList with
  | [] => false
  | first :: rest => first != '.' && first != '\\' && isApart rest

theorem isToken_iff {text : String} (token : isToken text = true) :
    ∃ first rest, text.toList = first :: rest ∧ first ≠ '.' ∧ first ≠ '\\' ∧
      isApart rest = true := by
  unfold isToken at token
  split at token
  · cases token
  · next first rest same =>
    simp only [Bool.and_eq_true, bne_iff_ne, ne_eq] at token
    exact ⟨first, rest, same, token.1.1, token.1.2, token.2⟩

theorem isToken_ne_nil {text : String} (token : isToken text = true) : text.toList ≠ [] := by
  obtain ⟨first, rest, same, -⟩ := isToken_iff token
  simp [same]

theorem isToken_apart {text : String} (token : isToken text = true) :
    isApart text.toList.tail = true := by
  obtain ⟨first, rest, same, -, -, apart⟩ := isToken_iff token
  rw [same]
  exact apart

/-- Where something is left, a text is there or not whatever the sequel. -/
theorem isPrefixOf_text {text : List Char} (apart : isApart text.tail = true) {seen : List Char}
    (something : seen ≠ []) (s : Sequel) :
    text.isPrefixOf (seen ++ s.text) = text.isPrefixOf seen := by
  obtain ⟨d, more, rfl⟩ := List.exists_cons_of_ne_nil something
  cases text with
  | nil => rfl
  | cons first rest =>
    rw [List.tail_cons] at apart
    rw [List.cons_append, List.isPrefixOf, List.isPrefixOf, isPrefixOf_append apart more s.stops]

theorem isToken_jammed {text : String} (token : isToken text = true) {seen : List Char}
    (jam : Jammed seen) : text.toList.isPrefixOf seen = false := by
  obtain ⟨first, rest, same, noPoint, noEscape, -⟩ := isToken_iff token
  obtain ⟨d, more, rfl, member⟩ := jam.cons
  have other : first ≠ d := by
    rintro rfl
    simp only [List.mem_cons, List.not_mem_nil, or_false] at member
    exact member.elim noPoint noEscape
  rw [same, List.isPrefixOf, beq_eq_false_iff_ne.mpr other, Bool.false_and]

theorem length_le_of_isPrefixOf {text : String} {seen : List Char}
    (start : text.toList.isPrefixOf seen = true) : text.length ≤ seen.length := by
  rw [← String.length_toList]
  exact (List.isPrefixOf_iff_prefix.mp start).length_le

/-- Trying a text is reading a token of which it is told whether it is there. -/
theorem tryText_token {text : String} (nonempty : text.toList ≠ []) :
    Token (tryText text) fun seen => some (text.toList.isPrefixOf seen,
      if text.toList.isPrefixOf seen then text.length else 0) where
  found := by
    rintro c result width ⟨⟩
    rw [tryText_eq, startsWith_eq nonempty, Cursor.skip_rest]
    cases text.toList.isPrefixOf (skipText c.rest) <;> rfl
  missed := by
    rintro c ⟨⟩

theorem tryText_miss {text : String} (nonempty : text.toList ≠ []) {c : Cursor}
    (miss : text.toList.isPrefixOf (skipText c.rest) = false) :
    tryText text c = .ok (false, c.skip) := by
  have tried := (tryText_token nonempty).found (c := c) rfl
  rwa [miss] at tried

theorem tryText_start {text : String} (nonempty : text.toList ≠ []) {c : Cursor}
    (start : text.toList.isPrefixOf (skipText c.rest) = true) :
    tryText text c = .ok (true, c.skip.advance text.length) := by
  have tried := (tryText_token nonempty).found (c := c) rfl
  rwa [start] at tried

/-- A text is tried alike in front of a sequel. At the end its first character
must be no mark. -/
theorem tryText_continues {text : String} (token : isToken text = true)
    (final : exact = true → ∀ i, text.toList.head? ≠ some (back i).mark) :
    Continues back exact Jammed (tryText text) := by
  refine .token (tryText_token (isToken_ne_nil token)) Jammed.skipText_eq ?_ ?_ ?_
  · rintro seen result width jam ⟨⟩
    rw [isToken_jammed token jam]
    exact jam
  · rintro seen result width something ⟨⟩
    refine Or.inr (Or.inr ⟨?_, fun i => by rw [isPrefixOf_text (isToken_apart token) something]⟩)
    split
    · next start => exact length_le_of_isPrefixOf start
    · exact Nat.zero_le _
  · rintro exactly result width here i
    obtain ⟨first, rest, same, -⟩ := isToken_iff token
    have other : first ≠ (back i).mark := fun alike => final exactly i (by rw [same, alike]; rfl)
    have miss : text.toList.isPrefixOf (back i).seen = false := by
      rw [same, Sequel.seen, List.isPrefixOf, beq_eq_false_iff_ne.mpr other, Bool.false_and]
    have none : text.toList.isPrefixOf [] = false := by rw [same]; rfl
    rw [none] at here
    cases here
    rw [miss]
    rfl

theorem expect_start {text : String} (nonempty : text.toList ≠ []) {c : Cursor}
    (start : text.toList.isPrefixOf (skipText c.rest) = true) :
    expect text c = .ok ((), c.skip.advance text.length) :=
  scan_bind_of_ok (tryText_start nonempty start)

theorem expect_token {text : String} (nonempty : text.toList ≠ []) : Token (expect text) fun seen =>
    if text.toList.isPrefixOf seen then some ((), text.length) else none where
  found := by
    intro c result width here
    split at here
    · next start =>
      cases here
      exact expect_start nonempty start
    · cases here
  missed := by
    intro c here result c' read
    split at here
    · cases here
    · next start =>
      rw [Bool.not_eq_true] at start
      rw [expect, scan_bind_of_ok (tryText_miss nonempty start)] at read
      cases read

theorem expect_continues_of {text : String} (nonempty : text.toList ≠ [])
    (apart : isApart text.toList.tail = true)
    (stays : ∀ {seen}, Jammed seen → text.toList.isPrefixOf seen = true →
      Jammed (seen.drop text.length)) : Continues back exact Jammed (expect text) := by
  refine .token (expect_token nonempty) Jammed.skipText_eq ?_ ?_ ?_
  · intro seen result width jam here
    split at here
    · next start =>
      cases here
      exact stays jam start
    · cases here
  · intro seen result width something here
    split at here
    · next start =>
      cases here
      refine Or.inr (Or.inr ⟨length_le_of_isPrefixOf start, fun i => ?_⟩)
      rw [isPrefixOf_text apart something, start]
      rfl
    · cases here
  · intro exactly result width here
    obtain ⟨first, rest, same⟩ := List.exists_cons_of_ne_nil nonempty
    rw [same] at here
    cases here

/-- An expected text continues, as it has to be there in the text alone. -/
theorem expect_continues {text : String} (token : isToken text = true) :
    Continues back exact Jammed (expect text) := by
  refine expect_continues_of (isToken_ne_nil token) (isToken_apart token) fun jam start => ?_
  rw [isToken_jammed token jam] at start
  cases start

/-- A point may stand where a reader is stuck, and behind it the reader is
still stuck. -/
theorem expect_point_continues : Continues back exact Jammed (expect ".") := by
  refine expect_continues_of (by decide) (by decide) fun jam start => jam.drop_point ?_
  obtain ⟨rest, rfl⟩ := List.isPrefixOf_iff_prefix.mp start
  rfl

/-- A given text is not there at the end, nor where a reader is stuck. -/
theorem expect_fails {text : String} (token : isToken text = true) {c : Cursor}
    (gone : c.rest = [] ∨ Jammed c.rest) (result : Unit) (c' : Cursor) :
    expect text c ≠ .ok (result, c') := by
  refine (expect_token (isToken_ne_nil token)).missed ?_ result c'
  rcases gone with ended | jam
  · obtain ⟨first, rest, same, -⟩ := isToken_iff token
    rw [ended, same]
    rfl
  · rw [jam.skipText_eq, isToken_jammed token jam]
    rfl

/-! ### Keywords -/

/-- Whether no part of a text is what one character becomes in capitals. -/
def noExpansion : List Char → Bool
  | [] => Text.caseExpansions.all fun pair => !pair.2.isEmpty
  | c :: rest =>
    Text.caseExpansions.all (fun pair => !(pair.2.map Char.ofNat).isPrefixOf (c :: rest)) &&
      noExpansion rest

/-- A character has one capital, or it is one of those that have several. -/
theorem upperChar_cases (c : Char) :
    (∃ d, Text.upperChar c = [d]) ∨
      ∃ pair ∈ Text.caseExpansions, Text.upperChar c = pair.2.map Char.ofNat := by
  unfold Text.upperChar
  split
  · exact Or.inl ⟨_, rfl⟩
  · split
    · next codes found =>
      obtain ⟨front, back, same, -⟩ := List.lookup_eq_some_iff.mp found
      exact Or.inr ⟨(c.toNat, codes), by rw [same]; simp, rfl⟩
    · split
      · exact Or.inl ⟨_, rfl⟩
      · exact Or.inl ⟨_, rfl⟩

/-- A text whose capitals have no such part is as long as they are. -/
theorem length_eq_of_upper {keyword text : List Char} (single : noExpansion keyword = true)
    (same : Text.upper text = keyword) : text.length = keyword.length := by
  induction text generalizing keyword with
  | nil =>
    rw [← same]
    rfl
  | cons c rest ih =>
    rw [Text.upper, List.flatMap_cons] at same
    rcases upperChar_cases c with ⟨d, capital⟩ | ⟨pair, member, capitals⟩
    · rw [capital] at same
      subst same
      simp only [List.singleton_append, noExpansion, Bool.and_eq_true] at single
      rw [List.length_cons, ih single.2 rfl]
      rfl
    · rw [capitals] at same
      cases keyword with
      | nil =>
        rw [noExpansion, List.all_eq_true] at single
        have some := single pair member
        rw [List.map_eq_nil_iff.mp (List.append_eq_nil_iff.mp same).1] at some
        cases some
      | cons k ks =>
        rw [noExpansion, Bool.and_eq_true, List.all_eq_true] at single
        have none := single.1 pair member
        have start : (pair.2.map Char.ofNat).isPrefixOf (k :: ks) = true := by
          rw [List.isPrefixOf_iff_prefix, ← same]
          exact List.prefix_append _ _
        rw [start] at none
        cases none

/-- Whether a keyword is written in capitals, each the capital of one
character. Then a text has the keyword in as many characters. -/
def isKeyword (keyword : String) : Bool :=
  !keyword.toList.isEmpty && keyword.toList.all Char.isUpper && noExpansion keyword.toList

theorem isKeyword_iff {keyword : String} :
    isKeyword keyword = true ↔ keyword.toList ≠ [] ∧ (∀ c ∈ keyword.toList, c.isUpper = true) ∧
      noExpansion keyword.toList = true := by
  simp [isKeyword, and_assoc]

def isNeutral (c : Char) : Bool :=
  Text.upperChar c == [c] && !c.isUpper

/-- A keyword does not start with a character that is no letter. -/
theorem startsKeyword_neutral {keyword : String} (word : isKeyword keyword = true) {c : Char}
    (neutral : isNeutral c = true) (rest : List Char) :
    startsKeyword keyword (c :: rest) = false := by
  obtain ⟨nonempty, capitals, -⟩ := isKeyword_iff.mp word
  rw [isNeutral, Bool.and_eq_true, beq_iff_eq, Bool.not_eq_true'] at neutral
  obtain ⟨k, ks, chars⟩ := List.exists_cons_of_ne_nil nonempty
  have other : k ≠ c := by
    rintro rfl
    rw [capitals k (by simp [chars])] at neutral
    cases neutral.2
  have clash : differs keyword.toList [c] = true := by simp [chars, differs, other]
  exact startsKeyword_clash (List.forall_mem_singleton.mpr neutral.1) clash rest

theorem startsKeyword_append {keyword : String} (word : isKeyword keyword = true) (seen : List Char)
    (s : Sequel) : startsKeyword keyword (seen ++ s.text) = startsKeyword keyword seen := by
  obtain ⟨-, capitals, single⟩ := isKeyword_iff.mp word
  obtain ⟨first, more, same, member⟩ := s.stops
  rcases Nat.lt_trichotomy keyword.length seen.length with longer | equal | shorter
  · unfold startsKeyword
    rw [List.take_append_of_le_length longer.le, List.drop_append_of_le_length longer.le]
    cases left : seen.drop keyword.length with
    | nil => exact absurd (List.drop_eq_nil_iff.mp left) (Nat.not_le.mpr longer)
    | cons c rest => rfl
  · unfold startsKeyword
    rw [equal, List.take_left, List.drop_left, List.take_length, List.drop_length, same]
    have ends : endsKeyword first = true := Sequel.of_first endsKeyword (by decide) member
    simp [ends]
  · have absent : ∀ text : List Char, startsKeyword keyword text = true →
        Text.upper (text.take keyword.length) = keyword.toList := by
      intro text start
      rw [startsKeyword, Bool.and_eq_true, beq_iff_eq] at start
      exact start.1
    have short : startsKeyword keyword seen = false := by
      refine Bool.eq_false_iff.mpr fun start => ?_
      have long := length_eq_of_upper single (absent seen start)
      rw [List.length_take, String.length_toList] at long
      omega
    rw [short]
    refine Bool.eq_false_iff.mpr fun start => ?_
    have inside : first ∈ keyword.toList := by
      rw [← absent _ start, Text.upper, List.mem_flatMap]
      have neutral : Text.upperChar first = [first] :=
        beq_iff_eq.mp (Sequel.of_first (fun c => Text.upperChar c == [c]) (by decide) member)
      refine ⟨first, ?_, by simp [neutral]⟩
      rw [same, List.take_append]
      refine List.mem_append_right _ ?_
      obtain ⟨n, left⟩ := Nat.exists_eq_add_of_lt shorter
      have some : keyword.length - seen.length = n + 1 := by omega
      simp [some]
    have upper := capitals first inside
    have lower : (!first.isUpper) = true := Sequel.of_first (!·.isUpper) (by decide) member
    rw [upper] at lower
    cases lower

theorem startsKeyword_seen {keyword : String} (word : isKeyword keyword = true) (s : Sequel) :
    startsKeyword keyword s.seen = false :=
  startsKeyword_neutral word (s.of_mark isNeutral (by decide)) s.more

theorem startsKeyword_jammed {keyword : String} (word : isKeyword keyword = true) {text : List Char}
    (jam : Jammed text) : startsKeyword keyword text = false := by
  obtain ⟨first, rest, rfl, neutral⟩ := jam.of_first isNeutral (by decide)
  exact startsKeyword_neutral word neutral rest

theorem atKeyword_continues {keyword : String} (word : isKeyword keyword = true) :
    Continues back exact Jammed (atKeyword keyword) := by
  refine .looks (looks_atKeyword keyword) Jammed.skipText_eq ?_ fun _ i => ?_
  · exact fun text i _ => startsKeyword_append word text (back i)
  · rw [startsKeyword_seen word, startsKeyword_nil (isKeyword_iff.mp word).1]

theorem tryKeyword_token (keyword : String) :
    Token (tryKeyword keyword) fun seen =>
      some (startsKeyword keyword seen, if startsKeyword keyword seen then keyword.length
      else 0) where
  found := by
    rintro c result width ⟨⟩
    change (if startsKeyword keyword (skipText c.rest) = true then
      (do advance keyword.length; return true) else return false : Scan Bool) c.skip = _
    cases startsKeyword keyword (skipText c.rest) <;> rfl
  missed := by
    rintro c ⟨⟩

theorem tryKeyword_miss {keyword : String} {c : Cursor}
    (miss : startsKeyword keyword (skipText c.rest) = false) :
    tryKeyword keyword c = .ok (false, c.skip) := by
  have tried := (tryKeyword_token keyword).found (c := c) rfl
  rwa [miss] at tried

theorem length_le_of_startsKeyword {keyword : String} (word : isKeyword keyword = true)
    {seen : List Char} (start : startsKeyword keyword seen = true) :
    keyword.length ≤ seen.length := by
  rw [startsKeyword, Bool.and_eq_true, beq_iff_eq] at start
  have long := length_eq_of_upper (isKeyword_iff.mp word).2.2 start.1
  rw [List.length_take, String.length_toList] at long
  omega

/-- A keyword is tried alike in front of a sequel, for the first character of a
sequel ends a word. -/
theorem tryKeyword_continues {keyword : String} (word : isKeyword keyword = true) :
    Continues back exact Jammed (tryKeyword keyword) := by
  refine .token (tryKeyword_token keyword) Jammed.skipText_eq ?_ ?_ ?_
  · rintro seen result width jam ⟨⟩
    rw [startsKeyword_jammed word jam]
    exact jam
  · rintro seen result width something ⟨⟩
    refine Or.inr (Or.inr ⟨?_, fun i => by rw [startsKeyword_append word]⟩)
    split
    · next start => exact length_le_of_startsKeyword word start
    · exact Nat.zero_le _
  · rintro exactly result width here i
    rw [startsKeyword_nil (isKeyword_iff.mp word).1] at here
    cases here
    rw [startsKeyword_seen word]
    rfl

/-! ### Lexemes -/

/-- A recogniser that finds the same lexeme with a sequel behind the text, and
nothing in a sequel or where a reader is stuck. -/
structure Recogniser {α : Type} (back : ι → Sequel) (exact : Bool)
    (recognise : List Char → Option α) (width : α → Nat) : Prop where
  narrow : ∀ {text found}, recognise text = some found → width found ≤ text.length
  same : ∀ text i, recognise (text ++ (back i).text) = recognise text
  jammed : ∀ {text}, Jammed text → recognise text = none
  seen : exact = true → ∀ i, recognise (back i).seen = none
  nil : recognise [] = none

theorem lexeme?_token {α : Type} (recognise : List Char → Option α) (width : α → Nat) :
    Token (lexeme? recognise width) fun seen =>
      some (recognise seen, (recognise seen).elim 0 width) where
  found := by
    rintro c result width ⟨⟩
    simp only [lexeme?, Bind.bind, StateT.bind, Except.bind, looks_rest c, id]
    cases recognise (skipText c.rest) <;> rfl
  missed := by
    rintro c ⟨⟩

/-- A lexeme continues if its recogniser finds the same in front of a sequel. -/
theorem lexeme?_continues {α : Type} {recognise : List Char → Option α} {width : α → Nat}
    (recogniser : Recogniser back exact recognise width) :
    Continues back exact Jammed (lexeme? recognise width) := by
  refine .token (lexeme?_token recognise width) Jammed.skipText_eq ?_ ?_ ?_
  · rintro seen result width jam ⟨⟩
    rw [recogniser.jammed jam]
    exact jam
  · rintro seen result width something ⟨⟩
    refine Or.inr (Or.inr ⟨?_, fun i => by rw [recogniser.same]⟩)
    cases found : recognise seen with
    | none => exact Nat.zero_le _
    | some lexeme => exact recogniser.narrow found
  · rintro exactly result width here i
    rw [recogniser.nil] at here
    cases here
    rw [recogniser.seen exactly]
    rfl

/-- A run of characters ends at a sequel, if the characters are neither blanks
nor closing brackets. -/
theorem takeWhile_append {test : Char → Bool} (outside : [' ', ')'].all (!test ·) = true)
    (text : List Char) {behind : List Char} (stops : Stops behind) :
    (text ++ behind).takeWhile test = text.takeWhile test := by
  induction text with
  | nil =>
    obtain ⟨first, more, same, member⟩ := stops
    have other : (!test first) = true := Sequel.of_first (!test ·) outside member
    rw [List.nil_append, same, List.takeWhile_cons_of_neg (by simpa using other),
      List.takeWhile_nil]
  | cons c rest ih => rw [List.cons_append, List.takeWhile_cons, List.takeWhile_cons, ih]

theorem length_takeWhile_le (test : Char → Bool) (text : List Char) :
    (text.takeWhile test).length ≤ text.length :=
  (List.takeWhile_prefix test).length_le

/-! ### Numerals -/

theorem digitRun_text (text : List Char) (s : Sequel) : digitRun (text ++ s.text) = digitRun text :=
  takeWhile_append (by decide) text s.stops

theorem length_digitRun_le (text : List Char) : (digitRun text).length ≤ text.length :=
  length_takeWhile_le _ text

/-- The sequel of an empty text is no sign, no point and no exponent. -/
theorem runs_text (s : Sequel) :
    signRun s.text = [] ∧ fractionRun s.text = [] ∧ exponentRun s.text = [] := by
  obtain ⟨first, more, same, member⟩ := s.stops
  simp only [List.mem_cons, List.not_mem_nil, or_false] at member
  rw [same]
  rcases member with rfl | rfl
  · exact ⟨rfl, rfl, rfl⟩
  · exact ⟨rfl, rfl, rfl⟩

theorem signRun_text (text : List Char) (s : Sequel) : signRun (text ++ s.text) = signRun text := by
  cases text with
  | nil => exact (runs_text s).1
  | cons c rest => unfold signRun; split <;> simp_all

theorem length_signRun_le (text : List Char) : (signRun text).length ≤ text.length := by
  unfold signRun
  split <;> simp

theorem fractionRun_text (text : List Char) (s : Sequel) :
    fractionRun (text ++ s.text) = fractionRun text := by
  cases text with
  | nil => exact (runs_text s).2.1
  | cons c rest =>
    by_cases point : c = '.'
    · subst point
      rw [List.cons_append, fractionRun, fractionRun, digitRun_text]
    · simp [fractionRun, point]

theorem length_fractionRun_le (text : List Char) : (fractionRun text).length ≤ text.length := by
  unfold fractionRun
  split
  · simpa using length_digitRun_le _
  · exact Nat.zero_le _

/-- An exponent is found alike in front of a sequel, since a sequel has no
digits at its start. -/
theorem exponentRun_text (text : List Char) (s : Sequel) :
    exponentRun (text ++ s.text) = exponentRun text := by
  cases text with
  | nil => exact (runs_text s).2.2
  | cons c rest =>
    rw [List.cons_append, exponentRun, exponentRun]
    dsimp only
    rw [signRun_text, List.drop_append_of_le_length (length_signRun_le rest), digitRun_text]

theorem length_exponentRun_le (text : List Char) : (exponentRun text).length ≤ text.length := by
  unfold exponentRun
  split
  · next mark rest =>
    have sign := length_signRun_le rest
    have digits := length_digitRun_le (rest.drop (signRun rest).length)
    rw [List.length_drop] at digits
    split
    · dsimp only
      split
      · exact Nat.zero_le _
      · simp only [List.cons_append, List.length_cons, List.length_append]
        omega
    · exact Nat.zero_le _
  · exact Nat.zero_le _

/-- A numeral is the same in front of a sequel, piece by piece. -/
theorem numeral?_text (text : List Char) (s : Sequel) :
    numeral? (text ++ s.text) = numeral? text := by
  have sign := length_signRun_le text
  have whole := length_digitRun_le (text.drop (signRun text).length)
  have fraction := length_fractionRun_le ((text.drop (signRun text).length).drop
    (digitRun (text.drop (signRun text).length)).length)
  rw [List.length_drop] at fraction
  unfold numeral?
  dsimp only
  rw [signRun_text, List.drop_append_of_le_length sign, digitRun_text,
    List.drop_append_of_le_length whole, fractionRun_text, List.drop_append_of_le_length,
      exponentRun_text]
  rw [List.length_append]
  omega

theorem numeral?_narrow {text : List Char} {found : Numeral} (read : numeral? text = some found) :
    found.text.length ≤ text.length := by
  have sign := length_signRun_le text
  have whole := length_digitRun_le (text.drop (signRun text).length)
  have fraction := length_fractionRun_le ((text.drop (signRun text).length).drop
    (digitRun (text.drop (signRun text).length)).length)
  have exponent := length_exponentRun_le ((text.drop (signRun text).length).drop
    (digitRun (text.drop (signRun text).length) ++
      fractionRun ((text.drop (signRun text).length).drop
      (digitRun (text.drop (signRun text).length)).length)).length)
  simp only [List.length_drop, List.length_append] at whole fraction exponent
  simp only [numeral?] at read
  split at read
  · cases read
    simp only [Numeral.text, List.length_append]
    omega
  · split at read
    · cases read
      simp only [Numeral.text, List.length_append, List.length_nil]
      omega
    · split at read
      · cases read
        simp only [Numeral.text, List.length_append, List.length_nil]
        omega
      · cases read

theorem numeral?_jammed {text : List Char} (jam : Jammed text) : numeral? text = none := by
  obtain ⟨points, rfl⟩ := jam
  rcases points with _ | _ | points
  · decide
  · decide
  · rfl

/-- Numerals are recognised alike, and none is found in a sequel. -/
theorem numeral?_recogniser : Recogniser back exact numeral? (·.text.length) where
  narrow := numeral?_narrow
  same := fun text i => numeral?_text text (back i)
  jammed := numeral?_jammed
  seen := fun _ i => (back i).noNumeral
  nil := rfl

/-! ### Names and tags -/

theorem subtagRun_length_le (text : List Char) : (subtagRun text).length ≤ text.length := by
  fun_induction subtagRun text with
  | case1 rest subtag empty => exact Nat.zero_le _
  | case2 rest subtag some ih =>
    have fits : subtag.length ≤ rest.length := length_takeWhile_le _ _
    rw [List.length_drop] at ih
    simp only [List.cons_append, List.length_cons, List.length_append]
    omega
  | case3 text other => exact Nat.zero_le _

theorem subtagRun_text (text : List Char) (s : Sequel) :
    subtagRun (text ++ s.text) = subtagRun text := by
  have stops : ∀ rest : List Char,
      (rest ++ s.text).takeWhile Char.isAlphanum = rest.takeWhile Char.isAlphanum :=
    fun rest => takeWhile_append (by decide) rest s.stops
  fun_induction subtagRun text with
  | case1 rest subtag empty =>
    rw [List.cons_append, subtagRun, stops, if_pos empty]
  | case2 rest subtag some ih =>
    have fits : subtag.length ≤ rest.length := length_takeWhile_le _ _
    rw [List.cons_append, subtagRun, stops, if_neg some, List.drop_append_of_le_length fits, ih]
  | case3 text other =>
    rw [subtagRun]
    intro rest same
    cases text with
    | nil =>
      obtain ⟨first, more, start, member⟩ := s.stops
      rw [List.nil_append, start] at same
      cases same
      simp at member
    | cons c more =>
      cases same
      exact other more rfl

theorem languageTag?_recogniser : Recogniser back exact languageTag? List.length where
  narrow := by
    intro text found read
    simp only [languageTag?] at read
    split at read
    · cases read
    · cases read
      have fits := length_takeWhile_le Char.isAlpha text
      have tags := (subtagRun_length_le (text.drop (text.takeWhile Char.isAlpha).length))
      rw [List.length_drop] at tags
      rw [List.length_append]
      omega
  same := by
    intro text i
    have fits := length_takeWhile_le Char.isAlpha text
    rw [languageTag?, takeWhile_append (by decide) text (back i).stops,
      List.drop_append_of_le_length fits, subtagRun_text]
    rfl
  jammed := by
    intro text jam
    obtain ⟨first, rest, rfl, other⟩ := jam.of_first (!·.isAlpha) (by decide)
    rw [languageTag?, List.takeWhile_cons_of_neg (by simpa using other)]
    rfl
  seen := by
    intro exactly i
    have other : (!(back i).mark.isAlpha) = true := (back i).of_mark (!·.isAlpha) (by decide)
    rw [languageTag?, Sequel.seen, List.takeWhile_cons_of_neg (by simpa using other)]
    rfl
  nil := rfl

/-- A namespace name needs its colon, which no sequel has at its start. -/
theorem namespaceName?_append (text : List Char) {behind : List Char} (stops : Stops behind) :
    namespaceName? (text ++ behind) = namespaceName? text := by
  have colon : ∀ rest : List Char, (rest ++ behind).head? = some ':' ↔ rest.head? = some ':' := by
    intro rest
    cases rest with
    | cons c more => rfl
    | nil =>
      exact iff_of_false (head?_append_ne (by simp) (by decide) stops) (by simp)
  cases text with
  | nil =>
    obtain ⟨first, more, same, member⟩ := stops
    have other := Sequel.of_first (fun c => !c.isAlpha && c != ':') (by decide) member
    rw [Bool.and_eq_true, Bool.not_eq_true', bne_iff_ne] at other
    simp [same, namespaceName?, other.1, other.2]
  | cons c rest =>
    have fits := length_takeWhile_le isNameChar rest
    rw [List.cons_append, namespaceName?, namespaceName?, takeWhile_append (by decide) rest stops]
    by_cases letter : c.isAlpha = true
    · rw [if_pos letter, List.length_cons, List.drop_succ_cons, List.drop_succ_cons,
        List.drop_append_of_le_length fits]
      simp only [colon]
    · rw [if_neg letter]
      rfl

theorem namespaceName?_jammed {text : List Char} (jam : Jammed text) :
    namespaceName? text = none := by
  obtain ⟨first, rest, rfl, other⟩ := jam.of_first (fun c => !c.isAlpha && c != ':') (by decide)
  rw [Bool.and_eq_true, Bool.not_eq_true', bne_iff_ne] at other
  simp [namespaceName?, other.1, other.2]

theorem namespaceName?_seen (s : Sequel) : namespaceName? s.seen = none := by
  have other := s.of_mark (fun c => !c.isAlpha && c != ':') (by decide)
  rw [Bool.and_eq_true, Bool.not_eq_true', bne_iff_ne] at other
  simp [namespaceName?, Sequel.seen, other.1, other.2]

theorem blankLabel?_narrow {text found : List Char} (read : blankLabel? text = some found) :
    found.length ≤ text.length := by
  simp only [blankLabel?] at read
  split at read
  · cases read
  · cases read
    rw [List.length_reverse]
    refine Nat.le_trans (List.dropWhile_suffix _).length_le ?_
    rw [List.length_reverse]
    exact length_takeWhile_le _ text

/-- The name of a blank node is the same in front of a sequel. -/
theorem blankLabel?_append (text : List Char) {behind : List Char} (stops : Stops behind) :
    blankLabel? (text ++ behind) = blankLabel? text := by
  rw [blankLabel?, takeWhile_append (by decide) text stops, ← blankLabel?]

theorem blankLabel?_recogniser : Recogniser back exact blankLabel? List.length where
  narrow := blankLabel?_narrow
  same := fun text i => blankLabel?_append text (back i).stops
  jammed := by
    rintro text ⟨points, rfl⟩
    have run : (List.replicate points '.' ++ ['\\']).takeWhile isNameChar =
        List.replicate points '.' := by
      rw [List.takeWhile_append_of_pos fun c member => by rw [List.eq_of_mem_replicate member]; rfl,
        List.takeWhile_cons_of_neg (by decide), List.append_nil]
    have none : (List.replicate points '.').reverse.dropWhile (!Text.isWord ·) = [] := by
      rw [List.dropWhile_eq_nil_iff]
      intro c member
      rw [List.eq_of_mem_replicate (List.mem_reverse.mp member)]
      rfl
    rw [blankLabel?, run, none]
    rfl
  seen := by
    intro exactly i
    have other : (!isNameChar (back i).mark) = true := (back i).of_mark (!isNameChar ·) (by decide)
    rw [blankLabel?, Sequel.seen, List.takeWhile_cons_of_neg (by simpa using other)]
    rfl
  nil := rfl

theorem tryNumeral_continues : Continues back exact Jammed tryNumeral :=
  lexeme?_continues numeral?_recogniser

theorem tryLanguageTag_continues : Continues back exact Jammed tryLanguageTag :=
  lexeme?_continues languageTag?_recogniser

theorem atPrefixedName_continues : Continues back exact Jammed atPrefixedName := by
  refine .looks looks_atPrefixedName Jammed.skipText_eq (fun text i _ => ?_) fun _ i => ?_
  · rw [namespaceName?_append text (back i).stops]
  · rw [namespaceName?_seen]
    rfl

/-! ### IRIs -/

def iriRef? (seen : List Char) : Option (String × Nat) :=
  if seen.head? = some '<' then
    if (seen.dropWhile (· != '>')).isEmpty then none
    else some (String.ofList ((seen.takeWhile (· != '>')).drop 1),
      (seen.takeWhile (· != '>')).length + 1)
  else none

theorem iriRef_token : Token iriRef iriRef? where
  found := by
    intro c result width here
    rw [iriRef_eq, Cursor.skip_rest]
    unfold iriRef? at here
    split at here
    · next opened =>
      split at here
      · cases here
      · next closed =>
        cases here
        rw [if_pos opened, if_neg closed]
    · cases here
  missed := by
    intro c here result c' read
    rw [iriRef_eq, Cursor.skip_rest] at read
    unfold iriRef? at here
    split at here
    · next opened =>
      rw [if_pos opened] at read
      split at here
      · next unclosed =>
        rw [if_pos unclosed] at read
        cases read
      · cases here
    · next other =>
      rw [if_neg other] at read
      cases read

/-- An IRI in angle brackets is the same whatever follows. -/
theorem iriRef?_append {seen : List Char} {result : String} {width : Nat}
    (found : iriRef? seen = some (result, width)) :
    width ≤ seen.length ∧ ∀ behind, iriRef? (seen ++ behind) = some (result, width) := by
  unfold iriRef? at found
  split at found
  · next opened =>
    split at found
    · cases found
    · next closed =>
      cases found
      obtain ⟨front, rest, rfl, without⟩ :=
        List.eq_append_cons_of_mem (a := '>') (by simpa using closed)
      have inside : ∀ c ∈ front, (c != '>') = true := by
        rintro c member
        refine bne_iff_ne.mpr ?_
        rintro rfl
        exact without member
      have taken : ∀ more, (front ++ '>' :: more).takeWhile (· != '>') = front := by
        intro more
        rw [List.takeWhile_append_of_pos inside, List.takeWhile_cons_of_neg (by decide),
          List.append_nil]
      refine ⟨?_, fun behind => ?_⟩
      · rw [taken, List.length_append, List.length_cons]
        omega
      · have head : (front ++ '>' :: rest ++ behind).head? = some '<' := by
          rw [List.head?_append, opened]
          rfl
        rw [iriRef?, if_pos head, List.append_assoc, List.cons_append, taken, taken,
          if_neg (by simp)]
  · cases found

/-- An IRI between angle brackets ends with its bracket. -/
theorem iriRef_continues : Continues back exact Jammed iriRef := by
  refine .token iriRef_token Jammed.skipText_eq ?_ ?_ ?_
  · intro seen result width jam here
    obtain ⟨first, rest, rfl, other⟩ := jam.of_first (· != '<') (by decide)
    rw [iriRef?, List.head?_cons, if_neg (by simpa using other)] at here
    cases here
  · intro seen result width something here
    obtain ⟨narrow, same⟩ := iriRef?_append here
    exact Or.inr (Or.inr ⟨narrow, fun i => same _⟩)
  · intro exactly result width here
    cases here

theorem localRun_cons {c : Char} (plain : c ≠ '\\') (rest : List Char) :
    localRun (c :: rest) = if isLocalChar c then c :: localRun rest else [] := by
  rw [localRun]
  intro d more same
  exact absurd same plain

/-- The local name at the end of a text is the same with something behind it,
unless a backslash is left. -/
theorem localRun_append (text : List Char) :
    (∀ {behind}, Stops behind → localRun (text ++ behind) = localRun text) ∨
      text = localRun text ++ ['\\'] := by
  fun_induction localRun text with
  | case1 rest => exact Or.inl fun _ => rfl
  | case2 c rest other ih =>
    rcases ih with same | jam
    · refine Or.inl fun stops => ?_
      rw [List.cons_append, List.cons_append, localRun, if_neg other, same stops]
    · refine Or.inr ?_
      rw [List.cons_append, List.cons_append, ← jam]
  | case3 c rest plain inside ih =>
    rcases ih with same | jam
    · refine Or.inl fun stops => ?_
      have unescaped : c ≠ '\\' := by
        rintro rfl
        cases inside
      rw [List.cons_append, localRun_cons unescaped, if_pos inside, same stops]
    · refine Or.inr ?_
      rw [List.cons_append, ← jam]
  | case4 c rest plain outside =>
    by_cases escape : c = '\\'
    · refine Or.inr ?_
      cases rest with
      | nil => rw [escape, List.nil_append]
      | cons d more => exact absurd rfl (plain d more escape)
    · refine Or.inl fun stops => ?_
      rw [List.cons_append, localRun_cons escape, if_neg outside]
  | case5 =>
    refine Or.inl fun stops => ?_
    obtain ⟨first, more, same, member⟩ := stops
    have other := Sequel.of_first (fun c => !isLocalChar c && c != '\\') (by decide) member
    rw [Bool.and_eq_true, Bool.not_eq_true', bne_iff_ne] at other
    rw [List.nil_append, same, localRun_cons other.2, other.1]
    rfl

/-- What is dropped at the end of a local name are points. -/
theorem dropFinalPoints_append (written : List Char) :
    ∃ points, written = dropFinalPoints written ++ List.replicate points '.' := by
  refine ⟨(written.reverse.takeWhile (· == '.')).length, ?_⟩
  have points : written.reverse.takeWhile (· == '.') =
      List.replicate (written.reverse.takeWhile (· == '.')).length '.' := by
    refine List.eq_replicate_iff.mpr ⟨rfl, fun c member => ?_⟩
    simpa using List.mem_takeWhile_imp member
  have whole := congrArg List.reverse
    (List.takeWhile_append_dropWhile (p := (· == '.')) (l := written.reverse))
  rw [List.reverse_reverse, List.reverse_append, points, List.reverse_replicate] at whole
  rw [dropFinalPoints]
  exact whole.symm

def readName? (seen : List Char) : Option ((String × String) × Nat) :=
  (prefixedName? seen).map fun found =>
    ((String.ofList found.name, String.ofList (unescapeLocal (dropFinalPoints found.localPart))),
      found.name.length + 1 + (dropFinalPoints found.localPart).length)

/-- A prefixed name is a token: what is read is told by the text that comes next. -/
theorem prefixedName_token : Token prefixedName readName? where
  found := by
    intro c result width here
    rw [prefixedName_eq, Cursor.skip_rest]
    obtain ⟨found, read, same⟩ := Option.map_eq_some_iff.mp here
    rw [read]
    cases same
    rfl
  missed := by
    intro c here result c' read
    rw [prefixedName_eq, Cursor.skip_rest, Option.map_eq_none_iff.mp here] at read
    cases read

/-- A prefixed name is the same with something behind it, unless points and a
backslash are left. -/
theorem readName?_append {seen : List Char} {result : String × String} {width : Nat}
    (found : readName? seen = some (result, width)) :
    Jammed (seen.drop width) ∨
      (width ≤ seen.length ∧ ∀ {behind}, Stops behind →
        readName? (seen ++ behind) = some (result, width)) := by
  obtain ⟨parts, read, same⟩ := Option.map_eq_some_iff.mp found
  obtain ⟨name, named, rfl⟩ := Option.map_eq_some_iff.mp read
  obtain ⟨rest, rfl⟩ := namespaceName?_eq named
  have behind : ∀ rest : List Char, (name ++ ':' :: rest).drop (name.length + 1) = rest := by
    intro rest
    rw [← List.drop_drop, List.drop_left, List.drop_succ_cons, List.drop_zero]
  rw [behind] at same
  cases same
  rcases localRun_append rest with alike | jam
  · refine Or.inr ⟨?_, fun stops => ?_⟩
    · have fits := ((dropFinalPoints_starts (localRun rest)).trans (localRun_starts rest)).length_le
      rw [List.length_append, List.length_cons]
      dsimp only
      omega
    · rw [readName?, prefixedName?, namespaceName?_append _ stops, named, Option.map_some,
        List.append_assoc, List.cons_append, behind, alike stops]
      rfl
  · obtain ⟨points, cut⟩ := dropFinalPoints_append (localRun rest)
    refine Or.inl ⟨points, ?_⟩
    rw [← List.drop_drop, behind]
    nth_rewrite 2 [jam]
    nth_rewrite 2 [cut]
    rw [List.append_assoc, List.drop_left]

/-- A prefixed name continues, unless its final points and a backslash are
left, and then every reader behind it is stuck. -/
theorem prefixedName_continues : Continues back exact Jammed prefixedName := by
  refine .token prefixedName_token Jammed.skipText_eq ?_ ?_ ?_
  · intro seen result width jam here
    rw [readName?, prefixedName?, namespaceName?_jammed jam] at here
    cases here
  · intro seen result width something here
    rcases readName?_append here with jam | ⟨narrow, same⟩
    · exact Or.inl jam
    · exact Or.inr (Or.inr ⟨narrow, fun i => same (back i).stops⟩)
  · intro exactly result width here
    cases here

/-! ### Strings -/

theorem quotes_apart {quote : List Char} (member : quote ∈ quotes) : isApart quote = true := by
  have all : quotes.all isApart = true := by decide
  exact List.all_eq_true.mp all quote member

/-- A letter that is escaped, other than that of a code point. -/
theorem stringBody_letter (origin : Cursor) {quote more : List Char} {letter : Char}
    (other : letter ≠ 'u') (unclosed : ¬ quote.isPrefixOf ('\\' :: letter :: more) = true)
    (taken : Nat) (acc : List Char) :
    stringBody origin quote ('\\' :: letter :: more) taken acc =
      stringBody origin quote more (taken + 2) (letterEscape letter :: acc) := by
  rw [stringBody.eq_def]
  dsimp only
  rw [if_neg unclosed, if_pos rfl]
  split
  · next same => cases same
  · next same =>
    cases same
    exact absurd rfl other
  · next same =>
    cases same
    exact absurd rfl other
  · next same =>
    cases same
    rfl

/-- A string that is closed is read up to its closing quote, and its place in a
text does not matter. -/
theorem stringBody_text {origin : Cursor} {quote : List Char} (apart : isApart quote = true)
    {text : List Char} {taken : Nat} {acc : List Char} {body : List Char × Nat}
    (read : stringBody origin quote text taken acc = .ok body) (other : Cursor) :
    body.2 ≤ taken + text.length ∧ stringBody other quote text taken acc = .ok body ∧
      ∀ s : Sequel, stringBody other quote (text ++ s.text) taken acc = .ok body := by
  have unopened : ∀ {text : List Char}, ¬ quote.isPrefixOf text = true → ∀ s : Sequel,
      ¬ quote.isPrefixOf (text ++ s.text) = true := fun unclosed s => by
    rwa [isPrefixOf_append apart _ s.stops]
  fun_induction stringBody origin quote text taken acc with
  | case1 taken acc => cases read
  | case2 c rest taken acc closed =>
    cases read
    have fits := (List.isPrefixOf_iff_prefix.mp closed).length_le
    refine ⟨Nat.add_le_add_left fits _, ?_, fun s => ?_⟩
    · unfold stringBody
      rw [if_pos closed]
    · have still := (isPrefixOf_append apart (c :: rest) s.stops).trans closed
      rw [List.cons_append] at still ⊢
      unfold stringBody
      rw [if_pos still]
  | case3 taken acc unclosed => cases read
  | case4 taken acc d₁ d₂ d₃ d₄ more meaning escaped unclosed ih =>
    obtain ⟨fits, alone, followed⟩ := ih read
    refine ⟨?_, ?_, fun s => ?_⟩
    · simp only [List.length_cons]
      omega
    · unfold stringBody
      rw [if_neg unclosed, if_pos rfl]
      simp only [escaped]
      exact alone
    · have still := unopened unclosed s
      simp only [List.cons_append] at still ⊢
      unfold stringBody
      rw [if_neg still, if_pos rfl]
      simp only [escaped]
      exact followed s
  | case5 taken acc d₁ d₂ d₃ d₄ more fault bad unclosed => cases read
  | case6 => cases read
  | case7 taken acc digits short fault bad unclosed => cases read
  | case8 taken acc letter more noCode noDigits unclosed ih =>
    obtain ⟨fits, alone, followed⟩ := ih read
    refine ⟨?_, ?_, fun s => ?_⟩
    · simp only [List.length_cons]
      omega
    · rw [stringBody_letter other noDigits unclosed]
      exact alone
    · have still := unopened unclosed s
      rw [List.cons_append, List.cons_append] at still ⊢
      rw [stringBody_letter other noDigits still]
      exact followed s
  | case9 c rest taken acc unclosed plain ih =>
    obtain ⟨fits, alone, followed⟩ := ih read
    refine ⟨?_, ?_, fun s => ?_⟩
    · simp only [List.length_cons]
      omega
    · unfold stringBody
      rw [if_neg unclosed, if_neg plain]
      exact alone
    · have still := unopened unclosed s
      rw [List.cons_append] at still ⊢
      unfold stringBody
      rw [if_neg still, if_neg plain]
      exact followed s

theorem toOption_eq_some {ε α : Type} {outcome : Except ε α} {result : α}
    (same : outcome.toOption = some result) : outcome = .ok result := by
  cases outcome with
  | error fault => cases same
  | ok value =>
    cases same
    rfl

/-- A string is a token. Its place in the text only matters for its faults, so
it can be read from the start of another text. -/
theorem string_token : Token string fun seen => (quotes.find? (·.isPrefixOf seen)).bind fun quote =>
    (stringBody (.start []) quote (seen.drop quote.length) quote.length []).toOption.map fun body =>
      (String.ofList body.1, body.2) where
  found := by
    intro c result width here
    obtain ⟨quote, opened, read⟩ := Option.bind_eq_some_iff.mp here
    obtain ⟨body, inside, same⟩ := Option.map_eq_some_iff.mp read
    have apart := quotes_apart (List.mem_of_find?_eq_some opened)
    have there := (stringBody_text apart (toOption_eq_some inside) c.skip).2.1
    rw [string_eq, Cursor.skip_rest, opened, Option.elim_some, there]
    cases same
    rfl
  missed := by
    intro c here result c' read
    rw [string_eq, Cursor.skip_rest] at read
    cases opened : quotes.find? (·.isPrefixOf (skipText c.rest)) with
    | none =>
      rw [opened] at read
      cases read
    | some quote =>
      have apart := quotes_apart (List.mem_of_find?_eq_some opened)
      rw [opened, Option.bind_some, Option.map_eq_none_iff] at here
      rw [opened, Option.elim_some] at read
      cases outcome : stringBody c.skip quote ((skipText c.rest).drop quote.length)
        quote.length [] with
      | error fault =>
        rw [outcome] at read
        cases read
      | ok body =>
        rw [(stringBody_text apart outcome (.start [])).2.1] at here
        cases here

theorem quotes_find_append {seen : List Char} (s : Sequel) :
    quotes.find? (·.isPrefixOf (seen ++ s.text)) = quotes.find? (·.isPrefixOf seen) := by
  have alike : ∀ quote ∈ quotes, quote.isPrefixOf (seen ++ s.text) = quote.isPrefixOf seen :=
    fun quote member => isPrefixOf_append (quotes_apart member) seen s.stops
  generalize quotes = candidates at alike
  induction candidates with
  | nil => rfl
  | cons quote others ih =>
    rw [List.forall_mem_cons] at alike
    rw [List.find?_cons, List.find?_cons, alike.1, ih alike.2]

/-- A text that starts with neither a quote nor a blank is no string. -/
theorem quotes_find_none {seen : List Char}
    (other : seen.head? ≠ some '"' ∧ seen.head? ≠ some '\'') :
    quotes.find? (·.isPrefixOf seen) = none := by
  cases seen with
  | nil => rfl
  | cons c rest =>
    simp only [List.head?_cons, ne_eq, Option.some.injEq] at other
    simp [quotes, List.isPrefixOf, Ne.symm other.1, Ne.symm other.2]

/-- A string ends with its closing quote, so it continues. -/
theorem string_continues : Continues back exact Jammed string := by
  refine .token string_token Jammed.skipText_eq ?_ ?_ ?_
  · intro seen result width jam here
    obtain ⟨first, rest, rfl, other⟩ := jam.of_first (fun c => c != '"' && c != '\'') (by decide)
    rw [quotes_find_none (by simpa using other)] at here
    cases here
  · intro seen result width something here
    obtain ⟨quote, opened, read⟩ := Option.bind_eq_some_iff.mp here
    obtain ⟨body, inside, same⟩ := Option.map_eq_some_iff.mp read
    have apart := quotes_apart (List.mem_of_find?_eq_some opened)
    have start : quote.isPrefixOf seen = true :=
      List.find?_some (p := (List.isPrefixOf · seen)) opened
    have starts := (List.isPrefixOf_iff_prefix.mp start).length_le
    obtain ⟨fits, -, followed⟩ := stringBody_text apart (toOption_eq_some inside) (.start [])
    cases same
    refine Or.inr (Or.inr ⟨?_, fun i => ?_⟩)
    · rw [List.length_drop] at fits
      omega
    · rw [quotes_find_append, opened, Option.bind_some,
        List.drop_append_of_le_length starts, followed]
      rfl
  · intro exactly result width here
    cases here

/-! ### Regular expressions -/

theorem regexpBody_cons {c : Char} (noSlash : c ≠ '/') (noEscape : c ≠ '\\') (rest : List Char) :
    regexpBody (c :: rest) = (c :: (regexpBody rest).1, (regexpBody rest).2 + 1) := by
  rw [regexpBody]
  · exact noSlash
  · exact fun _ escape => absurd escape noEscape
  · exact fun _ _ escape => absurd escape noEscape
  · exact fun escape => absurd escape noEscape

/-- The body of a regular expression ends in front of a slash, or only where
the text ends. -/
theorem regexpBody_text (text : List Char) :
    text.drop (regexpBody text).2 = [] ∨
      ((regexpBody text).2 ≤ text.length ∧ ∀ s : Sequel, regexpBody (text ++ s.text) =
      regexpBody text) := by
  fun_induction regexpBody text with
  | case1 => exact Or.inl rfl
  | case2 rest => exact Or.inr ⟨Nat.zero_le _, fun s => rfl⟩
  | case3 rest pattern taken body ih =>
    rw [body] at ih
    refine ih.imp (fun ended => ended) fun ⟨fits, same⟩ =>
      ⟨Nat.add_le_add_right fits 2, fun s => ?_⟩
    rw [List.cons_append, List.cons_append, regexpBody, same]
  | case4 c rest other pattern taken body ih =>
    rw [body] at ih
    refine ih.imp (fun ended => ended) fun ⟨fits, same⟩ =>
      ⟨Nat.add_le_add_right fits 2, fun s => ?_⟩
    rw [List.cons_append, List.cons_append, regexpBody, same]
    exact other
  | case5 => exact Or.inl rfl
  | case6 c rest noSlash noEscape noEscapes noFinal pattern taken body ih =>
    have plain : c ≠ '\\' := by
      rintro rfl
      cases rest with
      | nil => exact noFinal rfl rfl
      | cons d more => exact noEscapes d more rfl rfl
    rw [body] at ih
    refine ih.imp (fun ended => ended) fun ⟨fits, same⟩ =>
      ⟨Nat.add_le_add_right fits 1, fun s => ?_⟩
    rw [List.cons_append, regexpBody_cons noSlash plain, same]

def regexpPattern : Scan (List Char) := do
  let body := regexpBody (← get).rest
  advance body.2
  return body.1

def regexpFlags : Scan (List Char) := do
  let flags := (← get).rest.takeWhile isFlag
  advance flags.length
  return flags

theorem regexp_eq : regexp = do
    expect "/"
    let pattern ← regexpPattern
    expect "/"
    let flags ← regexpFlags
    return (String.ofList pattern,
      if flags.isEmpty then none else some (String.ofList flags)) :=
  rfl

theorem regexpFlags_continues : Continues back exact Jammed regexpFlags := by
  have reads : ∀ c : Cursor, regexpFlags c =
      .ok (c.rest.takeWhile isFlag, c.advance (c.rest.takeWhile isFlag).length) := fun _ => rfl
  refine .here (fun text => (text.takeWhile isFlag, (text.takeWhile isFlag).length))
    reads ?_ ?_ ?_ ?_
  · intro text jam
    obtain ⟨first, rest, rfl, other⟩ := jam.of_first (!isFlag ·) (by decide)
    rw [List.takeWhile_cons_of_neg (by simpa using other)]
    exact jam
  · exact length_takeWhile_le isFlag
  · intro text i
    rw [takeWhile_append (by decide) text (back i).stops]
  · intro i
    have other := (back i).of_mark (!isFlag ·) (by decide)
    rw [Sequel.seen, List.takeWhile_cons_of_neg (by simpa using other), List.takeWhile_nil]

/-- The body of a regular expression ends in front of a slash. Without a slash
the reader is stuck. -/
theorem regexpPattern_continues : Continues back false ('/' ∉ ·) regexpPattern where
  ends := by
    rintro c result c' ⟨⟩ ended
    change c.rest.drop _ = []
    rw [ended, List.drop_nil]
  sticks := by
    rintro c result c' ⟨⟩ none member
    exact none (List.mem_of_mem_drop member)
  resumes := by
    rintro c result c' ds ⟨⟩ trails
    have reads : ∀ {body : List Char × Nat} {d : Cursor}, regexpBody d.rest = body →
        regexpPattern d = .ok (body.1, d.advance body.2) := by
      rintro body d rfl
      rfl
    rcases regexpBody_text c.rest with ended | ⟨fits, same⟩
    · exact Or.inr (Or.inl ⟨rfl, ended⟩)
    · rcases trails.attached with ended | attached
      · exact Or.inr (Or.inl ⟨rfl, by change c.rest.drop _ = []; rw [ended, List.drop_nil]⟩)
      · refine Or.inr (Or.inr ⟨fun i => (ds i).advance _, fun i => reads ?_, Or.inl fun i => ?_⟩)
        · rw [attached i, same]
        · rw [Cursor.advance_rest, attached i, List.drop_append_of_le_length fits]
          rfl

/-- A text is not there if its first character is nowhere. -/
theorem expect_slash_fails {c : Cursor} (none : '/' ∉ c.rest) (result : Unit) (c' : Cursor) :
    expect "/" c ≠ .ok (result, c') := by
  refine (expect_token (by decide)).missed (if_neg fun start => none ?_) result c'
  obtain ⟨rest, same⟩ := List.isPrefixOf_iff_prefix.mp start
  have member : '/' ∈ skipText c.rest := by
    rw [← same]
    exact List.mem_cons_self
  exact List.mem_of_mem_drop member

/-- A regular expression and its flags continue, as no sequel starts with a flag. -/
theorem regexp_continues : Continues back exact Jammed regexp := by
  rw [regexp_eq]
  refine .bind (expect_continues (by decide)) fun _ => ?_
  refine regexpPattern_continues.bindFirm (fun pattern => ?_) ?_ ?_ ?_
  · refine .bind (expect_continues (by decide)) fun _ => ?_
    exact .bind regexpFlags_continues fun flags => .pure _
  · intro pattern c result c' ended read
    obtain ⟨value, middle, slash, -⟩ := scan_bind_ok read
    exact expect_slash_fails (by simp [ended]) value middle slash
  · intro pattern c result c' read none
    obtain ⟨value, middle, slash, -⟩ := scan_bind_ok read
    exact absurd slash (expect_slash_fails none value middle)
  · rintro text ⟨points, rfl⟩
    simp [List.mem_replicate]

/-! ### Names -/

section

variable {β : Type} {yes no : Scan β}

/-- A look at the next character, and what follows for each character. At the
end the mark of a sequel must make no difference. -/
theorem peek_bind_continues {next : Option Char → Scan β}
    (final : exact = true → ∀ i, next (some (back i).mark) = next none)
    (second : ∀ value, Continues back exact Jammed (next value)) :
    Continues back exact Jammed (peek >>= next) := by
  refine .look looks_peek Jammed.skipText_eq (fun text i something => ?_) final second
  obtain ⟨first, rest, rfl⟩ := List.exists_cons_of_ne_nil something
  rfl

theorem peek_test_continues {c : Char} (other : [')', '?', '*', '+', '{'].all (· != c) = true)
    (holds : Continues back exact Jammed yes) (fails : Continues back exact Jammed no) :
    Continues back exact Jammed (peek >>= fun next => if next = some c then yes else no) := by
  refine peek_bind_continues (fun _ i => ?_) fun next => .ite (fun _ => holds) fun _ => fails
  have differ : (back i).mark ≠ c := bne_iff_ne.mp ((back i).of_mark (· != c) other)
  rw [if_neg (by simpa using differ), if_neg (by simp)]

end

theorem resolvedIriRef_continues (names : Names) :
    Continues back exact Jammed (resolvedIriRef names) :=
  .bind iriRef_continues fun iri => .lift (names.resolve iri)

theorem iri_continues (names : Names) : Continues back exact Jammed (iri names) := by
  refine peek_test_continues (by decide) (resolvedIriRef_continues names) ?_
  refine .bind prefixedName_continues fun (name, localPart) => ?_
  dsimp only
  cases names.namespaces.lookup name with
  | some space => exact .pure _
  | none => exact .fail _

theorem atIri_continues : Continues back exact Jammed atIri :=
  peek_test_continues (by decide) (.pure true) atPrefixedName_continues

theorem notMark {text : String}
    (other : [')', '?', '*', '+', '{'].all (text.toList.head? != some ·) = true) (i : ι) :
    text.toList.head? ≠ some (back i).mark :=
  bne_iff_ne.mp ((back i).of_mark (text.toList.head? != some ·) other)

theorem label_continues (names : Names) : Continues back exact Jammed (label names) := by
  refine .test (tryText_continues (by decide) fun _ => notMark (by decide)) ?_ (iri_continues names)
  refine .bind (lexeme?_continues blankLabel?_recogniser) fun found => ?_
  cases found with
  | some name => exact .pure _
  | none => exact .fail _

def atRdfType : Scan Bool := do
  return startsRdfType (← rest)

theorem looks_atRdfType : Looks atRdfType startsRdfType := fun _ => rfl

def rdfWord : Scan String := do
  if startsRdfType (← rest) then
    advance 1
    return rdfType
  else
    fail .expectedPrefixedName

theorem rdfWord_token :
    Token rdfWord fun seen => if startsRdfType seen then some (rdfType, 1) else none where
  found := by
    intro c result width here
    rw [rdfWord, scan_bind_of_ok (looks_rest c)]
    split at here
    · next word =>
      cases here
      rw [id, if_pos word]
      rfl
    · cases here
  missed := by
    intro c here result c' read
    rw [rdfWord, scan_bind_of_ok (looks_rest c)] at read
    split at here
    · cases here
    · next word =>
      rw [id, if_neg word] at read
      cases read

/-- The word `a` is a predicate, or not, whatever the sequel, unless it is all
that is left. -/
theorem startsRdfType_text {text : List Char} (something : text ≠ []) (other : text ≠ ['a'])
    (s : Sequel) : startsRdfType (text ++ s.text) = startsRdfType text := by
  rcases text with _ | ⟨first, _ | ⟨second, rest⟩⟩
  · exact absurd rfl something
  · have differ : first ≠ 'a' := fun same => other (by rw [same])
    simp [startsRdfType, differ]
  · by_cases word : first = 'a'
    · subst word
      rfl
    · simp [startsRdfType, word]

theorem startsRdfType_cons {text : List Char} (word : startsRdfType text = true) :
    ∃ second rest, text = 'a' :: second :: rest := by
  unfold startsRdfType at word
  split at word
  · next second rest => exact ⟨second, rest, rfl⟩
  · cases word

theorem rdfWord_continues : Continues back exact Jammed rdfWord := by
  refine .token rdfWord_token Jammed.skipText_eq ?_ ?_ ?_
  · intro seen result width jam here
    obtain ⟨first, rest, rfl, other⟩ := jam.of_first (· != 'a') (by decide)
    split at here
    · next word =>
      obtain ⟨second, more, same⟩ := startsRdfType_cons word
      cases same
      cases other
    · cases here
  · intro seen result width something here
    split at here
    · next word =>
      cases here
      obtain ⟨second, more, rfl⟩ := startsRdfType_cons word
      refine Or.inr (Or.inr ⟨by simp, fun i => ?_⟩)
      rw [startsRdfType_text something (by simp), if_pos word]
    · cases here
  · intro exactly result width here
    cases here

theorem predicate_eq (names : Names) :
    predicate names = atRdfType >>= fun word => if word then rdfWord else iri names := by
  funext c
  rw [predicate, scan_bind_of_ok (looks_rest c), scan_bind_of_ok (looks_atRdfType c), id]
  split
  · next word =>
    have there : skipText c.skip.rest = skipText c.rest := skipText_skipText c.rest
    rw [rdfWord, scan_bind_of_ok (looks_rest c.skip), id, there, if_pos word, Cursor.skip_skip]
  · rfl

theorem iri_fails (names : Names) {c : Cursor} (noBracket : (skipText c.rest).head? ≠ some '<')
    (noName : namespaceName? (skipText c.rest) = none) (result : String) (c' : Cursor) :
    iri names c ≠ .ok (result, c') := by
  intro read
  rw [iri, scan_bind_of_ok (looks_peek c), if_neg noBracket] at read
  obtain ⟨value, middle, named, -⟩ := scan_bind_ok read
  refine prefixedName_token.missed ?_ value middle named
  rw [Cursor.skip_rest, skipText_skipText, readName?, prefixedName?, noName]
  rfl

/-- A predicate continues. At the end of a text the word `a` alone is none. -/
theorem predicate_continues (names : Names) : Continues back exact Jammed (predicate names) := by
  rw [predicate_eq]
  refine .lookOr looks_atRdfType Jammed.skipText_eq ?_ (fun _ i => ?_) fun word => ?_
  · intro c result c' something read
    by_cases alone : c.rest = ['a']
    · rw [alone] at read
      refine absurd read (iri_fails names ?_ ?_ result c')
      · rw [alone]
        decide
      · rw [alone]
        decide
    · exact Or.inr fun i => startsRdfType_text something alone (back i)
  · have none : startsRdfType (back i).seen = false := by
      refine Bool.eq_false_iff.mpr fun word => ?_
      obtain ⟨second, rest, same⟩ := startsRdfType_cons word
      have other := (back i).of_mark (· != 'a') (by decide)
      rw [(List.cons.inj same).1] at other
      cases other
    rw [none]
    rfl
  · exact .ite (fun _ => rdfWord_continues) fun _ => iri_continues names

theorem numeral_continues : Continues back exact Jammed numeral := by
  refine .bind tryNumeral_continues fun found => ?_
  cases found with
  | some found => exact .pure _
  | none => exact .fail _

theorem number_continues : Continues back exact Jammed number :=
  .bind numeral_continues fun found => .lift found.value

theorem count_continues : Continues back exact Jammed count :=
  .bind numeral_continues fun found => .lift found.count

end

end Scan

end ShapeQuery.Compact
