import ShapeQuery.Proofs.Compact.SequelConstraints
import ShapeQuery.Proofs.Compact.Terms

/-!
Expressions in front of a sequel. Nested expressions end with a closing bracket. A shape may stand
right behind a node constraint, so there the brace of a cardinality is taken for that of a shape:
this is the one place where it matters what the sequel is.
-/
namespace ShapeQuery.Compact

namespace Scan

section

variable {ι : Type} {back : ι → Sequel} {exact : Bool}

/-! ### Shapes -/

/-- What the reader of a shape does not get past before its brace: it is stuck,
or at the word `a` with nothing behind it, which a blank would make a
predicate. -/
def Halted (text : List Char) : Prop :=
  Jammed text ∨ text = ['a']

theorem Halted.skipText_eq {text : List Char} (halted : Halted text) : skipText text = text := by
  rcases halted with jam | rfl
  · exact jam.skipText_eq
  · rfl

def startsExtra (text : List Char) : Bool :=
  text.head? == some '<' || (namespaceName? text).isSome || ['a', ' '].isPrefixOf text

theorem looks_atExtraPredicate : Looks atExtraPredicate startsExtra := by
  intro c
  have here : skipText c.skip.rest = skipText c.rest := skipText_skipText c.rest
  rw [atExtraPredicate, startsExtra]
  by_cases bracket : (skipText c.rest).head? = some '<'
  · have looked : atIri c = .ok (true, c.skip) := by
      rw [atIri, scan_bind_of_ok (looks_peek c), if_pos bracket]
      rfl
    rw [scan_bind_of_ok looked, bracket]
    rfl
  · have looked : atIri c = .ok ((namespaceName? (skipText c.rest)).isSome, c.skip) := by
      rw [atIri, scan_bind_of_ok (looks_peek c), if_neg bracket]
      rw [looks_atPrefixedName, here, Cursor.skip_skip]
    rw [scan_bind_of_ok looked, beq_eq_false_iff_ne.mpr bracket, Bool.false_or]
    cases (namespaceName? (skipText c.rest)).isSome with
    | true => rfl
    | false =>
      rw [if_neg Bool.false_ne_true, scan_bind_of_ok (looks_rest c.skip), here, Cursor.skip_skip]
      rfl

theorem startsExtra_text {text : List Char} (something : text ≠ []) (other : text ≠ ['a'])
    (s : Sequel) : startsExtra (text ++ s.text) = startsExtra text := by
  rw [startsExtra, startsExtra, namespaceName?_append text s.stops]
  rcases text with _ | ⟨first, _ | ⟨second, rest⟩⟩
  · exact absurd rfl something
  · have differ : first ≠ 'a' := fun same => other (by rw [same])
    simp [List.isPrefixOf, Ne.symm differ]
  · rfl

/-- At the word `a` with nothing behind it no predicate is read. -/
theorem predicate_halts (names : Names) {c : Cursor} (word : c.rest = ['a']) (result : String)
    (c' : Cursor) : predicate names c ≠ .ok (result, c') := by
  intro read
  have here : skipText c.rest = ['a'] := by rw [word]; rfl
  rw [predicate_eq, scan_bind_of_ok (looks_atRdfType c), here, if_neg (by decide)] at read
  refine iri_fails names ?_ ?_ result c' read
  · rw [Cursor.skip_rest, skipText_skipText, here]
    decide
  · rw [Cursor.skip_rest, skipText_skipText, here]
    decide

/-- An extra list continues unless it halts at its last word, which a blank
would make a predicate. -/
theorem extraPredicates_continues (names : Names) (bound : Nat) :
    Continues back false Halted (extraPredicates names bound) := by
  induction bound with
  | zero => exact .throw _
  | succ bound ih =>
    have read : Continues back false Halted (predicate names) :=
      (predicate_continues names).widen fun read word =>
        absurd read (predicate_halts names word _ _)
    refine .lookOr looks_atExtraPredicate Halted.skipText_eq ?_ nofun fun found => ?_
    · intro c result c' something read
      by_cases word : c.rest = ['a']
      · rw [word, if_neg (by decide)] at read
        cases read
        exact Or.inl (Or.inr word)
      · exact Or.inr fun i => startsExtra_text something word (back i)
    · refine .ite (fun _ => ?_) fun _ => .pure _
      exact .bind read fun first => .bind ih fun others => .pure _

theorem tryKeyword_halted {keyword : String} (miss : startsKeyword keyword ['a'] = false)
    {c c' : Cursor} {found : Bool} (read : tryKeyword keyword c = .ok (found, c'))
    (word : c.rest = ['a']) : c'.rest = ['a'] := by
  have here : skipText c.rest = ['a'] := by rw [word]; rfl
  rw [tryKeyword_miss (by rw [here, miss])] at read
  cases read
  exact here

/-- What stands before the braces of a shape continues, in any number of rounds. -/
theorem shapeHead_continues (names : Names) (bound : Nat) :
    Continues back false Halted (shapeHead names bound) := by
  induction bound with
  | zero => exact .throw _
  | succ bound ih =>
    have keyword : ∀ {word : String}, isKeyword word = true → startsKeyword word ['a'] = false →
        Continues back false Halted (tryKeyword word) := fun word miss =>
      (tryKeyword_continues word).widen fun read halted => tryKeyword_halted miss read halted
    refine .test (keyword (by decide) (by decide)) ?_
      (.test (keyword (by decide) (by decide)) ?_ (.pure _))
    · refine .bind (extraPredicates_continues names bound) fun first => ?_
      exact .bind ih fun (others, closed) => .pure _
    · exact .bind ih fun (extra, _) => .pure _

/-- What continues of the readers of nested expressions. They stand between
brackets or braces, so the end of the text does not matter for them. -/
structure Nested.Continues (back : ι → Sequel) (nested : Nested) : Prop where
  shapeExpr : Compact.Continues back false Jammed nested.shapeExpr
  tripleExpr : Compact.Continues back false Jammed nested.tripleExpr

variable {nested : Nested}

/-- A shape definition ends with its brace, so it continues whatever stands
behind it. -/
theorem shapeDefinitionWith_continues (names : Names) (inner : nested.Continues back) :
    Continues back exact Jammed (shapeDefinitionWith names nested) := by
  refine (shapeHead_continues names nested.bound).bindFirm (fun (extra, closed) => ?_) ?_ ?_ Or.inl
  · refine .bind (expect_continues (by decide)) fun _ => ?_
    refine .test (tryText_continues (by decide) fun _ => notMark (by decide)) (.pure _) ?_
    refine inner.tripleExpr.firm (fun expression => ?_) ?_
    · exact .bind (expect_continues (by decide)) fun _ => .pure _
    · intro expression c result c' ended read
      obtain ⟨value, middle, closed, -⟩ := scan_bind_ok read
      exact expect_fails (by decide) (Or.inl ended) value middle closed
  · rintro ⟨extra, closed⟩ c result c' ended read
    obtain ⟨value, middle, opened, -⟩ := scan_bind_ok read
    exact expect_fails (by decide) (Or.inl ended) value middle opened
  · rintro ⟨extra, closed⟩ c result c' read halted
    obtain ⟨value, middle, opened, -⟩ := scan_bind_ok read
    rcases halted with jam | word
    · exact absurd opened (expect_fails (by decide) (Or.inr jam) value middle)
    · refine absurd opened ((expect_token (by decide)).missed ?_ value middle)
      rw [word]
      decide

/-- A reference ends with its label, a shape with its brace, and both continue. -/
theorem shapeOrRef_continues (names : Names) (inner : nested.Continues back) :
    Continues back exact Jammed (shapeOrRef names nested) := by
  refine .test (tryText_continues (by decide) fun _ => notMark (by decide)) ?_
    (shapeDefinitionWith_continues names inner)
  exact .bind (label_continues names) fun _ => .pure _

theorem atNonLiteralKind_continues : Continues back exact Jammed atNonLiteralKind := by
  refine .test (atKeyword_continues (by decide)) (.pure _) ?_
  exact .test (atKeyword_continues (by decide)) (.pure _) (atKeyword_continues (by decide))

def opensShape (text : List Char) : Bool :=
  text.head? == some '@' || text.head? == some '{' || startsKeyword "EXTRA" text ||
    startsKeyword "CLOSED" text

theorem looks_atShapeOrRef : Looks atShapeOrRef opensShape := by
  intro c
  have here : skipText c.skip.rest = skipText c.rest := skipText_skipText c.rest
  rw [atShapeOrRef, opensShape, scan_bind_of_ok (looks_peek c)]
  by_cases opened : (skipText c.rest).head? = some '@' ∨ (skipText c.rest).head? = some '{'
  · rw [if_pos (by simpa using opened)]
    rcases opened with head | head <;> simp [head] <;> rfl
  · rw [not_or] at opened
    rw [if_neg (by simpa using opened), beq_eq_false_iff_ne.mpr opened.1,
      beq_eq_false_iff_ne.mpr opened.2]
    change (atKeyword "EXTRA" >>= _) c.skip = _
    rw [scan_bind_of_ok (looks_atKeyword _ c.skip), here, Cursor.skip_skip]
    cases startsKeyword "EXTRA" (skipText c.rest) with
    | true => rfl
    | false =>
      change atKeyword "CLOSED" c.skip = _
      rw [looks_atKeyword, here, Cursor.skip_skip]
      rfl

theorem opensShape_text {text : List Char} (something : text ≠ []) (s : Sequel) :
    opensShape (text ++ s.text) = opensShape text := by
  obtain ⟨first, rest, rfl⟩ := List.exists_cons_of_ne_nil something
  rw [opensShape, startsKeyword_append (by decide), startsKeyword_append (by decide)]
  rfl

/-- Of the sequels only those with a brace look like a shape. -/
theorem opensShape_seen (s : Sequel) : opensShape s.seen = (s.mark == '{') := by
  have reference : s.mark ≠ '@' := by simpa using s.of_mark (· != '@') (by decide)
  rw [opensShape, startsKeyword_seen (by decide), startsKeyword_seen (by decide)]
  simp [Sequel.seen, reference]

/-! ### Braces behind a node constraint -/

def EmptyBraces (s : Sequel) : Prop :=
  s.seen = ['{', '}']

def CountBraces (s : Sequel) : Prop :=
  ∃ digit rest, s.seen = '{' :: digit :: rest ∧ digit.isDigit = true

/-- What comes of reading on in braces: all of them are read if they are empty,
and a cardinality is refused. -/
def Opens {α : Type} (s : Sequel) (outcome : Except Fault (α × Cursor)) : Prop :=
  (EmptyBraces s ∧ ∃ result c, outcome = .ok (result, c) ∧ c.rest = []) ∨
    (CountBraces s ∧ ∀ result c, outcome ≠ .ok (result, c))

theorem Opens.mark {α : Type} {s : Sequel} {outcome : Except Fault (α × Cursor)}
    (opens : Opens s outcome) : s.mark = '{' := by
  rcases opens with ⟨braces, -⟩ | ⟨⟨digit, rest, seen, -⟩, -⟩
  · exact (List.cons.inj braces).1
  · exact (List.cons.inj seen).1

/-- A reader that continues, or that takes the braces of a sequel for its own.
Only the readers of shapes are of the second kind. -/
structure Faces {α : Type} (back : ι → Sequel) (exact : Bool) (scan : Scan α) : Prop where
  ends : ∀ {c result c'}, scan c = .ok (result, c') → c.rest = [] → c'.rest = []
  sticks : ∀ {c result c'}, scan c = .ok (result, c') → Jammed c.rest → Jammed c'.rest
  resumes : ∀ {c result c' ds}, scan c = .ok (result, c') → Trails back exact c ds →
    Resumes back exact Jammed (fun i => scan (ds i)) result c' ∨
      (exact = true ∧ c'.rest = [] ∧ ∀ i, Opens (back i) (scan (ds i)))

namespace Faces

variable {α β : Type} {scan : Scan α} {next : α → Scan β}

/-- A reader that continues does not take the braces of a sequel. -/
theorem of_continues (continues : Continues back exact Jammed scan) : Faces back exact scan where
  ends := continues.ends
  sticks := continues.sticks
  resumes := fun read trails => Or.inl (continues.resumes read trails)

/-- Where there is no brace, or where the end does not matter, a reader
continues. -/
theorem continues [Nonempty ι] (faces : Faces back exact scan)
    (other : exact = true → ∀ i, (back i).mark ≠ '{') : Continues back exact Jammed scan where
  ends := faces.ends
  sticks := faces.sticks
  resumes := by
    intro c result c' ds read trails
    rcases faces.resumes read trails with resumes | ⟨exactly, -, opens⟩
    · exact resumes
    · obtain ⟨i⟩ := ‹Nonempty ι›
      exact absurd (opens i).mark (other exactly i)

/-- In front of a reader that faces the sequels, one that continues. -/
theorem after (first : Continues back exact Jammed scan)
    (second : ∀ value, Faces back exact (next value)) : Faces back exact (scan >>= next) where
  ends := by
    intro c result c' read ended
    obtain ⟨value, middle, readFirst, readNext⟩ := scan_bind_ok read
    exact (second value).ends readNext (first.ends readFirst ended)
  sticks := by
    intro c result c' read jam
    obtain ⟨value, middle, readFirst, readNext⟩ := scan_bind_ok read
    exact (second value).sticks readNext (first.sticks readFirst jam)
  resumes := by
    intro c result c' ds read trails
    obtain ⟨value, middle, readFirst, readNext⟩ := scan_bind_ok read
    rcases first.resumes readFirst trails with jam | ⟨loose, ended⟩ | ⟨ms, same, trailsNext⟩
    · exact Or.inl (Or.inl ((second value).sticks readNext jam))
    · exact Or.inl (Or.inr (Or.inl ⟨loose, (second value).ends readNext ended⟩))
    · have outcome : ∀ i, (scan >>= next) (ds i) = next value (ms i) :=
        fun i => scan_bind_of_ok (same i)
      simp only [outcome]
      exact (second value).resumes readNext trailsNext

theorem ite {condition : Prop} [Decidable condition] {yes no : Scan α}
    (holds : condition → Faces back exact yes) (fails : ¬ condition → Faces back exact no) :
    Faces back exact (if condition then yes else no) := by
  split
  · next yes => exact holds yes
  · next no => exact fails no

/-- Behind a reader that takes in the braces, one that returns at the end of
the text. -/
theorem bind (first : Faces back exact scan) (second : ∀ value, Faces back exact (next value))
    (stops : ∀ {value c result c'}, next value c = .ok (result, c') → ∀ other d, d.rest = [] →
      ∃ result' d', next other d = .ok (result', d') ∧ d'.rest = []) :
    Faces back exact (scan >>= next) where
  ends := by
    intro c result c' read ended
    obtain ⟨value, middle, readFirst, readNext⟩ := scan_bind_ok read
    exact (second value).ends readNext (first.ends readFirst ended)
  sticks := by
    intro c result c' read jam
    obtain ⟨value, middle, readFirst, readNext⟩ := scan_bind_ok read
    exact (second value).sticks readNext (first.sticks readFirst jam)
  resumes := by
    intro c result c' ds read trails
    obtain ⟨value, middle, readFirst, readNext⟩ := scan_bind_ok read
    rcases first.resumes readFirst trails with (jam | ⟨loose, ended⟩ | ⟨ms, same, trailsNext⟩) |
      ⟨exactly, ended, opens⟩
    · exact Or.inl (Or.inl ((second value).sticks readNext jam))
    · exact Or.inl (Or.inr (Or.inl ⟨loose, (second value).ends readNext ended⟩))
    · have outcome : ∀ i, (scan >>= next) (ds i) = next value (ms i) :=
        fun i => scan_bind_of_ok (same i)
      simp only [outcome]
      exact (second value).resumes readNext trailsNext
    · refine Or.inr ⟨exactly, (second value).ends readNext ended, fun i => ?_⟩
      rcases opens i with ⟨braces, taken, d, readBraces, spent⟩ | ⟨count, refused⟩
      · obtain ⟨result', d', last, overNext⟩ := stops readNext taken d spent
        exact Or.inl ⟨braces, result', d', (scan_bind_of_ok readBraces).trans last, overNext⟩
      · refine Or.inr ⟨count, fun result' d' readAll => ?_⟩
        obtain ⟨value', middle', readIt, -⟩ := scan_bind_ok readAll
        exact refused value' middle' readIt

/-- A look ahead of a reader that does not return at the end of the text. -/
theorem look {view : List Char → α} (looks : Looks scan view)
    (same : ∀ text i, text ≠ [] → view (text ++ (back i).text) = view text)
    (fails : ∀ {c result c'}, c.rest = [] → next (view []) c ≠ .ok (result, c'))
    (second : ∀ value, Faces back exact (next value)) : Faces back exact (scan >>= next) where
  ends := by
    intro c result c' read ended
    rw [scan_bind_of_ok (looks c)] at read
    refine (second _).ends read ?_
    rw [Cursor.skip_rest, ended]
    rfl
  sticks := by
    intro c result c' read jam
    rw [scan_bind_of_ok (looks c)] at read
    refine (second _).sticks read ?_
    rwa [Cursor.skip_rest, jam.skipText_eq]
  resumes := by
    intro c result c' ds read trails
    rw [scan_bind_of_ok (looks c)] at read
    rcases trails.skip_cases with ⟨something, attached⟩ | ⟨nothing, -⟩
    · have outcome : ∀ i, (scan >>= next) (ds i) = next (view (skipText c.rest)) (ds i).skip := by
        intro i
        rw [scan_bind_of_ok (looks (ds i)), attached i, same _ i something]
      simp only [outcome]
      exact (second _).resumes read trails.skip
    · rw [nothing] at read
      exact absurd read (fails nothing)

theorem map (faces : Faces back exact scan) (f : α → β) :
    Faces back exact (scan >>= fun value => pure (f value)) :=
  faces.bind (fun value => .of_continues (.pure (f value))) fun _ other d ended =>
    ⟨f other, d, rfl, ended⟩

end Faces

/-- Either no sequel starts with a brace, or all of them are braces that are
empty or hold a number. -/
def Uniform (back : ι → Sequel) : Prop :=
  (∀ i, (back i).mark ≠ '{') ∨ ∀ i, EmptyBraces (back i) ∨ CountBraces (back i)

/-- Whether a character can start an item of a group. -/
def startsItem (first : Char) : Bool :=
  first.isAlpha || ['&', '$', '(', '^', '<', ':'].contains first

/-- No triple expression starts with a character that starts no item. A number
in braces is refused for this reason. -/
def RefusesOthers (scan : Scan TripleExpr) : Prop :=
  ∀ {c : Cursor} {first : Char} {rest : List Char}, skipText c.rest = first :: rest →
    startsItem first = false →
    ∀ result c', scan c ≠ .ok (result, c')

theorem letter_bounds {c : Char} (letter : c.isAlpha = true) : 65 ≤ c.toNat ∧ c.toNat ≤ 122 := by
  have either : (c.isUpper || c.isLower) = true := letter
  rcases Bool.or_eq_true_iff.mp either with upper | lower
  · have both : 'A'.val ≤ c.val ∧ c.val ≤ 'Z'.val := of_decide_eq_true upper
    have low : 65 ≤ c.toNat := both.1
    have high : c.toNat ≤ 90 := both.2
    omega
  · have both : (decide ('a'.val ≤ c.val) && decide (c.val ≤ 'z'.val)) = true := lower
    rw [Bool.and_eq_true, decide_eq_true_eq, decide_eq_true_eq] at both
    have low : 97 ≤ c.toNat := both.1
    have high : c.toNat ≤ 122 := both.2
    omega

/-- No item of a group starts with a digit, so a cardinality is not taken for one. -/
theorem startsItem_of_isDigit {c : Char} (digit : c.isDigit = true) : startsItem c = false := by
  simp only [Char.isDigit, Bool.and_eq_true, decide_eq_true_eq] at digit
  have low : 48 ≤ c.toNat := digit.1
  have high : c.toNat ≤ 57 := digit.2
  refine Bool.eq_false_iff.mpr fun starts => ?_
  simp only [startsItem, Bool.or_eq_true, List.contains_iff_mem, List.mem_cons, List.not_mem_nil,
    or_false] at starts
  rcases starts with letter | (rfl | rfl | rfl | rfl | rfl | rfl)
  · have beyond := letter_bounds letter
    omega
  all_goals revert low high; decide

def shapeBody (nested : Nested) : Scan ShapeExpr := do
  if ← tryText "\x7d" then
    return .shape none false []
  else
    let expression ← nested.tripleExpr
    expect "\x7d"
    return .shape (some expression) false []

/-- Where a shape starts with its brace, there is nothing to read before it. -/
theorem shapeOrRef_brace (names : Names) (room : 0 < nested.bound) {c : Cursor} {rest : List Char}
    (here : skipText c.rest = '{' :: rest) :
    shapeOrRef names nested c = shapeBody nested (c.skip.advance 1) ∧
      (c.skip.advance 1).rest = rest := by
  have still : skipText c.skip.rest = '{' :: rest := (skipText_skipText c.rest).trans here
  have noReference : tryText "@" c = .ok (false, c.skip) :=
    tryText_miss (by decide) (by rw [here]; rfl)
  have noKeyword : ∀ {word : String}, isKeyword word = true →
      tryKeyword word c.skip = .ok (false, c.skip) := by
    intro word keyword
    have missed : tryKeyword word c.skip = .ok (false, c.skip.skip) :=
      tryKeyword_miss (by rw [still, startsKeyword_neutral keyword (by decide)])
    rwa [Cursor.skip_skip] at missed
  have noHead : shapeHead names nested.bound c.skip = .ok (([], false), c.skip) := by
    obtain ⟨bound, more⟩ := Nat.exists_eq_add_of_lt room
    rw [more, Nat.zero_add, shapeHead_succ, headRound, scan_bind_of_ok (noKeyword (by decide)),
      if_neg Bool.false_ne_true, scan_bind_of_ok (noKeyword (by decide))]
    rfl
  have opened : expect "\x7b" c.skip = .ok ((), c.skip.skip.advance 1) :=
    expect_start (by decide) (by rw [still]; rfl)
  rw [Cursor.skip_skip] at opened
  refine ⟨?_, ?_⟩
  · rw [shapeOrRef, scan_bind_of_ok noReference, if_neg Bool.false_ne_true, shapeDefinitionWith,
      scan_bind_of_ok noHead]
    exact scan_bind_of_ok opened
  · rw [Cursor.advance_rest, Cursor.skip_rest, here]
    rfl

/-- What is neither a closing brace nor the start of an item does not follow an
opening brace. -/
theorem shapeBody_fails (refuses : RefusesOthers nested.tripleExpr) {c : Cursor} {first : Char}
    {rest : List Char} (here : skipText c.rest = first :: rest) (other : first ≠ '}')
    (noItem : startsItem first = false) (result : ShapeExpr) (c' : Cursor) :
    shapeBody nested c ≠ .ok (result, c') := by
  intro read
  have unclosed : tryText "\x7d" c = .ok (false, c.skip) := by
    refine tryText_miss (by decide) ?_
    rw [here]
    simp [List.isPrefixOf, Ne.symm other]
  rw [shapeBody, scan_bind_of_ok unclosed, if_neg Bool.false_ne_true] at read
  obtain ⟨expression, middle, readInside, -⟩ := scan_bind_ok read
  exact refuses ((skipText_skipText c.rest).trans here) noItem expression middle readInside

/-- Where a shape is looked for, empty braces are read as one, and a number in
braces is refused. -/
theorem opens_shapeOrRef (names : Names) (room : 0 < nested.bound)
    (refuses : RefusesOthers nested.tripleExpr) {s : Sequel}
    (braces : EmptyBraces s ∨ CountBraces s) {c : Cursor} (here : skipText c.rest = s.seen) :
    Opens s (shapeOrRef names nested c) := by
  rcases braces with braces | ⟨digit, rest, seen, isDigit⟩
  · obtain ⟨same, inside⟩ := shapeOrRef_brace names room (here.trans braces)
    have closed : tryText "\x7d" (c.skip.advance 1) =
        .ok (true, (c.skip.advance 1).skip.advance 1) :=
      tryText_start (by decide) (by rw [inside]; rfl)
    refine Or.inl ⟨braces, .shape none false [], (c.skip.advance 1).skip.advance 1, ?_, ?_⟩
    · rw [same, shapeBody, scan_bind_of_ok closed]
      rfl
    · rw [Cursor.advance_rest, Cursor.skip_rest, inside]
      rfl
  · obtain ⟨same, inside⟩ := shapeOrRef_brace names room (here.trans seen)
    have there : skipText (c.skip.advance 1).rest = digit :: rest := by
      rw [inside, skipText_solid (solid_of_isDigit isDigit)]
    refine Or.inr ⟨⟨digit, rest, seen, isDigit⟩, ?_⟩
    rw [same]
    exact shapeBody_fails refuses there (by rintro rfl; cases isDigit)
      (startsItem_of_isDigit isDigit)

def withShape (names : Names) (nested : Nested) (nc : NodeConstraint) (found : Bool) :
    Scan ShapeExpr :=
  do
  if found then
    return .and [.node nc, ← shapeOrRef names nested]
  else
    return .node nc

def afterNode (names : Names) (nested : Nested) (nc : NodeConstraint) : Scan ShapeExpr :=
  if nc.nodeKind != some .literal then atShapeOrRef >>= withShape names nested nc
    else pure (.node nc)

theorem Opens.map {α β : Type} {s : Sequel} {scan : Scan α} {c : Cursor} (opens : Opens s (scan c))
    (f : α → β) :
    Opens s ((scan >>= fun value => pure (f value)) c) := by
  rcases opens with ⟨braces, result, d, read, spent⟩ | ⟨count, refused⟩
  · exact Or.inl ⟨braces, f result, d, scan_bind_of_ok read, spent⟩
  · refine Or.inr ⟨count, fun result d read => ?_⟩
    obtain ⟨value, middle, readIt, -⟩ := scan_bind_ok read
    exact refused value middle readIt

/-- What is known of the readers of nested expressions. -/
structure Nested.Faces (back : ι → Sequel) (nested : Nested) :
    Prop extends nested.Continues back where
  room : 0 < nested.bound
  refuses : RefusesOthers nested.tripleExpr

/-- A shape behind a node constraint is found where the text goes on, or in the
braces of a sequel. -/
theorem afterNode_faces (names : Names) (inner : nested.Faces back)
    (uniform : exact = true → Uniform back) (nc : NodeConstraint) :
    Faces back exact (afterNode names nested nc) := by
  refine .ite (fun _ => ?_) fun _ => .of_continues (.pure _)
  have either : ∀ found : Bool, Continues back exact Jammed (withShape names nested nc found) :=
    fun found =>
    .ite (fun _ => .bind (shapeOrRef_continues names inner.toContinues) fun _ => .pure _) fun _ =>
      .pure _
  refine ⟨?_, ?_, ?_⟩
  · intro c result c' read ended
    rw [scan_bind_of_ok (looks_atShapeOrRef c)] at read
    refine (either _).ends read ?_
    rw [Cursor.skip_rest, ended]
    rfl
  · intro c result c' read jam
    rw [scan_bind_of_ok (looks_atShapeOrRef c)] at read
    refine (either _).sticks read ?_
    rwa [Cursor.skip_rest, jam.skipText_eq]
  · intro c result c' ds read trails
    rw [scan_bind_of_ok (looks_atShapeOrRef c)] at read
    have outcome : ∀ i, (atShapeOrRef >>= withShape names nested nc) (ds i) =
        withShape names nested nc (opensShape (skipText (ds i).rest)) (ds i).skip :=
      fun i => scan_bind_of_ok (looks_atShapeOrRef (ds i))
    simp only [outcome]
    rcases trails.skip_cases with ⟨something, attached⟩ | ⟨nothing, there⟩
    · simp only [attached, opensShape_text something]
      exact Or.inl ((either _).resumes read trails.skip)
    · rw [nothing] at read
      -- All sequels are looked at alike, and the braces of a sequel are taken for those of a shape.
      have alike : (exact = true ∧ ∀ i, Opens (back i)
          (withShape names nested nc (opensShape (skipText (ds i).rest)) (ds i).skip)) ∨
          (exact = true → ∀ i, opensShape (skipText (ds i).rest) = opensShape []) := by
        cases exact with
        | false => exact Or.inr nofun
        | true =>
          rcases there rfl with seen | spent
          · rcases uniform rfl with other | braces
            · refine Or.inr fun _ i => ?_
              rw [seen i, opensShape_seen, beq_eq_false_iff_ne.mpr (other i)]
              decide
            · refine Or.inl ⟨rfl, fun i => ?_⟩
              have still : skipText (ds i).skip.rest = (back i).seen :=
                (skipText_skipText (ds i).rest).trans (seen i)
              have opens := opens_shapeOrRef names inner.room inner.refuses (braces i) still
              rw [seen i, opensShape_seen, opens.mark]
              exact opens.map _
          · refine Or.inr fun _ i => ?_
            rw [spent i]
      rcases alike with ⟨exactly, opens⟩ | alike
      · exact Or.inr ⟨exactly, (either _).ends read nothing, opens⟩
      · cases exact with
        | false => exact Or.inl (Or.inr (Or.inl ⟨rfl, (either _).ends read nothing⟩))
        | true =>
          simp only [alike rfl]
          exact Or.inl ((either _).resumes read trails.skip)

def bracketAtom (nested : Nested) : Scan ShapeExpr := do
  expect "("
  let expr ← nested.shapeExpr
  expect ")"
  return expr

def shapeFirstAtom (names : Names) (nested : Nested) : Scan ShapeExpr := do
  let shape ← shapeOrRef names nested
  if ← atNonLiteralKind then
    match ← nodeConstraint? names nested.bound with
    | some nc => return .and [shape, .node nc]
    | none => return .and [shape, .any]
  else
    return shape

def nodeFirstAtom (names : Names) (nested : Nested) : Scan ShapeExpr := do
  match ← nodeConstraint? names nested.bound with
  | none => fail .expectedShapeExpr
  | some nc => afterNode names nested nc

/-- Reads an operand of which the first character has been seen. -/
def atomFrom (names : Names) (nested : Nested) (next : Option Char) : Scan ShapeExpr :=
  if next = some '(' then bracketAtom nested
  else if next = some '.' then expect "." >>= fun _ => pure .any
  else atShapeOrRef >>= fun found =>
    if found then shapeFirstAtom names nested else nodeFirstAtom names nested

theorem shapeAtom_eq (names : Names) (nested : Nested) :
    shapeAtom names nested = peek >>= atomFrom names nested := by
  funext c
  rw [shapeAtom, scan_bind_of_ok (looks_peek c), scan_bind_of_ok (looks_peek c), atomFrom]
  split
  · next head => exact advance_eq_expect rfl head _
  · split
    · next head => exact advance_eq_expect rfl head _
    · rfl

theorem nodeConstraint?_ended (names : Names) {bound : Nat} (room : 0 < bound) {c c' : Cursor}
    (ended : c.rest = []) {nc : NodeConstraint} :
    nodeConstraint? names bound c ≠ .ok (some nc, c') := by
  intro read
  have advances := (nodeConstraint?_paced names room room c (by simp [ended])).2
  rw [read] at advances
  have less := advances.2.2
  rw [ended] at less
  simp at less

theorem nodeFirstAtom_fails (names : Names) (room : 0 < nested.bound) {c : Cursor}
    (ended : c.rest = []) (result : ShapeExpr) (c' : Cursor) :
    nodeFirstAtom names nested c ≠ .ok (result, c') := by
  intro read
  obtain ⟨found, middle, looked, readNext⟩ := scan_bind_ok read
  cases found with
  | none => cases readNext
  | some nc => exact nodeConstraint?_ended names room ended looked

theorem atomFrom_fails (names : Names) (room : 0 < nested.bound) {c : Cursor} (ended : c.rest = [])
    (result : ShapeExpr) (c' : Cursor) : atomFrom names nested none c ≠ .ok (result, c') := by
  intro read
  have none : skipText c.rest = [] := by rw [ended]; rfl
  rw [atomFrom, if_neg nofun, if_neg nofun, scan_bind_of_ok (looks_atShapeOrRef c), none,
    if_neg (by decide)] at read
  exact nodeFirstAtom_fails names room none result c' read

theorem bracketAtom_continues (inner : nested.Continues back) :
    Continues back exact Jammed (bracketAtom nested) := by
  refine .bind (expect_continues (by decide)) fun _ => inner.shapeExpr.firm (fun expr => ?_) ?_
  · exact .bind (expect_continues (by decide)) fun _ => .pure _
  · intro expr c result c' ended read
    obtain ⟨value, middle, closed, -⟩ := scan_bind_ok read
    exact expect_fails (by decide) (Or.inl ended) value middle closed

/-- Behind a shape or a reference a node constraint may follow, and no sequel
starts one. -/
theorem shapeFirstAtom_continues (names : Names) (inner : nested.Continues back) :
    Continues back exact Jammed (shapeFirstAtom names nested) := by
  refine .bind (shapeOrRef_continues names inner) fun shape => ?_
  refine .test atNonLiteralKind_continues ?_ (.pure _)
  refine .bind (nodeConstraint?_continues names nested.bound) fun found => ?_
  cases found with
  | some nc => exact .pure _
  | none => exact .pure _

/-- An operand faces the sequels: behind a node constraint braces are taken for
a shape, and in all other cases it continues. -/
theorem shapeAtom_faces (names : Names) (inner : nested.Faces back)
    (uniform : exact = true → Uniform back) : Faces back exact (shapeAtom names nested) := by
  rw [shapeAtom_eq]
  refine .look looks_peek ?_ (fun ended => atomFrom_fails names inner.room ended _ _) fun next => ?_
  · intro text i something
    obtain ⟨first, rest, rfl⟩ := List.exists_cons_of_ne_nil something
    rfl
  · refine .ite (fun _ => .of_continues (bracketAtom_continues inner.toContinues)) fun _ => ?_
    refine .ite (fun _ => .of_continues (.bind expect_point_continues fun _ => .pure _)) fun _ => ?_
    refine .look looks_atShapeOrRef (fun text i something => opensShape_text something (back i)) ?_
      fun found => ?_
    · exact fun ended => nodeFirstAtom_fails names inner.room ended _ _
    · refine .ite (fun _ => .of_continues (shapeFirstAtom_continues names inner.toContinues))
        fun _ => ?_
      refine .after (nodeConstraint?_continues names nested.bound) fun found => ?_
      cases found with
      | none => exact .of_continues (.fail _)
      | some nc => exact afterNode_faces names inner uniform nc

theorem shapeNot_faces (names : Names) (inner : nested.Faces back)
    (uniform : exact = true → Uniform back) : Faces back exact (shapeNot names nested) := by
  refine .after (tryKeyword_continues (by decide)) fun negated => ?_
  have atom := shapeAtom_faces names inner uniform
  exact .ite (fun _ => atom.map ShapeExpr.not) fun _ => atom

/-! ### Operands -/

def Silent (separator : Scan Bool) : Prop :=
  ∀ c : Cursor, c.rest = [] → ∃ c', separator c = .ok (false, c') ∧ c'.rest = []

theorem tryKeyword_silent {keyword : String} (nonempty : keyword.toList ≠ []) :
    Silent (tryKeyword keyword) := by
  intro c ended
  have none : skipText c.rest = [] := by rw [ended]; rfl
  exact ⟨c.skip, tryKeyword_miss (by rw [none, startsKeyword_nil nonempty]), none⟩

section

variable {α : Type} {separator : Scan Bool} {operand : Scan α}

/-- At the end of a text there are no further operands. -/
theorem operandsAfter_stops (silent : Silent separator) {bound : Nat} {c c' : Cursor}
    {results : List α} (read : operandsAfter separator operand bound c = .ok (results, c'))
    {d : Cursor} (ended : d.rest = []) :
    ∃ d', operandsAfter separator operand bound d = .ok ([], d') ∧ d'.rest = [] := by
  cases bound with
  | zero => cases read
  | succ bound =>
    obtain ⟨d', quiet, spent⟩ := silent d ended
    refine ⟨d', ?_, spent⟩
    rw [operandsAfter_succ, operandsRound, scan_bind_of_ok quiet]
    rfl

/-- Operands face the sequels if each of them does and the separator is not
found at the end. Induction on the bound. -/
theorem operandsAfter_faces (next : Continues back exact Jammed separator)
    (silent : Silent separator) (read : Faces back exact operand) (bound : Nat) :
    Faces back exact (operandsAfter separator operand bound) := by
  induction bound with
  | zero => exact .of_continues (.throw _)
  | succ bound ih =>
    refine .after next fun found => .ite (fun _ => ?_) fun _ => .of_continues (.pure _)
    refine read.bind (fun first => ih.map _) ?_
    intro first c results c' readOthers other d ended
    obtain ⟨others, middle, readSome, -⟩ := scan_bind_ok readOthers
    obtain ⟨d', stopped, spent⟩ := operandsAfter_stops silent readSome ended
    exact ⟨[other], d', scan_bind_of_ok stopped, spent⟩

theorem combined_faces {make : List α → α} (next : Continues back exact Jammed separator)
    (silent : Silent separator) (read : Faces back exact operand) (bound : Nat) :
    Faces back exact (operand >>= fun first => operandsAfter separator operand bound >>=
      fun others =>
      pure (combine make first others)) := by
  refine read.bind (fun first => (operandsAfter_faces next silent read bound).map _) ?_
  intro first c result c' readOthers other d ended
  obtain ⟨others, middle, readSome, -⟩ := scan_bind_ok readOthers
  obtain ⟨d', stopped, spent⟩ := operandsAfter_stops silent readSome ended
  exact ⟨_, d', scan_bind_of_ok stopped, spent⟩

end

/-- Whole shape expressions face the sequels, through conjunctions and
disjunctions. -/
theorem shapeExprWith_faces (names : Names) (inner : nested.Faces back)
    (uniform : exact = true → Uniform back) : Faces back exact (shapeExprWith names nested) := by
  have negated := shapeNot_faces names inner uniform
  have conjunction : Faces back exact (shapeAnd names nested) :=
    combined_faces (tryKeyword_continues (by decide)) (tryKeyword_silent (by decide))
      negated nested.bound
  exact combined_faces (tryKeyword_continues (by decide))
    (tryKeyword_silent (by decide)) conjunction
    nested.bound

/-! ### Triple expressions -/

/-- Whether a cardinality in braces comes next is told by the text alone, if
there is anything left of it. -/
theorem startsCardinality_text {text : List Char} (something : text ≠ []) (s : Sequel) :
    startsCardinality (text ++ s.text) = startsCardinality text := by
  obtain ⟨first, rest, rfl⟩ := List.exists_cons_of_ne_nil something
  by_cases brace : first = '{'
  · subst brace
    rw [List.cons_append, startsCardinality, startsCardinality]
    rcases trimStart_text rest s with ⟨some, same⟩ | ⟨none, same⟩
    · obtain ⟨c, more, head⟩ := List.exists_cons_of_ne_nil some
      rw [same, head]
      rfl
    · have digit : (!Text.isDecimalDigit s.mark) = true :=
        s.of_mark (!Text.isDecimalDigit ·) (by decide)
      rw [same, none]
      simpa [Sequel.seen] using digit
  · simp [startsCardinality, brace]

def Closing (back : ι → Sequel) : Prop :=
  ∀ i, (back i).mark = ')'

theorem Closing.head_ne {back : ι → Sequel} (closing : Closing back) {text : String}
    (other : text.toList.head? ≠ some ')') (i : ι) : text.toList.head? ≠ some (back i).mark := by
  rwa [closing i]

theorem Closing.seen {back : ι → Sequel} (closing : Closing back) (i : ι) :
    startsCardinality (back i).seen = startsCardinality [] := by
  rw [Sequel.seen, closing i]
  rfl

theorem braceBounds_continues (closing : exact = true → Closing back) :
    Continues back exact Jammed braceBounds := by
  have token : ∀ {text : String}, isToken text = true → text.toList.head? ≠ some ')' →
      Continues back exact Jammed (tryText text) := fun token other =>
    tryText_continues token fun exactly => (closing exactly).head_ne other
  have brace : ∀ {min : Int} {max : Json}, Continues back exact Jammed (do
      expect "\x7d"
      return { min := .int min, max } : Scan Bounds) :=
    .bind (expect_continues (by decide)) fun _ => .pure _
  refine .bind (expect_continues (by decide)) fun _ => .bind count_continues fun min => ?_
  refine .test (token (by decide) (by decide)) ?_ (.bind (.pure _) fun _ => brace)
  refine .test (token (by decide) (by decide)) (.bind (.pure _) fun _ => brace) ?_
  refine peek_test_continues (by decide) (.bind (.pure _) fun _ => brace) ?_
  exact .bind count_continues fun max => .bind (.pure _) fun _ => brace

def cardinalityHere? : Scan (Option Bounds) := do
  if ← tryText "?" then
    return some { min := .int 0, max := .int 1 }
  else if ← tryText "*" then
    return some { min := .int 0, max := unbounded }
  else if ← tryText "+" then
    return some { min := .int 1, max := unbounded }
  else if startsCardinality (← rest) then
    return some (← braceBounds)
  else
    return none

theorem cardinality?_eq : cardinality? = cardinalityHere? := by
  funext c
  rw [cardinality?, scan_bind_of_ok (looks_atEnd c)]
  by_cases ended : skipText c.rest = []
  · have miss : ∀ {text : String} {d : Cursor}, text.toList ≠ [] → skipText d.rest = [] →
        tryText text d = .ok (false, d.skip) := by
      intro text d nonempty none
      obtain ⟨first, rest, same⟩ := List.exists_cons_of_ne_nil nonempty
      exact tryText_miss nonempty (by rw [none, same]; rfl)
    have still : skipText c.skip.rest = [] := (skipText_skipText c.rest).trans ended
    rw [ended, cardinalityHere?, scan_bind_of_ok (miss (by decide) ended),
      if_neg Bool.false_ne_true, scan_bind_of_ok (miss (by decide) still), Cursor.skip_skip,
      if_neg Bool.false_ne_true, scan_bind_of_ok (miss (by decide) still), Cursor.skip_skip,
      if_neg Bool.false_ne_true, scan_bind_of_ok (looks_rest c.skip), still, Cursor.skip_skip]
    rfl
  · have more : (skipText c.rest).isEmpty = false := by simpa using ended
    rw [more]
    exact (tryText_skipsFirst "?").bind _ c

/-- A cardinality is found or not whatever the sequel, if all sequels are
closing brackets. -/
theorem cardinality?_continues (closing : exact = true → Closing back) :
    Continues back exact Jammed cardinality? := by
  have token : ∀ {text : String}, isToken text = true → text.toList.head? ≠ some ')' →
      Continues back exact Jammed (tryText text) := fun token other =>
    tryText_continues token fun exactly => (closing exactly).head_ne other
  rw [cardinality?_eq]
  refine .test (token (by decide) (by decide)) (.pure _) ?_
  refine .test (token (by decide) (by decide)) (.pure _) ?_
  refine .test (token (by decide) (by decide)) (.pure _) ?_
  refine rest_test_continues (fun text i something => startsCardinality_text something (back i))
    (fun exactly => (closing exactly).seen) ?_ (.pure _)
  exact .bind (braceBounds_continues closing) fun _ => .pure _

/-- Reads the value of a triple constraint of which the first character has
been seen. -/
def valueFrom (nested : Nested) (next : Option Char) : Scan ShapeExpr := do
  if next = some '.' then
    expect "."
    return .any
  else if endsConstraint next then
    return .any
  else if startsCardinality (← rest) then
    return .any
  else
    nested.shapeExpr

theorem constraintValue_eq (nested : Nested) :
    constraintValue nested = peek >>= valueFrom nested := by
  funext c
  rw [constraintValue, scan_bind_of_ok (looks_peek c), scan_bind_of_ok (looks_peek c), valueFrom]
  split
  · next head => exact advance_eq_expect rfl head _
  · rfl

/-- The value of a triple constraint, if the reader of shapes continues. -/
theorem constraintValue_continues (closing : exact = true → Closing back)
    (shape : Continues back exact Jammed nested.shapeExpr) :
    Continues back exact Jammed (constraintValue nested) := by
  rw [constraintValue_eq]
  refine peek_bind_continues (fun exactly i => ?_) fun next => ?_
  · rw [closing exactly i]
    rfl
  · refine .ite (fun _ => .bind expect_point_continues fun _ => .pure _) fun _ => ?_
    refine .ite (fun _ => .pure _) fun _ => ?_
    exact rest_test_continues (fun text i something => startsCardinality_text something (back i))
      (fun exactly => (closing exactly).seen) (.pure _) shape

/-- A triple constraint in front of a closing bracket: predicate, value and
cardinality continue one after the other. -/
theorem tripleConstraintWith_continues (names : Names) (closing : exact = true → Closing back)
    (shape : Continues back exact Jammed nested.shapeExpr) (id : Json) :
    Continues back exact Jammed (tripleConstraintWith names nested id) := by
  refine .bind (tryText_continues (by decide) fun _ => notMark (by decide)) fun inverse => ?_
  refine .bind (predicate_continues names) fun predicate => ?_
  refine .bind (constraintValue_continues closing shape) fun value => ?_
  exact .bind (cardinality?_continues closing) fun bounds => .pure _

theorem tripleLabel?_continues (names : Names) : Continues back exact Jammed (tripleLabel? names) :=
  .test (tryText_continues (by decide) fun _ => notMark (by decide))
    (.bind (label_continues names) fun _ => .pure _) (.pure _)

/-- An item of a group in front of a closing bracket. -/
theorem tripleItem_continues (names : Names) (closing : exact = true → Closing back)
    (inner : nested.Continues back) (shape : Continues back exact Jammed nested.shapeExpr) :
    Continues back exact Jammed (tripleItem names nested) := by
  refine .test (tryText_continues (by decide) fun _ => notMark (by decide)) ?_ ?_
  · exact .bind (label_continues names) fun _ => .pure _
  · refine .bind (tripleLabel?_continues names) fun id => ?_
    refine .test (tryText_continues (by decide) fun _ => notMark (by decide)) ?_
      (tripleConstraintWith_continues names closing shape id)
    refine inner.tripleExpr.firm (fun expr => .bind (expect_continues (by decide)) fun _ => ?_) ?_
    · exact .bind (cardinality?_continues closing) fun bounds => .pure _
    · intro expr c result c' ended read
      obtain ⟨value, middle, closed, -⟩ := scan_bind_ok read
      exact expect_fails (by decide) (Or.inl ended) value middle closed

theorem itemSeparator_continues (closing : exact = true → Closing back) :
    Continues back exact Jammed itemSeparator := by
  refine .test (tryText_continues (by decide) fun _ => notMark (by decide)) ?_ (.pure _)
  refine peek_bind_continues (fun exactly i => ?_) fun next => ?_
  · rw [closing exactly i]
    rfl
  · cases next with
    | none => exact .pure _
    | some c => exact .pure _

/-- Whole triple expressions in front of a closing bracket, through groups and
alternatives. -/
theorem tripleExprWith_continues (names : Names) (closing : exact = true → Closing back)
    (inner : nested.Continues back) (shape : Continues back exact Jammed nested.shapeExpr) :
    Continues back exact Jammed (tripleExprWith names nested) := by
  have item := tripleItem_continues names closing inner shape
  have group : Continues back exact Jammed (tripleGroup names nested) := by
    refine .bind item fun first => ?_
    refine .bind (operandsAfter_continues (itemSeparator_continues closing) item nested.bound)
      fun others => ?_
    exact .pure _
  refine .bind group fun first => ?_
  refine .bind (operandsAfter_continues ?_ group nested.bound) fun others => .pure _
  exact tryText_continues (by decide) fun _ => notMark (by decide)

theorem tripleItem_fails (names : Names) (nested : Nested) {c : Cursor} {first : Char}
    {rest : List Char} (here : skipText c.rest = first :: rest)
    (noItem : startsItem first = false) (result : TripleExpr) (c' : Cursor) :
    tripleItem names nested c ≠ .ok (result, c') := by
  intro read
  rw [startsItem, Bool.or_eq_false_iff] at noItem
  obtain ⟨noLetter, other⟩ := noItem
  simp only [List.contains_eq_mem, List.mem_cons, List.not_mem_nil, or_false,
    decide_eq_false_iff_not, not_or] at other
  obtain ⟨noReference, noLabel, noBracket, noInverse, noIri, noColon⟩ := other
  have still : skipText c.skip.rest = first :: rest := (skipText_skipText c.rest).trans here
  have miss : ∀ {text : String} {k : Char} {d : Cursor}, text.toList = [k] → first ≠ k →
      skipText d.rest = first :: rest → tryText text d = .ok (false, d.skip) := by
    intro text k d single differ there
    refine tryText_miss (by simp [single]) ?_
    rw [there, single]
    simp [List.isPrefixOf, Ne.symm differ]
  have unlabelled : tripleLabel? names c.skip = .ok (.null, c.skip) := by
    rw [tripleLabel?, scan_bind_of_ok (miss rfl noLabel still), Cursor.skip_skip]
    rfl
  rw [tripleItem, scan_bind_of_ok (miss rfl noReference here), if_neg Bool.false_ne_true,
    scan_bind_of_ok unlabelled, scan_bind_of_ok (miss rfl noBracket still),
    if_neg Bool.false_ne_true, Cursor.skip_skip, tripleConstraintWith,
    scan_bind_of_ok (miss rfl noInverse still), Cursor.skip_skip] at read
  obtain ⟨predicate, middle, readPredicate, -⟩ := scan_bind_ok read
  have noWord : startsRdfType (first :: rest) = false := by
    refine Bool.eq_false_iff.mpr fun word => ?_
    obtain ⟨second, more, same⟩ := startsRdfType_cons word
    cases same
    cases noLetter
  rw [predicate_eq, scan_bind_of_ok (looks_atRdfType c.skip), still, noWord,
    if_neg Bool.false_ne_true, Cursor.skip_skip] at readPredicate
  refine iri_fails names ?_ ?_ predicate middle readPredicate
  · rw [still]
    simpa using noIri
  · simp [still, namespaceName?, noLetter, noColon]

theorem tripleExprWith_refusesOthers (names : Names) (nested : Nested) :
    RefusesOthers (tripleExprWith names nested) := by
  intro c first rest here noItem result c' read
  obtain ⟨group, middle, readGroup, -⟩ := scan_bind_ok read
  obtain ⟨item, last, readItem, -⟩ := scan_bind_ok readGroup
  exact tripleItem_fails names nested here noItem item last readItem

/-! ### Nested expressions -/

/-- Without room for its loops the reader never returns. -/
theorem shapeExpr_narrow (names : Names) (c : Cursor) (result : ShapeExpr) (c' : Cursor) :
    shapeExpr names 1 c ≠ .ok (result, c') := by
  intro read
  obtain ⟨conjunction, middle, readFirst, -⟩ := scan_bind_ok read
  obtain ⟨operand, last, -, readOthers⟩ := scan_bind_ok readFirst
  obtain ⟨others, final, readSome, -⟩ := scan_bind_ok readOthers
  cases readSome

/-- Expressions in front of sequels: what holds of the nested ones holds of the
whole. -/
theorem nested_faces (names : Names) [Nonempty ι] (uniform : Uniform back) (bound : Nat) :
    (∀ exact, Faces back exact (shapeExpr names bound)) ∧
      Continues back false Jammed (tripleExpr names bound) ∧
        RefusesOthers (tripleExpr names bound) := by
  induction bound with
  | zero => exact ⟨fun exact => .of_continues (.throw _), .throw _, fun _ _ _ _ => nofun⟩
  | succ bound ih =>
    obtain ⟨shape, triple, refuses⟩ := ih
    have loose := (shape false).continues nofun
    have inner : (nested names bound).Continues back := ⟨loose, triple⟩
    refine ⟨fun exact => ?_, tripleExprWith_continues names nofun inner loose,
      tripleExprWith_refusesOthers names _⟩
    cases bound with
    | zero => exact .of_continues (.never (shapeExpr_narrow names))
    | succ bound =>
      exact shapeExprWith_faces names ⟨inner, Nat.succ_pos _, refuses⟩ fun _ => uniform

end

end Scan

end ShapeQuery.Compact
