import ShapeQuery.Proofs.Compact.SequelTokens

/-!
Looking ahead. A look moves the cursor over blanks and comments, and still no reader can
tell whether there was one before it: every reader begins by skipping, and what has been
skipped is not skipped again. So in any session of calls looks can be put in, and taken out,
at every place; the other calls give the same results, are refused with the same faults and
leave the cursor at the same positions.

A session goes on behind a call that is refused. Where such a call leaves the cursor is told by its
fault, so an outcome holds the cursor together with a proof that it is the place of the fault.
-/
namespace ShapeQuery.Compact

/-! ### What is skipped -/

/-- Blanks and comments, and the text that they stand in front of. A comment
ends with its line or at the first `*/`; where that is missing it takes in all
of the text. -/
inductive Filler : List Char → List Char → Prop where
  | none {following : List Char} : Filler [] following
  | blank {c : Char} {passed following : List Char} :
      isBlank c = true → Filler passed following → Filler (c :: passed) following
  | line {body passed following : List Char} :
      '\n' ∉ body → Filler passed following → Filler ('#' :: (body ++ '\n' :: passed)) following
  | openLine {body : List Char} : '\n' ∉ body → Filler ('#' :: body) []
  | block {body passed following : List Char} : ¬ ['*', '/'] <:+: body → Filler passed following →
      Filler ('/' :: '*' :: (body ++ '*' :: '/' :: passed)) following
  | openBlock {body : List Char} : ¬ ['*', '/'] <:+: body → Filler ('/' :: '*' :: body) []

/-- A text that starts with a blank or a comment. Nothing that a reader stops
at is of this kind. -/
inductive StartsFiller : List Char → Prop where
  | blank {c : Char} {more : List Char} : isBlank c = true → StartsFiller (c :: more)
  | line {more : List Char} : StartsFiller ('#' :: more)
  | block {more : List Char} : StartsFiller ('/' :: '*' :: more)

theorem StartsFiller.blankLength_pos {text : List Char} (starts : StartsFiller text) :
    0 < blankLength .blanks text := by
  cases starts with
  | blank isBlank =>
    rw [blankLength, if_pos isBlank]
    · exact Nat.succ_pos _
    · rintro rfl
      cases isBlank
    · rintro more rfl
      cases isBlank
  | line => exact Nat.succ_pos _
  | block => exact Nat.succ_pos _

/-- Skipping stops at something else than a blank or a comment. -/
theorem not_startsFiller_skipText (text : List Char) : ¬ StartsFiller (skipText text) := by
  intro starts
  have none : blankLength .blanks (skipText text) = 0 := blankLength_drop .blanks text
  exact Nat.ne_of_gt starts.blankLength_pos none

theorem Filler.cons_line {c : Char} {passed following : List Char} (other : c ≠ '\n')
    (filler : Filler ('#' :: passed) following) : Filler ('#' :: c :: passed) following := by
  generalize same : '#' :: passed = comment at filler
  cases filler with
  | none => cases same
  | blank isBlank _ =>
    obtain ⟨rfl, -⟩ := List.cons.inj same
    cases isBlank
  | line inside behind =>
    obtain ⟨-, rfl⟩ := List.cons.inj same
    exact .line (List.not_mem_cons_of_ne_of_not_mem other.symm inside) behind
  | openLine inside =>
    obtain ⟨-, rfl⟩ := List.cons.inj same
    exact .openLine (List.not_mem_cons_of_ne_of_not_mem other.symm inside)
  | block _ _ => simp at same
  | openBlock _ => simp at same

/-- A character in front of a comment closes it only together with the one
behind it. -/
theorem not_closed_cons {c : Char} {body : List Char} (apart : c = '*' → body.head? ≠ some '/')
    (inside : ¬ ['*', '/'] <:+: body) : ¬ ['*', '/'] <:+: c :: body := by
  rw [List.infix_cons_iff, not_or]
  refine ⟨?_, inside⟩
  rintro ⟨more, same⟩
  obtain ⟨rfl, rfl⟩ := List.cons.inj same
  exact apart rfl rfl

/-- A block comment with one more character in front, which does not close it. -/
theorem Filler.cons_block {c : Char} {passed following : List Char}
    (apart : c = '*' → passed.head? ≠ some '/') (filler : Filler ('/' :: '*' :: passed) following) :
    Filler ('/' :: '*' :: c :: passed) following := by
  generalize same : '/' :: '*' :: passed = comment at filler
  cases filler with
  | none => cases same
  | blank isBlank _ =>
    obtain ⟨rfl, -⟩ := List.cons.inj same
    cases isBlank
  | line _ _ => simp at same
  | openLine _ => simp at same
  | @block body _ _ inside behind =>
    simp only [List.cons.injEq, true_and] at same
    subst same
    refine .block (not_closed_cons (fun star => ?_) inside) behind
    cases body with
    | nil => exact nofun
    | cons first rest => exact apart star
  | openBlock inside =>
    simp only [List.cons.injEq, true_and] at same
    subst same
    exact .openBlock (not_closed_cons apart inside)

def Skipping.opening : Skipping → List Char
  | .blanks => []
  | .lineComment => ['#']
  | .blockComment => ['/', '*']

/-- Nothing but blanks and comments is skipped. -/
theorem filler_blankLength (mode : Skipping) (text : List Char) :
    Filler (mode.opening ++ text.take (blankLength mode text))
      (text.drop (blankLength mode text)) := by
  -- A comment is filler as a whole only, so the characters that have opened it stay in
  -- front of the rest of it.
  fun_induction blankLength mode text with
  | case1 mode =>
    cases mode with
    | blanks => exact .none
    | lineComment => exact .openLine List.not_mem_nil
    | blockComment => exact .openBlock (by simp)
  | case2 rest ih => exact ih
  | case3 rest ih => exact ih
  | case4 c rest noLine noBlock blank ih => exact .blank blank ih
  | case5 c rest noLine noBlock solid => exact .none
  | case6 c rest ih =>
    by_cases ends : c = '\n'
    · subst ends
      exact @Filler.line [] _ _ List.not_mem_nil ih
    · simp only [if_neg ends] at ih ⊢
      exact Filler.cons_line ends ih
  | case7 rest ih => exact @Filler.block [] _ _ (by simp) ih
  | case8 c rest noEnd ih =>
    refine Filler.cons_block (fun star slash => ?_) ih
    cases rest with
    | nil => cases slash
    | cons next more =>
      rw [List.head?_take] at slash
      split at slash
      · cases slash
      · obtain ⟨rfl⟩ := slash
        exact noEnd more star rfl

/-- No more characters are skipped than the text has. -/
theorem blankLength_le (mode : Skipping) (text : List Char) :
    blankLength mode text ≤ text.length := by
  fun_induction blankLength mode text with
  | case1 mode => exact Nat.le_refl _
  | case2 rest ih => exact Nat.succ_le_succ ih
  | case3 rest ih => exact Nat.succ_le_succ (Nat.succ_le_succ ih)
  | case4 c rest noLine noBlock blank ih => exact Nat.succ_le_succ ih
  | case5 c rest noLine noBlock solid => exact Nat.zero_le _
  | case6 c rest ih => exact Nat.succ_le_succ ih
  | case7 rest ih => exact Nat.succ_le_succ (Nat.succ_le_succ ih)
  | case8 c rest noEnd ih => exact Nat.succ_le_succ ih

/-- Skipping moves over blanks and comments, and over all of them. -/
theorem Cursor.skip_filler (c : Cursor) : ∃ passed, c.rest = passed ++ c.skip.rest ∧
    c.skip = c.advance passed.length ∧ Filler passed c.skip.rest ∧ ¬ StartsFiller c.skip.rest := by
  have filler := filler_blankLength .blanks c.rest
  have fits := blankLength_le .blanks c.rest
  refine ⟨c.rest.take (blankLength .blanks c.rest), (List.take_append_drop _ _).symm, ?_, filler,
    not_startsFiller_skipText c.rest⟩
  rw [List.length_take, Nat.min_eq_left fits]
  rfl

/-! ### Calls -/

/-- The cursor at a position of the same text. -/
def Cursor.moveTo (c : Cursor) (pos : Nat) : Cursor :=
  ⟨c.text, pos, c.text.drop pos, rfl⟩

theorem Cursor.moveTo_skip (c : Cursor) (pos : Nat) : c.skip.moveTo pos = c.moveTo pos :=
  rfl

theorem Cursor.advance_eq_moveTo (c : Cursor) (n : Nat) : c.advance n = c.moveTo (c.pos + n) := by
  simp only [Cursor.moveTo, Cursor.advance, Cursor.mk.injEq, true_and]
  exact (c.advance n).rest_eq

namespace Scan

/-- Reads what a pattern finds at the next token. A pattern may look at all of
the text, also at what stands before the cursor, and tells with what it finds
the position behind it. -/
def pattern? {β : Type} (find : Cursor → Option (β × Nat)) : Scan (Option β) := do
  skip
  match find (← get) with
  | some (found, behind) =>
    modify (·.moveTo behind)
    return some found
  | none => return none

theorem pattern?_eq {β : Type} (find : Cursor → Option (β × Nat)) (c : Cursor) :
    pattern? find c =
      .ok ((find c.skip).map Prod.fst, (find c.skip).elim c.skip fun found =>
        c.skip.moveTo found.2) := by
  rw [pattern?, scan_bind_of_ok rfl, scan_bind_of_ok rfl]
  cases find c.skip with
  | none => rfl
  | some found => rfl

/-- A lexeme is a pattern that looks at nothing but the text that comes next. -/
theorem lexeme?_eq_pattern? {β : Type} (recognise : List Char → Option β) (width : β → Nat) :
    lexeme? recognise width =
      pattern? fun c => (recognise c.rest).map fun found => (found, c.pos + width found) := by
  funext c
  rw [pattern?_eq, (lexeme?_token recognise width).found rfl, ← Cursor.skip_rest]
  cases recognise c.skip.rest with
  | none => rfl
  | some found =>
    rw [Cursor.advance_eq_moveTo]
    rfl

end Scan

inductive Look : Type → Type where
  | peek : Look (Option Char)
  | rest : Look (List Char)
  | atEnd : Look Bool
  | atKeyword (keyword : String) : Look Bool
  | atPrefixedName : Look Bool

/-- A call that looks ahead or reads a token, by what it returns. -/
inductive Call : Type → Type 1 where
  | look {β : Type} (ahead : Look β) : Call β
  | tryText (text : String) : Call Bool
  | expect (text : String) : Call Unit
  | pattern {β : Type} (find : Cursor → Option (β × Nat)) : Call (Option β)
  | tryKeyword (keyword : String) : Call Bool
  | iriRef : Call String
  | prefixedName : Call (String × String)
  | string : Call String

def Look.run : {β : Type} → Look β → Scan β
  | _, .peek => Scan.peek
  | _, .rest => Scan.rest
  | _, .atEnd => Scan.atEnd
  | _, .atKeyword keyword => Scan.atKeyword keyword
  | _, .atPrefixedName => Scan.atPrefixedName

def Call.run : {β : Type} → Call β → Scan β
  | _, .look ahead => ahead.run
  | _, .tryText text => Scan.tryText text
  | _, .expect text => Scan.expect text
  | _, .pattern find => Scan.pattern? find
  | _, .tryKeyword keyword => Scan.tryKeyword keyword
  | _, .iriRef => Scan.iriRef
  | _, .prefixedName => Scan.prefixedName
  | _, .string => Scan.string

/-- A look moves over blanks and comments and tells something about what comes next. -/
theorem Look.looks {β : Type} (ahead : Look β) : ∃ view, Looks ahead.run view := by
  cases ahead with
  | peek => exact ⟨_, Scan.looks_peek⟩
  | rest => exact ⟨_, Scan.looks_rest⟩
  | atEnd => exact ⟨_, Scan.looks_atEnd⟩
  | atKeyword keyword => exact ⟨_, Scan.looks_atKeyword keyword⟩
  | atPrefixedName => exact ⟨_, Scan.looks_atPrefixedName⟩

/-- Every call begins by skipping. -/
theorem Call.run_skipsFirst {β : Type} (call : Call β) : SkipsFirst call.run := by
  cases call with
  | look ahead =>
    obtain ⟨view, looks⟩ := ahead.looks
    exact looks.skipsFirst
  | tryText text => exact Scan.tryText_skipsFirst text
  | expect text => exact (Scan.tryText_skipsFirst text).bind _
  | pattern find => exact Scan.skip_skipsFirst.bind _
  | tryKeyword keyword => exact Scan.tryKeyword_skipsFirst keyword
  | iriRef => exact Scan.looks_peek.skipsFirst.bind _
  | prefixedName => exact Scan.looks_rest.skipsFirst.bind _
  | string => exact Scan.looks_rest.skipsFirst.bind _

/-! ### Where a refused call stops -/

/-- A fault that is told at a cursor. A malformed text is told with its
position and context, an escape without a character at the end of the text, and
one with a wrong code point in front of it. -/
def Fault.StandsAt (fault : Fault) (c : Cursor) : Prop :=
  match fault with
  | .malformed problem .. => fault = c.fault problem
  | .badEscape .dangling pos => pos = c.pos ∧ c.pos = c.text.length
  | .badEscape problem pos =>
    pos = c.pos ∧ ∃ more, c.rest = 'u' :: more ∧ escapedChar (more.take 4) = .error problem
  | _ => False

/-- A fault that is told at a cursor carries its position. -/
theorem Fault.StandsAt.pos?_eq {fault : Fault} {c : Cursor} (stands : fault.StandsAt c) :
    fault.pos? = some c.pos := by
  cases fault with
  | malformed problem pos context =>
    rw [show Fault.malformed problem pos context = c.fault problem from stands]
    rfl
  | badEscape problem pos => cases problem <;> exact congrArg some stands.1
  | longInteger | infiniteCount | badBase | outOfBound => cases stands

/-- A refused code point is told where its escape stands, behind the
backslash. -/
theorem standsAt_of_escapedChar {more : List Char} {problem : EscapeProblem} {c : Cursor}
    (refused : escapedChar (more.take 4) = .error problem) (here : c.rest = 'u' :: more) :
    (Fault.badEscape problem c.pos).StandsAt c := by
  cases problem with
  | badCodePoint | negativeCodePoint => exact ⟨rfl, more, here, refused⟩
  | dangling =>
    unfold escapedChar at refused
    split at refused
    · cases refused
    · split at refused <;> cases refused

theorem Cursor.rest_further {c : Cursor} {text : List Char} {taken : Nat}
    (here : (c.advance taken).rest = text) (n : Nat) :
    (c.advance (taken + n)).rest = text.drop n := by
  rw [← here, Cursor.advance_rest, Cursor.advance_rest, List.drop_drop]

theorem length_lt_four {digits : List Char}
    (short : ∀ d₁ d₂ d₃ d₄ more, digits = d₁ :: d₂ :: d₃ :: d₄ :: more → False) :
    digits.length < 4 := by
  rcases digits with _ | ⟨d₁, _ | ⟨d₂, _ | ⟨d₃, _ | ⟨d₄, more⟩⟩⟩⟩
  iterate 4 · simp
  · exact (short d₁ d₂ d₃ d₄ more rfl).elim

/-- A string is refused somewhere behind its start. -/
theorem Scan.stringBody_standsAt {origin : Cursor} {quote text : List Char} {taken : Nat}
    {acc : List Char} {fault : Fault} (here : (origin.advance taken).rest = text)
    (refused : stringBody origin quote text taken acc = .error fault) :
    ∃ n, fault.StandsAt (origin.advance n) := by
  fun_induction stringBody origin quote text taken acc with
  | case1 taken acc =>
    cases refused
    exact ⟨taken, rfl⟩
  | case2 c rest taken acc closed => cases refused
  | case3 taken acc unclosed =>
    cases refused
    have left := (origin.advance taken).length_rest
    rw [here, List.length_singleton] at left
    refine ⟨taken + 1, rfl, ?_⟩
    change (origin.advance taken).pos + 1 = (origin.advance taken).text.length
    omega
  | case4 taken acc d₁ d₂ d₃ d₄ more meaning escaped unclosed ih =>
    exact ih (Cursor.rest_further here 6) refused
  | case5 taken acc d₁ d₂ d₃ d₄ more problem bad unclosed =>
    cases refused
    have four : (d₁ :: d₂ :: d₃ :: d₄ :: more).take 4 = [d₁, d₂, d₃, d₄] := rfl
    rw [← four] at bad
    exact ⟨taken + 1, standsAt_of_escapedChar bad (Cursor.rest_further here 1)⟩
  | case6 taken acc digits short meaning escaped unclosed =>
    cases refused
    exact ⟨taken + 6, rfl⟩
  | case7 taken acc digits short problem bad unclosed =>
    cases refused
    have few := Nat.le_of_lt (length_lt_four short)
    rw [← List.take_of_length_le few] at bad
    exact ⟨taken + 1, standsAt_of_escapedChar bad (Cursor.rest_further here 1)⟩
  | case8 taken acc letter more noCode noDigits unclosed ih =>
    exact ih (Cursor.rest_further here 2) refused
  | case9 c rest taken acc unclosed plain ih => exact ih (Cursor.rest_further here 1) refused

theorem Scan.string_standsAt {c : Cursor} {fault : Fault} (refused : string c = .error fault) :
    ∃ n, fault.StandsAt (c.skip.advance n) := by
  rw [string_eq] at refused
  cases opened : quotes.find? (·.isPrefixOf c.skip.rest) with
  | none =>
    rw [opened] at refused
    cases refused
    exact ⟨0, rfl⟩
  | some quote =>
    rw [opened, Option.elim_some] at refused
    cases outcome : stringBody c.skip quote (c.skip.rest.drop quote.length) quote.length [] with
    | error other =>
      rw [outcome] at refused
      cases refused
      exact stringBody_standsAt rfl outcome
    | ok body =>
      rw [outcome] at refused
      cases refused

/-- A call is refused at the place that its fault tells. -/
theorem Call.refused_standsAt {β : Type} {call : Call β} {c : Cursor} {fault : Fault}
    (refused : call.run c = .error fault) : ∃ n, fault.StandsAt (c.skip.advance n) := by
  cases call with
  | look ahead =>
    obtain ⟨view, looks⟩ := ahead.looks
    cases (looks c).symm.trans refused
  | tryText text =>
    have tried := (Scan.tryText_eq text c).symm.trans refused
    split at tried <;> cases tried
  | expect text =>
    change (Scan.tryText text >>= _) c = _ at refused
    have tried := Scan.tryText_eq text c
    split at tried
    · rw [scan_bind_of_ok tried] at refused
      cases refused
    · rw [scan_bind_of_ok tried] at refused
      cases refused
      exact ⟨0, rfl⟩
  | pattern find => cases (Scan.pattern?_eq find c).symm.trans refused
  | tryKeyword keyword => cases ((Scan.tryKeyword_token keyword).found rfl).symm.trans refused
  | iriRef =>
    have read := (Scan.iriRef_eq c).symm.trans refused
    split at read
    · split at read
      · cases read
        exact ⟨0, rfl⟩
      · cases read
    · cases read
      exact ⟨0, rfl⟩
  | prefixedName =>
    have read := (Scan.prefixedName_eq c).symm.trans refused
    cases found : prefixedName? c.skip.rest with
    | none =>
      rw [found] at read
      cases read
      exact ⟨0, rfl⟩
    | some name =>
      rw [found] at read
      cases read
  | string => exact Scan.string_standsAt refused

/-! ### Sessions -/

/-- What comes of a call: its result or why it is refused, and the cursor that
it leaves. -/
@[ext]
structure Outcome (β : Type) where
  result : Except Fault β
  left : Cursor
  stands : ∀ {fault}, result = .error fault → fault.StandsAt left

/-- The cursor behind a call. A call that is refused has moved to where its fault is. -/
def Call.leaves {β : Type} (call : Call β) (c : Cursor) : Cursor :=
  match call.run c with
  | .ok (_, left) => left
  | .error fault => c.moveTo (fault.pos?.getD c.skip.pos)

/-- A refused call leaves the cursor where its fault is told. -/
theorem Call.leaves_standsAt {β : Type} {call : Call β} {c : Cursor} {fault : Fault}
    (refused : call.run c = .error fault) : fault.StandsAt (call.leaves c) := by
  obtain ⟨n, stands⟩ := call.refused_standsAt refused
  have there : call.leaves c = c.skip.advance n := by
    rw [Call.leaves, refused, Cursor.advance_eq_moveTo]
    dsimp only
    rw [stands.pos?_eq]
    rfl
  rw [there]
  exact stands

def Call.outcome {β : Type} (call : Call β) (c : Cursor) : Outcome β where
  result := (call.run c).map Prod.fst
  left := call.leaves c
  stands := by
    intro fault same
    cases outcome : call.run c with
    | ok pair =>
      rw [outcome] at same
      cases same
    | error other =>
      rw [outcome] at same
      cases same
      exact Call.leaves_standsAt outcome

/-- The outcomes of calls, each made where the one before it has left the
cursor. A refused call does not end the session. -/
def outcomes : Cursor → List ((β : Type) × Call β) → List ((β : Type) × Outcome β)
  | _, [] => []
  | c, ⟨_, call⟩ :: calls => ⟨_, call.outcome c⟩ :: outcomes (call.leaves c) calls

inductive Entry : Type 1 where
  | own {β : Type} (call : Call β)
  | inserted {β : Type} (ahead : Look β)

def Entry.call : Entry → (β : Type) × Call β
  | .own call => ⟨_, call⟩
  | .inserted ahead => ⟨_, .look ahead⟩

def Entry.own? : Entry → Option ((β : Type) × Call β)
  | .own call => some ⟨_, call⟩
  | .inserted _ => none

/-- The outcomes of a session's own calls among those of all entries. -/
def ownOutcomes (c : Cursor) (entries : List Entry) : List ((β : Type) × Outcome β) :=
  (entries.zip (outcomes c (entries.map Entry.call))).filterMap fun (entry, outcome) =>
    entry.own?.map fun _ => outcome

/-- A call comes to the same in front of blanks and comments and behind them. -/
theorem Call.outcome_skip {β : Type} (call : Call β) (c : Cursor) :
    call.outcome c.skip = call.outcome c := by
  have run : call.run c.skip = call.run c := call.run_skipsFirst c
  apply Outcome.ext
  · simp only [Call.outcome, run]
  · simp only [Call.outcome, Call.leaves, run, Cursor.skip_skip, Cursor.moveTo_skip]

theorem outcomes_skip (c : Cursor) (calls : List ((β : Type) × Call β)) :
    outcomes c.skip calls = outcomes c calls := by
  cases calls with
  | nil => rfl
  | cons first rest =>
    obtain ⟨β, call⟩ := first
    have same := call.outcome_skip c
    have left : call.leaves c.skip = call.leaves c := congrArg Outcome.left same
    rw [outcomes, outcomes, same, left]

theorem Look.leaves_eq {β : Type} (ahead : Look β) (c : Cursor) :
    (Call.look ahead).leaves c = c.skip := by
  obtain ⟨view, looks⟩ := ahead.looks
  have run : (Call.look ahead).run c = .ok (view (skipText c.rest), c.skip) := looks c
  rw [Call.leaves, run]

/-- Looks that are put in make no difference for the calls of a session. -/
theorem ownOutcomes_eq (c : Cursor) (entries : List Entry) :
    ownOutcomes c entries = outcomes c (entries.filterMap Entry.own?) := by
  induction entries generalizing c with
  | nil => rfl
  | cons entry rest ih =>
    cases entry with
    | own call => exact congrArg (⟨_, call.outcome c⟩ :: ·) (ih (call.leaves c))
    | inserted ahead =>
      -- The look has moved the cursor, and the session goes on as if it had not.
      calc ownOutcomes c (.inserted ahead :: rest)
        _ = ownOutcomes ((Call.look ahead).leaves c) rest := rfl
        _ = ownOutcomes c.skip rest := by rw [ahead.leaves_eq]
        _ = outcomes c.skip (rest.filterMap Entry.own?) := ih c.skip
        _ = outcomes c (rest.filterMap Entry.own?) := outcomes_skip c _

/-- Looking ahead is transparent: in a session of calls, from any place of any
text, the results, the faults and the positions are those that the session has
without the looks that are put in. Skipping twice is skipping once. It moves
over blanks and comments, closed or not, and stops at the end of the text or in
front of a character that starts neither. -/
theorem lookahead_transparent (c : Cursor) (entries : List Entry) :
    ownOutcomes c entries = outcomes c (entries.filterMap Entry.own?) ∧
    c.skip.skip = c.skip ∧
    ∃ passed, c.rest = passed ++ c.skip.rest ∧ c.skip = c.advance passed.length ∧
      Filler passed c.skip.rest ∧ ¬ StartsFiller c.skip.rest :=
  ⟨ownOutcomes_eq c entries, c.skip_skip, c.skip_filler⟩

-- A look does move the cursor: behind one the next call starts elsewhere.
example : ((Call.look .peek).leaves (.start [' ', '/', '*', '*', '/', 'x'])).pos = 5 := rfl

end ShapeQuery.Compact
