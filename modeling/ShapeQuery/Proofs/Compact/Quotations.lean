import ShapeQuery.Proofs.Compact.SequelTokens
import ShapeQuery.Proofs.Lines
import Mathlib.Algebra.Ring.Parity
import Mathlib.Data.List.DropRight

/-!
Texts between marks: string literals between quotes and regular expressions between
slashes. A text is written with escapes so that no mark inside of it ends it, and is read
back as it was. There is one exception: the slash that ends a regular expression opens a
comment where an asterisk follows it.
-/
namespace ShapeQuery.Compact

open Compile (quote quote_eq escapeLiteralChar)

/-- A reader takes all of a text with a result, and stops in front of what
follows. The text may start anywhere in a larger one. -/
def ReadsUpTo {α : Type} (scan : Scan α) (text following : List Char) (result : α) : Prop :=
  scan (Cursor.start (text ++ following)) =
    .ok (result, (Cursor.start (text ++ following)).advance text.length)

theorem Cursor.advance_advance (c : Cursor) (m n : Nat) :
    (c.advance m).advance n = c.advance (m + n) := by
  simp [Cursor.advance, Nat.add_assoc]

/-- Characters of a kind that others follow are all that is taken. -/
theorem takeWhile_front {test : Char → Bool} {front following : List Char}
    (inside : ∀ c ∈ front, test c = true) (stops : ∀ c ∈ following.head?, test c = false) :
    (front ++ following).takeWhile test = front := by
  rw [List.takeWhile_append_of_pos inside]
  cases following with
  | nil => rw [List.takeWhile_nil, List.append_nil]
  | cons next rest => rw [List.takeWhile_cons_of_neg (by simp [stops next rfl]), List.append_nil]

namespace Scan

/-! ### Strings -/

/-- A character is written as it is, or as a backslash and a letter that stands
for it. -/
theorem escapeLiteralChar_cases (c : Char) :
    (escapeLiteralChar c = [c] ∧ c ∉ ['\\', '"', '\n', '\r']) ∨
      ∃ letter ∈ ['\\', '"', 'n', 'r'],
        escapeLiteralChar c = ['\\', letter] ∧ letterEscape letter = c := by
  unfold escapeLiteralChar
  split
  · exact Or.inr ⟨'\\', by decide, rfl, rfl⟩
  · exact Or.inr ⟨'"', by decide, rfl, rfl⟩
  · exact Or.inr ⟨'n', by decide, rfl, rfl⟩
  · exact Or.inr ⟨'r', by decide, rfl, rfl⟩
  · next noEscape noQuote noFeed noReturn =>
    refine Or.inl ⟨rfl, ?_⟩
    simp only [List.mem_cons, List.not_mem_nil, or_false, not_or]
    exact ⟨noEscape, noQuote, noFeed, noReturn⟩

def escaped (text : List Char) : List Char :=
  text.flatMap escapeLiteralChar

theorem quote_toList (text : String) :
    (quote text).toList = '"' :: (escaped text.toList ++ ['"']) := by
  rw [quote_eq, String.toList_ofList]
  rfl

/-- A character is read back from its written form, and the count goes on by
the length of that form. -/
theorem stringBody_escapeLiteralChar (origin : Cursor) (c : Char) (rest : List Char) (taken : Nat)
    (acc : List Char) : stringBody origin ['"'] (escapeLiteralChar c ++ rest) taken acc =
      stringBody origin ['"'] rest (taken + (escapeLiteralChar c).length) (c :: acc) := by
  rcases escapeLiteralChar_cases c with ⟨plain, other⟩ | ⟨letter, member, escape, meaning⟩
  · simp only [List.mem_cons, not_or] at other
    rw [plain, List.singleton_append]
    nth_rewrite 1 [stringBody.eq_def]
    dsimp only
    rw [if_neg (by simp [List.isPrefixOf, Ne.symm other.2.1]), if_neg other.1]
    rfl
  · have noCode : letter ≠ 'u' := by
      rintro rfl
      revert member
      decide
    rw [escape]
    exact (stringBody_letter origin noCode (by simp [List.isPrefixOf]) taken acc).trans
      (by rw [meaning]; rfl)

/-- Each character is read back as it was, so the first quote that is read as
one is the last of the literal. -/
theorem stringBody_escaped (origin : Cursor) (text following : List Char) (taken : Nat)
    (acc : List Char) :
    stringBody origin ['"'] (escaped text ++ '"' :: following) taken acc =
      .ok (acc.reverse ++ text, taken + (escaped text).length + 1) := by
  induction text generalizing taken acc with
  | nil =>
    rw [stringBody.eq_def]
    simp [escaped, List.isPrefixOf]
  | cons c rest ih =>
    rw [escaped, List.flatMap_cons, List.append_assoc, stringBody_escapeLiteralChar, ← escaped, ih,
      List.reverse_cons, List.append_assoc, List.singleton_append, List.length_append,
        Nat.add_assoc taken]

/-- What stands behind the opening quote of a literal is not two more quotes. -/
theorem escaped_apart {text : List Char} (following : List Char)
    (apart : text = [] → following.head? ≠ some '"') :
    ['"', '"'].isPrefixOf (escaped text ++ '"' :: following) = false := by
  cases text with
  | nil =>
    cases following with
    | nil => rfl
    | cons next rest =>
      have other : '"' ≠ next := fun same => apart rfl (by rw [same]; rfl)
      simp [escaped, List.isPrefixOf, other]
  | cons c rest =>
    rw [escaped, List.flatMap_cons]
    rcases escapeLiteralChar_cases c with ⟨plain, other⟩ | ⟨letter, -, escape, -⟩
    · simp only [List.mem_cons, not_or] at other
      simp [plain, List.isPrefixOf, Ne.symm other.2.1]
    · simp [escape, List.isPrefixOf]

/-- A literal opens with a single quote and is read up to its closing one,
unless it is empty and a third quote follows. -/
theorem string_quote {c : Cursor} {text : String} {following : List Char}
    (here : c.rest = (quote text).toList ++ following)
    (apart : text = "" → following.head? ≠ some '"') :
    string c = .ok (text, c.advance (quote text).length) := by
  have chars : c.rest = '"' :: (escaped text.toList ++ '"' :: following) := by
    rw [here, quote_toList, List.cons_append, List.append_assoc, List.singleton_append]
  have same : c.skip = c := by
    refine c.skip_eq_self (by rw [chars]; nofun) ?_
    rw [chars]
    exact skipText_solid (by decide) _
  have opened : quotes.find? (·.isPrefixOf c.rest) = some ['"'] := by
    have single := escaped_apart following fun empty => apart (String.toList_eq_nil_iff.mp empty)
    simp [chars, quotes, List.isPrefixOf, single]
  have body := stringBody_escaped c text.toList following 1 []
  have width : (quote text).length = 1 + (escaped text.toList).length + 1 := by
    rw [← String.length_toList, quote_toList, List.length_cons, List.length_append,
      List.length_singleton]
    omega
  rw [string_eq, same, opened, Option.elim_some, chars, width]
  change (stringBody c ['"'] (escaped text.toList ++ '"' :: following) 1 []).map _ = _
  rw [body]
  change Except.ok (String.ofList text.toList, _) = _
  rw [String.ofList_toList]

theorem readsUpTo_quote (text : String) : ReadsUpTo string (quote text).toList [] text := by
  have read := string_quote (c := Cursor.start ((quote text).toList ++ [])) rfl nofun
  rwa [← String.length_toList] at read

/-- Different texts have different literals, as each of them is read back. -/
theorem quote_injective {text other : String} (same : quote other = quote text) : other = text := by
  have read := readsUpTo_quote text
  have readOther := readsUpTo_quote other
  rw [ReadsUpTo, same] at readOther
  rw [ReadsUpTo, readOther] at read
  cases read
  rfl

/-! ### Backslashes before a quote -/

def finalBackslashes (text : List Char) : Nat :=
  (text.rtakeWhile (· == '\\')).length

theorem finalBackslashes_append (front back : List Char) :
    finalBackslashes (front ++ back) = finalBackslashes back ∨
      finalBackslashes (front ++ back) = finalBackslashes front + finalBackslashes back := by
  unfold finalBackslashes List.rtakeWhile
  rw [List.reverse_append, List.takeWhile_append]
  split
  · next all =>
    refine Or.inr ?_
    simp only [List.length_reverse, List.length_append] at all ⊢
    omega
  · exact Or.inl rfl

/-- The written form of a character ends with an even number of backslashes, so
it escapes nothing behind it. -/
theorem even_finalBackslashes (c : Char) : Even (finalBackslashes (escapeLiteralChar c)) := by
  rcases escapeLiteralChar_cases c with ⟨plain, other⟩ | ⟨letter, member, escape, -⟩
  · simp only [List.mem_cons, not_or] at other
    simp [plain, finalBackslashes, List.rtakeWhile, other.1]
  · rw [escape]
    simp only [List.mem_cons, List.not_mem_nil, or_false] at member
    rcases member with rfl | rfl | rfl | rfl <;> decide

theorem odd_of_escapeLiteralChar {c : Char} {before more : List Char}
    (split : escapeLiteralChar c = before ++ '"' :: more) : Odd (finalBackslashes before) := by
  rcases escapeLiteralChar_cases c with ⟨plain, other⟩ | ⟨letter, -, escape, -⟩
  · have inside : '"' ∈ [c] := by rw [← plain, split]; simp
    rw [← List.mem_singleton.mp inside] at other
    exact absurd (by decide) other
  · rw [escape] at split
    rcases before with _ | ⟨first, _ | ⟨second, rest⟩⟩
    · cases split
    · cases split
      decide
    · have lengths := congrArg List.length split
      simp at lengths

/-- A quote inside of an escaped text belongs to an escape. -/
theorem odd_finalBackslashes {text before behind : List Char}
    (split : escaped text = before ++ '"' :: behind) : Odd (finalBackslashes before) := by
  induction text generalizing before with
  | nil => cases before <;> cases split
  | cons c rest ih =>
    rw [escaped, List.flatMap_cons, ← escaped] at split
    rcases List.append_eq_append_iff.mp split with ⟨between, rfl, later⟩ | ⟨inside, whole, later⟩
    · have odd := ih later
      rcases finalBackslashes_append (escapeLiteralChar c) between with same | sum
      · rwa [same]
      · rw [sum]
        exact (even_finalBackslashes c).add_odd odd
    · cases inside with
      | nil =>
        have start : escaped rest = [] ++ '"' :: behind := later.symm
        exact absurd (ih start) (by decide)
      | cons first more =>
        obtain ⟨rfl, -⟩ := List.cons.inj later
        exact odd_of_escapeLiteralChar whole

/-- Line ends are escaped, so a literal stands on one line. -/
theorem lineBreak_not_mem_escaped (text : List Char) :
    '\n' ∉ escaped text ∧ '\r' ∉ escaped text := by
  have each : ∀ c : Char, '\n' ∉ escapeLiteralChar c ∧ '\r' ∉ escapeLiteralChar c := by
    intro c
    rcases escapeLiteralChar_cases c with ⟨plain, other⟩ | ⟨letter, member, escape, -⟩
    · simp only [List.mem_cons, not_or] at other
      rw [plain, List.mem_singleton, List.mem_singleton]
      exact ⟨Ne.symm other.2.2.1, Ne.symm other.2.2.2.1⟩
    · rw [escape]
      simp only [List.mem_cons, List.not_mem_nil, or_false] at member
      rcases member with rfl | rfl | rfl | rfl <;> decide
  simp only [escaped, List.mem_flatMap, not_exists, not_and]
  exact ⟨fun c _ => (each c).1, fun c _ => (each c).2⟩

/-- The string literal for a text is read as that text, to its end. It stands
on one line, and a quote strictly between its first and its last character has
an odd number of backslashes before it. No two texts have the same literal. -/
theorem quote_read_back (text : String) :
    ReadsUpTo string (quote text).toList [] text ∧
      ('\n' ∉ (quote text).toList ∧ '\r' ∉ (quote text).toList) ∧
      (∀ before behind, (quote text).toList = before ++ '"' :: behind → before ≠ [] → behind ≠ [] →
        Odd (finalBackslashes before)) ∧
      ∀ other, quote other = quote text → other = text := by
  refine ⟨readsUpTo_quote text, ?_, ?_, fun other => quote_injective⟩
  · obtain ⟨noFeed, noReturn⟩ := lineBreak_not_mem_escaped text.toList
    simp [quote_toList, noFeed, noReturn]
  · intro before behind split inside further
    obtain ⟨first, front, rfl⟩ := List.exists_cons_of_ne_nil inside
    obtain ⟨middle, last, rfl⟩ := (List.eq_nil_or_concat' behind).resolve_left further
    rw [quote_toList, List.cons_append, List.cons.injEq, ← List.cons_append,
      ← List.append_assoc] at split
    obtain ⟨rfl, rest⟩ := split
    have odd := odd_finalBackslashes (List.append_inj_left' rest rfl)
    rcases finalBackslashes_append ['"'] front with same | sum
    · rwa [← same] at odd
    · have none : finalBackslashes ['"'] = 0 := by decide
      rw [none, Nat.zero_add] at sum
      rwa [← sum] at odd

/-- A text of a backslash and a quote has three backslashes before the quote. -/
theorem quote_read_back_escape :
    ReadsUpTo string (quote "\\\"").toList [] "\\\"" ∧
      Odd (finalBackslashes ['"', '\\', '\\', '\\']) := by
  obtain ⟨read, -, odd, -⟩ := quote_read_back "\\\""
  exact ⟨read, odd ['"', '\\', '\\', '\\'] ['"'] rfl nofun nofun⟩

/-! ### Regular expressions -/

/-- Whether each backslash in a pattern is followed by a character that it
escapes, other than a slash. -/
def isPattern : List Char → Bool
  | '\\' :: c :: rest => c != '/' && isPattern rest
  | ['\\'] => false
  | _ :: rest => isPattern rest
  | [] => true

/-- The written form of a character in a pattern. -/
def escapeSlash (c : Char) : List Char :=
  if c = '/' then ['\\', '/'] else [c]

/-- A pattern between slashes, with its flags. -/
def regexpText (pattern flags : List Char) : List Char :=
  '/' :: (pattern.flatMap escapeSlash ++ '/' :: flags)

/-- The body of a pattern is read up to its closing slash, with the slashes in
it given back. -/
theorem regexpBody_escapeSlash {pattern : List Char} (valid : isPattern pattern = true)
    (following : List Char) : regexpBody (pattern.flatMap escapeSlash ++ '/' :: following) =
      (pattern, (pattern.flatMap escapeSlash).length) := by
  fun_induction isPattern pattern with
  | case1 c rest ih =>
    rw [Bool.and_eq_true, bne_iff_ne] at valid
    have plain : escapeSlash c = [c] := if_neg valid.1
    have escape : escapeSlash '\\' = ['\\'] := rfl
    rw [List.flatMap_cons, List.flatMap_cons, plain, escape, List.singleton_append,
      List.singleton_append, List.cons_append, List.cons_append, regexpBody, ih valid.2]
    · rfl
    · exact valid.1
  | case2 => cases valid
  | case3 c rest noEscape noFinal ih =>
    have plain : c ≠ '\\' := by
      rintro rfl
      cases rest with
      | nil => exact noFinal rfl rfl
      | cons d more => exact noEscape d more rfl rfl
    rw [List.flatMap_cons, List.append_assoc]
    by_cases slash : c = '/'
    · subst slash
      have escape : escapeSlash '/' = ['\\', '/'] := rfl
      rw [escape, List.cons_append, List.singleton_append, regexpBody, ih valid]
      rfl
    · have same : escapeSlash c = [c] := if_neg slash
      rw [same, List.singleton_append, regexpBody_cons slash plain, ih valid]
      rfl
  | case4 => rfl

/-- A slash is read as a mark where it does not open a comment. -/
theorem expect_slash {c : Cursor} {following : List Char} (here : c.rest = '/' :: following)
    (apart : following.head? ≠ some '*') : expect "/" c = .ok ((), c.advance 1) := by
  have solid : skipText c.rest = c.rest := by
    rw [here]
    exact skipFrom_solid (by decide) (by decide) fun _ => apart
  have start : "/".toList.isPrefixOf (skipText c.rest) = true := by
    rw [solid, here]
    rfl
  rw [expect_start (by decide) start, c.skip_eq_self (by rw [here]; nofun) solid]
  rfl

/-- A slash that opens a comment is not the one that is read. -/
theorem expect_slash_comment {c c' : Cursor} {more : List Char} (here : c.rest = '/' :: '*' :: more)
    (read : expect "/" c = .ok ((), c')) : c.pos + 2 < c'.pos := by
  obtain ⟨width, found, rfl⟩ := (expect_token (by decide)).find_eq read
  have wide : width = 1 := by
    split at found
    · cases found
      rfl
    · cases found
  have skipped : blankLength .blanks c.rest = blankLength .blockComment more + 2 := by
    rw [here]
    rfl
  rw [wide, Cursor.advance_pos, Cursor.skip, Cursor.advance_pos, skipped]
  omega

/-- Reads the end of a regular expression, from its closing slash on. -/
def regexpEnd (pattern : List Char) : Scan (String × Option String) := do
  expect "/"
  let flags ← regexpFlags
  return (String.ofList pattern, if flags.isEmpty then none else some (String.ofList flags))

theorem regexp_eq_regexpEnd {pattern : List Char} (valid : isPattern pattern = true)
    (noStar : pattern.head? ≠ some '*') {following : List Char} {c : Cursor}
    (here : c.rest = '/' :: (pattern.flatMap escapeSlash ++ '/' :: following)) :
    regexp c = regexpEnd pattern (c.advance ((pattern.flatMap escapeSlash).length + 1)) := by
  have apart : (pattern.flatMap escapeSlash ++ '/' :: following).head? ≠ some '*' := by
    cases pattern with
    | nil => nofun
    | cons first rest =>
      rw [List.head?_cons, ne_eq, Option.some.injEq] at noStar
      by_cases slash : first = '/' <;> simp [escapeSlash, slash, noStar]
  have inside : (c.advance 1).rest = pattern.flatMap escapeSlash ++ '/' :: following := by
    rw [Cursor.advance_rest, here]
    rfl
  have body : regexpPattern (c.advance 1) =
      .ok (pattern, (c.advance 1).advance (pattern.flatMap escapeSlash).length) := by
    change Except.ok ((regexpBody (c.advance 1).rest).1,
      (c.advance 1).advance (regexpBody (c.advance 1).rest).2) = _
    rw [inside, regexpBody_escapeSlash valid]
  rw [regexp_eq, scan_bind_of_ok (expect_slash here apart), scan_bind_of_ok body,
    Cursor.advance_advance, Nat.add_comm 1]
  rfl

theorem regexpFlags_eq (c : Cursor) : regexpFlags c =
    .ok (c.rest.takeWhile isFlag, c.advance (c.rest.takeWhile isFlag).length) := rfl

theorem regexpEnd_reads (pattern : List Char) {c : Cursor} {flags following : List Char}
    (here : c.rest = '/' :: (flags ++ following)) (letters : ∀ c ∈ flags, isFlag c = true)
    (stops : ∀ c ∈ following.head?, isFlag c = false)
    (apart : flags = [] → following.head? ≠ some '*') :
    regexpEnd pattern c =
      .ok ((String.ofList pattern, if flags.isEmpty then none else some (String.ofList flags)),
        c.advance (1 + flags.length)) := by
  have noComment : (flags ++ following).head? ≠ some '*' := by
    cases flags with
    | nil => exact apart rfl
    | cons first rest =>
      have letter := letters first List.mem_cons_self
      rintro ⟨⟩
      revert letter
      decide
  have behind : (c.advance 1).rest = flags ++ following := by
    rw [Cursor.advance_rest, here]
    rfl
  rw [regexpEnd, scan_bind_of_ok (expect_slash here noComment),
    scan_bind_of_ok (regexpFlags_eq _), behind, takeWhile_front letters stops,
      Cursor.advance_advance]
  rfl

/-- A closing slash that opens a comment is not taken, so the reader stops
further on. -/
theorem regexpEnd_comment {pattern more : List Char} {c c' : Cursor}
    {result : String × Option String} (here : c.rest = '/' :: '*' :: more)
    (read : regexpEnd pattern c = .ok (result, c')) : c.pos + 2 < c'.pos := by
  obtain ⟨_, middle, slash, rest⟩ := scan_bind_ok read
  have further := expect_slash_comment here slash
  rw [scan_bind_of_ok (regexpFlags_eq middle)] at rest
  cases rest
  exact Nat.lt_add_right _ further

/-- A pattern between slashes is read back with its flags, up to what follows,
exactly if the closing slash does not open a comment. -/
theorem regexp_read_back_iff {pattern flags following : List Char}
    (valid : isPattern pattern = true) (noStar : pattern.head? ≠ some '*')
    (letters : ∀ c ∈ flags, isFlag c = true) (stops : ∀ c ∈ following.head?, isFlag c = false) :
    ReadsUpTo regexp (regexpText pattern flags) following
        (String.ofList pattern, if flags.isEmpty then none else some (String.ofList flags)) ↔
      (flags = [] → following.head? ≠ some '*') := by
  have start : (Cursor.start (regexpText pattern flags ++ following)).rest =
      '/' :: (pattern.flatMap escapeSlash ++ '/' :: (flags ++ following)) := by
    simp [Cursor.start, regexpText]
  have width : (regexpText pattern flags).length =
      (pattern.flatMap escapeSlash).length + 1 + (1 + flags.length) := by
    simp only [regexpText, List.length_cons, List.length_append]
    omega
  rw [ReadsUpTo, regexp_eq_regexpEnd valid noStar start, width,
    ← Cursor.advance_advance _ ((pattern.flatMap escapeSlash).length + 1)]
  have here : ((Cursor.start (regexpText pattern flags ++ following)).advance
      ((pattern.flatMap escapeSlash).length + 1)).rest = '/' :: (flags ++ following) := by
    rw [Cursor.advance_rest, start, List.drop_succ_cons, List.drop_left]
  constructor
  · rintro read rfl star
    obtain ⟨more, rfl⟩ := List.head?_eq_some_iff.mp star
    have further := regexpEnd_comment here read
    rw [Cursor.advance_pos _ (1 + _), List.length_nil] at further
    omega
  · exact regexpEnd_reads pattern here letters stops

/-- Behind flags an asterisk opens no comment; right behind the closing slash
it does. -/
theorem regexp_read_back_iff_asterisk :
    ReadsUpTo regexp (regexpText "a/\\.b".toList ['i']) ['*'] ("a/\\.b", some "i") ∧
      ¬ ReadsUpTo regexp (regexpText "a".toList []) ['*'] ("a", none) := by
  have stops : ∀ c ∈ ['*'].head?, isFlag c = false := by
    rintro c ⟨⟩
    rfl
  constructor
  · exact (regexp_read_back_iff (by decide) (by decide) (List.forall_mem_singleton.mpr rfl)
      stops).mpr nofun
  · intro read
    exact (regexp_read_back_iff (by decide) (by decide) (by nofun) stops).mp read rfl rfl

end Scan

end ShapeQuery.Compact
