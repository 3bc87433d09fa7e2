import ShapeQuery.Proofs.Renaming

/-!
Putting a term in place of a variable. An occurrence is whole if the name of the variable is the
longest run of word characters behind its question mark; so a text is replaced run by run, and
replacing a variable that is not fresh goes together with renaming the fresh ones.
-/
namespace ShapeQuery.Group

theorem substituteAll_eq (variableName term : String) (groups : List Group) :
    substituteAll variableName term groups = groups.map (substitute variableName term) := by
  induction groups with
  | nil => rw [substituteAll, List.map_nil]
  | cons group rest ih => rw [substituteAll, ih, List.map_cons]

/-- A replacement goes into the lines of a group and into the groups inside it,
and changes nothing else. -/
theorem substitute_eq (variableName term : String) (group : Group) :
    group.substitute variableName term =
      { group with
        lines := group.lines.map (substituteLine variableName term)
        children := group.children.map (substitute variableName term) } := by
  cases group
  rw [substitute, substituteAll_eq]

/-- Characters that have been replaced already are passed over. -/
theorem replaceFrom_skip (variableName term : List Char) : ∀ (skip : Nat) (text : List Char),
    replaceFrom variableName term skip text = replaceFrom variableName term 0 (text.drop skip)
  | 0, _ => rfl
  | skip + 1, [] => by rw [List.drop_nil, replaceFrom, replaceFrom]
  | skip + 1, c :: rest => by
    rw [replaceFrom, List.drop_succ_cons]
    exact replaceFrom_skip variableName term skip rest

section Variable

variable {name term : List Char}

/-- What stands behind the longest run of word characters. -/
theorem drop_takeWhile (rest : List Char) :
    rest.drop (rest.takeWhile Text.isWord).length = rest.dropWhile Text.isWord := by
  have split := List.takeWhile_append_dropWhile (p := Text.isWord) (l := rest)
  conv => lhs; arg 2; rw [← split]
  exact List.drop_left

theorem startsVariable_iff (word : ∀ c ∈ name, Text.isWord c = true) {c : Char} {rest : List Char} :
    startsVariable ('?' :: name) (c :: rest) = true ↔
      c = '?' ∧ rest.takeWhile Text.isWord = name := by
  rw [startsVariable, Bool.and_eq_true, List.isPrefixOf_iff_prefix, List.cons_prefix_cons,
    List.length_cons, List.drop_succ_cons]
  constructor
  · rintro ⟨⟨rfl, tail, rfl⟩, stop⟩
    rw [List.drop_left] at stop
    refine ⟨rfl, Compile.Template.takeWhile_name word ?_⟩
    cases tail with
    | nil => rfl
    | cons d more => exact List.takeWhile_cons_of_neg (by simpa using stop)
  · rintro ⟨rfl, rfl⟩
    refine ⟨⟨rfl, List.takeWhile_prefix _⟩, ?_⟩
    have stop := Compile.Template.takeWhile_dropWhile rest
    rw [drop_takeWhile]
    cases tail : rest.dropWhile Text.isWord with
    | nil => rfl
    | cons d more =>
      rw [tail, List.takeWhile_cons] at stop
      split at stop
      · cases stop
      · next other => simpa using other

theorem replaceFrom_nil : replaceFrom ('?' :: name) term 0 [] = [] := by
  rw [replaceFrom]
  rfl

/-- A variable whose name ends where the word ends is replaced, and the text
goes on behind it. -/
theorem replaceFrom_whole (word : ∀ c ∈ name, Text.isWord c = true) {rest : List Char}
    (whole : rest.takeWhile Text.isWord = name) :
    replaceFrom ('?' :: name) term 0 ('?' :: rest) =
      term ++ replaceFrom ('?' :: name) term 0 (rest.dropWhile Text.isWord) := by
  have behind := drop_takeWhile rest
  rw [whole] at behind
  rw [replaceFrom, if_pos ((startsVariable_iff word).mpr ⟨rfl, whole⟩), replaceFrom_skip]
  exact congrArg (term ++ replaceFrom ('?' :: name) term 0 ·) behind

/-- Any other character stays, a question mark before another name included. -/
theorem replaceFrom_other (word : ∀ c ∈ name, Text.isWord c = true) {c : Char} {rest : List Char}
    (other : ¬ (c = '?' ∧ rest.takeWhile Text.isWord = name)) :
    replaceFrom ('?' :: name) term 0 (c :: rest) = c :: replaceFrom ('?' :: name) term 0 rest := by
  rw [replaceFrom, if_neg fun starts => other ((startsVariable_iff word).mp starts)]

theorem replaceFrom_append (word : ∀ c ∈ name, Text.isWord c = true) {front : List Char}
    (unmarked : '?' ∉ front) (back : List Char) :
    replaceFrom ('?' :: name) term 0 (front ++ back) =
      front ++ replaceFrom ('?' :: name) term 0 back := by
  induction front with
  | nil => rfl
  | cons c rest ih =>
    rw [List.mem_cons, not_or] at unmarked
    rw [List.cons_append, replaceFrom_other word fun whole => unmarked.1 whole.1.symm,
      ih unmarked.2, List.cons_append]

theorem mark_not_mem_of_isWord (word : ∀ c ∈ name, Text.isWord c = true) : '?' ∉ name :=
  fun member => Compile.ne_mark_of_isWord (word _ member) rfl

/-- A term that does not start with a word character adds none to a name before it. -/
theorem takeWhile_replaceFrom (word : ∀ c ∈ name, Text.isWord c = true)
    (apart : ∀ back, (term ++ back).takeWhile Text.isWord = []) (text : List Char) :
    (replaceFrom ('?' :: name) term 0 text).takeWhile Text.isWord = text.takeWhile Text.isWord := by
  induction text with
  | nil => rw [replaceFrom_nil]
  | cons c rest ih =>
    by_cases whole : c = '?' ∧ rest.takeWhile Text.isWord = name
    · obtain ⟨rfl, named⟩ := whole
      rw [replaceFrom_whole word named, apart, List.takeWhile_cons_of_neg (by decide)]
    · rw [replaceFrom_other word whole, List.takeWhile_cons, List.takeWhile_cons, ih]

/-- A text starts with a keyword after the replacement if and only if it does before. -/
theorem isPrefixOf_replaceFrom (word : ∀ c ∈ name, Text.isWord c = true) (opening : Char)
    {inner : List Char} (opens : term = opening :: inner) : ∀ keyword : List Char, '?' ∉ keyword →
      opening ∉ keyword → ∀ text : List Char,
        keyword.isPrefixOf (replaceFrom ('?' :: name) term 0 text) = keyword.isPrefixOf text
  | [], _, _, _ => by rw [List.isPrefixOf_nil_left, List.isPrefixOf_nil_left]
  | _ :: _, _, _, [] => by rw [replaceFrom_nil]
  | k :: keyword, unmarked, unopened, c :: rest => by
    rw [List.mem_cons, not_or] at unmarked unopened
    by_cases whole : c = '?' ∧ rest.takeWhile Text.isWord = name
    · obtain ⟨rfl, named⟩ := whole
      rw [replaceFrom_whole word named, opens, List.cons_append, List.isPrefixOf_cons_cons,
        List.isPrefixOf_cons_cons, beq_false_of_ne (Ne.symm unmarked.1),
        beq_false_of_ne (Ne.symm unopened.1), Bool.false_and, Bool.false_and]
    · rw [replaceFrom_other word whole, List.isPrefixOf_cons_cons, List.isPrefixOf_cons_cons,
        isPrefixOf_replaceFrom word opening opens keyword unmarked.2 unopened.2 rest]

end Variable

/-- Putting in a term that opens with an angle bracket leaves the keywords at
the start of a line. -/
theorem isPrefixOf_substituteLine {variableName term : String} {name inner : List Char}
    (named : variableName.toList = '?' :: name) (word : ∀ c ∈ name, Text.isWord c = true)
    (opens : term.toList = '<' :: inner) {keyword : List Char} (unmarked : '?' ∉ keyword)
    (unopened : '<' ∉ keyword) (line : String) :
    keyword.isPrefixOf (substituteLine variableName term line).toList =
      keyword.isPrefixOf line.toList := by
  rw [substituteLine, String.toList_ofList, named]
  exact isPrefixOf_replaceFrom word '<' opens keyword unmarked unopened line.toList

open Compile Compile.Template

theorem dropWhile_fill_read (renumber : Nat → Nat) (text : List Char) :
    ((read text).fill renumber).dropWhile Text.isWord =
      (read (text.dropWhile Text.isWord)).fill renumber := by
  induction text with
  | nil => rw [List.dropWhile_nil, read_nil, fill_nil, List.dropWhile_nil]
  | cons c rest ih =>
    rw [List.dropWhile_cons]
    split
    · next wordly =>
      rw [read_of_ne (ne_mark_of_isWord wordly), fill_char, List.dropWhile_cons_of_pos wordly, ih]
    · next wordly =>
      have head := head?_fill_read renumber (c :: rest)
      obtain ⟨more, filled⟩ := List.head?_eq_some_iff.mp head
      rw [filled, List.dropWhile_cons_of_neg wordly]

/-- A term in brackets: dividers at both ends, and no fresh variable in it. -/
structure Bracketed (term : List Char) : Prop where
  apart : ∀ back, (term ++ back).takeWhile Text.isWord = []
  reads : ∀ back, read (term ++ back) = term.map .char ++ read back

/-- Replacing a variable of a shape and renaming fresh variables go together.
The recursion takes a whole variable at a time. -/
theorem replaceFrom_fill_read {name term : List Char} (word : ∀ c ∈ name, Text.isWord c = true)
    (lasting : ∀ number, name ≠ (freshName number).toList) (bracketed : Bracketed term)
    (renumber : Nat → Nat) :
    ∀ text : List Char, replaceFrom ('?' :: name) term 0 ((read text).fill renumber) =
      (read (replaceFrom ('?' :: name) term 0 text)).fill renumber
  | [] => by rw [read_nil, fill_nil, replaceFrom_nil, read_nil, fill_nil]
  | c :: rest => by
    have later := replaceFrom_fill_read word lasting bracketed renumber (rest.dropWhile Text.isWord)
    have runs := takeWhile_replaceFrom word bracketed.apart
    -- A fresh variable is passed over as a whole, an occurrence of the variable becomes the term,
    -- and every other character stays.
    cases fresh : startsFresh? c rest with
    | some number =>
      obtain ⟨rfl, named⟩ := startsFresh?_eq_some.mp fresh
      have split := List.takeWhile_append_dropWhile (p := Text.isWord) (l := rest)
      rw [named] at split
      have passed : ∀ (other : Nat) {back : List Char}, back.takeWhile Text.isWord = [] →
          replaceFrom ('?' :: name) term 0 ('?' :: (freshName other).toList ++ back) =
            '?' :: (freshName other).toList ++ replaceFrom ('?' :: name) term 0 back := by
        intro other back stop
        have wordly := isWord_of_mem_freshName other
        have unmarked := mark_not_mem_of_isWord wordly
        have different : ¬ ('?' = '?' ∧
            ((freshName other).toList ++ back).takeWhile Text.isWord = name) := by
          rw [takeWhile_name wordly stop]
          exact fun whole => lasting other whole.2.symm
        rw [List.cons_append, replaceFrom_other word different, replaceFrom_append word unmarked,
          List.cons_append]
      have stop := takeWhile_dropWhile rest
      have stopRead : ((read (rest.dropWhile Text.isWord)).fill renumber).takeWhile
          Text.isWord = [] := by
        rw [takeWhile_fill_read, stop]
      have stopReplaced : (replaceFrom ('?' :: name) term 0
          (rest.dropWhile Text.isWord)).takeWhile Text.isWord = [] := by
        rw [runs, stop]
      rw [read_of_some fresh, fill_hole, passed _ stopRead, later]
      conv => rhs; rw [← split, ← List.cons_append, passed _ stop,
        read_fresh _ stopReplaced, fill_hole]
    | none =>
      rw [read_of_none fresh, fill_char]
      by_cases whole : c = '?' ∧ rest.takeWhile Text.isWord = name
      · obtain ⟨rfl, named⟩ := whole
        have namedRead : ((read rest).fill renumber).takeWhile Text.isWord = name := by
          rw [takeWhile_fill_read, named]
        rw [replaceFrom_whole word namedRead, replaceFrom_whole word named,
          dropWhile_fill_read, later, bracketed.reads, fill_append, fill_chars]
      · have wholeRead : ¬ (c = '?' ∧ ((read rest).fill renumber).takeWhile
            Text.isWord = name) := by
          rwa [takeWhile_fill_read]
        have notFresh : startsFresh? c (replaceFrom ('?' :: name) term 0 rest) = none := by
          rw [startsFresh?, runs]
          exact fresh
        rw [replaceFrom_other word wholeRead, replaceFrom_other word whole, read_of_none notFresh,
          fill_char, replaceFrom_fill_read word lasting bracketed renumber rest]
termination_by text => text.length
decreasing_by
  · exact Nat.lt_succ_of_le (List.dropWhile_sublist _).length_le
  · exact Nat.lt_succ_self _

end ShapeQuery.Group
