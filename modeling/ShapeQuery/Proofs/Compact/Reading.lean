import ShapeQuery.Proofs.Compact.Writer

/-!
Reading a text that is made of words with blanks between them. A reader never sees the blanks, so
what it does to the text is said of words: which of them it takes, and which it leaves.
-/
namespace ShapeQuery.Compact

/-- A text without the blanks and comments it starts with. It is what a reader
looks at, wherever its cursor stands before. -/
def skipText (text : List Char) : List Char :=
  text.drop (blankLength .blanks text)

theorem blankLength_drop (mode : Skipping) (text : List Char) :
    blankLength .blanks (text.drop (blankLength mode text)) = 0 := by
  fun_induction blankLength mode text with
  | case1 mode => rfl
  | case2 rest ih => exact ih
  | case3 rest ih => exact ih
  | case4 c rest noLine noBlock blank ih => exact ih
  | case5 c rest noLine noBlock solid =>
    rw [List.drop_zero, blankLength, if_neg solid]
    · exact noLine
    · exact noBlock
  | case6 c rest ih => exact ih
  | case7 rest ih => exact ih
  | case8 c rest noEnd ih => exact ih

/-- Skipping once is enough. -/
@[simp] theorem skipText_skipText (text : List Char) :
    skipText (skipText text) = skipText text := by
  have stop := blankLength_drop .blanks text
  rw [skipText, skipText, stop, List.drop_zero]

/-- Whether a character is neither a blank nor the start of a comment. -/
def isSolid (c : Char) : Bool :=
  !isBlank c && c != '#' && c != '/'

theorem skipText_solid {c : Char} (solid : isSolid c = true) (text : List Char) :
    skipText (c :: text) = c :: text := by
  simp only [isSolid, Bool.and_eq_true, Bool.not_eq_true', bne_iff_ne, ne_eq] at solid
  obtain ⟨⟨noBlank, noLine⟩, noBlock⟩ := solid
  have none : blankLength .blanks (c :: text) = 0 := by
    rw [blankLength]
    · simp [noBlank]
    · exact noLine
    · intro rest start
      exact absurd start noBlock
  rw [skipText, none, List.drop_zero]

def after : List String → List Char
  | [] => []
  | words => ' ' :: (spell words).toList

theorem spell_cons (word : String) (words : List String) :
    (spell (word :: words)).toList = word.toList ++ after words := by
  cases words with
  | nil => simp [spell, after]
  | cons next rest => simp [spell, after, String.intercalate_cons_cons]

def upcoming (words : List String) : List Char :=
  skipText (spell words).toList

/-- Behind a word the blank is skipped, and the next word is seen. -/
@[simp] theorem skipText_after (words : List String) : skipText (after words) = upcoming words := by
  cases words with
  | nil => rfl
  | cons word rest => rfl

@[simp] theorem upcoming_empty_word (words : List String) :
    upcoming ("" :: words) = upcoming words := by
  rw [upcoming, spell_cons, String.toList_empty, List.nil_append, skipText_after]

def startsSolid (word : String) : Bool :=
  word.toList.head?.any isSolid

theorem startsSolid_iff {word : String} :
    startsSolid word = true ↔ ∃ c rest, word.toList = c :: rest ∧ isSolid c = true := by
  cases chars : word.toList with
  | nil => simp [startsSolid, chars]
  | cons c rest => simp [startsSolid, chars]

/-- In front of a solid word the word itself is seen, and what stands behind it. -/
theorem upcoming_cons {word : String} (solid : startsSolid word = true) (words : List String) :
    upcoming (word :: words) = word.toList ++ after words := by
  obtain ⟨c, rest, chars, solidChar⟩ := startsSolid_iff.mp solid
  rw [upcoming, spell_cons, chars, List.cons_append, skipText_solid solidChar]

/-- The first character that is seen is that of the first word. -/
theorem upcoming_head {word : String} (solid : startsSolid word = true) (words : List String) :
    (upcoming (word :: words)).head? = word.toList.head? := by
  obtain ⟨c, rest, chars, -⟩ := startsSolid_iff.mp solid
  rw [upcoming_cons solid, chars, List.cons_append, List.head?_cons, List.head?_cons]

theorem startsSolid_append {front : String} (solid : startsSolid front = true) (back : String) :
    startsSolid (front ++ back) = true := by
  obtain ⟨c, rest, chars, solidChar⟩ := startsSolid_iff.mp solid
  refine startsSolid_iff.mpr ⟨c, rest ++ back.toList, ?_, solidChar⟩
  rw [String.toList_append, chars, List.cons_append]

theorem head_append {front : String} (solid : startsSolid front = true) (back : String)
    (words : List String) :
    (upcoming ((front ++ back) :: words)).head? = front.toList.head? := by
  obtain ⟨c, rest, chars, -⟩ := startsSolid_iff.mp solid
  rw [upcoming_head (startsSolid_append solid back), String.toList_append, chars, List.cons_append,
    List.head?_cons, List.head?_cons]

def StartsWith (chars : List Char) (words : List String) : Prop :=
  ∃ c ∈ chars, (upcoming words).head? = some c

/-- Words do not start with a character that is not among the few. -/
theorem StartsWith.head_ne {chars : List Char} {words : List String}
    (starts : StartsWith chars words) {c : Char} (other : c ∉ chars) :
    (upcoming words).head? ≠ some c := by
  obtain ⟨d, member, head⟩ := starts
  rw [head]
  rintro ⟨⟩
  exact other member

theorem StartsWith.mono {chars more : List Char} {words : List String}
    (starts : StartsWith chars words) (subset : chars ⊆ more) : StartsWith more words := by
  obtain ⟨c, member, head⟩ := starts
  exact ⟨c, subset member, head⟩

/-- A reader takes some words with a result and leaves others. Words are
spelled with blanks between them, so where one ends does not depend on the
next. -/
def Takes {α : Type} (scan : Scan α) (words : List String) (result : α) (left : List String) :
    Prop :=
  ∀ c : Cursor, skipText c.rest = upcoming words →
    ∃ c', scan c = .ok (result, c') ∧ skipText c'.rest = upcoming left

namespace Takes

variable {α β : Type} {scan : Scan α} {words middle left : List String}

theorem pure (result : α) (words : List String) : Takes (pure result) words result words :=
  fun c here => ⟨c, rfl, here⟩

/-- One reader takes words and the next one takes words of what is left. -/
theorem bind {next : α → Scan β} {value : α} {result : β} (first : Takes scan words value middle)
    (second : Takes (next value) middle result left) : Takes (scan >>= next) words result left := by
  intro c here
  obtain ⟨c', read, there⟩ := first c here
  obtain ⟨c'', readNext, last⟩ := second c' there
  refine ⟨c'', ?_, last⟩
  simp only [Bind.bind, StateT.bind, Except.bind, read]
  exact readNext

theorem of_upcoming_eq {result : α} {others : List String} (same : upcoming words = upcoming others)
    (takes : Takes scan others result left) : Takes scan words result left :=
  fun c here => takes c (here.trans same)

theorem left_of_upcoming_eq {result : α} {others : List String}
    (same : upcoming left = upcoming others) (takes : Takes scan words result left) :
    Takes scan words result others := by
  intro c here
  obtain ⟨c', read, there⟩ := takes c here
  exact ⟨c', read, there.trans same⟩

/-- A test that takes its word, and the branch behind it. -/
theorem yes {test : Scan Bool} {one two : Scan β} {result : β}
    (first : Takes test words true middle) (second : Takes one middle result left) :
    Takes (test >>= fun found => if found = true then one else two) words result left :=
  .bind first (by rw [if_pos rfl]; exact second)

theorem no {test : Scan Bool} {one two : Scan β} {result : β}
    (first : Takes test words false middle) (second : Takes two middle result left) :
    Takes (test >>= fun found => if found = true then one else two) words result left :=
  .bind first (by rw [if_neg (by decide)]; exact second)

end Takes

/-- What a reader does that starts right at the first word. -/
def TakesAt {α : Type} (scan : Scan α) (words : List String) (result : α) (left : List String) :
    Prop :=
  ∀ c : Cursor, c.rest = upcoming words →
    ∃ c', scan c = .ok (result, c') ∧ skipText c'.rest = upcoming left

namespace TakesAt

variable {α β : Type} {scan : Scan α} {words middle left : List String}

theorem of_takes {result : α} (takes : Takes scan words result left) :
    TakesAt scan words result left := by
  intro c here
  refine takes c ?_
  rw [here, upcoming, skipText_skipText]

theorem bind {next : α → Scan β} {value : α} {result : β}
    (first : TakesAt scan words value middle) (second : Takes (next value) middle result left) :
    TakesAt (scan >>= next) words result left := by
  intro c here
  obtain ⟨c', read, there⟩ := first c here
  obtain ⟨c'', readNext, last⟩ := second c' there
  refine ⟨c'', ?_, last⟩
  simp only [Bind.bind, StateT.bind, Except.bind, read]
  exact readNext

/-- Moving over the start of a word leaves the rest of it. -/
theorem advance {n : Nat} {word : String} {words : List String}
    (there : ∃ front, upcoming words = front ++ word.toList ++ after left ∧ front.length = n) :
    TakesAt (Scan.advance n) words () (word :: left) := by
  obtain ⟨front, seen, rfl⟩ := there
  intro c here
  refine ⟨c.advance front.length, rfl, ?_⟩
  rw [Cursor.advance_rest, here, seen, List.append_assoc, List.drop_left, upcoming, spell_cons]

end TakesAt

/-- A reader that only looks ahead: it skips blanks and tells something about
what comes next. -/
def Looks {α : Type} (scan : Scan α) (view : List Char → α) : Prop :=
  ∀ c : Cursor, scan c = .ok (view (skipText c.rest), c.skip)

namespace Looks

variable {α β : Type} {scan : Scan α} {view : List Char → α} {words left : List String}

theorem takes (looks : Looks scan view) (words : List String) :
    Takes scan words (view (upcoming words)) words := by
  intro c here
  refine ⟨c.skip, ?_, ?_⟩
  · rw [looks, here]
  · exact (skipText_skipText c.rest).trans here

/-- After looking ahead the reader is right in front of the first word. -/
theorem bind {next : α → Scan β} {result : β} (looks : Looks scan view)
    (second : TakesAt (next (view (upcoming words))) words result left) :
    Takes (scan >>= next) words result left := by
  intro c here
  obtain ⟨c', read, last⟩ := second c.skip here
  refine ⟨c', ?_, last⟩
  simp only [Bind.bind, StateT.bind, Except.bind, looks c, here]
  exact read

end Looks

namespace Scan

theorem looks_rest : Looks rest id := fun _ => rfl

theorem looks_peek : Looks peek List.head? := fun _ => rfl

theorem looks_atEnd : Looks atEnd List.isEmpty := fun _ => rfl

theorem takes_atEnd_miss {words : List String} {c : Char} (head : (upcoming words).head? = some c) :
    Takes atEnd words false words := by
  have looked := looks_atEnd.takes words
  rwa [List.isEmpty_eq_false_iff_exists_mem.mpr ⟨c, List.mem_of_mem_head? head⟩] at looked

theorem looks_atKeyword (keyword : String) : Looks (atKeyword keyword) (startsKeyword keyword) :=
  fun _ => rfl

theorem looks_atPrefixedName : Looks atPrefixedName fun text => (namespaceName? text).isSome :=
  fun _ => rfl

/-! ### Given texts -/

/-- What trying a text does at a cursor, in one equation: it skips, and moves
over the text if it is there. -/
theorem tryText_eq (text : String) (c : Cursor) :
    tryText text c =
      if c.skip.startsWith text.toList then .ok (true, c.skip.advance text.length)
      else .ok (false, c.skip) := by
  change (if c.skip.startsWith text.toList = true then (do advance text.length; return true)
    else return false : Scan Bool) c.skip = _
  split
  · rfl
  · rfl

theorem startsWith_eq {text : List Char} (nonempty : text ≠ []) (c : Cursor) :
    c.startsWith text = text.isPrefixOf c.rest := by
  rw [Cursor.startsWith, if_neg (by simpa using nonempty)]

/-- A text at the start of a word is taken, and the rest of the word is left. -/
theorem takes_tryText {text : String} (solid : startsSolid text = true) (word : String)
    (words : List String) :
    Takes (tryText text) ((text ++ word) :: words) true (word :: words) := by
  obtain ⟨first, more, chars, -⟩ := startsSolid_iff.mp solid
  intro c here
  rw [upcoming_cons (startsSolid_append solid word), String.toList_append,
    List.append_assoc] at here
  have start : c.skip.startsWith text.toList = true := by
    rw [startsWith_eq (by simp [chars])]
    change text.toList.isPrefixOf (skipText c.rest) = true
    rw [here, List.isPrefixOf_iff_prefix]
    exact List.prefix_append _ _
  refine ⟨c.skip.advance text.length, ?_, ?_⟩
  · rw [tryText_eq, if_pos start]
  · change skipText ((skipText c.rest).drop text.length) = _
    rw [here, ← String.length_toList, List.drop_left, upcoming, spell_cons]

theorem takes_tryText_word {text : String} (solid : startsSolid text = true) (words : List String) :
    Takes (tryText text) (text :: words) true words := by
  have takes := takes_tryText solid "" words
  rw [String.append_empty] at takes
  exact takes.left_of_upcoming_eq (upcoming_empty_word words)

/-- A text is not taken where the words start with another character. -/
theorem takes_tryText_miss {text : String} (solid : startsSolid text = true) {words : List String}
    (other : (upcoming words).head? ≠ text.toList.head?) :
    Takes (tryText text) words false words := by
  obtain ⟨first, more, chars, -⟩ := startsSolid_iff.mp solid
  intro c here
  have miss : c.skip.startsWith text.toList = false := by
    rw [startsWith_eq (by simp [chars])]
    change text.toList.isPrefixOf (skipText c.rest) = false
    rw [here, chars]
    cases seen : upcoming words with
    | nil => rfl
    | cons d rest =>
      rw [seen, chars] at other
      have differ : first ≠ d := fun same => other (by rw [same]; rfl)
      simp [List.isPrefixOf, differ]
  refine ⟨c.skip, ?_, ?_⟩
  · rw [tryText_eq, miss, if_neg (by decide)]
  · exact (skipText_skipText c.rest).trans here

theorem takes_expect {text : String} {words left : List String}
    (takes : Takes (tryText text) words true left) : Takes (expect text) words () left :=
  .bind takes (.pure () left)

/-! ### Keywords -/

def differs : List Char → List Char → Bool
  | a :: as, b :: bs => a != b || differs as bs
  | _, _ => false

theorem upper_take_ne {keyword word : List Char} (caps : ∀ c ∈ word, Text.upperChar c = [c])
    (clash : differs keyword word = true) (text : List Char) :
    Text.upper ((word ++ text).take keyword.length) ≠ keyword := by
  induction keyword generalizing word with
  | nil => cases clash
  | cons k ks ih =>
    cases word with
    | nil => cases clash
    | cons w ws =>
      rw [List.forall_mem_cons] at caps
      have seen : Text.upper ((w :: ws ++ text).take (k :: ks).length) =
          w :: Text.upper ((ws ++ text).take ks.length) := by
        rw [List.length_cons, List.cons_append, List.take_succ_cons, Text.upper,
          List.flatMap_cons, caps.1]
        rfl
      rw [seen]
      intro same
      obtain ⟨first, others⟩ := List.cons.inj same
      rw [differs, first, bne_self_eq_false, Bool.false_or] at clash
      exact ih caps.2 clash others

/-- A word in capitals that differs from a keyword does not start it, whatever
follows. -/
theorem startsKeyword_clash {keyword : String} {seen : List Char}
    (caps : ∀ c ∈ seen, Text.upperChar c = [c]) (clash : differs keyword.toList seen = true)
    (text : List Char) : startsKeyword keyword (seen ++ text) = false := by
  have other := upper_take_ne caps clash text
  rw [String.length_toList] at other
  rw [startsKeyword, beq_eq_false_iff_ne.mpr other, Bool.false_and]

/-- A keyword in capitals that is a word of its own is found. -/
theorem startsKeyword_self {keyword : String} (solid : startsSolid keyword = true)
    (caps : Text.upper keyword.toList = keyword.toList) (words : List String) :
    startsKeyword keyword (upcoming (keyword :: words)) = true := by
  rw [upcoming_cons solid, startsKeyword, ← String.length_toList, List.take_left, caps,
    beq_self_eq_true, Bool.true_and, List.drop_left]
  cases words with
  | nil => rfl
  | cons word rest => rfl

theorem takes_tryKeyword {keyword : String} (solid : startsSolid keyword = true)
    (caps : Text.upper keyword.toList = keyword.toList) (words : List String) :
    Takes (tryKeyword keyword) (keyword :: words) true words := by
  refine (looks_atKeyword keyword).bind ?_
  rw [startsKeyword_self solid caps, if_pos rfl]
  have moved : TakesAt (advance keyword.length) (keyword :: words) () ("" :: words) := by
    refine .advance ⟨keyword.toList, ?_, String.length_toList⟩
    rw [upcoming_cons solid, String.toList_empty, List.append_nil]
  refine moved.bind ?_
  exact Takes.left_of_upcoming_eq (upcoming_empty_word words) (.pure true _)

theorem takes_tryKeyword_miss {keyword : String} {words : List String}
    (miss : startsKeyword keyword (upcoming words) = false) :
    Takes (tryKeyword keyword) words false words := by
  refine (looks_atKeyword keyword).bind ?_
  rw [miss, if_neg (by decide)]
  exact .of_takes (.pure false words)

/-- The characters with which words start that are no keywords. -/
def marks : List Char :=
  ['<', '@', '(', ')', '{', '}', ';', '|', '&', '$', '^', '.', '=']

def isMark (c : Char) : Bool :=
  marks.contains c

/-- No keyword comes next: the text ends, or goes on with a mark. -/
def Quiet (words : List String) : Prop :=
  ∀ c ∈ (upcoming words).head?, isMark c = true

/-- What holds of each of the marks holds of a character that is one. -/
theorem of_isMark {test : Char → Bool} (all : marks.all test = true) {c : Char}
    (mark : isMark c = true) : test c = true :=
  List.all_eq_true.mp all c (List.contains_iff_mem.mp mark)

theorem upperChar_mark {c : Char} (mark : isMark c = true) : Text.upperChar c = [c] := by
  have all : marks.all (fun c => Text.upperChar c == [c]) = true := by decide
  exact beq_iff_eq.mp (of_isMark all mark)

/-- No keyword is found where the words start with a mark. -/
theorem Quiet.startsKeyword {words : List String} (quiet : Quiet words) (keyword : String)
    (letter : keyword.toList.head?.any (fun c => !isMark c) = true) :
    startsKeyword keyword (upcoming words) = false := by
  cases chars : keyword.toList with
  | nil => simp [chars] at letter
  | cons k ks =>
    simp only [chars, List.head?_cons, Option.any_some, Bool.not_eq_true'] at letter
    cases seen : upcoming words with
    | nil => simp [Scan.startsKeyword, Text.upper, chars]
    | cons c rest =>
      have mark : isMark c = true := quiet c (by rw [seen]; rfl)
      have other : k ≠ c := by
        rintro rfl
        rw [mark] at letter
        cases letter
      have clash : differs keyword.toList [c] = true := by simp [chars, differs, other]
      exact startsKeyword_clash (List.forall_mem_singleton.mpr (upperChar_mark mark)) clash rest

/-- Whether a keyword is certainly not the given word: both are in capitals and
they differ. -/
def clashes (keyword word : String) : Bool :=
  startsSolid word && word.toList.all (fun c => Text.upperChar c == [c]) &&
    differs keyword.toList word.toList

/-- No keyword is found in a word that clashes with it. -/
theorem startsKeyword_word {keyword word : String} (clash : clashes keyword word = true)
    (words : List String) : startsKeyword keyword (upcoming (word :: words)) = false := by
  simp only [clashes, Bool.and_eq_true, List.all_eq_true, beq_iff_eq] at clash
  obtain ⟨⟨solid, caps⟩, differ⟩ := clash
  rw [upcoming_cons solid]
  exact startsKeyword_clash caps differ _

theorem quiet_of_head {words : List String} {c : Char} (head : (upcoming words).head? = some c)
    (mark : isMark c = true) : Quiet words := by
  intro d member
  rw [head, Option.mem_some_iff] at member
  rw [← member]
  exact mark

end Scan

end ShapeQuery.Compact
