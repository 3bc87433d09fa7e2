import ShapeQuery.Proofs.Compact.SequelTokens

/-!
Node constraints in front of a sequel. A value set ends with its closing bracket, so its entries are
never at the end of a text that is read to its end.
-/
namespace ShapeQuery.Compact

namespace Scan

section

variable {ι : Type} {back : ι → Sequel} {exact : Bool}

/-! ### Value sets -/

/-- A look that tells something about the text that comes next. -/
theorem rest_bind_continues {α β : Type} {view : List Char → α} {next : α → Scan β}
    (same : ∀ text i, text ≠ [] → view (text ++ (back i).text) = view text)
    (final : exact = true → ∀ i, next (view (back i).seen) = next (view []))
    (second : ∀ value, Continues back exact Jammed (next value)) :
    Continues back exact Jammed (rest >>= fun text => next (view text)) := by
  have looks : Looks (rest >>= fun text => pure (view text)) view := fun _ => rfl
  have looked := Continues.look looks Jammed.skipText_eq same final second
  exact looked

theorem rest_test_continues {β : Type} {view : List Char → Bool} {yes no : Scan β}
    (same : ∀ text i, text ≠ [] → view (text ++ (back i).text) = view text)
    (final : exact = true → ∀ i, view (back i).seen = view [])
    (holds : Continues back exact Jammed yes) (fails : Continues back exact Jammed no) :
    Continues back exact Jammed (rest >>= fun text => if view text = true then yes else no) := by
  have looks : Looks (rest >>= fun text => pure (view text)) view := fun _ => rfl
  have looked := Continues.looks looks Jammed.skipText_eq same final
  exact looked.test holds fails

/-- Reads a given text if it comes next without a blank. -/
def tryHere (text : String) : Scan Bool := do
  if (← get).startsWith text.toList then
    advance text.length
    return true
  else
    return false

theorem tryHere_eq (text : String) (c : Cursor) : tryHere text c =
    if c.startsWith text.toList then .ok (true, c.advance text.length) else .ok (false, c) := by
  change (if c.startsWith text.toList = true then _ else _ : Scan Bool) c = _
  split
  · rfl
  · rfl

theorem stringLiteral_eq (names : Names) : stringLiteral names = do
    let value ← string
    if ← tryHere "^^" then
      return { value, datatype := some (← iri names) }
    else if ← tryHere "@" then
      return { value, language := (← tryLanguageTag).map String.ofList }
    else
      return { value } := by
  unfold stringLiteral
  refine bind_congr fun value => ?_
  funext c
  change (if c.startsWith ['^', '^'] = true then _ else if c.startsWith ['@'] = true then _ else _ :
    Scan Literal) c = _
  by_cases typed : c.startsWith ['^', '^'] = true
  · rw [if_pos typed, scan_bind_of_ok ((tryHere_eq "^^" c).trans (if_pos typed))]
    rfl
  · rw [if_neg typed, scan_bind_of_ok ((tryHere_eq "^^" c).trans (if_neg typed)),
      if_neg Bool.false_ne_true]
    by_cases tagged : c.startsWith ['@'] = true
    · rw [if_pos tagged, scan_bind_of_ok ((tryHere_eq "@" c).trans (if_pos tagged))]
      rfl
    · rw [if_neg tagged, scan_bind_of_ok ((tryHere_eq "@" c).trans (if_neg tagged))]
      rfl

/-- A text that is looked for right at the cursor is found, or not, whatever
the sequel. -/
theorem tryHere_continues {text : String} (token : isToken text = true)
    (apart : isApart text.toList = true)
    (other : [')', '?', '*', '+', '{'].all (text.toList.head? != some ·) = true) :
    Continues back exact Jammed (tryHere text) := by
  obtain ⟨first, more, chars, -⟩ := isToken_iff token
  have reads : ∀ c : Cursor, tryHere text c = .ok (text.toList.isPrefixOf c.rest,
      c.advance (if text.toList.isPrefixOf c.rest then text.length else 0)) := by
    intro c
    rw [tryHere_eq, startsWith_eq (by simp [chars])]
    cases text.toList.isPrefixOf c.rest <;> rfl
  refine .here (fun seen => (text.toList.isPrefixOf seen,
    if text.toList.isPrefixOf seen then text.length else 0)) reads ?_ ?_ ?_ ?_
  · intro seen jam
    rw [isToken_jammed token jam]
    exact jam
  · intro seen
    dsimp only
    split
    · next start => exact length_le_of_isPrefixOf start
    · exact Nat.zero_le _
  · intro seen i
    rw [isPrefixOf_append apart seen (back i).stops]
  · intro i
    have differ : first ≠ (back i).mark := fun same => notMark other i (by rw [chars, same]; rfl)
    simp [chars, Sequel.seen, List.isPrefixOf, differ]

/-- A string with its datatype or its language ends alike in front of a sequel,
for no mark of a sequel goes on with either. -/
theorem stringLiteral_continues (names : Names) :
    Continues back exact Jammed (stringLiteral names) := by
  rw [stringLiteral_eq]
  refine .bind string_continues fun value => ?_
  refine .test (tryHere_continues (by decide) (by decide) (by decide)) ?_ ?_
  · exact .bind (iri_continues names) fun datatype => .pure _
  · refine .test (tryHere_continues (by decide) (by decide) (by decide)) ?_ (.pure _)
    exact .bind tryLanguageTag_continues fun tag => .pure _

theorem isQuote_mark (s : Sequel) : isQuote (some s.mark) = isQuote none := by
  have plain := s.of_mark (fun c => !isQuote (some c)) (by decide)
  rw [Bool.not_eq_true'] at plain
  rw [plain]
  rfl

theorem literal_continues (names : Names) : Continues back exact Jammed (literal names) := by
  refine peek_bind_continues (fun _ i => by rw [isQuote_mark]) fun next => ?_
  refine .ite (fun _ => stringLiteral_continues names) fun _ => ?_
  refine .test (tryKeyword_continues (by decide)) (.pure _) ?_
  refine .test (tryKeyword_continues (by decide)) (.pure _) ?_
  refine .bind tryNumeral_continues fun found => ?_
  cases found with
  | some found => exact .pure _
  | none => exact .fail _

def startsLiteral (text : List Char) : Bool :=
  isQuote text.head? || startsKeyword "TRUE" text || startsKeyword "FALSE" text ||
    (numeral? text).isSome

theorem looks_atLiteral : Looks atLiteral startsLiteral := by
  intro c
  rw [atLiteral, startsLiteral, scan_bind_of_ok (looks_peek c)]
  cases isQuote (skipText c.rest).head? with
  | true => rfl
  | false =>
    have here : skipText c.skip.rest = skipText c.rest := skipText_skipText c.rest
    rw [if_neg Bool.false_ne_true, scan_bind_of_ok (looks_atKeyword _ c.skip), here,
      Cursor.skip_skip]
    cases startsKeyword "TRUE" (skipText c.rest) with
    | true => rfl
    | false =>
      rw [if_neg Bool.false_ne_true, scan_bind_of_ok (looks_atKeyword _ c.skip), here,
        Cursor.skip_skip]
      cases startsKeyword "FALSE" (skipText c.rest) <;> rfl

theorem atLiteral_continues : Continues back exact Jammed atLiteral := by
  refine .looks looks_atLiteral Jammed.skipText_eq (fun text i something => ?_) fun _ i => ?_
  · obtain ⟨first, rest, rfl⟩ := List.exists_cons_of_ne_nil something
    rw [startsLiteral, startsKeyword_append (by decide), startsKeyword_append (by decide),
      numeral?_text]
    rfl
  · have none : numeral? (back i).seen = none := (back i).noNumeral
    have quote : isQuote (back i).seen.head? = false := isQuote_mark (back i)
    rw [startsLiteral, startsKeyword_seen (by decide), startsKeyword_seen (by decide), none, quote]
    decide

theorem languageTag_continues : Continues back exact Jammed languageTag := by
  refine .bind (expect_continues (by decide)) fun _ => .bind tryLanguageTag_continues fun tag => ?_
  cases tag with
  | some tag => exact .pure _
  | none => exact .pure _

theorem stemValue_continues (names : Names) (kind : StemKind) :
    Continues back exact Jammed (stemValue names kind) := by
  cases kind with
  | iri => exact iri_continues names
  | literal => exact .bind (literal_continues names) fun value => .pure _
  | language => exact languageTag_continues

/-- An exclusion ends alike in front of a sequel, with or without a tilde. -/
theorem exclusion_continues (names : Names) (kind : StemKind) :
    Continues back exact Jammed (exclusion names kind) := by
  refine .bind (stemValue_continues names kind) fun value => ?_
  exact .test (tryText_continues (by decide) fun _ => notMark (by decide)) (.pure _) (.pure _)

/-- Operands continue if the separator and the operand do. Induction on the bound. -/
theorem operandsAfter_continues {α : Type} {separator : Scan Bool} {operand : Scan α}
    (next : Continues back exact Jammed separator) (read : Continues back exact Jammed operand)
    (bound : Nat) : Continues back exact Jammed (operandsAfter separator operand bound) := by
  induction bound with
  | zero => exact .throw _
  | succ bound ih =>
    refine .test next ?_ (.pure _)
    exact .bind read fun first => .bind ih fun others => .pure _

theorem exclusions_continues (names : Names) (kind : StemKind) (bound : Nat) :
    Continues back exact Jammed (exclusions names kind bound) := by
  rw [exclusions_eq]
  exact operandsAfter_continues (tryText_continues (by decide) fun _ => notMark (by decide))
    (exclusion_continues names kind) bound

theorem stemOr_continues (names : Names) (bound : Nat) (kind : StemKind) (value : String)
    (plain : ValueSetEntry) :
    Continues back exact Jammed (stemOr names bound kind value plain) := by
  refine .test (tryText_continues (by decide) fun _ => notMark (by decide)) ?_ (.pure _)
  refine .bind (exclusions_continues names kind bound) fun left => ?_
  exact .ite (fun _ => .pure _) fun _ => .pure _

/-- Blanks in front of a text are the same with a sequel behind it. -/
theorem trimStart_text (text : List Char) (s : Sequel) :
    (Text.trimStart text ≠ [] ∧ Text.trimStart (text ++ s.text) = Text.trimStart text ++ s.text) ∨
      (Text.trimStart text = [] ∧ Text.trimStart (text ++ s.text) = s.seen) := by
  have mark : ¬ Text.isBlank s.mark = true := by
    simpa using s.of_mark (!Text.isBlank ·) (by decide)
  have seen : Text.trimStart s.text = s.seen := by
    rw [Text.trimStart, Sequel.text]
    split
    · rw [List.dropWhile_cons_of_pos (by decide), List.dropWhile_cons_of_neg mark]
      rfl
    · rw [List.dropWhile_cons_of_neg mark]
      rfl
  induction text with
  | nil => exact Or.inr ⟨rfl, seen⟩
  | cons c rest ih =>
    by_cases blank : Text.isBlank c = true
    · simp only [Text.trimStart, List.cons_append, List.dropWhile_cons_of_pos blank] at ih ⊢
      exact ih
    · refine Or.inl ?_
      simp [Text.trimStart, List.dropWhile_cons_of_neg blank]

/-- The kind of a range without a stem is told by its first exclusion, which
stands in front of the sequel. -/
theorem wildcardKind_text {text : List Char} (something : text ≠ []) (s : Sequel) :
    wildcardKind (text ++ s.text) = wildcardKind text := by
  obtain ⟨first, rest, rfl⟩ := List.exists_cons_of_ne_nil something
  simp only [wildcardKind, List.cons_append, List.drop_succ_cons, List.drop_zero]
  rcases trimStart_text rest s with ⟨some, same⟩ | ⟨none, same⟩
  · obtain ⟨c, more, head⟩ := List.exists_cons_of_ne_nil some
    rw [same, numeral?_text, head]
    rfl
  · have numeral : numeral? s.seen = Option.none := s.noNumeral
    have quote : isQuote s.seen.head? = false := isQuote_mark s
    have tag : s.seen.head? ≠ Option.some '@' := by
      simpa [Sequel.seen] using s.of_mark (· != '@') (by decide)
    rw [same, none, numeral, quote, if_neg tag]
    decide

/-- Moving over a character that has been seen is reading it. -/
theorem advance_eq_expect {β : Type} {text : String} {k : Char} (single : text.toList = [k])
    {c : Cursor} (head : (skipText c.rest).head? = some k) (next : Scan β) :
    (advance 1 >>= fun _ => next) c.skip = (expect text >>= fun _ => next) c.skip := by
  obtain ⟨rest, same⟩ := List.head?_eq_some_iff.mp head
  have start : text.toList.isPrefixOf (skipText c.skip.rest) = true := by
    rw [Cursor.skip_rest, skipText_skipText, same, single]
    simp [List.isPrefixOf]
  have wide : text.length = 1 := by rw [← String.length_toList, single]; rfl
  rw [scan_bind_of_ok (expect_start (by simp [single]) start), Cursor.skip_skip, wide]
  rfl

def rangeAfter (names : Names) (bound : Nat) (kind : StemKind) : Scan ValueSetEntry := do
  return .range kind .wildcard (← exclusions names kind bound)

/-- Reads an entry of which the first character has been seen. -/
def entryFrom (names : Names) (bound : Nat) (next : Option Char) : Scan ValueSetEntry := do
  if next = some '.' then
    expect "."
    rangeAfter names bound (wildcardKind (← rest))
  else if next = some '@' then
    let tag ← languageTag
    stemOr names bound .language tag (.language (.string tag))
  else if ← atLiteral then
    let found ← literal names
    stemOr names bound .literal found.value found.entry
  else
    let found ← iri names
    stemOr names bound .iri found (.iri found)

/-- An entry is decided by its first character. The reader is written as a look
and what follows it. -/
theorem entry_eq (names : Names) (bound : Nat) :
    entry names bound = peek >>= entryFrom names bound := by
  funext c
  rw [entry, scan_bind_of_ok (looks_peek c), scan_bind_of_ok (looks_peek c), entryFrom]
  split
  · next head => exact advance_eq_expect rfl head _
  · rfl

/-- An entry continues in all of its forms. At the end of the text it does not
matter how it ends, for the closing bracket is still to come. -/
theorem entry_continues (names : Names) (bound : Nat) :
    Continues back false Jammed (entry names bound) := by
  rw [entry_eq]
  refine peek_bind_continues nofun fun next => ?_
  unfold entryFrom
  refine .ite (fun _ => ?_) fun _ => .ite (fun _ => ?_) fun _ => ?_
  · refine .bind expect_point_continues fun _ => ?_
    refine rest_bind_continues (fun text i something => wildcardKind_text something (back i)) nofun
      fun kind => ?_
    exact .bind (exclusions_continues names kind bound) fun left => .pure _
  · exact .bind languageTag_continues fun tag => stemOr_continues names bound _ tag _
  · refine .test atLiteral_continues ?_ ?_
    · exact .bind (literal_continues names) fun found => stemOr_continues names bound _ _ _
    · exact .bind (iri_continues names) fun found => stemOr_continues names bound _ _ _

theorem atEnd_continues : Continues back false Jammed atEnd := by
  refine .looks looks_atEnd Jammed.skipText_eq (fun text i something => ?_) nofun
  obtain ⟨first, rest, rfl⟩ := List.exists_cons_of_ne_nil something
  rfl

theorem entry_fails (names : Names) (bound : Nat) {c : Cursor} (ended : c.rest = [])
    (result : ValueSetEntry) (c' : Cursor) : entry names bound c ≠ .ok (result, c') := by
  intro read
  have none : skipText c.rest = [] := by rw [ended]; rfl
  have still : skipText c.skip.rest = [] := (skipText_skipText c.rest).trans none
  rw [entry, scan_bind_of_ok (looks_peek c), none, if_neg nofun, if_neg nofun,
    scan_bind_of_ok (looks_atLiteral c.skip), still, if_neg (by decide)] at read
  obtain ⟨found, middle, named, -⟩ := scan_bind_ok read
  refine iri_fails names ?_ ?_ found middle named
  · rw [Cursor.skip_skip, Cursor.skip_rest, none]
    nofun
  · rw [Cursor.skip_skip, Cursor.skip_rest, none]
    rfl

/-- The entries end with a bracket, so they do not end with the text before it
has been read. -/
theorem entries_fails (names : Names) (bound : Nat) {c : Cursor} (ended : c.rest = [])
    (result : List ValueSetEntry) (c' : Cursor) : entries names bound c ≠ .ok (result, c') := by
  cases bound with
  | zero => nofun
  | succ bound =>
    intro read
    have none : skipText c.rest = [] := by rw [ended]; rfl
    have spent : skipText c.skip.rest = [] := (skipText_skipText c.rest).trans none
    have looked := looks_atEnd c.skip
    rw [spent] at looked
    rw [entries_succ, entriesRound, scan_bind_of_ok (tryText_miss (by decide) (by rw [none]; rfl)),
      if_neg Bool.false_ne_true, scan_bind_of_ok looked] at read
    cases read

/-- The entries of a value set continue up to their closing bracket. -/
theorem entries_continues (names : Names) (bound : Nat) :
    Continues back exact Jammed (entries names bound) := by
  induction bound with
  | zero => exact .throw _
  | succ bound ih =>
    refine .test (tryText_continues (by decide) fun _ => notMark (by decide)) (.pure _) ?_
    have body : Continues back exact Jammed (entry names bound >>= fun first =>
        entries names bound >>= fun others => pure (first :: others)) := by
      refine (entry_continues names bound).firm (fun first => .bind ih fun others => .pure _) ?_
      intro first c result c' ended read
      obtain ⟨others, middle, readOthers, -⟩ := scan_bind_ok read
      exact entries_fails names bound ended others middle readOthers
    refine atEnd_continues.firm (fun ended => .ite (fun _ => .fail _) fun _ => body) ?_
    intro unfinished c result c' ended read
    split at read
    · cases read
    · obtain ⟨first, middle, readFirst, -⟩ := scan_bind_ok read
      exact entry_fails names bound ended first middle readFirst

theorem valueSet_continues (names : Names) (bound : Nat) :
    Continues back exact Jammed (valueSet names bound) :=
  .bind (expect_continues (by decide)) fun _ => entries_continues names bound

/-! ### Node constraints -/

/-- One of some keywords is found, or none, whatever the sequel. Induction on
the keywords. -/
theorem tryKeywords_continues {α : Type} :
    ∀ {keywords : List (String × α)}, (∀ pair ∈ keywords, isKeyword pair.1 = true) →
      Continues back exact Jammed (tryKeywords keywords)
  | [], _ => .pure _
  | (keyword, meaning) :: rest, words => by
    refine .test (tryKeyword_continues (words (keyword, meaning) List.mem_cons_self)) (.pure _) ?_
    exact tryKeywords_continues fun pair member => words pair (List.mem_cons_of_mem _ member)

theorem facetKeywords_words : ∀ pair ∈ facetKeywords, isKeyword pair.1 = true := by
  have all : facetKeywords.all (fun pair => isKeyword pair.1) = true := by decide +kernel
  exact List.all_eq_true.mp all

theorem nodeKindKeywords_words : ∀ pair ∈ nodeKindKeywords, isKeyword pair.1 = true := by
  have all : nodeKindKeywords.all (fun pair => isKeyword pair.1) = true := by decide +kernel
  exact List.all_eq_true.mp all

theorem facetValue_continues (nc : NodeConstraint) (facet : Facet) :
    Continues back exact Jammed (facetValue nc facet) := by
  cases facet with
  | length | minLength | maxLength => exact .bind count_continues fun _ => .pure _
  | pattern => exact .bind string_continues fun _ => .pure _
  | _ => exact .bind number_continues fun _ => .pure _

theorem facet?_continues (nc : NodeConstraint) : Continues back exact Jammed (facet? nc) := by
  refine .bind (tryKeywords_continues facetKeywords_words) fun found => ?_
  cases found with
  | some facet => exact .bind (facetValue_continues nc facet) fun _ => .pure _
  | none =>
    exact peek_test_continues (by decide) (.bind regexp_continues fun _ => .pure _) (.pure _)

/-- Facets continue as long as they come. The loop ends at a sequel as at the
end of the text. -/
theorem facets_continues (nc : NodeConstraint) (found : Bool) (bound : Nat) :
    Continues back exact Jammed (facets nc found bound) := by
  induction bound generalizing nc found with
  | zero => exact .throw _
  | succ bound ih =>
    refine .bind (facet?_continues nc) fun read => ?_
    cases read with
    | some filled => exact ih filled true
    | none => exact .pure _

/-- The head of a constraint continues: a keyword, a value set or an IRI. -/
theorem constraintHead_continues (names : Names) (bound : Nat) :
    Continues back exact Jammed (constraintHead names bound) := by
  refine .bind (tryKeywords_continues nodeKindKeywords_words) fun found => ?_
  cases found with
  | some kind => exact .pure _
  | none =>
    refine peek_test_continues (by decide)
      (.bind (valueSet_continues names bound) fun _ => .pure _) ?_
    exact .test atIri_continues (.bind (iri_continues names) fun _ => .pure _) (.pure _)

/-- A node constraint in front of a sequel is the one that is read from the
text alone. -/
theorem nodeConstraint?_continues (names : Names) (bound : Nat) :
    Continues back exact Jammed (nodeConstraint? names bound) := by
  refine .bind (constraintHead_continues names bound) fun (head, started) => ?_
  exact .bind (facets_continues head started bound) fun (nc, found) => .pure _

end

end Scan

end ShapeQuery.Compact
