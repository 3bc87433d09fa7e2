import ShapeQuery.Proofs.Compact.Cardinality
import ShapeQuery.Proofs.Compact.Quotations

/-!
Extra lists in every layout. The list goes on at the word `a` only if a plain space stands behind
it, while the reader of a predicate takes the word in front of every blank. So the blanks between
the tokens of a list do not matter, apart from the first one behind each `a`: a list in which that
is not a space ends there, and the brace that is expected behind it is missed.
-/
namespace ShapeQuery.Compact

/-! ### Cursors inside of a text -/

/-- The cursor between two parts of a text. -/
def Cursor.between (front behind : List Char) : Cursor :=
  ⟨front ++ behind, front.length, behind, List.drop_left.symm⟩

namespace Cursor

theorem eq_of_pos {c d : Cursor} (text : c.text = d.text) (pos : c.pos = d.pos) : c = d := by
  have rest : c.rest = d.rest := by rw [c.rest_eq, d.rest_eq, text, pos]
  cases c
  cases d
  simp_all

theorem between_advance (front part behind : List Char) {n : Nat} (size : n = part.length) :
    (between front (part ++ behind)).advance n = between (front ++ part) behind := by
  apply eq_of_pos
  · simp [between]
  · simp [between, size]

/-- The cursor that is moved from the start over the first part. -/
theorem between_eq (front behind : List Char) :
    between front behind = (start (front ++ behind)).advance front.length := by
  apply eq_of_pos
  · simp [between, start]
  · simp [between, start]

end Cursor

def StartsToken (text : List Char) : Prop :=
  ∃ first rest, text = first :: rest ∧ isSolid first = true

theorem StartsToken.append {text : List Char} (token : StartsToken text) (following : List Char) :
    StartsToken (text ++ following) := by
  obtain ⟨first, rest, rfl, solid⟩ := token
  exact ⟨first, rest ++ following, rfl, solid⟩

/-- Blanks in front of a token are counted, and nothing else. -/
theorem blankLength_append {blanks : List Char} (blank : ∀ c ∈ blanks, isBlank c = true)
    {text : List Char} (token : StartsToken text) :
    blankLength .blanks (blanks ++ text) = blanks.length := by
  induction blanks with
  | nil =>
    obtain ⟨first, rest, rfl, solid⟩ := token
    have stays := congrArg List.length (skipText_solid solid rest)
    simp only [skipText, List.length_drop, List.length_cons] at stays
    simp only [List.nil_append, List.length_nil]
    omega
  | cons c others ih =>
    have here := blank c List.mem_cons_self
    rw [List.cons_append, blankLength, if_pos here,
      ih fun d member => blank d (List.mem_cons_of_mem c member), List.length_cons]
    · rintro rfl
      cases here
    · rintro more rfl
      cases here

theorem Cursor.between_skip (front : List Char) {blanks : List Char}
    (blank : ∀ c ∈ blanks, isBlank c = true) {text : List Char} (token : StartsToken text) :
    (between front (blanks ++ text)).skip = between (front ++ blanks) text := by
  apply between_advance
  exact blankLength_append blank token

theorem Cursor.between_stays (front : List Char) {text : List Char} (token : StartsToken text) :
    (between front text).skip = between front text := by
  have skipped := Cursor.between_skip front (List.forall_mem_nil (isBlank · = true)) token
  rwa [List.nil_append, List.append_nil] at skipped

/-! ### What an extra list is written as -/

/-- The blanks between two tokens: at least one. The first of them is kept
apart, for a list may go on or end by it. -/
structure Gap where
  first : Char
  others : List Char
  blank : ∀ c ∈ first :: others, isBlank c = true

def Gap.text (gap : Gap) : List Char :=
  gap.first :: gap.others

/-- A predicate as it is written in an extra list: the word `a`, or an IRI
between angle brackets. -/
inductive ExtraPredicate where
  /-- The word `a`. -/
  | word
  | iri (written : List Char) (inside : '>' ∉ written)
deriving DecidableEq

namespace ExtraPredicate

/-- The predicate as text. -/
def text : ExtraPredicate → List Char
  | word => ['a']
  | iri written _ => '<' :: written ++ ['>']

def name : ExtraPredicate → String
  | word => Scan.rdfType
  | iri written _ => String.ofList written

end ExtraPredicate

/-- A predicate of an extra list, with the blanks behind it. -/
structure ExtraItem where
  predicate : ExtraPredicate
  gap : Gap

namespace ExtraItem

def text (item : ExtraItem) : List Char :=
  item.predicate.text ++ item.gap.text

/-- Whether a list goes on at the predicate: the word `a` needs a space behind it. -/
def Continues (item : ExtraItem) : Prop :=
  item.predicate = .word → item.gap.first = ' '

instance (item : ExtraItem) : Decidable item.Continues :=
  inferInstanceAs (Decidable (item.predicate = .word → item.gap.first = ' '))

end ExtraItem

def extraText (gap : Gap) (items : List ExtraItem) : List Char :=
  ['E', 'X', 'T', 'R', 'A'] ++ gap.text ++ items.flatMap ExtraItem.text

/-! ### One predicate -/

theorem Gap.first_blank (gap : Gap) : isBlank gap.first = true :=
  gap.blank gap.first List.mem_cons_self

theorem ExtraItem.startsToken (item : ExtraItem) (following : List Char) :
    StartsToken (item.text ++ following) := by
  obtain ⟨predicate, gap⟩ := item
  apply StartsToken.append
  cases predicate with
  | word => exact ⟨'a', gap.text, rfl, by decide⟩
  | iri written inside => exact ⟨'<', written ++ ['>'] ++ gap.text, rfl, by decide⟩

namespace Scan

theorem predicate_word (names : Names) (front : List Char) (gap : Gap) (following : List Char) :
    predicate names (Cursor.between front ('a' :: gap.text ++ following)) =
      .ok (rdfType, Cursor.between (front ++ ['a']) (gap.text ++ following)) := by
  have stays := Cursor.between_stays front ⟨'a', gap.text ++ following, rfl, by decide⟩
  have word : startsRdfType ('a' :: gap.text ++ following) = true := by
    have blank : Text.isBlank gap.first = true := test_of_isBlank (by decide) gap.first_blank
    simp [Gap.text, startsRdfType, blank]
  have moved := Cursor.between_advance front ['a'] (gap.text ++ following) (n := 1) rfl
  rw [predicate, scan_bind_of_ok (looks_rest _), ← Cursor.skip_rest, List.cons_append, stays, id]
  change (if startsRdfType ('a' :: gap.text ++ following) = true then
    (do advance 1; return rdfType : Scan String) else iri names) _ = _
  rw [if_pos word]
  change Except.ok (rdfType, (Cursor.between front (['a'] ++ (gap.text ++ following))).advance 1) =
    _
  rw [moved]

theorem predicate_iri (names : Names) (noBase : names.base = none) (front : List Char)
    {written : List Char} (inside : '>' ∉ written) (following : List Char) :
    predicate names (Cursor.between front ('<' :: written ++ '>' :: following)) =
      .ok (String.ofList written, Cursor.between (front ++ ('<' :: written ++ ['>']))
        following) := by
  have stays := Cursor.between_stays front ⟨'<', written ++ '>' :: following, rfl, by decide⟩
  generalize start : Cursor.between front ('<' :: (written ++ '>' :: following)) = c at stays
  have here : skipText c.rest = '<' :: written ++ '>' :: following := by
    rw [← Cursor.skip_rest, stays, ← start]
    rfl
  have noWord : startsRdfType (skipText c.rest) = false := by
    rw [here]
    rfl
  have bracket : (skipText c.rest).head? = some '<' := by
    rw [here]
    rfl
  have moved := Cursor.between_advance front ('<' :: written ++ ['>']) following
    (n := written.length + 2) (by simp)
  rw [List.append_assoc, List.singleton_append, List.cons_append, start] at moved
  rw [List.cons_append, start, predicate_eq, scan_bind_of_ok (looks_atRdfType c), noWord,
    if_neg Bool.false_ne_true, stays, iri, scan_bind_of_ok (looks_peek c), stays, if_pos bracket,
    resolvedIriRef, scan_bind_of_ok (iriRef_reads inside here), stays, moved, Names.resolve, noBase]
  rfl

/-- A predicate of a list is read as its IRI, up to the blanks behind it. -/
theorem predicate_item (names : Names) (noBase : names.base = none) (front : List Char)
    (item : ExtraItem) (following : List Char) :
    predicate names (Cursor.between front (item.text ++ following)) =
      .ok (item.predicate.name, Cursor.between (front ++ item.predicate.text)
        (item.gap.text ++ following)) := by
  obtain ⟨predicate, gap⟩ := item
  cases predicate with
  | word => exact predicate_word names front gap following
  | iri written inside =>
    have read := predicate_iri names noBase front inside (gap.text ++ following)
    simpa [ExtraItem.text, ExtraPredicate.text, ExtraPredicate.name] using read

/-! ### A list -/

/-- A list goes on at an IRI, and at the word in front of a space. -/
theorem startsExtra_item (item : ExtraItem) (following : List Char) :
    startsExtra (item.text ++ following) = true ↔ item.Continues := by
  obtain ⟨predicate, gap⟩ := item
  cases predicate with
  | word =>
    have blank := gap.first_blank
    have noName : isNameChar gap.first = false := test_of_isBlank (by decide) blank
    have noColon : gap.first ≠ ':' := by
      intro same
      rw [same] at blank
      cases blank
    have unnamed : namespaceName? ('a' :: gap.first :: (gap.others ++ following)) = none := by
      have letter : 'a'.isAlpha = true := by decide
      simp [namespaceName?, letter, noName, noColon]
    simp only [startsExtra, ExtraItem.Continues, ExtraItem.text, ExtraPredicate.text, Gap.text,
      List.cons_append, List.nil_append, unnamed, forall_const]
    simp [List.isPrefixOf]
    exact eq_comm
  | iri written inside =>
    simp [startsExtra, ExtraItem.Continues, ExtraItem.text, ExtraPredicate.text]

theorem looks_behind_gap {α : Type} {scan : Scan α} {view : List Char → α}
    (looks : Looks scan view) (front : List Char) (gap : Gap) {text : List Char}
    (token : StartsToken text) :
    scan (Cursor.between front (gap.text ++ text)) =
      .ok (view text, Cursor.between (front ++ gap.text) text) := by
  have skipped : (Cursor.between front (gap.text ++ text)).skip =
      Cursor.between (front ++ gap.text) text :=
    Cursor.between_skip front gap.blank token
  rw [looks, ← Cursor.skip_rest, skipped]
  rfl

/-- A list is read up to the first token at which it does not go on. -/
theorem extraPredicates_items (names : Names) (noBase : names.base = none) {ending : List Char}
    (token : StartsToken ending) (stops : startsExtra ending = false) {items : List ExtraItem}
    (continues : ∀ item ∈ items, item.Continues) {bound : Nat} (wide : items.length < bound)
    (front : List Char) (gap : Gap) :
    extraPredicates names bound (Cursor.between front
      (gap.text ++ (items.flatMap ExtraItem.text ++ ending))) =
      .ok (items.map fun item => .string item.predicate.name,
        Cursor.between (front ++ gap.text ++ items.flatMap ExtraItem.text) ending) := by
  obtain ⟨bound, rfl⟩ := Nat.exists_eq_succ_of_ne_zero (Nat.ne_zero_of_lt wide)
  induction items generalizing bound front gap with
  | nil =>
    have looked := looks_behind_gap looks_atExtraPredicate front gap token
    rw [List.flatMap_nil, List.nil_append, extraPredicates, scan_bind_of_ok looked, stops,
      if_neg Bool.false_ne_true, List.append_nil]
    rfl
  | cons item items ih =>
    have token := item.startsToken (items.flatMap ExtraItem.text ++ ending)
    have looked := looks_behind_gap looks_atExtraPredicate front gap token
    have goesOn := (startsExtra_item item (items.flatMap ExtraItem.text ++ ending)).mpr
      (continues item List.mem_cons_self)
    have read := predicate_item names noBase (front ++ gap.text) item
      (items.flatMap ExtraItem.text ++ ending)
    have short : items.length < bound := by
      simp only [List.length_cons] at wide
      omega
    obtain ⟨less, rfl⟩ := Nat.exists_eq_succ_of_ne_zero (Nat.ne_zero_of_lt short)
    have others := ih (fun other member => continues other (List.mem_cons_of_mem item member))
      (front ++ gap.text ++ item.predicate.text) item.gap less short
    rw [List.flatMap_cons, List.append_assoc, extraPredicates, scan_bind_of_ok looked,
      goesOn, if_pos rfl, scan_bind_of_ok read, scan_bind_of_ok others]
    simp only [ExtraItem.text, List.append_assoc]
    rfl

/-! ### A shape definition -/

theorem startsKeyword_other {keyword : String} {k : Char} {ks : List Char}
    (chars : keyword.toList = k :: ks) {c capital : Char} (upper : Text.upperChar c = [capital])
    (other : capital ≠ k) (rest : List Char) : startsKeyword keyword (c :: rest) = false := by
  have size : keyword.length = ks.length + 1 := by
    rw [← String.length_toList, chars, List.length_cons]
  simp [startsKeyword, size, chars, Text.upper, upper, other]

theorem scan_bind_of_error {α β : Type} {scan : Scan α} {next : α → Scan β} {c : Cursor}
    {fault : Fault} (failed : scan c = .error fault) : (scan >>= next) c = .error fault := by
  change (scan c >>= fun found => next found.1 found.2) = _
  rw [failed]
  rfl

/-- A text at which a list ends, and at which no other list and no closed mark
follows. -/
structure EndsList (ending : List Char) : Prop where
  token : StartsToken ending
  stops : startsExtra ending = false
  noExtra : startsKeyword "EXTRA" ending = false
  noClosed : startsKeyword "CLOSED" ending = false

theorem endsList_brace (rest : List Char) : EndsList ('{' :: rest) where
  token := ⟨'{', rest, rfl, by decide⟩
  stops := by
    have noLetter : '{'.isAlpha = false := by decide
    simp [startsExtra, namespaceName?, noLetter, List.isPrefixOf]
  noExtra := startsKeyword_other rfl (show Text.upperChar '{' = ['{'] by decide) (by decide) rest
  noClosed := startsKeyword_other rfl (show Text.upperChar '{' = ['{'] by decide) (by decide) rest

theorem ExtraItem.text_of_ends {item : ExtraItem} (ends : ¬ item.Continues) :
    item.text = 'a' :: item.gap.text := by
  have word : item.predicate = .word := by
    by_contra other
    exact ends fun same => absurd same other
  rw [ExtraItem.text, word]
  rfl

/-- A list ends at the word `a` in front of a blank that is no space, and
nothing goes on there. -/
theorem endsList_word {item : ExtraItem} (ends : ¬ item.Continues) (following : List Char) :
    EndsList (item.text ++ following) where
  token := item.startsToken following
  stops := Bool.eq_false_iff.mpr fun starts => ends ((startsExtra_item item following).mp starts)
  noExtra := by
    rw [ExtraItem.text_of_ends ends]
    exact startsKeyword_other rfl (show Text.upperChar 'a' = ['A'] by decide) (by decide) _
  noClosed := by
    rw [ExtraItem.text_of_ends ends]
    exact startsKeyword_other rfl (show Text.upperChar 'a' = ['A'] by decide) (by decide) _

theorem startsKeyword_gap {keyword : String} (caps : Text.upper keyword.toList = keyword.toList)
    (gap : Gap) (following : List Char) :
    startsKeyword keyword (keyword.toList ++ (gap.text ++ following)) = true := by
  have ends : endsKeyword gap.first = true := test_of_isBlank (by decide) gap.first_blank
  rw [startsKeyword, ← String.length_toList, List.take_left, caps, beq_self_eq_true, Bool.true_and,
    List.drop_left]
  exact ends

/-- A keyword in capitals with blanks behind it is read. -/
theorem tryKeyword_gap {keyword : String} (caps : Text.upper keyword.toList = keyword.toList)
    (token : StartsToken keyword.toList) (front : List Char) (gap : Gap) (following : List Char) :
    tryKeyword keyword (Cursor.between front (keyword.toList ++ (gap.text ++ following))) =
      .ok (true, Cursor.between (front ++ keyword.toList) (gap.text ++ following)) := by
  have stays := Cursor.between_stays front (token.append (gap.text ++ following))
  have tried := (tryKeyword_token keyword).found
    (c := Cursor.between front (keyword.toList ++ (gap.text ++ following))) rfl
  rw [← Cursor.skip_rest, stays] at tried
  have found : startsKeyword keyword
      (Cursor.between front (keyword.toList ++ (gap.text ++ following))).rest = true :=
    startsKeyword_gap caps gap following
  rw [found, if_pos rfl, Cursor.between_advance front _ _ String.length_toList.symm] at tried
  exact tried

/-- Where a keyword does not come next, nothing is read. -/
theorem tryKeyword_absent {keyword : String} {text : List Char} (token : StartsToken text)
    (absent : startsKeyword keyword text = false) (front : List Char) :
    tryKeyword keyword (Cursor.between front text) = .ok (false, Cursor.between front text) := by
  have stays := Cursor.between_stays front token
  have tried : tryKeyword keyword (Cursor.between front text) =
      .ok (false, (Cursor.between front text).skip) := by
    apply tryKeyword_miss
    rw [← Cursor.skip_rest, stays]
    exact absent
  rwa [stays] at tried

section

variable (names : Names) (noBase : names.base = none) {ending : List Char} (ends : EndsList ending)
  {items : List ExtraItem} (continues : ∀ item ∈ items, item.Continues) {bound : Nat}
  (wide : items.length + 1 < bound) (gap : Gap)

include noBase ends continues wide

theorem shapeHead_items :
    shapeHead names bound (Cursor.start (extraText gap items ++ ending)) =
      .ok ((items.map fun item => .string item.predicate.name, false),
        Cursor.between (extraText gap items) ending) := by
  have letters : "EXTRA".toList = ['E', 'X', 'T', 'R', 'A'] := by simp
  have start : Cursor.start (extraText gap items ++ ending) =
      Cursor.between [] (['E', 'X', 'T', 'R', 'A'] ++
        (gap.text ++ (items.flatMap ExtraItem.text ++ ending))) := by
    apply Cursor.eq_of_pos
    · simp [Cursor.start, Cursor.between, extraText]
    · rfl
  obtain ⟨less, rfl⟩ : ∃ less, bound = less + 2 := ⟨bound - 2, by omega⟩
  have capitals : Text.upper "EXTRA".toList = "EXTRA".toList := by
    rw [letters]
    decide
  have token : StartsToken "EXTRA".toList := by
    rw [letters]
    exact ⟨'E', _, rfl, by decide⟩
  have keyword := tryKeyword_gap capitals token [] gap (items.flatMap ExtraItem.text ++ ending)
  rw [letters] at keyword
  have list := extraPredicates_items names noBase ends.token ends.stops continues
    (show items.length < less + 1 by omega) ([] ++ ['E', 'X', 'T', 'R', 'A']) gap
  have noExtra := tryKeyword_absent ends.token ends.noExtra (extraText gap items)
  have noClosed := tryKeyword_absent ends.token ends.noClosed (extraText gap items)
  have none : shapeHead names (less + 1) (Cursor.between (extraText gap items) ending) =
      .ok (([], false), Cursor.between (extraText gap items) ending) := by
    rw [shapeHead, scan_bind_of_ok noExtra, if_neg Bool.false_ne_true, scan_bind_of_ok noClosed,
      if_neg Bool.false_ne_true]
    rfl
  rw [start, shapeHead, scan_bind_of_ok keyword, if_pos rfl, scan_bind_of_ok list, List.nil_append]
  change (shapeHead names (less + 1) >>= _) (Cursor.between (extraText gap items) ending) = _
  rw [scan_bind_of_ok none]
  dsimp only
  rw [List.append_nil]
  rfl

/-- Where no brace stands behind a list, the definition is refused. -/
theorem shapeDefinition_refuses (noBrace : ending.head? ≠ some '{') :
    shapeDefinition names bound (Cursor.start (extraText gap items ++ ending)) =
      .error ((Cursor.between (extraText gap items) ending).fault (.expected "\x7b")) := by
  have head := shapeHead_items names noBase ends continues wide gap
  obtain ⟨first, rest, rfl, solid⟩ := ends.token
  have missed := tryText_here "\x7b" '{' (c := Cursor.between (extraText gap items) (first :: rest))
    rfl solid rfl
  rw [if_neg fun same => noBrace (by rw [same, List.head?_cons])] at missed
  have refused : expect "\x7b" (Cursor.between (extraText gap items) (first :: rest)) =
      .error ((Cursor.between (extraText gap items) (first :: rest)).fault (.expected "\x7b")) := by
    rw [expect, scan_bind_of_ok missed]
    rfl
  exact (scan_bind_of_ok head).trans (scan_bind_of_error refused)

end

/-- In front of a brace the list is the extra list of the shape. -/
theorem shapeDefinition_reads (names : Names) (noBase : names.base = none)
    {items : List ExtraItem} (continues : ∀ item ∈ items, item.Continues) {bound : Nat}
    (wide : items.length + 1 < bound) (gap : Gap) {inner : List Char}
    (blank : ∀ c ∈ inner, isBlank c = true) :
    ∃ c, shapeDefinition names bound (Cursor.start
      (extraText gap items ++ '{' :: (inner ++ ['}']))) =
      .ok (.shape none false (items.map fun item => .string item.predicate.name), c) ∧
        c.rest = [] := by
  have head := shapeHead_items names noBase (endsList_brace (inner ++ ['}'])) continues wide gap
  have brace := (expect_here "\x7b" (c := Cursor.between (extraText gap items)
    ('{' :: (inner ++ ['}']))) rfl (by decide) rfl).1
  have moved := Cursor.between_advance (extraText gap items) ['{'] (inner ++ ['}']) (n := 1) rfl
  rw [List.singleton_append] at moved
  rw [moved] at brace
  have skipped := Cursor.between_skip (extraText gap items ++ ['{']) blank ⟨'}', [], rfl, by decide⟩
  have closed : tryText "\x7d" (Cursor.between (extraText gap items ++ ['{']) (inner ++ ['}'])) =
      .ok (true, (Cursor.between (extraText gap items ++ ['{'] ++ inner) ['}']).advance 1) := by
    have found := tryText_here "\x7d" '}'
      (c := Cursor.between (extraText gap items ++ ['{'] ++ inner) ['}']) rfl
      (by decide) rfl
    rwa [← skipped, tryText_skipsFirst _ _, if_pos rfl, skipped] at found
  refine ⟨(Cursor.between (extraText gap items ++ ['{'] ++ inner) ['}']).advance 1, ?_, rfl⟩
  exact (scan_bind_of_ok head).trans ((scan_bind_of_ok brace).trans (scan_bind_of_ok closed))

/-! ### Every layout -/

theorem length_le_extraText (gap : Gap) (items : List ExtraItem) :
    items.length ≤ (extraText gap items).length := by
  have each : items.length ≤ (items.flatMap ExtraItem.text).length := by
    induction items with
    | nil => simp
    | cons item items ih =>
      have positive : 0 < item.text.length := by
        simp only [ExtraItem.text, Gap.text, List.length_append, List.length_cons]
        omega
      simp only [List.flatMap_cons, List.length_append, List.length_cons]
      omega
  simp only [extraText, List.length_append]
  omega

/-- If a list does not go on at every predicate, there is a first one at which
it ends. -/
theorem exists_first_ending {items : List ExtraItem} (ends : ¬ ∀ item ∈ items, item.Continues) :
    ∃ front item back, items = front ++ item :: back ∧ (∀ other ∈ front, other.Continues) ∧
      ¬ item.Continues := by
  cases found : items.find? fun item => !decide item.Continues with
  | none => exact absurd (by simpa using List.find?_eq_none.mp found) ends
  | some item =>
    obtain ⟨here, front, back, rfl, before⟩ := List.find?_eq_some_iff_append.mp found
    exact ⟨front, item, back, rfl, by simpa using before, by simpa using here⟩

/-- A definition is refused at the first predicate at which its list does not go on. -/
theorem shapeDefinition_refuses_at (names : Names) (noBase : names.base = none) (gap : Gap)
    {front : List ExtraItem} (continues : ∀ other ∈ front, other.Continues) {item : ExtraItem}
    (ends : ¬ item.Continues) (back : List ExtraItem) (following : List Char) {text : List Char}
    (whole : text = extraText gap (front ++ item :: back) ++ following) :
    shapeDefinition names (Cursor.start text).bound (Cursor.start text) =
      .error (((Cursor.start text).advance (extraText gap front).length).fault
        (.expected "\x7b")) := by
  have parts : text = extraText gap front ++
      (item.text ++ (back.flatMap ExtraItem.text ++ following)) := by
    simp [whole, extraText]
  have fits := length_le_extraText gap front
  have wide : front.length + 1 < (Cursor.start text).bound := by
    simp only [parts, Cursor.bound, Cursor.start, List.length_append]
    omega
  have noBrace : (item.text ++ (back.flatMap ExtraItem.text ++ following)).head? ≠ some '{' := by
    rw [ExtraItem.text_of_ends ends]
    simp
  have refused := shapeDefinition_refuses names noBase (endsList_word ends _) continues
    wide gap noBrace
  rwa [Cursor.between_eq, ← parts] at refused

/-- An extra list of any predicates, with any blanks between its tokens, is
read as the IRIs of its predicates in their order, exactly if a space stands
right behind each word `a`. Otherwise the first word behind which another blank
stands is taken for the end of the list, where a brace is missed. -/
theorem shapeDefinition_extra_iff (names : Names) (noBase : names.base = none) (gap : Gap)
    (items : List ExtraItem) (inner : List Char) (blank : ∀ c ∈ inner, isBlank c = true) :
    (ReadsWhole (shapeDefinition names) (extraText gap items ++ '{' :: (inner ++ ['}']))
        (.shape none false (items.map fun item => .string item.predicate.name)) ↔
      ∀ item ∈ items, item.Continues) ∧
      ∀ front item back, items = front ++ item :: back → (∀ other ∈ front, other.Continues) →
        ¬ item.Continues →
        shapeDefinition names (Cursor.start (extraText gap items ++ '{' :: (inner ++ ['}']))).bound
            (Cursor.start (extraText gap items ++ '{' :: (inner ++ ['}']))) =
          .error (((Cursor.start (extraText gap items ++ '{' :: (inner ++ ['}']))).advance
            (extraText gap front).length).fault (.expected "\x7b")) := by
  constructor
  · constructor
    · intro reads
      by_contra someEnds
      obtain ⟨front, item, back, rfl, continues, ends⟩ := exists_first_ending someEnds
      obtain ⟨c, read, -⟩ := reads
      rw [shapeDefinition_refuses_at names noBase gap continues ends back _ rfl] at read
      cases read
    · intro continues
      apply shapeDefinition_reads names noBase continues _ gap blank
      have fits := length_le_extraText gap items
      simp only [Cursor.bound, Cursor.start, List.length_append]
      omega
  · rintro front item back rfl continues ends
    exact shapeDefinition_refuses_at names noBase gap continues ends back _ rfl

/-- A list over several lines is read, and one with a tabulator behind the word
is refused at the word. -/
theorem shapeDefinition_extra_iff_tabulator :
    ReadsWhole (shapeDefinition {}) "EXTRA\ta <p>\r\n\t<q>\n\x7b\n\x7d".toList
        (.shape none false [.string rdfType, .string "p", .string "q"]) ∧
      shapeDefinition {} (Cursor.start "EXTRA a\t\x7b \x7d".toList).bound
        (Cursor.start "EXTRA a\t\x7b \x7d".toList) =
        .error (.malformed (.expected "\x7b") 6 "EXTRA a\t\x7b \x7d") := by
  let space : Gap := ⟨' ', [], List.all_eq_true.mp (by decide)⟩
  let tabulator : Gap := ⟨'\t', [], List.all_eq_true.mp (by decide)⟩
  let newline : Gap := ⟨'\n', [], List.all_eq_true.mp (by decide)⟩
  let indented : Gap := ⟨'\r', ['\n', '\t'], List.all_eq_true.mp (by decide)⟩
  constructor
  · apply (shapeDefinition_extra_iff {} rfl tabulator
      [⟨.word, space⟩, ⟨.iri ['p'] (by decide), indented⟩, ⟨.iri ['q'] (by decide), newline⟩]
        newline.text newline.blank).1.mpr
    decide
  · exact (shapeDefinition_extra_iff {} rfl space [⟨.word, tabulator⟩] space.text space.blank).2 []
      ⟨.word, tabulator⟩ [] rfl (by decide) (by decide)

end Scan

end ShapeQuery.Compact
