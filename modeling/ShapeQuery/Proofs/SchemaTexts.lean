import ShapeQuery.Proofs.Change
import ShapeQuery.Proofs.NumberTexts
import ShapeQuery.Proofs.Renaming

/-!
The texts that a schema contributes to a query. If no string of the schema has the mark of fresh
variables in it, the texts of its values have not either, so renaming fresh variables changes a line
that is written for a leaf of the schema only in the variables that the line is written for.
-/
namespace ShapeQuery

/-! ### The strings of a schema -/

namespace Json

mutual

/-- The strings in a value, names of fields included. -/
def strings : Json → List String
  | .string text => [text]
  | .illFormed codes => [mended codes]
  | .array items => stringsOfItems items
  | .object fields => stringsOfFields fields
  | _ => []

def stringsOfItems : List Json → List String
  | [] => []
  | item :: items => item.strings ++ stringsOfItems items

def stringsOfFields : List (String × Json) → List String
  | [] => []
  | (name, value) :: fields => name :: (value.strings ++ stringsOfFields fields)

end

end Json

def Stem.strings : Stem → List String
  | .text start => start.strings
  | .wildcard => []

def Exclusion.strings : Exclusion → List String
  | .value excluded => excluded.strings
  | .stem start => start.strings

def ValueSetEntry.strings : ValueSetEntry → List String
  | .iri name => [name]
  | .literal value datatype tag => value.strings ++ datatype.strings ++ tag.strings
  | .language tag => tag.strings
  | .stem _ start => start.strings
  | .range _ start exclusions => start.strings ++ exclusions.flatMap Exclusion.strings

def NodeConstraint.strings (nc : NodeConstraint) : List String :=
  nc.datatype.strings ++ (nc.values.getD []).flatMap ValueSetEntry.strings ++
    [nc.length, nc.minLength, nc.maxLength, nc.pattern, nc.flags, nc.minInclusive, nc.minExclusive,
      nc.maxInclusive, nc.maxExclusive].flatMap Json.strings

namespace Compile

/-- The strings that a leaf contributes to a query. -/
def Leaf.strings : Leaf → List String
  | .predicate name => name.strings
  | .node nc => nc.strings
  | _ => []

end Compile

/-- The strings of a schema that queries are written with. -/
def Schema.strings (schema : Schema) : List String :=
  schema.leaves.flatMap Compile.Leaf.strings

namespace Compile

/-- Strings in which the mark of fresh variables does not occur. -/
def AllUnmarked (strings : List String) : Prop :=
  ∀ text ∈ strings, Unmarked text.toList

instance (strings : List String) : Decidable (AllUnmarked strings) :=
  inferInstanceAs (Decidable (∀ text ∈ strings, Unmarked text.toList))

theorem allUnmarked_append {front back : List String} :
    AllUnmarked (front ++ back) ↔ AllUnmarked front ∧ AllUnmarked back :=
  List.forall_mem_append

theorem allUnmarked_flatMap {α : Type} {f : α → List String} {items : List α} :
    AllUnmarked (items.flatMap f) ↔ ∀ item ∈ items, AllUnmarked (f item) :=
  List.forall_mem_flatMap

/-! ### Texts that stay when fresh variables are renamed -/

/-- A text that stays, however fresh variables are renamed. What a schema
contributes to a query has to be of this kind. -/
def FixedText (text : String) : Prop :=
  ∀ renumber, renameFresh renumber text = text

theorem fixed_plain {text : String} (plain : isPlain text = true) : FixedText text :=
  renameFresh_plain plain

/-- The mark of fresh variables does not start within a text without question marks. -/
theorem infix_of_plain_append {front back : List Char} (plain : '?' ∉ front)
    (inside : freshMark <:+: front ++ back) : freshMark <:+: back := by
  induction front with
  | nil => exact inside
  | cons c rest ih =>
    rw [List.mem_cons, not_or] at plain
    rcases List.infix_cons_iff.mp inside with start | later
    · exact absurd (List.cons_prefix_cons.mp start).1 plain.1
    · exact ih plain.2 later

/-- A way of writing things that stand for characters: as these characters, or
as a backslash with something behind it. -/
def Escapes {α : Type} (char : α → Char) (escape : α → List Char) : Prop :=
  ∀ a, escape a = [char a] ∨ ∃ rest, escape a = '\\' :: rest ∧ '?' ∉ rest

section Escapes

variable {α : Type} {char : α → Char} {escape : α → List Char}

/-- What an escaped text starts with, without a backslash in it, the text
itself starts with. Induction on what is left of the text. -/
theorem prefix_of_prefix_flatMap (escapes : Escapes char escape) :
    ∀ {start : List Char} {items : List α}, '\\' ∉ start → start <+: items.flatMap escape →
      start <+: items.map char
  | [], _, _, _ => List.nil_prefix
  | c :: rest, [], _, start => start
  | c :: rest, a :: more, plain, start => by
    rw [List.mem_cons, not_or] at plain
    rw [List.flatMap_cons] at start
    rcases escapes a with same | ⟨tail, escaped, -⟩
    · rw [same, List.singleton_append, List.cons_prefix_cons] at start
      rw [List.map_cons, List.cons_prefix_cons]
      exact ⟨start.1, prefix_of_prefix_flatMap escapes plain.2 start.2⟩
    · rw [escaped, List.cons_append, List.cons_prefix_cons] at start
      exact absurd start.1.symm plain.1

/-- Escaping brings no mark of fresh variables about, as it only puts
backslashes and what follows them between. -/
theorem unmarked_flatMap (escapes : Escapes char escape) {items : List α}
    (unmarked : Unmarked (items.map char)) : Unmarked (items.flatMap escape) := by
  induction items with
  | nil => exact unmarked
  | cons a rest ih =>
    intro inside
    have restUnmarked : Unmarked (rest.map char) := fun later => unmarked (List.infix_cons later)
    -- The mark has no backslash in it, so it can start only at a character
    -- that is written as it is.
    rcases escapes a with same | ⟨tail, escaped, plain⟩
    · have written : (a :: rest).flatMap escape = char a :: rest.flatMap escape := by
        rw [List.flatMap_cons, same, List.singleton_append]
      rw [written] at inside
      rcases List.infix_cons_iff.mp inside with start | later
      · rw [← written] at start
        exact unmarked (prefix_of_prefix_flatMap escapes (by decide) start).isInfix
      · exact ih restUnmarked later
    · rw [List.flatMap_cons, escaped] at inside
      refine ih restUnmarked (infix_of_plain_append ?_ inside)
      simpa using plain

end Escapes

theorem escapes_literal : Escapes id escapeLiteralChar := by
  intro c
  unfold escapeLiteralChar
  split
  · exact Or.inr ⟨_, rfl, by decide⟩
  · exact Or.inr ⟨_, rfl, by decide⟩
  · exact Or.inr ⟨_, rfl, by decide⟩
  · exact Or.inr ⟨_, rfl, by decide⟩
  · exact Or.inl rfl

theorem isWord_of_mem_hexDigits (width number : Nat) :
    ∀ c ∈ Text.hexDigits width number, Text.isWord c = true := by
  induction width generalizing number with
  | zero => exact List.forall_mem_nil _
  | succ width ih =>
    refine List.forall_mem_append.mpr ⟨ih _, List.forall_mem_singleton.mpr ?_⟩
    exact isWord_digitChar _ (Nat.mod_lt _ (by decide))

theorem mark_not_mem_hexDigits (width number : Nat) : '?' ∉ Text.hexDigits width number :=
  fun member => ne_mark_of_isWord (isWord_of_mem_hexDigits width number '?' member) rfl

theorem mark_not_mem_unit {letter : Char} {width number : Nat} (different : '?' ≠ letter) :
    '?' ∉ letter :: Text.hexDigits width number := by
  rw [List.mem_cons, not_or]
  exact ⟨different, mark_not_mem_hexDigits width number⟩

theorem escapes_quoted {mark : Char} (other : mark ≠ '?') : Escapes id (Text.escapeChar mark) := by
  intro c
  unfold Text.escapeChar
  split_ifs with special
  · refine Or.inr ⟨_, rfl, ?_⟩
    rcases special with rfl | rfl
    · simpa using other.symm
    · decide
  · exact Or.inr ⟨_, rfl, by decide⟩
  · exact Or.inr ⟨_, rfl, by decide⟩
  · exact Or.inr ⟨_, rfl, by decide⟩
  · exact Or.inl rfl
  · exact Or.inr ⟨_, rfl, mark_not_mem_unit (by decide)⟩
  · exact Or.inr ⟨_, rfl, mark_not_mem_unit (by decide)⟩
  · exact Or.inr ⟨_, rfl, mark_not_mem_unit (by decide)⟩

theorem escapes_quotedCodes {mark : Char} (other : mark ≠ '?') :
    Escapes Json.unitChar (Text.escapeCode mark) := by
  intro code
  unfold Text.escapeCode Json.unitChar
  split
  · exact escapes_quoted other (Char.ofNat code)
  · exact Or.inr ⟨_, rfl, mark_not_mem_unit (by decide)⟩

theorem fixed_quotes {α : Type} {quote : Char} (divider : Template.isDivider quote = true)
    {char : α → Char} {escape : α → List Char} (escapes : Escapes char escape) {items : List α}
    (unmarked : Unmarked (items.map char)) :
    FixedText (String.ofList (quote :: items.flatMap escape ++ [quote])) := by
  intro renumber
  have whole := read_enclosed divider divider (read_unmarked (unmarked_flatMap escapes unmarked))
  rw [renameFresh, String.toList_ofList, whole, Template.fill_chars]

/-- A string without the mark stays in a literal, whatever is escaped in it. -/
theorem fixed_quote {text : String} (unmarked : Unmarked text.toList) : FixedText (quote text) := by
  rw [quote_eq]
  exact fixed_quotes (by decide) escapes_literal (by rwa [List.map_id])

theorem fixed_quoted {text : String} (unmarked : Unmarked text.toList) :
    FixedText (Text.quoted text) := by
  rw [← List.map_id text.toList] at unmarked
  unfold Text.quoted Text.quoteMark
  dsimp only
  split
  · exact fixed_quotes (by decide) (escapes_quoted (by decide)) unmarked
  · exact fixed_quotes (by decide) (escapes_quoted (by decide)) unmarked

theorem fixed_quotedCodes {codes : List Nat} (unmarked : Unmarked (Json.mended codes).toList) :
    FixedText (Text.quotedCodes codes) := by
  rw [Json.mended, String.toList_ofList] at unmarked
  unfold Text.quotedCodes Text.quoteMark
  dsimp only
  split
  · exact fixed_quotes (by decide) (escapes_quotedCodes (by decide)) unmarked
  · exact fixed_quotes (by decide) (escapes_quotedCodes (by decide)) unmarked

/-! ### Texts of values -/

/-- The text of a number has no mark of a variable in it. -/
theorem fixed_numberChars {text : String} (numbers : NumberChars text.toList) : FixedText text :=
  fixed_plain (isPlain_iff.mpr (numbers.not_mem (by decide)))

mutual

/-- The written form of a value stays if all its strings do. Induction on the
value, together with items and fields. -/
theorem fixed_literal : ∀ {value : Json}, AllUnmarked value.strings → FixedText value.literal
  | .null, _ => by
    rw [Json.literal]
    exact fixed_plain (by decide)
  | .bool true, _ => by
    rw [Json.literal]
    exact fixed_plain (by decide)
  | .bool false, _ => by
    rw [Json.literal]
    exact fixed_plain (by decide)
  | .int number, _ => by
    rw [Json.literal]
    exact fixed_numberChars (numberChars_decimalText number)
  | .float x, _ => by
    rw [Json.literal]
    exact fixed_numberChars (Double.numberChars_text x)
  | .string text, unmarked => by
    rw [Json.literal]
    exact fixed_quoted (unmarked text (by simp [Json.strings]))
  | .illFormed codes, unmarked => by
    rw [Json.literal]
    exact fixed_quotedCodes (unmarked _ (by simp [Json.strings]))
  | .array items, unmarked => by
    rw [Json.strings] at unmarked
    intro renumber
    rw [Json.literal]
    simp (disch := decide) only [renameFresh_before, renameFresh_plain_append,
      renameFresh_intercalate, fixed_literals unmarked]
  | .object fields, unmarked => by
    rw [Json.strings] at unmarked
    intro renumber
    rw [Json.literal]
    simp (disch := decide) only [renameFresh_before, renameFresh_plain_append,
      renameFresh_intercalate, fixed_fieldLiterals unmarked]

theorem fixed_literals : ∀ {items : List Json}, AllUnmarked (Json.stringsOfItems items) →
    ∀ renumber, (Json.literals items).map (renameFresh renumber) = Json.literals items
  | [], _, _ => by rw [Json.literals, List.map_nil]
  | item :: items, unmarked, renumber => by
    rw [Json.stringsOfItems, allUnmarked_append] at unmarked
    rw [Json.literals, List.map_cons, fixed_literal unmarked.1 renumber,
      fixed_literals unmarked.2 renumber]

theorem fixed_fieldLiterals : ∀ {fields : List (String × Json)},
    AllUnmarked (Json.stringsOfFields fields) →
    ∀ renumber, (Json.fieldLiterals fields).map (renameFresh renumber) = Json.fieldLiterals fields
  | [], _, _ => by rw [Json.fieldLiterals, List.map_nil]
  | (name, value) :: fields, unmarked, renumber => by
    rw [Json.stringsOfFields] at unmarked
    obtain ⟨own, others⟩ := List.forall_mem_cons.mp unmarked
    obtain ⟨inside, rest⟩ := allUnmarked_append.mp others
    rw [Json.fieldLiterals, List.map_cons, fixed_fieldLiterals rest renumber,
      renameFresh_between (by decide) (by decide) (by decide), fixed_quoted own renumber,
      fixed_literal inside renumber]

end

/-- A value is shown as its string or as its written form, and both stay. -/
theorem fixed_display {value : Json} (unmarked : AllUnmarked value.strings) :
    FixedText value.display := by
  cases value with
  | string text =>
    exact renameFresh_unmarked (unmarked text (by simp [Json.strings]))
  | illFormed codes =>
    exact renameFresh_unmarked (unmarked (Json.mended codes) (by simp [Json.strings]))
  | null | bool | int | float | array | object => exact fixed_literal unmarked

theorem fixed_numberText {value : Json} (unmarked : AllUnmarked value.strings) :
    FixedText (numberText value) := by
  have shown := fixed_display unmarked
  unfold numberText
  split
  · next x =>
    split
    · split
      · next number _ => exact fixed_numberChars (numberChars_decimalText number)
      · exact shown
    · exact shown
  · exact shown

/-! ### Lines for leaves -/

section Lines

variable (renumber : Nat → Nat)

/-- Checked results that differ by a change of values, step by step. -/
theorem checked_map_bind {α β γ δ : Type} {f : α → β} {g : γ → δ} {checked : Checked α}
    {other : Checked β} {next : α → Checked γ} {nextOther : β → Checked δ}
    (first : other = checked.map f)
    (second : ∀ result, nextOther (f result) = (next result).map g) :
    (other >>= nextOther) = (checked >>= next).map g := by
  subst first
  cases checked with
  | error misuse => rfl
  | ok result => exact second result

/-- The same for all items of a list, if it holds for each of them. -/
theorem checked_map_mapM {α β γ : Type} {g : β → γ} {f : α → Checked β} {other : α → Checked γ}
    {items : List α} (each : ∀ item ∈ items, other item = (f item).map g) :
    items.mapM other = (items.mapM f).map (List.map g) := by
  induction items with
  | nil => rfl
  | cons item rest ih =>
    rw [List.forall_mem_cons] at each
    rw [List.mapM_cons, List.mapM_cons]
    refine checked_map_bind each.1 fun result => checked_map_bind (ih each.2) fun results => rfl

theorem checked_map_pure {α β : Type} (f : α → β) (result : α) :
    (pure result : Checked α).map f = pure (f result) := rfl

theorem quoteValue_fixed {value : Json} (unmarked : AllUnmarked value.strings) :
    quoteValue value = (quoteValue value).map (renameFresh renumber) := by
  cases value with
  | string text =>
    have kept := fixed_quote (unmarked text (by simp [Json.strings])) renumber
    rw [quoteValue, Except.map, kept]
  | illFormed codes =>
    have kept := fixed_quote (unmarked (Json.mended codes) (by simp [Json.strings])) renumber
    rw [quoteValue, Except.map, kept]
  | null | bool | int | float | array | object => rfl

/-- A literal stays if its value, its datatype and its language do. -/
theorem literalTerm_fixed {value datatype language : Json} (ofValue : AllUnmarked value.strings)
    (ofDatatype : AllUnmarked datatype.strings) (ofLanguage : AllUnmarked language.strings) :
    literalTerm value datatype language =
      (literalTerm value datatype language).map (renameFresh renumber) := by
  refine checked_map_bind (quoteValue_fixed renumber ofValue) fun text => ?_
  rw [checked_map_pure]
  split
  · rw [renameFresh_between (by decide) (by decide) (by decide), fixed_display ofLanguage]
  · split
    · rw [renameFresh_before (by decide) (by decide),
        renameFresh_between (by decide) (by decide) (by decide), fixed_display ofDatatype]
    · rfl

/-- A call is renamed in its arguments, as the name of the function and the
brackets have no variable. -/
theorem renameFresh_call {name : String} (plain : isPlain name = true) (arguments : List String) :
    renameFresh renumber (call name arguments) =
      call name (arguments.map (renameFresh renumber)) := by
  unfold call
  rw [renameFresh_before (by decide) (by decide), String.append_assoc,
    renameFresh_plain_append plain, renameFresh_plain_append (by decide),
    renameFresh_intercalate (by decide) (by decide) (by decide), ← String.append_assoc]

theorem startsTest_renameFresh {stem : Json} (unmarked : AllUnmarked stem.strings) (var : String) :
    startsTest (renameFresh renumber var) stem =
      (startsTest var stem).map (renameFresh renumber) := by
  refine checked_map_bind (quoteValue_fixed renumber unmarked) fun text => ?_
  simp (disch := decide) only [checked_map_pure, renameFresh_call, List.map_cons, List.map_nil]

theorem languageTest_renameFresh {stem : Json} (unmarked : AllUnmarked stem.strings)
    (var : String) :
    languageTest (renameFresh renumber var) stem =
      (languageTest var stem).map (renameFresh renumber) := by
  have range : AllUnmarked (if stem.truthy then stem else Json.string "*").strings := by
    split
    · exact unmarked
    · rw [Json.strings]
      exact List.forall_mem_singleton.mpr (by decide)
  refine checked_map_bind (quoteValue_fixed renumber range) fun text => ?_
  simp (disch := decide) only [checked_map_pure, renameFresh_call, List.map_cons, List.map_nil]

/-- The test of a stem is renamed in its variable alone. -/
theorem stemTest_renameFresh (kind : StemKind) {stem : Json} (unmarked : AllUnmarked stem.strings)
    (var : String) :
    stemTest (renameFresh renumber var) kind stem =
      (stemTest var kind stem).map (renameFresh renumber) := by
  cases kind with
  | language => exact languageTest_renameFresh renumber unmarked var
  | iri | literal => exact startsTest_renameFresh renumber unmarked var

theorem rangeStemTest_renameFresh (kind : StemKind) {stem : Stem}
    (unmarked : AllUnmarked stem.strings) (var : String) :
    rangeStemTest (renameFresh renumber var) kind stem =
      (rangeStemTest var kind stem).map (renameFresh renumber) := by
  have every : renameFresh renumber (quote ".*") = quote ".*" :=
    renameFresh_plain (by decide) renumber
  cases stem with
  | text start => exact stemTest_renameFresh renumber kind unmarked var
  | wildcard =>
    cases kind <;>
      simp (disch := decide) only [rangeStemTest, Except.map, renameFresh_before, renameFresh_call,
        List.map_cons, List.map_nil, every]

/-- The test of an exclusion is renamed in its variable alone. -/
theorem exclusionTest_renameFresh (kind : StemKind) {exclusion : Exclusion}
    (unmarked : AllUnmarked exclusion.strings) (var : String) :
    exclusionTest (renameFresh renumber var) kind exclusion =
      (exclusionTest var kind exclusion).map (renameFresh renumber) := by
  cases exclusion with
  | stem start =>
    refine checked_map_bind (stemTest_renameFresh renumber kind unmarked var) fun text => ?_
    simp (disch := decide) only [checked_map_pure, renameFresh_before, renameFresh_plain_append]
  | value excluded =>
    rw [Exclusion.strings] at unmarked
    cases kind with
    | iri =>
      simp (disch := decide) only [exclusionTest, Except.map, renameFresh_before,
        renameFresh_between, renameFresh_plain_append, fixed_display unmarked renumber]
    | language | literal =>
      refine checked_map_bind (quoteValue_fixed renumber unmarked) fun text => ?_
      simp (disch := decide) only [checked_map_pure, renameFresh_before, renameFresh_between,
        renameFresh_plain_append, renameFresh_call, List.map_cons, List.map_nil]

def EntryPart.renameFresh : EntryPart → EntryPart
  | .term text => .term (Compile.renameFresh renumber text)
  | .condition text => .condition (Compile.renameFresh renumber text)

theorem conditions_renameFresh (parts : List EntryPart) :
    (parts.map (EntryPart.renameFresh renumber)).filterMap EntryPart.condition? =
      (parts.filterMap EntryPart.condition?).map (renameFresh renumber) := by
  rw [List.filterMap_map, List.map_filterMap]
  congr 1
  funext part
  cases part <;> rfl

theorem terms_renameFresh (parts : List EntryPart) :
    (parts.map (EntryPart.renameFresh renumber)).filterMap EntryPart.term? =
      (parts.filterMap EntryPart.term?).map (renameFresh renumber) := by
  rw [List.filterMap_map, List.map_filterMap]
  congr 1
  funext part
  cases part <;> rfl

/-- What an entry contributes is renamed in the variable, and a plain term not
at all. One case for each kind of entry. -/
theorem entryPart_renameFresh {entry : ValueSetEntry} (unmarked : AllUnmarked entry.strings)
    (var : String) :
    entryPart (renameFresh renumber var) entry =
      (entryPart var entry).map (EntryPart.renameFresh renumber) := by
  cases entry with
  | iri name =>
    have kept := renameFresh_unmarked (unmarked name (by simp [ValueSetEntry.strings])) renumber
    simp (disch := decide) only [entryPart, Except.map, EntryPart.renameFresh, renameFresh_before,
      renameFresh_plain_append, kept]
  | literal value datatype tag =>
    rw [ValueSetEntry.strings, allUnmarked_append, allUnmarked_append] at unmarked
    exact checked_map_bind (literalTerm_fixed renumber unmarked.1.1 unmarked.1.2 unmarked.2)
      fun _ => rfl
  | language tag =>
    refine checked_map_bind (quoteValue_fixed renumber unmarked) fun text => ?_
    simp (disch := decide) only [checked_map_pure, EntryPart.renameFresh, renameFresh_between,
      renameFresh_call, List.map_cons, List.map_nil]
  | stem kind start =>
    exact checked_map_bind (stemTest_renameFresh renumber kind unmarked var) fun _ => rfl
  | range kind start exclusions =>
    rw [ValueSetEntry.strings, allUnmarked_append, allUnmarked_flatMap] at unmarked
    have others := checked_map_mapM fun exclusion member =>
      exclusionTest_renameFresh renumber kind (unmarked.2 exclusion member) var
    refine checked_map_bind (rangeStemTest_renameFresh renumber kind unmarked.1 var) fun first =>
      checked_map_bind others fun rest => ?_
    simp (disch := decide) only [checked_map_pure, EntryPart.renameFresh, renameFresh_intercalate,
      List.map_cons]

theorem alternativesLine_renameFresh (conditions : List String) :
    alternativesLine (conditions.map (renameFresh renumber)) =
      (alternativesLine conditions).map (renameFresh renumber) := by
  unfold alternativesLine
  cases conditions with
  | nil => rfl
  | cons first rest =>
    cases rest with
    | nil => simp only [List.map_cons, List.map_nil, renameFresh_filterLine]
    | cons second more =>
      have inBrackets : ∀ condition, renameFresh renumber ("(" ++ condition ++ ")") =
          "(" ++ renameFresh renumber condition ++ ")" := by
        intro condition
        simp (disch := decide) only [renameFresh_before, renameFresh_plain_append]
      simp (disch := decide) only [List.map_cons, List.map_nil, List.map_map, Function.comp_def,
        renameFresh_filterLine, renameFresh_intercalate, inBrackets]

theorem valuesLine_renameFresh (var : String) (terms : List String) :
    valuesLine (renameFresh renumber var) (terms.map (renameFresh renumber)) =
      (valuesLine var terms).map (renameFresh renumber) := by
  unfold valuesLine
  rw [List.isEmpty_map]
  split
  · rfl
  · simp (disch := decide) only [List.map_cons, List.map_nil, renameFresh_before,
      renameFresh_between, renameFresh_plain_append, renameFresh_intercalate]

/-- The lines of a value set are renamed in their variable, as each
contribution is. -/
theorem valuesLines_renameFresh {values : Option (List ValueSetEntry)}
    (unmarked : ∀ entry ∈ values.getD [], AllUnmarked entry.strings) (var : String) :
    valuesLines (renameFresh renumber var) values =
      (valuesLines var values).map (List.map (renameFresh renumber)) := by
  cases values with
  | none => rfl
  | some entries =>
    have parts := checked_map_mapM fun entry member =>
      entryPart_renameFresh renumber (unmarked entry member) var
    refine checked_map_bind parts fun parts => ?_
    rw [conditions_renameFresh, terms_renameFresh, alternativesLine_renameFresh,
      valuesLine_renameFresh, checked_map_pure, List.map_append]

theorem nodeKindLine_renameFresh (var : String) (kind : Option NodeKind) :
    nodeKindLine (renameFresh renumber var) kind =
      (nodeKindLine var kind).map (renameFresh renumber) := by
  cases kind with
  | none => rfl
  | some kind =>
    cases kind <;>
      simp (disch := decide) only [nodeKindLine, nodeKindTest, List.map_cons, List.map_nil,
        renameFresh_filterLine, renameFresh_plain_append, renameFresh_call]

theorem datatypeLine_renameFresh {datatype : Json} (unmarked : AllUnmarked datatype.strings)
    (var : String) :
    datatypeLine (renameFresh renumber var) datatype =
      (datatypeLine var datatype).map (renameFresh renumber) := by
  unfold datatypeLine
  split
  · simp (disch := decide) only [List.map_cons, List.map_nil, renameFresh_filterLine,
      renameFresh_before, renameFresh_between, renameFresh_call, fixed_display unmarked renumber]
  · rfl

def comparisons : List String := ["=", ">=", "<=", ">", "<"]

theorem renameFresh_comparison {operator : String} (known : operator ∈ comparisons)
    (left right : String) :
    renameFresh renumber (left ++ " " ++ operator ++ " " ++ right) =
      renameFresh renumber left ++ " " ++ operator ++ " " ++ renameFresh renumber right := by
  have fixed : isPlain (" " ++ operator ++ " ") = true ∧
    opensApart (" " ++ operator ++ " ") = true ∧
      closesApart (" " ++ operator ++ " ") = true := by
    revert operator
    decide
  have whole := renameFresh_between fixed.1 fixed.2.1 fixed.2.2 renumber left right
  simpa only [String.append_assoc] using whole

theorem lengthLine_renameFresh {operator : String} (known : operator ∈ comparisons) {facet : Json}
    (unmarked : AllUnmarked facet.strings) (var : String) :
    lengthLine (renameFresh renumber var) operator facet =
      (lengthLine var operator facet).map (renameFresh renumber) := by
  unfold lengthLine
  split
  · rfl
  · simp (disch := decide) only [List.map_cons, List.map_nil, renameFresh_filterLine,
      renameFresh_comparison renumber known, renameFresh_call, fixed_display unmarked renumber]

/-- A bound is renamed in its variable, and the number that it compares with stays. -/
theorem boundLine_renameFresh {operator : String} (known : operator ∈ comparisons) {facet : Json}
    (unmarked : AllUnmarked facet.strings) (var : String) :
    boundLine (renameFresh renumber var) operator facet =
      (boundLine var operator facet).map (renameFresh renumber) := by
  unfold boundLine
  split
  · rfl
  · simp only [List.map_cons, List.map_nil, renameFresh_filterLine,
      renameFresh_comparison renumber known, fixed_numberText unmarked renumber]

theorem patternLine_renameFresh {pattern flags : Json} (ofPattern : AllUnmarked pattern.strings)
    (ofFlags : AllUnmarked flags.strings) (var : String) :
    patternLine (renameFresh renumber var) pattern flags =
      (patternLine var pattern flags).map (List.map (renameFresh renumber)) := by
  unfold patternLine
  split
  · rfl
  · refine checked_map_bind (quoteValue_fixed renumber ofPattern) fun text => ?_
    split
    · refine checked_map_bind (quoteValue_fixed renumber ofFlags) fun letters => ?_
      simp (disch := decide) only [checked_map_pure, renameFresh_filterLine, renameFresh_call,
        List.map_cons, List.map_nil]
    · simp (disch := decide) only [checked_map_pure, renameFresh_filterLine, renameFresh_call,
        List.map_cons, List.map_nil]

/-- The facets of a constraint are renamed in their variable, line by line. -/
theorem facetLines_renameFresh {nc : NodeConstraint} (unmarked : AllUnmarked nc.strings)
    (var : String) :
    facetLines nc (renameFresh renumber var) =
      (facetLines nc var).map (List.map (renameFresh renumber)) := by
  rw [NodeConstraint.strings, allUnmarked_append] at unmarked
  obtain ⟨-, facets⟩ := unmarked
  simp only [List.flatMap_cons, List.flatMap_nil, List.append_nil, allUnmarked_append] at facets
  obtain ⟨length, minLength, maxLength, pattern, flags, minInclusive, minExclusive, maxInclusive,
    maxExclusive⟩ := facets
  refine checked_map_bind (patternLine_renameFresh renumber pattern flags var) fun lines => ?_
  rw [lengthLine_renameFresh renumber (by decide) length,
    lengthLine_renameFresh renumber (by decide) minLength,
    lengthLine_renameFresh renumber (by decide) maxLength,
    boundLine_renameFresh renumber (by decide) minInclusive,
    boundLine_renameFresh renumber (by decide) minExclusive,
    boundLine_renameFresh renumber (by decide) maxInclusive,
    boundLine_renameFresh renumber (by decide) maxExclusive]
  simp only [checked_map_pure, List.map_append]

/-- The lines for a constraint are renamed in their variable. Nothing that
comes from the schema is touched, as the mark does not occur in it. -/
theorem constraintLines_renameFresh {nc : NodeConstraint} (unmarked : AllUnmarked nc.strings)
    (var : String) :
    constraintLines nc (renameFresh renumber var) =
      (constraintLines nc var).map (List.map (renameFresh renumber)) := by
  have facets := facetLines_renameFresh renumber unmarked var
  rw [NodeConstraint.strings, allUnmarked_append, allUnmarked_append,
    allUnmarked_flatMap] at unmarked
  obtain ⟨⟨datatype, values⟩, -⟩ := unmarked
  refine checked_map_bind (valuesLines_renameFresh renumber values var) fun values =>
    checked_map_bind facets fun facets => ?_
  rw [datatypeLine_renameFresh renumber datatype, nodeKindLine_renameFresh]
  simp only [checked_map_pure, List.map_append]

/-- A triple pattern is renamed in its ends, and its predicate stays. -/
theorem triplePattern_renameFresh {predicate : Json} (unmarked : AllUnmarked predicate.strings)
    (subject object : String) (inverse : Bool) :
    renameFresh renumber (triplePattern subject predicate.display object inverse) =
      triplePattern (renameFresh renumber subject) predicate.display (renameFresh renumber object)
        inverse := by
  unfold triplePattern
  split <;>
    simp (disch := decide) only [renameFresh_before, renameFresh_between,
      fixed_display unmarked renumber]

end Lines

end Compile

end ShapeQuery
