import ShapeQuery.Proofs.Conditions
import ShapeQuery.Proofs.LinesInside
import ShapeQuery.Proofs.Linked

/-!
Every filter is well bracketed. A condition is put together from calls, quoted strings, numbers, and
the IRIs and terms that are written as they are. Strings are closed whatever they hold, so the
brackets of a condition are closed as long as those of its IRIs and terms are. Filters can then be
merged: what is behind the keyword is one condition in brackets.
-/
namespace ShapeQuery

def Exclusion.value? : Exclusion → Option Json
  | .value excluded => some excluded
  | .stem _ => none

/-- The IRIs that the condition of an entry is written with. -/
def ValueSetEntry.filterIris : ValueSetEntry → List Json
  | .range .iri _ exclusions => exclusions.filterMap Exclusion.value?
  | _ => []

/-- The IRIs that the filters of a node constraint are written with: the
datatype, and what ranges of IRIs leave out. -/
def NodeConstraint.filterIris (nc : NodeConstraint) : List Json :=
  nc.datatype :: (nc.values.getD []).flatMap ValueSetEntry.filterIris

def Compile.Leaf.filterIris : Compile.Leaf → List Json
  | .node nc => nc.filterIris
  | _ => []

/-- The IRIs of a schema that filters are written with. -/
def Schema.filterIris (schema : Schema) : List Json :=
  schema.leaves.flatMap Compile.Leaf.filterIris

namespace Condition

open Compile

/-! ### Closed texts -/

def IsBare (text : String) : Prop :=
  ∀ c ∈ text.toList, c ∉ ['(', ')', '"']

instance (text : String) : Decidable (IsBare text) :=
  decidable_of_decidable_of_iff (p := text.toList.all
    (fun c => !(['(', ')', '"'].contains c)) = true)
    (by simp [IsBare])

/-- Without brackets and quotes there is nothing to be closed. -/
theorem balanced_of_bare {text : List Char} (bare : ∀ c ∈ text, c ∉ ['(', ')', '"']) :
    Balanced text := by
  induction text with
  | nil => rfl
  | cons c rest ih =>
    obtain ⟨first, others⟩ := List.forall_mem_cons.mp bare
    simp only [List.mem_cons, List.not_mem_nil, or_false, not_or] at first
    have stays : Place.after {} c = some {} := by simp [Place.after, first]
    rw [Balanced, Place.through, stays]
    exact ih others

theorem IsBare.closed {text : String} (bare : IsBare text) : Closed text :=
  balanced_of_bare bare

theorem IsBare.append {front back : String} (first : IsBare front) (second : IsBare back) :
    IsBare (front ++ back) := by
  rw [IsBare, String.toList_append]
  exact List.forall_mem_append.mpr ⟨first, second⟩

/-- A text is bare if its characters pass a test that brackets and quotes fail. -/
theorem isBare_of_test {test : Char → Bool} (fails : ['(', ')', '"'].any test = false)
    {text : String} (each : ∀ c ∈ text.toList, test c = true) : IsBare text := by
  intro c member special
  exact List.any_eq_false.mp fails c special (each c member)

theorem isBare_of_numberChars {text : String} (numbers : NumberChars text.toList) : IsBare text :=
  isBare_of_test (by decide) numbers

/-- Closed texts stay closed side by side, for each of them ends at the depth
and in the mode that it starts in. -/
theorem Closed.append {front back : String} (first : Closed front) (second : Closed back) :
    Closed (front ++ back) := by
  rw [Closed, String.toList_append]
  exact Balanced.append first second

/-- Brackets around a closed text are closed by each other. -/
theorem Closed.enclosed {text : String} (closed : Closed text) : Closed ("(" ++ text ++ ")") := by
  have brackets : ("(" ++ text ++ ")").toList = bracketed text.toList := by simp [bracketed]
  rw [Closed, brackets]
  exact Balanced.bracketed closed

/-- Closed texts with a closed separator between them. Induction on the texts. -/
theorem closed_intercalate {separator : String} (between : Closed separator) {texts : List String}
    (each : ∀ text ∈ texts, Closed text) : Closed (separator.intercalate texts) := by
  induction texts with
  | nil => rfl
  | cons first rest ih =>
    obtain ⟨here, others⟩ := List.forall_mem_cons.mp each
    cases rest with
    | nil => simpa using here
    | cons second rest =>
      rw [String.intercalate_cons_cons]
      exact (here.append between).append (ih others)

/-- A call with closed arguments is closed: its name has no brackets, and the
arguments stand between the two that it adds. -/
theorem closed_call {name : String} (bare : IsBare name) {arguments : List String}
    (each : ∀ argument ∈ arguments, Closed argument) : Closed (call name arguments) := by
  have separator : Closed ", " := by decide
  have parts : call name arguments = name ++ ("(" ++ ", ".intercalate arguments ++ ")") := by
    simp only [call, String.append_assoc]
  rw [parts]
  exact bare.closed.append (closed_intercalate separator each).enclosed

/-- A quote in a string is escaped, and so is a backslash. -/
theorem through_escapeLiteralChar (depth : Nat) (c : Char) :
    Place.through ⟨.string, depth⟩ (escapeLiteralChar c) = some ⟨.string, depth⟩ := by
  unfold escapeLiteralChar
  split
  · rfl
  · rfl
  · rfl
  · rfl
  · next noBackslash noQuote _ _ =>
    rw [Place.through, Place.after, if_neg noQuote, if_neg noBackslash]
    rfl

theorem closed_quote (text : String) : Closed (quote text) := by
  have inside : ∀ chars : List Char,
      Place.through ⟨.string, 0⟩ (chars.flatMap escapeLiteralChar) = some ⟨.string, 0⟩ := by
    intro chars
    induction chars with
    | nil => rfl
    | cons c rest ih =>
      rw [List.flatMap_cons, Place.through_append, through_escapeLiteralChar]
      exact ih
  have opened : Place.through {} ('"' :: text.toList.flatMap escapeLiteralChar) =
      some ⟨.string, 0⟩ :=
    inside text.toList
  rw [Closed, Balanced, quote_eq, String.toList_ofList, Place.through_append, opened]
  rfl

theorem closed_quoteValue {value : Json} {text : String} (success : quoteValue value = .ok text) :
    Closed text := by
  cases value with
  | string | illFormed =>
    rw [quoteValue, Except.ok.injEq] at success
    rw [← success]
    exact closed_quote _
  | null | bool | int | float | array | object => simp [quoteValue] at success

/-! ### Conditions -/

theorem closed_differs {left right : String} (first : Closed left) (second : Closed right) :
    Closed ("(" ++ left ++ " != " ++ right ++ ")") := by
  have between : Closed " != " := by decide
  simpa [String.append_assoc] using ((first.append between).append second).enclosed

theorem closed_compared {left operator right : String} (first : Closed left)
    (sign : IsBare operator) (second : Closed right) :
    Closed (left ++ " " ++ operator ++ " " ++ right) := by
  have blank : Closed " " := by decide
  exact (((first.append blank).append sign.closed).append blank).append second

section Conditions

variable {var condition : String} (bare : IsBare var)

include bare

theorem closed_callOn {name : String} (named : IsBare name) : Closed (call name [var]) :=
  closed_call named (List.forall_mem_singleton.mpr bare.closed)

/-- A test of what a function gives for the variable. -/
theorem closed_callWith {name function argument : String} (named : IsBare name)
    (inner : IsBare function) (closed : Closed argument) :
    Closed (call name [call function [var], argument]) := by
  apply closed_call named
  simpa using ⟨closed_callOn bare inner, closed⟩

theorem closed_startsTest {stem : Json} (success : startsTest var stem = .ok condition) :
    Closed condition := by
  obtain ⟨text, quoted, success⟩ := checked_bind_ok success
  cases success
  exact closed_callWith bare (by decide) (by decide) (closed_quoteValue quoted)

theorem closed_languageTest {stem : Json} (success : languageTest var stem = .ok condition) :
    Closed condition := by
  obtain ⟨text, quoted, success⟩ := checked_bind_ok success
  cases success
  exact closed_callWith bare (by decide) (by decide) (closed_quoteValue quoted)

/-- The tests for stems have strings in them, and calls around these, so they
are closed for every stem. -/
theorem closed_stemTest {kind : StemKind} {stem : Json}
    (success : stemTest var kind stem = .ok condition) : Closed condition := by
  cases kind with
  | language => exact closed_languageTest bare success
  | iri => exact closed_startsTest bare success
  | literal => exact closed_startsTest bare success

theorem closed_rangeStemTest {kind : StemKind} {stem : Stem}
    (success : rangeStemTest var kind stem = .ok condition) : Closed condition := by
  cases stem with
  | text stem => exact closed_stemTest bare success
  | wildcard =>
    have anyText : Closed (call "REGEX" [call "STR" [var], quote ".*"]) :=
      closed_callWith bare (by decide) (by decide) (closed_quote ".*")
    cases kind with
    | language =>
      cases success
      exact (closed_callOn bare (by decide)).append (by decide)
    | iri =>
      cases success
      exact anyText
    | literal =>
      cases success
      exact anyText

/-- The test for an exclusion is closed, if an IRI that it leaves out has no
brackets and quotes. Texts and languages are written as strings and need not be
looked at. -/
theorem closed_exclusionTest {kind : StemKind} {exclusion : Exclusion}
    (iris : kind = .iri → ∀ excluded ∈ exclusion.value?, IsBare excluded.display)
    (success : exclusionTest var kind exclusion = .ok condition) : Closed condition := by
  cases exclusion with
  | stem stem =>
    obtain ⟨test, made, success⟩ := checked_bind_ok success
    cases success
    have negated : Closed ("!" ++ test) := Closed.append (by decide) (closed_stemTest bare made)
    have same : "(!" ++ test ++ ")" = "(" ++ ("!" ++ test) ++ ")" := String.toList_inj.mp (by simp)
    rw [same]
    exact negated.enclosed
  | value excluded =>
    cases kind with
    | iri =>
      cases success
      have named : Closed ("<" ++ excluded.display ++ ">") :=
        (Closed.append (by decide) (iris rfl excluded rfl).closed).append (by decide)
      have same : "(" ++ var ++ " != <" ++ excluded.display ++ ">)" =
          "(" ++ var ++ " != " ++ ("<" ++ excluded.display ++ ">") ++ ")" :=
            String.toList_inj.mp (by simp)
      rw [same]
      exact closed_differs bare.closed named
    | language =>
      obtain ⟨text, quoted, success⟩ := checked_bind_ok success
      cases success
      exact closed_differs (closed_callOn bare (by decide)) (closed_quoteValue quoted)
    | literal =>
      obtain ⟨text, quoted, success⟩ := checked_bind_ok success
      cases success
      exact closed_differs (closed_callOn bare (by decide)) (closed_quoteValue quoted)

/-- The condition of an entry is closed if the IRIs that it is written with are bare. -/
theorem closed_entryPart {entry : ValueSetEntry}
    (iris : ∀ iri ∈ entry.filterIris, IsBare iri.display)
    (success : entryPart var entry = .ok (.condition condition)) : Closed condition := by
  cases entry with
  | iri iri => cases success
  | literal value datatype language =>
    obtain ⟨term, -, success⟩ := checked_bind_ok success
    cases success
  | language tag =>
    obtain ⟨text, quoted, success⟩ := checked_bind_ok success
    cases success
    exact ((closed_callOn bare (by decide)).append (by decide)).append (closed_quoteValue quoted)
  | stem kind stem =>
    obtain ⟨test, made, success⟩ := checked_bind_ok success
    cases success
    exact closed_stemTest bare made
  | range kind stem exclusions =>
    obtain ⟨first, made, success⟩ := checked_bind_ok success
    obtain ⟨others, tested, success⟩ := checked_bind_ok success
    cases success
    apply closed_intercalate (by decide)
    intro text member
    rcases List.mem_cons.mp member with rfl | member
    · exact closed_rangeStemTest bare made
    · obtain ⟨exclusion, listed, test⟩ := checked_mapM_mem tested text member
      apply closed_exclusionTest bare _ test
      rintro rfl excluded found
      exact iris excluded (List.mem_filterMap.mpr ⟨exclusion, listed, found⟩)

end Conditions

/-! ### Lines of a node constraint -/

def ClosedFilter (line : String) : Prop :=
  ∃ condition, line = filterLine condition ∧ Closed condition

/-- Conditions that are joined in a filter are in brackets each, so the filter
is closed if they are. -/
theorem alternativesLine_closed {conditions : List String}
    (closed : ∀ condition ∈ conditions, Closed condition) :
    ∀ line ∈ alternativesLine conditions, ClosedFilter line := by
  intro line member
  by_cases none : conditions = []
  · rw [none] at member
    cases member
  · rw [alternativesLine_eq none, List.mem_singleton] at member
    exact ⟨_, member, closed_joined rfl (by decide) closed⟩

theorem isBare_display {value : Json} (typed : value.isNumberOrNull = true) :
    IsBare value.display := by
  cases value with
  | null => decide
  | int n => exact isBare_of_numberChars (numberChars_decimalText n)
  | float x => exact isBare_of_numberChars (Double.numberChars_text x)
  | _ => cases typed

/-- The number in a facet is written with digits, signs, points and letters. -/
theorem isBare_numberText {value : Json} (typed : value.isNumberOrNull = true) :
    IsBare (numberText value) := by
  have shown := isBare_display typed
  unfold numberText
  split
  · split
    · split
      · next n _ => exact isBare_of_numberChars (numberChars_decimalText n)
      · exact shown
    · exact shown
  · exact shown

theorem isNumberOrNull_of_isIntOrNull {value : Json} (typed : value.isIntOrNull = true) :
    value.isNumberOrNull = true := by
  rcases Json.isIntOrNull_cases typed with rfl | ⟨n, rfl⟩ <;> rfl

section Lines

variable {var : String} (bare : IsBare var) {lines : List String}

include bare

/-- The filter for a value set is closed. The list of its terms is no filter,
and its IRIs may have brackets. -/
theorem valuesLines_closed {values : Option (List ValueSetEntry)}
    (iris : ∀ iri ∈ (values.getD []).flatMap ValueSetEntry.filterIris, IsBare iri.display)
    (success : valuesLines var values = .ok lines) :
    ∀ line ∈ lines, isFilter line = true → ClosedFilter line := by
  intro line member filter
  cases values with
  | none =>
    cases success
    cases member
  | some entries =>
    obtain ⟨parts, made, success⟩ := checked_bind_ok success
    cases success
    rcases List.mem_append.mp member with alternative | listed
    · apply alternativesLine_closed _ line alternative
      intro condition found
      obtain ⟨part, partMember, isCondition⟩ := List.mem_filterMap.mp found
      obtain ⟨entry, entryMember, contributed⟩ := checked_mapM_mem made part partMember
      cases part with
      | term text => cases isCondition
      | condition text =>
        cases isCondition
        apply closed_entryPart bare _ contributed
        intro iri own
        exact iris iri (List.mem_flatMap.mpr ⟨entry, entryMember, own⟩)
    · have values := (valuesLine_values var _ line listed).isValues
      rw [not_isValues_of_isFilter filter] at values
      cases values

theorem datatypeLine_closed {datatype : Json} (iri : IsBare datatype.display) :
    ∀ line ∈ datatypeLine var datatype, ClosedFilter line := by
  intro line member
  unfold datatypeLine at member
  split at member
  · have typed : Closed (call "datatype" [var] ++ " = <") :=
      (closed_callOn bare (by decide)).append (by decide)
    exact ⟨_, List.mem_singleton.mp member, (typed.append iri.closed).append (by decide)⟩
  · cases member

theorem nodeKindLine_closed (kind : Option NodeKind) :
    ∀ line ∈ nodeKindLine var kind, ClosedFilter line := by
  intro line member
  cases kind with
  | none => cases member
  | some kind =>
    have test : Closed (nodeKindTest var kind) := by
      cases kind with
      | iri => exact closed_callOn bare (by decide)
      | bnode => exact closed_callOn bare (by decide)
      | literal => exact closed_callOn bare (by decide)
      | nonliteral => exact Closed.append (by decide) (closed_callOn bare (by decide))
    exact ⟨_, List.mem_singleton.mp member, test⟩

theorem lengthLine_closed {operator : String} (sign : IsBare operator) {facet : Json}
    (typed : facet.isIntOrNull = true) :
    ∀ line ∈ lengthLine var operator facet, ClosedFilter line := by
  intro line member
  have number : IsBare facet.display := isBare_display (isNumberOrNull_of_isIntOrNull typed)
  have length : Closed (call "STRLEN" [call "STR" [var]]) :=
    closed_call (by decide) (List.forall_mem_singleton.mpr (closed_callOn bare (by decide)))
  unfold lengthLine at member
  split at member
  · cases member
  · exact ⟨_, List.mem_singleton.mp member, closed_compared length sign number.closed⟩

theorem boundLine_closed {operator : String} (sign : IsBare operator) {facet : Json}
    (typed : facet.isNumberOrNull = true) :
    ∀ line ∈ boundLine var operator facet, ClosedFilter line := by
  intro line member
  have number : IsBare (numberText facet) := isBare_numberText typed
  unfold boundLine at member
  split at member
  · cases member
  · exact ⟨_, List.mem_singleton.mp member, closed_compared bare.closed sign number.closed⟩

theorem patternLine_closed {pattern flags : Json}
    (success : patternLine var pattern flags = .ok lines) : ∀ line ∈ lines, ClosedFilter line := by
  intro line member
  have text : Closed (call "STR" [var]) := closed_callOn bare (by decide)
  unfold patternLine at success
  split at success
  · cases success
    cases member
  · obtain ⟨quoted, written, success⟩ := checked_bind_ok success
    have pattern := closed_quoteValue written
    split at success
    · obtain ⟨letters, flagged, success⟩ := checked_bind_ok success
      cases success
      have flags := closed_quoteValue flagged
      exact ⟨_, List.mem_singleton.mp member,
        closed_call (by decide) (by simp [text, pattern, flags])⟩
    · cases success
      exact ⟨_, List.mem_singleton.mp member, closed_callWith bare (by decide) (by decide) pattern⟩

/-- The filters for the facets of a well-typed constraint: lengths and bounds
are numbers, and the pattern is a string. -/
theorem facetLines_closed {nc : NodeConstraint} (typed : nc.wellTyped = true)
    (success : facetLines nc var = .ok lines) : ∀ line ∈ lines, ClosedFilter line := by
  intro line member
  simp only [NodeConstraint.wellTyped, Bool.and_eq_true] at typed
  obtain ⟨⟨⟨⟨⟨⟨⟨⟨⟨⟨-, -⟩, length⟩, minLength⟩, maxLength⟩, -⟩, -⟩, minInclusive⟩, minExclusive⟩,
    maxInclusive⟩, maxExclusive⟩ := typed
  obtain ⟨pattern, written, success⟩ := checked_bind_ok success
  cases success
  simp only [List.mem_append, or_assoc] at member
  rcases member with member | member | member | member | member | member | member | member
  · exact lengthLine_closed bare (by decide) length line member
  · exact lengthLine_closed bare (by decide) minLength line member
  · exact lengthLine_closed bare (by decide) maxLength line member
  · exact patternLine_closed bare written line member
  · exact boundLine_closed bare (by decide) minInclusive line member
  · exact boundLine_closed bare (by decide) minExclusive line member
  · exact boundLine_closed bare (by decide) maxInclusive line member
  · exact boundLine_closed bare (by decide) maxExclusive line member

/-- The filters of a node constraint are closed. -/
theorem constraintLines_closed {nc : NodeConstraint} (typed : nc.wellTyped = true)
    (iris : ∀ iri ∈ nc.filterIris, IsBare iri.display)
    (success : constraintLines nc var = .ok lines) :
    ∀ line ∈ lines, isFilter line = true → ClosedFilter line := by
  intro line member filter
  obtain ⟨datatype, values⟩ := List.forall_mem_cons.mp iris
  obtain ⟨valueLines, listed, success⟩ := checked_bind_ok success
  obtain ⟨facets, written, success⟩ := checked_bind_ok success
  cases success
  simp only [List.mem_append] at member
  rcases member with ((member | member) | member) | member
  · exact datatypeLine_closed bare datatype line member
  · exact valuesLines_closed bare values listed line member filter
  · exact nodeKindLine_closed bare nc.nodeKind line member
  · exact facetLines_closed bare typed written line member

end Lines

/-! ### Filters that are rendered and merged -/

/-- A term that a node constraint is about: a variable, or an IRI between angle
brackets. -/
def IsNodeTerm (term : String) : Prop :=
  (∃ name, term = "?" ++ name ∨ term = "<" ++ name ++ ">") ∧ IsBare term

/-- The filters that come of node constraints among some leaves: those that are
rendered, and those that others are merged into. -/
inductive FilterOf (leaves : List Leaf) : String → Prop where
  | rendered {nc subject predicate inverse p q lines line} (leaf : .node nc ∈ leaves)
      (term : IsNodeTerm subject) (success : nodeLines nc subject predicate inverse p = .ok lines q)
        (member : line ∈ lines)
      (filter : isFilter line = true) : FilterOf leaves line
  | merged {filters operator} (connective : IsConnective operator)
      (each : ∀ filter ∈ filters, FilterOf leaves filter) :
        FilterOf leaves (mergeFilters filters operator)

theorem isNodeTerm_variable {name : String} (words : ∀ c ∈ name.toList, Text.isWord c = true) :
    IsNodeTerm ("?" ++ name) :=
  ⟨⟨name, Or.inl rfl⟩, IsBare.append (by decide) (isBare_of_test (by decide) words)⟩

theorem isNodeTerm_fresh (number : Nat) : IsNodeTerm (freshVariable number) :=
  isNodeTerm_variable (isWord_of_mem_freshName number)

/-- The terms that constraints of a schema are about are variables, which have
no brackets. -/
theorem isNodeTerm_of_allocated {origin : Origin} {term : String}
    (allocated : origin.Allocated term) : IsNodeTerm term := by
  rcases allocated with ⟨label, -, rfl⟩ | ⟨number, -, -, rfl⟩
  · exact isNodeTerm_variable (isWord_of_mem_stableName label)
  · exact isNodeTerm_fresh number

theorem not_isFilter_triplePattern {subject object : String} (term : IsNodeTerm subject)
    (other : IsVariable object) (predicate : String) (inverse : Bool) :
    isFilter (triplePattern subject predicate object inverse) = false := by
  obtain ⟨⟨name, rfl | rfl⟩, -⟩ := term <;> obtain ⟨objectName, rfl⟩ := other <;> cases inverse <;>
    simp [triplePattern, isFilter, List.isPrefixOf]

/-- The filters among the lines of a node constraint are closed. -/
theorem nodeLines_closed {nc : NodeConstraint} (typed : nc.wellTyped = true)
    (iris : ∀ iri ∈ nc.filterIris, IsBare iri.display) {subject : String}
    (term : IsNodeTerm subject) {predicate : Json} {inverse : Bool} {p q : Progress}
    {lines : List String} (success : nodeLines nc subject predicate inverse p = .ok lines q) :
    ∀ line ∈ lines, isFilter line = true → ClosedFilter line := by
  intro line member filter
  rcases nodeLines_ok success with ⟨-, written, -⟩ | ⟨-, -, others, written, rfl⟩
  · exact constraintLines_closed term.2 typed iris written line member filter
  · rcases List.mem_cons.mp member with rfl | member
    · rw [not_isFilter_triplePattern term (isVariable_fresh p.fresh)] at filter
      cases filter
    · exact constraintLines_closed (isNodeTerm_fresh p.fresh).2 typed iris written line
        member filter

theorem nodeLines_succeeds {nc : NodeConstraint} (typed : nc.wellTyped = true) (subject : String)
    (predicate : Json) (inverse : Bool) (p : Progress) :
    ∃ lines q, nodeLines nc subject predicate inverse p = .ok lines q := by
  unfold nodeLines
  split
  · obtain ⟨lines, written⟩ := constraintLines_succeeds typed subject
    exact ⟨lines, p, by rw [written]; rfl⟩
  · obtain ⟨lines, written⟩ := constraintLines_succeeds typed (freshVariable p.fresh)
    refine ⟨triplePattern subject predicate.display (freshVariable p.fresh) inverse :: lines,
      p.counting, ?_⟩
    change (Walk.use (constraintLines nc (freshVariable p.fresh)) >>= _) p.counting = _
    rw [written]
    rfl

theorem exists_conditions {filters : List String} (each : ∀ filter ∈ filters, ClosedFilter filter) :
    ∃ conditions : List String, filters = conditions.map filterLine ∧ ∀ condition ∈ conditions,
      Closed condition := by
  induction filters with
  | nil => exact ⟨[], rfl, List.forall_mem_nil _⟩
  | cons filter rest ih =>
    obtain ⟨⟨condition, rfl, closed⟩, others⟩ := List.forall_mem_cons.mp each
    obtain ⟨conditions, rfl, closedRest⟩ := ih others
    exact ⟨condition :: conditions, rfl, List.forall_mem_cons.mpr ⟨closed, closedRest⟩⟩

/-- Merged filters are closed: the conditions are in brackets, and connectives
have none. -/
theorem mergeFilters_closed {filters : List String} {operator : String}
    (connective : IsConnective operator) (each : ∀ filter ∈ filters, ClosedFilter filter) :
    ClosedFilter (mergeFilters filters operator) := by
  obtain ⟨conditions, rfl, closed⟩ := exists_conditions each
  refine ⟨joined operator conditions, mergeFilters_filterLines conditions operator, ?_⟩
  rcases connective with rfl | rfl
  · exact closed_joined rfl (by decide) closed
  · exact closed_joined rfl (by decide) closed

/-- Every filter that comes of a node constraint of the schema is closed.
Induction on how it is merged. -/
theorem FilterOf.closed {schema : Schema} (typed : schema.wellTyped = true)
    (iris : ∀ iri ∈ schema.filterIris, IsBare iri.display) {line : String}
    (filter : FilterOf schema.leaves line) : ClosedFilter line := by
  induction filter with
  | @rendered nc _ _ _ _ _ _ line leaf term success member filter =>
    have typedLeaf : nc.wellTyped = true := Schema.wellTyped_leaves typed _ leaf
    have irisOf : ∀ iri ∈ nc.filterIris, IsBare iri.display := fun iri own =>
      iris iri (List.mem_flatMap.mpr ⟨.node nc, leaf, own⟩)
    exact nodeLines_closed typedLeaf irisOf term success line member filter
  | merged connective _ ih => exact mergeFilters_closed connective ih

/-! ### Compiled filters -/

/-- A filter that constrains a term comes of a node constraint. -/
theorem filterOf_of_constrains {leaves : List Leaf} {var line : String} (term : IsNodeTerm var)
    (constrains : Constrains leaves var line) (filter : isFilter line = true) :
    FilterOf leaves line := by
  induction constrains with
  | @written nc lines line leaf success member =>
    have rendered : nodeLines nc var .null false {} = .ok lines {} := by
      change Walk.use (constraintLines nc var) {} = _
      rw [success]
      rfl
    exact .rendered leaf term rendered member filter
  | merged connective _ _ filtering ih =>
    exact .merged connective fun filter member => ih filter member (filtering filter member)

theorem filterOf_of_linkedLine {origin : Origin} {scope : List String} {line : String}
    (linked : origin.LinkedLine scope line) (filter : isFilter line = true) :
    FilterOf origin.leaves line := by
  cases linked with
  | triple leaf source object _ _ =>
    rw [not_isFilter_triplePattern (isNodeTerm_of_allocated source) object.isVariable] at filter
    cases filter
  | constraint allocated _ constrains _ =>
    exact filterOf_of_constrains (isNodeTerm_of_allocated allocated) constrains filter

/-- Each line of a group is good in the scope that it stands in. -/
theorem exists_scope_of_fits {good : List String → String → Prop} {group : Group} {line : String} :
    ∀ {above : List String}, group.Fits good above → line ∈ group.allLines →
      ∃ scope, good scope line := by
  induction group using Group.induct with
  | step group ih =>
    intro above fits member
    obtain ⟨own, children⟩ := Group.fits_iff.mp fits
    rcases Group.mem_allLines.mp member with here | ⟨child, childMember, inside⟩
    · exact ⟨_, own line here⟩
    · exact ih child childMember (children child childMember) inside

/-- The filters of a compiled fragment come of the node constraints of the schema. -/
theorem filterOf_of_visit {context : Context} {leaves : List Leaf}
    (closed : context.Closed leaves) {label : String} {p q : Progress} {f : Fragment}
    (visit : Visit context p (.shape none (.reference label)) f q) {line : String}
    (member : line ∈ (f.group.addLines f.loose).allLines) (filter : isFilter line = true) :
    FilterOf leaves line := by
  let origin : Origin := ⟨label, leaves, p.fresh, q.fresh⟩
  have tied : f.Tied origin [] := visit.start_tied closed (Nat.le_refl _) (Nat.le_refl _)
  have fits : (f.group.addLines f.loose).Fits origin.LinkedLine [] :=
    tied.group.addLines Origin.linkedLine_steady tied.loose
  obtain ⟨scope, linked⟩ := exists_scope_of_fits fits member
  exact filterOf_of_linkedLine linked filter

/-- What is known of the filters of a schema: they are rendered and closed, and
filters that are merged mean what the operator between them says. -/
structure WellBracketed (schema : Schema) : Prop where
  /-- The node constraints are rendered, whatever they are about. -/
  rendered : ∀ {nc}, .node nc ∈ schema.leaves → ∀ subject predicate inverse p,
    ∃ lines q, nodeLines nc subject predicate inverse p = .ok lines q
  /-- Filters that are rendered, and filters that these are merged into, are closed. -/
  closed : ∀ {line}, FilterOf schema.leaves line → ClosedFilter line
  /-- Filters merged as alternatives ask that the condition of one of them holds. -/
  any : ∀ {conditions}, conditions ≠ [] →
    (∀ c ∈ conditions, FilterOf schema.leaves (filterLine c)) →
    ∃ merged, mergeFilters (conditions.map filterLine) "||" = filterLine merged ∧
      ∀ truth, Holds truth merged ↔ ∃ c ∈ conditions, Holds truth c
  /-- Filters merged as a conjunction ask that the conditions of all of them hold. -/
  all : ∀ {conditions}, conditions ≠ [] →
    (∀ c ∈ conditions, FilterOf schema.leaves (filterLine c)) →
    ∃ merged, mergeFilters (conditions.map filterLine) "&&" = filterLine merged ∧
      ∀ truth, Holds truth merged ↔ ∀ c ∈ conditions, Holds truth c
  /-- The filters of the group of a start shape are among them, before and
  after the group is finished. -/
  compiled : ∀ {label} progress, schema.start = .label label → (schema.find? label).isSome = true →
    ∃ context raw after, Context.ofSchema schema = .ok context ∧
      context.startGroup progress = .ok (some raw) after ∧
      ∀ group ∈ [raw, raw.postProcess], ∀ line ∈ group.allLines, isFilter line = true →
        FilterOf schema.leaves line

theorem filterLine_inj {condition other : String} (same : filterLine condition = filterLine other) :
    condition = other := by
  have chars := congrArg String.toList same
  simp only [filterLine, String.toList_append] at chars
  exact String.toList_inj.mp (List.append_cancel_left (List.append_cancel_right chars))

theorem FilterOf.closed_condition {schema : Schema} (typed : schema.wellTyped = true)
    (iris : ∀ iri ∈ schema.filterIris, IsBare iri.display) {condition : String}
    (filter : FilterOf schema.leaves (filterLine condition)) : Closed condition := by
  obtain ⟨other, same, closed⟩ := filter.closed typed iris
  rwa [filterLine_inj same]

/-- Take a well-typed schema in which neither the datatypes nor the IRIs that
ranges leave out have brackets or quotes in them, while its strings may have
any. Every filter that comes of its node constraints, rendered or merged, has
the keyword and one condition in brackets, in which all brackets and strings
are closed. -/
theorem wellBracketed_of_bare (schema : Schema) (typed : schema.wellTyped = true)
    (iris : ∀ iri ∈ schema.filterIris, IsBare iri.display) : WellBracketed schema where
  rendered leaf subject predicate inverse p :=
    nodeLines_succeeds (Schema.wellTyped_leaves typed _ leaf) subject predicate inverse p
  closed filter := filter.closed typed iris
  any {conditions} some filters :=
    ⟨joined "||" conditions, mergeFilters_filterLines conditions "||", fun _ =>
      holds_any some fun c member => (filters c member).closed_condition typed iris⟩
  all {conditions} some filters :=
    ⟨joined "&&" conditions, mergeFilters_filterLines conditions "&&", fun _ =>
      holds_all some fun c member => (filters c member).closed_condition typed iris⟩
  compiled {label} progress start declared := by
    obtain ⟨context, built, rfl, typedContext⟩ := Context.ofSchema_ok typed
    obtain ⟨decl, found⟩ := Option.isSome_iff_exists.mp declared
    obtain ⟨f, before, after, success, -, -, visit⟩ :=
      context.startGroup_ok typedContext start found progress
    have closed : context.Closed context.schema.leaves := fun resolved =>
      Context.mem_leaves_of_resolve built resolved
    refine ⟨context, _, after, built, success, ?_⟩
    intro group member line inside filter
    have there : line ∈ (f.group.addLines f.loose).allLines := by
      simp only [List.mem_cons, List.not_mem_nil, or_false] at member
      rcases member with rfl | rfl
      · exact inside
      · exact Group.mem_allLines_postProcess.mp inside
    exact filterOf_of_visit closed visit there filter

/-- A schema with brackets, quotes and backslashes in its strings. -/
def quotingSchema : Schema where
  shapes := [⟨.string "S", .or [
    .node { datatype := .string "http://a/d", pattern := .string ")\"("
            minInclusive := .int (-1) },
    .node { values := some [.stem .literal (.string "\\"), .range .iri (.text (.string "(("))
      [.value (.string "http://a/x"), .stem (.string "\")")]] }], false⟩]
  start := .label "S"

/-- A bracket that is closed in a pattern before it is opened is no bracket of
the filter. -/
theorem wellBracketed_of_bare_quoting :
    quotingSchema.wellTyped = true ∧ (∀ iri ∈ quotingSchema.filterIris, IsBare iri.display) ∧
      WellBracketed quotingSchema ∧ ClosedFilter "FILTER(REGEX(STR(?x), \")\\\"(\"))" := by
  have safe := wellBracketed_of_bare quotingSchema (by decide) (by decide)
  have term : IsNodeTerm "?x" := ⟨⟨"x", Or.inl rfl⟩, by decide⟩
  have rendered : nodeLines
      { datatype := .string "http://a/d", pattern := .string ")\"(", minInclusive := .int (-1) }
      "?x" .null false {} = .ok ["FILTER(datatype(?x) = <http://a/d>)",
        "FILTER(REGEX(STR(?x), \")\\\"(\"))", "FILTER(?x >= -1)"] {} := rfl
  refine ⟨by decide, by decide, safe, safe.closed (.rendered ?_ term rendered ?_ rfl)⟩
  · exact List.mem_cons_self
  · exact List.mem_cons_of_mem _ List.mem_cons_self

end Condition

end ShapeQuery
