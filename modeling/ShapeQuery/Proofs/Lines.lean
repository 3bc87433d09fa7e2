import ShapeQuery.Compile.Fragment
import ShapeQuery.Proofs.Checks

/-!
The lines of a compiled group. A line is a filter, a list of values or a triple pattern, and its
first characters tell which: a triple pattern starts with a variable. The lines of a node
constraint are about its variable: the filters name it before any other, and the lists of values
name it right after the keyword.
-/
namespace ShapeQuery

def isTriple (line : String) : Bool :=
  !isFilter line && !isValues line

theorem isTriple_of_isFilter {line : String} (filter : isFilter line = true) :
    isTriple line = false := by
  simp [isTriple, filter]

/-- The kinds of lines exclude each other, as they begin with different words. -/
theorem not_isValues_of_isFilter {line : String} (filter : isFilter line = true) :
    isValues line = false := by
  rw [isFilter, List.isPrefixOf_iff_prefix] at filter
  obtain ⟨rest, same⟩ := filter
  rw [isValues, ← same]
  rfl

namespace Compile

def IsVariable (term : String) : Prop :=
  ∃ name, term = "?" ++ name

theorem isVariable_stable (label : String) : IsVariable (stableVariable label) :=
  ⟨stableName label, rfl⟩

theorem isVariable_fresh (number : Nat) : IsVariable (freshVariable number) :=
  ⟨freshName number, rfl⟩

theorem focus_of_isVariable {focus : Focus} (bound : IsVariable focus.text) :
    ∃ term, focus = some term := by
  cases focus with
  | some term => exact ⟨term, rfl⟩
  | none =>
    obtain ⟨name, absurd⟩ := bound
    have chars := congrArg String.toList absurd
    simp [Focus.text] at chars

def StartsWithVariable (line : String) : Prop :=
  ∃ rest, line.toList = '?' :: rest

theorem StartsWithVariable.isTriple {line : String} (starts : StartsWithVariable line) :
    isTriple line = true := by
  obtain ⟨rest, start⟩ := starts
  simp [ShapeQuery.isTriple, isFilter, isValues, start, List.isPrefixOf]

/-- A triple pattern between two variables starts with one of them, in either
direction. So it is never taken for a filter or a list of values. -/
theorem triplePattern_starts {subject object : String} (bound : IsVariable subject)
    (other : IsVariable object) (predicate : String) (inverse : Bool) :
    StartsWithVariable (triplePattern subject predicate object inverse) := by
  obtain ⟨name, rfl⟩ := bound
  obtain ⟨otherName, rfl⟩ := other
  cases inverse <;> exact ⟨_, by simp [triplePattern]; rfl⟩

def IsFilterLine (line : String) : Prop :=
  ∃ condition, line = filterLine condition

def IsValuesLine (var line : String) : Prop :=
  ∃ terms, line = "VALUES " ++ var ++ " \x7b " ++ terms ++ " \x7d"

theorem isFilter_filterLine (condition : String) : isFilter (filterLine condition) = true := by
  simp [isFilter, filterLine]

theorem IsFilterLine.isFilter {line : String} (filter : IsFilterLine line) :
    isFilter line = true := by
  obtain ⟨condition, rfl⟩ := filter
  exact isFilter_filterLine condition

theorem IsValuesLine.isValues {var line : String} (values : IsValuesLine var line) :
    isValues line = true := by
  obtain ⟨terms, rfl⟩ := values
  simp [ShapeQuery.isValues]

/-- A line that a node constraint on a variable contributes. -/
def IsConstraintLine (var line : String) : Prop :=
  IsFilterLine line ∨ IsValuesLine var line

/-- Nothing that a node constraint contributes is taken for a triple pattern. -/
theorem IsConstraintLine.not_isTriple {var line : String} (constraint : IsConstraintLine var line) :
    isTriple line = false := by
  rcases constraint with filter | values
  · exact isTriple_of_isFilter filter.isFilter
  · simp [isTriple, values.isValues]

/-! ### Texts in which a variable comes first -/

/-- A text in which a variable comes first, as a whole word. -/
def Leads (var text : String) : Prop :=
  ∃ front c back, text.toList = front ++ var.toList ++ c :: back ∧ '?' ∉ front ∧
    Text.isWord c = false

section Leads

variable {var text : String}

/-- A variable comes first in a text that begins with it, if no word character
follows. -/
theorem leads_self {back : String} (c : Char) (opens : back.toList = [c])
    (apart : Text.isWord c = false) : Leads var (var ++ back) :=
  ⟨[], c, [], by rw [String.toList_append, opens, List.nil_append], by simp, apart⟩

/-- Text in front without a question mark does not keep a variable from being
the first one. -/
theorem Leads.after {front : String} (unmarked : '?' ∉ front.toList) (leads : Leads var text) :
    Leads var (front ++ text) := by
  obtain ⟨before, c, back, same, none, apart⟩ := leads
  refine ⟨front.toList ++ before, c, back, ?_, ?_, apart⟩
  · rw [String.toList_append, same, List.append_assoc, List.append_assoc, List.append_assoc]
  · rw [List.mem_append, not_or]
    exact ⟨unmarked, none⟩

theorem Leads.append (leads : Leads var text) (behind : String) : Leads var (text ++ behind) := by
  obtain ⟨front, c, back, same, none, apart⟩ := leads
  refine ⟨front, c, back ++ behind.toList, ?_, none, apart⟩
  rw [String.toList_append, same, List.append_assoc, List.cons_append]

/-- What comes first in the first of some texts comes first when they are joined. -/
theorem Leads.joined (leads : Leads var text) (separator : String) (others : List String) :
    Leads var (separator.intercalate (text :: others)) := by
  cases others with
  | nil => rwa [String.intercalate_singleton]
  | cons other rest =>
    rw [String.intercalate_cons_cons, String.append_assoc]
    exact leads.append _

theorem Leads.call {name : String} (unmarked : '?' ∉ name.toList) (leads : Leads var text)
    (others : List String) : Leads var (call name (text :: others)) := by
  have bracket : Leads var ("(" ++ ", ".intercalate (text :: others)) :=
    (leads.joined ", " others).after (by decide)
  have named := (bracket.after unmarked).append ")"
  rwa [← String.append_assoc] at named

theorem leads_call {name : String} (unmarked : '?' ∉ name.toList) :
    Leads var (call name [var]) := by
  have closed : Leads var (var ++ ")") := leads_self ')' rfl (by decide)
  have opened : Leads var ("(" ++ (var ++ ")")) := closed.after (by decide)
  have named := opened.after unmarked
  rw [Compile.call, String.intercalate_singleton]
  rwa [← String.append_assoc, ← String.append_assoc] at named

end Leads

/-! ### String literals -/

/-- The written form of a character in a string literal. -/
def escapeLiteralChar : Char → List Char
  | '\\' => ['\\', '\\']
  | '"' => ['\\', '"']
  | '\n' => ['\\', 'n']
  | '\r' => ['\\', 'r']
  | c => [c]

/-- Replacements made one after the other in a text are made in each of its
characters. -/
theorem foldl_replaceChar (escapes : List (Char × List Char)) (chars : List Char) :
    escapes.foldl (fun chars (mark, written) => Text.replaceChar mark written chars) chars =
      chars.flatMap fun c =>
        escapes.foldl (fun chars (mark, written) => Text.replaceChar mark written chars) [c] := by
  induction escapes generalizing chars with
  | nil => simp
  | cons first rest ih =>
    obtain ⟨mark, written⟩ := first
    simp only [List.foldl_cons]
    rw [ih, Text.replaceChar, List.flatMap_assoc]
    refine congrArg (List.flatMap · chars) (funext fun c => ?_)
    rw [ih (Text.replaceChar mark written [c]), Text.replaceChar, List.flatMap_singleton]

/-- Of a character, the four replacements make its written form: what one of
them writes is a backslash and a character that none of the later ones
replaces. -/
theorem foldl_literalEscapes (c : Char) :
    literalEscapes.foldl (fun chars (mark, written) => Text.replaceChar mark written chars) [c] =
      escapeLiteralChar c := by
  unfold escapeLiteralChar
  split
  · decide
  · decide
  · decide
  · decide
  · simp_all [literalEscapes, Text.replaceChar]

/-- A string literal is made in one pass as well. -/
theorem quote_eq (text : String) :
    quote text = String.ofList ('"' :: text.toList.flatMap escapeLiteralChar ++ ['"']) := by
  rw [quote, foldl_replaceChar, funext foldl_literalEscapes]

/-! ### Conditions -/

section Conditions

variable {var condition : String}

/-- The test of a stem has its variable first. Text of the schema only comes
behind it. -/
theorem stemTest_leads {kind : StemKind} {stem : Json}
    (success : stemTest var kind stem = .ok condition) : Leads var condition := by
  cases kind with
  | language =>
    obtain ⟨quoted, -, success⟩ := checked_bind_ok success
    cases success
    exact (leads_call (by decide)).call (by decide) _
  | iri | literal =>
    obtain ⟨quoted, -, success⟩ := checked_bind_ok success
    cases success
    exact (leads_call (by decide)).call (by decide) _

theorem rangeStemTest_leads {kind : StemKind} {stem : Stem}
    (success : rangeStemTest var kind stem = .ok condition) : Leads var condition := by
  cases stem with
  | text stem => exact stemTest_leads success
  | wildcard =>
    cases kind with
    | language =>
      cases success
      exact (leads_call (by decide)).append _
    | iri | literal =>
      cases success
      exact (leads_call (by decide)).call (by decide) _

/-- The condition of an entry of a value set has the variable of the set first,
whatever is excluded from the entry. -/
theorem entryPart_leads {entry : ValueSetEntry} {part : EntryPart}
    (success : entryPart var entry = .ok part) (written : part.condition? = some condition) :
    Leads var condition := by
  cases entry with
  | iri iri =>
    cases success
    cases written
  | literal value datatype language =>
    obtain ⟨text, -, success⟩ := checked_bind_ok success
    cases success
    cases written
  | language tag =>
    obtain ⟨quoted, -, success⟩ := checked_bind_ok success
    cases success
    cases written
    exact ((leads_call (by decide)).append _).append _
  | stem kind stem =>
    obtain ⟨test, tested, success⟩ := checked_bind_ok success
    cases success
    cases written
    exact stemTest_leads tested
  | range kind stem exclusions =>
    obtain ⟨first, tested, success⟩ := checked_bind_ok success
    obtain ⟨others, -, success⟩ := checked_bind_ok success
    cases success
    cases written
    exact (rangeStemTest_leads tested).joined _ _

/-- The conditions of a value set are all on its variable. -/
theorem entryParts_lead {entries : List ValueSetEntry} {parts : List EntryPart}
    (made : entries.mapM (entryPart var) = .ok parts) :
    ∀ condition ∈ parts.filterMap EntryPart.condition?, Leads var condition := by
  intro condition member
  obtain ⟨part, partMember, written⟩ := List.mem_filterMap.mp member
  obtain ⟨entry, -, success⟩ := checked_mapM_mem made part partMember
  exact entryPart_leads success written

theorem nodeKindTest_leads (kind : NodeKind) : Leads var (nodeKindTest var kind) := by
  cases kind with
  | iri | bnode | literal => exact leads_call (by decide)
  | nonliteral => exact (leads_call (by decide)).after (by decide)

end Conditions

/-! ### Lines of a node constraint -/

/-- A filter with a condition in which a variable comes first. -/
def Tests (var line : String) : Prop :=
  ∃ condition, line = filterLine condition ∧ Leads var condition

/-- A line about a variable: a filter on it, or a list of its values. -/
def About (var line : String) : Prop :=
  Tests var line ∨ IsValuesLine var line

section Filters

variable {var line : String}

theorem Tests.isFilterLine (tests : Tests var line) : IsFilterLine line := by
  obtain ⟨condition, same, -⟩ := tests
  exact ⟨condition, same⟩

theorem About.isConstraintLine (about : About var line) : IsConstraintLine var line :=
  about.imp_left Tests.isFilterLine

/-- A line about a variable that is a filter tests the variable. -/
theorem About.tests (about : About var line) (filter : isFilter line = true) : Tests var line := by
  rcases about with tests | ⟨terms, rfl⟩
  · exact tests
  · simp [isFilter] at filter

theorem About.isValuesLine (about : About var line) (other : isFilter line = false) :
    IsValuesLine var line := by
  rcases about with ⟨condition, rfl, -⟩ | values
  · rw [isFilter_filterLine] at other
    cases other
  · exact values

theorem valuesLine_values (var : String) (terms : List String) :
    ∀ line ∈ valuesLine var terms, IsValuesLine var line := by
  intro line member
  unfold valuesLine at member
  split at member
  · cases member
  · simp only [List.mem_singleton] at member
    exact ⟨_, member⟩

theorem alternativesLine_tests {conditions : List String} (leads : ∀ c ∈ conditions, Leads var c) :
    ∀ line ∈ alternativesLine conditions, Tests var line := by
  intro line member
  match conditions with
  | [] => cases member
  | [condition] =>
    simp only [alternativesLine, List.mem_singleton] at member
    exact ⟨condition, member, leads condition List.mem_cons_self⟩
  | first :: second :: rest =>
    simp only [alternativesLine, List.mem_singleton] at member
    refine ⟨_, member, ?_⟩
    have opened : Leads var ("(" ++ first) := (leads first List.mem_cons_self).after (by decide)
    exact (opened.append ")").joined _ _

theorem filterUnless_tests {absent : Prop} [Decidable absent] {condition : String}
    (leads : Leads var condition) :
    ∀ line ∈ (if absent then [] else [filterLine condition]), Tests var line := by
  intro line member
  split at member
  · cases member
  · exact ⟨condition, List.mem_singleton.mp member, leads⟩

theorem lengthLine_tests (operator : String) (facet : Json) :
    ∀ line ∈ lengthLine var operator facet, Tests var line := by
  have length : Leads var (call "STRLEN" [call "STR" [var]]) :=
    (leads_call (by decide)).call (by decide) []
  exact filterUnless_tests (((length.append " ").append operator).append " " |>.append
    facet.display)

theorem boundLine_tests (operator : String) (facet : Json) :
    ∀ line ∈ boundLine var operator facet, Tests var line := by
  have value : Leads var (var ++ " ") := leads_self ' ' rfl (by decide)
  exact filterUnless_tests (((value.append operator).append " ").append (numberText facet))

theorem datatypeLine_tests (datatype : Json) :
    ∀ line ∈ datatypeLine var datatype, Tests var line := by
  intro line member
  unfold datatypeLine at member
  split at member
  · refine ⟨_, List.mem_singleton.mp member, ?_⟩
    exact (((leads_call (by decide)).append _).append _).append _
  · cases member

theorem nodeKindLine_tests (kind : Option NodeKind) :
    ∀ line ∈ nodeKindLine var kind, Tests var line := by
  intro line member
  cases kind with
  | none => cases member
  | some kind => exact ⟨_, List.mem_singleton.mp member, nodeKindTest_leads kind⟩

theorem patternLine_tests {pattern flags : Json} {lines : List String}
    (success : patternLine var pattern flags = .ok lines) : ∀ line ∈ lines, Tests var line := by
  intro line member
  unfold patternLine at success
  split at success
  · cases success
    cases member
  · obtain ⟨quoted, -, success⟩ := checked_bind_ok success
    split at success
    · obtain ⟨letters, -, success⟩ := checked_bind_ok success
      cases success
      exact ⟨_, List.mem_singleton.mp member, (leads_call (by decide)).call (by decide) _⟩
    · cases success
      exact ⟨_, List.mem_singleton.mp member, (leads_call (by decide)).call (by decide) _⟩

/-- Every facet of a node constraint becomes a filter that tests its variable.
One lemma for each kind of facet. -/
theorem facetLines_tests {nc : NodeConstraint} {lines : List String}
    (success : facetLines nc var = .ok lines) : ∀ line ∈ lines, Tests var line := by
  intro line member
  obtain ⟨pattern, written, success⟩ := checked_bind_ok success
  cases success
  simp only [List.mem_append, or_assoc] at member
  rcases member with member | member | member | member | member | member | member | member
  · exact lengthLine_tests _ _ line member
  · exact lengthLine_tests _ _ line member
  · exact lengthLine_tests _ _ line member
  · exact patternLine_tests written line member
  · exact boundLine_tests _ _ line member
  · exact boundLine_tests _ _ line member
  · exact boundLine_tests _ _ line member
  · exact boundLine_tests _ _ line member

/-- A value set becomes a list of values, a filter, or both, all of them about
its variable. -/
theorem valuesLines_about {values : Option (List ValueSetEntry)} {lines : List String}
    (success : valuesLines var values = .ok lines) : ∀ line ∈ lines, About var line := by
  intro line member
  cases values with
  | none =>
    cases success
    cases member
  | some entries =>
    obtain ⟨parts, made, success⟩ := checked_bind_ok success
    cases success
    rcases List.mem_append.mp member with filter | listed
    · exact Or.inl (alternativesLine_tests (entryParts_lead made) line filter)
    · exact Or.inr (valuesLine_values var _ line listed)

/-- The lines of a node constraint on a variable are about it. This is what
keeps apart what different variables of a query have to meet. -/
theorem constraintLines_about {nc : NodeConstraint} {lines : List String}
    (success : constraintLines nc var = .ok lines) : ∀ line ∈ lines, About var line := by
  intro line member
  obtain ⟨values, listed, success⟩ := checked_bind_ok success
  obtain ⟨facets, written, success⟩ := checked_bind_ok success
  cases success
  simp only [List.mem_append] at member
  rcases member with ((member | member) | member) | member
  · exact Or.inl (datatypeLine_tests _ line member)
  · exact valuesLines_about listed line member
  · exact Or.inl (nodeKindLine_tests _ line member)
  · exact Or.inl (facetLines_tests written line member)

/-- A node constraint contributes filters, and lists of values of its variable. -/
theorem constraintLines_constraint {nc : NodeConstraint} {lines : List String}
    (success : constraintLines nc var = .ok lines) : ∀ line ∈ lines, IsConstraintLine var line :=
  fun line member => (constraintLines_about success line member).isConstraintLine

end Filters

/-! ### Combined filters -/

/-- The words that stand between the conditions of combined filters. -/
def IsConnective (operator : String) : Prop :=
  operator = "&&" ∨ operator = "||"

theorem mergeFilters_isFilterLine {filters : List String} (operator : String)
    (each : ∀ line ∈ filters, IsFilterLine line) :
    IsFilterLine (mergeFilters filters operator) := by
  match filters with
  | [] => exact ⟨_, rfl⟩
  | [filter] => exact each filter (by simp)
  | first :: second :: rest => exact ⟨_, rfl⟩

theorem mergeFilters_filter {filters : List String} (operator : String)
    (each : ∀ line ∈ filters, isFilter line = true) :
    isFilter (mergeFilters filters operator) = true := by
  match filters with
  | [] => exact isFilter_filterLine _
  | [filter] => exact each filter (by simp)
  | first :: second :: rest => exact isFilter_filterLine _

end Compile

end ShapeQuery
