import ShapeQuery.Proofs.Conditions
import ShapeQuery.Proofs.ValueLists
import ShapeQuery.Proofs.WellTyped

/-!
What the lines of a value set ask for. Each line is satisfied by any one of several tests: a filter
by any of its conditions, and a list of values by any of its terms. As all lines of a group must be
satisfied, a value set with plain terms and with conditions asks for one of each, and the empty
value set asks for nothing. The lines mean that one of the entries fits exactly if there are entries
and they are all of the same sort.
-/
namespace ShapeQuery.Compile

open Condition

/-- What a line asks for: that one of some conditions holds, or that the value
is one of some terms. -/
inductive Demand where
  | condition (conditions : List String)
  | term (terms : List String)

def Demand.line (var : String) : Demand → String
  | .condition conditions => filterLine (joined "||" conditions)
  | .term terms => "VALUES " ++ var ++ " \x7b " ++ " ".intercalate terms ++ " \x7d"

section Truth

variable (truth isValue : String → Prop)

/-- Whether a demand is met, given which conditions hold and which terms are
the value. -/
def Demand.Met : Demand → Prop
  | .condition conditions => ∃ condition ∈ conditions, truth condition
  | .term terms => ∃ term ∈ terms, isValue term

def EntryPart.Holds : EntryPart → Prop
  | .term text => isValue text
  | .condition text => truth text

/-- Whether the value fits an entry: the test that the entry contributes holds,
or it is the term of the entry. -/
def FitsEntry (var : String) (entry : ValueSetEntry) : Prop :=
  ∃ part, entryPart var entry = .ok part ∧ part.Holds truth isValue

end Truth

/-- The demands of a value set with given contributions. -/
def demands (parts : List EntryPart) : List Demand :=
  let conditions := parts.filterMap EntryPart.condition?
  let terms := parts.filterMap EntryPart.term?
  (if conditions = [] then [] else [.condition conditions]) ++
    if terms = [] then [] else [.term terms]

/-- Conditions are written as one filter, that one of them holds, unless there
are none. -/
theorem alternativesLine_demand (conditions : List String) (var : String) :
    alternativesLine conditions =
      (if conditions = [] then [] else [Demand.condition conditions]).map (Demand.line var) := by
  split
  · next none =>
    rw [none]
    rfl
  · next some => exact alternativesLine_eq some

/-- Terms are written as one list, unless there are none. -/
theorem valuesLine_demand (terms : List String) (var : String) :
    valuesLine var terms = (if terms = [] then [] else [Demand.term terms]).map
      (Demand.line var) := by
  rw [valuesLine]
  simp only [List.isEmpty_iff]
  split <;> rfl

/-- The lines of a value set are those of its demands. There are two at most,
one for the conditions and one for the terms. -/
theorem valueSetLines_demands {entries : List ValueSetEntry} {var : String} {lines : List String}
    (success : valueSetLines entries var = .ok lines) :
    ∃ parts, entries.mapM (entryPart var) = .ok parts ∧
      lines = (demands parts).map (Demand.line var) := by
  obtain ⟨parts, made, success⟩ := checked_bind_ok success
  cases success
  refine ⟨parts, made, ?_⟩
  rw [demands, List.map_append, ← alternativesLine_demand, ← valuesLine_demand]

/-! ### Entries and what they contribute -/

section Parts

variable {entries : List ValueSetEntry} {var : String} {parts : List EntryPart}
  {truth isValue : String → Prop}

theorem mem_parts_iff (made : entries.mapM (entryPart var) = .ok parts) {part : EntryPart} :
    part ∈ parts ↔ ∃ entry ∈ entries, entryPart var entry = .ok part := by
  refine ⟨checked_mapM_mem made part, ?_⟩
  rintro ⟨entry, member, success⟩
  obtain ⟨other, among, same⟩ := checked_mapM_made made entry member
  cases same.symm.trans success
  exact among

/-- The entries of a sort are those whose contribution is of that sort. -/
theorem exists_entry_iff (made : entries.mapM (entryPart var) = .ok parts) (sort : Bool) :
    (∃ entry ∈ entries, entry.isTerm = sort) ↔ ∃ part ∈ parts, part.term?.isSome = sort := by
  constructor
  · rintro ⟨entry, member, same⟩
    obtain ⟨part, among, success⟩ := checked_mapM_made made entry member
    exact ⟨part, among, (entryPart_term? success).trans same⟩
  · rintro ⟨part, among, same⟩
    obtain ⟨entry, member, success⟩ := (mem_parts_iff made).mp among
    exact ⟨entry, member, (entryPart_term? success).symm.trans same⟩

/-- An entry of a sort fits exactly if a contribution of that sort holds. -/
theorem exists_fitting_iff (made : entries.mapM (entryPart var) = .ok parts) (sort : Bool) :
    (∃ entry ∈ entries, entry.isTerm = sort ∧ FitsEntry truth isValue var entry) ↔
      ∃ part ∈ parts, part.term?.isSome = sort ∧ part.Holds truth isValue := by
  constructor
  · rintro ⟨entry, member, same, part, success, holds⟩
    exact ⟨part, (mem_parts_iff made).mpr ⟨entry, member, success⟩,
      (entryPart_term? success).trans same, holds⟩
  · rintro ⟨part, among, same, holds⟩
    obtain ⟨entry, member, success⟩ := (mem_parts_iff made).mp among
    exact ⟨entry, member, (entryPart_term? success).symm.trans same, part, success, holds⟩

/-- Texts selected from the contributions of a sort, of which one must pass
unless there are none. -/
theorem met_iff (select : EntryPart → Option String) (passes : String → Prop)
    (demand : List String → Demand) {sort : Bool}
    (selects : ∀ part, (select part).isSome = true ↔ part.term?.isSome = sort)
    (agrees : ∀ part text, select part = some text → (passes text ↔ part.Holds truth isValue))
    (reads : ∀ texts, (demand texts).Met truth isValue ↔ ∃ text ∈ texts, passes text) :
    (∀ d ∈ if parts.filterMap select = [] then [] else [demand (parts.filterMap select)],
        d.Met truth isValue) ↔
      ((∃ part ∈ parts, part.term?.isSome = sort) →
        ∃ part ∈ parts, part.term?.isSome = sort ∧ part.Holds truth isValue) := by
  have selected : ∀ part, part.term?.isSome = sort ↔ ∃ text, select part = some text := fun part =>
    (selects part).symm.trans Option.isSome_iff_exists
  have empty : parts.filterMap select = [] ↔ ¬ ∃ part ∈ parts, part.term?.isSome = sort := by
    rw [List.filterMap_eq_nil_iff]
    refine ⟨?_, fun none part member => ?_⟩
    · rintro none ⟨part, member, same⟩
      obtain ⟨text, picked⟩ := (selected part).mp same
      cases (none part member).symm.trans picked
    · refine Option.eq_none_iff_forall_ne_some.mpr fun text picked => none ⟨part, member, ?_⟩
      exact (selected part).mpr ⟨text, picked⟩
  have passing : (∃ text ∈ parts.filterMap select, passes text) ↔
      ∃ part ∈ parts, part.term?.isSome = sort ∧ part.Holds truth isValue := by
    constructor
    · rintro ⟨text, member, pass⟩
      obtain ⟨part, among, picked⟩ := List.mem_filterMap.mp member
      exact ⟨part, among, (selected part).mpr ⟨text, picked⟩, (agrees part text picked).mp pass⟩
    · rintro ⟨part, among, same, holds⟩
      obtain ⟨text, picked⟩ := (selected part).mp same
      exact ⟨text, List.mem_filterMap.mpr ⟨part, among, picked⟩,
        (agrees part text picked).mpr holds⟩
  split
  · next none => simp [empty.mp none]
  · next some =>
    rw [List.forall_mem_singleton, reads, passing]
    exact ⟨fun met _ => met, fun met => met (not_not.mp (mt empty.mpr some))⟩

/-- There must be a fitting entry of each sort of which there are entries. -/
theorem demands_met_iff (made : entries.mapM (entryPart var) = .ok parts) :
    (∀ demand ∈ demands parts, demand.Met truth isValue) ↔
      ∀ sort, (∃ entry ∈ entries, entry.isTerm = sort) →
        ∃ entry ∈ entries, entry.isTerm = sort ∧ FitsEntry truth isValue var entry := by
  have conditions : _ ↔ ((∃ part ∈ parts, part.term?.isSome = false) →
      ∃ part ∈ parts, part.term?.isSome = false ∧ part.Holds truth isValue) :=
    met_iff EntryPart.condition? truth .condition
      (fun part => by cases part <;> simp [EntryPart.condition?, EntryPart.term?])
      (fun part text picked => by
        cases part <;> cases picked
        rfl)
      (fun texts => Iff.rfl)
  have terms : _ ↔ ((∃ part ∈ parts, part.term?.isSome = true) →
      ∃ part ∈ parts, part.term?.isSome = true ∧ part.Holds truth isValue) :=
    met_iff EntryPart.term? isValue .term
      (fun part => Iff.rfl)
      (fun part text picked => by
        cases part <;> cases picked
        rfl)
      (fun texts => Iff.rfl)
  rw [demands, List.forall_mem_append, conditions, terms, ← exists_entry_iff made,
    ← exists_entry_iff made, ← exists_fitting_iff made, ← exists_fitting_iff made, Bool.forall_bool]

/-- With the tests of one sort true and the others false, the entries of that
sort fit. -/
theorem fitsEntry_sort_iff {entry : ValueSetEntry} (sort : Bool)
    (succeeds : Succeeds (entryPart var entry)) :
    FitsEntry (fun _ => sort = false) (fun _ => sort = true) var entry ↔ entry.isTerm = sort := by
  have holds : ∀ part : EntryPart, part.Holds (fun _ => sort = false) (fun _ => sort = true) ↔
      part.term?.isSome = sort := by
    intro part
    cases part <;> simp [EntryPart.Holds, EntryPart.term?, eq_comm]
  obtain ⟨part, success⟩ := succeeds
  rw [← entryPart_term? success, ← holds]
  refine ⟨?_, fun fits => ⟨part, success, fits⟩⟩
  rintro ⟨other, same, fits⟩
  cases same.symm.trans success
  exact fits

/-- The demands are that one of the entries fits, if there are entries and they
are of one sort. -/
theorem demands_disjunction_iff (made : entries.mapM (entryPart var) = .ok parts) :
    (∀ truth isValue, (∀ demand ∈ demands parts, demand.Met truth isValue) ↔
        ∃ entry ∈ entries, FitsEntry truth isValue var entry) ↔
      entries ≠ [] ∧ ∀ entry ∈ entries, ∀ other ∈ entries, entry.isTerm = other.isTerm := by
  constructor
  · intro law
    refine ⟨?_, fun entry member other among => ?_⟩
    · rintro rfl
      have met : ∀ demand ∈ demands parts, demand.Met (fun _ => True) (fun _ => True) :=
        (demands_met_iff made).mpr (by simp)
      obtain ⟨entry, member, -⟩ := (law _ _).mp met
      cases member
    · have succeeds : ∀ entry ∈ entries, Succeeds (entryPart var entry) := fun entry member => by
        obtain ⟨part, -, success⟩ := checked_mapM_made made entry member
        exact ⟨part, success⟩
      have met := (law _ _).mpr
        ⟨entry, member, (fitsEntry_sort_iff entry.isTerm (succeeds entry member)).mpr rfl⟩
      obtain ⟨fitting, there, same, fits⟩ :=
        (demands_met_iff made).mp met other.isTerm ⟨other, among, rfl⟩
      exact ((fitsEntry_sort_iff entry.isTerm (succeeds fitting there)).mp fits).symm.trans same
  · rintro ⟨nonempty, alike⟩ truth isValue
    rw [demands_met_iff made]
    constructor
    · intro each
      obtain ⟨entry, member⟩ := List.exists_mem_of_ne_nil _ nonempty
      obtain ⟨other, among, -, fits⟩ := each _ ⟨entry, member, rfl⟩
      exact ⟨other, among, fits⟩
    · rintro ⟨entry, member, fits⟩ sort ⟨other, among, same⟩
      exact ⟨entry, member, (alike entry member other among).trans same, fits⟩

/-- A demand is made only where there is a condition to meet. -/
theorem conditions_of_demand {conditions : List String}
    (member : .condition conditions ∈ demands parts) : conditions ≠ [] := by
  rw [demands, List.mem_append] at member
  rcases member with member | member
  · split at member
    · cases member
    · next some =>
      cases List.mem_singleton.mp member
      exact some
  · split at member
    · cases member
    · cases List.mem_singleton.mp member

end Parts

/-- For well-typed entries there are lines, and they are those of the demands.
A value meets the demands if it fits an entry of each sort of which there are
entries, terms and conditions; this is the same as fitting one of the entries
exactly if there are entries and all are of one sort. The text of a filter says
what it should. -/
theorem valueSetLines_meaning (entries : List ValueSetEntry) (var : String) :
    (entries.all ValueSetEntry.wellTyped = true → Succeeds (valueSetLines entries var)) ∧
    ∀ lines, valueSetLines entries var = .ok lines →
      ∃ parts, entries.mapM (entryPart var) = .ok parts ∧
        lines = (demands parts).map (Demand.line var) ∧
        (∀ truth isValue, (∀ demand ∈ demands parts, demand.Met truth isValue) ↔
          ∀ sort, (∃ entry ∈ entries, entry.isTerm = sort) →
            ∃ entry ∈ entries, entry.isTerm = sort ∧ FitsEntry truth isValue var entry) ∧
        ((∀ truth isValue, (∀ demand ∈ demands parts, demand.Met truth isValue) ↔
            ∃ entry ∈ entries, FitsEntry truth isValue var entry) ↔
          entries ≠ [] ∧ ∀ entry ∈ entries, ∀ other ∈ entries, entry.isTerm = other.isTerm) ∧
        ∀ conditions, .condition conditions ∈ demands parts →
          (∀ condition ∈ conditions, Closed condition) →
          ∀ truth, Holds truth (joined "||" conditions) ↔
            ∃ condition ∈ conditions, Holds truth condition := by
  constructor
  · intro typed
    rw [List.all_eq_true] at typed
    exact .bind (.mapM fun entry member => entryPart_succeeds (typed entry member) var) fun _ =>
      .pure _
  · intro lines success
    obtain ⟨parts, made, same⟩ := valueSetLines_demands success
    refine ⟨parts, made, same, fun truth isValue => demands_met_iff made,
      demands_disjunction_iff made, ?_⟩
    exact fun conditions member closed truth => holds_any (conditions_of_demand member) closed

def mixedValues : List ValueSetEntry :=
  [.iri "http://ex/a", .stem .language (.string "en")]

def mixedParts : List EntryPart :=
  [.term "<http://ex/a>", .condition "LANGMATCHES(LANG(?o), \"en\")"]

theorem mixedValues_parts : mixedValues.mapM (entryPart "?o") = .ok mixedParts := by
  rfl

theorem mixedValues_lines : valueSetLines mixedValues "?o" =
    .ok ["FILTER(LANGMATCHES(LANG(?o), \"en\"))", "VALUES ?o \x7b <http://ex/a> \x7d"] := by
  rfl

/-- A plain term and a condition give two lines, and a value has to meet both. -/
theorem valueSetLines_meaning_mixed :
    mixedValues.all ValueSetEntry.wellTyped = true ∧
      valueSetLines mixedValues "?o" =
        .ok ["FILTER(LANGMATCHES(LANG(?o), \"en\"))", "VALUES ?o \x7b <http://ex/a> \x7d"] ∧
      Succeeds (valueSetLines mixedValues "?o") ∧
      ∃ parts, mixedValues.mapM (entryPart "?o") = .ok parts ∧
        ∀ truth isValue, (∀ demand ∈ demands parts, demand.Met truth isValue) ↔
          ∀ sort, (∃ entry ∈ mixedValues, entry.isTerm = sort) →
            ∃ entry ∈ mixedValues, entry.isTerm = sort ∧ FitsEntry truth isValue "?o" entry := by
  obtain ⟨total, law⟩ := valueSetLines_meaning mixedValues "?o"
  obtain ⟨parts, made, -, met, -⟩ := law _ mixedValues_lines
  exact ⟨rfl, mixedValues_lines, total rfl, parts, made, met⟩

/-- A term that is listed does not fit if there is also a condition, and that
one does not hold. -/
theorem mixedValues_not_disjunction :
    ∃ parts, mixedValues.mapM (entryPart "?o") = .ok parts ∧
      valueSetLines mixedValues "?o" = .ok ((demands parts).map (Demand.line "?o")) ∧
      ∃ truth isValue, (∃ entry ∈ mixedValues, FitsEntry truth isValue "?o" entry) ∧
        ¬ ∀ demand ∈ demands parts, demand.Met truth isValue := by
  refine ⟨mixedParts, mixedValues_parts, rfl, fun _ => False,
    fun text => text = "<http://ex/a>", ?_, ?_⟩
  · exact ⟨.iri "http://ex/a", List.mem_cons_self, .term "<http://ex/a>", rfl, rfl⟩
  · intro met
    obtain ⟨-, -, absurd⟩ := met (.condition ["LANGMATCHES(LANG(?o), \"en\")"]) List.mem_cons_self
    exact absurd

end ShapeQuery.Compile
