import ShapeQuery.Proofs.FreshNames

/-!
The variable that a filter is on: the one that comes first in it, whatever else its texts hold.
A filter of a node constraint is on the variable of the constraint, and so is a filter that
such filters are combined into.
-/
namespace ShapeQuery

/-- The first variable in a text. -/
def firstVariable? (text : String) : Option String :=
  match text.toList.dropWhile (· ≠ '?') with
  | [] => none
  | mark :: rest => some (String.ofList (mark :: rest.takeWhile Text.isWord))

/-- A filter is on the variable that comes first in it. -/
def FilterOn (var line : String) : Prop :=
  isFilter line = true ∧ firstVariable? line = some var

instance (var line : String) : Decidable (FilterOn var line) :=
  inferInstanceAs (Decidable (_ ∧ _))

theorem FilterOn.unique {var other line : String} (on : FilterOn var line)
    (also : FilterOn other line) : var = other :=
  Option.some.inj (on.2.symm.trans also.2)

namespace Compile

section Filters

variable {var text line : String}

/-- A text that leads with a variable has it as its first one. -/
theorem Leads.firstVariable? (named : IsNamed var) (leads : Leads var text) :
    firstVariable? text = some var := by
  obtain ⟨front, c, back, same, unmarked, apart⟩ := leads
  obtain ⟨name, chars, word⟩ := named
  have passed : text.toList.dropWhile (· ≠ '?') = '?' :: (name ++ c :: back) := by
    have others : ∀ d ∈ front, decide (d ≠ '?') = true := by
      intro d member
      exact decide_eq_true fun mark => unmarked (mark ▸ member)
    rw [same, List.append_assoc, List.dropWhile_append_of_pos others, chars, List.cons_append]
    exact List.dropWhile_cons_of_neg (by decide)
  have stop : (c :: back).takeWhile Text.isWord = [] := List.takeWhile_cons_of_neg (by simp [apart])
  unfold ShapeQuery.firstVariable?
  rw [passed]
  dsimp only
  rw [Template.takeWhile_name word stop, ← chars, String.ofList_toList]

/-- A filter that tests a variable is on that variable. -/
theorem Tests.filterOn (named : IsNamed var) (tests : Tests var line) : FilterOn var line := by
  obtain ⟨condition, rfl, leads⟩ := tests
  refine ⟨isFilter_filterLine condition, Leads.firstVariable? named ?_⟩
  exact (leads.after (by decide)).append _

theorem conditionOf_filterLine (condition : String) :
    conditionOf (filterLine condition) = "(" ++ condition ++ ")" := by
  have text : (filterLine condition).toList.drop "FILTER".length = '(' ::
      condition.toList ++ [')'] := by
    have length : "FILTER".length = 6 := by decide
    simp [filterLine, length]
  have front : Text.isBlank '(' = false := by decide
  have back : Text.isBlank ')' = false := by decide
  rw [conditionOf, text, Text.trim, Text.trimStart, Text.trimStart, List.cons_append,
    List.dropWhile_cons_of_neg (by simp [front]), List.reverse_cons, List.reverse_append,
    List.reverse_singleton, List.cons_append, List.cons_append,
    List.dropWhile_cons_of_neg (by simp [back])]
  simp [String.append_assoc]

/-- Combined filters on a variable are a filter on it. -/
theorem mergeFilters_tests {filters : List String} (some : filters ≠ []) (operator : String)
    (each : ∀ filter ∈ filters, Tests var filter) : Tests var (mergeFilters filters operator) := by
  match filters with
  | [] => exact absurd rfl some
  | [filter] => exact each filter List.mem_cons_self
  | first :: second :: rest =>
    obtain ⟨condition, same, leads⟩ := each first List.mem_cons_self
    refine ⟨_, rfl, ?_⟩
    rw [List.map_cons, same, conditionOf_filterLine]
    exact ((leads.after (by decide)).append _).joined _ _

end Filters

end Compile

end ShapeQuery
