import ShapeQuery.Proofs.FirstVariable

/-!
What a filter condition means, read from its text. Outside brackets and strings `||` separates
alternatives and, within an alternative, `&&` separates what must hold together; brackets
around one of these parts are taken away, and what is inside is read in the same way. The
truth of the conditions that are left, which have no parts, is given. A text that is put
together from conditions in brackets is read back as it was meant, as long as the brackets and
strings of each condition are closed.
-/
namespace ShapeQuery.Condition

open Compile

/-! ### Brackets and strings -/

inductive Lexical where
  | code
  | string
  /-- Behind a backslash in a string. -/
  | escape
deriving DecidableEq, Repr

/-- A place in a condition: what is being read there, and how many brackets are open. -/
structure Place where
  lexical : Lexical := .code
  depth : Nat := 0
deriving DecidableEq, Repr

/-- The place behind a character. A bracket that closes nothing leads nowhere. -/
def Place.after (place : Place) (c : Char) : Option Place :=
  match place.lexical with
  | .escape => some ⟨.string, place.depth⟩
  | .string => some ⟨if c = '"' then .code else if c = '\\' then .escape else .string, place.depth⟩
  | .code =>
    if c = ')' then
      if place.depth = 0 then none else some ⟨.code, place.depth - 1⟩
    else some ⟨if c = '"' then .string else .code, if c = '(' then place.depth + 1 else place.depth⟩

def Place.through : Place → List Char → Option Place
  | place, [] => some place
  | place, c :: rest => (place.after c).bind (·.through rest)

/-- A text whose brackets and strings are closed: nothing is open behind it, as
nothing was before it. -/
def Balanced (text : List Char) : Prop :=
  Place.through {} text = some {}

instance (text : List Char) : Decidable (Balanced text) :=
  inferInstanceAs (Decidable (_ = _))

/-- The place behind two texts is the place behind the second one, from behind
the first. -/
theorem Place.through_append (place : Place) (front back : List Char) :
    place.through (front ++ back) = (place.through front).bind (·.through back) := by
  induction front generalizing place with
  | nil => rfl
  | cons c rest ih =>
    rw [List.cons_append, through, through]
    cases place.after c with
    | none => rfl
    | some next => exact ih next

def Place.inside (place : Place) : Place :=
  { place with depth := place.depth + 1 }

/-- A bracket around a text makes no difference inside it. -/
theorem Place.after_inside {place next : Place} {c : Char} (moved : place.after c = some next) :
    place.inside.after c = some next.inside := by
  obtain ⟨lexical, depth⟩ := place
  cases lexical with
  | escape =>
    cases moved
    rfl
  | string =>
    cases moved
    rfl
  | code =>
    by_cases closing : c = ')'
    · cases depth with
      | zero =>
        subst closing
        cases moved
      | succ depth =>
        subst closing
        cases moved
        rfl
    · by_cases opening : c = '('
      · subst opening
        cases moved
        rfl
      · simp only [Place.after, if_neg closing, if_neg opening] at moved
        cases moved
        simp only [Place.after, Place.inside, if_neg closing, if_neg opening]

def bracketed (text : List Char) : List Char :=
  '(' :: text ++ [')']

/-! ### Parts -/

def connective (mark : Char) : List Char :=
  [' ', mark, mark, ' ']

/-- Whether a text starts with a connective. -/
def startsConnective (mark : Char) (text : List Char) : Bool :=
  (connective mark).isPrefixOf text

def attach (front : List Char) : List (List Char) → List (List Char)
  | [] => [front]
  | first :: others => (front ++ first) :: others

/-- The parts of a text between the connectives that stand outside brackets and
strings. The first `passed` characters belong to a connective. -/
def parts (mark : Char) : Place → Nat → List Char → List (List Char)
  | _, _, [] => [[]]
  | place, passed + 1, _ :: rest => parts mark place passed rest
  | place, 0, c :: rest =>
    if place = {} ∧ startsConnective mark (c :: rest) then
      [] :: parts mark place 3 rest
    else
      match place.after c with
      | some next => attach [c] (parts mark next 0 rest)
      | none => [c :: rest]

theorem attach_attach (front back : List Char) (others : List (List Char)) :
    attach front (attach back others) = attach (front ++ back) others := by
  cases others with
  | nil => rfl
  | cons first rest => simp only [attach, List.append_assoc]

theorem attach_nil {mark : Char} {place : Place} {passed : Nat} {text : List Char} :
    attach [] (parts mark place passed text) = parts mark place passed text := by
  have nonempty : parts mark place passed text ≠ [] := by
    fun_induction parts mark place passed text with
    | case1 => simp
    | case2 place passed c rest ih => exact ih
    | case3 => simp
    | case4 place c rest inside next moved ih =>
      cases others : parts mark next 0 rest with
      | nil => simp [attach]
      | cons first others => simp [attach]
    | case5 => simp
  cases others : parts mark place passed text with
  | nil => exact absurd others nonempty
  | cons first others => rfl

/-- A step over a character that starts no connective. -/
theorem parts_step {mark c : Char} {place next : Place} {rest : List Char}
    (plain : ¬ (place = {} ∧ startsConnective mark (c :: rest) = true))
    (moved : place.after c = some next) :
    parts mark place 0 (c :: rest) = attach [c] (parts mark next 0 rest) := by
  rw [parts, if_neg plain, moved]

theorem parts_inside (mark : Char) {place next : Place} {text : List Char}
    (moved : place.through text = some next) (rest : List Char) :
    parts mark place.inside 0 (text ++ rest) = attach text (parts mark next.inside 0 rest) := by
  induction text generalizing place with
  | nil =>
    cases moved
    exact attach_nil.symm
  | cons c text ih =>
    obtain ⟨middle, first, others⟩ := Option.bind_eq_some_iff.mp moved
    have deep : ¬ (place.inside = {} ∧ startsConnective mark (c :: (text ++ rest)) = true) := by
      rintro ⟨top, -⟩
      cases congrArg Place.depth top
    rw [List.cons_append, parts_step deep (Place.after_inside first), ih others, attach_attach]
    rfl

/-- A text that no connective cuts, whatever stands behind it. -/
def Whole (mark : Char) (text : List Char) : Prop :=
  ∀ rest, parts mark {} 0 (text ++ rest) = attach text (parts mark {} 0 rest)

/-- Two texts that are not cut are not cut side by side. -/
theorem Whole.append {mark : Char} {front back : List Char} (first : Whole mark front)
    (second : Whole mark back) : Whole mark (front ++ back) := by
  intro rest
  rw [List.append_assoc, first, second, attach_attach]

theorem Whole.parts_eq {mark : Char} {text : List Char} (whole : Whole mark text) :
    parts mark {} 0 text = [text] := by
  have alone := whole []
  rw [List.append_nil] at alone
  rw [alone, parts, attach, List.append_nil]

/-- A closed text in brackets is not cut, for the connectives in it are inside. -/
theorem whole_bracketed (mark : Char) {text : List Char} (balanced : Balanced text) :
    Whole mark (bracketed text) := by
  intro rest
  have opened : ¬ (({} : Place) = {} ∧
      startsConnective mark ('(' :: (text ++ ')' :: rest)) = true) := by
    rintro ⟨-, ⟨⟩⟩
  have closed : ¬ (Place.inside {} = {} ∧ startsConnective mark (')' :: rest) = true) := by
    rintro ⟨-, ⟨⟩⟩
  have outside : Place.after (Place.inside {}) ')' = some {} := rfl
  calc parts mark {} 0 (bracketed text ++ rest)
      = parts mark {} 0 ('(' :: (text ++ ')' :: rest)) := by simp [bracketed]
    _ = attach ['('] (parts mark (Place.inside {}) 0 (text ++ ')' :: rest)) := parts_step opened rfl
    _ = attach ['('] (attach text (parts mark (Place.inside {}) 0 (')' :: rest))) := by
      rw [parts_inside mark balanced]
    _ = attach ['('] (attach text (attach [')'] (parts mark {} 0 rest))) := by
      rw [parts_step closed outside]
    _ = attach (bracketed text) (parts mark {} 0 rest) := by
      rw [attach_attach, attach_attach]
      rfl

theorem parts_connective (mark : Char) (rest : List Char) :
    parts mark {} 0 (connective mark ++ rest) = [] :: parts mark {} 0 rest := by
  simp [connective, parts, startsConnective]

/-- What must hold together is not cut into alternatives. -/
theorem whole_connective_bracketed {text : List Char} (balanced : Balanced text) :
    Whole '|' (connective '&' ++ bracketed text) := by
  intro rest
  have step : ∀ {c : Char} {rest : List Char}, startsConnective '|' (c :: rest) = false →
      Place.after {} c = some {} → parts '|' {} 0 (c :: rest) = attach [c] (parts '|' {} 0 rest) :=
    fun plain => parts_step (by simp [plain])
  calc parts '|' {} 0 (connective '&' ++ bracketed text ++ rest)
      = parts '|' {} 0 (' ' :: '&' :: '&' :: ' ' :: (bracketed text ++ rest)) := rfl
    _ = attach (connective '&') (parts '|' {} 0 (bracketed text ++ rest)) := by
      rw [step rfl rfl, step rfl rfl, step rfl rfl, step rfl rfl, attach_attach, attach_attach,
        attach_attach]
      rfl
    _ = attach (connective '&' ++ bracketed text) (parts '|' {} 0 rest) := by
      rw [whole_bracketed '|' balanced, attach_attach]

def chained (mark : Char) (texts : List (List Char)) : List Char :=
  texts.flatMap fun text => connective mark ++ bracketed text

def join (mark : Char) : List (List Char) → List Char
  | [] => []
  | text :: rest => bracketed text ++ chained mark rest

/-- Closed texts in brackets, each behind a connective, are the parts of the
chain. Induction on the texts. -/
theorem parts_chained (mark : Char) {texts : List (List Char)}
    (balanced : ∀ text ∈ texts, Balanced text) :
    parts mark {} 0 (chained mark texts) = [] :: texts.map bracketed := by
  induction texts with
  | nil => rfl
  | cons text rest ih =>
    obtain ⟨here, others⟩ := List.forall_mem_cons.mp balanced
    rw [chained, List.flatMap_cons, ← chained, List.append_assoc, parts_connective,
      whole_bracketed mark here, ih others, attach, List.append_nil, List.map_cons]

/-- Texts that are joined are the parts of what comes of it. -/
theorem parts_join (mark : Char) {texts : List (List Char)} (some : texts ≠ [])
    (balanced : ∀ text ∈ texts, Balanced text) :
    parts mark {} 0 (join mark texts) = texts.map bracketed := by
  cases texts with
  | nil => exact absurd rfl some
  | cons text rest =>
    obtain ⟨here, others⟩ := List.forall_mem_cons.mp balanced
    rw [join, whole_bracketed mark here, parts_chained mark others, attach, List.append_nil,
      List.map_cons]

/-- What must hold together stands in one alternative. -/
theorem whole_join {texts : List (List Char)} (balanced : ∀ text ∈ texts, Balanced text) :
    Whole '|' (join '&' texts) := by
  have behind : ∀ {texts : List (List Char)}, (∀ text ∈ texts, Balanced text) →
      Whole '|' (chained '&' texts) := by
    intro texts balanced
    induction texts with
    | nil => exact fun rest => attach_nil.symm
    | cons text rest ih =>
      obtain ⟨here, others⟩ := List.forall_mem_cons.mp balanced
      exact (whole_connective_bracketed here).append (ih others)
  cases texts with
  | nil => exact fun rest => attach_nil.symm
  | cons text rest =>
    obtain ⟨here, others⟩ := List.forall_mem_cons.mp balanced
    exact (whole_bracketed '|' here).append (behind others)

theorem Balanced.append {front back : List Char} (first : Balanced front) (second : Balanced back) :
    Balanced (front ++ back) := by
  rw [Balanced, Place.through_append, first]
  exact second

theorem Place.through_inside {place next : Place} {text : List Char}
    (moved : place.through text = some next) : place.inside.through text = some next.inside := by
  induction text generalizing place with
  | nil =>
    cases moved
    rfl
  | cons c text ih =>
    obtain ⟨middle, first, others⟩ := Option.bind_eq_some_iff.mp moved
    rw [through, after_inside first]
    exact ih others

theorem Balanced.bracketed {text : List Char} (balanced : Balanced text) :
    Balanced (bracketed text) := by
  have inside : (Place.inside {}).through text = some (Place.inside {}) :=
    Place.through_inside balanced
  have opened : Place.through {} ('(' :: text) = some (Place.inside {}) := inside
  rw [Balanced, Condition.bracketed, Place.through_append, opened]
  rfl

theorem balanced_join {mark : Char} (plain : Balanced (connective mark)) {texts : List (List Char)}
    (balanced : ∀ text ∈ texts, Balanced text) : Balanced (join mark texts) := by
  have behind : ∀ {texts : List (List Char)}, (∀ text ∈ texts, Balanced text) →
      Balanced (chained mark texts) := by
    intro texts balanced
    induction texts with
    | nil => rfl
    | cons text rest ih =>
      obtain ⟨here, others⟩ := List.forall_mem_cons.mp balanced
      exact (plain.append here.bracketed).append (ih others)
  cases texts with
  | nil => rfl
  | cons text rest =>
    obtain ⟨here, others⟩ := List.forall_mem_cons.mp balanced
    exact here.bracketed.append (behind others)

/-! ### Meaning -/

/-- What is between the brackets of a text in brackets. -/
def inner? : List Char → Option (List Char)
  | '(' :: rest => if rest.getLast? = some ')' ∧ Balanced rest.dropLast
    then some rest.dropLast else none
  | _ => none

/-- The brackets around a closed text belong together, so what is between them
is the text. -/
theorem inner?_bracketed {text : List Char} (balanced : Balanced text) :
    inner? (bracketed text) = some text := by
  simp [bracketed, inner?, balanced]

/-- Whether a condition holds, given the truth of the simple conditions in it.
Its text is cut at the connectives outside of brackets, the alternatives
first. -/
inductive Means (truth : String → Prop) : List Char → Prop where
  | intro {text part} (alternative : part ∈ parts '|' {} 0 text)
      (compound : ∀ unit ∈ parts '&' {} 0 part, ∀ inside, inner? unit = some inside →
        Means truth inside)
      (simple : ∀ unit ∈ parts '&' {} 0 part, inner? unit = none → truth (String.ofList unit)) :
      Means truth text

section Meaning

variable {truth : String → Prop}

theorem means_join_any {texts : List (List Char)} (some : texts ≠ [])
    (balanced : ∀ text ∈ texts, Balanced text) :
    Means truth (join '|' texts) ↔ ∃ text ∈ texts, Means truth text := by
  have alone : ∀ text ∈ texts, parts '&' {} 0 (bracketed text) = [bracketed text] :=
    fun text member => (whole_bracketed '&' (balanced text member)).parts_eq
  constructor
  · rintro ⟨alternative, compound, -⟩
    rw [parts_join '|' some balanced] at alternative
    obtain ⟨text, member, rfl⟩ := List.mem_map.mp alternative
    rw [alone text member] at compound
    exact ⟨text, member, compound _ List.mem_cons_self _ (inner?_bracketed (balanced text member))⟩
  · rintro ⟨text, member, holds⟩
    have inner := inner?_bracketed (balanced text member)
    refine @Means.intro truth _ (bracketed text) ?_ ?_ ?_
    · rw [parts_join '|' some balanced]
      exact List.mem_map_of_mem member
    · rw [alone text member, List.forall_mem_singleton, inner]
      rintro inside ⟨⟩
      exact holds
    · rw [alone text member, List.forall_mem_singleton, inner]
      rintro ⟨⟩

theorem means_join_all {texts : List (List Char)} (some : texts ≠ [])
    (balanced : ∀ text ∈ texts, Balanced text) :
    Means truth (join '&' texts) ↔ ∀ text ∈ texts, Means truth text := by
  have one : parts '|' {} 0 (join '&' texts) = [join '&' texts] := (whole_join balanced).parts_eq
  have cut : parts '&' {} 0 (join '&' texts) = texts.map bracketed := parts_join '&' some balanced
  constructor
  · rintro ⟨alternative, compound, -⟩ text member
    rw [one, List.mem_singleton] at alternative
    rw [alternative, cut] at compound
    exact compound _ (List.mem_map_of_mem member) _ (inner?_bracketed (balanced text member))
  · intro holds
    refine @Means.intro truth _ (join '&' texts) (one ▸ List.mem_cons_self) ?_ ?_
    · rw [cut]
      intro unit among inside inner
      obtain ⟨text, member, rfl⟩ := List.mem_map.mp among
      rw [inner?_bracketed (balanced text member)] at inner
      cases inner
      exact holds _ member
    · rw [cut]
      intro unit among inner
      obtain ⟨text, member, rfl⟩ := List.mem_map.mp among
      rw [inner?_bracketed (balanced text member)] at inner
      cases inner

end Meaning

/-! ### Joined conditions -/

/-- Conditions with an operator between them, each in brackets. A single one
stays as it is. -/
def joined (operator : String) : List String → String
  | [condition] => condition
  | conditions => (" " ++ operator ++ " ").intercalate (conditions.map fun c => "(" ++ c ++ ")")

/-- Merged filters are a filter for their joined conditions. -/
theorem mergeFilters_filterLines (conditions : List String) (operator : String) :
    mergeFilters (conditions.map filterLine) operator =
      filterLine (joined operator conditions) := by
  have stripped : (conditions.map filterLine).map conditionOf = conditions.map fun c =>
      "(" ++ c ++ ")" := by
    rw [List.map_map]
    exact List.map_congr_left fun c _ => conditionOf_filterLine c
  obtain _ | ⟨first, _ | ⟨second, rest⟩⟩ := conditions
  · rfl
  · rfl
  · exact congrArg (fun texts => filterLine ((" " ++ operator ++ " ").intercalate texts)) stripped

/-! ### Formulas -/

/-- How conditions are put together. -/
inductive Connective where
  | and
  | or
deriving DecidableEq, Repr

def Connective.sign : Connective → String
  | .and => "&&"
  | .or => "||"

/-- A condition that is put together from others. Its atoms are taken as they
are, whatever their text is. -/
inductive Formula where
  | atom (condition : String)
  | merged (connective : Connective) (parts : List Formula)

namespace Formula

mutual

/-- The condition as it is written. -/
def text : Formula → String
  | .atom condition => condition
  | .merged connective parts => joined connective.sign (texts parts)

def texts : List Formula → List String
  | [] => []
  | part :: rest => part.text :: texts rest

end

mutual

/-- Whether a condition is met, given which of its atoms hold. Unlike the
meaning of a text this does not depend on what the atoms look like. -/
def Met (truth : String → Prop) : Formula → Prop
  | .atom condition => truth condition
  | .merged .and parts => AllMet truth parts
  | .merged .or parts => AnyMet truth parts

def AllMet (truth : String → Prop) : List Formula → Prop
  | [] => True
  | part :: rest => part.Met truth ∧ AllMet truth rest

def AnyMet (truth : String → Prop) : List Formula → Prop
  | [] => False
  | part :: rest => part.Met truth ∨ AnyMet truth rest

end

theorem texts_eq_map (parts : List Formula) : texts parts = parts.map text := by
  induction parts with
  | nil => rw [texts, List.map_nil]
  | cons part rest ih => rw [texts, ih, List.map_cons]

variable {truth : String → Prop}

theorem met_and {parts : List Formula} :
    (merged .and parts).Met truth ↔ ∀ part ∈ parts, part.Met truth := by
  rw [Met]
  induction parts with
  | nil => simp [AllMet]
  | cons part rest ih => rw [AllMet, ih, List.forall_mem_cons]

theorem met_or {parts : List Formula} :
    (merged .or parts).Met truth ↔ ∃ part ∈ parts, part.Met truth := by
  rw [Met]
  induction parts with
  | nil => simp [AnyMet]
  | cons part rest ih => rw [AnyMet, ih, List.exists_mem_cons_iff]

end Formula

/-- Filters of formulas are merged into the filter of one formula: the merged
text stands for all of them, or for one of them, as the operator says. -/
theorem mergeFilters_formulas (connective : Connective) (parts : List Formula) :
    mergeFilters (parts.map fun part => filterLine part.text) connective.sign =
      filterLine (Formula.merged connective parts).text := by
  rw [Formula.text, Formula.texts_eq_map, ← mergeFilters_filterLines, List.map_map]
  rfl

theorem alternativesLine_eq {conditions : List String} (some : conditions ≠ []) :
    alternativesLine conditions = [filterLine (joined "||" conditions)] := by
  obtain _ | ⟨first, _ | ⟨second, rest⟩⟩ := conditions
  · exact absurd rfl some
  · rfl
  · rfl

theorem toList_joined {operator : String} {mark : Char} (doubled : operator.toList = [mark, mark])
    (first second : String) (rest : List String) :
    (joined operator (first :: second :: rest)).toList =
      join mark ((first :: second :: rest).map String.toList) := by
  have brackets : ∀ text : String, ("(" ++ text ++ ")").toList = bracketed text.toList := by
    intro text
    simp [bracketed]
  have behind : ∀ (first : String) (rest : List String),
      ((" " ++ operator ++ " ").intercalate ((first :: rest).map fun c => "(" ++ c ++ ")")).toList =
        join mark ((first :: rest).map String.toList) := by
    intro first rest
    induction rest generalizing first with
    | nil => simpa [join, chained] using brackets first
    | cons next rest ih =>
      have cut : (" " ++ operator ++ " ").toList = connective mark := by
        simp [doubled, connective]
      have others := ih next
      rw [List.map_cons] at others
      rw [List.map_cons, List.map_cons, String.intercalate_cons_cons, String.toList_append,
        String.toList_append, others, brackets, cut]
      simp [join, chained]
  exact behind first (second :: rest)

def Closed (condition : String) : Prop :=
  Balanced condition.toList

instance (condition : String) : Decidable (Closed condition) :=
  inferInstanceAs (Decidable (Balanced _))

/-- Whether a condition holds, given the truth of the simple conditions in it. -/
def Holds (truth : String → Prop) (condition : String) : Prop :=
  Means truth condition.toList

theorem closed_joined {operator : String} {mark : Char} (doubled : operator.toList = [mark, mark])
    (plain : Balanced (connective mark)) {conditions : List String}
    (closed : ∀ condition ∈ conditions, Closed condition) :
    Closed (joined operator conditions) := by
  obtain _ | ⟨first, _ | ⟨second, rest⟩⟩ := conditions
  · rfl
  · exact closed first List.mem_cons_self
  · rw [Closed, toList_joined doubled]
    exact balanced_join plain (List.forall_mem_map.mpr closed)

section Meaning

variable {truth : String → Prop}

/-- Closed conditions that are joined as alternatives hold if one of them holds. -/
theorem holds_any {conditions : List String} (some : conditions ≠ [])
    (closed : ∀ condition ∈ conditions, Closed condition) :
    Holds truth (joined "||" conditions) ↔
      ∃ condition ∈ conditions, Holds truth condition := by
  obtain _ | ⟨first, _ | ⟨second, rest⟩⟩ := conditions
  · exact absurd rfl some
  · simp [joined]
  · have doubled : "||".toList = ['|', '|'] := rfl
    rw [Holds, toList_joined doubled, means_join_any (by simp) (List.forall_mem_map.mpr closed)]
    simp only [List.mem_map, exists_exists_and_eq_and, Holds]

/-- Closed conditions that are joined as a conjunction hold if all of them hold. -/
theorem holds_all {conditions : List String} (some : conditions ≠ [])
    (closed : ∀ condition ∈ conditions, Closed condition) :
    Holds truth (joined "&&" conditions) ↔
      ∀ condition ∈ conditions, Holds truth condition := by
  obtain _ | ⟨first, _ | ⟨second, rest⟩⟩ := conditions
  · exact absurd rfl some
  · simp [joined]
  · have doubled : "&&".toList = ['&', '&'] := rfl
    rw [Holds, toList_joined doubled, means_join_all (by simp) (List.forall_mem_map.mpr closed)]
    exact List.forall_mem_map

/-- Alternatives that each ask for several conditions hold if all conditions of
one of them hold. -/
theorem holds_alternatives {alternatives : List (List String)} (some : alternatives ≠ [])
    (filled : [] ∉ alternatives)
    (closed : ∀ conditions ∈ alternatives, ∀ c ∈ conditions, Closed c) :
    Holds truth (joined "||" (alternatives.map (joined "&&"))) ↔
      ∃ conditions ∈ alternatives, ∀ c ∈ conditions, Holds truth c := by
  have doubled : "&&".toList = ['&', '&'] := rfl
  have each : ∀ conditions ∈ alternatives, (Holds truth (joined "&&" conditions) ↔
      ∀ c ∈ conditions, Holds truth c) := fun conditions member =>
    holds_all (fun none => filled (none ▸ member)) (closed conditions member)
  rw [holds_any (by simpa using some) (List.forall_mem_map.mpr fun conditions member =>
    closed_joined doubled (by decide) (closed conditions member))]
  simp only [List.mem_map, exists_exists_and_eq_and]
  exact exists_congr fun conditions => and_congr_right fun member => each conditions member

end Meaning

end ShapeQuery.Condition
