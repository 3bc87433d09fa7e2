import ShapeQuery.Proofs.GroupForm
import ShapeQuery.Proofs.Substitution

/-!
The occurrences of a variable that a term is put in place of. An occurrence is whole if no word
character follows it. A text falls into pieces at the whole occurrences of a variable; replacing
the variable puts the term between the pieces instead, and changes nothing else. A term in angle
brackets does not run together with what stands around it, so if it has no whole occurrence of
the variable in it, none is left.
-/
namespace ShapeQuery

/-- An occurrence of a variable in a text, with what stands in front of it and
behind it, that does not go on as a longer name. -/
structure WholeAt (variableName text front back : List Char) : Prop where
  split : text = front ++ variableName ++ back
  ends : ∀ c, back.head? = some c → Text.isWord c = false

/-- A place between two of some parts that are put together with a separator:
what stands in front of the separator there, and what stands behind it. -/
def IsJoint (separator : List Char) (parts : List (List Char)) (front back : List Char) : Prop :=
  ∃ left right, left ≠ [] ∧ right ≠ [] ∧ parts = left ++ right ∧
    front = separator.intercalate left ∧ back = separator.intercalate right

/-- A text falls into pieces at the whole occurrences of a variable, and
nowhere else. -/
structure FallsInto (variableName text : List Char) (pieces : List (List Char)) : Prop where
  joined : text = variableName.intercalate pieces
  joints : ∀ front back, WholeAt variableName text front back ↔
    IsJoint variableName pieces front back

namespace Group

open Compile.Template

/-! ### Where a variable occurs -/

theorem takeWhile_eq_nil_iff {text : List Char} :
    text.takeWhile Text.isWord = [] ↔ ∀ c, text.head? = some c → Text.isWord c = false := by
  cases text with
  | nil => simp
  | cons c rest => by_cases word : Text.isWord c = true <;> simp [word]

section Variable

variable {name : List Char}

/-- A variable does not occur in a text without question marks. -/
theorem not_wholeAt_of_unmarked {text front back : List Char} (unmarked : '?' ∉ text) :
    ¬ WholeAt ('?' :: name) text front back := by
  intro whole
  rw [whole.split] at unmarked
  simp at unmarked

/-- A whole occurrence in a text is at its start or in the rest of it. -/
theorem wholeAt_cons (word : ∀ c ∈ name, Text.isWord c = true) {c : Char}
    {rest front back : List Char} :
    WholeAt ('?' :: name) (c :: rest) front back ↔
      (front = [] ∧ (c = '?' ∧ rest.takeWhile Text.isWord = name) ∧
        back = rest.dropWhile Text.isWord) ∨
        ∃ before, front = c :: before ∧ WholeAt ('?' :: name) rest before back := by
  constructor
  · rintro ⟨split, ends⟩
    cases front with
    | nil =>
      rw [List.nil_append, List.cons_append, List.cons.injEq] at split
      obtain ⟨mark, rfl⟩ := split
      have stop := takeWhile_eq_nil_iff.mpr ends
      exact Or.inl ⟨rfl, ⟨mark, takeWhile_name word stop⟩, (dropWhile_name word stop).symm⟩
    | cons d before =>
      rw [List.append_assoc, List.cons_append, List.cons.injEq, ← List.append_assoc] at split
      obtain ⟨rfl, inside⟩ := split
      exact Or.inr ⟨before, rfl, inside, ends⟩
  · rintro (⟨rfl, ⟨rfl, rfl⟩, rfl⟩ | ⟨before, rfl, inside⟩)
    · refine ⟨?_, takeWhile_eq_nil_iff.mp (takeWhile_dropWhile rest)⟩
      rw [List.nil_append, List.cons_append, List.takeWhile_append_dropWhile]
    · refine ⟨?_, inside.ends⟩
      rw [inside.split, List.cons_append, List.cons_append]

/-- No occurrence starts in a text without a question mark. -/
theorem wholeAt_append (word : ∀ c ∈ name, Text.isWord c = true) {plain rest front back : List Char}
    (unmarked : '?' ∉ plain) :
    WholeAt ('?' :: name) (plain ++ rest) front back ↔
      ∃ before, front = plain ++ before ∧ WholeAt ('?' :: name) rest before back := by
  induction plain generalizing front with
  | nil => simp
  | cons c plain ih =>
    rw [List.mem_cons, not_or] at unmarked
    rw [List.cons_append, wholeAt_cons word]
    constructor
    · rintro (⟨-, ⟨mark, -⟩, -⟩ | ⟨before, rfl, inside⟩)
      · exact absurd mark.symm unmarked.1
      · obtain ⟨behind, rfl, whole⟩ := (ih unmarked.2).mp inside
        exact ⟨behind, rfl, whole⟩
    · rintro ⟨before, rfl, whole⟩
      exact Or.inr ⟨plain ++ before, rfl, (ih unmarked.2).mpr ⟨before, rfl, whole⟩⟩

/-- A closing bracket separates: a whole occurrence is in front of it or behind it. -/
theorem wholeAt_beside_bracket (word : ∀ c ∈ name, Text.isWord c = true)
    {inner rest front back : List Char}
    (whole : WholeAt ('?' :: name) (inner ++ '>' :: rest) front back) :
    (∃ behind, WholeAt ('?' :: name) (inner ++ ['>']) front behind) ∨
      ∃ before, WholeAt ('?' :: name) rest before back := by
  induction inner generalizing front with
  | nil =>
    rcases (wholeAt_cons word).mp whole with ⟨-, ⟨mark, -⟩, -⟩ | ⟨before, -, inside⟩
    · exact absurd mark (by decide)
    · exact Or.inr ⟨before, inside⟩
  | cons c inner ih =>
    rw [List.cons_append, wholeAt_cons word] at whole
    rcases whole with ⟨rfl, ⟨mark, named⟩, -⟩ | ⟨before, rfl, inside⟩
    · rw [takeWhile_append_cons (by decide),
        ← takeWhile_append_cons (c := '>') (by decide) _ []] at named
      exact Or.inl ⟨_, (wholeAt_cons word).mpr (Or.inl ⟨rfl, ⟨mark, named⟩, rfl⟩)⟩
    · rcases ih inside with ⟨behind, whole⟩ | later
      · exact Or.inl ⟨behind, (wholeAt_cons word).mpr (Or.inr ⟨before, rfl, whole⟩)⟩
      · exact Or.inr later

/-! ### Pieces -/

/-- The pieces of a text between the whole occurrences of a variable. -/
def pieces (name : List Char) : List Char → List (List Char)
  | [] => [[]]
  | c :: rest =>
    if c = '?' ∧ rest.takeWhile Text.isWord = name
      then [] :: pieces name (rest.dropWhile Text.isWord)
    else (pieces name rest).modifyHead (c :: ·)
termination_by text => text.length
decreasing_by
  · exact Nat.lt_succ_of_le (List.dropWhile_sublist _).length_le
  · exact Nat.lt_succ_self _

theorem pieces_ne_nil (text : List Char) : pieces name text ≠ [] := by
  fun_induction pieces name text with
  | case1 => simp
  | case2 => simp
  | case3 c rest other ih => simpa using ih

theorem intercalate_modifyHead {separator : List Char} (c : Char) {parts : List (List Char)}
    (some : parts ≠ []) :
    separator.intercalate (parts.modifyHead (c :: ·)) = c :: separator.intercalate parts := by
  cases parts with
  | nil => exact absurd rfl some
  | cons first others => rw [List.modifyHead_cons, List.intercalate_cons_cons_left]

theorem intercalate_nil_cons {separator : List Char} {parts : List (List Char)}
    (some : parts ≠ []) :
    separator.intercalate ([] :: parts) = separator ++ separator.intercalate parts := by
  rw [List.intercalate_cons_of_ne_nil some, List.nil_append]

/-- Put together with the variable between them, the pieces are the text. -/
theorem intercalate_pieces (text : List Char) :
    ('?' :: name).intercalate (pieces name text) = text := by
  fun_induction pieces name text with
  | case1 => rfl
  | case2 c rest whole ih =>
    obtain ⟨rfl, rfl⟩ := whole
    rw [intercalate_nil_cons (pieces_ne_nil _), ih, List.cons_append,
      List.takeWhile_append_dropWhile]
  | case3 c rest other ih => rw [intercalate_modifyHead c (pieces_ne_nil rest), ih]

/-- Put together with the term between them, they are the text with the
variable replaced. -/
theorem replaceFrom_eq_intercalate (word : ∀ c ∈ name, Text.isWord c = true) {term : List Char}
    (text : List Char) :
    replaceFrom ('?' :: name) term 0 text = term.intercalate (pieces name text) := by
  fun_induction pieces name text with
  | case1 => exact replaceFrom_nil
  | case2 c rest whole ih =>
    obtain ⟨rfl, named⟩ := whole
    rw [replaceFrom_whole word named, ih, intercalate_nil_cons (pieces_ne_nil _)]
  | case3 c rest other ih =>
    rw [replaceFrom_other word other, ih, intercalate_modifyHead c (pieces_ne_nil rest)]

section Joints

variable {separator front back : List Char} {parts : List (List Char)}

theorem not_isJoint_singleton {part : List Char} : ¬ IsJoint separator [part] front back := by
  rintro ⟨left, right, someLeft, someRight, split, -⟩
  rcases List.append_eq_singleton_iff.mp split.symm with ⟨rfl, -⟩ | ⟨-, rfl⟩
  · exact someLeft rfl
  · exact someRight rfl

/-- With an empty piece in front, the first joint is at the start. -/
theorem isJoint_nil_cons (some : parts ≠ []) :
    IsJoint separator ([] :: parts) front back ↔
      (front = [] ∧ back = separator.intercalate parts) ∨
        ∃ before, front = separator ++ before ∧ IsJoint separator parts before back := by
  constructor
  · rintro ⟨left, right, someLeft, someRight, split, rfl, rfl⟩
    obtain ⟨first, left, rfl⟩ := List.exists_cons_of_ne_nil someLeft
    rw [List.cons_append, List.cons.injEq] at split
    obtain ⟨rfl, rfl⟩ := split
    by_cases last : left = []
    · subst last
      exact Or.inl ⟨List.intercalate_singleton, rfl⟩
    · exact Or.inr ⟨_, intercalate_nil_cons last, left, right, last, someRight, rfl, rfl, rfl⟩
  · rintro (⟨rfl, rfl⟩ | ⟨_, rfl, left, right, someLeft, someRight, rfl, rfl, rfl⟩)
    · exact ⟨[[]], parts, by simp, some, rfl, List.intercalate_singleton.symm, rfl⟩
    · exact ⟨[] :: left, right, by simp, someRight, rfl, (intercalate_nil_cons someLeft).symm, rfl⟩

/-- A character more in the first piece moves every joint. -/
theorem isJoint_modifyHead (c : Char) :
    IsJoint separator (parts.modifyHead (c :: ·)) front back ↔
      ∃ before, front = c :: before ∧ IsJoint separator parts before back := by
  cases parts with
  | nil => simp [IsJoint]
  | cons part others =>
    rw [List.modifyHead_cons]
    constructor
    · rintro ⟨left, right, someLeft, someRight, split, rfl, rfl⟩
      obtain ⟨first, left, rfl⟩ := List.exists_cons_of_ne_nil someLeft
      rw [List.cons_append, List.cons.injEq] at split
      obtain ⟨rfl, rfl⟩ := split
      exact ⟨_, List.intercalate_cons_cons_left, part :: left, right,
        by simp, someRight, rfl, rfl, rfl⟩
    · rintro ⟨_, rfl, left, right, someLeft, someRight, split, rfl, rfl⟩
      obtain ⟨first, left, rfl⟩ := List.exists_cons_of_ne_nil someLeft
      rw [List.cons_append, List.cons.injEq] at split
      obtain ⟨rfl, rfl⟩ := split
      exact ⟨(c :: part) :: left, right,
        by simp, someRight, rfl, List.intercalate_cons_cons_left.symm, rfl⟩

end Joints

/-- The whole occurrences of a variable are just the joints between the pieces. -/
theorem wholeAt_iff_isJoint (word : ∀ c ∈ name, Text.isWord c = true) (text : List Char) :
    ∀ front back, WholeAt ('?' :: name) text front back ↔
      IsJoint ('?' :: name) (pieces name text) front back := by
  fun_induction pieces name text with
  | case1 =>
    exact fun front back => iff_of_false (not_wholeAt_of_unmarked List.not_mem_nil)
      not_isJoint_singleton
  | case2 c rest whole ih =>
    obtain ⟨rfl, named⟩ := whole
    intro front back
    have split := List.takeWhile_append_dropWhile (p := Text.isWord) (l := rest)
    have later : ∀ before, WholeAt ('?' :: name) rest before back ↔
        ∃ behind, before = name ++ behind ∧
          WholeAt ('?' :: name) (rest.dropWhile Text.isWord) behind back := by
      intro before
      rw [← wholeAt_append word (mark_not_mem_of_isWord word), ← named, split]
    rw [wholeAt_cons word, isJoint_nil_cons (pieces_ne_nil _), intercalate_pieces]
    simp only [later, named, and_self, true_and, ih]
    constructor
    · rintro (start | ⟨_, rfl, behind, rfl, joint⟩)
      · exact Or.inl start
      · exact Or.inr ⟨behind, rfl, joint⟩
    · rintro (start | ⟨behind, rfl, joint⟩)
      · exact Or.inl start
      · exact Or.inr ⟨_, rfl, behind, rfl, joint⟩
  | case3 c rest other ih =>
    intro front back
    rw [wholeAt_cons word, isJoint_modifyHead]
    simp only [other, false_and, and_false, false_or, ih]

/-- Every text falls into its pieces at the whole occurrences of a variable. -/
theorem fallsInto_pieces (word : ∀ c ∈ name, Text.isWord c = true) (text : List Char) :
    FallsInto ('?' :: name) text (pieces name text) :=
  ⟨(intercalate_pieces text).symm, wholeAt_iff_isJoint word text⟩

/-! ### What is left -/

theorem replaceFrom_of_absent (word : ∀ c ∈ name, Text.isWord c = true) {term text : List Char}
    (absent : ∀ front back, ¬ WholeAt ('?' :: name) text front back) :
    replaceFrom ('?' :: name) term 0 text = text := by
  induction text with
  | nil => exact replaceFrom_nil
  | cons c rest ih =>
    have other : ¬ (c = '?' ∧ rest.takeWhile Text.isWord = name) :=
      fun whole => absent _ _ ((wholeAt_cons word).mpr (Or.inl ⟨rfl, whole, rfl⟩))
    rw [replaceFrom_other word other, ih]
    exact fun front back whole => absent _ _ ((wholeAt_cons word).mpr (Or.inr ⟨front, rfl, whole⟩))

theorem takeWhile_append_apart {back : List Char} (apart : back.takeWhile Text.isWord = [])
    (front : List Char) : (front ++ back).takeWhile Text.isWord = front.takeWhile Text.isWord := by
  induction front with
  | nil => exact apart
  | cons c rest ih => rw [List.cons_append, List.takeWhile_cons, List.takeWhile_cons, ih]

theorem dropWhile_append_apart {back : List Char} (apart : back.takeWhile Text.isWord = [])
    (front : List Char) :
    (front ++ back).dropWhile Text.isWord = front.dropWhile Text.isWord ++ back := by
  have whole := List.takeWhile_append_dropWhile (p := Text.isWord) (l := front ++ back)
  have part := List.takeWhile_append_dropWhile (p := Text.isWord) (l := front)
  rw [takeWhile_append_apart apart] at whole
  refine List.append_cancel_left (whole.trans ?_)
  rw [← List.append_assoc, part]

/-- On either side of a place where no name goes on, a text is replaced by itself. -/
theorem replaceFrom_append_apart (word : ∀ c ∈ name, Text.isWord c = true) {term back : List Char}
    (apart : back.takeWhile Text.isWord = []) (front : List Char) :
    replaceFrom ('?' :: name) term 0 (front ++ back) =
      replaceFrom ('?' :: name) term 0 front ++ replaceFrom ('?' :: name) term 0 back := by
  fun_induction pieces name front with
  | case1 => rw [replaceFrom_nil, List.nil_append, List.nil_append]
  | case2 c rest whole ih =>
    obtain ⟨rfl, named⟩ := whole
    have namedBefore : (rest ++ back).takeWhile Text.isWord = name := by
      rw [takeWhile_append_apart apart, named]
    rw [List.cons_append, replaceFrom_whole word namedBefore, replaceFrom_whole word named,
      dropWhile_append_apart apart, ih, List.append_assoc]
  | case3 c rest other ih =>
    have otherBefore : ¬ (c = '?' ∧ (rest ++ back).takeWhile Text.isWord = name) := by
      rwa [takeWhile_append_apart apart]
    rw [List.cons_append, replaceFrom_other word otherBefore, replaceFrom_other word other, ih,
      List.cons_append]

/-- A longer name that starts with the variable stays as it is. -/
theorem replaceFrom_longer (word : ∀ c ∈ name, Text.isWord c = true) {term more : List Char}
    (longer : more ≠ []) (wordMore : ∀ c ∈ more, Text.isWord c = true) (front back : List Char) :
    replaceFrom ('?' :: name) term 0 (front ++ '?' :: name ++ more ++ back) =
      replaceFrom ('?' :: name) term 0 front ++ '?' :: name ++ more ++
        replaceFrom ('?' :: name) term 0 back := by
  have all : ∀ c ∈ name ++ more, Text.isWord c = true := List.forall_mem_append.mpr ⟨word, wordMore⟩
  have other : ¬ ('?' = '?' ∧ (name ++ more ++ back).takeWhile Text.isWord = name) := by
    rintro ⟨-, named⟩
    have lengths := congrArg List.length named
    rw [List.takeWhile_append_of_pos all, List.length_append, List.length_append] at lengths
    exact longer (List.eq_nil_of_length_eq_zero (by omega))
  have apart : ('?' :: (name ++ more ++ back)).takeWhile Text.isWord = [] :=
    List.takeWhile_cons_of_neg (by decide)
  have grouped : front ++ '?' :: name ++ more ++ back = front ++ '?' :: (name ++ more ++ back) := by
    simp
  rw [grouped, replaceFrom_append_apart word apart, replaceFrom_other word other,
    replaceFrom_append word (mark_not_mem_of_isWord all)]
  simp

/-- No whole occurrence is left, nor made by putting the term in. -/
theorem not_wholeAt_replaceFrom (word : ∀ c ∈ name, Text.isWord c = true) {term inner : List Char}
    (bracketed : '<' :: inner ++ ['>'] = term)
    (absent : ∀ front back, ¬ WholeAt ('?' :: name) term front back) (text : List Char) :
    ∀ front back, ¬ WholeAt ('?' :: name) (replaceFrom ('?' :: name) term 0 text) front back := by
  have joined : ∀ back, term ++ back = '<' :: inner ++ '>' :: back := by
    intro back
    rw [← bracketed, List.append_assoc, List.singleton_append]
  have apart : ∀ back, (term ++ back).takeWhile Text.isWord = [] := by
    intro back
    rw [joined]
    exact List.takeWhile_cons_of_neg (by decide)
  fun_induction pieces name text with
  | case1 =>
    rw [replaceFrom_nil]
    exact fun front back => not_wholeAt_of_unmarked List.not_mem_nil
  | case2 c rest whole ih =>
    obtain ⟨rfl, named⟩ := whole
    intro front back remaining
    rw [replaceFrom_whole word named, joined] at remaining
    rcases wholeAt_beside_bracket word remaining with ⟨behind, inside⟩ | ⟨before, later⟩
    · rw [bracketed] at inside
      exact absent _ _ inside
    · exact ih _ _ later
  | case3 c rest other ih =>
    intro front back remaining
    rw [replaceFrom_other word other, wholeAt_cons word,
      takeWhile_replaceFrom word apart] at remaining
    rcases remaining with ⟨-, whole, -⟩ | ⟨before, -, later⟩
    · exact other whole
    · exact ih _ _ later

end Variable

/-! ### Groups -/

/-- The groups after a replacement are those before it, each with the
replacement made in it. -/
theorem nodes_substitute (variableName term : String) (group : Group) :
    (group.substitute variableName term).nodes =
      group.nodes.map (substitute variableName term) := by
  induction group using Group.induct with
  | step group ih =>
    have inside : (group.substitute variableName term).children =
        group.children.map (substitute variableName term) := by
      rw [substitute_eq]
    rw [nodes_eq, nodes_eq, inside, List.map_cons, List.flatMap_map, List.map_flatMap]
    exact congrArg _ (List.flatMap_congr ih)

/-- A replacement that leaves each line of a group as it is leaves the group as
it is. -/
theorem substitute_eq_self {variableName term : String} {group : Group}
    (lines : ∀ node ∈ group.nodes, ∀ line ∈ node.lines,
      substituteLine variableName term line = line) :
    group.substitute variableName term = group := by
  induction group using Group.induct with
  | step group ih =>
    have own : group.lines.map (substituteLine variableName term) = group.lines := by
      rw [List.map_congr_left (lines group (mem_nodes_self group)), List.map_id']
    have inside : group.children.map (substitute variableName term) = group.children := by
      have each : ∀ child ∈ group.children, child.substitute variableName term = child :=
        fun child member => ih child member fun node nodeMember =>
          lines node (mem_nodes_of_child member nodeMember)
      rw [List.map_congr_left each, List.map_id']
    rw [substitute_eq, own, inside]
    cases group
    rfl

/-- Putting a term in angle brackets in place of a variable that does not occur
in it as a whole. Clauses, suffixes and nested groups stay, and every line is
replaced in its place: at exactly the whole occurrences of the variable it has
the term instead, so longer names stay. No whole occurrence is left, and doing
it again changes nothing. -/
theorem substitute_whole_occurrences {variableName term : String} {name inner : List Char}
    (named : variableName.toList = '?' :: name) (word : ∀ c ∈ name, Text.isWord c = true)
    (bracketed : term.toList = '<' :: inner ++ ['>'])
    (absent : ∀ front back, ¬ WholeAt variableName.toList term.toList front back) (group : Group) :
    (group.substitute variableName term).nodes.map
        (fun node => (node.clause, node.suffix, node.children.length, node.lines)) =
      group.nodes.map (fun node => (node.clause, node.suffix, node.children.length,
        node.lines.map (substituteLine variableName term))) ∧
    (∀ line : String, ∃ pieces, FallsInto variableName.toList line.toList pieces ∧
      (substituteLine variableName term line).toList = term.toList.intercalate pieces) ∧
    (∀ front more back : String, more ≠ "" → (∀ c ∈ more.toList, Text.isWord c = true) →
      substituteLine variableName term (front ++ variableName ++ more ++ back) =
        substituteLine variableName term front ++ variableName ++ more ++
          substituteLine variableName term back) ∧
    (∀ node ∈ (group.substitute variableName term).nodes, ∀ line ∈ node.lines, ∀ front back,
      ¬ WholeAt variableName.toList line.toList front back) ∧
    (group.substitute variableName term).substitute variableName term =
      group.substitute variableName term := by
  rw [named] at absent ⊢
  have left : ∀ node ∈ (group.substitute variableName term).nodes, ∀ line ∈ node.lines,
    ∀ front back,
      ¬ WholeAt ('?' :: name) line.toList front back := by
    intro node member line lineMember
    rw [nodes_substitute] at member
    obtain ⟨original, -, rfl⟩ := List.mem_map.mp member
    rw [substitute_eq] at lineMember
    obtain ⟨before, -, rfl⟩ := List.mem_map.mp lineMember
    rw [substituteLine, String.toList_ofList, named]
    exact not_wholeAt_replaceFrom word bracketed.symm absent before.toList
  refine ⟨?_, fun line => ?_, fun front more back longer wordMore => ?_, left, ?_⟩
  · rw [nodes_substitute, List.map_map]
    refine List.map_congr_left fun node _ => ?_
    rw [Function.comp_apply, substitute_eq]
    simp
  · refine ⟨pieces name line.toList, fallsInto_pieces word line.toList, ?_⟩
    rw [substituteLine, String.toList_ofList, named, replaceFrom_eq_intercalate word]
  · have some : more.toList ≠ [] := by simpa using longer
    apply String.toList_injective
    simp only [substituteLine, String.toList_append, String.toList_ofList, named]
    exact replaceFrom_longer word some wordMore _ _
  · refine substitute_eq_self fun node member line lineMember => ?_
    rw [substituteLine, named, replaceFrom_of_absent word (left node member line lineMember),
      String.ofList_toList]

/-- The name `?ab` stays where `?a` is replaced, in a group and in one inside it. -/
theorem substitute_whole_occurrences_longer_name :
    let group : Group := { lines := ["?a ?ab ?a ."], children := [{ lines := ["?ab <p> ?a ."] }] }
    (∀ front back, ¬ WholeAt "?a".toList "<b>".toList front back) ∧
    (∀ node ∈ (group.substitute "?a" "<b>").nodes, ∀ line ∈ node.lines, ∀ front back,
      ¬ WholeAt "?a".toList line.toList front back) ∧
    substituteLine "?a" "<b>" ("?a ?a" ++ "b" ++ " ?a .") =
      substituteLine "?a" "<b>" "?a " ++ "?a" ++ "b" ++ substituteLine "?a" "<b>" " ?a ." := by
  intro group
  have word : ∀ c ∈ ['a'], Text.isWord c = true := List.all_eq_true.mp (by decide)
  have named : "?a".toList = '?' :: ['a'] := by decide
  have bracketed : "<b>".toList = '<' :: ['b'] ++ ['>'] := by decide
  have absent : ∀ front back, ¬ WholeAt "?a".toList "<b>".toList front back :=
    fun front back => not_wholeAt_of_unmarked (by decide)
  have wordMore : ∀ c ∈ "b".toList, Text.isWord c = true := List.all_eq_true.mp (by decide)
  obtain ⟨-, -, longer, left, -⟩ := substitute_whole_occurrences named word bracketed absent group
  exact ⟨absent, left, longer "?a " "b" " ?a ." (by decide) wordMore⟩

end Group

end ShapeQuery
