import ShapeQuery.Proofs.GroupGrammar
import ShapeQuery.Proofs.Splitting

/-!
The layout of a written group. Each line opens a group, closes one or is a line of one, and the
blanks it starts with tell which group that is, whatever braces the lines hold themselves. So a
reader that keeps the groups that are open gets the group back from its text.
-/
namespace ShapeQuery

namespace Group

def clauses : List (Option Clause) :=
  none :: Clause.all.map some

theorem mem_clauses (clause : Option Clause) : clause ∈ clauses := by
  rcases clause with _ | _ | _ | _ | _ <;> decide

def heads : List String :=
  clauses.map head

theorem head_mem_heads (clause : Option Clause) : head clause ∈ heads :=
  List.mem_map_of_mem (mem_clauses clause)

def clauseOf? (text : String) : Option (Option Clause) :=
  clauses.find? fun clause => head clause = text

/-- The clause of a group is read back from the line that opens it. -/
theorem clauseOf?_head (clause : Option Clause) : clauseOf? (head clause) = some clause := by
  rcases clause with _ | _ | _ | _ | _ <;> decide

theorem clauseOf?_line {line : String} (plain : line ∉ heads) : clauseOf? line = none := by
  rw [clauseOf?, List.find?_eq_none]
  intro clause _ same
  rw [decide_eq_true_eq] at same
  exact plain (same ▸ head_mem_heads clause)

/-- A group whose lines and suffix have no line end, and none of whose lines
could open a group. Nothing more is asked of a group that is read back from its
text. -/
structure Legible (group : Group) : Prop where
  suffix : '\n' ∉ group.suffix.toList
  lines : ∀ line ∈ group.lines, '\n' ∉ line.toList ∧ line ∉ heads

/-! ### Reading line by line -/

/-- The groups that are open at a line: the innermost one, as far as it has
been read, and those around it. -/
structure Opened where
  inner : Group
  around : List Group

def Opened.finish (opened : Opened) (group : Group) : Opened :=
  { opened with inner.children := opened.inner.children ++ [group] }

/-- Reads a line. What is inside of the innermost open group stands further in
than its closing brace. -/
def readLine (depth : Nat) (opened : Opened) (line : List Char) : Option Opened :=
  match line.dropPrefix? (indent (depth + opened.around.length)).toList with
  | some text =>
    match clauseOf? (String.ofList text) with
    | some clause => some ⟨{ clause }, opened.inner :: opened.around⟩
    | none => some { opened with inner := opened.inner.addLines [String.ofList text] }
  | none =>
    match opened.around with
    | [] => none
    | outer :: around =>
      (line.dropPrefix? (indent (depth + around.length) ++ "\x7d").toList).map fun suffix =>
        Opened.finish ⟨outer, around⟩ { opened.inner with suffix := String.ofList suffix }

/-- Reads the group that a text at a depth consists of. -/
def readGroup (depth : Nat) (text : String) : Option Group :=
  match (Text.splitAt '\n' text.toList).foldlM (readLine depth) ⟨{}, []⟩ with
  | some ⟨⟨none, _, [], [group]⟩, []⟩ => some group
  | _ => none

section

variable (depth : Nat) (inner outer : Group) (around : List Group)

theorem readLine_head (clause : Option Clause) :
    readLine depth ⟨inner, around⟩ (indent (depth + around.length) ++ head clause).toList =
      some ⟨{ clause }, inner :: around⟩ := by
  rw [readLine, String.toList_append, List.dropPrefix?_append_of_beq _ BEq.rfl]
  simp only [String.ofList_toList, clauseOf?_head]

/-- A line that opens no group is added to the innermost open one. -/
theorem readLine_line {line : String} (plain : line ∉ heads) :
    readLine depth ⟨inner, around⟩ (indent (depth + around.length) ++ line).toList =
      some ⟨inner.addLines [line], around⟩ := by
  rw [readLine, String.toList_append, List.dropPrefix?_append_of_beq _ BEq.rfl]
  simp only [String.ofList_toList, clauseOf?_line plain]

/-- A closing brace stands where a line further in has a blank. -/
theorem dropPrefix?_brace (suffix : String) :
    (indent depth ++ "\x7d" ++ suffix).toList.dropPrefix? (indent (depth + 1)).toList = none := by
  rw [Option.eq_none_iff_forall_not_mem]
  intro text found
  obtain ⟨front, split, same⟩ := List.dropPrefix?_eq_some_iff.mp found
  have wider : (indent (depth + 1)).toList = (indent depth).toList ++ [' ', ' '] := by
    rw [indent, indent, String.toList_ofList, String.toList_ofList, Nat.mul_add, Nat.mul_one,
      List.replicate_add]
    rfl
  rw [eq_of_beq same, String.toList_append, String.toList_append, wider, List.append_assoc,
    List.append_assoc, List.append_cancel_left_eq] at split
  cases (List.cons.inj split).1

/-- A closing brace finishes the innermost open group, with the text behind the
brace. -/
theorem readLine_brace (suffix : String) :
    readLine depth ⟨inner, outer :: around⟩
      (indent (depth + around.length) ++ "\x7d" ++ suffix).toList =
      some (Opened.finish ⟨outer, around⟩ { inner with suffix }) := by
  rw [readLine, List.length_cons, ← Nat.add_assoc, dropPrefix?_brace, String.toList_append]
  simp only [List.dropPrefix?_append_of_beq _ BEq.rfl, Option.map_some, String.ofList_toList]

theorem readLines_lines {lines : List String} (plain : ∀ line ∈ lines, line ∉ heads) :
    (lines.map (String.toList ∘ (indent (depth + around.length) ++ ·))).foldlM (readLine depth)
      ⟨inner, around⟩ = some ⟨inner.addLines lines, around⟩ := by
  induction lines generalizing inner with
  | nil => rw [addLines_nil]; rfl
  | cons line rest ih =>
    obtain ⟨here, others⟩ := List.forall_mem_cons.mp plain
    rw [List.map_cons, List.foldlM_cons, Function.comp_apply, readLine_line _ _ _ here,
      Option.bind_eq_bind, Option.bind_some, ih _ others]
    simp [addLines]

/-- If each of some groups is read back, they all are, in their order. -/
theorem readLines_renderAll {groups : List Group}
    (each : ∀ group ∈ groups, ∀ inner : Group,
      ((group.renderLines (depth + around.length)).map String.toList).foldlM (readLine depth)
      ⟨inner, around⟩ = some (Opened.finish ⟨inner, around⟩ group)) :
    ((renderAll (depth + around.length) groups).map String.toList).foldlM (readLine depth)
      ⟨inner, around⟩ =
      some ⟨{ inner with children := inner.children ++ groups }, around⟩ := by
  induction groups generalizing inner with
  | nil =>
    cases inner
    simp [renderAll]
  | cons group rest ih =>
    obtain ⟨here, others⟩ := List.forall_mem_cons.mp each
    rw [renderAll, List.map_append, List.foldlM_append, here, Option.bind_eq_bind, Option.bind_some,
      Opened.finish, ih _ others]
    simp

/-- The lines of a group, read inside of open ones, give a group that is finished. -/
theorem readLines_renderLines {group : Group} (legible : group.EveryNode Legible) :
    ((group.renderLines (depth + around.length)).map String.toList).foldlM (readLine depth)
      ⟨inner, around⟩ =
      some (Opened.finish ⟨inner, around⟩ group) := by
  induction group using Group.induct generalizing inner around with
  | step group ih =>
    obtain ⟨here, inside⟩ := everyNode_iff.mp legible
    -- Behind its head the group is the innermost open one, so what it holds
    -- stands one step further in.
    have own := readLines_lines depth { clause := group.clause } (inner :: around)
      fun line member =>
      (here.lines line member).2
    have nested := readLines_renderAll depth
      (({ clause := group.clause } : Group).addLines group.lines)
      (inner :: around) fun child member within => ih child member within _ (inside child member)
    rw [List.length_cons, ← Nat.add_assoc] at own nested
    rw [renderLines_eq, List.map_cons, List.foldlM_cons, readLine_head, Option.bind_eq_bind,
      Option.bind_some, List.map_append, List.map_append, List.map_map, List.foldlM_append,
      List.foldlM_append, own, Option.bind_eq_bind, Option.bind_some, nested, Option.bind_some,
      List.map_singleton, List.foldlM_cons, readLine_brace]
    cases group
    simp [addLines]

end

/-! ### From the text to its lines -/

theorem newline_not_mem_indent (depth : Nat) : '\n' ∉ (indent depth).toList := by
  simp [indent]

theorem newline_not_mem_head (clause : Option Clause) : '\n' ∉ (head clause).toList := by
  rcases clause with _ | _ | _ | _ | _ <;> decide

theorem newline_not_mem_renderLines {group : Group} (legible : group.EveryNode Legible)
    (depth : Nat) : ∀ line ∈ group.renderLines depth, '\n' ∉ line.toList := by
  induction group using Group.induct generalizing depth with
  | step group ih =>
    obtain ⟨here, inside⟩ := everyNode_iff.mp legible
    have nested : ∀ line ∈ renderAll (depth + 1) group.children, '\n' ∉ line.toList := by
      generalize group.children = children at ih inside
      induction children with
      | nil => simp [renderAll]
      | cons child rest ihRest =>
        rw [List.forall_mem_cons] at ih inside
        rw [renderAll, List.forall_mem_append]
        exact ⟨ih.1 inside.1 (depth + 1), ihRest ih.2 inside.2⟩
    have brace : '\n' ∉ "\x7d".toList := by decide
    rw [renderLines_eq, List.forall_mem_cons, List.forall_mem_append, List.forall_mem_append,
      List.forall_mem_map, List.forall_mem_singleton]
    simp only [String.toList_append, List.mem_append, newline_not_mem_indent,
      newline_not_mem_head, brace, here.suffix, or_self, not_false_eq_true, false_or,
        true_and, and_true]
    exact ⟨fun line member => (here.lines line member).1, nested⟩

/-- A legible group is read back from its text, at every depth. -/
theorem readGroup_render {group : Group} (legible : group.EveryNode Legible) (depth : Nat) :
    readGroup depth (group.render depth) = some group := by
  have cut : Text.splitAt '\n' (group.render depth).toList =
      (group.renderLines depth).map String.toList :=
    Text.splitAt_intercalate rfl (by rw [renderLines_eq]; simp)
      (newline_not_mem_renderLines legible depth)
  have read := readLines_renderLines depth {} [] legible
  rw [List.length_nil, Nat.add_zero] at read
  rw [readGroup, cut, read]
  rfl

/-- Writing loses no structure: at every depth a legible group is recovered
from its text, so no other one has the same text. -/
theorem render_recoverable (depth : Nat) {group : Group} (legible : group.EveryNode Legible) :
    readGroup depth (group.render depth) = some group ∧
      ∀ other : Group, other.EveryNode Legible → other.render depth = group.render depth →
        other = group := by
  have read := readGroup_render legible depth
  refine ⟨read, fun other legibleOther same => ?_⟩
  have readOther := readGroup_render legibleOther depth
  rw [same, read] at readOther
  exact (Option.some.inj readOther).symm

/-- A group whose lines look like those that open and close groups further in
or further out. -/
def braced : Group where
  lines := ["VALUES ?o \x7b <http://a/v> \x7d", "  OPTIONAL \x7b", "\x7d"]
  children := [{ clause := some .minus, suffix := " \x7d", lines := ["", "\x7d UNION \x7b"] },
    { clause := some .union }]

/-- A group with lines that are braces is read back, as the blanks before them
tell them apart from those of the groups. -/
theorem render_recoverable_braced :
    braced.EveryNode Legible ∧ readGroup 2 (braced.render 2) = some braced := by
  have legible : braced.EveryNode Legible := by
    intro node member
    simp only [braced, nodes, nodesOfAll, List.append_nil, List.cons_append, List.nil_append,
      List.mem_cons, List.not_mem_nil, or_false] at member
    rcases member with rfl | rfl | rfl
    · exact ⟨by decide, by decide⟩
    · exact ⟨by decide, by decide⟩
    · exact ⟨by decide, by decide⟩
  exact ⟨legible, (render_recoverable 2 legible).1⟩

end Group

end ShapeQuery
