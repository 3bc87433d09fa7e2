import ShapeQuery.Proofs.FreshNames
import ShapeQuery.Proofs.GroupGrammar
import ShapeQuery.Proofs.Substitution

/-!
From a compiled group to the text of a query. The passes over the group, the node in place of the
start variable and the writing of the query go together with renaming the fresh variables.
-/
namespace ShapeQuery

namespace Group

/-! ### Passes -/

section Passes

variable (change : Compile.Change)

theorem isFilterLeaf_mapText (group : Group) :
    (group.mapText change.text).isFilterLeaf = group.isFilterLeaf := by
  have suffix : (change.text group.suffix == "") = (group.suffix == "") := by
    rw [Bool.eq_iff_iff, beq_iff_eq, beq_iff_eq, change.empty]
  simp only [isFilterLeaf, mapText_clause, mapText_suffix, mapText_children, mapText_lines, suffix,
    List.isEmpty_map, change.all_filter]

/-- A change of texts that keeps filters filters goes together with moving them
up. Induction on the group. -/
theorem mapText_bubbleFilters (group : Group) :
    group.bubbleFilters.mapText change.text = (group.mapText change.text).bubbleFilters := by
  induction group using Group.induct with
  | step group ih =>
    have inside : (group.children.map bubbleFilters).map (mapText change.text) =
        (group.children.map (mapText change.text)).map bubbleFilters := by
      rw [List.map_map, List.map_map]
      exact List.map_congr_left ih
    have leaves : (isFilterLeaf ∘ mapText change.text) = isFilterLeaf :=
      funext (isFilterLeaf_mapText change)
    have others : ((!·.isFilterLeaf) ∘ mapText change.text) = (!·.isFilterLeaf) :=
      funext fun child => congrArg not (isFilterLeaf_mapText change child)
    have lifted : ∀ shown : List Group, (shown.flatMap lines).map change.text =
        (shown.map (mapText change.text)).flatMap lines := by
      intro shown
      rw [List.map_flatMap, List.flatMap_map]
      simp only [mapText_lines]
    rw [bubbleFilters_eq, bubbleFilters_eq, mapText_eq, mapText_eq]
    simp only [← inside]
    generalize group.children.map bubbleFilters = shown
    simp only [List.map_append, List.filter_map, leaves, others, lifted]

theorem mapText_untagUnion (group : Group) :
    group.untagUnion.mapText change.text = (group.mapText change.text).untagUnion := by
  unfold untagUnion
  rw [mapText_clause]
  split
  · rw [mapText_eq, mapText_eq]
  · rfl

theorem mapText_stripLeadingUnion (group : Group) :
    group.stripLeadingUnion.mapText change.text =
      (group.mapText change.text).stripLeadingUnion := by
  induction group using Group.induct with
  | step group ih =>
    have inside : (stripChildren true group.children).map (mapText change.text) =
        stripChildren true (group.children.map (mapText change.text)) := by
      cases listed : group.children with
      | nil => rfl
      | cons first rest =>
        rw [listed, List.forall_mem_cons] at ih
        rw [stripChildren_cons, List.map_cons, List.map_cons, stripChildren_cons,
          mapText_untagUnion, ih.1, List.map_map, List.map_map]
        exact congrArg _ (List.map_congr_left ih.2)
    rw [stripLeadingUnion_eq, stripLeadingUnion_eq, mapText_eq, mapText_eq]
    simp only [inside]

/-- The passes look at nothing of a line but whether it is a filter, so a
change that keeps this goes together with them. -/
theorem mapText_postProcess (group : Group) :
    group.postProcess.mapText change.text = (group.mapText change.text).postProcess := by
  rw [postProcess, postProcess, mapText_stripLeadingUnion, mapText_bubbleFilters]

end Passes

/-! ### A node in place of the start variable -/

/-- A replacement that goes together with a change of texts line by line does
so in groups. -/
theorem substitute_mapText {variableName term : String} {change : String → String}
    (lines : ∀ line, substituteLine variableName term (change line) =
      change (substituteLine variableName term line)) (group : Group) :
    (group.mapText change).substitute variableName term =
      (group.substitute variableName term).mapText change := by
  induction group using Group.induct with
  | step group ih =>
    have inside : (group.children.map (mapText change)).map (substitute variableName term) =
        (group.children.map (substitute variableName term)).map (mapText change) := by
      rw [List.map_map, List.map_map]
      exact List.map_congr_left ih
    have own : (group.lines.map change).map (substituteLine variableName term) =
        (group.lines.map (substituteLine variableName term)).map change := by
      rw [List.map_map, List.map_map]
      exact List.map_congr_left fun line _ => lines line
    rw [substitute_eq, substitute_eq, mapText_eq, mapText_eq]
    simp only [inside, own]

end Group

namespace Compile

open ShapeQuery.Group ShapeQuery.Compile.Template

/-- The variable of a shape is never a fresh one, whatever its label. -/
theorem stableName_ne_freshName (label : String) (number : Nat) :
    (stableName label).toList ≠ (freshName number).toList := by
  obtain ⟨tail, stable⟩ := stableName_cons label
  obtain ⟨other, fresh⟩ := freshName_cons number
  rw [stable, fresh]
  simp

/-- The term for a node stands between angle brackets. -/
theorem bracket_toList (uri : String) :
    ∃ inner, (Builder.bracket uri).toList = '<' :: inner ++ ['>'] := by
  unfold Builder.bracket
  split
  · next bracketed =>
    simp only [Bool.and_eq_true, decide_eq_true_eq] at bracketed
    obtain ⟨rest, opened⟩ := List.head?_eq_some_iff.mp bracketed.1
    obtain ⟨front, closed⟩ := List.getLast?_eq_some_iff.mp bracketed.2
    cases front with
    | nil =>
      rw [opened] at closed
      cases closed
    | cons c inner =>
      rw [opened, List.cons_append, List.cons.injEq] at closed
      exact ⟨inner, by rw [opened, closed.2, List.cons_append]⟩
  · exact ⟨uri.toList, by simp⟩

theorem read_bracket {uri : String} (unmarked : Unmarked uri.toList) :
    read (Builder.bracket uri).toList = (Builder.bracket uri).toList.map .char := by
  have inner := read_unmarked unmarked
  have opens : isDivider '<' = true := by decide
  have closes : isDivider '>' = true := by decide
  unfold Builder.bracket
  split
  · exact inner
  · simpa using read_enclosed opens closes inner

theorem bracketed_bracket {uri : String} (unmarked : Unmarked uri.toList) :
    Bracketed (Builder.bracket uri).toList := by
  have chars := read_bracket unmarked
  obtain ⟨inner, enclosed⟩ := bracket_toList uri
  rw [enclosed] at chars ⊢
  have closes : isDivider '>' = true := by decide
  refine ⟨fun back => List.takeWhile_cons_of_neg (by decide), fun back => ?_⟩
  rw [read_append_cons closes, read_nil] at chars
  rw [List.append_assoc, List.singleton_append, read_append_cons closes, ← chars, List.append_assoc,
    List.singleton_append]

/-- Putting a node in place of the variable of a shape, in lines with other
fresh variables. -/
theorem substituteLine_renameFresh (label : String) {uri : String} (unmarked : Unmarked uri.toList)
    (renumber : Nat → Nat) (line : String) :
    substituteLine (stableVariable label) (Builder.bracket uri) (renameFresh renumber line) =
      renameFresh renumber (substituteLine (stableVariable label) (Builder.bracket uri) line) := by
  have replaced := replaceFrom_fill_read (isWord_of_mem_stableName label)
    (stableName_ne_freshName label) (bracketed_bracket unmarked) renumber line.toList
  rw [substituteLine, substituteLine, renameFresh_toList, stableVariable_toList,
    replaced, renameFresh, String.toList_ofList]

/-- Putting a node in place of the start goes together with renaming fresh
variables, if the node has no mark of one. -/
theorem bindStart_mapText (start : Start) {uri : Option String}
    (unmarked : ∀ node ∈ uri, Unmarked node.toList) (renumber : Nat → Nat) (group : Group) :
    Builder.bindStart start uri (group.mapText (renameFresh renumber)) =
      (Builder.bindStart start uri group).mapText (renameFresh renumber) := by
  unfold Builder.bindStart
  split
  · next label node _ =>
    split
    · rfl
    · exact substitute_mapText (substituteLine_renameFresh label (unmarked node rfl) renumber) group
  · rfl

end Compile

/-! ### Writing -/

open Compile

theorem isPlain_indent (depth : Nat) : isPlain (indent depth) = true := by
  rw [isPlain_iff, indent, String.toList_ofList]
  intro member
  have blank := List.eq_of_mem_replicate member
  revert blank
  decide

namespace Group

/-- What opens a group has no variable in it, so renaming leaves the frame of a
query alone. -/
theorem isPlain_head (clause : Option Clause) : isPlain (head clause) = true := by
  cases clause with
  | none => decide
  | some clause => cases clause <;> decide

theorem renderAll_eq (depth : Nat) (groups : List Group) :
    renderAll depth groups = groups.flatMap (renderLines depth) := by
  induction groups with
  | nil => rw [renderAll, List.flatMap_nil]
  | cons group rest ih => rw [renderAll, ih, List.flatMap_cons]

/-- A group is written with renamed lines, and nothing else in its text
changes. Induction on the group, with the depth left open. -/
theorem renderLines_renameFresh (renumber : Nat → Nat) (group : Group) : ∀ depth,
    (group.mapText (renameFresh renumber)).renderLines depth =
      (group.renderLines depth).map (renameFresh renumber) := by
  induction group using Group.induct with
  | step group ih =>
    intro depth
    have opening : renameFresh renumber (indent depth ++ head group.clause) =
        indent depth ++ head group.clause := by
      rw [renameFresh_plain_append (isPlain_indent depth), renameFresh_plain (isPlain_head _)]
    have own : (group.lines.map (renameFresh renumber)).map (indent (depth + 1) ++ ·) =
        (group.lines.map (indent (depth + 1) ++ ·)).map (renameFresh renumber) := by
      rw [List.map_map, List.map_map]
      exact List.map_congr_left fun line _ =>
        (renameFresh_plain_append (isPlain_indent _) renumber line).symm
    have inside : (group.children.map (mapText (renameFresh renumber))).flatMap
      (renderLines (depth + 1)) =
        (group.children.flatMap (renderLines (depth + 1))).map (renameFresh renumber) := by
      rw [List.flatMap_map, List.map_flatMap]
      exact List.flatMap_congr fun child member => ih child member (depth + 1)
    have closing : renameFresh renumber (indent depth ++ "\x7d" ++ group.suffix) =
        indent depth ++ "\x7d" ++ renameFresh renumber group.suffix := by
      rw [String.append_assoc, renameFresh_plain_append (isPlain_indent depth),
        renameFresh_plain_append (by decide), ← String.append_assoc]
    rw [renderLines_eq, renderLines_eq, renderAll_eq, renderAll_eq]
    simp only [mapText_clause, mapText_lines, mapText_children, mapText_suffix, List.map_cons,
      List.map_append, List.map_nil, opening, own, inside, closing]

theorem render_renameFresh (renumber : Nat → Nat) (depth : Nat) (group : Group) :
    (group.mapText (renameFresh renumber)).render depth =
      renameFresh renumber (group.render depth) := by
  rw [render, render, renderLines_renameFresh,
    renameFresh_intercalate (by decide) (by decide) (by decide)]

/-- Leaving out repetitions goes together with a change that keeps different
lines different. -/
theorem distinct_map {change : String → String} (injective : Function.Injective change)
    (lines : List String) : ∀ seen,
      distinct (seen.map change) (lines.map change) = (distinct seen lines).map change := by
  induction lines with
  | nil => exact fun _ => rfl
  | cons line rest ih =>
    intro seen
    have known : (seen.map change).contains (change line) = seen.contains line := by
      rw [Bool.eq_iff_iff, List.contains_iff_mem, List.contains_iff_mem,
        List.mem_map_of_injective injective]
    rw [List.map_cons, distinct, distinct, known]
    split
    · exact ih seen
    · rw [List.map_cons, ← ih (line :: seen), List.map_cons]

theorem nodes_mapText (change : String → String) (group : Group) :
    (group.mapText change).nodes = group.nodes.map (mapText change) := by
  induction group using Group.induct with
  | step group ih =>
    rw [nodes_eq, nodes_eq, List.map_cons, mapText_children, List.flatMap_map, List.map_flatMap]
    exact congrArg _ (List.flatMap_congr ih)

/-- The same triple patterns are repetitions before and after renaming, so
those of the template are renamed one by one. -/
theorem triples_renameFresh {renumber : Nat → Nat} (injective : Function.Injective renumber)
    (group : Group) :
    (group.mapText (renameFresh renumber)).triples = group.triples.map (renameFresh renumber) := by
  have kind : ((fun line => !isFilter line && !isValues line) ∘ renameFresh renumber) =
      fun line => !isFilter line && !isValues line := by
    funext line
    simp only [Function.comp_apply, isFilter_renameFresh, isValues_renameFresh]
  have inside : ((group.mapText (renameFresh renumber)).nodes.flatMap fun node =>
      node.lines.filter fun line => !isFilter line && !isValues line) =
      (group.nodes.flatMap fun node =>
        node.lines.filter fun line => !isFilter line && !isValues line).map
          (renameFresh renumber) := by
    rw [nodes_mapText, List.flatMap_map, List.map_flatMap]
    simp only [mapText_lines, List.filter_map, kind]
  rw [triples, triples, inside]
  exact distinct_map (renameFresh_injective injective) _ []

end Group

/-- What stands before the pattern is renamed with the group. Only the form
that constructs has variables there. -/
theorem preamble_renameFresh (form : Form) {renumber : Nat → Nat}
    (injective : Function.Injective renumber) (group : Group) :
    form.preamble (group.mapText (renameFresh renumber)) =
      renameFresh renumber (form.preamble group) := by
  cases form with
  | construct =>
    have indented : (group.triples.map (renameFresh renumber)).map (indent 1 ++ ·) =
        (group.triples.map (indent 1 ++ ·)).map (renameFresh renumber) := by
      rw [List.map_map, List.map_map]
      exact List.map_congr_left fun line _ =>
        (renameFresh_plain_append (isPlain_indent _) renumber line).symm
    simp (disch := decide) only [Form.preamble, Group.triples_renameFresh injective, indented,
      renameFresh_before, renameFresh_plain_append, renameFresh_intercalate]
  | select =>
    have plain : isPlain "SELECT * WHERE" = true := by decide
    exact (renameFresh_plain plain renumber).symm
  | ask =>
    have plain : isPlain "ASK" = true := by decide
    exact (renameFresh_plain plain renumber).symm

theorem whereBody_renameFresh (renumber : Nat → Nat) (group : Group) :
    whereBody (group.mapText (renameFresh renumber)) = renameFresh renumber (whereBody group) := by
  simp (disch := decide) only [whereBody, Group.render_renameFresh, renameFresh_before,
    renameFresh_plain_append]

/-- The pattern opens with a divider, so no name goes on from what stands
before it. -/
theorem whereBody_opensApart (group : Group) : opensApart (whereBody group) = true := by
  rw [opensApart, whereBody, String.append_assoc, String.toList_append]
  rfl

theorem render_renameFresh (form : Form) {renumber : Nat → Nat}
    (injective : Function.Injective renumber) (group : Group) :
    form.render (group.mapText (renameFresh renumber)) =
      renameFresh renumber (form.render group) := by
  rw [form.render_eq, form.render_eq, preamble_renameFresh form injective, whereBody_renameFresh,
    renameFresh_append_opens (whereBody_opensApart group)]

end ShapeQuery
