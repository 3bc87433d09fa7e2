import ShapeQuery.Proofs.FragmentForm
import ShapeQuery.Proofs.Arcs
import ShapeQuery.Compile.Builder

/-!
The grammar of written groups: between its braces a group has lines, and then groups,
each plain with alternatives behind it or under another clause. The query of every
well-typed schema is written in it.
-/
namespace ShapeQuery

/-- What a written group is made of. -/
inductive Token where
  | opening
  | closing
  | word (clause : Clause)
  | line (text : String)
deriving DecidableEq

def Token.text : Token → String
  | .opening => "\x7b"
  | .closing => "\x7d"
  | .word clause => clause.word
  | .line text => text

/-- A text in which tokens follow each other, each behind some blanks. The
blanks are spaces and line ends, at least one of them before each token. -/
inductive Spaced : List Token → String → Prop where
  | nil : Spaced [] ""
  | cons {token : Token} {tokens : List Token} {text gap : String} (apart : gap ≠ "")
      (blank : ∀ c ∈ gap.toList, c = ' ' ∨ c = '\n')
      (rest : Spaced tokens text) : Spaced (token :: tokens) (gap ++ token.text ++ text)

/-- Two texts of tokens side by side are a text of all tokens. -/
theorem Spaced.append {front back : List Token} {text other : String} (first : Spaced front text)
    (second : Spaced back other) : Spaced (front ++ back) (text ++ other) := by
  induction first with
  | nil =>
    rw [List.nil_append, String.empty_append]
    exact second
  | cons apart blank _ ih =>
    rw [List.cons_append, String.append_assoc]
    exact .cons apart blank ih

theorem Spaced.single (token : Token) {gap : String} (apart : gap ≠ "")
    (blank : ∀ c ∈ gap.toList, c = ' ' ∨ c = '\n') : Spaced [token] (gap ++ token.text) := by
  have spaced : Spaced [token] (gap ++ token.text ++ "") := .cons apart blank .nil
  rwa [String.append_empty] at spaced

namespace Group

mutual

/-- The tokens of a group from its opening to its closing brace. -/
def bodyTokens : Group → List Token
  | ⟨_, _, lines, children⟩ =>
    .opening :: (lines.map .line ++ tokensOfAll children ++ [.closing])

def tokensOfAll : List Group → List Token
  | [] => []
  | group :: rest => group.clause.toList.map .word ++ group.bodyTokens ++ tokensOfAll rest

end

/-- The body of a group: its brace, its lines, its groups and the closing brace. -/
theorem bodyTokens_eq (group : Group) :
    group.bodyTokens =
      .opening :: (group.lines.map .line ++ tokensOfAll group.children ++ [.closing]) := by
  cases group
  rw [bodyTokens]

def inLines (lines : List String) : String :=
  String.join (lines.map ("\n" ++ ·))

theorem inLines_cons (line : String) (rest : List String) :
    inLines (line :: rest) = "\n" ++ line ++ inLines rest := by
  rw [inLines, List.map_cons, String.join_cons, ← inLines]

theorem inLines_append (front back : List String) :
    inLines (front ++ back) = inLines front ++ inLines back := by
  rw [inLines, List.map_append, String.join_append, ← inLines, ← inLines]

theorem newline_intercalate {lines : List String} (nonempty : lines ≠ []) :
    "\n" ++ "\n".intercalate lines = inLines lines := by
  induction lines with
  | nil => exact absurd rfl nonempty
  | cons line rest ih =>
    cases rest with
    | nil => simp [inLines, String.join_cons]
    | cons second others =>
      rw [String.intercalate_cons_cons, inLines_cons, ← ih (List.cons_ne_nil _ _),
        String.append_assoc, String.append_assoc]

theorem blank_indent (depth : Nat) : ∀ c ∈ ("\n" ++ indent depth).toList, c = ' ' ∨ c = '\n' := by
  intro c member
  simp only [String.toList_append, List.mem_append, indent, String.toList_ofList,
    List.mem_replicate] at member
  rcases member with newline | ⟨-, blank⟩
  · exact Or.inr (by simpa using newline)
  · exact Or.inl blank

theorem newline_ne_empty (text : String) : "\n" ++ text ≠ "" := by
  intro absurd
  have chars := congrArg String.toList absurd
  simp at chars

theorem spaced_line (token : Token) (depth : Nat) :
    Spaced [token] ("\n" ++ (indent depth ++ token.text)) := by
  rw [← String.append_assoc]
  exact .single token (newline_ne_empty _) (blank_indent depth)

theorem spaced_head (clause : Option Clause) (depth : Nat) :
    Spaced (clause.toList.map .word ++ [.opening]) ("\n" ++ (indent depth ++ head clause)) := by
  cases clause with
  | none => exact spaced_line .opening depth
  | some clause =>
    have word := spaced_line (.word clause) depth
    have brace : Spaced [.opening] (" " ++ Token.opening.text) := .single _ (by decide) (by simp)
    have both := word.append brace
    rw [String.append_assoc, String.append_assoc] at both
    exact both

/-- The lines of a group are written as tokens, each on a line of its own. -/
theorem spaced_lines (lines : List String) (depth : Nat) :
    Spaced (lines.map .line) (inLines (lines.map (indent depth ++ ·))) := by
  induction lines with
  | nil => exact .nil
  | cons line rest ih =>
    rw [List.map_cons, List.map_cons, inLines_cons]
    exact (spaced_line (.line line) depth).append ih

/-- Groups in a row are written as their tokens, if each of them is. Induction
on the groups. -/
theorem spaced_renderAll {depth : Nat} {groups : List Group}
    (each : ∀ group ∈ groups, Spaced (group.clause.toList.map .word ++ group.bodyTokens)
      (inLines (group.renderLines depth))) :
    Spaced (tokensOfAll groups) (inLines (renderAll depth groups)) := by
  induction groups with
  | nil => exact .nil
  | cons group rest ih =>
    rw [List.forall_mem_cons] at each
    rw [tokensOfAll, renderAll, inLines_append]
    exact each.1.append (ih each.2)

/-- The lines of a group, in one equation: its head, its own lines and those of
its groups further in, and the brace. -/
theorem renderLines_eq (depth : Nat) (group : Group) :
    group.renderLines depth =
      (indent depth ++ head group.clause) ::
        (group.lines.map (indent (depth + 1) ++ ·) ++ renderAll (depth + 1) group.children ++
          [indent depth ++ "\x7d" ++ group.suffix]) := by
  cases group
  rw [renderLines]

/-- A group is written as its tokens, if nothing stands behind a closing brace. -/
theorem spaced_renderLines {group : Group} (plain : group.EveryNode (·.suffix = "")) (depth : Nat) :
    Spaced (group.clause.toList.map .word ++ group.bodyTokens)
      (inLines (group.renderLines depth)) := by
  induction group using Group.induct generalizing depth with
  | step group ih =>
    obtain ⟨here, inside⟩ := everyNode_iff.mp plain
    have front := spaced_head group.clause depth
    have lines := spaced_lines group.lines (depth + 1)
    have nested := spaced_renderAll fun child member =>
      ih child member (inside child member) (depth + 1)
    have brace : Spaced [.closing] (inLines [indent depth ++ "\x7d" ++ group.suffix]) := by
      rw [here, String.append_empty, inLines_cons]
      exact (spaced_line .closing depth).append .nil
    have all := front.append ((lines.append nested).append brace)
    rw [bodyTokens_eq, renderLines_eq, inLines_cons, inLines_append, inLines_append]
    rw [List.append_assoc] at all
    exact all

end Group

/-! ### The grammar -/

open ShapeQuery.Compile

inductive Phrase where
  | group
  | items
  | alternatives

/-- What can be written: `group` is `{ line* items }`, `items` are groups under
a clause other than `UNION` and plain groups with `alternatives` behind them,
each of these being `UNION` and a group. -/
inductive Derives : Phrase → List Token → Prop where
  | group {lines : List String} {items : List Token} (each : ∀ line ∈ lines, IsPatternLine line)
      (inside : Derives .items items) :
      Derives .group (.opening :: (lines.map .line ++ items ++ [.closing]))
  | noItem : Derives .items []
  | plain {first others rest : List Token} (head : Derives .group first)
      (more : Derives .alternatives others) (tail : Derives .items rest) :
        Derives .items (first ++ others ++ rest)
  | clause {word : Clause} {body rest : List Token} (other : word ≠ .union)
      (head : Derives .group body) (tail : Derives .items rest) :
        Derives .items (.word word :: body ++ rest)
  | noAlternative : Derives .alternatives []
  | union {body rest : List Token} (head : Derives .group body)
      (tail : Derives .alternatives rest) : Derives .alternatives (.word .union :: body ++ rest)

namespace Group

/-- Groups without the mark of an alternative are items. -/
theorem derives_items {groups : List Group}
    (each : ∀ group ∈ groups, Derives .group group.bodyTokens)
    (unmarked : ∀ group ∈ groups, group.clause ≠ some .union) :
    Derives .items (tokensOfAll groups) := by
  induction groups with
  | nil => exact .noItem
  | cons group rest ih =>
    rw [List.forall_mem_cons] at each unmarked
    have tail := ih each.2 unmarked.2
    rw [tokensOfAll]
    cases clause : group.clause with
    | none =>
      have derived := Derives.plain each.1 .noAlternative tail
      rwa [List.append_nil] at derived
    | some word =>
      refine .clause (fun union => ?_) each.1 tail
      rw [clause, union] at unmarked
      exact unmarked.1 rfl

theorem derives_alternatives {groups : List Group}
    (each : ∀ group ∈ groups, Derives .group group.bodyTokens)
    (marked : ∀ group ∈ groups, group.clause = some .union) :
    Derives .alternatives (tokensOfAll groups) := by
  induction groups with
  | nil => exact .noAlternative
  | cons group rest ih =>
    rw [List.forall_mem_cons] at each marked
    rw [tokensOfAll, marked.1]
    exact .union each.1 (ih each.2 marked.2)

theorem derives_group {group : Group} (finished : group.EveryNode FinishedLevel) :
    Derives .group group.bodyTokens := by
  induction group using Group.induct with
  | step group ih =>
    obtain ⟨here, inside⟩ := everyNode_iff.mp finished
    have each := fun child member => ih child member (inside child member)
    rw [bodyTokens_eq]
    refine .group here.lines ?_
    rcases here.branches with unmarked | ⟨-, first, rest, children, plain, marked⟩
    · exact derives_items each unmarked
    · rw [children, List.forall_mem_cons] at each
      have derived := Derives.plain each.1 (derives_alternatives each.2 marked) .noItem
      rw [List.append_nil] at derived
      rw [children, tokensOfAll, plain]
      exact derived

end Group

/-! ### Queries -/

/-- The pattern of a query from its opening to its closing brace, with the
blank before it. -/
def whereBody (group : Group) : String :=
  " \x7b\n" ++ group.render 1 ++ "\n\x7d"

/-- What a query of a form has before its pattern. -/
def Form.preamble (form : Form) (group : Group) : String :=
  match form with
  | .construct =>
    "CONSTRUCT \x7b\n" ++ "\n".intercalate (group.triples.map (indent 1 ++ ·)) ++ "\n\x7d WHERE"
  | .select => "SELECT * WHERE"
  | .ask => "ASK"

theorem Form.render_eq (form : Form) (group : Group) :
    form.render group = form.preamble group ++ whereBody group := by
  have split : ∀ front opened body : String, opened = front ++ " \x7b\n" →
      opened ++ body ++ "\n\x7d" = front ++ (" \x7b\n" ++ body ++ "\n\x7d") := by
    rintro front opened body rfl
    simp only [String.append_assoc]
  cases form with
  | construct =>
    refine split _ _ _ ?_
    have opened : "\n\x7d WHERE \x7b\n" = "\n\x7d WHERE" ++ " \x7b\n" := by decide
    rw [opened, ← String.append_assoc]
    rfl
  | select =>
    have opened : "SELECT * WHERE \x7b\n" = "SELECT * WHERE" ++ " \x7b\n" := by decide
    exact split _ _ _ opened
  | ask =>
    have opened : "ASK \x7b\n" = "ASK" ++ " \x7b\n" := by decide
    exact split _ _ _ opened

/-- The tokens of a pattern: the group stands between braces of its own. They
are read off the tree of groups, not off its text. -/
def whereTokens (group : Group) : List Token :=
  .opening :: (Group.tokensOfAll [group] ++ [.closing])

/-- The pattern of a query is written as its tokens, if no group has a text
behind its brace. -/
theorem whereBody_spaced {group : Group} (plain : group.EveryNode (·.suffix = "")) :
    Spaced (whereTokens group) (whereBody group) := by
  have front : Spaced [.opening] (" " ++ Token.opening.text) := .single _ (by decide) (by simp)
  have back : Spaced [.closing] ("\n" ++ Token.closing.text) := .single _ (by decide) (by simp)
  have nested := Group.spaced_renderAll
    (List.forall_mem_singleton.mpr (Group.spaced_renderLines plain 1))
  have all := front.append (nested.append back)
  have text : whereBody group =
      " " ++ "\x7b" ++ (("\n" ++ group.render 1) ++ ("\n" ++ "\x7d")) := by
    have opened : " \x7b\n" = " " ++ "\x7b" ++ "\n" := by decide
    have closed : "\n\x7d" = "\n" ++ "\x7d" := by decide
    simp only [whereBody, opened, closed, String.append_assoc]
  rw [text, Group.render, Group.newline_intercalate (by rw [Group.renderLines_eq]; simp)]
  rw [Group.renderAll, Group.renderAll, List.append_nil] at all
  exact all

/-- The pattern of a query of the final form can be derived. -/
theorem whereTokens_derives {group : Group} (finished : group.EveryNode FinishedLevel)
    (unmarked : group.clause ≠ some .union) : Derives .group (whereTokens group) := by
  have items := Group.derives_items (List.forall_mem_singleton.mpr (Group.derives_group finished))
    (List.forall_mem_singleton.mpr unmarked)
  exact .group (List.forall_mem_nil _) items

namespace Compile

/-- The form of a group of a finished query: none of its groups is empty, an
alternative stands behind a plain group or another alternative, and a
disjunction has nothing but its alternatives, the first of which is
unmarked. -/
structure IsBlock (group : Group) : Prop where
  present : ∀ child ∈ group.children, child.isEmpty = false
  filled : ∀ child ∈ group.children, child.Filled
  follows : ∀ front child back, group.children = front ++ child :: back →
    child.clause = some .union →
    ∃ earlier sibling, front = earlier ++ [sibling] ∧
      (sibling.clause = none ∨ sibling.clause = some .union)
  disjunction : (∃ child ∈ group.children, child.clause = some .union) →
    group.lines = [] ∧ ∃ first rest, group.children = first :: rest ∧ first.clause = none ∧
      ∀ child ∈ rest, child.clause = some .union

theorem FinishedLevel.disjunction {group : Group} (finished : FinishedLevel group)
    (union : ∃ child ∈ group.children, child.clause = some .union) :
    group.lines = [] ∧ ∃ first rest, group.children = first :: rest ∧ first.clause = none ∧
      ∀ child ∈ rest, child.clause = some .union := by
  obtain ⟨child, member, marked⟩ := union
  exact finished.branches.resolve_left fun unmarked => unmarked child member marked

/-- A group of the final form is a block. What a disjunction looks like is
known, so an alternative has a group to stand behind. -/
theorem FinishedLevel.isBlock {group : Group} (finished : FinishedLevel group) : IsBlock group := by
  refine ⟨fun child member => (finished.filled child member).not_isEmpty, finished.filled, ?_,
    finished.disjunction⟩
  intro front child back children marked
  obtain ⟨-, first, rest, listed, plain, allMarked⟩ :=
    finished.disjunction ⟨child, by simp [children], marked⟩
  rw [children] at listed
  -- The first group is plain, so the alternative is not the first.
  rcases List.eq_nil_or_concat front with rfl | ⟨earlier, sibling, rfl⟩
  · cases listed
    rw [plain] at marked
    cases marked
  · refine ⟨earlier, sibling, List.concat_eq_append, ?_⟩
    have member : sibling ∈ first :: rest := by simp [← listed]
    rcases List.mem_cons.mp member with rfl | later
    · exact Or.inl plain
    · exact Or.inr (allMarked sibling later)

/-- A disjunction is still there in the finished group, and all but one of its
alternatives are marked. -/
theorem disjunction_shown {group node : Group} (raw : group.EveryNode RawLevel)
    (member : node ∈ group.nodes) (union : ∃ child ∈ node.children, child.clause = some .union) :
    ∃ shown ∈ group.postProcess.nodes, shown.children = node.postProcess.children ∧
      shown.children.length = node.children.length ∧
      shown.children.countP (·.clause = some .union) + 1 = node.children.length := by
  obtain ⟨child, childMember, marked⟩ := union
  obtain ⟨-, allMarked⟩ := (raw node member).branches.resolve_left fun unmarked =>
    unmarked child childMember marked
  obtain ⟨length, count⟩ := Group.postProcess_branches (List.ne_nil_of_mem childMember) allMarked
  have nonempty : node.postProcess.children ≠ [] := by
    rw [← List.length_pos_iff, length]
    exact List.length_pos_of_mem childMember
  obtain ⟨shown, shownMember, same⟩ := Group.exists_shown member nonempty
  refine ⟨shown, shownMember, same, ?_, ?_⟩
  · rw [same, length]
  · rw [same, count]

/-- The finished group of a declared start shape of a well-typed schema is
written in the grammar of groups, whatever the form of the query: the tokens of
its tree are derived, and they are what is written between blanks. No level of
it is malformed, and a disjunction shows one `UNION` less than it has
alternatives. -/
theorem startGroup_written (schema : Schema) (label : String) (progress : Progress)
    (typed : schema.wellTyped = true) (start : schema.start = .label label)
    (declared : (schema.find? label).isSome = true) :
    ∃ context raw after, Context.ofSchema schema = .ok context ∧
      context.startGroup progress = .ok (some raw) after ∧
      (raw.postProcess.clause = none ∨ raw.postProcess.clause = some .minus) ∧
      raw.postProcess.EveryNode IsBlock ∧
      (∀ form : Form, form.render raw.postProcess =
        form.preamble raw.postProcess ++ whereBody raw.postProcess) ∧
      Derives .group (whereTokens raw.postProcess) ∧
      Spaced (whereTokens raw.postProcess) (whereBody raw.postProcess) ∧
      ∀ node ∈ raw.nodes, (∃ child ∈ node.children, child.clause = some .union) →
        ∃ shown ∈ raw.postProcess.nodes, shown.children = node.postProcess.children ∧
          shown.children.length = node.children.length ∧
          shown.children.countP (·.clause = some .union) + 1 = node.children.length := by
  obtain ⟨context, built, rfl, typedContext⟩ := Context.ofSchema_ok typed
  obtain ⟨decl, found⟩ := Option.isSome_iff_exists.mp declared
  obtain ⟨f, before, after, success, -, -, visit⟩ :=
    context.startGroup_ok typedContext start found progress
  have raw := (visit.reference_focus.formed (isVariable_stable label)).rooted
  have finished := postProcess_finished raw
  have clause : (f.group.addLines f.loose).postProcess.clause = f.group.clause := by
    rw [Group.postProcess, Group.stripLeadingUnion_clause, Group.bubbleFilters_clause,
      Group.addLines_clause]
  have unmarked : (f.group.addLines f.loose).postProcess.clause ≠ some .union := by
    rw [clause]
    rcases visit.shape_clause with plain | minus
    · simp [plain]
    · simp [minus]
  refine ⟨context, _, after, built, success, ?_, ?_, ?_, ?_, ?_, ?_⟩
  · rw [clause]
    exact visit.shape_clause
  · exact fun node member => (finished node member).isBlock
  · exact fun form => form.render_eq _
  · exact whereTokens_derives finished unmarked
  · exact whereBody_spaced fun node member => (finished node member).suffix
  · exact fun node member union => disjunction_shown raw member union

/-- The query of the sample schema is written in the grammar, with its
disjunction, its negation and its optional and excluded arcs. -/
theorem startGroup_written_entangled :
    entangledSchema.wellTyped = true ∧ entangledSchema.start = .label "S" ∧
    (entangledSchema.find? "S").isSome = true ∧
    ∃ context raw after, Context.ofSchema entangledSchema = .ok context ∧
      context.startGroup {} = .ok (some raw) after ∧
      (raw.postProcess.clause = none ∨ raw.postProcess.clause = some .minus) ∧
      raw.postProcess.EveryNode IsBlock ∧
      (∀ form : Form, form.render raw.postProcess =
        form.preamble raw.postProcess ++ whereBody raw.postProcess) ∧
      Derives .group (whereTokens raw.postProcess) ∧
      Spaced (whereTokens raw.postProcess) (whereBody raw.postProcess) ∧
      ∀ node ∈ raw.nodes, (∃ child ∈ node.children, child.clause = some .union) →
        ∃ shown ∈ raw.postProcess.nodes, shown.children = node.postProcess.children ∧
          shown.children.length = node.children.length ∧
          shown.children.countP (·.clause = some .union) + 1 = node.children.length :=
  ⟨by decide, rfl, by decide, startGroup_written entangledSchema "S" {} (by decide) rfl (by decide)⟩

end Compile

end ShapeQuery
