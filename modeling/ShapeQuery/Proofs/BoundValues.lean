import ShapeQuery.Proofs.Outcome
import ShapeQuery.Proofs.ValueLists

/-!
Lists of values in a query about a given node. The node is put in place of the start variable
everywhere, and so right after the keyword of a list of values on that variable, where only a
variable may stand. This happens exactly if the start shape is about a node that is constrained to a
list of plain terms; all other lists of values keep their variables.
-/
namespace ShapeQuery

namespace Group

/-- The lines of a group after a substitution are those before it, with the
term put in. -/
theorem mem_allLines_substitute {variableName term line : String} {group : Group} :
    line ∈ (group.substitute variableName term).allLines ↔
      ∃ before ∈ group.allLines, substituteLine variableName term before = line := by
  induction group using Group.induct with
  | step group ih =>
    rw [substitute_eq, mem_allLines_mk]
    simp only [List.mem_map]
    constructor
    · rintro (⟨before, own, rfl⟩ | ⟨_, ⟨child, member, rfl⟩, inside⟩)
      · exact ⟨before, mem_allLines.mpr (Or.inl own), rfl⟩
      · obtain ⟨before, there, rfl⟩ := (ih child member).mp inside
        exact ⟨before, mem_allLines.mpr (Or.inr ⟨child, member, there⟩), rfl⟩
    · rintro ⟨before, inside, rfl⟩
      rcases mem_allLines.mp inside with own | ⟨child, member, there⟩
      · exact Or.inl ⟨before, own, rfl⟩
      · exact Or.inr ⟨_, ⟨child, member, rfl⟩, (ih child member).mpr ⟨before, there, rfl⟩⟩

end Group

namespace Compile

open ShapeQuery.Group

def ListsFor (term line : String) : Prop :=
  ∃ rest, line.toList = "VALUES ".toList ++ term.toList ++ " \x7b".toList ++ rest

theorem IsValuesLine.listsFor {var line : String} (values : IsValuesLine var line) :
    ListsFor var line := by
  obtain ⟨terms, rfl⟩ := values
  exact ⟨' ' :: terms.toList ++ " \x7d".toList, by simp⟩

theorem ListsFor.isValues {term line : String} (lists : ListsFor term line) :
    isValues line = true := by
  obtain ⟨rest, text⟩ := lists
  rw [ShapeQuery.isValues, List.isPrefixOf_iff_prefix, text, List.append_assoc, List.append_assoc]
  exact List.prefix_append _ _

/-- A node does not stand where a variable stands. -/
theorem ListsFor.not_bracket {var uri line : String} (named : IsNamed var)
    (lists : ListsFor var line) : ¬ ListsFor (Builder.bracket uri) line := by
  rintro ⟨other, bound⟩
  obtain ⟨rest, text⟩ := lists
  obtain ⟨name, same, -⟩ := named
  obtain ⟨inner, enclosed⟩ := bracket_toList uri
  rw [text, same, enclosed] at bound
  simp at bound

section Substitution

variable {label uri line : String}

theorem isValues_substituteLine :
    isValues (substituteLine (stableVariable label) (Builder.bracket uri) line) =
      isValues line := by
  obtain ⟨inner, enclosed⟩ := bracket_toList uri
  exact isPrefixOf_substituteLine (stableVariable_toList label)
    (isWord_of_mem_stableName label) enclosed
    (by decide) (by decide) line

/-- A list of values on the variable becomes one with the node after the keyword. -/
theorem ListsFor.bound (lists : ListsFor (stableVariable label) line) :
    ListsFor (Builder.bracket uri) (substituteLine (stableVariable label)
      (Builder.bracket uri) line) := by
  obtain ⟨rest, text⟩ := lists
  have word := isWord_of_mem_stableName label
  have whole : ((stableName label).toList ++ (" \x7b".toList ++ rest)).takeWhile Text.isWord =
      (stableName label).toList := Template.takeWhile_name word rfl
  have behind : ((stableName label).toList ++ (" \x7b".toList ++ rest)).dropWhile Text.isWord =
      " \x7b".toList ++ rest := Template.dropWhile_name word rfl
  refine ⟨replaceFrom (stableVariable label).toList (Builder.bracket uri).toList 0 rest, ?_⟩
  rw [substituteLine, String.toList_ofList, text, stableVariable_toList, List.append_assoc,
    List.append_assoc, replaceFrom_append word (by decide), List.cons_append,
    replaceFrom_whole word whole, behind, replaceFrom_append word (by decide), List.append_assoc,
      List.append_assoc]

theorem ListsFor.kept {var : String} (named : IsNamed var) (other : var ≠ stableVariable label)
    (lists : ListsFor var line) :
    ListsFor var (substituteLine (stableVariable label) (Builder.bracket uri) line) := by
  obtain ⟨rest, text⟩ := lists
  obtain ⟨name, same, wordly⟩ := named
  have word := isWord_of_mem_stableName label
  have different : ¬ ('?' = '?' ∧
      (name ++ (" \x7b".toList ++ rest)).takeWhile Text.isWord = (stableName label).toList) := by
    rw [Template.takeWhile_name wordly rfl]
    rintro ⟨-, rfl⟩
    exact other (String.toList_inj.mp (same.trans (stableVariable_toList label).symm))
  refine ⟨replaceFrom (stableVariable label).toList (Builder.bracket uri).toList 0 rest, ?_⟩
  rw [substituteLine, String.toList_ofList, text, same, stableVariable_toList, List.append_assoc,
    List.append_assoc, replaceFrom_append word (by decide), List.cons_append,
    replaceFrom_other word different, replaceFrom_append word (mark_not_mem_of_isWord wordly),
    replaceFrom_append word (by decide)]
  simp only [List.append_assoc, List.cons_append]

end Substitution

/-- What putting a node in place of the variable of a shape does to lists of values. -/
structure Context.BoundLists (context : Context) (label uri : String) (bound : Group) : Prop where
  /-- Right after the keyword there is the node, or a variable other than that
  of the shape. -/
  after_keyword : ∀ line ∈ bound.allLines, isValues line = true →
    ListsFor (Builder.bracket uri) line ∨
    ∃ var, IsVariable var ∧ var ≠ stableVariable label ∧ ListsFor var line
  /-- It is the node in some list if the node that the shape is about is
  constrained to plain terms. -/
  node_of_lists : context.ListsTerms label →
    ∃ line ∈ bound.allLines, ListsFor (Builder.bracket uri) line
  /-- It is the node in no other case, unless another shape has the same variable. -/
  lists_of_node : ∀ line ∈ bound.allLines, ListsFor (Builder.bracket uri) line →
    context.ListsTerms label ∨ ∃ other, other ≠ label ∧
      .reference (.shape other) ∈ context.schema.leaves ∧
        stableVariable other = stableVariable label

/-- Where a list of values in the group of the start shape comes from: a node
constraint on the start shape itself, on the object of an arc, or on another
shape. -/
inductive StartListOrigin (context : Context) (label line : String) : Prop where
  | own (lists : context.ListsTerms label) (values : IsValuesLine (stableVariable label) line)
  | fresh {number} (values : IsValuesLine (freshVariable number) line)
  | other {name} (different : name ≠ label)
    (referred : .reference (.shape name) ∈ context.schema.leaves)
      (values : IsValuesLine (stableVariable name) line)

/-- The origin of a list in the group of the start shape is found along the
visit of the shape, as a reference to it is compiled. -/
theorem Visit.start_origins {context : Context} (closed : context.Closed context.schema.leaves)
    (named : ∀ leaf ∈ context.schema.leaves, leaf.isNamed = true) {p q : Progress}
    {label : String} {f : Fragment} (visit : Visit context p (.shape none (.reference label)) f q)
    {line : String} (there : line ∈ f.allLines) (values : isValues line = true) :
    StartListOrigin context label line := by
  cases visit.rule with
  | shapeReference found new inner =>
    have origin := inner.origins closed named (closed (Context.resolve_decl found))
      (isVariable_stable label) line there values
    cases origin with
    | @own nc concerns lists own =>
      exact .own ⟨nc, .follow List.mem_cons_self (Context.ownLeaves?_decl found) concerns, lists⟩
        own
    | fresh own => exact .fresh own
    | other new referred own =>
      refine .other ?_ referred own
      rintro rfl
      exact new List.mem_cons_self
  | _ => exact absurd there Fragment.not_mem_allLines_empty

/-- Lists of values before a node is put in place of the variable tell of those
after it. -/
theorem Context.BoundLists.of_origins {context : Context} {label uri : String} {group : Group}
    (origins : ∀ line ∈ group.allLines, isValues line = true → StartListOrigin context label line)
    (lists : context.ListsTerms label → ∃ line ∈ group.allLines, isValues line = true ∧
      IsValuesLine (stableVariable label) line) :
    context.BoundLists label uri (group.substitute (stableVariable label) (Builder.bracket uri))
      where
  after_keyword line there values := by
    obtain ⟨before, inside, rfl⟩ := mem_allLines_substitute.mp there
    rw [isValues_substituteLine] at values
    have kept : ∀ {var}, IsNamed var → IsValuesLine var before →
        ListsFor (Builder.bracket uri) (substituteLine (stableVariable label)
          (Builder.bracket uri) before) ∨
        ∃ var, IsVariable var ∧ var ≠ stableVariable label ∧
          ListsFor var (substituteLine (stableVariable label) (Builder.bracket uri) before) := by
      intro var named own
      by_cases same : var = stableVariable label
      · subst same
        exact Or.inl own.listsFor.bound
      · exact Or.inr ⟨var, named.isVariable, same, own.listsFor.kept named same⟩
    cases origins before inside values with
    | own _ own => exact kept (isNamed_stable label) own
    | fresh own => exact kept (isNamed_fresh _) own
    | other _ _ own => exact kept (isNamed_stable _) own
  node_of_lists terms := by
    obtain ⟨line, there, -, own⟩ := lists terms
    exact ⟨_, mem_allLines_substitute.mpr ⟨line, there, rfl⟩, own.listsFor.bound⟩
  lists_of_node line there node := by
    obtain ⟨before, inside, rfl⟩ := mem_allLines_substitute.mp there
    have values := node.isValues
    rw [isValues_substituteLine] at values
    -- A list of another variable still has this variable after the keyword, so not the node.
    have others : ∀ {var}, IsNamed var → var ≠ stableVariable label →
        ¬ IsValuesLine var before := by
      intro var named different own
      exact (own.listsFor.kept named different).not_bracket named node
    cases origins before inside values with
    | own terms _ => exact Or.inl terms
    | @fresh number own =>
      have different : freshVariable number ≠ stableVariable label := by
        intro same
        have chars := congrArg String.toList same
        rw [stableVariable_toList, freshVariable, String.toList_append] at chars
        exact stableName_ne_freshName label number (List.cons.inj chars).2.symm
      exact absurd own (others (isNamed_fresh number) different)
    | @other name different referred own =>
      by_cases same : stableVariable name = stableVariable label
      · exact Or.inr ⟨name, different, referred, same⟩
      · exact absurd own (others (isNamed_stable name) same)

/-- For a well-typed schema with a declared start shape and a node, a builder
constructs and asks with the finished group in which the node stands for the
start variable. In this group the node stands right after the keyword of a list
of values exactly if the node of the start shape is constrained to plain terms,
and all other lists of values have another variable there. -/
theorem buildForm_boundLists (builder : Builder) (label uri : String)
    (typed : builder.schema.wellTyped = true) (start : builder.schema.start = .label label)
    (declared : (builder.schema.find? label).isSome = true) (node : uri ≠ "") :
    ∃ context raw after, Context.ofSchema builder.schema = .ok context ∧
      context.startGroup { fresh := builder.fresh } = .ok (some raw) after ∧
      (∀ form ∈ [Form.construct, Form.ask],
        (builder.buildForm form (some uri)).1 = .ok (some (form.render
        (raw.postProcess.substitute (stableVariable label) (Builder.bracket uri))))) ∧
      context.BoundLists label uri
        (raw.postProcess.substitute (stableVariable label) (Builder.bracket uri)) := by
  obtain ⟨context, built, same, typedContext⟩ := Context.ofSchema_ok typed
  rw [← same] at start declared typed
  obtain ⟨decl, found⟩ := Option.isSome_iff_exists.mp declared
  obtain ⟨f, before, after, success, -, nothing, visit⟩ :=
    context.startGroup_ok typedContext start found { fresh := builder.fresh }
  have closed : context.Closed context.schema.leaves := by
    rw [same]
    exact fun resolved => Context.mem_leaves_of_resolve built resolved
  have lines : ∀ {line}, line ∈ (f.group.addLines f.loose).postProcess.allLines ↔
      line ∈ f.allLines := by
    intro line
    rw [mem_allLines_postProcess, mem_allLines_addLines, Fragment.allLines, List.mem_append]
  refine ⟨context, _, after, built, success, ?_, .of_origins (fun line there values => ?_) ?_⟩
  · have bound : ∀ form ∈ [Form.construct, Form.ask], ∀ group,
        boundGroup form builder.schema.start (some uri) group =
          group.substitute (stableVariable label) (Builder.bracket uri) := by
      intro form member group
      have binds : Builder.bindStart builder.schema.start (some uri) group =
          group.substitute (stableVariable label) (Builder.bracket uri) := by
        rw [← same, start]
        exact if_neg node
      simp only [List.mem_cons, List.not_mem_nil, or_false] at member
      rcases member with rfl | rfl <;> exact binds
    intro form member
    rw [buildForm_eq, Builder.group_of_startGroup built success]
    exact congrArg (Except.ok ∘ some ∘ form.render) (bound form member _)
  · exact visit.start_origins closed (Schema.named_leaves typed) (lines.mp there) values
  · rintro ⟨nc, concerns, terms⟩
    have finds : context.Finds before.expanding [.reference (.shape label)] nc := by
      rw [nothing]
      exact concerns.finds
    obtain ⟨line, there, own⟩ := visit.reference_focus.lists (isVariable_stable label)
      nc finds terms
    exact ⟨line, lines.mpr there, own⟩

/-- A schema with a list of plain terms that the node of the start shape is
constrained to through a reference and a disjunction, and another list for what
an arc leads to. -/
def listedSchema : Schema where
  shapes := [
    ⟨.string "S", .and [.reference "T", .shape (some (.constraint (.string "p") false
      (.node { values := some [.iri "http://a/u"] }) {} .null)) false []], false⟩,
    ⟨.string "T", .or [.not (.reference "S"), .node { values := some [.iri "http://a/v"] }], false⟩]
  start := .label "S"

theorem listsTerms_listedSchema {context : Context} (same : context.schema = listedSchema) :
    context.ListsTerms "S" := by
  have found : ∀ target, context.ownLeaves? target =
      Context.ownLeaves? ⟨listedSchema, []⟩ target := by
    rintro (label | id) <;> simp only [Context.ownLeaves?, same]
  refine ⟨{ values := some [.iri "http://a/v"] }, ?_, rfl⟩
  refine .follow List.mem_cons_self ((found _).trans rfl) ?_
  refine .follow List.mem_cons_self ((found _).trans rfl) ?_
  exact .here (List.mem_cons_of_mem _ List.mem_cons_self)

/-- The node stands after the keyword of the list that is reached through a
reference and a disjunction, and not after that of the other list. -/
theorem buildForm_boundLists_listed :
    listedSchema.wellTyped = true ∧ listedSchema.start = .label "S" ∧
    (listedSchema.find? "S").isSome = true ∧ "http://a/n" ≠ "" ∧
    ∃ context raw after, Context.ofSchema listedSchema = .ok context ∧ context.ListsTerms "S" ∧
      context.startGroup { fresh := 3 } = .ok (some raw) after ∧
      (∀ form ∈ [Form.construct, Form.ask],
        (Builder.buildForm { schema := listedSchema, fresh := 3 } form (some "http://a/n")).1 =
          .ok (some (form.render
            (raw.postProcess.substitute (stableVariable "S") (Builder.bracket "http://a/n"))))) ∧
      context.BoundLists "S" "http://a/n"
        (raw.postProcess.substitute (stableVariable "S") (Builder.bracket "http://a/n")) := by
  have typed : listedSchema.wellTyped = true := by decide
  have declared : (listedSchema.find? "S").isSome = true := by decide
  obtain ⟨context, raw, after, built, rest⟩ :=
    buildForm_boundLists { schema := listedSchema, fresh := 3 } "S"
    "http://a/n" typed rfl declared (by decide)
  obtain ⟨_, again, same, -⟩ := Context.ofSchema_ok typed
  cases built.symm.trans again
  exact ⟨typed, rfl, declared, by decide, _, raw, after, built, listsTerms_listedSchema same, rest⟩

end Compile

end ShapeQuery
