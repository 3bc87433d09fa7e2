import ShapeQuery.Proofs.Linked
import ShapeQuery.Proofs.RenamedQueries

/-!
Queries as templates. What a builder was asked for before makes a difference only in the number that
the fresh variables start from: apart from it, a query and the problems found on the way are
determined by the schema with its current start, the form and the node.
-/
namespace ShapeQuery.Compile

open Template

/-! ### The order of first appearance -/

def Piece.number? : Piece → Option Nat
  | .char _ => none
  | .hole number => some number

/-- The numbers of the holes of a template, in the order in which they first appear. -/
def Template.order (template : Template) : List Nat :=
  (template.filterMap Piece.number?).eraseDups

/-- The text with its fresh variables renumbered in the order in which they
first appear. Two texts that differ in the numbers alone have this in
common. -/
def inFirstOrder (text : String) : String :=
  renameFresh (fun number => (read text.toList).order.idxOf number) text

theorem eraseDups_map {renumber : Nat → Nat} (injective : Function.Injective renumber) :
    ∀ numbers : List Nat, (numbers.map renumber).eraseDups = numbers.eraseDups.map renumber
  | [] => rfl
  | number :: rest => by
    have others : ((fun other => !other == renumber number) ∘ renumber) = fun other =>
        !other == number := by
      funext other
      simp [injective.eq_iff]
    rw [List.map_cons, List.eraseDups_cons, List.eraseDups_cons, List.map_cons,
      List.filter_map, others, eraseDups_map injective (rest.filter fun other => !other == number)]
termination_by numbers => numbers.length
decreasing_by exact Nat.lt_succ_of_le (List.length_filter_le _ _)

theorem idxOf_map {renumber : Nat → Nat} (injective : Function.Injective renumber)
    (numbers : List Nat) (number : Nat) :
    (numbers.map renumber).idxOf (renumber number) = numbers.idxOf number := by
  induction numbers with
  | nil => rfl
  | cons first rest ih =>
    have heads : (renumber first == renumber number) = (first == number) := by
      rw [Bool.eq_iff_iff, beq_iff_eq, beq_iff_eq, injective.eq_iff]
    rw [List.map_cons, List.idxOf_cons, List.idxOf_cons, heads, ih]

/-- Renumbering the holes of a template renumbers the order in which they
appear, if different holes stay different. -/
theorem order_map {renumber : Nat → Nat} (injective : Function.Injective renumber)
    (template : Template) :
    Template.order (template.map (Piece.map renumber)) = template.order.map renumber := by
  have numbers : (Piece.number? ∘ Piece.map renumber) = fun piece =>
      piece.number?.map renumber := by
    funext piece
    cases piece <;> rfl
  rw [Template.order, List.filterMap_map, numbers, ← List.map_filterMap, eraseDups_map injective]
  rfl

/-- To renumber the holes and fill them is to fill them with the numbers composed. -/
theorem fill_map (renumber other : Nat → Nat) (template : Template) :
    Template.fill other (template.map (Piece.map renumber)) = template.fill (other ∘ renumber) := by
  rw [Template.fill, List.flatMap_map, Template.fill]
  congr 1
  funext piece
  cases piece <;> rfl

/-- Renaming fresh variables, different ones differently, makes no difference
to the text renumbered in order of appearance. -/
theorem inFirstOrder_renameFresh {renumber : Nat → Nat} (injective : Function.Injective renumber)
    (text : String) : inFirstOrder (renameFresh renumber text) = inFirstOrder text := by
  have same : (fun number => ((read text.toList).order.map renumber).idxOf number) ∘ renumber =
      fun number => (read text.toList).order.idxOf number :=
    funext (idxOf_map injective _)
  rw [inFirstOrder, renameFresh_toList, read_fill_read, order_map injective, renameFresh,
    renameFresh_toList, read_fill_read, fill_map, same]
  rfl

/-- A text that stays under a renaming has fresh variables only that stay. -/
theorem hole_of_renameFresh_eq {renumber : Nat → Nat} {text : String}
    (same : renameFresh renumber text = text) {number : Nat}
    (hole : .hole number ∈ read text.toList) : renumber number = number := by
  have templates := congrArg (read ·.toList) same
  simp only [renameFresh_toList, read_fill_read] at templates
  have kept := List.map_inj_left.mp (templates.trans (List.map_id _).symm) _ hole
  simpa [Piece.map] using kept

/-! ### Fresh variables that were taken -/

section Taken

variable {origin : Origin} {renumber : Nat → Nat}

def Origin.KeptBy (origin : Origin) (renumber : Nat → Nat) : Prop :=
  ∀ number, origin.first ≤ number → number < origin.last → renumber number = number

theorem Origin.Allocated.fixed (kept : origin.KeptBy renumber) {term : String}
    (allocated : origin.Allocated term) : renameFresh renumber term = term := by
  rcases allocated with ⟨label, -, rfl⟩ | ⟨number, lower, upper, rfl⟩
  · exact renameFresh_unmarked (unmarked_stableVariable label) renumber
  · rw [renameFresh_fresh, kept number lower upper]

/-- A line that constrains a variable stays if the variable does, as no string
of the leaves has the mark of fresh variables. -/
theorem Constrains.fixed {leaves : List Leaf}
    (unmarked : ∀ leaf ∈ leaves, AllUnmarked leaf.strings) {var line : String}
    (same : renameFresh renumber var = var) (constrains : Constrains leaves var line) :
    renameFresh renumber line = line := by
  induction constrains with
  | written leaf success member =>
    have lines := constraintLines_renameFresh renumber (unmarked _ leaf) var
    rw [same, success] at lines
    have mapped := (Except.ok.inj lines).symm.trans (List.map_id _).symm
    exact List.map_inj_left.mp mapped _ member
  | merged connective _ each filtering ih =>
    rw [renameFresh_mergeFilters connective filtering, List.map_congr_left ih, List.map_id']

/-- The lines of a group name no fresh variables but those that were taken. -/
theorem Origin.LinkedLine.fixed (unmarked : ∀ leaf ∈ origin.leaves, AllUnmarked leaf.strings)
    (kept : origin.KeptBy renumber) {scope : List String} {line : String}
    (linked : origin.LinkedLine scope line) : renameFresh renumber line = line := by
  cases linked with
  | triple leaf source object _ _ =>
    rw [triplePattern_renameFresh renumber (unmarked _ leaf), source.fixed kept, object.fixed kept]
  | constraint allocated _ constrains _ => exact constrains.fixed unmarked (allocated.fixed kept)

/-- A group whose lines are all linked stays under a renumbering that leaves
the taken numbers alone. Induction on the group, with the scope left open. -/
theorem mapText_eq_self (unmarked : ∀ leaf ∈ origin.leaves, AllUnmarked leaf.strings)
    (kept : origin.KeptBy renumber) {group : Group} (plain : group.EveryNode (·.suffix = "")) :
    ∀ {above : List String}, group.Fits origin.LinkedLine above →
      group.mapText (renameFresh renumber) = group := by
  induction group using Group.induct with
  | step group ih =>
    intro above fits
    obtain ⟨own, children⟩ := Group.fits_iff.mp fits
    obtain ⟨suffix, plainChildren⟩ := Group.everyNode_iff.mp plain
    have lines : group.lines.map (renameFresh renumber) = group.lines := by
      rw [List.map_congr_left fun line member => (own line member).fixed unmarked kept,
        List.map_id']
    have inside : group.children.map (Group.mapText (renameFresh renumber)) = group.children := by
      rw [List.map_congr_left fun child member =>
        ih child member (plainChildren child member) (children child member), List.map_id']
    have empty := (renameFresh_eq_empty renumber group.suffix).mpr suffix
    rw [Group.mapText_eq, lines, inside, empty]
    cases group
    exact congrArg (Group.mk _ · _ _) suffix.symm

theorem Context.startShape_fresh {context : Context} {p q : Progress}
    {found : Option (String × ShapeDecl)} (success : context.startShape p = .ok found q) :
    q.fresh = p.fresh := by
  rcases context.startShape_cases p with
    ⟨name, decl, -, -, same⟩ | ⟨-, -, d, -, same⟩ | ⟨codes, -, -, same⟩
  · cases same.symm.trans success
    exact context.announced_fresh p
  · cases same.symm.trans success
    exact context.announced_fresh p
  · cases same.symm.trans success

theorem Context.startGroup_visit {context : Context} {p q : Progress} {group : Group}
    (success : context.startGroup p = .ok (some group) q) :
    ∃ label f before, group = f.group.addLines f.loose ∧ before.fresh = p.fresh ∧
      Visit context before (.shape none (.reference label)) f q := by
  unfold startGroup at success
  obtain ⟨found, before, chosen, success⟩ := bind_ok success
  cases found with
  | none => cases success
  | some found =>
    obtain ⟨f, after, visited, success⟩ := bind_ok success
    cases success
    exact ⟨found.1, f, before, rfl, startShape_fresh chosen,
      (linksTo_visit context context.targetCount).shape visited⟩

/-- A finished group names no fresh variables but those that were taken for it. -/
theorem postProcess_mapText_eq_self {schema : Schema} {context : Context}
    (built : Context.ofSchema schema = .ok context)
    (unmarked : ∀ leaf ∈ schema.leaves, AllUnmarked leaf.strings) {p q : Progress} {group : Group}
    (success : context.startGroup p = .ok (some group) q)
    (kept : ∀ number, p.fresh ≤ number → number < q.fresh → renumber number = number) :
    group.postProcess.mapText (renameFresh renumber) = group.postProcess := by
  obtain ⟨label, f, before, rfl, fresh, visit⟩ := Context.startGroup_visit success
  let origin : Origin := ⟨label, schema.leaves, p.fresh, q.fresh⟩
  have closed : context.Closed origin.leaves := fun resolved =>
    Context.mem_leaves_of_resolve built resolved
  have tied : f.Tied origin [] :=
    visit.start_tied closed (Nat.le_of_eq fresh.symm) (Nat.le_refl q.fresh)
  have steady : Steady origin.LinkedLine := Origin.linkedLine_steady
  have fits := (tied.group.addLines steady tied.loose).postProcess steady
  have finished := postProcess_finished
    (visit.reference_focus.formed (isVariable_stable label)).rooted
  have keeps : origin.KeptBy renumber := kept
  exact mapText_eq_self unmarked keeps (fun node member => (finished node member).suffix) fits

end Taken

/-! ### What a schema determines -/

/-- A query as a template, with the pattern apart from what stands before it. -/
structure QueryTemplate where
  preamble : Template
  body : Template

namespace QueryTemplate

def fill (renumber : Nat → Nat) (template : QueryTemplate) : String :=
  String.ofList ((template.preamble ++ template.body).fill renumber)

def ofGroup (form : Form) (group : Group) : QueryTemplate :=
  ⟨read (form.preamble group).toList, read (whereBody group).toList⟩

end QueryTemplate

/-- The group that a query is written for. A query that selects ignores the node. -/
def boundGroup (form : Form) (start : Start) (uri : Option String) (group : Group) : Group :=
  match form with
  | .select => group
  | _ => Builder.bindStart start uri group

/-- The template of the query of a form for a schema and a node: what is found
when no fresh variable has been taken before. -/
def queryTemplate (schema : Schema) (form : Form) (uri : Option String) :
    Except Fault (Option QueryTemplate) :=
  (Builder.group { schema }).1.map
    (Option.map fun group => .ofGroup form (boundGroup form schema.start uri group))

def problems (schema : Schema) : List Diagnostic :=
  (Builder.group { schema }).2.diagnostics

def freshTaken (schema : Schema) : Nat :=
  (Builder.group { schema }).2.fresh

/-- To fill the template of a query is to rename the fresh variables in its text. -/
theorem fill_ofGroup (renumber : Nat → Nat) (form : Form) (group : Group) :
    (QueryTemplate.ofGroup form group).fill renumber =
      renameFresh renumber (form.render group) := by
  rw [form.render_eq, renameFresh_append_opens (whereBody_opensApart group), QueryTemplate.fill,
    fill_append, String.ofList_append]
  rfl

theorem add_injective (base : Nat) : Function.Injective (base + ·) :=
  fun _ _ same => Nat.add_left_cancel same

/-- From another number on, the group of a schema is the same up to the numbers
of fresh variables. -/
theorem group_numberedFrom {builder : Builder}
    (unmarked : ∀ leaf ∈ builder.schema.leaves, AllUnmarked leaf.strings) :
    builder.group.1 = (Builder.group { schema := builder.schema }).1.map
      (Option.map (·.mapText (renameFresh (builder.fresh + ·)))) ∧
    builder.group.2 = { builder with
      diagnostics := problems builder.schema
      fresh := builder.fresh + freshTaken builder.schema } := by
  unfold problems freshTaken Builder.group
  dsimp only
  cases built : Context.ofSchema builder.schema with
  | error misuse => exact ⟨rfl, rfl⟩
  | ok context =>
    have carried := numberedFrom_startGroup builder.fresh built unmarked {} trivial
    have start : (numberedFrom builder.fresh).state {} = { fresh := builder.fresh } := rfl
    rw [start] at carried
    dsimp only [EStateM.run]
    cases outcome : context.startGroup {} with
    | error fault after =>
      rw [outcome] at carried
      rw [carried.2]
      exact ⟨rfl, rfl⟩
    | ok found after =>
      rw [outcome] at carried
      rw [carried.2.2]
      refine ⟨?_, rfl⟩
      cases found with
      | none => rfl
      | some group =>
        have passed := Group.mapText_postProcess (numberedFrom builder.fresh) group
        exact congrArg (Except.ok ∘ some) passed.symm

/-- Putting in the node goes together with renaming, as a node without the mark
names no fresh variable. -/
theorem boundGroup_mapText (form : Form) (start : Start) {uri : Option String}
    (unmarked : ∀ node ∈ uri, Unmarked node.toList) (renumber : Nat → Nat) (group : Group) :
    boundGroup form start uri (group.mapText (renameFresh renumber)) =
      (boundGroup form start uri group).mapText (renameFresh renumber) := by
  cases form with
  | select => rfl
  | construct => exact bindStart_mapText start unmarked renumber group
  | ask => exact bindStart_mapText start unmarked renumber group

/-- A query of any form is written for the group of the builder, with the node
put in where the form takes one. -/
theorem buildForm_eq (builder : Builder) (form : Form) (uri : Option String) :
    builder.buildForm form uri =
      (builder.group.1.map (Option.map fun group =>
        form.render (boundGroup form builder.schema.start uri group)), builder.group.2) := by
  cases form <;> rfl

/-- Without a node, the pattern does not depend on the form. -/
theorem queryTemplate_body (schema : Schema) (form : Form) :
    (queryTemplate schema form none).map (Option.map QueryTemplate.body) =
      (Builder.group { schema }).1.map (Option.map fun group => read (whereBody group).toList) := by
  have unbound : ∀ group, boundGroup form schema.start none group = group := by
    intro group
    cases form with
    | select => rfl
    | construct => cases schema.start <;> rfl
    | ask => cases schema.start <;> rfl
  simp only [queryTemplate, unbound]
  cases (Builder.group { schema }).1 with
  | error fault => rfl
  | ok found => cases found <;> rfl

/-- From another number on, the query is the same up to the numbers of fresh
variables. -/
theorem buildForm_renamed {builder : Builder}
    (unmarked : ∀ leaf ∈ builder.schema.leaves, AllUnmarked leaf.strings) (form : Form)
    {uri : Option String} (unmarkedNode : ∀ node ∈ uri, Unmarked node.toList) :
    (builder.buildForm form uri).1 = (Builder.buildForm { schema := builder.schema } form uri).1.map
      (Option.map (renameFresh (builder.fresh + ·))) := by
  rw [buildForm_eq, buildForm_eq, (group_numberedFrom unmarked).1]
  cases (Builder.group { schema := builder.schema }).1 with
  | error fault => rfl
  | ok found =>
    cases found with
    | none => rfl
    | some group =>
      refine congrArg (Except.ok ∘ some) ?_
      dsimp only
      rw [boundGroup_mapText form _ unmarkedNode, render_renameFresh form (add_injective _)]

/-- The template of a query, filled, is the query of a new builder with its
fresh variables renamed. -/
theorem queryTemplate_fill (schema : Schema) (form : Form) (uri : Option String)
    (renumber : Nat → Nat) :
    (queryTemplate schema form uri).map (Option.map (QueryTemplate.fill renumber)) =
      (Builder.buildForm { schema } form uri).1.map (Option.map (renameFresh renumber)) := by
  rw [buildForm_eq, queryTemplate]
  cases (Builder.group { schema }).1 with
  | error fault => rfl
  | ok found =>
    cases found with
    | none => rfl
    | some group => exact congrArg (Except.ok ∘ some) (fill_ofGroup renumber form _)

/-- A group of a new builder comes from a run that takes as many fresh
variables as are counted for the schema. -/
theorem group_some {schema : Schema} {group : Group}
    (success : (Builder.group { schema }).1 = .ok (some group)) :
    ∃ context raw after, Context.ofSchema schema = .ok context ∧
      context.startGroup {} = .ok (some raw) after ∧ group = raw.postProcess ∧
      freshTaken schema = after.fresh := by
  unfold freshTaken
  unfold Builder.group at success ⊢
  dsimp only [EStateM.run] at success ⊢
  cases built : Context.ofSchema schema with
  | error misuse =>
    rw [built] at success
    cases success
  | ok context =>
    rw [built] at success
    dsimp only at success
    cases outcome : context.startGroup {} with
    | error fault after =>
      rw [outcome] at success
      cases success
    | ok found after =>
      rw [outcome] at success
      cases found with
      | none => cases success
      | some raw =>
        cases success
        exact ⟨context, raw, after, rfl, outcome, rfl, by dsimp only; rw [outcome]⟩

/-- The holes of a template are numbered below the number of fresh variables
that are taken. -/
theorem hole_lt_freshTaken {schema : Schema}
    (unmarked : ∀ leaf ∈ schema.leaves, AllUnmarked leaf.strings) {form : Form}
    {uri : Option String} (unmarkedNode : ∀ node ∈ uri, Unmarked node.toList)
    {template : QueryTemplate} (found : queryTemplate schema form uri = .ok (some template))
    {number : Nat} (hole : .hole number ∈ template.preamble ++ template.body) :
    number < freshTaken schema := by
  -- A renumbering that moves every other number leaves the group as it is.
  let renumber : Nat → Nat := fun other => if other < freshTaken schema then other else other + 1
  have injective : Function.Injective renumber := by
    intro first second same
    simp only [renumber] at same
    split at same <;> split at same <;> omega
  unfold queryTemplate at found
  cases outcome : (Builder.group { schema }).1 with
  | error fault =>
    rw [outcome] at found
    cases found
  | ok result =>
    cases result with
    | none =>
      rw [outcome] at found
      cases found
    | some group =>
      rw [outcome] at found
      cases found
      obtain ⟨context, raw, after, built, success, rfl, taken⟩ := group_some outcome
      have kept : ∀ other, 0 ≤ other → other < after.fresh → renumber other = other :=
        fun other _ below => if_pos (taken ▸ below)
      have same := postProcess_mapText_eq_self built unmarked success kept
      have bound := boundGroup_mapText form schema.start unmarkedNode renumber raw.postProcess
      rw [same] at bound
      have stays : renumber number = number := by
        rcases List.mem_append.mp hole with before | inside
        · refine hole_of_renameFresh_eq ?_ before
          rw [← preamble_renameFresh form injective, ← bound]
        · refine hole_of_renameFresh_eq ?_ inside
          rw [← whereBody_renameFresh renumber, ← bound]
      by_contra above
      simp only [renumber, if_neg above] at stays
      omega

/-! ### Builders that have been used before -/

/-- What a builder is asked for. -/
inductive Request where
  | build (form : Json) (uri : Option String)
  | setStart (start : Start)

def Request.start (current : Start) : Request → Start
  | .build _ _ => current
  | .setStart start => start

namespace Builder

def serve (builder : Builder) : Request → Builder
  | .build form uri => (builder.build form uri).2
  | .setStart start => builder.setStart start

def serveAll (builder : Builder) (requests : List Request) : Builder :=
  requests.foldl serve builder

/-- The schema with the start that requests leave. -/
def schemaAfter (builder : Builder) (requests : List Request) : Schema :=
  { builder.schema with start := requests.foldl Request.start builder.schema.start }

theorem group_schema (builder : Builder) : builder.group.2.schema = builder.schema := by
  unfold group
  split
  · rfl
  · split <;> rfl

theorem build_schema (builder : Builder) (form : Json) (uri : Option String) :
    (builder.build form uri).2.schema = builder.schema := by
  unfold build
  split
  · rfl
  · rw [buildForm_eq]
    exact group_schema builder

/-- A request changes nothing of the schema but its start. Only a request to
set the start does that. -/
theorem serve_schema (builder : Builder) (request : Request) :
    (builder.serve request).schema =
      { builder.schema with start := request.start builder.schema.start } := by
  cases request with
  | build form uri => exact build_schema builder form uri
  | setStart start => rfl

/-- Requests change nothing of the schema but its start. -/
theorem serveAll_schema (requests : List Request) : ∀ builder : Builder,
    (builder.serveAll requests).schema = builder.schemaAfter requests := by
  induction requests with
  | nil => exact fun _ => rfl
  | cons request rest ih =>
    intro builder
    have step := ih (builder.serve request)
    rw [schemaAfter, serve_schema] at step
    exact step

end Builder

/-- A build of a supported form is the query of that form. Its faults are those
of the walk. -/
theorem build_of_supported {form : Json} {kind : Form} (supported : formOf? form = some kind)
    (builder : Builder) (uri : Option String) :
    builder.build form uri =
      ((builder.buildForm kind uri).1.mapError .walk, (builder.buildForm kind uri).2) := by
  rw [Builder.build, supported]

theorem map_mapError {α β : Type} (f : α → β) (result : Except Fault α) :
    (result.mapError BuildFault.walk).map f = (result.map f).mapError BuildFault.walk := by
  cases result <;> rfl

theorem map_inFirstOrder {renumber : Nat → Nat} (injective : Function.Injective renumber)
    (result : Except Fault (Option String)) :
    (result.map (Option.map (renameFresh renumber))).map (Option.map inFirstOrder) =
      result.map (Option.map inFirstOrder) := by
  cases result with
  | error fault => rfl
  | ok found =>
    cases found with
    | none => rfl
    | some text => exact congrArg (Except.ok ∘ some) (inFirstOrder_renameFresh injective text)

/-- What comes of asking a builder for a query is determined by a schema, the
form and the node, but for the number that the fresh variables start from. -/
structure Builder.BuildsTemplate (builder : Builder) (schema : Schema) (form : Json) (kind : Form)
    (uri : Option String) : Prop where
  /-- The query is its template, filled from the next fresh variable on. -/
  text : (builder.build form uri).1 = ((queryTemplate schema kind uri).map
    (Option.map (QueryTemplate.fill (builder.fresh + ·)))).mapError .walk
  /-- The holes of the template stand for variables that the build takes. -/
  holes : ∀ template, queryTemplate schema kind uri = .ok (some template) →
    ∀ number, .hole number ∈ template.preamble ++ template.body → number < freshTaken schema
  /-- As many fresh variables are taken as the schema determines. -/
  fresh : (builder.build form uri).2.fresh = builder.fresh + freshTaken schema
  diagnostics : (builder.build form uri).2.diagnostics = problems schema
  /-- Without a node, the pattern is the same in every form. -/
  body : ∀ other, (queryTemplate schema other none).map (Option.map QueryTemplate.body) =
    (queryTemplate schema kind none).map (Option.map QueryTemplate.body)
  /-- Another builder with the schema gives the same text, if fresh variables
  are renumbered in the order in which they first appear. -/
  twin : ∀ twin : Builder, twin.schema = schema →
    (twin.build form uri).1.map (Option.map inFirstOrder) =
      (builder.build form uri).1.map (Option.map inFirstOrder)

/-- Whatever a builder was asked for before, a supported query and the problems
that are kept are determined by the schema with its current start, the form and
the node, but for the number that the fresh variables start from. -/
theorem build_after_requests (initial : Builder) (requests : List Request) (form : Json)
    (kind : Form) (uri : Option String) (unmarked : AllUnmarked initial.schema.strings)
    (unmarkedNode : ∀ node ∈ uri, Unmarked node.toList) (supported : formOf? form = some kind) :
    (initial.serveAll requests).BuildsTemplate (initial.schemaAfter requests) form kind uri := by
  generalize reached : initial.serveAll requests = builder
  generalize left : initial.schemaAfter requests = schema
  have same : builder.schema = schema := by
    rw [← reached, ← left, Builder.serveAll_schema]
  have leaves : ∀ leaf ∈ schema.leaves, AllUnmarked leaf.strings := by
    rw [← left]
    exact allUnmarked_flatMap.mp unmarked
  have leavesHere : ∀ leaf ∈ builder.schema.leaves, AllUnmarked leaf.strings := by rwa [same]
  have split := build_of_supported supported builder uri
  have after : (builder.build form uri).2 = builder.group.2 := by rw [split, buildForm_eq]
  refine ⟨?_, fun template found number hole => hole_lt_freshTaken leaves unmarkedNode found hole,
    ?_, ?_, fun other => ?_, fun twin twinSchema => ?_⟩
  · rw [split, buildForm_renamed leavesHere kind unmarkedNode, queryTemplate_fill, same]
  · rw [after, (group_numberedFrom leavesHere).2, same]
  · rw [after, (group_numberedFrom leavesHere).2, same]
  · rw [queryTemplate_body, queryTemplate_body]
  · have twinLeaves : ∀ leaf ∈ twin.schema.leaves, AllUnmarked leaf.strings := by rwa [twinSchema]
    rw [split, build_of_supported supported, map_mapError, map_mapError,
      buildForm_renamed twinLeaves kind unmarkedNode,
      buildForm_renamed leavesHere kind unmarkedNode, map_inFirstOrder (add_injective _),
        map_inFirstOrder (add_injective _), twinSchema, same]

def mixedRequests : List Request :=
  [.build (.string "ask") (some "http://a/n"), .build (.string "describe") none,
    .setStart (.label "T")]

/-- After a query, a refused form and another start, a builder answers as a new
one with that start would. -/
theorem build_after_requests_entangled :
    AllUnmarked entangledSchema.strings ∧ Unmarked "http://a/n".toList ∧
    formOf? (.string "Construct") = some .construct ∧
    (Builder.schemaAfter { schema := entangledSchema } mixedRequests).start.label? = some "T" ∧
    (Builder.serveAll { schema := entangledSchema } mixedRequests).BuildsTemplate
      (Builder.schemaAfter { schema := entangledSchema } mixedRequests)
        (.string "Construct") .construct
      (some "http://a/n") := by
  have unmarked : AllUnmarked entangledSchema.strings := by decide +kernel
  have unmarkedNode : Unmarked "http://a/n".toList := by decide +kernel
  have supported : formOf? (.string "Construct") = some .construct := by decide +kernel
  refine ⟨unmarked, unmarkedNode, supported, rfl, ?_⟩
  exact build_after_requests { schema := entangledSchema } mixedRequests _ _ _ unmarked
    (fun node member => Option.mem_some.mp member ▸ unmarkedNode) supported

end ShapeQuery.Compile
