import ShapeQuery.Proofs.QueryTemplates

/-!
The outcome of a request for a query and the problems that are kept agree. An unsupported form
is refused, and so is a declared start whose label is no text. Otherwise no query comes of a
schema exactly if an error is kept; and beside a query there is a warning exactly if something
that belongs to it was left out.
-/
namespace ShapeQuery

/-- The start is a label, and a shape is declared with it. -/
def Schema.HasStart (schema : Schema) : Prop :=
  ∃ label, schema.start = .label label ∧ (schema.find? label).isSome = true

/-- The labels of a well-typed schema are texts, so no declaration has an
ill-formed one. -/
theorem Schema.declaresIllFormed_of_wellTyped {schema : Schema} (typed : schema.wellTyped = true)
    (codes : List Nat) : schema.declaresIllFormed codes = false := by
  simp only [wellTyped, Bool.and_eq_true, List.all_eq_true] at typed
  rw [declaresIllFormed, List.any_eq_false]
  intro decl member
  obtain ⟨text, isText⟩ := Json.isText_iff.mp (typed.1 decl member).1
  rw [isText]
  nofun

/-- Whether a value is anything but an integer that is too long to be written. -/
def Json.isPrintable : Json → Bool
  | .int n => (decimalDigits n.natAbs).length ≤ maxIntegerDigits
  | _ => true

def NodeConstraint.isPrintable (nc : NodeConstraint) : Bool :=
  [nc.length, nc.minLength, nc.maxLength, nc.minInclusive, nc.minExclusive, nc.maxInclusive,
    nc.maxExclusive].all Json.isPrintable

namespace Compile

open Relation

def Leaf.isPrintable : Leaf → Bool
  | .node nc => nc.isPrintable
  | _ => true

def importNotes (schema : Schema) : List Diagnostic :=
  if schema.imports.isEmpty then [] else [.importsIgnored schema.imports.length]

namespace Context

variable {context : Context}

theorem announced_diagnostics (context : Context) (p : Progress) :
    (context.announced p).diagnostics = p.diagnostics ++ importNotes context.schema := by
  unfold announced importNotes
  split
  · rw [List.append_nil]
  · rfl

/-- Without a usable start there is no group, and the last thing noted is an
error. The label of the start may be no text, as long as nothing is declared
with it. -/
theorem startGroup_none (unusable : ¬ context.schema.HasStart)
    (undeclared : ∀ codes, context.schema.declaresIllFormed codes = false) (p : Progress) :
    ∃ d, d.severity = .error ∧ context.startGroup p =
      .ok none ((context.announced p).noting d) := by
  rcases context.startShape_cases p with
    ⟨label, decl, start, declared, -⟩ | ⟨-, -, d, error, found⟩ | ⟨codes, -, declared, -⟩
  · exact absurd ⟨label, start, by rw [declared]; rfl⟩ unusable
  · refine ⟨d, error, ?_⟩
    simp only [startGroup, Bind.bind, EStateM.bind, found]
    rfl
  · rw [undeclared codes] at declared
    cases declared

/-- A declared start whose label is no text stops the walk, for its variable
cannot be named. -/
theorem startGroup_unencodable {codes : List Nat} (start : context.schema.start = .illFormed codes)
    (declared : context.schema.declaresIllFormed codes = true) (p : Progress) :
    context.startGroup p = .error (.unencodable codes) (context.announced p) := by
  have found : context.startShape p = .error (.unencodable codes) (context.announced p) := by
    rw [startShape_eq, findStart, start]
    simp only [Start.label?, refuseStart, start, declared]
    rfl
  simp only [startGroup, Bind.bind, EStateM.bind, found]

/-- A leaf that belongs to what references lead to from a shape, over any
number of references. -/
def InReach (context : Context) (label : String) (leaf : Leaf) : Prop :=
  ∃ target leaves, ReflTransGen context.Refers (.shape label) target ∧
    context.resolve target = some leaves ∧ leaf ∈ leaves

/-- Whether a leaf is left out of a query: it is external, has no meaning, or
refers to nothing. A point is no such leaf, though an absent operand is left
out too. -/
def isLeftOut (context : Context) : Leaf → Bool
  | .external | .unsupportedShape _ | .unsupportedTriple _ => true
  | .reference target => (context.resolve target).isNone
  | .predicate _ | .node _ | .point => false

/-- A leaf with a problem of its own is left out, or it is a point. -/
theorem isLeftOut_iff {leaf : Leaf} :
    context.isLeftOut leaf = true ∨ leaf = .point ↔ ∃ d, context.leafProblem? leaf = some d := by
  cases leaf with
  | reference target =>
    cases there : context.resolve target <;> simp [isLeftOut, leafProblem?, there]
  | _ => simp [isLeftOut, leafProblem?, Leaf.problem?]

/-- What a leaf alone gives rise to is a warning. -/
theorem leafProblem?_severity {leaf : Leaf} {d : Diagnostic}
    (own : context.leafProblem? leaf = some d) : d.severity = .warning := by
  cases leaf with
  | reference target =>
    simp only [leafProblem?] at own
    split at own
    · cases own
      cases target <;> rfl
    · cases own
  | _ => cases own <;> rfl

/-- What is noted on the way from a shape is never an error. Induction on the
way to what is noted. -/
theorem Notes.severity_ne_error {expanding : List Target} {target : Target} {d : Diagnostic}
    (notes : context.Notes expanding target d) : d.severity ≠ .error := by
  induction notes with
  | @missing expanding target absent => cases target <;> nofun
  | @cut expanding target leaves found mark => cases target <;> nofun
  | problem found new member own =>
    have warning := leafProblem?_severity (@leafProblem?_of_problem context _ _ own)
    rw [warning]
    decide
  | inside found new member inner ih => exact ih

/-- From a declared shape with nothing on the way, there is a warning exactly
if a leaf in reach is left out or is a point. -/
theorem warning_iff_leftOut {label : String}
    (declared : (context.schema.find? label).isSome = true) :
    (∃ d, context.Notes [] (.shape label) d ∧ d.severity = .warning) ↔
      ∃ leaf, context.InReach label leaf ∧ (context.isLeftOut leaf = true ∨ leaf = .point) := by
  have present : (context.resolve (.shape label)).isSome = true := by
    rwa [resolve, Option.isSome_map]
  have lasting : ∀ {d : Diagnostic}, d.severity = .warning → d.isRecursive = false := by
    rintro (_ | _) warning <;> first | rfl | cases warning
  constructor
  · rintro ⟨d, notes, warning⟩
    obtain ⟨target, leaves, leaf, path, resolved, member, own⟩ :=
      notes.path (lasting warning) present
    exact ⟨leaf, ⟨target, leaves, path, resolved, member⟩, isLeftOut_iff.mpr ⟨d, own⟩⟩
  · rintro ⟨leaf, ⟨target, leaves, path, resolved, member⟩, leftOut⟩
    obtain ⟨d, own⟩ := isLeftOut_iff.mp leftOut
    have warning := leafProblem?_severity own
    exact ⟨d, (context.notes_iff_reaches present (lasting warning)).mpr
      ⟨target, leaves, leaf, path, resolved, member, own⟩, warning⟩

/-- What a query and the problems kept beside it have to do with each other. -/
structure Accounted (context : Context) (query : Option String) (kept : List Diagnostic) :
    Prop where
  /-- There is no query exactly if the start is no label, or no shape is
  declared with it. -/
  none_iff_unusable : query = none ↔ ¬ context.schema.HasStart
  none_iff_error : query = none ↔ ∃ d ∈ kept, d.severity = .error
  /-- The error is the only one and comes last; before it only the imports are noted. -/
  error_last : query = none → ∃ d, d.severity = .error ∧ kept = importNotes context.schema ++ [d]
  /-- Beside a query there is a warning exactly if something is imported,
  something in reach of the start is left out, or an operand in reach is
  absent: a point where the syntax asks for an expression. -/
  warning_iff : query ≠ none → ((∃ d ∈ kept, d.severity = .warning) ↔
    context.schema.imports ≠ [] ∨
    ∃ label leaf, context.schema.start = .label label ∧ context.InReach label leaf ∧
      (context.isLeftOut leaf = true ∨ leaf = .point))

/-- Without a query the problems kept are those of the imports and the error
that stopped it. -/
theorem accounted_none (unusable : ¬ context.schema.HasStart) {d : Diagnostic}
    (error : d.severity = .error) : context.Accounted none (importNotes context.schema ++ [d]) where
  none_iff_unusable := ⟨fun _ => unusable, fun _ => rfl⟩
  none_iff_error := ⟨fun _ => ⟨d, by simp, error⟩, fun _ => rfl⟩
  error_last _ := ⟨d, error, rfl⟩
  warning_iff some := absurd rfl some

/-- With a query the problems kept are those of the imports and of what is in reach. -/
theorem accounted_some {label : String} (start : context.schema.start = .label label)
    (declared : (context.schema.find? label).isSome = true) (text : String) {kept : List Diagnostic}
    (each : ∀ d, d ∈ kept ↔ (context.schema.imports ≠ [] ∧
      d = .importsIgnored context.schema.imports.length) ∨ context.Notes [] (.shape label) d) :
    context.Accounted (some text) kept where
  none_iff_unusable := ⟨nofun, fun unusable => absurd ⟨label, start, declared⟩ unusable⟩
  none_iff_error := by
    refine ⟨nofun, ?_⟩
    rintro ⟨d, member, error⟩
    rcases (each d).mp member with ⟨-, rfl⟩ | notes
    · cases error
    · exact absurd error notes.severity_ne_error
  error_last := nofun
  warning_iff _ := by
    have reached : (∃ label leaf, context.schema.start = .label label ∧ context.InReach label leaf ∧
        (context.isLeftOut leaf = true ∨ leaf = .point)) ↔
        ∃ d, context.Notes [] (.shape label) d ∧ d.severity = .warning := by
      rw [warning_iff_leftOut declared]
      constructor
      · rintro ⟨other, leaf, again, rest⟩
        cases start.symm.trans again
        exact ⟨leaf, rest⟩
      · rintro ⟨leaf, rest⟩
        exact ⟨label, leaf, start, rest⟩
    rw [reached]
    constructor
    · rintro ⟨d, member, warning⟩
      rcases (each d).mp member with ⟨imported, -⟩ | notes
      · exact Or.inl imported
      · exact Or.inr ⟨d, notes, warning⟩
    · rintro (imported | ⟨d, notes, warning⟩)
      · exact ⟨_, (each _).mpr (Or.inl ⟨imported, rfl⟩), rfl⟩
      · exact ⟨d, (each d).mpr (Or.inr notes), warning⟩

end Context

/-- A builder takes its group from a walk that starts with its count of fresh
variables. -/
theorem Builder.group_of_startGroup {builder : Builder} {context : Context}
    (built : Context.ofSchema builder.schema = .ok context) {found : Option Group}
    {after : Progress} (success : context.startGroup { fresh := builder.fresh } = .ok found after) :
    builder.group = (.ok (found.map Group.postProcess),
      { builder with diagnostics := after.diagnostics, fresh := after.fresh }) := by
  unfold group
  simp only [built, EStateM.run, success]

theorem Builder.group_of_stopped {builder : Builder} {context : Context}
    (built : Context.ofSchema builder.schema = .ok context) {fault : Fault} {after : Progress}
    (stopped : context.startGroup { fresh := builder.fresh } = .error fault after) :
    builder.group = (.error fault,
      { builder with diagnostics := after.diagnostics, fresh := after.fresh }) := by
  unfold group
  simp only [built, EStateM.run, stopped]

section Build

variable {builder : Builder} {form : Json} {uri : Option String} {kind : Form} {context : Context}

/-- A build of a supported form that has a group, or has none. -/
theorem Builder.build_of_startGroup (supported : formOf? form = some kind)
    (built : Context.ofSchema builder.schema = .ok context) {found : Option Group}
    {after : Progress} (success : context.startGroup { fresh := builder.fresh } = .ok found after) :
    builder.build form uri = (.ok (found.map fun group =>
      kind.render (boundGroup kind builder.schema.start uri group.postProcess)),
      { builder with diagnostics := after.diagnostics, fresh := after.fresh }) := by
  rw [build_of_supported supported, buildForm_eq, group_of_startGroup built success]
  cases found <;> rfl

/-- A declared start whose label is no text is refused; only the imports are noted. -/
theorem Builder.build_unencodable (supported : formOf? form = some kind)
    (built : Context.ofSchema builder.schema = .ok context) {codes : List Nat}
    (start : builder.schema.start = .illFormed codes)
    (declared : builder.schema.declaresIllFormed codes = true) :
    builder.build form uri = (.error (.walk (.unencodable codes)),
      { builder with diagnostics := importNotes builder.schema }) := by
  have same := Context.ofSchema_schema built
  rw [← same] at start declared
  have stopped := Context.startGroup_unencodable start declared { fresh := builder.fresh }
  rw [build_of_supported supported, buildForm_eq, group_of_stopped built stopped,
    Context.announced_diagnostics, Context.announced_fresh, same]
  rfl

/-- On a well-typed schema a supported form gets an answer that agrees with the
problems kept. -/
theorem Builder.build_answers (supported : formOf? form = some kind)
    (typed : builder.schema.wellTyped = true) :
    ∃ context query after, Context.ofSchema builder.schema = .ok context ∧
      builder.build form uri = (.ok query, after) ∧ context.Accounted query after.diagnostics := by
  obtain ⟨context, built, same, typedContext⟩ := Context.ofSchema_ok typed
  by_cases usable : context.schema.HasStart
  · obtain ⟨label, start, declared⟩ := usable
    obtain ⟨decl, found⟩ := Option.isSome_iff_exists.mp declared
    obtain ⟨f, after, visited, visit⟩ :=
      context.shape_ok typedContext label none (context.announced { fresh := builder.fresh })
    obtain ⟨added, grown, each⟩ := visit.start_notes
    have success := Context.startGroup_of_shape start found visited
    refine ⟨context, _, _, built, build_of_startGroup supported built success, ?_⟩
    dsimp only
    rw [grown]
    exact Context.accounted_some start declared _ each
  · have undeclared : ∀ codes, context.schema.declaresIllFormed codes = false := by
      rw [same]
      exact Schema.declaresIllFormed_of_wellTyped typed
    obtain ⟨d, error, success⟩ :=
      Context.startGroup_none usable undeclared { fresh := builder.fresh }
    refine ⟨context, _, _, built, build_of_startGroup supported built success, ?_⟩
    have kept : ((context.announced { fresh := builder.fresh }).noting d).diagnostics =
        importNotes context.schema ++ [d] := by
      rw [Progress.noting, Context.announced_diagnostics]
      rfl
    dsimp only
    rw [kept]
    exact Context.accounted_none usable error

end Build

/-- A builder refuses an unsupported form and stays as it is. A supported form
is refused where a shape is declared with the label of the start and this label
is no text. A well-typed schema, whose labels are texts, gives an answer, with
or without a query, that agrees with the problems kept; the integers of the
schema have to be short enough to be written, and then those that references
lead to are. -/
theorem build_accounted (builder : Builder) (form : Json) (uri : Option String) :
    (formOf? form = none → builder.build form uri = (.error (.unsupportedForm form), builder)) ∧
    ∀ kind, formOf? form = some kind →
      (∀ context codes, Context.ofSchema builder.schema = .ok context →
        builder.schema.start = .illFormed codes → builder.schema.declaresIllFormed codes = true →
        builder.build form uri = (.error (.walk (.unencodable codes)),
          { builder with diagnostics := importNotes builder.schema })) ∧
      (builder.schema.wellTyped = true → builder.schema.leaves.all Leaf.isPrintable = true →
        ∃ context query after, Context.ofSchema builder.schema = .ok context ∧
          builder.build form uri = (.ok query, after) ∧
          context.Accounted query after.diagnostics ∧
          ∀ label leaf, context.InReach label leaf → leaf.isPrintable = true) := by
  refine ⟨fun unsupported => by rw [Builder.build, unsupported], fun kind supported => ⟨?_, ?_⟩⟩
  · intro context codes built start declared
    exact Builder.build_unencodable supported built start declared
  · intro typed printable
    obtain ⟨context, query, after, built, answered, accounted⟩ :=
      @Builder.build_answers _ _ uri _ supported typed
    refine ⟨context, query, after, built, answered, accounted, ?_⟩
    rintro label leaf ⟨target, leaves, -, resolved, member⟩
    exact List.all_eq_true.mp printable leaf
      (Context.mem_leaves_of_resolve built resolved leaf member)

/-- A schema whose start leads to itself, to a triple expression that is
nowhere, and to an external shape below an arc of another shape. -/
def frayedSchema : Schema where
  shapes := [
    ⟨.string "S", .and [.reference "S", .shape (some (.eachOf [.reference "nowhere",
      .constraint (.string "p") false (.reference "T") {} .null] {} .null)) false []], false⟩,
    ⟨.string "T", .and [.not .external, .node { length := .int 3 }], false⟩]
  start := .label "S"
  imports := [.string "http://a/other"]

/-- A schema whose only shape has half of a surrogate pair for a label, and is
its start. -/
def unpairedSchema : Schema where
  shapes := [⟨.illFormed [0xd800], .shape none false [], false⟩]
  start := .illFormed [0xd800]

/-- Both kinds of refusal and an answer, on schemas that have something to warn
about. -/
theorem build_accounted_frayed :
    frayedSchema.wellTyped = true ∧ frayedSchema.leaves.all Leaf.isPrintable = true ∧
    unpairedSchema.declaresIllFormed [0xd800] = true ∧
    formOf? (.string "delete") = none ∧ formOf? (.string "ask") = some .ask ∧
    Builder.build { schema := frayedSchema, fresh := 7 } (.string "delete") none =
      (.error (.unsupportedForm (.string "delete")), { schema := frayedSchema, fresh := 7 }) ∧
    Builder.build { schema := unpairedSchema } (.string "ask") none =
      (.error (.walk (.unencodable [0xd800])), { schema := unpairedSchema }) ∧
    ∃ context query after, Context.ofSchema frayedSchema = .ok context ∧
      Builder.build { schema := frayedSchema, fresh := 7 } (.string "ask") (some "http://a/n") =
        (.ok query, after) ∧
      context.Accounted query after.diagnostics ∧
      ∀ label leaf, context.InReach label leaf → leaf.isPrintable = true := by
  have typed : frayedSchema.wellTyped = true := by decide
  have printable : frayedSchema.leaves.all Leaf.isPrintable = true := by decide
  have declared : unpairedSchema.declaresIllFormed [0xd800] = true := by decide
  have unsupported : formOf? (.string "delete") = none := by decide +kernel
  have supported : formOf? (.string "ask") = some .ask := by decide +kernel
  refine ⟨typed, printable, declared, unsupported, supported, ?_, ?_, ?_⟩
  · exact (build_accounted { schema := frayedSchema, fresh := 7 } _ none).1 unsupported
  · exact ((build_accounted { schema := unpairedSchema } _ none).2 _ supported).1 _ _
      rfl rfl declared
  · exact ((build_accounted { schema := frayedSchema, fresh := 7 } _ (some "http://a/n")).2 _
      supported).2 typed printable

end Compile

end ShapeQuery
