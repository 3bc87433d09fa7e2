import ShapeQuery.Proofs.Compact.Termination
import ShapeQuery.Proofs.Resolution

/-!
Where the IRIs of a schema end. In a query an IRI stands between angle brackets, as it is: it ends
where it should if no closing bracket is in it. An IRI that is read between angle brackets has none,
also when it is resolved or put in front of a local name. A local name can have one, behind a
backslash, and this is the only way in which a closing bracket gets into an IRI.
-/
namespace ShapeQuery

def Exclusion.text : Exclusion → Json
  | .value text => text
  | .stem text => text

/-- The IRIs of an entry of a value set: an IRI, the datatype of a literal, or
the stem and the exclusions of IRIs. -/
def ValueSetEntry.iris : ValueSetEntry → List String
  | .iri found => [found]
  | .literal _ datatype _ => datatype.string?.toList
  | .stem .iri text => text.string?.toList
  | .range .iri (.text text) exclusions =>
    text.string?.toList ++ exclusions.flatMap (·.text.string?.toList)
  | .range .iri .wildcard exclusions => exclusions.flatMap (·.text.string?.toList)
  | _ => []

/-- The IRIs of a node constraint: its datatype, and those of its values. -/
def NodeConstraint.iris (nc : NodeConstraint) : List String :=
  nc.datatype.string?.toList ++ (nc.values.getD []).flatMap ValueSetEntry.iris

mutual

/-- The IRIs of a shape expression, references apart. A reference is looked up
by its label, which is not written into a query. -/
def ShapeExpr.iris : ShapeExpr → List String
  | .shape none _ extra => extra.flatMap (·.string?.toList)
  | .shape (some expression) _ extra => extra.flatMap (·.string?.toList) ++ expression.iris
  | .and operands | .or operands | .notEach operands => irisOfShapes operands
  | .not operand => operand.iris
  | .node nc => nc.iris
  | _ => []

/-- The IRIs of a triple expression, references and labels apart. -/
def TripleExpr.iris : TripleExpr → List String
  | .constraint predicate _ value _ _ => predicate.string?.toList ++ value.iris
  | .eachOf operands _ _ | .oneOf operands _ _ => irisOfTriples operands
  | _ => []

def irisOfShapes : List ShapeExpr → List String
  | [] => []
  | expr :: rest => expr.iris ++ irisOfShapes rest

def irisOfTriples : List TripleExpr → List String
  | [] => []
  | expr :: rest => expr.iris ++ irisOfTriples rest

end

def Start.iris : Start → List String
  | .expression expr => expr.iris
  | _ => []

/-- The predicates, datatypes and value set IRIs of a schema. -/
def Schema.iris (schema : Schema) : List String :=
  irisOfShapes (schema.shapes.map (·.expr)) ++ schema.start.iris

theorem irisOfShapes_eq (operands : List ShapeExpr) :
    irisOfShapes operands = operands.flatMap (·.iris) := by
  induction operands with
  | nil => rfl
  | cons expr rest ih => rw [irisOfShapes, ih, List.flatMap_cons]

theorem irisOfTriples_eq (operands : List TripleExpr) :
    irisOfTriples operands = operands.flatMap (·.iris) := by
  induction operands with
  | nil => rfl
  | cons expr rest ih => rw [irisOfTriples, ih, List.flatMap_cons]

namespace Compact

/-! ### Where a closing bracket comes from -/

/-- Between angle brackets, whatever follows, an IRI is read up to its end.
This is what a query needs of the IRIs that are written into it. -/
def Closes (iri : String) : Prop :=
  ∀ back, (iri.toList ++ '>' :: back).takeWhile (· != '>') = iri.toList

/-- An IRI ends where it should exactly if it has no closing bracket. -/
theorem closes_iff {iri : String} : Closes iri ↔ '>' ∉ iri.toList := by
  constructor
  · intro closes member
    have read := closes []
    have all := List.mem_takeWhile_imp (read.symm ▸ member)
    simp at all
  · intro without back
    rw [List.takeWhile_append_of_pos fun c member => ?_, List.takeWhile_cons_of_neg (by simp),
      List.append_nil]
    rw [bne_iff_ne]
    rintro rfl
    exact without member

/-- An IRI from a prefixed name of a text, in whose local name a closing
bracket is escaped. -/
def Escaped (text : List Char) (iri : String) : Prop :=
  ∃ front name written back space, text = front ++ name ++ ':' :: written ++ back ∧
    ['\\', '>'] <:+: written ∧ '>' ∉ space ∧ iri.toList = space ++ unescapeLocal written

/-- An IRI without a closing bracket, or one that has it from an escape. Every
IRI that is read from a text is of this kind. -/
def Sourced (text : List Char) (iri : String) : Prop :=
  '>' ∉ iri.toList ∨ Escaped text iri

/-- Taking away escapes takes away nothing but backslashes. -/
theorem mem_unescapeLocal {written : List Char} {c : Char} (other : c ≠ '\\') :
    c ∈ unescapeLocal written ↔ c ∈ written := by
  fun_induction unescapeLocal written with
  | case1 d rest ih => simp [ih, other]
  | case2 d rest plain ih => simp [ih]
  | case3 => rfl

/-- An escaped closing bracket ends the IRI too early. -/
theorem not_closes_of_escaped {text : List Char} {iri : String} (escaped : Escaped text iri) :
    ¬ Closes iri := by
  obtain ⟨front, name, written, back, space, -, inside, -, same⟩ := escaped
  rw [closes_iff, not_not, same]
  refine List.mem_append_right _ ((mem_unescapeLocal (by decide)).mpr ?_)
  exact inside.subset (by simp)

/-- The local name that is found is what the text starts with. -/
theorem localRun_starts (text : List Char) : localRun text <+: text := by
  fun_induction localRun text with
  | case1 rest => exact List.nil_prefix
  | case2 c rest other ih =>
    exact List.cons_prefix_cons.mpr ⟨rfl, List.cons_prefix_cons.mpr ⟨rfl, ih⟩⟩
  | case3 c rest plain inside ih => exact List.cons_prefix_cons.mpr ⟨rfl, ih⟩
  | case4 c rest plain outside => exact List.nil_prefix
  | case5 => exact List.nil_prefix

/-- A local name holds a closing bracket only behind a backslash. -/
theorem escape_of_mem_localRun {text written : List Char} (start : written <+: localRun text)
    (member : '>' ∈ written) : ['\\', '>'] <:+: written := by
  fun_induction localRun text generalizing written with
  | case1 rest =>
    rw [List.prefix_nil.mp start] at member
    cases member
  | case2 c rest other ih =>
    cases written with
    | nil => cases member
    | cons d more =>
      obtain ⟨rfl, behind⟩ := List.cons_prefix_cons.mp start
      cases more with
      | nil => simp at member
      | cons e more =>
        have further := (List.cons_prefix_cons.mp behind).2
        rcases List.mem_cons.mp member with ⟨⟨⟩⟩ | member
        rcases List.mem_cons.mp member with rfl | member
        · exact ⟨[], more, rfl⟩
        · exact (ih further member).trans (List.suffix_append ['\\', e] more).isInfix
  | case3 c rest plain inside ih =>
    cases written with
    | nil => cases member
    | cons d more =>
      obtain ⟨rfl, behind⟩ := List.cons_prefix_cons.mp start
      rcases List.mem_cons.mp member with rfl | member
      · cases inside
      · exact (ih behind member).trans (List.suffix_cons _ _).isInfix
  | case4 c rest plain outside =>
    rw [List.prefix_nil.mp start] at member
    cases member
  | case5 =>
    rw [List.prefix_nil.mp start] at member
    cases member

/-! ### Names in force -/

/-- Names whose namespaces and base have no closing bracket. -/
structure Names.Clear (names : Names) : Prop where
  namespaces : ∀ pair ∈ names.namespaces, '>' ∉ pair.2.toList
  base : ∀ base ∈ names.base, '>' ∉ base.toList

theorem toLower_ne_closing {c : Char} (other : c ≠ '>') : c.toLower ≠ '>' := by
  unfold Char.toLower
  split
  · next upper =>
    intro same
    have low : 65 ≤ c.val.toNat := upper.1
    have high : c.val.toNat ≤ 90 := upper.2
    have value : (c.val + 32).toNat = 62 := congrArg (fun d : Char => d.val.toNat) same
    rw [UInt32.toNat_add] at value
    change (c.val.toNat + 32) % 2 ^ 32 = 62 at value
    omega
  · exact other

/-- Resolving a reference brings in no closing bracket: no mark between the
parts of an IRI is one, and no letter becomes one in lower case. -/
theorem closing_lasting : Iri.Lasting (· ≠ '>') where
  lower := fun _ => toLower_ne_closing
  marks := by simp

/-- With a base that has no closing bracket, resolving an IRI without one gives
such an IRI. -/
theorem Names.Clear.resolve {names : Names} (clear : names.Clear) {iri resolved : String}
    (without : '>' ∉ iri.toList) (done : names.resolve iri = .ok resolved) :
    '>' ∉ resolved.toList := by
  unfold Names.resolve at done
  split at done
  · cases done
    exact without
  · next base there =>
    split at done
    · next result success =>
      cases done
      rw [String.toList_ofList]
      intro member
      refine Iri.resolve_keeps closing_lasting ?_ ?_ success _ member rfl
      · rintro c inside rfl
        exact clear.base base there inside
      · rintro c inside rfl
        exact without inside
    · cases done

/-- Declaring a namespace whose IRI has no closing bracket leaves the names clear. -/
theorem Names.Clear.declare {names : Names} (clear : names.Clear) (name : String) {iri : String}
    (without : '>' ∉ iri.toList) : (names.declare name iri).Clear :=
  ⟨List.forall_mem_cons.mpr ⟨without, clear.namespaces⟩, clear.base⟩

/-- A reader stays in a text, and whatever it returns has a property. -/
abbrev Gives {α : Type} (text : List Char) (good : α → Prop) (scan : Scan α) : Prop :=
  Yields (·.text = text) good scan

theorem Steady.gives {α : Type} {sure : α → Bool} {scan : Scan α} (steady : Steady sure scan)
    (text : List Char) : Gives text (fun _ => True) scan := by
  intro c here
  refine ⟨rfl, fun result c' read => ?_⟩
  have advances := steady c
  rw [read] at advances
  exact ⟨advances.1.trans here, trivial⟩

/-- What a reader returns can be told apart from where it gets to. -/
theorem Steady.gives_of_ok {α : Type} {sure : α → Bool} {scan : Scan α} (steady : Steady sure scan)
    {text : List Char} {good : α → Prop}
    (holds : ∀ c result c', c.text = text → scan c = .ok (result, c') → good result) :
    Gives text good scan :=
  fun c here => ⟨rfl, fun result c' read =>
    ⟨((steady.gives text).of_ok here read).1, holds c result c' here read⟩⟩

namespace Scan

/-! ### Names and literals -/

/-- An IRI between angle brackets ends at the first closing one, so it has none. -/
theorem iriRef_gives (text : List Char) : Gives text (fun iri => '>' ∉ iri.toList) iriRef := by
  refine iriRef_steady.gives_of_ok fun c result c' here read => ?_
  rw [iriRef_eq] at read
  split at read
  · split at read
    · cases read
    · cases read
      rw [String.toList_ofList]
      intro member
      have kept := List.mem_takeWhile_imp (List.mem_of_mem_drop member)
      simp at kept
  · cases read

theorem resolvedIriRef_gives (text : List Char) {names : Names} (clear : names.Clear) :
    Gives text (fun iri => '>' ∉ iri.toList) (resolvedIriRef names) :=
  .bind (iriRef_gives text) fun _ without => .lift fun _ done => clear.resolve without done

theorem namespaceName?_eq {text name : List Char} (found : namespaceName? text = some name) :
    ∃ back, text = name ++ ':' :: back := by
  cases text with
  | nil => cases found
  | cons first rest =>
    simp only [namespaceName?] at found
    have start : (if first.isAlpha then first :: rest.takeWhile isNameChar else []) <+:
        first :: rest := by
      split
      · exact List.cons_prefix_cons.mpr ⟨rfl, List.takeWhile_prefix _⟩
      · exact List.nil_prefix
    generalize (if first.isAlpha then first :: rest.takeWhile isNameChar else []) =
      front at start found
    obtain ⟨behind, whole⟩ := start
    rw [← whole, List.drop_left] at found
    rw [← whole]
    split at found
    · next colon =>
      cases found
      obtain ⟨back, rfl⟩ := List.head?_eq_some_iff.mp colon
      exact ⟨back, rfl⟩
    · cases found

theorem dropFinalPoints_starts (written : List Char) : dropFinalPoints written <+: written := by
  have shorter : written.reverse.dropWhile (· == '.') <:+ written.reverse := List.dropWhile_suffix _
  have front := shorter.reverse
  rwa [List.reverse_reverse] at front

/-- A prefixed name of a text: its parts, and that a closing bracket in the
local name is escaped. -/
def Named (text : List Char) (found : String × String) : Prop :=
  ∃ front written back, text = front ++ found.1.toList ++ ':' :: written ++ back ∧
    found.2.toList = unescapeLocal written ∧ ('>' ∈ written → ['\\', '>'] <:+: written)

/-- A prefixed name has a closing bracket only in its local name, behind a
backslash. -/
theorem prefixedName_gives (text : List Char) : Gives text (Named text) prefixedName := by
  refine prefixedName_steady.gives_of_ok fun c result c' here read => ?_
  rw [prefixedName_eq] at read
  cases found : prefixedName? c.skip.rest with
  | none =>
    rw [found] at read
    cases read
  | some parts =>
    rw [found] at read
    cases read
    obtain ⟨name, named, rfl⟩ := Option.map_eq_some_iff.mp found
    obtain ⟨behind, seen⟩ := namespaceName?_eq named
    have start := dropFinalPoints_starts (localRun behind)
    obtain ⟨back, more⟩ := start.trans (localRun_starts behind)
    have whole : text = text.take c.skip.pos ++ c.skip.rest := by
      rw [c.skip.rest_eq, show c.skip.text = text from here, List.take_append_drop]
    have same : c.skip.rest.drop (name.length + 1) = behind := by
      rw [seen]
      simp
    refine ⟨text.take c.skip.pos, dropFinalPoints (localRun behind), back, ?_, ?_,
      escape_of_mem_localRun start⟩
    · rw [String.toList_ofList]
      calc text = text.take c.skip.pos ++ (name ++ ':' :: behind) := by rw [← seen]; exact whole
        _ = text.take c.skip.pos ++ (name ++ ':' ::
          (dropFinalPoints (localRun behind) ++ back)) := by
          rw [more]
        _ = _ := by simp
    · rw [String.toList_ofList, same]

/-- An IRI in either form is sourced: one between brackets has no closing
bracket, and one from a prefixed name has it from an escape if at all. -/
theorem iri_gives (text : List Char) {names : Names} (clear : names.Clear) :
    Gives text (Sourced text) (iri names) := by
  refine .after (peek_steady.gives text) fun next => .ite (fun _ => ?_) fun _ => ?_
  · exact (resolvedIriRef_gives text clear).mono fun iri without => .inl without
  · refine .bind (prefixedName_gives text) fun (name, localPart) named => ?_
    dsimp only
    cases found : names.namespaces.lookup name with
    | none => exact .fail _
    | some space =>
      refine .pure ?_
      obtain ⟨front, written, back, split, same, escape⟩ := named
      have without : '>' ∉ space.toList := by
        obtain ⟨before, after, listed, -⟩ := List.lookup_eq_some_iff.mp found
        exact clear.namespaces (name, space) (by rw [listed]; simp)
      by_cases closing : '>' ∈ written
      · refine .inr ⟨front, name.toList, written, back, space.toList, split,
          escape closing, without, ?_⟩
        rw [String.toList_append, same]
      · refine .inl ?_
        rw [String.toList_append, List.mem_append, same, mem_unescapeLocal (by decide)]
        exact not_or.mpr ⟨without, closing⟩

/-- A predicate is an IRI, or the word that stands for one without a closing bracket. -/
theorem predicate_gives (text : List Char) {names : Names} (clear : names.Clear) :
    Gives text (Sourced text) (predicate names) := by
  refine .after (rest_steady.gives text) fun seen => .ite (fun _ => ?_) fun _ =>
    iri_gives text clear
  exact .after ((advance_steady 1).gives text) fun _ => .pure (.inl (by decide))

def AllSourced (text : List Char) (iris : List String) : Prop :=
  ∀ iri ∈ iris, Sourced text iri

theorem allSourced_string {text : List Char} {iri : String} (sourced : Sourced text iri) :
    AllSourced text (Json.string iri).string?.toList :=
  List.forall_mem_singleton.mpr sourced

theorem AllSourced.append {text : List Char} {front back : List String}
    (first : AllSourced text front) (second : AllSourced text back) :
    AllSourced text (front ++ back) :=
  List.forall_mem_append.mpr ⟨first, second⟩

def SourcedLiteral (text : List Char) (literal : Literal) : Prop :=
  ∀ datatype ∈ literal.datatype, Sourced text datatype

theorem sourcedLiteral_of_some {text : List Char} {value datatype : String}
    (sourced : Sourced text datatype) :
    SourcedLiteral text { value, datatype := some datatype } := by
  rintro _ ⟨⟩
  exact sourced

theorem stringLiteral_gives (text : List Char) {names : Names} (clear : names.Clear) :
    Gives text (SourcedLiteral text) (stringLiteral names) := by
  refine .after (string_steady.gives text) fun value => .after (get_steady.gives text) fun c => ?_
  refine .ite (fun _ => ?_) fun _ => .ite (fun _ => ?_) fun _ => ?_
  · refine .after ((advance_steady 2).gives text) fun _ => ?_
    exact .bind (iri_gives text clear) fun found sourced => .pure (sourcedLiteral_of_some sourced)
  · refine .after ((advance_steady 1).gives text) fun _ => ?_
    exact .after (tryLanguageTag_steady.gives text) fun tag => .pure (by rintro _ ⟨⟩)
  · exact .pure (by rintro _ ⟨⟩)

/-- The datatypes of numerals are fixed, and none of them has a closing bracket. -/
theorem datatype_sourced (text : List Char) (form : NumeralForm) :
    Sourced text (NumeralForm.datatype form) := by
  cases form <;> exact .inl (by decide)

theorem literal_gives (text : List Char) {names : Names} (clear : names.Clear) :
    Gives text (SourcedLiteral text) (literal names) := by
  have truth : Sourced text xsdBoolean := .inl (by decide)
  refine .after (peek_steady.gives text) fun next => ?_
  refine .ite (fun _ => stringLiteral_gives text clear) fun _ => ?_
  refine .after ((tryKeyword_onward _).gives text) fun yes => .ite (fun _ => ?_) fun _ => ?_
  · exact .pure (sourcedLiteral_of_some truth)
  refine .after ((tryKeyword_onward _).gives text) fun no => .ite (fun _ => ?_) fun _ => ?_
  · exact .pure (sourcedLiteral_of_some truth)
  refine .after (tryNumeral_steady.gives text) fun found => ?_
  cases found with
  | some found => exact .pure (sourcedLiteral_of_some (datatype_sourced text found.form))
  | none => exact .fail _

/-! ### Value sets -/

theorem stemValue_gives (text : List Char) {names : Names} (clear : names.Clear) (kind : StemKind) :
    Gives text (fun value => kind = .iri → Sourced text value) (stemValue names kind) := by
  cases kind with
  | iri => exact (iri_gives text clear).mono fun iri sourced _ => sourced
  | literal =>
    refine .after (literal_gives text clear) fun found => .pure ?_
    rintro ⟨⟩
  | language =>
    refine (languageTag_steady.gives text).mono fun tag _ => ?_
    rintro ⟨⟩

/-- What a range of IRIs leaves out is an IRI. Exclusions of the other kinds
are texts. -/
theorem exclusion_gives (text : List Char) {names : Names} (clear : names.Clear) (kind : StemKind) :
    Gives text (fun left => kind = .iri → AllSourced text left.text.string?.toList)
      (exclusion names kind) := by
  refine .bind (stemValue_gives text clear kind) fun value sourced => ?_
  refine .after ((tryText_onward _).gives text) fun tilde => .ite (fun _ => ?_) fun _ => ?_
  · exact .pure fun same => allSourced_string (sourced same)
  · exact .pure fun same => allSourced_string (sourced same)

theorem exclusions_gives (text : List Char) {names : Names} (clear : names.Clear) (kind : StemKind)
    (bound : Nat) :
    Gives text (fun left => kind = .iri → AllSourced text (left.flatMap (·.text.string?.toList)))
      (exclusions names kind bound) := by
  rw [exclusions_eq]
  refine (operandsAfter_yields ((tryText_onward _).gives text)
    (exclusion_gives text clear kind) bound).mono
    fun left each same => ?_
  exact List.forall_mem_flatMap.mpr fun left member => each left member same

/-- An entry with a tilde has the IRI before the tilde and those that are left
out; without one it is the plain entry. -/
theorem stemOr_gives (text : List Char) {names : Names} (clear : names.Clear) (bound : Nat)
    {kind : StemKind} {value : String} (sourced : kind = .iri → Sourced text value)
    {plain : ValueSetEntry} (given : AllSourced text plain.iris) :
    Gives text (fun entry => AllSourced text entry.iris) (stemOr names bound kind value plain) := by
  refine .after ((tryText_onward _).gives text) fun tilde => .ite (fun _ => ?_) fun _ => .pure given
  refine .bind (exclusions_gives text clear kind bound) fun left each =>
    .ite (fun _ => ?_) fun _ => ?_
  · refine .pure ?_
    cases kind with
    | iri => exact allSourced_string (sourced rfl)
    | _ => exact List.forall_mem_nil _
  · refine .pure ?_
    cases kind with
    | iri => exact (allSourced_string (sourced rfl)).append (each rfl)
    | _ => exact List.forall_mem_nil _

theorem SourcedLiteral.entry {text : List Char} {literal : Literal}
    (sourced : SourcedLiteral text literal) : AllSourced text literal.entry.iris := by
  unfold Literal.entry ValueSetEntry.iris
  cases found : literal.datatype with
  | none => exact List.forall_mem_nil _
  | some datatype => exact allSourced_string (sourced datatype found)

/-- Every entry of a value set has sourced IRIs only. One case for each of the
forms that an entry can have. -/
theorem entry_gives (text : List Char) {names : Names} (clear : names.Clear) (bound : Nat) :
    Gives text (fun entry => AllSourced text entry.iris) (entry names bound) := by
  refine .after (peek_steady.gives text) fun next => ?_
  refine .ite (fun _ => ?_) fun _ => .ite (fun _ => ?_) fun _ => ?_
  · refine .after ((advance_steady 1).gives text) fun _ =>
      .after (rest_steady.gives text) fun seen => ?_
    refine .bind (exclusions_gives text clear _ bound) fun left each => .pure ?_
    cases kind : wildcardKind seen with
    | iri => exact each kind
    | _ => exact List.forall_mem_nil _
  · refine .after (languageTag_steady.gives text) fun tag => ?_
    exact stemOr_gives text clear bound (by rintro ⟨⟩) (List.forall_mem_nil _)
  · refine .after (atLiteral_steady.gives text) fun found => .ite (fun _ => ?_) fun _ => ?_
    · refine .bind (literal_gives text clear) fun found sourced => ?_
      exact stemOr_gives text clear bound (by rintro ⟨⟩) sourced.entry
    · refine .bind (iri_gives text clear) fun found sourced => ?_
      exact stemOr_gives text clear bound (fun _ => sourced) (List.forall_mem_singleton.mpr sourced)

theorem entries_gives (text : List Char) {names : Names} (clear : names.Clear) (bound : Nat) :
    Gives text (fun entries => AllSourced text (entries.flatMap ValueSetEntry.iris))
      (entries names bound) := by
  refine Yields.loop (entriesLoop names) (fun _ => True)
    (fun _ entries => AllSourced text (entries.flatMap ValueSetEntry.iris))
      (fun bound _ rest _ _ => ?_)
    bound () trivial
  refine .after ((tryText_onward _).gives text) fun closed => .ite (fun _ => ?_) fun _ => ?_
  · exact .pure (List.forall_mem_nil _)
  refine .after (atEnd_steady.gives text) fun ended => .ite (fun _ => .fail _) fun _ => ?_
  refine .bind (entry_gives text clear bound) fun first here => ?_
  refine .bind (rest () trivial) fun others all => .pure ?_
  rw [List.flatMap_cons]
  exact here.append all

/-! ### Node constraints -/

theorem facetValue_gives (text : List Char) (nc : NodeConstraint) (facet : Facet) :
    Gives text (fun filled => filled.iris = nc.iris) (facetValue nc facet) := by
  cases facet with
  | length | minLength | maxLength => exact .after (count_steady.gives text) fun n => .pure rfl
  | pattern => exact .after (string_steady.gives text) fun pattern => .pure rfl
  | _ => exact .after (number_steady.gives text) fun n => .pure rfl

theorem facet?_gives (text : List Char) (nc : NodeConstraint) :
    Gives text (fun found => ∀ filled ∈ found, filled.iris = nc.iris) (facet? nc) := by
  refine .after ((tryKeywords_steady facetKeywords_nonempty).gives text) fun found => ?_
  cases found with
  | some facet =>
    refine .bind (facetValue_gives text nc facet) fun filled same => .pure ?_
    rintro _ ⟨⟩
    exact same
  | none =>
    refine .after (peek_steady.gives text) fun next => .ite (fun _ => ?_) fun _ =>
      .pure (by rintro _ ⟨⟩)
    refine .after (regexp_steady.gives text) fun (pattern, flags) => .pure ?_
    rintro _ ⟨⟩
    rfl

theorem facets_gives (text : List Char) (bound : Nat) (nc : NodeConstraint) (found : Bool) :
    Gives text (fun result => result.1.iris = nc.iris) (facets nc found bound) := by
  refine Yields.loop facetsLoop (fun _ => True) (fun state result => result.1.iris = state.1.iris)
    (fun bound _ rest state _ => ?_) bound (nc, found) trivial
  refine .bind (facet?_gives text state.1) fun read same => ?_
  cases read with
  | some filled =>
    exact (rest (filled, true) trivial).mono fun result kept => kept.trans (same filled rfl)
  | none => exact .pure rfl

/-- The IRIs of a constraint are those of its value set, or its datatype. -/
theorem constraintHead_gives (text : List Char) {names : Names} (clear : names.Clear)
    (bound : Nat) :
    Gives text (fun result => AllSourced text result.1.iris) (constraintHead names bound) := by
  refine .after ((tryKeywords_steady nodeKindKeywords_nonempty).gives text) fun found => ?_
  cases found with
  | some kind => exact .pure (List.forall_mem_nil _)
  | none =>
    refine .after (peek_steady.gives text) fun next => .ite (fun _ => ?_) fun _ => ?_
    · refine .bind (.after ((expect_onward _).gives text) fun _ => entries_gives text clear bound)
        fun values all => .pure all
    · refine .after (atIri_steady.gives text) fun named => .ite (fun _ => ?_) fun _ => ?_
      · refine .bind (iri_gives text clear) fun found sourced => .pure ?_
        exact (allSourced_string sourced).append (List.forall_mem_nil _)
      · exact .pure (List.forall_mem_nil _)

theorem nodeConstraint?_gives (text : List Char) {names : Names} (clear : names.Clear)
    (bound : Nat) :
    Gives text (fun found => ∀ nc ∈ found, AllSourced text nc.iris)
      (nodeConstraint? names bound) := by
  refine .bind (constraintHead_gives text clear bound) fun (head, started) sourced => ?_
  refine .bind (facets_gives text bound head started) fun (nc, found) same => .pure ?_
  cases found with
  | true =>
    rintro _ ⟨⟩
    rw [show nc.iris = head.iris from same]
    exact sourced
  | false => rintro _ ⟨⟩

/-! ### Expressions -/

theorem extraPredicates_gives (text : List Char) {names : Names} (clear : names.Clear)
    (bound : Nat) :
    Gives text (fun extra => AllSourced text (extra.flatMap (·.string?.toList)))
      (extraPredicates names bound) := by
  refine Yields.loop (extraLoop names) (fun _ => True)
    (fun _ extra => AllSourced text (extra.flatMap (·.string?.toList))) (fun bound _ rest _ _ => ?_)
    bound () trivial
  refine .after (atExtraPredicate_steady.gives text) fun found => .ite (fun _ => ?_) fun _ => ?_
  · refine .bind (predicate_gives text clear) fun first here => ?_
    refine .bind (rest () trivial) fun others all => .pure ?_
    rw [List.flatMap_cons]
    exact (allSourced_string here).append all
  · exact .pure (List.forall_mem_nil _)

/-- The extra predicates of a shape, in as many lists as there are. -/
theorem shapeHead_gives (text : List Char) {names : Names} (clear : names.Clear) (bound : Nat) :
    Gives text (fun head => AllSourced text (head.1.flatMap (·.string?.toList)))
      (shapeHead names bound) := by
  refine Yields.loop (headLoop names) (fun _ => True)
    (fun _ head => AllSourced text (head.1.flatMap (·.string?.toList))) (fun bound _ rest _ _ => ?_)
    bound () trivial
  refine .after ((tryKeyword_onward _).gives text) fun extra => .ite (fun _ => ?_) fun _ => ?_
  · refine .bind (extraPredicates_gives text clear bound) fun first here => ?_
    refine .bind (rest () trivial) fun (others, closed) all => .pure ?_
    rw [List.flatMap_append]
    exact here.append all
  · refine .after ((tryKeyword_onward _).gives text) fun closed => .ite (fun _ => ?_) fun _ => ?_
    · exact .bind (rest () trivial) fun (extra, _) all => .pure all
    · exact .pure (List.forall_mem_nil _)

/-- Readers of nested expressions, all of whose IRIs are sourced. The readers
of the grammar are followed for any such readers of what is nested. -/
structure Nested.Sourced (text : List Char) (nested : Nested) : Prop where
  shapeExpr : Gives text (fun expr => AllSourced text expr.iris) nested.shapeExpr
  tripleExpr : Gives text (fun expr => AllSourced text expr.iris) nested.tripleExpr

theorem allSourced_pair {text : List Char} {left right : ShapeExpr}
    (first : AllSourced text left.iris) (second : AllSourced text right.iris) :
    AllSourced text (ShapeExpr.and [left, right]).iris := by
  rw [ShapeExpr.iris, irisOfShapes, irisOfShapes, irisOfShapes, List.append_nil]
  exact first.append second

/-- Operands that are combined have the IRIs that they have alone. -/
theorem allSourced_combine {α : Type} {text : List Char} (iris : α → List String)
    {combined : List α → α} (joined : ∀ operands, iris (combined operands) = operands.flatMap iris)
    {first : α} {others : List α} (here : AllSourced text (iris first))
    (all : ∀ expr ∈ others, AllSourced text (iris expr)) :
    AllSourced text (iris (combine combined first others)) := by
  unfold combine
  split
  · exact here
  · rw [joined, List.flatMap_cons]
    exact here.append (List.forall_mem_flatMap.mpr all)

/-- Brackets keep the IRIs of what stands between them. -/
theorem iris_bracketed (id : Json) (bounds : Option Bounds) (expr : TripleExpr) :
    (bracketed id bounds expr).iris = expr.iris := by
  have grouped : (if needsGroup id expr then .eachOf [expr] {} .null else expr : TripleExpr).iris
      = expr.iris := by
    split
    · simp [TripleExpr.iris, irisOfTriples]
    · rfl
  have counted : ∀ (bounds : Bounds) (expr : TripleExpr), (setBounds bounds expr).iris =
      expr.iris := by
    intro bounds expr
    cases expr <;> simp [setBounds, TripleExpr.iris]
  have named : ∀ expr : TripleExpr, (setLabel id expr).iris = expr.iris := by
    intro expr
    cases expr <;> simp [setLabel, TripleExpr.iris]
  unfold bracketed
  dsimp only
  cases bounds with
  | none =>
    split
    · exact (named _).trans grouped
    · exact grouped
  | some bounds =>
    split
    · exact (named _).trans ((counted _ _).trans grouped)
    · exact (counted _ _).trans grouped

section

variable {text : List Char} {names : Names} {nested : Nested}

theorem shapeDefinitionWith_gives (clear : names.Clear) (sourced : nested.Sourced text) :
    Gives text (fun expr => AllSourced text expr.iris) (shapeDefinitionWith names nested) := by
  refine .bind (shapeHead_gives text clear _) fun (extra, closed) here => ?_
  refine .after ((expect_onward _).gives text) fun _ => ?_
  refine .after ((tryText_onward _).gives text) fun ended => .ite (fun _ => ?_) fun _ => ?_
  · refine .pure ?_
    rw [ShapeExpr.iris]
    exact here
  · refine .bind sourced.tripleExpr fun expression inside => ?_
    refine .after ((expect_onward _).gives text) fun _ => .pure ?_
    rw [ShapeExpr.iris]
    exact AllSourced.append here inside

theorem shapeOrRef_gives (clear : names.Clear) (sourced : nested.Sourced text) :
    Gives text (fun expr => AllSourced text expr.iris) (shapeOrRef names nested) := by
  refine .after ((tryText_onward _).gives text) fun reference => .ite (fun _ => ?_) fun _ => ?_
  · exact .after ((label_steady names).gives text) fun found => .pure (List.forall_mem_nil _)
  · exact shapeDefinitionWith_gives clear sourced

/-- An operand has the IRIs of a shape and of a node constraint, if both stand
side by side. -/
theorem shapeAtom_gives (clear : names.Clear) (sourced : nested.Sourced text) :
    Gives text (fun expr => AllSourced text expr.iris) (shapeAtom names nested) := by
  have constraint := nodeConstraint?_gives text clear nested.bound
  refine .after (peek_steady.gives text) fun next => ?_
  refine .ite (fun _ => ?_) fun _ => .ite (fun _ => ?_) fun _ => ?_
  · refine .after ((advance_steady 1).gives text) fun _ =>
      .bind sourced.shapeExpr fun expr inside => ?_
    exact .after ((expect_onward _).gives text) fun _ => .pure inside
  · exact .after ((advance_steady 1).gives text) fun _ => .pure (List.forall_mem_nil _)
  · refine .after (atShapeOrRef_steady.gives text) fun braces => .ite (fun _ => ?_) fun _ => ?_
    · refine .bind (shapeOrRef_gives clear sourced) fun shape inside => ?_
      refine .after (atNonLiteralKind_steady.gives text) fun kind =>
        .ite (fun _ => ?_) fun _ => .pure inside
      refine .bind constraint fun found all => ?_
      cases found with
      | none => exact .pure (allSourced_pair inside (List.forall_mem_nil _))
      | some nc => exact .pure (allSourced_pair inside (all nc rfl))
    · refine .bind constraint fun found all => ?_
      cases found with
      | none => exact .fail _
      | some nc =>
        have alone := all nc rfl
        refine .ite (fun _ => ?_) fun _ => .pure alone
        refine .after (atShapeOrRef_steady.gives text) fun braces =>
          .ite (fun _ => ?_) fun _ => .pure alone
        refine .bind (shapeOrRef_gives clear sourced) fun shape inside => .pure ?_
        exact allSourced_pair alone inside

theorem shapeNot_gives (clear : names.Clear) (sourced : nested.Sourced text) :
    Gives text (fun expr => AllSourced text expr.iris) (shapeNot names nested) := by
  have atom := shapeAtom_gives clear sourced
  refine .after ((tryKeyword_onward _).gives text) fun negated => .ite (fun _ => ?_) fun _ => atom
  refine .bind atom fun expr inside => .pure ?_
  rw [ShapeExpr.iris]
  exact inside

theorem shapeAnd_gives (clear : names.Clear) (sourced : nested.Sourced text) :
    Gives text (fun expr => AllSourced text expr.iris) (shapeAnd names nested) := by
  have operand := shapeNot_gives clear sourced
  refine .bind operand fun first here => ?_
  refine .bind (operandsAfter_yields ((tryKeyword_onward _).gives text) operand _) fun others all =>
    .pure ?_
  refine allSourced_combine ShapeExpr.iris (fun operands => ?_) here all
  rw [ShapeExpr.iris, irisOfShapes_eq]

theorem shapeExprWith_gives (clear : names.Clear) (sourced : nested.Sourced text) :
    Gives text (fun expr => AllSourced text expr.iris) (shapeExprWith names nested) := by
  have operand := shapeAnd_gives clear sourced
  refine .bind operand fun first here => ?_
  refine .bind (operandsAfter_yields ((tryKeyword_onward _).gives text) operand _) fun others all =>
    .pure ?_
  refine allSourced_combine ShapeExpr.iris (fun operands => ?_) here all
  rw [ShapeExpr.iris, irisOfShapes_eq]

theorem constraintValue_gives (sourced : nested.Sourced text) :
    Gives text (fun expr => AllSourced text expr.iris) (constraintValue nested) := by
  refine .after (peek_steady.gives text) fun next => .ite (fun _ => ?_) fun _ => ?_
  · exact .after ((advance_steady 1).gives text) fun _ => .pure (List.forall_mem_nil _)
  · refine .ite (fun _ => .pure (List.forall_mem_nil _)) fun _ => ?_
    refine .after (rest_steady.gives text) fun seen => ?_
    exact .ite (fun _ => .pure (List.forall_mem_nil _)) fun _ => sourced.shapeExpr

/-- A triple constraint has the IRI of its predicate and those of its value. -/
theorem tripleConstraintWith_gives (clear : names.Clear) (sourced : nested.Sourced text)
    (id : Json) :
    Gives text (fun expr => AllSourced text expr.iris) (tripleConstraintWith names nested id) := by
  refine .after ((tryText_onward _).gives text) fun inverse => ?_
  refine .bind (predicate_gives text clear) fun predicate here => ?_
  refine .bind (constraintValue_gives sourced) fun value inside => ?_
  refine .after (cardinality?_steady.gives text) fun bounds => .pure ?_
  rw [TripleExpr.iris]
  exact (allSourced_string here).append inside

/-- An item is a reference, which has no IRIs, or brackets, or a constraint. -/
theorem tripleItem_gives (clear : names.Clear) (sourced : nested.Sourced text) :
    Gives text (fun expr => AllSourced text expr.iris) (tripleItem names nested) := by
  refine .after ((tryText_onward _).gives text) fun reference => .ite (fun _ => ?_) fun _ => ?_
  · exact .after ((label_steady names).gives text) fun found => .pure (List.forall_mem_nil _)
  · refine .after ((tripleLabel?_steady names).gives text) fun id => ?_
    refine .after ((tryText_onward _).gives text) fun brackets => .ite (fun _ => ?_) fun _ => ?_
    · refine .bind sourced.tripleExpr fun expr inside =>
        .after ((expect_onward _).gives text) fun _ => ?_
      refine .after (cardinality?_steady.gives text) fun bounds => .pure ?_
      rw [iris_bracketed]
      exact inside
    · exact tripleConstraintWith_gives clear sourced id

theorem tripleGroup_gives (clear : names.Clear) (sourced : nested.Sourced text) :
    Gives text (fun expr => AllSourced text expr.iris) (tripleGroup names nested) := by
  have operand := tripleItem_gives clear sourced
  refine .bind operand fun first here => ?_
  refine .bind (operandsAfter_yields (itemSeparator_steady.gives text) operand _) fun others all =>
    .pure ?_
  refine allSourced_combine TripleExpr.iris (fun operands => ?_) here all
  rw [TripleExpr.iris, irisOfTriples_eq]

theorem tripleExprWith_gives (clear : names.Clear) (sourced : nested.Sourced text) :
    Gives text (fun expr => AllSourced text expr.iris) (tripleExprWith names nested) := by
  have operand := tripleGroup_gives clear sourced
  refine .bind operand fun first here => ?_
  refine .bind (operandsAfter_yields ((tryText_onward _).gives text) operand _) fun others all =>
    .pure ?_
  refine allSourced_combine TripleExpr.iris (fun operands => ?_) here all
  rw [TripleExpr.iris, irisOfTriples_eq]

end

/-- Induction on the bound, for both kinds of expressions at once. -/
theorem nested_sourced (text : List Char) {names : Names} (clear : names.Clear) (bound : Nat) :
    (nested names bound).Sourced text := by
  induction bound with
  | zero => exact ⟨.throw _, .throw _⟩
  | succ bound ih => exact ⟨shapeExprWith_gives clear ih, tripleExprWith_gives clear ih⟩

theorem shapeExpr_gives (text : List Char) {names : Names} (clear : names.Clear) (bound : Nat) :
    Gives text (fun expr => AllSourced text expr.iris) (shapeExpr names bound) :=
  (nested_sourced text clear bound).shapeExpr

theorem shapeDecl_gives (text : List Char) {names : Names} (clear : names.Clear) (bound : Nat)
    (abstract : Bool) :
    Gives text (fun decl => AllSourced text decl.expr.iris) (shapeDecl names bound abstract) := by
  refine .after ((label_steady names).gives text) fun id => ?_
  refine .after ((tryKeyword_onward _).gives text) fun outside => .ite (fun _ => ?_) fun _ => ?_
  · exact .pure (List.forall_mem_nil _)
  · refine .bind (shapeExpr_gives text clear bound) fun expr inside => ?_
    cases expr with
    | any => exact .pure (List.forall_mem_nil _)
    | _ => exact .pure inside

end Scan

/-! ### Schemas -/

open Scan

/-- Progress in which every IRI read is sourced, and the names in force are clear. -/
structure Progress.Sourced (text : List Char) (progress : Progress) : Prop where
  names : progress.names.Clear
  schema : AllSourced text progress.schema.iris

theorem Progress.sourced_empty (text : List Char) : Progress.Sourced text {} :=
  ⟨⟨by rintro _ ⟨⟩, by rintro _ ⟨⟩⟩, by rintro _ ⟨⟩⟩

theorem iris_ofExpr (expr : ShapeExpr) : (Start.ofExpr expr).iris = expr.iris := by
  cases expr with
  | reference | any => simp [Start.ofExpr, Start.iris, ShapeExpr.iris]
  | _ => rfl

theorem Progress.Sourced.addShape {text : List Char} {progress : Progress}
    (sourced : progress.Sourced text) {decl : ShapeDecl} (inside : AllSourced text decl.expr.iris) :
    (progress.addShape decl).Sourced text := by
  have before := sourced.schema
  rw [Schema.iris, irisOfShapes_eq] at before
  refine ⟨sourced.names, ?_⟩
  unfold Progress.addShape Schema.iris
  rw [irisOfShapes_eq, List.map_append, List.flatMap_append]
  have one : AllSourced text (([decl].map (·.expr)).flatMap (·.iris)) := by simpa using inside
  obtain ⟨shapes, start⟩ := List.forall_mem_append.mp before
  exact AllSourced.append (AllSourced.append shapes one) start

/-- One statement keeps the IRIs sourced, and the names clear for those that follow. -/
theorem statement_gives {text : List Char} (bound : Nat) {progress : Progress}
    (sourced : progress.Sourced text) :
    Gives text (fun after => after.Sourced text) (statement bound progress) := by
  have clear := sourced.names
  refine .after ((tryKeyword_onward _).gives text) fun _ => .ite (fun _ => ?_) fun _ => ?_
  · refine .after (tryNamespaceName_steady.gives text) fun found => ?_
    cases found with
    | none => exact .fail _
    | some name =>
      refine .bind (resolvedIriRef_gives text clear) fun iri without => .pure ?_
      exact ⟨clear.declare _ without, sourced.schema⟩
  refine .after ((tryKeyword_onward _).gives text) fun _ => .ite (fun _ => ?_) fun _ => ?_
  · refine .bind (resolvedIriRef_gives text clear) fun base without => .pure ?_
    refine ⟨⟨clear.namespaces, ?_⟩, sourced.schema⟩
    rintro _ ⟨⟩
    exact without
  refine .after ((tryKeyword_onward _).gives text) fun _ => .ite (fun _ => ?_) fun _ => ?_
  · exact .after (iri_gives text clear) fun found => .pure ⟨clear, sourced.schema⟩
  refine .after ((tryKeyword_onward _).gives text) fun _ => .ite (fun _ => ?_) fun _ => ?_
  · refine .after ((expect_onward _).gives text) fun _ => ?_
    refine .bind (shapeExpr_gives text clear bound) fun expr inside => .pure ⟨clear, ?_⟩
    rw [← iris_ofExpr] at inside
    exact AllSourced.append (List.forall_mem_append.mp sourced.schema).1 inside
  refine .after ((tryKeyword_onward _).gives text) fun _ => .ite (fun _ => ?_) fun _ => ?_
  · exact .bind (shapeDecl_gives text clear bound true) fun decl inside =>
      .pure (sourced.addShape inside)
  refine .after (atShapeDecl_steady.gives text) fun found => .ite (fun _ => ?_) fun _ => .fail _
  exact .bind (shapeDecl_gives text clear bound false) fun decl inside =>
    .pure (sourced.addShape inside)

/-- A whole schema, statement by statement. The invariant is that what has been
read is sourced and that the names in force are clear. -/
theorem statements_gives {text : List Char} (bound left : Nat) {progress : Progress}
    (sourced : progress.Sourced text) :
    Gives text (fun schema => AllSourced text schema.iris) (statements bound left progress) := by
  refine Yields.loop (statementsLoop bound) (fun progress => progress.Sourced text)
    (fun _ schema => AllSourced text schema.iris) (fun _ _ rest progress sourced => ?_) left
      progress sourced
  refine .after (atEnd_steady.gives text) fun ended =>
    .ite (fun _ => .pure sourced.schema) fun _ => ?_
  exact .bind (statement_gives bound sourced) fun after still => rest after still

/-- Every IRI of a schema that was read is sourced, as no names are in force at
the start of a text. -/
theorem parse_sourced {text : List Char} {schema : Schema} (read : parse text = .ok schema) :
    AllSourced text schema.iris := by
  have run : parse text = Prod.fst <$> Compact.schema (Cursor.start text) := rfl
  rw [run] at read
  cases outcome : Compact.schema (Cursor.start text) with
  | error fault =>
    rw [outcome] at read
    cases read
  | ok pair =>
    rw [outcome] at read
    cases read
    have gives := Yields.bind (get_steady.gives text) fun c _ =>
      statements_gives c.bound c.bound (Progress.sourced_empty text)
    exact (gives.of_ok rfl outcome).2

/-- In a schema that was read, an IRI that is written between angle brackets
ends where it should, whatever follows it, unless it comes from a prefixed name
in whose local name a closing bracket stands behind a backslash; such an IRI
never does. So from a text without that escape all IRIs end where they
should. -/
theorem parse_iris_close {text : List Char} {schema : Schema} (read : parse text = .ok schema) :
    (∀ iri ∈ schema.iris, Closes iri ↔ ¬ Escaped text iri) ∧
      (¬ ['\\', '>'] <:+: text → ∀ iri ∈ schema.iris, Closes iri) := by
  have same : ∀ iri ∈ schema.iris, Closes iri ↔ ¬ Escaped text iri := by
    intro iri member
    constructor
    · exact fun closes escaped => not_closes_of_escaped escaped closes
    · exact fun plain => closes_iff.mpr ((parse_sourced read iri member).resolve_right plain)
  refine ⟨same, fun plain iri member => (same iri member).mpr ?_⟩
  rintro ⟨front, name, written, back, space, whole, inside, -⟩
  exact plain (inside.trans ⟨front ++ name ++ [':'], back, by simp [whole]⟩)

def typedArc (predicate datatype : String) : Schema where
  namespaces := [⟨"e", "h:"⟩]
  shapes := [⟨.string "S", .shape (some (.constraint (.string predicate) false
    (.node { datatype := .string datatype }) {} .null)) false [], false⟩]

/-- The predicate is escaped and does not end where it should, and the datatype does. -/
theorem parse_iris_close_escaped :
    parse "PREFIX e: <h:> <S> \x7b e:a\\>b e:c \x7d".toList = .ok (typedArc "h:a>b" "h:c") ∧
    (typedArc "h:a>b" "h:c").iris = ["h:a>b", "h:c"] ∧
    (Closes "h:a>b" ↔ ¬ Escaped "PREFIX e: <h:> <S> \x7b e:a\\>b e:c \x7d".toList "h:a>b") ∧
    parse "PREFIX e: <h:> <S> \x7b e:ab e:c \x7d".toList = .ok (typedArc "h:ab" "h:c") ∧
    ¬ ['\\', '>'] <:+: "PREFIX e: <h:> <S> \x7b e:ab e:c \x7d".toList ∧
    Closes "h:ab" ∧ Closes "h:c" := by
  have escaped : parse "PREFIX e: <h:> <S> \x7b e:a\\>b e:c \x7d".toList =
      .ok (typedArc "h:a>b" "h:c") := by
    rfl
  have plain : parse "PREFIX e: <h:> <S> \x7b e:ab e:c \x7d".toList = .ok (typedArc "h:ab" "h:c") :=
    by rfl
  have without : ¬ ['\\', '>'] <:+: "PREFIX e: <h:> <S> \x7b e:ab e:c \x7d".toList := by decide
  refine ⟨escaped, rfl, (parse_iris_close escaped).1 _ (by decide), plain, without, ?_, ?_⟩
  · exact (parse_iris_close plain).2 without _ (by decide)
  · exact (parse_iris_close plain).2 without _ (by decide)

end Compact

end ShapeQuery
