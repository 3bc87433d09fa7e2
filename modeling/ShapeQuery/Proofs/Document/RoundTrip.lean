import ShapeQuery.Proofs.Document.Writer
import ShapeQuery.Proofs.WellTyped

/-!
A schema that is written as a document is read back as it was. The names of the fields
of an object are distinct, so a field is found if it is there, and each reader is
described by the fields that it finds.
-/
namespace ShapeQuery.Document

section Fields

theorem field?_cons_of_ne {name key : String} (other : name ≠ key) (value : Json) (rest : Fields) :
    Json.field? ((key, value) :: rest) name = Json.field? rest name := by
  have different : (name == key) = false := by simpa using other
  rw [Json.field?, List.lookup_cons, different, Json.field?]

theorem field?_eq_none {fields : Fields} {name : String} (absent : name ∉ fields.map Prod.fst) :
    Json.field? fields name = none := by
  rw [Json.field?, List.lookup_eq_none_iff]
  intro field member
  rw [bne_iff_ne]
  rintro rfl
  exact absent (List.mem_map_of_mem member)

theorem field?_present {fields : Fields} (distinct : (fields.map Prod.fst).Nodup) (name : String) :
    Json.field? (present fields) name = (Json.field? fields name).filter (!·.isNull) := by
  induction fields with
  | nil => rfl
  | cons field rest ih =>
    obtain ⟨key, value⟩ := field
    rw [List.map_cons, List.nodup_cons] at distinct
    have later := ih distinct.2
    unfold present at later ⊢
    by_cases same : name = key
    · subst same
      have found : Json.field? ((name, value) :: rest) name = some value := List.lookup_cons_self
      rw [field?_eq_none distinct.1] at later
      rw [found, List.filter_cons]
      cases null : value.isNull with
      | true => simpa [Option.filter, null] using later
      | false => simp [Option.filter, null, Json.field?]
    · rw [field?_cons_of_ne same, ← later, List.filter_cons]
      split
      · exact field?_cons_of_ne same _ _
      · rfl

/-- Leaving out the fields that are null changes nothing for a reader that
takes a missing field for null. -/
theorem fieldD_present {fields : Fields} (distinct : (fields.map Prod.fst).Nodup) (name : String) :
    Json.fieldD (present fields) name = Json.fieldD fields name := by
  rw [Json.fieldD, Json.fieldD, field?_present distinct]
  cases Json.field? fields name with
  | none => rfl
  | some value => cases value <;> rfl

variable (id : Json) (type : String) {fields : Fields}

/-- A field of an object with a type is found if it is there. The label and the
type come first. -/
theorem field?_typedFields (distinct : ("id" :: "type" :: fields.map Prod.fst).Nodup)
    (name : String) :
    Json.field? (typedFields id type fields) name =
      (Json.field? (("id", id) :: ("type", .string type) :: fields) name).filter (!·.isNull) := by
  apply field?_present
  exact distinct

theorem fieldD_typedFields (distinct : ("id" :: "type" :: fields.map Prod.fst).Nodup)
    (name : String) :
    Json.fieldD (typedFields id type fields) name =
      Json.fieldD (("id", id) :: ("type", .string type) :: fields) name := by
  apply fieldD_present
  exact distinct

theorem require_of_field? {name : String} {value : Json}
    (found : Json.field? fields name = some value) : require fields name = .ok value := by
  rw [require, found]

/-- A list that is there only if it has items is read as its items. -/
theorem itemsOf_listed {name : String} {items : List Json}
    (found : Json.field? fields name = (some (listed items)).filter (!·.isNull)) :
    itemsOf fields name = .ok items := by
  rw [itemsOf, found]
  cases items <;> rfl

/-- A mark that is there only if it is set counts as present only then. -/
theorem truthy_flag (set : Bool) : (flag set).truthy = set := by
  cases set <;> rfl

theorem filter_text {value : Json} (text : value.isText = true) :
    (some value).filter (!·.isNull) = some value := by
  cases value <;> first | rfl | cases text

end Fields

theorem mapM_map_ok {α : Type} {read : Json → Except Fault α} {write : α → Json} {items : List α}
    (each : ∀ item ∈ items, read (write item) = .ok item) :
    (items.map write).mapM read = .ok items := by
  induction items with
  | nil => rfl
  | cons item rest ih =>
    rw [List.forall_mem_cons] at each
    rw [List.map_cons, List.mapM_cons, each.1, ih each.2]
    rfl

theorem mapM_filter_ok {α : Type} {read : Json → Except Fault α} {write : α → Json}
    {value : Option α}
    (each : ∀ item ∈ value, (write item).isNull = false ∧ read (write item) = .ok item) :
    ((some (value.elim .null write)).filter (!·.isNull)).mapM read = .ok value := by
  cases value with
  | none => rfl
  | some item =>
    obtain ⟨there, back⟩ := each item rfl
    simp [Option.filter, there, back]

section Entries

/-- An exclusion is read back, a value as a text and a stem as an object. -/
theorem readExclusion_exclusionDocument (kind : StemKind) {exclusion : Exclusion}
    (typed : exclusion.wellTyped = true) :
    readExclusion (exclusionDocument kind exclusion) = .ok exclusion := by
  cases exclusion with
  | value value =>
    obtain ⟨text, rfl⟩ := Json.isText_iff.mp typed
    rfl
  | stem stem =>
    obtain ⟨text, rfl⟩ := Json.isText_iff.mp typed
    cases kind <;> rfl

theorem readStem_rangeStemDocument {stem : Stem} (typed : stem.wellTyped = true) :
    readStem (rangeStemDocument stem) = stem := by
  cases stem with
  | text value =>
    obtain ⟨text, rfl⟩ := Json.isText_iff.mp typed
    rfl
  | wildcard => rfl

/-- The stem of a range is there: it is a text or an object. -/
theorem filter_rangeStemDocument {stem : Stem} (typed : stem.wellTyped = true) :
    (some (rangeStemDocument stem)).filter (!·.isNull) = some (rangeStemDocument stem) := by
  cases stem with
  | text value => exact filter_text typed
  | wildcard => rfl

theorem readTypedEntry_stem {fields : Fields} (kind : StemKind) {stem : Json}
    (found : Json.field? fields "stem" = some stem) :
    readTypedEntry fields (stemType kind) = .ok (.stem kind stem) := by
  have required := require_of_field? found
  cases kind <;> simp only [readTypedEntry, stemType, stemKind?, required] <;> rfl

/-- An entry with the type of a range is read with its stem and its
exclusions. -/
theorem readTypedEntry_range {fields : Fields} (kind : StemKind) {stem : Json} {items : List Json}
    {exclusions : List Exclusion} (found : Json.field? fields "stem" = some stem)
    (listed : itemsOf fields "exclusions" = .ok items)
    (read : items.mapM readExclusion = .ok exclusions) :
    readTypedEntry fields (rangeType kind) = .ok (.range kind (readStem stem) exclusions) := by
  have required := require_of_field? found
  cases kind <;>
    simp only [readTypedEntry, rangeType, stemKind?, rangeKind?, required, listed, bind,
      Except.bind, read] <;>
    rfl

theorem readTypedEntry_literal {fields : Fields} {type : String}
    (other : (Json.string type).namesEntryType = false) :
    readTypedEntry fields type = readLiteral fields (.string type) := by
  simp only [Json.namesEntryType, Json.isString, List.any_cons, List.any_nil, stemType, rangeType,
    Bool.or_eq_false_iff, decide_eq_false_iff_not] at other
  have noStem : stemKind? type = none := by
    unfold stemKind?
    split <;> simp_all
  have noRange : rangeKind? type = none := by
    unfold rangeKind?
    split <;> simp_all
  rw [readTypedEntry, if_neg other.1, noStem, noRange]

theorem readEntry_typed {fields : Fields} {type : String}
    (typed : Json.fieldD fields "type" = .string type) :
    readEntry (.object fields) = readTypedEntry fields type := by
  rw [readEntry, typed]

theorem readLiteral_of_field? {fields : Fields} {value : Json}
    (found : Json.field? fields "value" = some value) (type : Json) :
    readLiteral fields type = .ok (.literal value type (Json.fieldD fields "language")) := by
  rw [readLiteral, require_of_field? found]
  rfl

/-- A literal is read back, unless its datatype is the name of another kind of entry. -/
theorem readEntry_literal {value datatype language : Json} (text : value.isText = true)
    (typed : datatype.isTextOrNull = true) (other : datatype.namesEntryType = false) :
    readEntry (.object (present (literalFields value datatype language))) =
      .ok (.literal value datatype language) := by
  have distinct : ((literalFields value datatype language).map Prod.fst).Nodup := by
    simp [literalFields]
  have found := field?_present distinct "value"
  have read := readLiteral_of_field? (found.trans (filter_text text)) datatype
  have type := fieldD_present distinct "type"
  rw [fieldD_present distinct] at read
  cases datatype with
  | string name =>
    rw [readEntry_typed type, readTypedEntry_literal other]
    exact read
  | null =>
    rw [readEntry, type]
    exact read
  | _ => cases typed

/-- A range is read back with its stem and all of its exclusions. -/
theorem readEntry_range {stem : Stem} {exclusions : List Exclusion} (kind : StemKind)
    (typed : stem.wellTyped = true) (each : ∀ exclusion ∈ exclusions, exclusion.wellTyped = true) :
    readEntry (record .null (rangeType kind) (rangeFields kind stem exclusions)) =
      .ok (.range kind stem exclusions) := by
  have distinct : ("id" :: "type" :: (rangeFields kind stem exclusions).map Prod.fst).Nodup := by
    simp [rangeFields]
  have found := (field?_typedFields .null (rangeType kind) distinct "stem").trans
    (filter_rangeStemDocument typed)
  have listed := itemsOf_listed (field?_typedFields .null (rangeType kind) distinct "exclusions")
  have excluded := mapM_map_ok fun exclusion member =>
    readExclusion_exclusionDocument kind (each exclusion member)
  rw [record, readEntry_typed (fieldD_typedFields _ _ distinct "type"),
    readTypedEntry_range kind found listed excluded, readStem_rangeStemDocument typed]

/-- Every entry that can be expressed is read back. One case for each kind of entry. -/
theorem readEntry_entryDocument {entry : ValueSetEntry} (typed : entry.wellTyped = true)
    (expressible : entry.expressible = true) : readEntry (entryDocument entry) = .ok entry := by
  cases entry with
  | iri iri => rfl
  | literal value datatype language =>
    simp only [ValueSetEntry.wellTyped, Bool.and_eq_true] at typed
    rw [ValueSetEntry.expressible, Bool.not_eq_true'] at expressible
    exact readEntry_literal typed.1.1 typed.1.2 expressible
  | language tag =>
    have found : Json.field? (typedFields .null "Language" [("languageTag", tag)]) "languageTag" =
        some tag := by
      rw [field?_typedFields _ _ (by simp)]
      exact filter_text typed
    rw [entryDocument, record, readEntry_typed (fieldD_typedFields _ _ (by simp) "type"),
      readTypedEntry, if_pos rfl, require_of_field? found]
    rfl
  | stem kind stem =>
    have found : Json.field? (typedFields .null (stemType kind) [("stem", stem)]) "stem" =
        some stem := by
      rw [field?_typedFields _ _ (by simp)]
      exact filter_text typed
    rw [entryDocument, stemDocument, record,
      readEntry_typed (fieldD_typedFields _ _ (by simp) "type")]
    exact readTypedEntry_stem kind found
  | range kind stem exclusions =>
    simp only [ValueSetEntry.wellTyped, Bool.and_eq_true, List.all_eq_true] at typed
    exact readEntry_range kind typed.1 typed.2

theorem readEntries_entryDocument {entries : List ValueSetEntry}
    (typed : entries.all ValueSetEntry.wellTyped = true)
    (expressible : entries.all ValueSetEntry.expressible = true) :
    (do (← use (Json.array (entries.map entryDocument)).items).mapM readEntry) = .ok entries := by
  rw [List.all_eq_true] at typed expressible
  exact mapM_map_ok fun entry member =>
    readEntry_entryDocument (typed entry member) (expressible entry member)

theorem readNodeKind_word (kind : NodeKind) : readNodeKind (.string kind.word) = .ok kind := by
  cases kind <;> rfl

/-- A node constraint is read back with all of its facets, as each of them has
a field of its own. -/
theorem readNodeConstraint_nodeFields (id : Json) {nc : NodeConstraint}
    (typed : nc.wellTyped = true)
    (expressible : (nc.values.getD []).all ValueSetEntry.expressible = true) :
    readNodeConstraint (typedFields id "NodeConstraint" (nodeFields nc)) = .ok nc := by
  have distinct : ("id" :: "type" :: (nodeFields nc).map Prod.fst).Nodup := by
    simp [nodeFields]
  have kind : (Json.field? (typedFields id "NodeConstraint" (nodeFields nc)) "nodeKind").mapM
      readNodeKind = .ok nc.nodeKind := by
    rw [field?_typedFields _ _ distinct]
    exact mapM_filter_ok fun kind _ => ⟨rfl, readNodeKind_word kind⟩
  have values : ((Json.field? (typedFields id "NodeConstraint" (nodeFields nc)) "values").mapM
    fun value => do
      (← use value.items).mapM readEntry) = .ok nc.values := by
    rw [field?_typedFields _ _ distinct]
    refine mapM_filter_ok fun entries listed => ⟨rfl, ?_⟩
    simp only [NodeConstraint.wellTyped, Bool.and_eq_true, Option.mem_def.mp listed] at typed
    rw [Option.mem_def.mp listed] at expressible
    apply readEntries_entryDocument _ expressible
    tauto
  unfold readNodeConstraint
  rw [kind, values]
  simp only [fieldD_typedFields _ _ distinct]
  rfl

end Entries

section Expressions

variable {fields : Fields}

/-- A type is compared with the known types one after the other. -/
theorem isString_text (type other : String) :
    (Json.string type).isString other = decide (type = other) :=
  rfl

/-- A shape without a triple expression is read back from its type and its
other fields. -/
theorem readShapeExpr_shape_none {extra : List Json} {closed : Bool}
    (type : Json.fieldD fields "type" = .string "Shape")
    (absent : Json.field? fields "expression" = none) (listed : itemsOf fields "extra" = .ok extra)
    (mark : (Json.fieldD fields "closed").truthy = closed) :
    readShapeExpr (.object fields) = .ok (.shape none closed extra) := by
  rw [readShapeExpr]
  simp only [type, isString_text, decide_true, ↓reduceIte, listed, mark]
  split <;> cases absent.symm.trans ‹_›
  rfl

theorem readShapeExpr_shape_some {extra : List Json} {closed : Bool} {value : Json}
    {expression : TripleExpr} (type : Json.fieldD fields "type" = .string "Shape")
    (found : Json.field? fields "expression" = some value)
    (read : readTripleExpr value = .ok expression) (listed : itemsOf fields "extra" = .ok extra)
    (mark : (Json.fieldD fields "closed").truthy = closed) :
    readShapeExpr (.object fields) = .ok (.shape (some expression) closed extra) := by
  rw [readShapeExpr]
  simp only [type, isString_text, decide_true, ↓reduceIte, listed, mark]
  split <;> cases found.symm.trans ‹_›
  · simp [readTripleExpr] at read
  · rw [read]
    rfl

/-- A conjunction is read from its type and the field with its operands. -/
theorem readShapeExpr_and {items : List Json} {operands : List ShapeExpr}
    (type : Json.fieldD fields "type" = .string "ShapeAnd")
    (found : Json.field? fields "shapeExprs" = some (.array items))
    (read : readShapeExprItems items = .ok operands) :
    readShapeExpr (.object fields) = .ok (.and operands) := by
  rw [readShapeExpr]
  simp only [type, isString_text, String.reduceEq, decide_true, decide_false,
    Bool.false_eq_true, ↓reduceIte]
  split <;> cases found.symm.trans ‹_›
  rw [readShapeExprs, read]
  rfl

theorem readShapeExpr_or {items : List Json} {operands : List ShapeExpr}
    (type : Json.fieldD fields "type" = .string "ShapeOr")
    (found : Json.field? fields "shapeExprs" = some (.array items))
    (read : readShapeExprItems items = .ok operands) :
    readShapeExpr (.object fields) = .ok (.or operands) := by
  rw [readShapeExpr]
  simp only [type, isString_text, String.reduceEq, decide_true, decide_false,
    Bool.false_eq_true, ↓reduceIte]
  split <;> cases found.symm.trans ‹_›
  rw [readShapeExprs, read]
  rfl

theorem readShapeExpr_not {value : Json} {operand : ShapeExpr}
    (type : Json.fieldD fields "type" = .string "ShapeNot")
    (found : Json.field? fields "shapeExpr" = some value)
    (read : readShapeExpr value = .ok operand) :
    readShapeExpr (.object fields) = .ok (.not operand) := by
  have single : negated? fields = some value := by
    rw [negated?, found]
  rw [readShapeExpr]
  simp only [type, isString_text, String.reduceEq, decide_true, decide_false,
    Bool.false_eq_true, ↓reduceIte]
  split <;> cases single.symm.trans ‹_›
  · simp [readShapeExpr] at read
  · simp [readShapeExpr] at read
  · rw [read]
    rfl

/-- A negation with several operands is read from the list that stands in the
field for one. -/
theorem readShapeExpr_notEach {items : List Json} {operands : List ShapeExpr}
    (type : Json.fieldD fields "type" = .string "ShapeNot")
    (found : Json.field? fields "shapeExpr" = some (.array items))
    (read : readShapeExprItems items = .ok operands) :
    readShapeExpr (.object fields) = .ok (.notEach operands) := by
  have several : negated? fields = some (.array items) := by
    rw [negated?, found]
  rw [readShapeExpr]
  simp only [type, isString_text, String.reduceEq, decide_true, decide_false,
    Bool.false_eq_true, ↓reduceIte]
  split <;> cases several.symm.trans ‹_›
  · rw [read]
    rfl
  · next single _ => exact absurd rfl (single items)

theorem readShapeExpr_node {nc : NodeConstraint}
    (type : Json.fieldD fields "type" = .string "NodeConstraint")
    (read : readNodeConstraint fields = .ok nc) :
    readShapeExpr (.object fields) = .ok (.node nc) := by
  rw [readShapeExpr]
  simp only [type, isString_text, String.reduceEq, decide_true, decide_false,
    Bool.false_eq_true, ↓reduceIte, read]
  rfl

theorem readShapeExpr_external (type : Json.fieldD fields "type" = .string "ShapeExternal") :
    readShapeExpr (.object fields) = .ok .external := by
  rw [readShapeExpr]
  simp only [type, isString_text, String.reduceEq, decide_true, decide_false,
    Bool.false_eq_true, ↓reduceIte]

/-- The value of an arc: absent for a point, and else an expression. -/
def ReadsValue (field : Option Json) (value : ShapeExpr) : Prop :=
  (field = none ∧ value = .any) ∨ ∃ item, field = some item ∧ readShapeExpr item = .ok value

/-- A triple constraint is read back from its fields. The value may be missing. -/
theorem readTripleExpr_constraint {predicate : Json} {inverse : Bool} {value : ShapeExpr}
    {bounds : Bounds} {id : Json} (type : Json.fieldD fields "type" = .string "TripleConstraint")
    (found : Json.field? fields "predicate" = some predicate)
    (mark : (Json.fieldD fields "inverse").truthy = inverse)
    (read : ReadsValue (Json.field? fields "valueExpr") value)
    (bounded : readBounds fields = bounds) (labelled : Json.fieldD fields "id" = id) :
    readTripleExpr (.object fields) = .ok (.constraint predicate inverse value bounds id) := by
  rw [readTripleExpr]
  simp only [type, isString_text, decide_true, ↓reduceIte, require_of_field? found, mark,
    bounded, labelled]
  rcases read with ⟨absent, rfl⟩ | ⟨item, there, read⟩
  · split <;> cases absent.symm.trans ‹_›
    rfl
  · split <;> cases there.symm.trans ‹_›
    · simp [readShapeExpr] at read
    · rw [read]
      rfl

theorem readTripleExpr_eachOf {items : List Json} {operands : List TripleExpr} {bounds : Bounds}
    {id : Json} (type : Json.fieldD fields "type" = .string "EachOf")
    (found : Json.field? fields "expressions" = some (.array items))
    (read : readTripleExprItems items = .ok operands) (bounded : readBounds fields = bounds)
    (labelled : Json.fieldD fields "id" = id) :
    readTripleExpr (.object fields) = .ok (.eachOf operands bounds id) := by
  rw [readTripleExpr]
  simp only [type, isString_text, String.reduceEq, decide_true, decide_false,
    Bool.false_eq_true, ↓reduceIte, bounded, labelled]
  split <;> cases found.symm.trans ‹_›
  rw [readTripleExprs, read]
  rfl

theorem readTripleExpr_oneOf {items : List Json} {operands : List TripleExpr} {bounds : Bounds}
    {id : Json} (type : Json.fieldD fields "type" = .string "OneOf")
    (found : Json.field? fields "expressions" = some (.array items))
    (read : readTripleExprItems items = .ok operands) (bounded : readBounds fields = bounds)
    (labelled : Json.fieldD fields "id" = id) :
    readTripleExpr (.object fields) = .ok (.oneOf operands bounds id) := by
  rw [readTripleExpr]
  simp only [type, isString_text, String.reduceEq, decide_true, decide_false,
    Bool.false_eq_true, ↓reduceIte, bounded, labelled]
  split <;> cases found.symm.trans ‹_›
  rw [readTripleExprs, read]
  rfl

end Expressions

section RoundTrip

/-- What stands for an expression other than a point is there. -/
theorem filter_shapeDocument (id : Json) {expr : ShapeExpr} (other : expr ≠ .any) :
    (some (shapeDocument id expr)).filter (!·.isNull) = some (shapeDocument id expr) := by
  cases expr with
  | any => exact absurd rfl other
  | shape expression closed extra => cases expression <;> rfl
  | _ => rfl

theorem filter_tripleDocument (expr : TripleExpr) :
    (some (tripleDocument expr)).filter (!·.isNull) = some (tripleDocument expr) := by
  cases expr <;> rfl

theorem ne_any_of_expressible {expr : ShapeExpr} (expressible : expr.expressible = true) :
    expr ≠ .any := by
  rintro rfl
  rw [ShapeExpr.expressible] at expressible
  cases expressible

mutual

/-- Every shape expression that can be expressed is read back, with or without
a label. Induction on the expression, together with triple expressions and
lists of both. -/
theorem readShapeExpr_shapeDocument (id : Json) : ∀ {expr : ShapeExpr}, expr.wellTyped = true →
    expr.expressible = true → readShapeExpr (shapeDocument id expr) = .ok expr
  | .reference label, _, _ => by rw [shapeDocument, readShapeExpr]
  | .shape none closed extra, _, _ => by
    rw [shapeDocument]
    apply readShapeExpr_shape_none (fieldD_typedFields _ _ (by simp) _)
    · exact field?_typedFields _ _ (by simp) _
    · exact itemsOf_listed (field?_typedFields _ _ (by simp) _)
    · rw [fieldD_typedFields _ _ (by simp)]
      exact truthy_flag closed
  | .shape (some expression) closed extra, typed, expressible => by
    rw [ShapeExpr.wellTyped, Bool.and_eq_true] at typed
    rw [ShapeExpr.expressible] at expressible
    rw [shapeDocument]
    apply readShapeExpr_shape_some (fieldD_typedFields _ _ (by simp) _)
    · rw [field?_typedFields _ _ (by simp)]
      exact filter_tripleDocument expression
    · exact readTripleExpr_tripleDocument typed.1 expressible
    · exact itemsOf_listed (field?_typedFields _ _ (by simp) _)
    · rw [fieldD_typedFields _ _ (by simp)]
      exact truthy_flag closed
  | .and operands, typed, expressible => by
    rw [ShapeExpr.wellTyped] at typed
    rw [ShapeExpr.expressible] at expressible
    rw [shapeDocument]
    apply readShapeExpr_and (fieldD_typedFields _ _ (by simp) _)
    · exact field?_typedFields _ _ (by simp) _
    · exact readShapeExprItems_shapeDocuments typed expressible
  | .or operands, typed, expressible => by
    rw [ShapeExpr.wellTyped] at typed
    rw [ShapeExpr.expressible] at expressible
    rw [shapeDocument]
    apply readShapeExpr_or (fieldD_typedFields _ _ (by simp) _)
    · exact field?_typedFields _ _ (by simp) _
    · exact readShapeExprItems_shapeDocuments typed expressible
  | .not operand, typed, expressible => by
    rw [ShapeExpr.wellTyped] at typed
    rw [ShapeExpr.expressible] at expressible
    rw [shapeDocument]
    apply readShapeExpr_not (fieldD_typedFields _ _ (by simp) _)
    · rw [field?_typedFields _ _ (by simp)]
      exact filter_shapeDocument .null (ne_any_of_expressible expressible)
    · exact readShapeExpr_shapeDocument .null typed expressible
  | .notEach operands, typed, expressible => by
    rw [ShapeExpr.wellTyped] at typed
    rw [ShapeExpr.expressible] at expressible
    rw [shapeDocument]
    apply readShapeExpr_notEach (fieldD_typedFields _ _ (by simp) _)
    · exact field?_typedFields _ _ (by simp) _
    · exact readShapeExprItems_shapeDocuments typed expressible
  | .node nc, typed, expressible => by
    rw [ShapeExpr.wellTyped] at typed
    rw [ShapeExpr.expressible] at expressible
    rw [shapeDocument]
    apply readShapeExpr_node (fieldD_typedFields _ _ (by simp [nodeFields]) _)
    exact readNodeConstraint_nodeFields id typed expressible
  | .external, _, _ => by
    rw [shapeDocument]
    exact readShapeExpr_external (fieldD_typedFields _ _ (by simp) _)

/-- Every triple expression that can be expressed is read back, in the same
induction. -/
theorem readTripleExpr_tripleDocument : ∀ {expr : TripleExpr}, expr.wellTyped = true →
    expr.expressible = true → readTripleExpr (tripleDocument expr) = .ok expr
  | .reference label, _, _ => by rw [tripleDocument, readTripleExpr]
  | .constraint predicate inverse value bounds id, typed, expressible => by
    simp only [TripleExpr.wellTyped, Bool.and_eq_true] at typed
    rw [tripleDocument]
    apply readTripleExpr_constraint (fieldD_typedFields _ _ (by simp) _)
    · rw [field?_typedFields _ _ (by simp)]
      exact filter_text typed.1.1.1
    · rw [fieldD_typedFields _ _ (by simp)]
      exact truthy_flag inverse
    · rw [field?_typedFields _ _ (by simp)]
      by_cases point : value = .any
      · subst point
        exact Or.inl ⟨by rw [shapeDocument]; rfl, rfl⟩
      · have inner : value.expressible = true := by
          rwa [TripleExpr.expressible] at expressible
          exact point
        exact Or.inr ⟨_, filter_shapeDocument .null point,
          readShapeExpr_shapeDocument .null typed.1.1.2 inner⟩
    · rw [readBounds, fieldD_typedFields _ _ (by simp), fieldD_typedFields _ _ (by simp)]
      rfl
    · exact fieldD_typedFields _ _ (by simp) _
  | .eachOf operands bounds id, typed, expressible => by
    simp only [TripleExpr.wellTyped, Bool.and_eq_true] at typed
    rw [TripleExpr.expressible] at expressible
    rw [tripleDocument]
    apply readTripleExpr_eachOf (fieldD_typedFields _ _ (by simp) _)
    · exact field?_typedFields _ _ (by simp) _
    · exact readTripleExprItems_tripleDocuments typed.1.1 expressible
    · rw [readBounds, fieldD_typedFields _ _ (by simp), fieldD_typedFields _ _ (by simp)]
      rfl
    · exact fieldD_typedFields _ _ (by simp) _
  | .oneOf operands bounds id, typed, expressible => by
    simp only [TripleExpr.wellTyped, Bool.and_eq_true] at typed
    rw [TripleExpr.expressible] at expressible
    rw [tripleDocument]
    apply readTripleExpr_oneOf (fieldD_typedFields _ _ (by simp) _)
    · exact field?_typedFields _ _ (by simp) _
    · exact readTripleExprItems_tripleDocuments typed.1.1 expressible
    · rw [readBounds, fieldD_typedFields _ _ (by simp), fieldD_typedFields _ _ (by simp)]
      rfl
    · exact fieldD_typedFields _ _ (by simp) _

theorem readShapeExprItems_shapeDocuments :
    ∀ {exprs : List ShapeExpr}, wellTypedShapes exprs = true → expressibleShapes exprs = true →
      readShapeExprItems (shapeDocuments exprs) = .ok exprs
  | [], _, _ => by rw [shapeDocuments, readShapeExprItems]
  | expr :: rest, typed, expressible => by
    rw [wellTypedShapes, Bool.and_eq_true] at typed
    rw [expressibleShapes, Bool.and_eq_true] at expressible
    rw [shapeDocuments, readShapeExprItems, readShapeExpr_shapeDocument .null typed.1 expressible.1,
      readShapeExprItems_shapeDocuments typed.2 expressible.2]
    rfl

theorem readTripleExprItems_tripleDocuments :
    ∀ {exprs : List TripleExpr}, wellTypedTriples exprs = true → expressibleTriples exprs = true →
      readTripleExprItems (tripleDocuments exprs) = .ok exprs
  | [], _, _ => by rw [tripleDocuments, readTripleExprItems]
  | expr :: rest, typed, expressible => by
    rw [wellTypedTriples, Bool.and_eq_true] at typed
    rw [expressibleTriples, Bool.and_eq_true] at expressible
    rw [tripleDocuments, readTripleExprItems, readTripleExpr_tripleDocument typed.1 expressible.1,
      readTripleExprItems_tripleDocuments typed.2 expressible.2]
    rfl

end

/-- Every other expression than a reference is an object with a type of
expressions. -/
theorem shapeDocument_eq_record (id : Json) {expr : ShapeExpr}
    (expressible : expr.expressible = true) (object : ∀ label, expr ≠ .reference label) :
    ∃ type fields, shapeDocument id expr = record id type fields ∧ type ≠ "ShapeDecl" ∧
      ("id" :: "type" :: fields.map Prod.fst).Nodup := by
  cases expr with
  | reference label => exact absurd rfl (object label)
  | any => exact absurd rfl (ne_any_of_expressible expressible)
  | unsupported typeName => simp [ShapeExpr.expressible] at expressible
  | shape expression closed extra =>
    cases expression <;> exact ⟨_, _, by rw [shapeDocument], by decide, by simp⟩
  | node nc => exact ⟨_, _, by rw [shapeDocument], by decide, by simp [nodeFields]⟩
  | _ => exact ⟨_, _, by rw [shapeDocument], by decide, by simp⟩

/-- A declaration with the expression in a field of its own is read back. -/
theorem readDecl_wrapped {fields : Fields} {id item : Json} {expr : ShapeExpr} {abstract : Bool}
    (labelled : Json.field? fields "id" = some id)
    (type : Json.fieldD fields "type" = .string "ShapeDecl")
    (found : Json.field? fields "shapeExpr" = some item) (read : readShapeExpr item = .ok expr)
    (mark : (Json.fieldD fields "abstract").truthy = abstract) :
    readDecl (.object fields) = .ok ⟨id, expr, abstract⟩ := by
  rw [readDecl, require_of_field? labelled, require_of_field? found, type, mark]
  simp only [isString_text, decide_true, ↓reduceIte, bind, Except.bind, read]
  rfl

/-- A declaration that is an expression with a label is read back. -/
theorem readDecl_inline {fields : Fields} {id : Json} {expr : ShapeExpr}
    (labelled : Json.field? fields "id" = some id) {type : String} (other : type ≠ "ShapeDecl")
    (typed : Json.fieldD fields "type" = .string type)
    (read : readShapeExpr (.object fields) = .ok expr) :
    readDecl (.object fields) = .ok ⟨id, expr, false⟩ := by
  rw [readDecl, require_of_field? labelled, typed, read]
  simp only [isString_text, other, decide_false, Bool.false_eq_true, ↓reduceIte]
  rfl

/-- A declaration is read back in every layout that suits it. -/
theorem readDecl_declDocument {decl : ShapeDecl} {layout : Layout} (named : decl.id.isText = true)
    (typed : decl.expr.wellTyped = true) (expressible : decl.expr.expressible = true)
    (suits : layout.suits decl = true) : readDecl (declDocument decl layout) = .ok decl := by
  obtain ⟨id, expr, abstract⟩ := decl
  cases layout with
  | wrapped =>
    apply readDecl_wrapped
    · rw [field?_typedFields _ _ (by simp)]
      exact filter_text named
    · exact fieldD_typedFields _ _ (by simp) _
    · rw [field?_typedFields _ _ (by simp)]
      exact filter_shapeDocument .null (ne_any_of_expressible expressible)
    · exact readShapeExpr_shapeDocument .null typed expressible
    · rw [fieldD_typedFields _ _ (by simp)]
      exact truthy_flag abstract
  | inline =>
    rw [Layout.suits, Bool.and_eq_true, Bool.not_eq_true'] at suits
    obtain ⟨rfl, labelCarrier⟩ := suits
    have object : ∀ label, expr ≠ .reference label := by
      rintro label rfl
      cases labelCarrier
    obtain ⟨type, fields, written, other, distinct⟩ := shapeDocument_eq_record id expressible object
    have read := readShapeExpr_shapeDocument id typed expressible
    rw [declDocument]
    rw [written] at read ⊢
    apply readDecl_inline _ other (fieldD_typedFields _ _ distinct _) read
    rw [field?_typedFields _ _ distinct]
    exact filter_text named

theorem readDecls_zipWith {decls : List ShapeDecl} {layouts : List Layout}
    (typed : ∀ decl ∈ decls, decl.id.isText = true ∧ decl.expr.wellTyped = true ∧
      decl.expr.expressible = true)
    (suited : List.Forall₂ (fun decl layout => layout.suits decl = true) decls layouts) :
    (decls.zipWith declDocument layouts).mapM readDecl = .ok decls := by
  induction suited with
  | nil => rfl
  | cons suits rest ih =>
    rw [List.forall_mem_cons] at typed
    obtain ⟨⟨named, typedHere, expressible⟩, later⟩ := typed
    rw [List.zipWith_cons_cons, List.mapM_cons,
      readDecl_declDocument named typedHere expressible suits, ih later]
    rfl

theorem readStart_startDocument {fields : Fields} {start : Start}
    (found : Json.fieldD fields "start" = startDocument start)
    (expressible : start.expressible = true) : readStart fields = .ok start := by
  rw [readStart, found]
  cases start <;> first | rfl | cases expressible

/-- A schema written as a document, with any layout for each declaration that
suits it, is read back as it was. -/
theorem readSchema_schemaDocument (schema : Schema) (layouts : List Layout)
    (typed : schema.wellTyped = true) (expressible : schema.expressible = true)
    (suited : List.Forall₂ (fun decl layout => layout.suits decl = true) schema.shapes layouts) :
    readSchema (schemaDocument schema layouts) = .ok schema := by
  have distinct : ((schemaFields schema layouts).map Prod.fst).Nodup := by
    simp [schemaFields]
  have shapes := itemsOf_listed (field?_present distinct "shapes")
  have imports := itemsOf_listed (field?_present distinct "imports")
  have start := fieldD_present distinct "start"
  simp only [Schema.wellTyped, Schema.expressible, Bool.and_eq_true, List.all_eq_true]
    at typed expressible
  have declared := readDecls_zipWith (fun decl member =>
    ⟨(typed.1 decl member).1, (typed.1 decl member).2, expressible.1.1 decl member⟩) suited
  rw [schemaDocument, readSchema, readStart_startDocument start expressible.1.2, shapes, imports]
  simp only [bind, Except.bind, declared]
  obtain ⟨decls, first, namespaces, others⟩ := schema
  cases List.isEmpty_iff.mp expressible.2
  rfl

/-- A schema with every kind of expression and of value-set entry. -/
def manifoldSchema : Schema where
  shapes := [
    ⟨.string "S", .and [
      .shape (some (.eachOf [
        .constraint (.string "p") true (.or [.reference "T", .external]) ⟨.int 0, unbounded⟩
        (.string "arc"), .oneOf [.reference "arc", .constraint (.string "q") false .any {} .null]
          ⟨.null, .int 2⟩ .null]
        {} (.string "group"))) true [.string "p"],
      .notEach [.reference "T", .shape none false []],
        .not (.node { nodeKind := some .nonliteral })], false⟩,
    ⟨.string "T", .node {
      datatype := .string "d"
      values := some [.iri "i", .literal (.string "v") .null (.string "en"),
        .literal (.string "1") (.string "d") .null, .language (.string "de"),
        .stem .iri (.string "http"), .range .literal .wildcard [.value (.string "x"),
        .stem (.string "y")], .range .language (.text (.string "fr")) []]
      maxLength := .int 5
      pattern := .string "^a"
      minExclusive := .int 0 }, true⟩,
    ⟨.string "U", .reference "S", false⟩]
  start := .label "S"
  imports := [.string "http://a/other"]

/-- A schema with every kind of expression that can be written is read back.
One of its declarations carries its label itself, and two are wrapped. -/
theorem readSchema_schemaDocument_manifold :
    manifoldSchema.wellTyped = true ∧ manifoldSchema.expressible = true ∧
    List.Forall₂ (fun decl layout => layout.suits decl = true) manifoldSchema.shapes
      [Layout.inline, .wrapped, .wrapped] ∧
    readSchema (schemaDocument manifoldSchema [.inline, .wrapped, .wrapped]) =
      .ok manifoldSchema := by
  have typed : manifoldSchema.wellTyped = true := by decide
  have expressible : manifoldSchema.expressible = true := by decide
  have suited : List.Forall₂ (fun decl layout => layout.suits decl = true) manifoldSchema.shapes
      [Layout.inline, .wrapped, .wrapped] := by
    simp [manifoldSchema, Layout.suits]
  exact ⟨typed, expressible, suited, readSchema_schemaDocument _ _ typed expressible suited⟩

end RoundTrip

end ShapeQuery.Document
