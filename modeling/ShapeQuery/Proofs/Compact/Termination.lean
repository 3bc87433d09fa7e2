import ShapeQuery.Proofs.Compact.Pace
import ShapeQuery.Proofs.Compact.Produced

/-!
Reading always comes to an end. Expressions contain each other, and a nested one starts where less
text is left: this is what carries the induction, and with it no reader runs out of its bound.
-/
namespace ShapeQuery.Compact

namespace Scan

/-! ### Shape expressions -/

/-- Two families of nested readers agree where less text is left, and both have
room for their loops. -/
structure Nested.Alike (limit : Nat) (nested other : Nested) : Prop where
  enough : limit ≤ nested.bound
  enoughOther : limit ≤ other.bound
  shapeExpr : Paced (limit - 1) (fun _ => true) nested.shapeExpr other.shapeExpr
  tripleExpr : Paced (limit - 1) (fun _ => true) nested.tripleExpr other.tripleExpr

/-- What agrees under a limit agrees under a smaller one. -/
theorem Nested.Alike.mono {limit limit' : Nat} {nested other : Nested}
    (alike : nested.Alike limit other) (fewer : limit' ≤ limit) : nested.Alike limit' other where
  enough := Nat.le_trans fewer alike.enough
  enoughOther := Nat.le_trans fewer alike.enoughOther
  shapeExpr := alike.shapeExpr.mono (Nat.sub_le_sub_right fewer 1)
  tripleExpr := alike.tripleExpr.mono (Nat.sub_le_sub_right fewer 1)

theorem atExtraPredicate_steady : Steady (fun _ => false) atExtraPredicate := by
  refine .of_paced fun limit => .after (atIri_steady.paced limit) fun named => ?_
  exact .ite (fun _ => .pure rfl) fun _ => .after (rest_steady.paced limit) fun text => .pure rfl

theorem extraRound_paced (names : Names) {limit : Nat} {again other : Scan (List Json)}
    (rest : Paced (limit - 1) (fun _ => false) again other) :
    Paced limit (fun _ => false) (extraRound names again) (extraRound names other) := by
  refine .after (atExtraPredicate_steady.paced limit) fun found =>
    .ite (fun _ => ?_) fun _ => .pure rfl
  refine .past ((predicate_steady names).paced limit) fun first => ?_
  exact .after rest fun others => .pure rfl

/-- An extra list is read alike for any two bounds that are large enough, as
each predicate takes a character. -/
theorem extraPredicates_paced (names : Names) {bound other limit : Nat} (enough : limit ≤ bound)
    (enoughOther : limit ≤ other) :
    Paced limit (fun _ => false) (extraPredicates names bound) (extraPredicates names other) :=
  Paced.loop (extraLoop names) (extraLoop names) (fun _ _ => false)
    (fun _ _ _ rest _ => extraRound_paced names (rest ())) (Nat.le_refl limit) enough enoughOther ()

theorem headRound_paced (names : Names) {bound otherBound limit : Nat}
    (enough : limit ≤ bound + 1) (enoughOther : limit ≤ otherBound + 1)
    {again other : Scan (List Json × Bool)}
    (rest : Paced (limit - 1) (fun _ => false) again other) :
    Paced limit (fun _ => false) (headRound names bound again)
      (headRound names otherBound other) := by
  refine .test ((tryKeyword_steady (by decide)).paced limit) ?_ ?_
  · refine .after (extraPredicates_paced names (by omega) (by omega)) fun first => ?_
    exact .after rest fun (others, closed) => .pure rfl
  · refine .test ((tryKeyword_steady (by decide)).paced limit) ?_ (.pure rfl)
    exact .after rest fun (extra, _) => .pure rfl

/-- The head of a shape is read alike. Each round starts with a keyword. -/
theorem shapeHead_paced (names : Names) {bound other limit : Nat} (enough : limit ≤ bound)
    (enoughOther : limit ≤ other) :
    Paced limit (fun _ => false) (shapeHead names bound) (shapeHead names other) :=
  Paced.loop (headLoop names) (headLoop names) (fun _ _ => false)
    (fun _ enough enoughOther rest _ => headRound_paced names enough enoughOther (rest ()))
    (Nat.le_refl limit) enough enoughOther ()

section

variable {names : Names} {limit : Nat} {nested other : Nested}

/-- A shape definition reads at least its braces, so what is nested has less
text left. -/
theorem shapeDefinitionWith_paced (alike : nested.Alike limit other) :
    Paced limit (fun _ => true) (shapeDefinitionWith names nested)
      (shapeDefinitionWith names other) := by
  refine .after (shapeHead_paced names alike.enough alike.enoughOther) fun (extra, closed) => ?_
  refine .past ((expect_steady (by decide)).paced limit) fun _ => ?_
  refine .test ((tryText_steady (by decide)).paced _) (.pure rfl) ?_
  refine .after alike.tripleExpr fun expression => ?_
  exact .after ((expect_steady (by decide)).paced _) fun _ => .pure rfl

theorem atShapeOrRef_steady : Steady (fun _ => false) atShapeOrRef := by
  refine .of_paced fun limit => .after (peek_steady.paced limit) fun next => ?_
  refine .ite (fun _ => .pure rfl) fun _ =>
    .after ((atKeyword_steady _).paced limit) fun extra => ?_
  exact .ite (fun _ => .pure rfl) fun _ => (atKeyword_steady _).paced limit

theorem atNonLiteralKind_steady : Steady (fun _ => false) atNonLiteralKind := by
  refine .of_paced fun limit => .after ((atKeyword_steady _).paced limit) fun iri => ?_
  refine .ite (fun _ => .pure rfl) fun _ =>
    .after ((atKeyword_steady _).paced limit) fun bnode => ?_
  exact .ite (fun _ => .pure rfl) fun _ => (atKeyword_steady _).paced limit

theorem shapeOrRef_paced (alike : nested.Alike limit other) :
    Paced limit (fun _ => true) (shapeOrRef names nested) (shapeOrRef names other) := by
  refine .test ((tryText_steady (by decide)).paced limit) ?_ (shapeDefinitionWith_paced alike)
  exact .after ((label_steady names).paced _) fun found => .pure rfl

/-- An operand surely reads something, in each of its forms. -/
theorem shapeAtom_paced (alike : nested.Alike limit other) :
    Paced limit (fun _ => true) (shapeAtom names nested) (shapeAtom names other) := by
  have later := alike.mono (Nat.sub_le limit 1)
  refine .look looks_peek fun c few => ?_
  dsimp only
  split
  · next bracket =>
    refine Paced.step ?_ (by rintro none; rw [none] at bracket; cases bracket) few
    refine .after alike.shapeExpr fun expr => ?_
    exact .after ((expect_steady (by decide)).paced _) fun _ => .pure rfl
  · split
    · next point =>
      exact Paced.step (.pure rfl) (by rintro none; rw [none] at point; cases point) few
    · refine Paced.after (atShapeOrRef_steady.paced limit) (fun braces => ?_) c few
      refine .ite (fun _ => ?_) fun _ => ?_
      · refine .past (shapeOrRef_paced alike) fun shape => ?_
        refine .after (atNonLiteralKind_steady.paced _) fun kind =>
          .ite (fun _ => ?_) fun _ => .pure rfl
        refine .after (nodeConstraint?_paced names later.enough later.enoughOther) fun found => ?_
        cases found <;> exact .pure rfl
      · refine .bind (nodeConstraint?_paced names alike.enough alike.enoughOther) fun found => ?_
        cases found with
        | none => exact .fail _
        | some nc =>
          refine .ite (fun _ => ?_) fun _ => .pure rfl
          refine .after (atShapeOrRef_steady.paced _) fun braces =>
            .ite (fun _ => ?_) fun _ => .pure rfl
          exact .after (shapeOrRef_paced later) fun shape => .pure rfl

theorem shapeNot_paced (alike : nested.Alike limit other) :
    Paced limit (fun _ => true) (shapeNot names nested) (shapeNot names other) := by
  refine .test ((tryKeyword_steady (by decide)).paced limit) ?_ (shapeAtom_paced alike)
  exact .after (shapeAtom_paced (alike.mono (Nat.sub_le _ _))) fun expr => .pure rfl

theorem shapeAnd_paced (alike : nested.Alike limit other) :
    Paced limit (fun _ => true) (shapeAnd names nested) (shapeAnd names other) := by
  have later := alike.mono (Nat.sub_le limit 1)
  refine .past (shapeNot_paced alike) fun first => ?_
  refine .after (operandsAfter_paced (tryKeyword_steady (by decide))
    ((shapeNot_paced later).mono (Nat.sub_le _ _)) later.enough later.enoughOther) fun others => ?_
  exact .pure rfl

/-- A shape expression reads at least its first operand. -/
theorem shapeExprWith_paced (alike : nested.Alike limit other) :
    Paced limit (fun _ => true) (shapeExprWith names nested) (shapeExprWith names other) := by
  have later := alike.mono (Nat.sub_le limit 1)
  refine .past (shapeAnd_paced alike) fun first => ?_
  refine .after (operandsAfter_paced (tryKeyword_steady (by decide))
    ((shapeAnd_paced later).mono (Nat.sub_le _ _)) later.enough later.enoughOther) fun others => ?_
  exact .pure rfl

/-! ### Triple expressions -/

theorem braceBounds_steady : Steady (fun _ => true) braceBounds := by
  refine .of_paced fun limit => .past ((expect_steady (by decide)).paced limit) fun _ => ?_
  refine .after (count_steady.paced _) fun min => ?_
  have close : ∀ max : Json, Paced (limit - 1) (fun _ => false)
      (do expect "\x7d"; return ({ min := .int min, max } : Bounds))
      (do expect "\x7d"; return ({ min := .int min, max } : Bounds)) :=
    fun max => .after ((expect_steady (by decide)).paced _) fun _ => .pure rfl
  refine .after ((tryText_steady (by decide)).paced _) fun comma =>
    .ite (fun _ => ?_) fun _ => close _
  refine .after ((tryText_steady (by decide)).paced _) fun star =>
    .ite (fun _ => close _) fun _ => ?_
  refine .after (peek_steady.paced _) fun next => .ite (fun _ => close _) fun _ => ?_
  exact .after (count_steady.paced _) fun max => close _

theorem cardinality?_steady : Steady Option.isSome cardinality? := by
  refine .of_paced fun limit => .after (atEnd_steady.paced limit) fun ended => ?_
  refine .ite (fun _ => .pure rfl) fun _ => ?_
  refine .test ((tryText_steady (by decide)).paced limit) (.pure rfl) ?_
  refine .test ((tryText_steady (by decide)).paced limit) (.pure rfl) ?_
  refine .test ((tryText_steady (by decide)).paced limit) (.pure rfl) ?_
  refine .after (rest_steady.paced limit) fun text => .ite (fun _ => ?_) fun _ => .pure rfl
  exact .past (braceBounds_steady.paced limit) fun bounds => .pure rfl

/-- The value of a triple constraint may be missing; it stands behind the
predicate. -/
theorem constraintValue_paced (alike : nested.Alike (limit + 1) other) :
    Paced limit (fun _ => false) (constraintValue nested) (constraintValue other) := by
  refine .after (peek_steady.paced limit) fun next => .ite (fun _ => ?_) fun _ => ?_
  · exact .after ((advance_steady 1).paced limit) fun _ => .pure rfl
  · refine .ite (fun _ => .pure rfl) fun _ => .after (rest_steady.paced limit) fun text => ?_
    exact .ite (fun _ => .pure rfl) fun _ => alike.shapeExpr.weaken

/-- A triple constraint reads at least its predicate. -/
theorem tripleConstraintWith_paced (alike : nested.Alike limit other) (id : Json) :
    Paced limit (fun _ => true) (tripleConstraintWith names nested id)
      (tripleConstraintWith names other id) := by
  cases limit with
  | zero => exact .zero
  | succ limit =>
    refine .after ((tryText_steady (by decide)).paced _) fun inverse => ?_
    refine .past ((predicate_steady names).paced _) fun predicate => ?_
    refine .after (constraintValue_paced alike) fun value => ?_
    exact .after (cardinality?_steady.paced _) fun bounds => .pure rfl

theorem tripleLabel?_steady (names : Names) : Steady (fun _ => false) (tripleLabel? names) := by
  refine .of_paced fun limit => .test ((tryText_steady (by decide)).paced limit) ?_ (.pure rfl)
  exact .after ((label_steady names).paced _) fun found => .pure rfl

theorem tripleItem_paced (alike : nested.Alike limit other) :
    Paced limit (fun _ => true) (tripleItem names nested) (tripleItem names other) := by
  refine .test ((tryText_steady (by decide)).paced limit) ?_ ?_
  · exact .after ((label_steady names).paced _) fun found => .pure rfl
  · refine .after ((tripleLabel?_steady names).paced limit) fun id => ?_
    refine .test ((tryText_steady (by decide)).paced limit) ?_ (tripleConstraintWith_paced alike id)
    refine .after alike.tripleExpr fun expr => ?_
    refine .after ((expect_steady (by decide)).paced _) fun _ => ?_
    exact .after (cardinality?_steady.paced _) fun bounds => .pure rfl

theorem itemSeparator_steady : Steady id itemSeparator := by
  refine .of_paced fun limit => .test ((tryText_steady (by decide)).paced limit) ?_ (.pure rfl)
  refine .after (peek_steady.paced _) fun next => ?_
  cases next <;> exact .pure rfl

theorem tripleGroup_paced (alike : nested.Alike limit other) :
    Paced limit (fun _ => true) (tripleGroup names nested) (tripleGroup names other) := by
  have later := alike.mono (Nat.sub_le limit 1)
  refine .past (tripleItem_paced alike) fun first => ?_
  refine .after (operandsAfter_paced itemSeparator_steady
    ((tripleItem_paced later).mono (Nat.sub_le _ _)) later.enough later.enoughOther)
      fun others => ?_
  exact .pure rfl

/-- A triple expression reads at least its first item. -/
theorem tripleExprWith_paced (alike : nested.Alike limit other) :
    Paced limit (fun _ => true) (tripleExprWith names nested) (tripleExprWith names other) := by
  have later := alike.mono (Nat.sub_le limit 1)
  refine .past (tripleGroup_paced alike) fun first => ?_
  refine .after (operandsAfter_paced (tryText_steady (by decide))
    ((tripleGroup_paced later).mono (Nat.sub_le _ _)) later.enough later.enoughOther)
      fun others => ?_
  exact .pure rfl

end

/-- The readers for any two bounds agree where less text is left than both of
them allow for. Induction on the text left, for both kinds of expressions at
once. -/
theorem nested_alike (names : Names) {limit bound other : Nat} (enough : limit ≤ bound)
    (enoughOther : limit ≤ other) : (nested names bound).Alike limit (nested names other) := by
  induction limit generalizing bound other with
  | zero => exact ⟨Nat.zero_le _, Nat.zero_le _, .zero, .zero⟩
  | succ limit ih =>
    refine ⟨enough, enoughOther, ?_, ?_⟩
    · obtain ⟨bound, rfl⟩ := Nat.exists_eq_add_of_le' enough
      obtain ⟨other, rfl⟩ := Nat.exists_eq_add_of_le' enoughOther
      exact shapeExprWith_paced (ih (Nat.le_add_left _ _) (Nat.le_add_left _ _))
    · obtain ⟨bound, rfl⟩ := Nat.exists_eq_add_of_le' enough
      obtain ⟨other, rfl⟩ := Nat.exists_eq_add_of_le' enoughOther
      exact tripleExprWith_paced (ih (Nat.le_add_left _ _) (Nat.le_add_left _ _))

/-- For bounds above the text that is left, shape expressions are read alike
whatever the bound. -/
theorem shapeExpr_paced (names : Names) {limit bound other : Nat} (enough : limit < bound)
    (enoughOther : limit < other) :
    Paced limit (fun _ => true) (shapeExpr names bound) (shapeExpr names other) :=
  (nested_alike names enough enoughOther).shapeExpr

theorem tripleExpr_paced (names : Names) {limit bound other : Nat} (enough : limit < bound)
    (enoughOther : limit < other) :
    Paced limit (fun _ => true) (tripleExpr names bound) (tripleExpr names other) :=
  (nested_alike names enough enoughOther).tripleExpr

/-! ### Schemas -/

theorem atShapeDecl_steady : Steady (fun _ => false) atShapeDecl := by
  refine .of_paced fun limit => .after (atIri_steady.paced limit) fun named => ?_
  exact .ite (fun _ => .pure rfl) fun _ => .after (rest_steady.paced limit) fun text => .pure rfl

theorem shapeDecl_paced (names : Names) (abstract : Bool) {limit bound other : Nat}
    (enough : limit ≤ bound) (enoughOther : limit ≤ other) :
    Paced limit (fun _ => true) (shapeDecl names bound abstract)
      (shapeDecl names other abstract) := by
  cases limit with
  | zero => exact .zero
  | succ limit =>
    refine .past ((label_steady names).paced _) fun id => ?_
    refine .after ((tryKeyword_steady (by decide)).paced _) fun outside => ?_
    refine .ite (fun _ => .pure rfl) fun _ => ?_
    refine .after (shapeExpr_paced names enough enoughOther) fun expr => ?_
    cases expr <;> exact .pure rfl

end Scan

open Scan

theorem namespaceDecl_steady (progress : Progress) :
    Steady (fun _ => true) (namespaceDecl progress) := by
  refine .of_paced fun limit => .bind (tryNamespaceName_steady.paced limit) fun found => ?_
  cases found with
  | none => exact .fail _
  | some name => exact .past ((resolvedIriRef_steady progress.names).paced _) fun iri => .pure rfl

/-- A statement surely reads something: a keyword, or the label of a
declaration. -/
theorem statement_paced (progress : Progress) {limit bound other : Nat} (enough : limit ≤ bound)
    (enoughOther : limit ≤ other) :
    Paced limit (fun _ => true) (statement bound progress) (statement other progress) := by
  cases limit with
  | zero => exact .zero
  | succ limit =>
    refine .test ((tryKeyword_steady (by decide)).paced _)
      ((namespaceDecl_steady progress).paced _).weaken ?_
    refine .test ((tryKeyword_steady (by decide)).paced _) ?_ ?_
    · exact .after ((resolvedIriRef_steady progress.names).paced _) fun base => .pure rfl
    refine .test ((tryKeyword_steady (by decide)).paced _) ?_ ?_
    · exact .after ((iri_steady progress.names).paced _) fun found => .pure rfl
    refine .test ((tryKeyword_steady (by decide)).paced _) ?_ ?_
    · refine .after ((expect_steady (by decide)).paced _) fun _ => ?_
      exact .after (shapeExpr_paced progress.names enough enoughOther) fun expr => .pure rfl
    refine .test ((tryKeyword_steady (by decide)).paced _) ?_ ?_
    · exact .after (shapeDecl_paced progress.names true (Nat.le_of_succ_le enough)
        (Nat.le_of_succ_le enoughOther)) fun decl => .pure rfl
    refine .after (atShapeDecl_steady.paced _) fun found => .ite (fun _ => ?_) fun _ => .fail _
    exact .past (shapeDecl_paced progress.names false enough enoughOther) fun decl => .pure rfl

theorem statementsRound_paced {limit bound otherBound : Nat} (enough : limit ≤ bound)
    (enoughOther : limit ≤ otherBound) {again other : Progress → Scan Schema}
    (rest : ∀ progress, Paced (limit - 1) (fun _ => false) (again progress) (other progress))
    (progress : Progress) :
    Paced limit (fun _ => false) (statementsRound bound again progress)
      (statementsRound otherBound other progress) := by
  refine .after (atEnd_steady.paced limit) fun ended => .ite (fun _ => .pure rfl) fun _ => ?_
  exact .past (statement_paced progress enough enoughOther) rest

/-- A schema is read alike for any two bounds that are large enough, and so is
the number of rounds. -/
theorem statements_paced (progress : Progress) {limit bound otherBound left otherLeft : Nat}
    (enough : limit ≤ bound) (enoughOther : limit ≤ otherBound) (many : limit ≤ left)
    (manyOther : limit ≤ otherLeft) :
    Paced limit (fun _ => false) (statements bound left progress)
      (statements otherBound otherLeft progress) :=
  Paced.loop (statementsLoop bound) (statementsLoop otherBound) (fun _ _ => false)
    (fun below _ _ rest => statementsRound_paced (below.trans enough)
      (below.trans enoughOther) rest)
    (Nat.le_refl limit) many manyOther progress

/-! ### All readers -/

namespace Scan

theorem tryText_onward (text : String) : Steady (fun _ => false) (tryText text) := by
  intro c
  rw [tryText_eq]
  split
  · exact (advance_steady text.length c.skip).of_skip
  · exact skip_steady c

theorem expect_onward (text : String) : Steady (fun _ => false) (expect text) := by
  refine .of_paced fun limit => .after ((tryText_onward text).paced limit) fun found => ?_
  exact .ite (fun _ => .pure rfl) fun _ => .fail _

theorem tryKeyword_onward (keyword : String) : Steady (fun _ => false) (tryKeyword keyword) := by
  refine .of_paced fun limit => .after ((atKeyword_steady keyword).paced limit) fun found => ?_
  refine .ite (fun _ => ?_) fun _ => .pure rfl
  exact .after ((advance_steady _).paced limit) fun _ => .pure rfl

end Scan

inductive Reader : Type → Type where
  | skip : Reader Unit
  | peek : Reader (Option Char)
  | rest : Reader (List Char)
  | atEnd : Reader Bool
  | tryText (text : String) : Reader Bool
  | expect (text : String) : Reader Unit
  | atKeyword (keyword : String) : Reader Bool
  | tryKeyword (keyword : String) : Reader Bool
  | tryNumeral : Reader (Option Numeral)
  | tryLanguageTag : Reader (Option (List Char))
  | tryNamespaceName : Reader (Option (List Char))
  | iriRef : Reader String
  | atPrefixedName : Reader Bool
  | prefixedName : Reader (String × String)
  | string : Reader String
  | resolvedIriRef : Reader String
  | iri : Reader String
  | atIri : Reader Bool
  | label : Reader String
  | predicate : Reader String
  | number : Reader Json
  | count : Reader Int
  | regexp : Reader (String × Option String)
  | literal : Reader Literal
  | atLiteral : Reader Bool
  | languageTag : Reader String
  | exclusions (kind : StemKind) : Reader (List Exclusion)
  | entry : Reader ValueSetEntry
  | valueSet : Reader (List ValueSetEntry)
  | facets (nc : NodeConstraint) (found : Bool) : Reader (NodeConstraint × Bool)
  | nodeConstraint? : Reader (Option NodeConstraint)
  | shapeDefinition : Reader ShapeExpr
  | atShapeOrRef : Reader Bool
  | shapeOrRef : Reader ShapeExpr
  | shapeAtom : Reader ShapeExpr
  | shapeNot : Reader ShapeExpr
  | shapeAnd : Reader ShapeExpr
  | shapeExpr : Reader ShapeExpr
  | cardinality? : Reader (Option Bounds)
  | tripleConstraint (id : Json) : Reader TripleExpr
  | tripleItem : Reader TripleExpr
  | tripleGroup : Reader TripleExpr
  | tripleExpr : Reader TripleExpr
  | shapeDecl (abstract : Bool) : Reader ShapeDecl
  | statement (progress : Progress) : Reader Progress
  | statements (progress : Progress) : Reader Schema

namespace Reader

/-- What a reader does, under names and with a bound. -/
def scan (names : Names) (bound : Nat) : {α : Type} → Reader α → Scan α
  | _, skip => Scan.skip
  | _, peek => Scan.peek
  | _, rest => Scan.rest
  | _, atEnd => Scan.atEnd
  | _, tryText text => Scan.tryText text
  | _, expect text => Scan.expect text
  | _, atKeyword keyword => Scan.atKeyword keyword
  | _, tryKeyword keyword => Scan.tryKeyword keyword
  | _, tryNumeral => Scan.tryNumeral
  | _, tryLanguageTag => Scan.tryLanguageTag
  | _, tryNamespaceName => Scan.tryNamespaceName
  | _, iriRef => Scan.iriRef
  | _, atPrefixedName => Scan.atPrefixedName
  | _, prefixedName => Scan.prefixedName
  | _, string => Scan.string
  | _, resolvedIriRef => Scan.resolvedIriRef names
  | _, iri => Scan.iri names
  | _, atIri => Scan.atIri
  | _, label => Scan.label names
  | _, predicate => Scan.predicate names
  | _, number => Scan.number
  | _, count => Scan.count
  | _, regexp => Scan.regexp
  | _, literal => Scan.literal names
  | _, atLiteral => Scan.atLiteral
  | _, languageTag => Scan.languageTag
  | _, exclusions kind => Scan.exclusions names kind bound
  | _, entry => Scan.entry names bound
  | _, valueSet => Scan.valueSet names bound
  | _, facets nc found => Scan.facets nc found bound
  | _, nodeConstraint? => Scan.nodeConstraint? names bound
  | _, shapeDefinition => Scan.shapeDefinition names bound
  | _, atShapeOrRef => Scan.atShapeOrRef
  | _, shapeOrRef => Scan.shapeOrRef names (nested names bound)
  | _, shapeAtom => Scan.shapeAtom names (nested names bound)
  | _, shapeNot => Scan.shapeNot names (nested names bound)
  | _, shapeAnd => Scan.shapeAnd names (nested names bound)
  | _, shapeExpr => Scan.shapeExpr names bound
  | _, cardinality? => Scan.cardinality?
  | _, tripleConstraint id => Scan.tripleConstraintWith names (nested names bound) id
  | _, tripleItem => Scan.tripleItem names (nested names bound)
  | _, tripleGroup => Scan.tripleGroup names (nested names bound)
  | _, tripleExpr => Scan.tripleExpr names bound
  | _, shapeDecl abstract => Scan.shapeDecl names bound abstract
  | _, statement progress => Compact.statement bound progress
  | _, statements progress => Compact.statements bound bound progress

/-- Whether a reader moves on whenever it returns. The others may read nothing. -/
def moves {α : Type} : Reader α → Bool
  | iriRef | prefixedName | string | resolvedIriRef | iri | label | predicate | number | count
  | regexp | literal | languageTag | entry | valueSet | shapeDefinition | shapeOrRef | shapeAtom
  | shapeNot | shapeAnd | shapeExpr | tripleConstraint _ | tripleItem | tripleGroup | tripleExpr
  | shapeDecl _ | statement _ => true
  | _ => false

/-- With a bound above the characters left, every reader advances, and a larger
bound changes nothing. -/
theorem scan_paced (names : Names) {limit bound other : Nat} (enough : limit < bound)
    (enoughOther : limit < other) {α : Type} (reader : Reader α) :
    Paced limit (fun _ => reader.moves) (reader.scan names bound) (reader.scan names other) := by
  have alike := nested_alike names enough.le enoughOther.le
  cases reader with
  | skip => exact skip_steady.paced limit
  | peek => exact peek_steady.paced limit
  | rest => exact rest_steady.paced limit
  | atEnd => exact atEnd_steady.paced limit
  | tryText text => exact (tryText_onward text).paced limit
  | expect text => exact (expect_onward text).paced limit
  | atKeyword keyword => exact (atKeyword_steady keyword).paced limit
  | tryKeyword keyword => exact (tryKeyword_onward keyword).paced limit
  | tryNumeral => exact (tryNumeral_steady.paced limit).weaken
  | tryLanguageTag => exact (tryLanguageTag_steady.paced limit).weaken
  | tryNamespaceName => exact (tryNamespaceName_steady.paced limit).weaken
  | iriRef => exact iriRef_steady.paced limit
  | atPrefixedName => exact atPrefixedName_steady.paced limit
  | prefixedName => exact prefixedName_steady.paced limit
  | string => exact string_steady.paced limit
  | resolvedIriRef => exact (resolvedIriRef_steady names).paced limit
  | iri => exact (iri_steady names).paced limit
  | atIri => exact atIri_steady.paced limit
  | label => exact (label_steady names).paced limit
  | predicate => exact (predicate_steady names).paced limit
  | number => exact number_steady.paced limit
  | count => exact count_steady.paced limit
  | regexp => exact regexp_steady.paced limit
  | literal => exact (literal_steady names).paced limit
  | atLiteral => exact atLiteral_steady.paced limit
  | languageTag => exact languageTag_steady.paced limit
  | exclusions kind => exact exclusions_paced names kind enough.le enoughOther.le
  | entry => exact entry_paced names (by omega) (by omega)
  | valueSet => exact valueSet_paced names (by omega) (by omega)
  | facets nc found => exact (facets_paced nc found enough.le enoughOther.le).weaken
  | nodeConstraint? => exact (nodeConstraint?_paced names enough.le enoughOther.le).weaken
  | shapeDefinition => exact shapeDefinitionWith_paced alike
  | atShapeOrRef => exact atShapeOrRef_steady.paced limit
  | shapeOrRef => exact shapeOrRef_paced alike
  | shapeAtom => exact shapeAtom_paced alike
  | shapeNot => exact shapeNot_paced alike
  | shapeAnd => exact shapeAnd_paced alike
  | shapeExpr => exact shapeExpr_paced names enough enoughOther
  | cardinality? => exact (cardinality?_steady.paced limit).weaken
  | tripleConstraint id => exact tripleConstraintWith_paced alike id
  | tripleItem => exact tripleItem_paced alike
  | tripleGroup => exact tripleGroup_paced alike
  | tripleExpr => exact tripleExpr_paced names enough enoughOther
  | shapeDecl abstract => exact shapeDecl_paced names abstract enough.le enoughOther.le
  | statement progress => exact statement_paced progress enough.le enoughOther.le
  | statements progress =>
    exact statements_paced progress enough.le enoughOther.le enough.le enoughOther.le

end Reader

/-! ### Reading comes to an end -/

/-- The kinds of faults that a text can have. -/
inductive FaultKind where
  /-- The text is malformed at a place. -/
  | malformed
  /-- A number, a code point or a base is not one. -/
  | badValue
  /-- The text ends where a character is asked for. -/
  | missingChar
  /-- A number is too large. -/
  | overflow
deriving DecidableEq, Repr

/-- The kind of a fault. A bound that is too small says nothing about the text
and has none. -/
def Fault.kind? : Fault → Option FaultKind
  | .malformed .. => some .malformed
  | .badEscape .dangling _ => some .missingChar
  | .badEscape (.badCodePoint _) _ | .badEscape .negativeCodePoint _ => some .badValue
  | .longInteger _ | .badBase _ => some .badValue
  | .infiniteCount => some .overflow
  | .outOfBound => none

theorem Fault.kind?_isSome {fault : Fault} (known : fault ≠ .outOfBound) :
    fault.kind?.isSome = true := by
  cases fault with
  | outOfBound => exact absurd rfl known
  | badEscape problem pos => cases problem <;> rfl
  | _ => rfl

/-- A schema that is read leaves nothing but blanks of the text. -/
theorem statements_atEnd (bound left : Nat) (progress : Progress) {c c' : Cursor} {result : Schema}
    (read : statements bound left progress c = .ok (result, c')) : c'.rest = [] := by
  induction left generalizing progress c with
  | zero => cases read
  | succ left ih =>
    rw [statements_succ] at read
    change (if c.skip.rest.isEmpty = true then _ else _ : Scan Schema) c.skip = _ at read
    split at read
    · next ended =>
      cases read
      exact List.isEmpty_iff.mp ended
    · simp only [Bind.bind, StateT.bind, Except.bind] at read
      split at read
      · cases read
      · exact ih _ read

/-- What the text of a schema comes to: a schema, with the reader at the end of
the text, or a fault of a known kind. -/
inductive Settles (text : List Char) : Prop where
  | read {result : Schema} {c : Cursor} (outcome : schema (Cursor.start text) = .ok (result, c))
    (parsed : parse text = .ok result) (same : c.text = text) (ended : c.rest = [])
    (behind : text.length ≤ c.pos) : Settles text
  | refused {fault : Fault} {kind : FaultKind} (outcome : schema (Cursor.start text) = .error fault)
    (parsed : parse text = .error fault) (known : fault.kind? = some kind) : Settles text

/-- Every text comes to a schema or to a fault of a known kind. The bound that
is taken from its length is large enough. -/
theorem settles (text : List Char) : Settles text := by
  have few : (Cursor.start text).rest.length < text.length + 1 := Nat.lt_succ_self _
  have room : text.length + 1 ≤ (Cursor.start text).bound := Nat.le_succ _
  have advances := (statements_paced {} room room room room _ few).2
  change Advances _ _ (schema (Cursor.start text)) at advances
  have run : parse text = Prod.fst <$> schema (Cursor.start text) := rfl
  cases outcome : schema (Cursor.start text) with
  | error fault =>
    rw [outcome] at run advances
    obtain ⟨kind, known⟩ := Option.isSome_iff_exists.mp (Fault.kind?_isSome advances)
    exact .refused outcome run known
  | ok pair =>
    obtain ⟨result, c⟩ := pair
    have ended : c.rest = [] := statements_atEnd _ _ _ outcome
    rw [outcome] at run advances
    have same : c.text = text := advances.1
    have none := c.length_rest
    rw [ended, List.length_nil, same] at none
    exact .read outcome run same ended (by omega)

/-! ### Where readers are entered again -/

/-- A loop is entered again only where less text is left: what it does at a
cursor is one round, in which anything may stand for the loop that does the
same where less text is left. -/
def Repeats {σ α : Type} (c : Cursor) (loop : σ → Scan α) (round : (σ → Scan α) → σ → Scan α) :
    Prop :=
  ∀ again : σ → Scan α,
    (∀ state c', c'.rest.length < c.rest.length → again state c' = loop state c') →
    ∀ state, loop state c = round again state c

/-- What is needed of a loop for this: its rounds are paced, as far as the text goes. -/
theorem Repeats.of_paced {σ α : Type} {c : Cursor} (loop : Loop σ α) (sure : σ → α → Bool)
    (step : ∀ {limit bound other : Nat} {again again' : σ → Scan α}, limit ≤ c.rest.length + 1 →
      limit ≤ bound + 1 → limit ≤ other + 1 →
      (∀ state, Paced (limit - 1) (sure state) (again state) (again' state)) →
      ∀ state, Paced limit (sure state) (loop.round bound again state)
      (loop.round other again' state)) {bound : Nat} (few : c.rest.length < bound) :
    Repeats c (loop.run bound) (loop.round bound) := by
  intro again same state
  obtain ⟨bound, rfl⟩ := Nat.exists_eq_add_of_lt few
  rw [loop.turn]
  refine (step (Nat.le_refl _) (by omega) (by omega) (fun state c' less => ?_) state c
    (Nat.lt_succ_self _)).1
  rw [Nat.add_sub_cancel] at less
  have early := Paced.loop loop loop sure step (Nat.le_succ c.rest.length)
    (Nat.le_add_right _ bound) (Nat.le_succ_of_le (Nat.le_add_right _ bound)) state
  exact ⟨(early c' less).1.trans (same state c' less).symm, (early c' less).2⟩

def OperandsRepeat {α : Type} (c : Cursor) (bound : Nat) (separator : Scan Bool)
    (operand : Scan α) : Prop :=
  Repeats c (fun _ : Unit => operandsAfter separator operand bound)
    (fun again _ => operandsRound separator operand (again ()))

/-- Operands are entered again only where less text is left, as a separator has
been read. -/
theorem operandsRepeat {α : Type} {c : Cursor} {bound : Nat} (few : c.rest.length < bound)
    {sure : α → Bool} {separator : Scan Bool} {operand : Scan α} (next : Steady id separator)
    (read : Paced c.rest.length sure operand operand) :
    OperandsRepeat c bound separator operand := by
  have below : ∀ {limit : Nat}, limit ≤ c.rest.length + 1 →
      Paced (limit - 1) sure operand operand :=
    fun fewer => read.mono (by omega)
  exact .of_paced (operandsLoop separator operand) (fun _ _ => false)
    (fun fewer _ _ rest _ => operandsRound_paced next (below fewer) (rest ())) few

/-- All places where a reader is entered again, from a cursor on: expressions
in expressions, and the rounds of the loops. -/
structure Reentries (names : Names) (bound : Nat) (c : Cursor) : Prop where
  expressions : ∀ again : Nested, c.rest.length < again.bound →
    (∀ c', c'.rest.length < c.rest.length →
      again.shapeExpr c' = shapeExpr names bound c' ∧
        again.tripleExpr c' = tripleExpr names bound c') →
    shapeExpr names bound c = shapeExprWith names again c ∧
      tripleExpr names bound c = tripleExprWith names again c
  conjunction : OperandsRepeat c bound (tryKeyword "AND") (shapeNot names (nested names bound))
  disjunction : OperandsRepeat c bound (tryKeyword "OR") (shapeAnd names (nested names bound))
  group : OperandsRepeat c bound itemSeparator (tripleItem names (nested names bound))
  alternatives : OperandsRepeat c bound (tryText "|") (tripleGroup names (nested names bound))
  exclusions : ∀ kind, Repeats c (fun _ : Unit => exclusions names kind bound)
    (fun again _ => operandsRound (tryText "-") (exclusion names kind) (again ()))
  entries : Repeats c (fun _ : Unit => entries names bound)
    (fun again _ => entriesRound names bound (again ()))
  facets : Repeats c (fun state : NodeConstraint × Bool => facets state.1 state.2 bound)
    (fun again state => facetsRound (fun nc found => again (nc, found)) state.1 state.2)
  extra : Repeats c (fun _ : Unit => extraPredicates names bound)
    (fun again _ => extraRound names (again ()))
  head : Repeats c (fun _ : Unit => shapeHead names bound)
    (fun again _ => headRound names bound (again ()))
  statements : Repeats c (statements bound bound) (statementsRound bound)

/-- Every reader is entered again only where less text is left. One case for
each place in the grammar. -/
theorem reentries (names : Names) {bound : Nat} {c : Cursor} (few : c.rest.length + 1 < bound) :
    Reentries names bound c := by
  have fewer : c.rest.length < bound := Nat.lt_of_succ_lt few
  have alike := nested_alike names fewer.le fewer.le
  constructor
  case expressions =>
    intro again room same
    obtain ⟨bound, rfl⟩ := Nat.exists_eq_add_of_lt few
    have shapes : Paced c.rest.length (fun _ => true) (shapeExpr names (c.rest.length + 1 + bound))
        again.shapeExpr := by
      intro c' less
      have early := shapeExpr_paced names
        (Nat.lt_of_lt_of_le (Nat.lt_succ_self _) (Nat.le_add_right _ bound))
        fewer c' less
      exact ⟨early.1.trans (same c' less).1.symm, early.2⟩
    have triples : Paced c.rest.length (fun _ => true)
      (tripleExpr names (c.rest.length + 1 + bound))
        again.tripleExpr := by
      intro c' less
      have early := tripleExpr_paced names
        (Nat.lt_of_lt_of_le (Nat.lt_succ_self _) (Nat.le_add_right _ bound)) fewer c' less
      exact ⟨early.1.trans (same c' less).2.symm, early.2⟩
    have inside : (nested names (c.rest.length + 1 + bound)).Alike (c.rest.length + 1) again :=
      ⟨Nat.le_add_right _ _, room, shapes, triples⟩
    rw [shapeExpr, tripleExpr]
    exact ⟨(shapeExprWith_paced inside c (Nat.lt_succ_self _)).1,
      (tripleExprWith_paced inside c (Nat.lt_succ_self _)).1⟩
  case conjunction =>
    exact operandsRepeat fewer (tryKeyword_steady (by decide)) (shapeNot_paced alike)
  case disjunction =>
    exact operandsRepeat fewer (tryKeyword_steady (by decide)) (shapeAnd_paced alike)
  case group => exact operandsRepeat fewer itemSeparator_steady (tripleItem_paced alike)
  case alternatives =>
    exact operandsRepeat fewer (tryText_steady (by decide)) (tripleGroup_paced alike)
  case exclusions =>
    intro kind
    rw [exclusions_eq]
    exact operandsRepeat fewer (tryText_steady (by decide)) ((exclusion_steady names kind).paced _)
  case entries =>
    exact .of_paced (entriesLoop names) (fun _ _ => true)
      (fun _ enough enoughOther rest _ => entriesRound_paced names enough enoughOther (rest ()))
        fewer
  case facets =>
    exact .of_paced facetsLoop (fun state result => result.2 && !state.2)
      (fun _ _ _ rest state => facetsRound_paced (fun nc found => rest (nc, found)) state.1 state.2)
        fewer
  case extra =>
    exact .of_paced (extraLoop names) (fun _ _ => false)
      (fun _ _ _ rest _ => extraRound_paced names (rest ())) fewer
  case head =>
    exact .of_paced (headLoop names) (fun _ _ => false)
      (fun _ enough enoughOther rest _ => headRound_paced names enough enoughOther (rest ())) fewer
  case statements =>
    refine .of_paced (statementsLoop bound) (fun _ _ => false) (fun short _ _ rest => ?_) fewer
    have enough := Nat.le_trans short fewer
    exact statementsRound_paced enough enough rest

/-! ### Values of the right kind -/

namespace Scan

/-- The bounds and the label of a triple expression that has them. -/
def fields? : TripleExpr → Option (Bounds × Json)
  | .constraint _ _ _ bounds id | .eachOf _ bounds id | .oneOf _ bounds id => some (bounds, id)
  | _ => none

theorem fields?_setBounds {expr : TripleExpr} {fields : Bounds × Json}
    (has : fields? expr = some fields) (bounds : Bounds) :
    fields? (setBounds bounds expr) = some (bounds, fields.2) := by
  cases expr <;> cases has <;> rfl

theorem fields?_setLabel {expr : TripleExpr} {fields : Bounds × Json}
    (has : fields? expr = some fields) (id : Json) :
    fields? (setLabel id expr) = some (fields.1, id) := by
  cases expr <;> cases has <;> rfl

/-- A triple expression that is read has bounds and a label, unless it is a
reference. -/
theorem sound_fields? {expr : TripleExpr} (sound : expr.Sound) {id : Json}
    (alone : needsGroup id expr = false) : ∃ fields, Scan.fields? expr = some fields := by
  cases expr with
  | reference label => cases alone
  | unsupported name =>
    have known := sound.known (.unsupportedTriple name) (by simp [TripleExpr.leaves])
    cases known
  | _ => exact ⟨_, rfl⟩

/-- What is given to brackets always lands in the fields of an expression that
has them. -/
theorem fields?_bracketed {expr : TripleExpr} (sound : expr.Sound) (id : Json)
    (bounds : Option Bounds) :
    ∃ inner : Bounds × Json,
      fields? (bracketed id bounds expr) =
        some (bounds.getD inner.1, if id.truthy then id else inner.2) ∧
      (needsGroup id expr = false → fields? expr = some inner) := by
  have inside : ∃ grouped inner, (if needsGroup id expr then .eachOf [expr] {} .null
    else expr) = grouped ∧
      fields? grouped = some inner ∧ (needsGroup id expr = false → fields? expr = some inner) := by
    cases group : needsGroup id expr with
    | true => exact ⟨_, ({}, .null), rfl, rfl, by rintro ⟨⟩⟩
    | false =>
      obtain ⟨fields, has⟩ := sound_fields? sound group
      exact ⟨expr, fields, rfl, has, fun _ => has⟩
  obtain ⟨grouped, inner, same, has, own⟩ := inside
  refine ⟨inner, ?_, own⟩
  have bounded : fields? (bounds.elim grouped (setBounds · grouped)) =
      some (bounds.getD inner.1, inner.2) := by
    cases bounds with
    | none => exact has
    | some bounds => exact fields?_setBounds has bounds
  have whole : bracketed id bounds expr =
      if id.truthy then setLabel id (bounds.elim grouped (setBounds · grouped))
      else bounds.elim grouped (setBounds · grouped) := by
    rw [← same]
    cases bounds <;> rfl
  rw [whole]
  cases id.truthy with
  | true => exact fields?_setLabel bounded id
  | false => exact bounded

/-- Wherever a reader relies on the kind of a value, the value is of that kind.
So a label or bounds that are given are never lost. -/
structure RightKinds (names : Names) : Prop where
  /-- Bounds and labels are given to expressions that have them. -/
  bracketed : ∀ {bound : Nat} {c c' : Cursor} {expr : TripleExpr},
    tripleExpr names bound c = .ok (expr, c') → ∀ (id : Json) (bounds : Option Bounds),
      ∃ inner : Bounds × Json,
        fields? (bracketed id bounds expr) =
          some (bounds.getD inner.1, if id.truthy then id else inner.2) ∧
        (needsGroup id expr = false → fields? expr = some inner)
  /-- A numeral is a whole number or a float, and its fractional part can be dropped. -/
  numeral : ∀ {found : Numeral} {value : Json}, found.value = .ok value →
    (∃ n, value = .int n) ∨ ∃ x, value = .float x
  /-- Shape expressions are well-typed and of known types. -/
  shapes : ∀ {bound : Nat} {c c' : Cursor} {expr : ShapeExpr},
    shapeExpr names bound c = .ok (expr, c') → expr.Sound

/-- The values that readers rely on are of the right kinds, as every expression
that is read is sound. -/
theorem rightKinds (names : Names) : RightKinds names where
  bracketed := fun read id bounds =>
    fields?_bracketed ((nested_sound names _).tripleExpr.of_ok read) id bounds
  numeral := by
    intro found value read
    unfold Numeral.value at read
    split at read
    · split at read
      · cases read
      · cases read
        exact .inl ⟨_, rfl⟩
    · cases read
      exact .inr ⟨_, rfl⟩
  shapes := fun read => (nested_sound names _).shapeExpr.of_ok read

end Scan

/-- What a reader comes to: it has not gone back, and if it is one that moves,
it is further on with less text left; or it fails with a fault of a known kind.
A larger bound changes nothing. -/
def Reader.Progresses {α : Type} (reader : Reader α) (names : Names) (bound : Nat) (c : Cursor) :
    Prop :=
  (match reader.scan names bound c with
    | .ok (_, c') => c'.text = c.text ∧ c.pos ≤ c'.pos ∧ c'.rest.length ≤ c.rest.length ∧
      (reader.moves = true → c.pos < c'.pos ∧ c'.rest.length < c.rest.length)
    | .error fault => fault.kind?.isSome = true) ∧
  ∀ other, bound ≤ other → reader.scan names other c = reader.scan names bound c

/-- Every reader progresses from every cursor, with a bound above the text that
is left. -/
theorem Reader.progresses {α : Type} (reader : Reader α) (names : Names) {bound : Nat} {c : Cursor}
    (few : c.rest.length + 1 < bound) : reader.Progresses names bound c := by
  refine ⟨?_, fun other more => ?_⟩
  · have advances := (reader.scan_paced names few few c (Nat.lt_succ_self _)).2
    cases outcome : reader.scan names bound c with
    | error fault =>
      rw [outcome] at advances
      exact Fault.kind?_isSome advances
    | ok pair =>
      rw [outcome] at advances
      obtain ⟨same, onward, read⟩ := advances
      refine ⟨same, onward, by omega, fun moving => ?_⟩
      rw [moving, Bool.toNat_true] at read
      exact ⟨Cursor.pos_lt_of_length_lt same read, read⟩
  · exact (reader.scan_paced names (Nat.lt_of_lt_of_le few more) few c (Nat.lt_succ_self _)).1

/-- Reading ends for every text, at its end or with a fault of a known kind: no
reader goes back, those that must move do, and nothing is entered again but
with less text left. -/
theorem reading_terminates :
    (∀ text : List Char, Settles text) ∧
    (∀ {α : Type} (reader : Reader α) (names : Names) (bound : Nat) (c : Cursor),
      c.rest.length + 1 < bound → reader.Progresses names bound c) ∧
    (∀ (names : Names) (bound : Nat) (c : Cursor), c.rest.length + 1 < bound →
      Reentries names bound c) ∧
    ∀ names : Names, RightKinds names :=
  ⟨settles, fun reader names _ _ few => reader.progresses names few,
    fun names _ _ few => reentries names few, rightKinds⟩

/-- A conjunction that lacks its last operand, and a string that ends inside an
escape. -/
theorem reading_terminates_unfinished :
    (Cursor.start "@<a> AND".toList).rest.length + 1 < 12 ∧
      Reader.shapeExpr.Progresses {} 12 (Cursor.start "@<a> AND".toList) ∧
      Reentries {} 12 (Cursor.start "@<a> AND".toList) ∧ Settles "<s> ['x\\".toList := by
  have few : (Cursor.start "@<a> AND".toList).rest.length + 1 < 12 := by decide
  refine ⟨few, ?_, ?_, ?_⟩
  · exact reading_terminates.2.1 .shapeExpr {} 12 _ few
  · exact reading_terminates.2.2.1 {} 12 _ few
  · exact reading_terminates.1 _

end ShapeQuery.Compact
