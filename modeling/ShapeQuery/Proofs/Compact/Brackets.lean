import ShapeQuery.Proofs.Compact.Cardinality

/-!
Brackets in a triple expression. What stands between them is read as it is by itself. The label and
the cardinality around it are put on a group of their own if both it and the brackets are labelled;
else they take the place of its own.
-/
namespace ShapeQuery.Compact

/-- A word that is read up to the end of a text is read in front of what stops
it, too. -/
theorem Token.reads_on {α : Type} {scan : Scan α} {find : List Char → Option (α × Nat)}
    (token : Token scan find) {c c' d : Cursor} {result : α} {behind : List Char}
    (read : scan c = .ok (result, c')) (spent : c'.rest = [])
    (here : skipText d.rest = skipText c.rest ++ behind)
    (same : ∀ {width}, find (skipText c.rest) = some (result, width) →
      (skipText c.rest).drop width = [] →
      width ≤ (skipText c.rest).length ∧ find (skipText c.rest ++ behind) = some (result, width)) :
    ∃ d', scan d = .ok (result, d') ∧ d'.rest = behind := by
  obtain ⟨width, found, rfl⟩ := token.find_eq read
  have used : (skipText c.rest).drop width = [] := spent
  obtain ⟨narrow, again⟩ := same found used
  rw [← here] at again
  refine ⟨d.skip.advance width, token.found again, ?_⟩
  rw [Cursor.advance_rest, Cursor.skip_rest, here, List.drop_append_of_le_length narrow, used,
    List.nil_append]

namespace Scan

/-! ### Labels in front of brackets -/

/-- An IRI at the end of a text is read in front of what stops it. A relative
one is resolved alike, as the same names are in force. -/
theorem iri_stops (names : Names) {c c' d : Cursor} {id : String} {behind : List Char}
    (stops : Stops behind) (read : iri names c = .ok (id, c')) (spent : c'.rest = [])
    (something : skipText c.rest ≠ []) (here : skipText d.rest = skipText c.rest ++ behind) :
    ∃ d', iri names d = .ok (id, d') ∧ d'.rest = behind := by
  have head : (skipText d.rest).head? = (skipText c.rest).head? := by
    rw [here, List.head?_append_of_ne_nil _ something]
  have still : skipText d.skip.rest = skipText c.skip.rest ++ behind := by
    rw [Cursor.skip_rest, Cursor.skip_rest, skipText_skipText, skipText_skipText, here]
  rw [iri, scan_bind_of_ok (looks_peek c)] at read
  rw [iri, scan_bind_of_ok (looks_peek d), head]
  split at read
  · next bracket =>
    rw [if_pos bracket]
    obtain ⟨written, middle, readRef, resolves⟩ := scan_bind_ok read
    cases resolved : names.resolve written with
    | error fault =>
      rw [resolved] at resolves
      cases resolves
    | ok value =>
      rw [resolved] at resolves
      cases resolves
      obtain ⟨d', readThere, left⟩ := iriRef_token.reads_on readRef spent still fun found _ =>
        (iriRef?_append found).imp_right fun same => same behind
      refine ⟨d', ?_, left⟩
      rw [resolvedIriRef, scan_bind_of_ok readThere, resolved]
      rfl
  · next other =>
    rw [if_neg other]
    obtain ⟨⟨name, localPart⟩, middle, readName, looksUp⟩ := scan_bind_ok read
    cases known : names.namespaces.lookup name with
    | none =>
      simp only [known] at looksUp
      cases looksUp
    | some space =>
      simp only [known] at looksUp
      cases looksUp
      obtain ⟨d', readThere, left⟩ := prefixedName_token.reads_on readName spent still
        fun found used => by
        rcases readName?_append found with jam | ⟨narrow, same⟩
        · exact absurd used jam.ne_nil
        · exact ⟨narrow, same stops⟩
      refine ⟨d', ?_, left⟩
      rw [scan_bind_of_ok readThere]
      simp only [known]
      rfl

/-- The name of a blank node ends at what stops it as it does at the end of a text. -/
theorem blankName_stops {c c' d : Cursor} {name behind : List Char} (stops : Stops behind)
    (read : lexeme? blankLabel? List.length c = .ok (some name, c')) (spent : c'.rest = [])
    (here : d.rest = c.rest ++ behind) :
    ∃ d', lexeme? blankLabel? List.length d = .ok (some name, d') ∧ d'.rest = behind := by
  have token := lexeme?_token blankLabel? List.length
  have something : skipText c.rest ≠ [] := by
    intro none
    obtain ⟨width, found, -⟩ := token.find_eq read
    rw [none] at found
    cases found
  refine token.reads_on read spent (by rw [here, skipText_append something stops]) fun found _ => ?_
  obtain ⟨named, wide⟩ := Prod.mk.inj (Option.some.inj found)
  rw [named] at wide
  rw [blankLabel?_append _ stops, named, ← wide]
  exact ⟨blankLabel?_narrow named, rfl⟩

theorem label_starts (names : Names) {c c' : Cursor} {id : String}
    (read : label names c = .ok (id, c')) : skipText c.rest ≠ [] := by
  intro none
  have miss : tryText "_:" c = .ok (false, c.skip) := tryText_miss (by decide) (by rw [none]; rfl)
  rw [label, scan_bind_of_ok miss, if_neg Bool.false_ne_true] at read
  refine iri_fails names ?_ ?_ id c' read
  · rw [Cursor.skip_rest, skipText_skipText, none]
    nofun
  · rw [Cursor.skip_rest, skipText_skipText, none]
    rfl

/-- A label is read in front of what stops it as at the end of a text. -/
theorem label_stops (names : Names) {c c' d : Cursor} {id : String} {behind : List Char}
    (stops : Stops behind) (read : label names c = .ok (id, c')) (spent : c'.rest = [])
    (here : d.rest = c.rest ++ behind) : ∃ d', label names d = .ok (id, d') ∧ d'.rest = behind := by
  have something := label_starts names read
  have seen : skipText d.rest = skipText c.rest ++ behind := by
    rw [here, skipText_append something stops]
  have alike : "_:".toList.isPrefixOf (skipText d.rest) =
      "_:".toList.isPrefixOf (skipText c.rest) := by
    rw [seen, isPrefixOf_append (by decide) _ stops]
  cases blank : "_:".toList.isPrefixOf (skipText c.rest) with
  | true =>
    rw [label, scan_bind_of_ok (tryText_start (by decide) blank), if_pos rfl] at read
    rw [label, scan_bind_of_ok (tryText_start (by decide) (alike.trans blank)), if_pos rfl]
    obtain ⟨found, middle, readName, named⟩ := scan_bind_ok read
    cases found with
    | none => cases named
    | some name =>
      cases named
      have there : (d.skip.advance "_:".length).rest =
          (c.skip.advance "_:".length).rest ++ behind := by
        rw [Cursor.advance_rest, Cursor.advance_rest, Cursor.skip_rest, Cursor.skip_rest, seen,
          List.drop_append_of_le_length (length_le_of_isPrefixOf blank)]
      obtain ⟨d', readThere, left⟩ := blankName_stops stops readName spent there
      exact ⟨d', scan_bind_of_ok readThere, left⟩
  | false =>
    rw [label, scan_bind_of_ok (tryText_miss (by decide) blank), if_neg Bool.false_ne_true] at read
    rw [label, scan_bind_of_ok (tryText_miss (by decide) (alike.trans blank)),
      if_neg Bool.false_ne_true]
    refine iri_stops names stops read spent ?_ ?_
    · rwa [Cursor.skip_rest, skipText_skipText]
    · rw [Cursor.skip_rest, Cursor.skip_rest, skipText_skipText, skipText_skipText, seen]

/-- What stands in front of brackets, and the label that it gives them:
nothing, or a label and a blank. -/
inductive Front (names : Names) : List Char → Json → Prop
  | unlabelled : Front names [] .null
  | labelled {text : List Char} {id : String} (read : ReadsWhole (fun _ => label names) text id) :
    Front names ('$' :: (text ++ [' '])) (.string id)

def insideBrackets (nested : Nested) (id : Json) : Scan TripleExpr := do
  let expr ← nested.tripleExpr
  expect ")"
  let bounds ← cardinality?
  return bracketed id bounds expr

theorem tryText_opens {c : Cursor} {rest : List Char} (here : skipText c.rest = '(' :: rest) :
    ∃ d, tryText "(" c = .ok (true, d) ∧ d.rest = rest := by
  refine ⟨c.skip.advance 1, tryText_start (by decide) (by rw [here]; rfl), ?_⟩
  rw [Cursor.advance_rest, Cursor.skip_rest, here]
  rfl

/-- In front of brackets the label is read that stands there, or none if the
bracket is first. -/
theorem tripleLabel?_front {names : Names} {front : List Char} {id : Json}
    (opening : Front names front id) {c : Cursor} {rest : List Char}
    (here : skipText c.rest = front ++ '(' :: rest) :
    ∃ d, tripleLabel? names c = .ok (id, d) ∧ skipText d.rest = '(' :: rest := by
  cases opening with
  | unlabelled =>
    have miss : tryText "$" c = .ok (false, c.skip) := tryText_miss (by decide) (by rw [here]; rfl)
    exact ⟨c.skip, scan_bind_of_ok miss, (skipText_skipText c.rest).trans here⟩
  | @labelled text id read =>
    have dollar : tryText "$" c = .ok (true, c.skip.advance 1) :=
      tryText_start (by decide) (by rw [here]; rfl)
    have after : (c.skip.advance 1).rest = text ++ ' ' :: '(' :: rest := by
      rw [Cursor.advance_rest, Cursor.skip_rest, here]
      simp
    obtain ⟨c', alone, spent⟩ := read
    obtain ⟨d, readLabel, behind⟩ := label_stops names ⟨' ', _, rfl, List.mem_cons_self⟩
      alone spent after
    refine ⟨d, ?_, by rw [behind]; rfl⟩
    rw [tripleLabel?, scan_bind_of_ok dollar, if_pos rfl, scan_bind_of_ok readLabel]
    rfl

/-- Behind the opening bracket of an item there is what it encloses. -/
theorem tripleItem_brackets {names : Names} {front : List Char} {id : Json}
    (opening : Front names front id) {c : Cursor} {rest : List Char}
    (here : skipText c.rest = front ++ '(' :: rest) :
    ∃ d, d.rest = rest ∧ ∀ nested, tripleItem names nested c = insideBrackets nested id d := by
  have noReference : tryText "&" c = .ok (false, c.skip) := by
    refine tryText_miss (by decide) ?_
    rw [here]
    cases opening <;> rfl
  obtain ⟨m, labelled, next⟩ := tripleLabel?_front (c := c.skip) opening
    ((skipText_skipText c.rest).trans here)
  obtain ⟨d, opened, inside⟩ := tryText_opens next
  refine ⟨d, inside, fun nested => ?_⟩
  rw [tripleItem, scan_bind_of_ok noReference, if_neg Bool.false_ne_true, scan_bind_of_ok labelled,
    scan_bind_of_ok opened, if_pos rfl, insideBrackets]

/-! ### What stands between brackets -/

def cardinalityText (k : Option Cardinality) : List Char :=
  k.elim [] Cardinality.text

theorem cardinalityText_plain (k : Option Cardinality) :
    '\n' ∉ cardinalityText k ∧ '/' ∉ cardinalityText k := by
  cases k with
  | none => exact ⟨List.not_mem_nil, List.not_mem_nil⟩
  | some k =>
    have newline := k.sequel.newline_not_mem
    have slash := k.sequel.slash_not_mem
    rw [Cardinality.sequel_text, List.mem_cons, not_or] at newline slash
    exact ⟨newline.2, slash.2⟩

/-- A closing bracket, and a cardinality right behind it. It follows an
expression without a blank between them. -/
def closingSequel (k : Option Cardinality) : Sequel where
  spaced := false
  mark := ')'
  more := cardinalityText k
  isMark := Sequel.isMark_closing
  adjacent := fun _ => rfl
  plain := cardinalityText_plain k
  noNumeral := rfl

/-- A triple expression in front of a closing bracket is read as at the end of
its text, unless a comment or an escape takes the bracket in. -/
theorem tripleExpr_closes (names : Names) {ι : Type} [Nonempty ι] {back : ι → Sequel}
    (closing : Closing back) (bound : Nat) :
    Continues back true Jammed (tripleExpr names bound) := by
  have unbraced : ∀ i, (back i).mark ≠ '{' := fun i => by rw [closing i]; decide
  cases bound with
  | zero => exact .throw _
  | succ bound =>
    obtain ⟨shape, triple, -⟩ := nested_faces names (Or.inl unbraced) bound
    exact tripleExprWith_continues names (fun _ => closing) ⟨(shape false).continues nofun, triple⟩
      ((shape true).continues fun _ => unbraced)

theorem tripleExpr_wider (names : Names) {bound other : Nat} {c : Cursor}
    (enough : c.rest.length + 1 < bound) (wider : bound ≤ other) :
    tripleExpr names bound c = tripleExpr names other c :=
  (tripleExpr_paced names enough (Nat.lt_of_lt_of_le enough wider) c (Nat.lt_succ_self _)).1

theorem tripleExpr_leaves (names : Names) (k : Option Cardinality) {e : List Char}
    {x : TripleExpr} (read : ReadsWhole (tripleExpr names) e x) {bound : Nat} {d : Cursor}
    (here : d.rest = e ++ ')' :: cardinalityText k) (enough : d.rest.length + 1 < bound) :
    Leaves (tripleExpr names) (')' :: cardinalityText k) (e ++ [')']) x
      (tripleExpr names bound d) := by
  obtain ⟨c', alone, spent⟩ := read
  obtain ⟨wide, fits, fitsAlone, fitsRival⟩ := exists_wide bound (Cursor.start e).bound
    (Cursor.start (e ++ [')'])).bound
  have start := tripleExpr_wider names (start_enough (e ++ [')'])) fitsRival
  rw [tripleExpr_wider names (start_enough e) fitsAlone] at alone
  rw [tripleExpr_wider names enough fits]
  -- The bracket with the cardinality behind it, and the bracket alone.
  have closing : Closing fun written : Bool => closingSequel (if written then k else none) :=
    fun _ => rfl
  have trails : Trails (fun written : Bool => closingSequel (if written then k else none)) true
      (Cursor.start e) fun written => if written then d else Cursor.start (e ++ [')']) := by
    refine Or.inl fun written => ?_
    cases written with
    | true => exact here
    | false => rfl
  rcases (tripleExpr_closes names closing wide).resumes alone trails with jam | ⟨⟨⟩, -⟩ | ⟨ds,
    same, trailing⟩
  · exact absurd spent jam.ne_nil
  · have written : tripleExpr names wide d = .ok (x, ds true) := same true
    rw [written]
    exact .of_trails trailing spent (start.trans (same false))

theorem cardinality?_optional (k : Option Cardinality) {c : Cursor}
    (here : c.rest = cardinalityText k) :
    ∃ c', cardinality? c = .ok (k.map Cardinality.bounds, c') ∧ c'.rest = [] := by
  cases k with
  | none =>
    exact ⟨c.skip, cardinality?_end (by rw [here]; rfl), by rw [Cursor.skip_rest, here]; rfl⟩
  | some k =>
    refine cardinality?_reads k ?_
    rw [here]
    exact k.sequel.skipText_seen

/-- An expression that is read up to the closing bracket gives what the
brackets mean, with the cardinality behind them. -/
theorem insideBrackets_reads (names : Names) (k : Option Cardinality) {bound : Nat} {d m : Cursor}
    {x : TripleExpr} (id : Json) (inside : tripleExpr names bound d = .ok (x, m))
    (left : skipText m.rest = ')' :: cardinalityText k) :
    ∃ d', insideBrackets (nested names bound) id d =
      .ok (bracketed id (k.map Cardinality.bounds) x, d') ∧
      d'.rest = [] := by
  obtain ⟨-, behind⟩ := expect_here ")" (c := m.skip) left (by decide) rfl
  have closes : expect ")" m = .ok ((), m.skip.advance 1) := by
    refine expect_start (by decide) ?_
    rw [left]
    rfl
  obtain ⟨d', counted, spent⟩ := cardinality?_optional k behind
  refine ⟨d', ?_, spent⟩
  have readInside : (nested names bound).tripleExpr d = .ok (x, m) := inside
  rw [insideBrackets, scan_bind_of_ok readInside, scan_bind_of_ok closes, scan_bind_of_ok counted]
  rfl

/-- If the text is used up before the closing bracket, the brackets are refused. -/
theorem insideBrackets_fails (names : Names) {bound : Nat} {d : Cursor} (id : Json)
    (nothing : ∀ x m, tripleExpr names bound d = .ok (x, m) → skipText m.rest = []) (y : TripleExpr)
    (d' : Cursor) : insideBrackets (nested names bound) id d ≠ .ok (y, d') := by
  intro read
  obtain ⟨x, m, inside, readRest⟩ := scan_bind_ok read
  obtain ⟨done, closed, closes, -⟩ := scan_bind_ok readRest
  refine absurd closes ((expect_token (by decide)).missed ?_ done closed)
  rw [nothing x m inside]
  rfl

/-- An item at the end of a text is a triple expression. -/
theorem tripleExpr_single (names : Names) {bound : Nat} {c m : Cursor} {y : TripleExpr}
    (item : tripleItem names (nested names (bound + 1)) c = .ok (y, m)) (spent : m.rest = []) :
    ∃ c', tripleExpr names (bound + 2) c = .ok (y, c') ∧ c'.rest = [] := by
  have room : 0 < (nested names (bound + 1)).bound := Nat.succ_pos bound
  have ended : m.skip.rest = [] := by
    rw [Cursor.skip_rest, spent]
    rfl
  have noItem : itemSeparator m = .ok (false, m.skip) := by
    refine scan_bind_of_ok (tryText_miss (by decide) ?_)
    rw [spent]
    rfl
  have noAlternative : tryText "|" m.skip = .ok (false, m.skip.skip) := by
    refine tryText_miss (by decide) ?_
    rw [ended]
    rfl
  have group : tripleGroup names (nested names (bound + 1)) c = .ok (y, m.skip) := by
    rw [tripleGroup, scan_bind_of_ok item, scan_bind_of_ok (operandsAfter_miss room noItem)]
    rfl
  refine ⟨m.skip.skip, ?_, by rw [Cursor.skip_skip, ended]⟩
  change tripleExprWith names (nested names (bound + 1)) c = _
  rw [tripleExprWith, scan_bind_of_ok group,
    scan_bind_of_ok (operandsAfter_miss room noAlternative)]
  rfl

/-- Brackets around an expression are read to their end, unless the closing one
belongs to a comment. -/
theorem tripleExpr_brackets {names : Names} {front e : List Char} {id : Json} {x : TripleExpr}
    (opening : Front names front id) (read : ReadsWhole (tripleExpr names) e x)
    (k : Option Cardinality) (y : TripleExpr) :
    ReadsWhole (tripleExpr names) (front ++ '(' :: (e ++ ')' :: cardinalityText k)) y ↔
      (¬ ∃ other, ReadsWhole (tripleExpr names) (e ++ [')']) other) ∧
        y = bracketed id (k.map Cardinality.bounds) x := by
  have seen : skipText (front ++ '(' :: (e ++ ')' :: cardinalityText k)) =
      front ++ '(' :: (e ++ ')' :: cardinalityText k) := by
    cases opening with
    | unlabelled => exact skipText_solid (by decide) _
    | labelled read => exact skipText_solid (by decide) _
  obtain ⟨d, inside, item⟩ := tripleItem_brackets opening
    (c := Cursor.start (front ++ '(' :: (e ++ ')' :: cardinalityText k))) seen
  have enough : d.rest.length + 1 < (front ++ '(' ::
      (e ++ ')' :: cardinalityText k)).length + 1 := by
    simp only [inside, List.length_append, List.length_cons]
    omega
  have leaves := tripleExpr_leaves names k read inside enough
  constructor
  · rintro ⟨c', all, spent⟩
    obtain ⟨group, last, readGroup, -⟩ := scan_bind_ok all
    obtain ⟨first, next, readItem, -⟩ := scan_bind_ok readGroup
    rcases leaves with ⟨⟨m, readInside, left⟩, closed⟩ | ⟨nothing, -⟩
    · refine ⟨closed, ?_⟩
      obtain ⟨d', whole, ended⟩ := insideBrackets_reads names k id readInside left
      obtain ⟨c'', single, -⟩ := tripleExpr_single names ((item _).trans whole) ended
      cases single.symm.trans all
      rfl
    · rw [item] at readItem
      exact absurd readItem (insideBrackets_fails names id nothing first next)
  · rintro ⟨closed, rfl⟩
    rcases leaves with ⟨⟨m, readInside, left⟩, -⟩ | ⟨-, rival⟩
    · obtain ⟨d', whole, ended⟩ := insideBrackets_reads names k id readInside left
      exact tripleExpr_single names ((item _).trans whole) ended
    · exact absurd rival closed

/-! ### What brackets keep -/

/-- The bounds of a triple expression; a reference has none. -/
def boundsOf : TripleExpr → Bounds
  | .constraint _ _ _ bounds _ | .eachOf _ bounds _ | .oneOf _ bounds _ => bounds
  | _ => {}

def operandsOf : TripleExpr → List TripleExpr
  | .eachOf operands _ _ | .oneOf operands _ _ => operands
  | _ => []

/-- An expression that stands in another one, at any depth of groups. -/
inductive Within (x : TripleExpr) : TripleExpr → Prop
  | self : Within x x
  | operand {y operand : TripleExpr} (member : operand ∈ operandsOf y) (inside : Within x operand) :
    Within x y

/-- Brackets with a label and bounds keep an expression: it is what they mean,
or it stands in a group that carries the label and the bounds. -/
def Keeps (id : Json) (bounds : Bounds) (x y : TripleExpr) : Prop :=
  y = x ∨ (labelOf y = id ∧ boundsOf y = bounds ∧ ∃ operand ∈ operandsOf y, Within x operand)

theorem sizeOf_operand {y operand : TripleExpr} (member : operand ∈ operandsOf y) :
    sizeOf operand < sizeOf y := by
  cases y with
  | eachOf operands bounds id =>
    have smaller := List.sizeOf_lt_of_mem member
    simp only [operandsOf, TripleExpr.eachOf.sizeOf_spec] at smaller ⊢
    omega
  | oneOf operands bounds id =>
    have smaller := List.sizeOf_lt_of_mem member
    simp only [operandsOf, TripleExpr.oneOf.sizeOf_spec] at smaller ⊢
    omega
  | reference _ | constraint _ _ _ _ _ | unsupported _ => cases member

theorem Within.sizeOf_le {x y : TripleExpr} (within : Within x y) : sizeOf x ≤ sizeOf y := by
  induction within with
  | self => exact Nat.le_refl _
  | operand member inside ih => exact Nat.le_trans ih (Nat.le_of_lt (sizeOf_operand member))

theorem not_within_operands {x operand : TripleExpr} (member : operand ∈ operandsOf x) :
    ¬ Within x operand :=
  fun within => absurd within.sizeOf_le (Nat.not_le.mpr (sizeOf_operand member))

theorem bracketed_labelled {id : Json} {x : TripleExpr} (outer : id.truthy = true)
    (inner : (labelOf x).truthy = true) (bounds : Option Bounds) :
    bracketed id bounds x = .eachOf [x] (bounds.getD {}) id := by
  have group : needsGroup id x = true := by
    cases x <;> simp_all [needsGroup]
  simp only [bracketed, group, outer, if_true]
  cases bounds <;> rfl

/-- Brackets without a group of their own change nothing but the label and the
bounds. -/
theorem bracketed_bare {id : Json} {x : TripleExpr} (own : boundsOf x ≠ {} ∨ labelOf x ≠ .null)
    (apart : ¬ (id.truthy = true ∧ (labelOf x).truthy = true)) (bounds : Option Bounds) :
    operandsOf (bracketed id bounds x) = operandsOf x ∧
      boundsOf (bracketed id bounds x) = bounds.getD (boundsOf x) ∧
      labelOf (bracketed id bounds x) = (if id.truthy then id else labelOf x) ∧
      (id.truthy = false → (∀ b ∈ bounds, b = boundsOf x) → bracketed id bounds x = x) := by
  have bare : needsGroup id x = false := by
    cases x with
    | reference label => exact absurd own (by simp [boundsOf, labelOf])
    | constraint _ _ _ _ _ | eachOf _ _ _ | oneOf _ _ _ | unsupported _ =>
      simpa [needsGroup] using apart
  simp only [bracketed, bare, Bool.false_eq_true, if_false]
  cases x with
  | reference _ | unsupported _ => exact absurd own (by simp [boundsOf, labelOf])
  | constraint _ _ _ _ _ | eachOf _ _ _ | oneOf _ _ _ =>
    cases bounds <;> cases id.truthy <;> simp_all [operandsOf, boundsOf, labelOf,
      setBounds, setLabel]

/-- An expression with a label or bounds of its own is kept by brackets with a
label if it has one too, and by brackets without a label if they have no bounds
or just its own. -/
theorem keeps_bracketed_iff {id : Json} {x : TripleExpr}
    (own : boundsOf x ≠ {} ∨ labelOf x ≠ .null) (bounds : Option Bounds) :
    Keeps id (bounds.getD {}) x (bracketed id bounds x) ↔
      (id.truthy = true ∧ (labelOf x).truthy = true) ∨
        (id.truthy = false ∧ ∀ b ∈ bounds, b = boundsOf x) := by
  by_cases both : id.truthy = true ∧ (labelOf x).truthy = true
  · refine iff_of_true (Or.inr ?_) (Or.inl both)
    rw [bracketed_labelled both.1 both.2]
    exact ⟨rfl, rfl, x, List.mem_cons_self, .self⟩
  · obtain ⟨sameOperands, newBounds, newLabel, same⟩ := bracketed_bare own both bounds
    constructor
    · rintro (kept | ⟨-, -, operand, member, within⟩)
      · rw [kept] at newBounds newLabel
        have unlabelled : id.truthy = false := by
          cases outer : id.truthy with
          | false => rfl
          | true =>
            rw [outer, if_pos rfl] at newLabel
            exact absurd ⟨outer, newLabel ▸ outer⟩ both
        refine Or.inr ⟨unlabelled, ?_⟩
        rintro b ⟨⟩
        exact newBounds.symm
      · rw [sameOperands] at member
        exact absurd within (not_within_operands member)
    · rintro (labelled | ⟨unlabelled, agree⟩)
      · exact absurd labelled both
      · exact Or.inl (same unlabelled agree)

/-- Brackets around an expression that can be read by itself, and has bounds or
a label of its own, are read to their end and keep the expression if and only
if the closing bracket does not belong to a comment, and either both the
brackets and the expression are labelled, or the brackets have no label and no
bounds other than the expression's own. -/
theorem brackets_keep_iff {names : Names} {front e : List Char} {id : Json} {x : TripleExpr}
    (opening : Front names front id) (read : ReadsWhole (tripleExpr names) e x)
    (own : boundsOf x ≠ {} ∨ labelOf x ≠ .null) (k : Option Cardinality) :
    (∃ y, ReadsWhole (tripleExpr names) (front ++ '(' :: (e ++ ')' :: cardinalityText k)) y ∧
        Keeps id ((k.map Cardinality.bounds).getD {}) x y) ↔
      (¬ ∃ other, ReadsWhole (tripleExpr names) (e ++ [')']) other) ∧
        ((id.truthy = true ∧ (labelOf x).truthy = true) ∨
          (id.truthy = false ∧ ∀ c ∈ k, c.bounds = boundsOf x)) := by
  have agree : (∀ b ∈ k.map Cardinality.bounds, b = boundsOf x) ↔
      ∀ c ∈ k, c.bounds = boundsOf x := by
    cases k <;> simp
  rw [← agree, ← keeps_bracketed_iff own]
  constructor
  · rintro ⟨y, whole, kept⟩
    obtain ⟨closed, rfl⟩ := (tripleExpr_brackets opening read k y).mp whole
    exact ⟨closed, kept⟩
  · rintro ⟨closed, kept⟩
    exact ⟨_, (tripleExpr_brackets opening read k _).mpr ⟨closed, rfl⟩, kept⟩

/-- A labelled constraint is kept in brackets with another label. One without a
label is not kept in brackets with other bounds. -/
theorem brackets_keep_labelled :
    (∃ y, ReadsWhole (tripleExpr {}) "$<m> ($<l> <p> . ?)+".toList y ∧
      Keeps (.string "m") { min := .int 1, max := unbounded }
        (.constraint (.string "p") false .any { min := .int 0, max := .int 1 } (.string "l")) y) ∧
    ¬ ∃ y, ReadsWhole (tripleExpr {}) "(<p> . ?)*".toList y ∧
      Keeps .null { min := .int 0, max := unbounded }
        (.constraint (.string "p") false .any { min := .int 0, max := .int 1 } .null) y := by
  have labelled : ReadsWhole (tripleExpr {}) "$<l> <p> . ?".toList
      (.constraint (.string "p") false .any { min := .int 0, max := .int 1 } (.string "l")) :=
        ⟨_, rfl, rfl⟩
  have bare : ReadsWhole (tripleExpr {}) "<p> . ?".toList
      (.constraint (.string "p") false .any { min := .int 0, max := .int 1 } .null) := ⟨_, rfl, rfl⟩
  have label : ReadsWhole (fun _ => label {}) "<m>".toList "m" := ⟨_, rfl, rfl⟩
  have closed : ¬ ∃ other, ReadsWhole (tripleExpr {}) "$<l> <p> . ?)".toList other := by
    rintro ⟨other, c', read, whole⟩
    cases read
    cases whole
  have kept := brackets_keep_iff (.labelled label) labelled (Or.inl nofun) (some .plus)
  have lost := brackets_keep_iff .unlabelled bare (Or.inl nofun) (some .star)
  refine ⟨kept.mpr ⟨closed, Or.inl ⟨rfl, rfl⟩⟩, fun found => ?_⟩
  rcases (lost.mp found).2 with ⟨⟨⟩, -⟩ | ⟨-, agree⟩
  cases agree .star rfl

end Scan

end ShapeQuery.Compact
