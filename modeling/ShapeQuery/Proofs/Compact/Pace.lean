import ShapeQuery.Proofs.Compact.Logic
import ShapeQuery.Proofs.Compact.Reading

/-!
The pace of readers. A reader never goes back, and a good part of them read at least one
character whenever they return. A bound of one step for each character left is then never
reached, and which bound is given makes no difference: two readers that differ in their bounds
alone are followed side by side.
-/
namespace ShapeQuery.Compact

/-- What reading from a cursor comes to: the reader has not gone back, and
where `sure` says so of its result, it has read some of the characters that
were left. A fault is not that of a bound. -/
def Advances {α : Type} (sure : α → Bool) (c : Cursor) : Except Fault (α × Cursor) → Prop
  | .ok (result, c') =>
    c'.text = c.text ∧ c.pos ≤ c'.pos ∧ c'.rest.length + (sure result).toNat ≤ c.rest.length
  | .error fault => fault ≠ .outOfBound

theorem Cursor.length_rest (c : Cursor) : c.rest.length = c.text.length - c.pos := by
  rw [c.rest_eq, List.length_drop]

/-- Where less is left of the same text, the position is a later one. -/
theorem Cursor.pos_lt_of_length_lt {c c' : Cursor} (same : c'.text = c.text)
    (less : c'.rest.length < c.rest.length) : c.pos < c'.pos := by
  rw [c.length_rest, c'.length_rest, same] at less
  omega

/-- Moving on stays in the text, does not go back, and leaves fewer characters
if there are any. -/
theorem Cursor.advance_onward (c : Cursor) (n : Nat) :
    (c.advance n).text = c.text ∧ c.pos ≤ (c.advance n).pos ∧
      (c.advance n).rest.length = c.rest.length - n :=
  ⟨rfl, Nat.le_add_right _ _, List.length_drop⟩

theorem Advances.weaken {α : Type} {sure : α → Bool} {c : Cursor}
    {outcome : Except Fault (α × Cursor)} (advances : Advances sure c outcome) :
    Advances (fun _ => false) c outcome := by
  cases outcome with
  | error fault => exact advances
  | ok pair =>
    obtain ⟨same, onward, read⟩ := advances
    exact ⟨same, onward, Nat.le_trans (Nat.le_add_right _ _) read⟩

/-- What is read from a later cursor is read from an earlier one as well. -/
theorem Advances.trans {α : Type} {sure total : α → Bool} {c c' : Cursor} {n : Nat}
    {outcome : Except Fault (α × Cursor)} (same : c'.text = c.text) (onward : c.pos ≤ c'.pos)
    (read : c'.rest.length + n ≤ c.rest.length) (advances : Advances sure c' outcome)
    (enough : ∀ result, (total result).toNat ≤ (sure result).toNat + n) :
    Advances total c outcome := by
  cases outcome with
  | error fault => exact advances
  | ok pair =>
    obtain ⟨same', onward', read'⟩ := advances
    have total := enough pair.1
    exact ⟨same'.trans same, Nat.le_trans onward onward', by omega⟩

/-- What is done behind blanks advances from in front of them. -/
theorem Advances.of_skip {α : Type} {sure : α → Bool} {c : Cursor}
    {outcome : Except Fault (α × Cursor)} (advances : Advances sure c.skip outcome) :
    Advances sure c outcome := by
  obtain ⟨same, onward, left⟩ := c.advance_onward (blankLength .blanks c.rest)
  have fewer : c.skip.rest.length + 0 ≤ c.rest.length :=
    Nat.le_trans (Nat.le_of_eq left) (Nat.sub_le _ _)
  exact advances.trans same onward fewer fun result => Nat.le_refl _

/-- Two readers agree at every cursor with fewer than `limit` characters left,
and advance there. They differ in their bounds alone, so such a bound does not
matter where it is large enough. -/
def Paced {α : Type} (limit : Nat) (sure : α → Bool) (scan other : Scan α) : Prop :=
  Runs (·.rest.length < limit) (Advances sure) scan other

/-- A reader that advances from every cursor. It has no bound, so it is paced
against itself. -/
def Steady {α : Type} (sure : α → Bool) (scan : Scan α) : Prop :=
  ∀ c : Cursor, Advances sure c (scan c)

theorem Steady.paced {α : Type} {sure : α → Bool} {scan : Scan α} (steady : Steady sure scan)
    (limit : Nat) : Paced limit sure scan scan :=
  fun c _ => ⟨rfl, steady c⟩

/-- A reader that is paced against itself for every limit is steady. -/
theorem Steady.of_paced {α : Type} {sure : α → Bool} {scan : Scan α}
    (paced : ∀ limit, Paced limit sure scan scan) : Steady sure scan :=
  fun c => (paced (c.rest.length + 1) c (Nat.lt_succ_self _)).2

namespace Paced

variable {α β : Type} {limit : Nat} {sure : α → Bool} {total : β → Bool} {scan other : Scan α}
  {next nextOther : α → Scan β}

theorem zero : Paced 0 sure scan other :=
  fun _ few => absurd few (Nat.not_lt_zero _)

theorem mono {limit' : Nat} (paced : Paced limit sure scan other) (fewer : limit' ≤ limit) :
    Paced limit' sure scan other :=
  fun c few => paced c (Nat.lt_of_lt_of_le few fewer)

theorem weaken (paced : Paced limit sure scan other) : Paced limit (fun _ => false) scan other :=
  fun c few => ⟨(paced c few).1, (paced c few).2.weaken⟩

theorem pure {result : α} (unsure : sure result = false) :
    Paced limit sure (Pure.pure result) (Pure.pure result) := by
  refine Runs.pure fun c _ => ⟨rfl, Nat.le_refl _, ?_⟩
  rw [unsure]
  exact Nat.le_refl _

theorem throw {fault : Fault} (known : fault ≠ .outOfBound) :
    Paced limit sure (MonadExcept.throw fault : Scan α) (MonadExcept.throw fault) :=
  Runs.throw fun _ _ => known

/-- What the first reader has surely read is not left for the second one, so
the limit is less for it. -/
theorem bind (first : Paced limit sure scan other)
    (second : ∀ result, Paced (limit - (sure result).toNat) (fun b => total b && !sure result)
      (next result) (nextOther result)) :
    Paced limit total (scan >>= next) (other >>= nextOther) := by
  refine Runs.bind first (fun _ _ _ known => known) fun c result c' few advances => ?_
  obtain ⟨same, onward, read⟩ := advances
  obtain ⟨agree, further⟩ := second result c' (by dsimp only; omega)
  refine ⟨agree, further.trans same onward read fun value => ?_⟩
  cases total value <;> cases sure result <;> decide

theorem after (first : Paced limit sure scan other)
    (second : ∀ result, Paced limit total (next result) (nextOther result)) :
    Paced limit total (scan >>= next) (other >>= nextOther) := by
  refine .bind first.weaken fun result => ?_
  simpa using second result

theorem past (first : Paced limit (fun _ => true) scan other)
    (second : ∀ result, Paced (limit - 1) (fun _ => false) (next result) (nextOther result)) :
    Paced limit total (scan >>= next) (other >>= nextOther) := by
  refine .bind first fun result => ?_
  simpa using second result

theorem test {question otherQuestion : Scan Bool} {yes yesOther no noOther : Scan β}
    (first : Paced limit id question otherQuestion)
    (holds : Paced (limit - 1) (fun _ => false) yes yesOther)
    (fails : Paced limit total no noOther) :
    Paced limit total (question >>= fun found => if found = true then yes else no)
      (otherQuestion >>= fun found => if found = true then yesOther else noOther) := by
  refine .bind first fun found => ?_
  cases found with
  | true => simpa using holds
  | false => simpa using fails

theorem ite {condition : Prop} [Decidable condition] {yes yesOther no noOther : Scan α}
    (holds : condition → Paced limit sure yes yesOther)
    (fails : ¬ condition → Paced limit sure no noOther) :
    Paced limit sure (if condition then yes else no) (if condition then yesOther else noOther) :=
  Runs.ite holds fails

theorem fail (problem : Problem) :
    Paced limit sure (Scan.fail problem : Scan α) (Scan.fail problem) :=
  Runs.fail fun _ _ => nofun

/-- A check that does not complain of a bound reads nothing. -/
theorem lift {checked : Except Fault α} (known : checked ≠ .error .outOfBound)
    (unsure : ∀ result, sure result = false) :
    Paced limit sure (liftM checked : Scan α) (liftM checked) := by
  cases checked with
  | error fault => exact .throw fun same => known (by rw [same])
  | ok result => exact .pure (unsure result)

/-- Behind a look ahead the next reader starts at what has been seen. -/
theorem look {view : List Char → α} (looks : Looks scan view)
    (second : ∀ c : Cursor, c.rest.length < limit →
      next (view c.rest) c = nextOther (view c.rest) c ∧ Advances total c (next (view c.rest) c)) :
    Paced limit total (scan >>= next) (scan >>= nextOther) := by
  intro c few
  simp only [Bind.bind, StateT.bind, Except.bind, looks c]
  have fewer : c.skip.rest.length ≤ c.rest.length := List.length_drop ▸ Nat.sub_le _ _
  obtain ⟨agree, advances⟩ := second c.skip (Nat.lt_of_le_of_lt fewer few)
  exact ⟨agree, advances.of_skip⟩

theorem step {next nextOther : Scan β}
    (second : Paced (limit - 1) (fun _ => false) next nextOther) {c : Cursor}
    (something : c.rest ≠ []) (few : c.rest.length < limit) :
    (Scan.advance 1 >>= fun _ => next) c = (Scan.advance 1 >>= fun _ => nextOther) c ∧
      Advances total c ((Scan.advance 1 >>= fun _ => next) c) := by
  have present := List.length_pos_iff.mpr something
  obtain ⟨same, onward, left⟩ := c.advance_onward 1
  have read : (c.advance 1).rest.length + 1 ≤ c.rest.length := by omega
  obtain ⟨agree, advances⟩ := second (c.advance 1) (by omega)
  refine ⟨agree, advances.trans same onward read fun result => ?_⟩
  cases total result <;> decide

/-- Loops are paced, whatever their bounds, if rounds are that read something
before the rounds that follow: there are no more of them than characters. -/
theorem loop {σ : Type} (loop loopOther : Loop σ α) (sure : σ → α → Bool) {top : Nat}
    (step : ∀ {limit bound other : Nat} {again againOther : σ → Scan α}, limit ≤ top →
      limit ≤ bound + 1 → limit ≤ other + 1 →
      (∀ state, Paced (limit - 1) (sure state) (again state) (againOther state)) →
      ∀ state, Paced limit (sure state) (loop.round bound again state)
        (loopOther.round other againOther state))
    {limit bound other : Nat} (below : limit ≤ top) (enough : limit ≤ bound)
    (enoughOther : limit ≤ other) :
    ∀ state, Paced limit (sure state) (loop.run bound state) (loopOther.run other state) := by
  induction limit generalizing bound other with
  | zero => exact fun _ => .zero
  | succ limit ih =>
    intro state
    obtain ⟨bound, rfl⟩ := Nat.exists_eq_add_of_le' enough
    obtain ⟨other, rfl⟩ := Nat.exists_eq_add_of_le' enoughOther
    rw [← Nat.add_assoc, ← Nat.add_assoc, loop.turn, loopOther.turn]
    exact step below (by omega) (by omega)
      (ih (Nat.le_of_succ_le below) (Nat.le_add_left _ _) (Nat.le_add_left _ _)) state

end Paced

namespace Scan

/-! ### Tokens -/

theorem advance_steady (n : Nat) : Steady (fun _ => false) (advance n) := by
  intro c
  obtain ⟨same, onward, left⟩ := c.advance_onward n
  exact ⟨same, onward, by rw [left]; exact Nat.sub_le _ _⟩

theorem skip_steady : Steady (fun _ => false) skip :=
  fun c => advance_steady _ c

theorem steady_of_looks {α : Type} {scan : Scan α} {view : List Char → α}
    (looks : Looks scan view) : Steady (fun _ => false) scan := by
  intro c
  rw [looks c]
  exact skip_steady c

/-- A reader that looks ahead and then moves over what it has seen. -/
theorem steady_of_moves {α : Type} {scan : Scan α} {sure : α → Bool} (view : List Char → α)
    (width : List Char → Nat)
    (moves : ∀ c : Cursor, scan c =
      .ok (view (skipText c.rest), c.skip.advance (width (skipText c.rest))))
    (enough : ∀ text, sure (view text) = true → text ≠ [] ∧ 0 < width text) : Steady sure scan := by
  intro c
  rw [moves c]
  obtain ⟨same, onward, left⟩ := c.advance_onward (blankLength .blanks c.rest)
  obtain ⟨same', onward', left'⟩ := c.skip.advance_onward (width (skipText c.rest))
  refine ⟨same'.trans same, Nat.le_trans onward onward', ?_⟩
  have seen : c.skip.rest = skipText c.rest := rfl
  change c.skip.rest.length = _ at left
  cases certain : sure (view (skipText c.rest)) with
  | false => simp only [Bool.toNat_false]; omega
  | true =>
    obtain ⟨something, wide⟩ := enough _ certain
    have present := List.length_pos_iff.mpr something
    simp only [Bool.toNat_true]
    rw [seen] at left left'
    omega

theorem peek_steady : Steady (fun _ => false) peek := steady_of_looks looks_peek

theorem rest_steady : Steady (fun _ => false) rest := steady_of_looks looks_rest

theorem atEnd_steady : Steady (fun _ => false) atEnd := steady_of_looks looks_atEnd

theorem atKeyword_steady (keyword : String) : Steady (fun _ => false) (atKeyword keyword) :=
  steady_of_looks (looks_atKeyword keyword)

theorem atPrefixedName_steady : Steady (fun _ => false) atPrefixedName :=
  steady_of_looks looks_atPrefixedName

/-- A text that is not empty is read if it comes next. -/
theorem tryText_steady {text : String} (nonempty : text.toList ≠ []) :
    Steady id (tryText text) := by
  refine steady_of_moves (fun seen => text.toList.isPrefixOf seen)
    (fun seen => if text.toList.isPrefixOf seen then text.length else 0) (fun c => ?_)
    fun seen found => ?_
  · rw [tryText_eq, startsWith_eq nonempty]
    change (if text.toList.isPrefixOf (skipText c.rest) then _ else _) = _
    cases text.toList.isPrefixOf (skipText c.rest) <;> rfl
  · change text.toList.isPrefixOf seen = true at found
    have wide := List.length_pos_iff.mpr nonempty
    rw [String.length_toList] at wide
    rw [if_pos found]
    refine ⟨?_, wide⟩
    rintro rfl
    exact nonempty (List.prefix_nil.mp (List.isPrefixOf_iff_prefix.mp found))

/-- An expected text is surely read, or the reader fails. -/
theorem expect_steady {text : String} (nonempty : text.toList ≠ []) :
    Steady (fun _ => true) (expect text) := by
  refine .of_paced fun limit => .bind ((tryText_steady nonempty).paced limit) fun found => ?_
  cases found with
  | true => exact .pure rfl
  | false => exact .fail _

theorem startsKeyword_nil {keyword : String} (nonempty : keyword.toList ≠ []) :
    startsKeyword keyword [] = false := by
  have other : (Text.upper [] == keyword.toList) = false :=
    beq_eq_false_iff_ne.mpr fun same => nonempty same.symm
  rw [startsKeyword, List.take_nil, other, Bool.false_and]

/-- A keyword is read if it comes next, and then the text is not used up. -/
theorem tryKeyword_steady {keyword : String} (nonempty : keyword.toList ≠ []) :
    Steady id (tryKeyword keyword) := by
  refine steady_of_moves (startsKeyword keyword)
    (fun seen => if startsKeyword keyword seen then keyword.length else 0) (fun c => ?_)
    fun seen found => ?_
  · change (if startsKeyword keyword (skipText c.rest) = true then
      (do advance keyword.length; return true) else return false : Scan Bool) c.skip = _
    cases startsKeyword keyword (skipText c.rest) <;> rfl
  · change startsKeyword keyword seen = true at found
    have wide := List.length_pos_iff.mpr nonempty
    rw [String.length_toList] at wide
    rw [if_pos found]
    refine ⟨?_, wide⟩
    rintro rfl
    rw [startsKeyword_nil nonempty] at found
    cases found

/-- A lexeme that is found has characters, and so has the text in front of
which it is found. -/
def Recognises {α : Type} (recognise : List Char → Option α) (width : α → Nat) : Prop :=
  ∀ {text found}, recognise text = some found → text ≠ [] ∧ 0 < width found

/-- A lexeme that is found is read. One that is not found leaves the cursor
behind the blanks. -/
theorem lexeme?_steady {α : Type} {recognise : List Char → Option α} {width : α → Nat}
    (recognises : Recognises recognise width) : Steady Option.isSome (lexeme? recognise width) := by
  refine steady_of_moves recognise (fun seen => (recognise seen).elim 0 width)
    (fun c => ?_) fun seen found => ?_
  · simp only [lexeme?, Bind.bind, StateT.bind, Except.bind, looks_rest c, id]
    cases recognise (skipText c.rest) <;> rfl
  · obtain ⟨lexeme, same⟩ := Option.isSome_iff_exists.mp found
    rw [same]
    exact recognises same

/-- A numeral has at least one digit, so it is not empty. -/
theorem numeral?_recognises : Recognises numeral? (·.text.length) := by
  intro text found read
  refine ⟨?_, ?_⟩
  · rintro rfl
    cases read
  · simp only [numeral?] at read
    split at read
    · next digits =>
      cases read
      simp only [Bool.and_eq_true, Bool.or_eq_true, Bool.not_eq_true', List.isEmpty_eq_false_iff,
        decide_eq_true_eq, List.length_append] at digits
      simp only [Numeral.text, List.length_append]
      have long := List.length_pos_iff.mpr digits.2
      omega
    · split at read
      · next digits =>
        cases read
        simp only [Numeral.text, List.length_append]
        omega
      · split at read
        · next digits =>
          cases read
          have long := List.length_pos_iff.mpr (by simpa using digits)
          simp only [Numeral.text, List.length_append]
          omega
        · cases read

theorem namespaceName?_recognises : Recognises namespaceName? (·.length + 1) := by
  intro text found read
  refine ⟨?_, Nat.succ_pos _⟩
  rintro rfl
  cases read

theorem prefixedName?_recognises :
    Recognises prefixedName? fun found => found.name.length + 1 + found.localPart.length := by
  intro text found read
  refine ⟨?_, Nat.lt_of_lt_of_le (Nat.succ_pos _) (Nat.le_add_right _ _)⟩
  rintro rfl
  cases read

theorem languageTag?_recognises : Recognises languageTag? List.length := by
  intro text found read
  unfold languageTag? at read
  dsimp only at read
  split at read
  · cases read
  · next some =>
    cases read
    have long := List.length_pos_iff.mpr fun empty => some (List.isEmpty_iff.mpr empty)
    refine ⟨?_, by rw [List.length_append]; omega⟩
    rintro rfl
    cases long

theorem blankLabel?_recognises : Recognises blankLabel? List.length := by
  intro text found read
  unfold blankLabel? at read
  dsimp only at read
  split at read
  · cases read
  · next some =>
    cases read
    refine ⟨?_, List.length_pos_iff.mpr fun empty => some (List.isEmpty_iff.mpr empty)⟩
    rintro rfl
    exact some rfl

theorem tryNumeral_steady : Steady Option.isSome tryNumeral := lexeme?_steady numeral?_recognises

theorem tryLanguageTag_steady : Steady Option.isSome tryLanguageTag :=
  lexeme?_steady languageTag?_recognises

theorem tryNamespaceName_steady : Steady Option.isSome tryNamespaceName :=
  lexeme?_steady namespaceName?_recognises

theorem advance_sure {c : Cursor} (something : c.rest ≠ []) {n : Nat} (wide : 0 < n) {α : Type}
    (result : α) : Advances (fun _ => true) c (.ok (result, c.advance n)) := by
  obtain ⟨same, onward, left⟩ := c.advance_onward n
  have present := List.length_pos_iff.mpr something
  exact ⟨same, onward, by rw [Bool.toNat_true]; omega⟩

theorem drop_takeWhile_length (text : List Char) (test : Char → Bool) :
    text.drop (text.takeWhile test).length = text.dropWhile test := by
  have whole := List.takeWhile_append_dropWhile (p := test) (l := text)
  calc text.drop (text.takeWhile test).length
      = (text.takeWhile test ++ text.dropWhile test).drop (text.takeWhile test).length := by
        rw [whole]
    _ = text.dropWhile test := List.drop_left

theorem iriRef_eq (c : Cursor) : iriRef c =
    if c.skip.rest.head? = some '<' then
      if (c.skip.rest.dropWhile (· != '>')).isEmpty then .error (c.skip.fault .unterminatedIri)
      else .ok (String.ofList ((c.skip.rest.takeWhile (· != '>')).drop 1),
        c.skip.advance ((c.skip.rest.takeWhile (· != '>')).length + 1))
    else .error (c.skip.fault (.expected "<")) := by
  change (if (c.skip.rest.head? != some '<') = true then _ else _ : Scan String) c.skip = _
  split
  · next other =>
    rw [if_neg (by simpa using other)]
    rfl
  · next same =>
    rw [if_pos (by simpa using same)]
    change (if (c.skip.rest.drop (c.skip.rest.takeWhile (· != '>')).length).isEmpty = true then _
      else _ : Scan String) c.skip = _
    rw [drop_takeWhile_length]
    split <;> rfl

theorem iriRef_steady : Steady (fun _ => true) iriRef := by
  intro c
  rw [iriRef_eq]
  split
  · next opened =>
    split
    · rintro ⟨⟩
    · apply Advances.of_skip
      refine advance_sure ?_ (Nat.succ_pos _) _
      intro none
      rw [none] at opened
      cases opened
  · rintro ⟨⟩

theorem prefixedName_eq (c : Cursor) :
    prefixedName c = (prefixedName? c.skip.rest).elim (.error (c.skip.fault .expectedPrefixedName))
      fun found => .ok ((String.ofList found.name,
      String.ofList (unescapeLocal (dropFinalPoints found.localPart))),
      c.skip.advance (found.name.length + 1 + (dropFinalPoints found.localPart).length)) := by
  simp only [prefixedName, Bind.bind, StateT.bind, Except.bind, looks_rest c, id]
  change _ = (prefixedName? (skipText c.rest)).elim _ _
  cases prefixedName? (skipText c.rest) <;> rfl

/-- A prefixed name is read with its colon, without the points at its end. -/
theorem prefixedName_steady : Steady (fun _ => true) prefixedName := by
  intro c
  rw [prefixedName_eq]
  cases read : prefixedName? c.skip.rest with
  | none => rintro ⟨⟩
  | some found => exact (advance_sure (prefixedName?_recognises read).1 (by omega) _).of_skip

/-- What reading the characters of a string comes to: they are counted on, and
a fault is not that of a bound. -/
def CountedOn (taken : Nat) : Except Fault (List Char × Nat) → Prop
  | .ok (_, count) => taken ≤ count
  | .error fault => fault ≠ .outOfBound

theorem CountedOn.of_add {taken more : Nat} {outcome : Except Fault (List Char × Nat)}
    (counted : CountedOn (taken + more) outcome) : CountedOn taken outcome := by
  cases outcome with
  | ok pair => exact Nat.le_trans (Nat.le_add_right _ _) counted
  | error fault => exact counted

/-- The characters of a string are counted as they are read. Induction on the
text, with a case for each kind of escape. -/
theorem stringBody_countedOn (origin : Cursor) (quote : List Char) (text : List Char) (taken : Nat)
    (acc : List Char) : CountedOn taken (stringBody origin quote text taken acc) := by
  fun_induction stringBody origin quote text taken acc with
  | case1 taken acc => rintro ⟨⟩
  | case2 c rest taken acc closed => exact Nat.le_add_right _ _
  | case3 taken acc unclosed => rintro ⟨⟩
  | case4 taken acc d₁ d₂ d₃ d₄ more meaning escaped unclosed ih => exact ih.of_add
  | case5 => rintro ⟨⟩
  | case6 => rintro ⟨⟩
  | case7 => rintro ⟨⟩
  | case8 taken acc letter more noCode noDigits unclosed ih => exact ih.of_add
  | case9 c rest taken acc unclosed plain ih => exact ih.of_add

theorem quotes_ne_nil {quote : List Char} (member : quote ∈ quotes) : quote ≠ [] := by
  rintro rfl
  revert member
  decide

theorem string_eq (c : Cursor) :
    string c = (quotes.find? (·.isPrefixOf c.skip.rest)).elim
      (.error (c.skip.fault .expectedString)) fun quote =>
      (stringBody c.skip quote (c.skip.rest.drop quote.length) quote.length []).map fun body =>
      (String.ofList body.1, c.skip.advance body.2) := by
  simp only [string, Bind.bind, StateT.bind, Except.bind, looks_rest c, id]
  change _ = (quotes.find? (·.isPrefixOf (skipText c.rest))).elim _ _
  cases quotes.find? (·.isPrefixOf (skipText c.rest)) with
  | none => rfl
  | some quote =>
    change (liftM (stringBody c.skip quote (c.skip.rest.drop quote.length) quote.length []) >>=
      fun body =>
      advance body.2 >>= fun _ => pure (String.ofList body.1) : Scan String) c.skip = _
    rw [Option.elim_some]
    cases stringBody c.skip quote (c.skip.rest.drop quote.length) quote.length [] <;> rfl

/-- A string is read with its quotes, which are not empty. -/
theorem string_steady : Steady (fun _ => true) string := by
  intro c
  rw [string_eq]
  apply Advances.of_skip
  cases opened : quotes.find? (·.isPrefixOf c.skip.rest) with
  | none => rintro ⟨⟩
  | some quote =>
    have wide := List.length_pos_iff.mpr (quotes_ne_nil (List.mem_of_find?_eq_some opened))
    have something : c.skip.rest ≠ [] := by
      intro none
      have start := List.find?_some opened
      rw [none, List.isPrefixOf_iff_prefix, List.prefix_nil] at start
      rw [start] at wide
      cases wide
    have counted := stringBody_countedOn c.skip quote (c.skip.rest.drop quote.length)
      quote.length []
    rw [Option.elim_some]
    cases outcome : stringBody c.skip quote (c.skip.rest.drop quote.length) quote.length [] with
    | error fault =>
      rw [outcome] at counted
      exact counted
    | ok body =>
      rw [outcome] at counted
      exact advance_sure something (Nat.lt_of_lt_of_le wide counted) _

/-! ### Names -/

theorem get_steady : Steady (fun _ => false) (get : Scan Cursor) :=
  fun _ => ⟨rfl, Nat.le_refl _, Nat.le_refl _⟩

/-- A base that cannot be used is refused, but for no bound. -/
theorem resolve_ne_outOfBound (names : Names) (iri : String) :
    names.resolve iri ≠ .error .outOfBound := by
  unfold Names.resolve
  split
  · rintro ⟨⟩
  · split <;> rintro ⟨⟩

theorem resolvedIriRef_steady (names : Names) : Steady (fun _ => true) (resolvedIriRef names) := by
  refine .of_paced fun limit => .past (iriRef_steady.paced limit) fun iri => ?_
  exact .lift (resolve_ne_outOfBound names iri) fun _ => rfl

theorem iri_steady (names : Names) : Steady (fun _ => true) (iri names) := by
  refine .of_paced fun limit => .after (peek_steady.paced limit) fun next => ?_
  refine .ite (fun _ => (resolvedIriRef_steady names).paced limit) fun _ => ?_
  refine .past (prefixedName_steady.paced limit) fun (name, localPart) => ?_
  dsimp only
  cases names.namespaces.lookup name with
  | some space => exact .pure rfl
  | none => exact .fail _

theorem atIri_steady : Steady (fun _ => false) atIri := by
  refine .of_paced fun limit => .after (peek_steady.paced limit) fun next => ?_
  exact .ite (fun _ => .pure rfl) fun _ => atPrefixedName_steady.paced limit

theorem label_steady (names : Names) : Steady (fun _ => true) (label names) := by
  refine .of_paced fun limit => .test ((tryText_steady (by decide)).paced limit) ?_
    ((iri_steady names).paced limit)
  refine .after ((lexeme?_steady blankLabel?_recognises).paced _) fun found => ?_
  cases found with
  | some name => exact .pure rfl
  | none => exact .fail _

theorem startsRdfType_nil : startsRdfType [] = false := rfl

/-- A predicate is the word `a` or an IRI, and neither of them is empty. -/
theorem predicate_steady (names : Names) : Steady (fun _ => true) (predicate names) := by
  refine .of_paced fun limit => .look looks_rest fun c few => ?_
  dsimp only [id]
  split
  · next word =>
    refine Paced.step (.pure rfl) ?_ few
    intro none
    rw [none, startsRdfType_nil] at word
    cases word
  · exact (iri_steady names).paced limit c few

/-! ### Operands -/

section

variable {α : Type} {limit bound otherBound : Nat} {sure : α → Bool} {separator : Scan Bool}
  {operand other : Scan α}

/-- The separator is read before the operands that follow. -/
theorem operandsRound_paced (next : Steady id separator)
    (read : Paced (limit - 1) sure operand other) {again otherAgain : Scan (List α)}
    (rest : Paced (limit - 1) (fun _ => false) again otherAgain) :
    Paced limit (fun _ => false) (operandsRound separator operand again)
      (operandsRound separator other otherAgain) := by
  refine .test (next.paced limit) ?_ (.pure rfl)
  exact .after read fun first => .after rest fun others => .pure rfl

/-- Reading operands does not depend on the bound: each of them comes behind a
separator, which takes a character. -/
theorem operandsAfter_paced (next : Steady id separator)
    (read : Paced (limit - 1) sure operand other) (enough : limit ≤ bound)
    (enoughOther : limit ≤ otherBound) :
    Paced limit (fun _ => false) (operandsAfter separator operand bound)
      (operandsAfter separator other otherBound) :=
  Paced.loop (operandsLoop separator operand) (operandsLoop separator other) (fun _ _ => false)
    (fun below _ _ rest _ => operandsRound_paced next (read.mono (by omega)) (rest ()))
    (Nat.le_refl limit) enough enoughOther ()

end

/-! ### Node constraints -/

theorem numeral_steady : Steady (fun _ => true) numeral := by
  refine .of_paced fun limit => .bind (tryNumeral_steady.paced limit) fun found => ?_
  cases found with
  | some found => exact .pure rfl
  | none => exact .fail _

theorem value_ne_outOfBound (found : Numeral) : found.value ≠ .error .outOfBound := by
  unfold Numeral.value
  split
  · split <;> rintro ⟨⟩
  · rintro ⟨⟩

theorem count_ne_outOfBound (found : Numeral) : found.count ≠ .error .outOfBound := by
  unfold Numeral.count
  cases value : found.value with
  | error fault =>
    rintro ⟨⟩
    exact value_ne_outOfBound found value
  | ok number =>
    cases number with
    | float x =>
      simp only [Bind.bind, Except.bind]
      cases x.truncate? <;> rintro ⟨⟩
    | _ => rintro ⟨⟩

theorem number_steady : Steady (fun _ => true) number := by
  refine .of_paced fun limit => .past (numeral_steady.paced limit) fun found => ?_
  exact .lift (value_ne_outOfBound found) fun _ => rfl

theorem count_steady : Steady (fun _ => true) count := by
  refine .of_paced fun limit => .past (numeral_steady.paced limit) fun found => ?_
  exact .lift (count_ne_outOfBound found) fun _ => rfl

/-- A regular expression is read with both of its slashes. -/
theorem regexp_steady : Steady (fun _ => true) regexp := by
  refine .of_paced fun limit => .past ((expect_steady (by decide)).paced limit) fun _ => ?_
  refine .after (get_steady.paced _) fun c => .after ((advance_steady _).paced _) fun _ => ?_
  refine .after ((expect_steady (by decide)).paced _) fun _ =>
    .after (get_steady.paced _) fun c' => ?_
  exact .after ((advance_steady _).paced _) fun _ => .pure rfl

theorem stringLiteral_steady (names : Names) : Steady (fun _ => true) (stringLiteral names) := by
  refine .of_paced fun limit => .past (string_steady.paced limit) fun value => ?_
  refine .after (get_steady.paced _) fun c => ?_
  refine .ite (fun _ => ?_) fun _ => .ite (fun _ => ?_) fun _ => .pure rfl
  · exact .after ((advance_steady 2).paced _) fun _ =>
      .after ((iri_steady names).paced _) fun _ => .pure rfl
  · exact .after ((advance_steady 1).paced _) fun _ =>
      .after (tryLanguageTag_steady.paced _) fun _ => .pure rfl

theorem literal_steady (names : Names) : Steady (fun _ => true) (literal names) := by
  refine .of_paced fun limit => .after (peek_steady.paced limit) fun next => ?_
  refine .ite (fun _ => (stringLiteral_steady names).paced limit) fun _ => ?_
  refine .test ((tryKeyword_steady (by decide)).paced limit) (.pure rfl) ?_
  refine .test ((tryKeyword_steady (by decide)).paced limit) (.pure rfl) ?_
  refine .bind (tryNumeral_steady.paced limit) fun found => ?_
  cases found with
  | some found => exact .pure rfl
  | none => exact .fail _

theorem atLiteral_steady : Steady (fun _ => false) atLiteral := by
  refine .of_paced fun limit => .after (peek_steady.paced limit) fun next => ?_
  refine .ite (fun _ => .pure rfl) fun _ => .after ((atKeyword_steady _).paced limit) fun yes => ?_
  refine .ite (fun _ => .pure rfl) fun _ => .after ((atKeyword_steady _).paced limit) fun no => ?_
  exact .ite (fun _ => .pure rfl) fun _ => .after (get_steady.paced limit) fun c => .pure rfl

theorem languageTag_steady : Steady (fun _ => true) languageTag := by
  refine .of_paced fun limit => .past ((expect_steady (by decide)).paced limit) fun _ => ?_
  refine .after (tryLanguageTag_steady.paced _) fun found => ?_
  cases found <;> exact .pure rfl

theorem stemValue_steady (names : Names) (kind : StemKind) :
    Steady (fun _ => true) (stemValue names kind) := by
  cases kind with
  | iri => exact iri_steady names
  | literal =>
    exact .of_paced fun limit => .past ((literal_steady names).paced limit) fun _ => .pure rfl
  | language => exact languageTag_steady

theorem exclusion_steady (names : Names) (kind : StemKind) :
    Steady (fun _ => true) (exclusion names kind) := by
  refine .of_paced fun limit => .past ((stemValue_steady names kind).paced limit) fun value => ?_
  exact .test ((tryText_steady (by decide)).paced _) (.pure rfl) (.pure rfl)

theorem exclusions_paced (names : Names) (kind : StemKind) {bound other limit : Nat}
    (enough : limit ≤ bound) (enoughOther : limit ≤ other) :
    Paced limit (fun _ => false) (exclusions names kind bound) (exclusions names kind other) := by
  rw [exclusions_eq, exclusions_eq]
  exact operandsAfter_paced (tryText_steady (by decide))
    ((exclusion_steady names kind).paced _) enough
    enoughOther

theorem stemOr_paced (names : Names) {bound other limit : Nat} (enough : limit ≤ bound)
    (enoughOther : limit ≤ other) (kind : StemKind) (value : String) (plain : ValueSetEntry) :
    Paced limit (fun _ => false) (stemOr names bound kind value plain)
      (stemOr names other kind value plain) := by
  refine .test ((tryText_steady (by decide)).paced limit) ?_ (.pure rfl)
  refine .after (exclusions_paced names kind (by omega) (by omega)) fun left => ?_
  exact .ite (fun _ => .pure rfl) fun _ => .pure rfl

/-- An entry surely reads something, so the exclusions behind its stem have
fewer characters left than the entry had. -/
theorem entry_paced (names : Names) {bound other limit : Nat} (enough : limit ≤ bound + 1)
    (enoughOther : limit ≤ other + 1) :
    Paced limit (fun _ => true) (entry names bound) (entry names other) := by
  refine .look looks_peek fun c few => ?_
  have value : ∀ {α : Type} {scan : Scan α} {next nextOther : α → Scan ValueSetEntry},
      Steady (fun _ => true) scan →
      (∀ result, Paced (limit - 1) (fun _ => false) (next result) (nextOther result)) →
      Paced limit (fun _ => true) (scan >>= next) (scan >>= nextOther) :=
    fun steady second => .past (steady.paced limit) second
  dsimp only
  split
  · next point =>
    refine Paced.step ?_ (by rintro none; rw [none] at point; cases point) few
    refine .after (rest_steady.paced _) fun text => ?_
    exact .after (exclusions_paced names _ (by omega) (by omega)) fun left => .pure rfl
  · refine Paced.ite (fun _ => ?_) (fun _ => ?_) c few
    · exact value languageTag_steady fun tag => stemOr_paced names (by omega) (by omega) _ _ _
    · refine .after (atLiteral_steady.paced limit) fun found => ?_
      refine .ite (fun _ => ?_) fun _ => ?_
      · exact value (literal_steady names) fun found =>
          stemOr_paced names (by omega) (by omega) _ _ _
      · exact value (iri_steady names) fun found => stemOr_paced names (by omega) (by omega) _ _ _

theorem entriesRound_paced (names : Names) {bound otherBound limit : Nat}
    (enough : limit ≤ bound + 1) (enoughOther : limit ≤ otherBound + 1)
    {sure : List ValueSetEntry → Bool} {again other : Scan (List ValueSetEntry)}
    (rest : Paced (limit - 1) sure again other) :
    Paced limit (fun _ => true) (entriesRound names bound again)
      (entriesRound names otherBound other) := by
  refine .test ((tryText_steady (by decide)).paced limit) (.pure rfl) ?_
  refine .after (atEnd_steady.paced limit) fun ended => .ite (fun _ => .fail _) fun _ => ?_
  refine .past (entry_paced names enough enoughOther) fun first => ?_
  exact .after rest fun others => .pure rfl

/-- The entries of a value set are read alike for any two bounds that are large
enough, and at least the closing bracket is read. -/
theorem entries_paced (names : Names) {bound other limit : Nat} (enough : limit ≤ bound)
    (enoughOther : limit ≤ other) :
    Paced limit (fun _ => true) (entries names bound) (entries names other) :=
  Paced.loop (entriesLoop names) (entriesLoop names) (fun _ _ => true)
    (fun _ enough enoughOther rest _ => entriesRound_paced names enough enoughOther (rest ()))
    (Nat.le_refl limit) enough enoughOther ()

theorem valueSet_paced (names : Names) {bound other limit : Nat} (enough : limit ≤ bound + 1)
    (enoughOther : limit ≤ other + 1) :
    Paced limit (fun _ => true) (valueSet names bound) (valueSet names other) := by
  refine .past ((expect_steady (by decide)).paced limit) fun _ => ?_
  exact (entries_paced names (by omega) (by omega)).weaken

/-- One of some keywords is read, none of which is empty. Induction on the keywords. -/
theorem tryKeywords_steady {α : Type} : ∀ {keywords : List (String × α)},
    (∀ pair ∈ keywords, pair.1.toList ≠ []) → Steady Option.isSome (tryKeywords keywords)
  | [], _ => .of_paced fun _ => .pure rfl
  | (keyword, meaning) :: rest, nonempty => by
    refine .of_paced fun limit => ?_
    refine .test ((tryKeyword_steady (nonempty _ List.mem_cons_self)).paced limit) (.pure rfl) ?_
    exact (tryKeywords_steady fun pair member =>
      nonempty pair (List.mem_cons_of_mem _ member)).paced limit

theorem facetKeywords_nonempty : ∀ pair ∈ facetKeywords, pair.1.toList ≠ [] := by
  simp [facetKeywords]

theorem nodeKindKeywords_nonempty : ∀ pair ∈ nodeKindKeywords, pair.1.toList ≠ [] := by
  simp [nodeKindKeywords]

theorem facetValue_steady (nc : NodeConstraint) (facet : Facet) :
    Steady (fun _ => true) (facetValue nc facet) := by
  refine .of_paced fun limit => ?_
  cases facet with
  | length | minLength | maxLength => exact .past (count_steady.paced limit) fun _ => .pure rfl
  | pattern => exact .past (string_steady.paced limit) fun _ => .pure rfl
  | _ => exact .past (number_steady.paced limit) fun _ => .pure rfl

theorem facet?_steady (nc : NodeConstraint) : Steady Option.isSome (facet? nc) := by
  refine .of_paced fun limit => ?_
  refine .bind ((tryKeywords_steady facetKeywords_nonempty).paced limit) fun found => ?_
  cases found with
  | some facet => exact .past ((facetValue_steady nc facet).paced _) fun _ => .pure rfl
  | none =>
    refine .after (peek_steady.paced _) fun next => .ite (fun _ => ?_) fun _ => .pure rfl
    exact .past (regexp_steady.paced _) fun _ => .pure rfl

/-- If there is a facet now and there was none before, one has been read. -/
theorem facetsRound_paced {limit : Nat}
    {again other : NodeConstraint → Bool → Scan (NodeConstraint × Bool)}
    (rest : ∀ nc found, Paced (limit - 1) (fun result => result.2 && !found) (again nc found)
      (other nc found))
    (nc : NodeConstraint) (found : Bool) :
    Paced limit (fun result => result.2 && !found) (facetsRound again nc found)
      (facetsRound other nc found) := by
  refine .bind ((facet?_steady nc).paced limit) fun read => ?_
  cases read with
  | some filled => simpa using (rest filled true).weaken
  | none => exact .pure (by simp)

/-- Facets are read alike for any two bounds that are large enough. -/
theorem facets_paced (nc : NodeConstraint) (found : Bool) {bound other limit : Nat}
    (enough : limit ≤ bound) (enoughOther : limit ≤ other) :
    Paced limit (fun result => result.2 && !found) (facets nc found bound)
      (facets nc found other) :=
  Paced.loop facetsLoop facetsLoop (fun state result => result.2 && !state.2)
    (fun _ _ _ rest state => facetsRound_paced (fun nc found => rest (nc, found)) state.1 state.2)
    (Nat.le_refl limit) enough enoughOther (nc, found)

/-- A head of a constraint that is found has been read. -/
theorem constraintHead_paced (names : Names) {bound other limit : Nat}
    (enough : limit ≤ bound + 1) (enoughOther : limit ≤ other + 1) :
    Paced limit (fun result => result.2) (constraintHead names bound)
      (constraintHead names other) := by
  refine .bind ((tryKeywords_steady nodeKindKeywords_nonempty).paced limit) fun found => ?_
  cases found with
  | some kind => exact .pure rfl
  | none =>
    refine .after (peek_steady.paced _) fun next => .ite (fun _ => ?_) fun _ => ?_
    · exact .past (valueSet_paced names enough enoughOther) fun _ => .pure rfl
    · refine .after (atIri_steady.paced _) fun named => .ite (fun _ => ?_) fun _ => .pure rfl
      exact .past ((iri_steady names).paced _) fun _ => .pure rfl

/-- A node constraint that is found has been read, be it by its head or by a facet. -/
theorem nodeConstraint?_paced (names : Names) {bound other limit : Nat} (enough : limit ≤ bound)
    (enoughOther : limit ≤ other) :
    Paced limit Option.isSome (nodeConstraint? names bound) (nodeConstraint? names other) := by
  refine .bind (constraintHead_paced names (by omega) (by omega)) fun (head, started) => ?_
  refine .bind (facets_paced head started (by omega) (by omega)) fun (nc, found) => .pure ?_
  cases found <;> cases started <;> rfl

end Scan

end ShapeQuery.Compact
