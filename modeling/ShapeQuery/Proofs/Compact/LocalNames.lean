import ShapeQuery.Proofs.Compact.Quotations

/-!
Local names that are written with a backslash before each character. The points at the end of a
local name are given back before the escapes are taken away. An escaped point at the end is one of
them, so it is cut off from its backslash; every other escaped local name is read back as it was.
-/
namespace ShapeQuery.Compact

/-- A namespace name: nothing, or a letter with name characters behind it. -/
def IsNamespaceName (name : List Char) : Prop :=
  name = [] ∨ ∃ first rest, name = first :: rest ∧ first.isAlpha = true ∧
    ∀ c ∈ rest, isNameChar c = true

/-- A local name with a backslash before each character. -/
def escapedLocal (text : List Char) : List Char :=
  text.flatMap fun c => ['\\', c]

/-! ### The parts of a prefixed name -/

/-- A letter is neither a blank nor the start of a comment, so nothing is
skipped in front of a name. -/
theorem isSolid_of_isAlpha {c : Char} (letter : c.isAlpha = true) : isSolid c = true := by
  apply Bool.of_not_eq_false
  intro hollow
  simp only [isSolid, isBlank, Bool.and_eq_false_iff, Bool.not_eq_false',
    Bool.or_eq_true, beq_iff_eq, bne_eq_false_iff_eq] at hollow
  rcases hollow with ((((rfl | rfl) | rfl) | rfl) | rfl) | rfl <;> simp at letter

/-- The name is found up to the colon behind it, which is no name character. -/
theorem IsNamespaceName.namespaceName?_eq {name : List Char} (isName : IsNamespaceName name)
    (text : List Char) : namespaceName? (name ++ ':' :: text) = some name := by
  rcases isName with rfl | ⟨first, rest, rfl, letter, inside⟩
  · simp [namespaceName?]
  · have taken : (rest ++ ':' :: text).takeWhile isNameChar = rest := by
      apply takeWhile_front inside
      intro c head
      cases head
      decide
    simp [namespaceName?, letter, taken]

theorem IsNamespaceName.skipText_eq {name : List Char} (isName : IsNamespaceName name)
    (text : List Char) : skipText (name ++ ':' :: text) = name ++ ':' :: text := by
  rcases isName with rfl | ⟨first, rest, rfl, letter, -⟩
  · exact skipText_solid (by decide) text
  · exact skipText_solid (isSolid_of_isAlpha letter) _

theorem localRun_escapedLocal {text : List Char} (line : '\n' ∉ text) (following : List Char) :
    localRun (escapedLocal text ++ ' ' :: following) = escapedLocal text := by
  induction text with
  | nil =>
    have noSpace : isLocalChar ' ' = false := by decide
    simp [escapedLocal, localRun, noSpace]
  | cons c rest ih =>
    simp only [List.mem_cons, not_or] at line
    have others := ih line.2
    simp only [escapedLocal, List.flatMap_cons, List.cons_append, List.nil_append] at others ⊢
    rw [localRun, if_neg (Ne.symm line.1), others]

/-- Escapes are taken away one by one, whatever stands behind them. -/
theorem unescapeLocal_escapedLocal (text behind : List Char) :
    unescapeLocal (escapedLocal text ++ behind) = text ++ unescapeLocal behind := by
  induction text with
  | nil => rfl
  | cons c rest ih =>
    simp only [escapedLocal, List.flatMap_cons, List.cons_append, List.nil_append] at ih ⊢
    rw [unescapeLocal, ih]

/-- Of the points at the end only the last is given back, as there is a
backslash before it. -/
theorem dropFinalPoints_escapedLocal (front : List Char) (last : Char) :
    dropFinalPoints (escapedLocal (front ++ [last])) =
      escapedLocal front ++ if last = '.' then ['\\'] else ['\\', last] := by
  have written : escapedLocal (front ++ [last]) = escapedLocal front ++ ['\\'] ++ [last] := by
    simp [escapedLocal]
  have dropped : dropFinalPoints (escapedLocal (front ++ [last])) =
      (escapedLocal (front ++ [last])).rdropWhile (· == '.') := rfl
  rw [dropped, written]
  by_cases point : last = '.'
  · rw [if_pos point, List.rdropWhile_concat_pos _ _ _ (by simp [point]),
      List.rdropWhile_concat_neg _ _ _ (by decide)]
  · rw [if_neg point, List.rdropWhile_concat_neg _ _ _ (by simp [point])]
    simp

namespace Scan

/-- What is read of an escaped local name is what is left of it without its
final points. -/
theorem prefixedName_escapedLocal {name text : List Char} (isName : IsNamespaceName name)
    (line : '\n' ∉ text) (following : List Char) {c : Cursor}
    (here : c.rest = name ++ ':' :: (escapedLocal text ++ ' ' :: following)) :
    prefixedName c =
      .ok ((String.ofList name, String.ofList
        (unescapeLocal (dropFinalPoints (escapedLocal text)))),
        c.advance (name.length + 1 + (dropFinalPoints (escapedLocal text)).length)) := by
  have solid : skipText c.rest = c.rest := by
    rw [here]
    exact isName.skipText_eq _
  have stays : c.skip = c := c.skip_eq_self (by simp [here]) solid
  have behind : c.rest.drop (name.length + 1) = escapedLocal text ++ ' ' :: following := by
    rw [here, ← List.drop_drop, List.drop_left, List.drop_succ_cons, List.drop_zero]
  have named : namespaceName? c.rest = some name := by
    rw [here]
    exact isName.namespaceName?_eq _
  have found : prefixedName? (skipText c.rest) = some ⟨name, escapedLocal text⟩ := by
    rw [solid, prefixedName?, named, Option.map_some, behind, localRun_escapedLocal line]
  have read := prefixedName_token.found (c := c) (by rw [readName?, found]; rfl)
  rw [stays] at read
  exact read

/-- A local name that does not end with a point loses nothing. -/
theorem readsUpTo_escapedLocal {name text : List Char} (isName : IsNamespaceName name)
    (line : '\n' ∉ text) (noPoint : text.getLast? ≠ some '.') (following : List Char) :
    ReadsUpTo prefixedName (name ++ ':' :: escapedLocal text) (' ' :: following)
      (String.ofList name, String.ofList text) := by
  have kept : dropFinalPoints (escapedLocal text) = escapedLocal text := by
    rcases List.eq_nil_or_concat' text with rfl | ⟨front, last, rfl⟩
    · rfl
    · have other : last ≠ '.' := by simpa using noPoint
      rw [dropFinalPoints_escapedLocal, if_neg other]
      simp [escapedLocal]
  have plain : unescapeLocal (escapedLocal text) = text := by
    simpa [unescapeLocal] using unescapeLocal_escapedLocal text []
  have read := prefixedName_escapedLocal isName line following
    (c := Cursor.start (name ++ ':' :: escapedLocal text ++ ' ' :: following))
      (by simp [Cursor.start])
  rw [kept, plain] at read
  rw [ReadsUpTo, read, List.length_append, List.length_cons, Nat.add_assoc, Nat.add_comm 1]

/-- Where the last character is a point, the reader stops in front of it, and
its backslash is left without anything to escape. -/
theorem readsUpTo_escapedLocal_point {name front : List Char} (isName : IsNamespaceName name)
    (line : '\n' ∉ front) (following : List Char) :
    ReadsUpTo prefixedName (name ++ ':' :: (escapedLocal front ++ ['\\'])) ('.' :: ' ' :: following)
      (String.ofList name, String.ofList (front ++ ['\\'])) := by
  have cut : dropFinalPoints (escapedLocal (front ++ ['.'])) = escapedLocal front ++ ['\\'] := by
    rw [dropFinalPoints_escapedLocal, if_pos rfl]
  have left : unescapeLocal (escapedLocal front ++ ['\\']) = front ++ ['\\'] := by
    rw [unescapeLocal_escapedLocal]
    rfl
  have pointed : '\n' ∉ front ++ ['.'] := by simpa using line
  have read := prefixedName_escapedLocal isName pointed following
    (c := Cursor.start (name ++ ':' :: (escapedLocal front ++ ['\\']) ++ '.' :: ' ' :: following))
    (by simp [Cursor.start, escapedLocal])
  rw [cut, left] at read
  have sizes : (name ++ ':' :: (escapedLocal front ++ ['\\'])).length =
      name.length + 1 + (escapedLocal front ++ ['\\']).length := by
    simp only [List.length_append, List.length_cons]
    omega
  rw [ReadsUpTo, read, sizes]

/-- A local name of which each character is escaped is read back, up to the
blank behind it, exactly if it does not end with a point. If it does, a
backslash is read in place of the point, and the point is left. -/
theorem prefixedName_escaped_iff {name text : List Char} (isName : IsNamespaceName name)
    (line : '\n' ∉ text) (following : List Char) :
    (ReadsUpTo prefixedName (name ++ ':' :: escapedLocal text) (' ' :: following)
        (String.ofList name, String.ofList text) ↔ text.getLast? ≠ some '.') ∧
      ∀ front, text = front ++ ['.'] →
        ReadsUpTo prefixedName (name ++ ':' :: (escapedLocal front ++ ['\\']))
          ('.' :: ' ' :: following)
          (String.ofList name, String.ofList (front ++ ['\\'])) := by
  constructor
  · constructor
    · intro read point
      obtain ⟨front, rfl⟩ := List.getLast?_eq_some_iff.mp point
      have other := readsUpTo_escapedLocal_point isName
        (fun member => line (List.mem_append_left _ member)) following
      have texts : name ++ ':' :: (escapedLocal front ++ ['\\']) ++ '.' :: ' ' :: following =
          name ++ ':' :: escapedLocal (front ++ ['.']) ++ ' ' :: following := by
        simp [escapedLocal]
      rw [ReadsUpTo, texts] at other
      rw [ReadsUpTo, other] at read
      simp at read
    · intro noPoint
      exact readsUpTo_escapedLocal isName line noPoint following
  · rintro front rfl
    exact readsUpTo_escapedLocal_point isName
      (fun member => line (List.mem_append_left _ member)) following

/-- A backslash and a point inside of a local name are read back, and a point
at its end is not. -/
theorem prefixedName_escaped_iff_point :
    ReadsUpTo prefixedName ("p.q:".toList ++ escapedLocal "a.\\ b".toList) [' ', ';']
      ("p.q", "a.\\ b") ∧
      ¬ ReadsUpTo prefixedName ("p.q:".toList ++ escapedLocal "a.".toList) [' ', ';']
        ("p.q", "a.") ∧
      ReadsUpTo prefixedName "p.q:\\a\\".toList ['.', ' ', ';'] ("p.q", "a\\") := by
  have others : ∀ c ∈ ['.', 'q'], isNameChar c = true := List.all_eq_true.mp (by decide)
  have isName : IsNamespaceName "p.q".toList := Or.inr ⟨'p', ['.', 'q'], rfl, by decide, others⟩
  have inner : '\n' ∉ "a.\\ b".toList := by decide
  have final : '\n' ∉ "a.".toList := by decide
  have ends := prefixedName_escaped_iff isName final [';']
  constructor
  · exact (prefixedName_escaped_iff isName inner [';']).1.mpr (by decide)
  · constructor
    · intro read
      exact ends.1.mp read (by decide)
    · exact ends.2 ['a'] rfl

end Scan

end ShapeQuery.Compact
