import ShapeQuery.Compile.Variables
import ShapeQuery.Query.Passes
import Mathlib.Data.List.Basic

/-!
Texts with fresh variables, as templates with numbered holes. A variable is a question mark and the
longest run of word characters behind it; a template is what is left of a text when its fresh
variables are taken for holes. Filled with the numbers of its holes a template is the text again,
and filling it with other numbers renames the fresh variables and changes nothing else.
-/
namespace ShapeQuery.Compile

/-! ### Names of fresh variables -/

def hexDigitValue (c : Char) : Nat :=
  if c.isDigit then c.toNat - '0'.toNat else c.toNat - 'a'.toNat + 10

def hexNumber (digits : List Char) : Nat :=
  digits.foldl (fun number c => 16 * number + hexDigitValue c) 0

theorem hexDigitValue_digitChar : ∀ digit < 16, hexDigitValue digit.digitChar = digit := by
  decide

/-- Reading hexadecimal digits gives back the number that was written with them. -/
theorem hexNumber_toDigits (number : Nat) : hexNumber (Nat.toDigits 16 number) = number := by
  induction number using Nat.strongRecOn with
  | ind number ih =>
    rw [Nat.toDigits_eq_if (by decide)]
    split
    · next small =>
      rw [hexNumber, List.foldl_cons, List.foldl_nil, hexDigitValue_digitChar number small]
      omega
    · next large =>
      have front := ih (number / 16) (by omega)
      rw [hexNumber] at front
      rw [hexNumber, List.foldl_append, front, List.foldl_cons, List.foldl_nil,
        hexDigitValue_digitChar _ (Nat.mod_lt _ (by decide))]
      omega

/-- Zeros in front do not change a number, so names of fixed width can be read. -/
theorem hexNumber_leftpad (width : Nat) (digits : List Char) :
    hexNumber (digits.leftpad width '0') = hexNumber digits := by
  have zeros : ∀ count, (List.replicate count '0').foldl
      (fun number c => 16 * number + hexDigitValue c) 0 = 0 := by
    intro count
    induction count with
    | zero => rfl
    | succ count ih => exact ih
  rw [hexNumber, List.leftpad, List.foldl_append, zeros]
  rfl

theorem ne_mark_of_isWord {c : Char} (word : Text.isWord c = true) : c ≠ '?' := by
  rintro rfl
  exact absurd word (by decide)

theorem isWord_digitChar : ∀ digit < 16, Text.isWord digit.digitChar = true := by
  decide

theorem isWord_of_mem_toDigits (number : Nat) :
    ∀ c ∈ Nat.toDigits 16 number, Text.isWord c = true := by
  induction number using Nat.strongRecOn with
  | ind number ih =>
    rw [Nat.toDigits_eq_if (by decide)]
    split
    · next small => exact List.forall_mem_singleton.mpr (isWord_digitChar number small)
    · next large =>
      refine List.forall_mem_append.mpr ⟨ih (number / 16) (by omega), ?_⟩
      exact List.forall_mem_singleton.mpr (isWord_digitChar _ (Nat.mod_lt _ (by decide)))

theorem freshName_toList (number : Nat) :
    (freshName number).toList = "litOrObj_".toList ++ (Nat.toDigits 16 number).leftpad 32 '0' := by
  simp only [freshName, String.toList_append, String.toList_ofList]

theorem freshName_cons (number : Nat) : ∃ tail, (freshName number).toList = 'l' :: tail :=
  ⟨_, freshName_toList number⟩

/-- The name of a fresh variable has word characters only, so it ends where the
word ends. -/
theorem isWord_of_mem_freshName (number : Nat) :
    ∀ c ∈ (freshName number).toList, Text.isWord c = true := by
  have letters : "litOrObj_".toList.all Text.isWord = true := by decide
  intro c member
  rw [freshName_toList, List.leftpad, List.mem_append, List.mem_append] at member
  rcases member with letter | zero | digit
  · exact List.all_eq_true.mp letters c letter
  · rw [List.eq_of_mem_replicate zero]
    decide
  · exact isWord_of_mem_toDigits number c digit

/-- The number of the fresh variable with a name, if there is one. -/
def freshNumber? (name : List Char) : Option Nat :=
  if (freshName (hexNumber (name.drop "litOrObj_".length))).toList = name then
    some (hexNumber (name.drop "litOrObj_".length))
  else none

/-- A name is read as that of a fresh variable exactly if it is written as one.
Every number has one name. -/
theorem freshNumber?_eq_some {name : List Char} {number : Nat} :
    freshNumber? name = some number ↔ name = (freshName number).toList := by
  constructor
  · intro found
    unfold freshNumber? at found
    split at found
    · next same =>
      cases found
      exact same.symm
    · cases found
  · rintro rfl
    have back : hexNumber ((freshName number).toList.drop "litOrObj_".length) = number := by
      rw [freshName_toList, List.drop_left' (by decide), hexNumber_leftpad, hexNumber_toDigits]
    rw [freshNumber?, back, if_pos rfl]

/-! ### Templates -/

/-- A piece of a text: a character, or a hole with the number of a fresh variable. -/
inductive Piece where
  | char (c : Char)
  | hole (number : Nat)
deriving DecidableEq, Repr

/-- A text with holes in it. -/
abbrev Template := List Piece

def Piece.fill (renumber : Nat → Nat) : Piece → List Char
  | .char c => [c]
  | .hole number => (freshVariable (renumber number)).toList

def Template.fill (renumber : Nat → Nat) (template : Template) : List Char :=
  template.flatMap (Piece.fill renumber)

def Piece.map (renumber : Nat → Nat) : Piece → Piece
  | .char c => .char c
  | .hole number => .hole (renumber number)

def startsFresh? (c : Char) (rest : List Char) : Option Nat :=
  if c = '?' then freshNumber? (rest.takeWhile Text.isWord) else none

theorem startsFresh?_eq_some {c : Char} {rest : List Char} {number : Nat} :
    startsFresh? c rest = some number ↔
      c = '?' ∧ rest.takeWhile Text.isWord = (freshName number).toList := by
  unfold startsFresh?
  split
  · next mark => simp [mark, freshNumber?_eq_some]
  · next other => simp [other]

/-- The template of a text: its fresh variables are taken for holes. A longer
name that starts with the name of a fresh variable is none. -/
def Template.read : List Char → Template
  | [] => []
  | c :: rest =>
    match startsFresh? c rest with
    | some number => .hole number :: Template.read (rest.dropWhile Text.isWord)
    | none => .char c :: Template.read rest
termination_by text => text.length
decreasing_by
  · exact Nat.lt_succ_of_le (List.dropWhile_sublist _).length_le
  · exact Nat.lt_succ_self _

namespace Template

theorem read_nil : read [] = [] := by
  rw [read]

/-- Where a fresh variable starts, a hole is read, and then what stands behind
the name. -/
theorem read_of_some {c : Char} {rest : List Char} {number : Nat}
    (fresh : startsFresh? c rest = some number) :
    read (c :: rest) = .hole number :: read (rest.dropWhile Text.isWord) := by
  rw [read, fresh]

theorem read_of_none {c : Char} {rest : List Char} (other : startsFresh? c rest = none) :
    read (c :: rest) = .char c :: read rest := by
  rw [read, other]

theorem read_of_ne {c : Char} (other : c ≠ '?') (rest : List Char) :
    read (c :: rest) = .char c :: read rest :=
  read_of_none (if_neg other)

theorem fill_nil (renumber : Nat → Nat) : Template.fill renumber [] = [] := rfl

theorem fill_char (renumber : Nat → Nat) (c : Char) (template : Template) :
    Template.fill renumber (.char c :: template) = c :: template.fill renumber := rfl

theorem fill_hole (renumber : Nat → Nat) (number : Nat) (template : Template) :
    Template.fill renumber (.hole number :: template) =
      '?' :: (freshName (renumber number)).toList ++ template.fill renumber := by
  simp [fill, Piece.fill, freshVariable]

theorem fill_append (renumber : Nat → Nat) (front back : Template) :
    Template.fill renumber (front ++ back) = front.fill renumber ++ back.fill renumber :=
  List.flatMap_append

theorem fill_chars (renumber : Nat → Nat) (text : List Char) :
    Template.fill renumber (text.map .char) = text := by
  induction text with
  | nil => rfl
  | cons c rest ih => rw [List.map_cons, fill_char, ih]

/-- Filled with the numbers it has, the template of a text is the text. -/
theorem fill_read (text : List Char) : (read text).fill id = text := by
  fun_induction read text with
  | case1 => rfl
  | case2 c rest number fresh ih =>
    obtain ⟨rfl, name⟩ := startsFresh?_eq_some.mp fresh
    rw [fill_hole, ih, id, ← name, List.cons_append, List.takeWhile_append_dropWhile]
  | case3 c rest other ih => rw [fill_char, ih]

/-- Word characters that a text starts with are in no hole. So filling the
holes cannot change where a name ends. -/
theorem takeWhile_fill_read (renumber : Nat → Nat) (text : List Char) :
    ((read text).fill renumber).takeWhile Text.isWord = text.takeWhile Text.isWord := by
  fun_induction read text with
  | case1 => rfl
  | case2 c rest number fresh ih =>
    obtain ⟨rfl, -⟩ := startsFresh?_eq_some.mp fresh
    rw [fill_hole, List.cons_append, List.takeWhile_cons_of_neg (by decide),
      List.takeWhile_cons_of_neg (by decide)]
  | case3 c rest other ih => rw [fill_char, List.takeWhile_cons, List.takeWhile_cons, ih]

theorem takeWhile_name {name rest : List Char} (word : ∀ c ∈ name, Text.isWord c = true)
    (stop : rest.takeWhile Text.isWord = []) : (name ++ rest).takeWhile Text.isWord = name := by
  rw [List.takeWhile_append_of_pos word, stop, List.append_nil]

theorem dropWhile_name {name rest : List Char} (word : ∀ c ∈ name, Text.isWord c = true)
    (stop : rest.takeWhile Text.isWord = []) : (name ++ rest).dropWhile Text.isWord = rest := by
  have whole := List.takeWhile_append_dropWhile (p := Text.isWord) (l := name ++ rest)
  rw [takeWhile_name word stop] at whole
  exact List.append_cancel_left whole

theorem takeWhile_dropWhile (text : List Char) :
    (text.dropWhile Text.isWord).takeWhile Text.isWord = [] := by
  induction text with
  | nil => rfl
  | cons c rest ih =>
    rw [List.dropWhile_cons]
    split
    · exact ih
    · next other => exact List.takeWhile_cons_of_neg other

/-- A fresh variable in front of what is no word character is read as a hole. -/
theorem read_fresh (number : Nat) {rest : List Char} (stop : rest.takeWhile Text.isWord = []) :
    read ('?' :: (freshName number).toList ++ rest) = .hole number :: read rest := by
  have word := isWord_of_mem_freshName number
  have fresh : startsFresh? '?' ((freshName number).toList ++ rest) = some number :=
    startsFresh?_eq_some.mpr ⟨rfl, takeWhile_name word stop⟩
  rw [List.cons_append, read_of_some fresh, dropWhile_name word stop]

/-- Filled with other numbers and read again, the template of a text has its
holes renumbered. -/
theorem read_fill_read (renumber : Nat → Nat) (text : List Char) :
    read ((read text).fill renumber) = (read text).map (Piece.map renumber) := by
  fun_induction read text with
  | case1 => exact read_nil
  | case2 c rest number fresh ih =>
    have stop : ((read (rest.dropWhile Text.isWord)).fill renumber).takeWhile Text.isWord = [] := by
      rw [takeWhile_fill_read, takeWhile_dropWhile]
    rw [fill_hole, read_fresh _ stop, ih]
    rfl
  | case3 c rest other ih =>
    have same : startsFresh? c ((read rest).fill renumber) = none := by
      unfold startsFresh? at other ⊢
      rwa [takeWhile_fill_read]
    rw [fill_char, read_of_none same, ih]
    rfl

theorem map_injective {renumber : Nat → Nat} (injective : Function.Injective renumber) :
    Function.Injective (Piece.map renumber) := by
  intro piece other same
  cases piece <;> cases other <;> simp_all [Piece.map, injective.eq_iff]

/-- Different texts have different templates, and stay different when different
holes are renumbered differently. -/
theorem fill_read_injective {renumber : Nat → Nat} (injective : Function.Injective renumber) :
    Function.Injective fun text : List Char => (read text).fill renumber := by
  intro text other same
  have shifted := congrArg read same
  simp only [read_fill_read] at shifted
  have templates := (map_injective injective).list_map shifted
  rw [← fill_read text, ← fill_read other, templates]

/-! ### Texts side by side -/

/-- Text in front without a question mark is read as it stands. -/
theorem read_append_plain {front : List Char} (plain : '?' ∉ front) (back : List Char) :
    read (front ++ back) = front.map .char ++ read back := by
  induction front with
  | nil => rfl
  | cons c rest ih =>
    rw [List.mem_cons, not_or] at plain
    rw [List.cons_append, read_of_ne (Ne.symm plain.1), ih plain.2, List.map_cons, List.cons_append]

/-- Whether a character ends a variable and starts none. -/
def isDivider (c : Char) : Bool :=
  !Text.isWord c && c != '?'

theorem takeWhile_append_cons {c : Char} (other : Text.isWord c = false) (front back : List Char) :
    (front ++ c :: back).takeWhile Text.isWord = front.takeWhile Text.isWord := by
  induction front with
  | nil => exact List.takeWhile_cons_of_neg (by simp [other])
  | cons d rest ih => rw [List.cons_append, List.takeWhile_cons, List.takeWhile_cons, ih]

theorem dropWhile_append_cons {c : Char} (other : Text.isWord c = false) (front back : List Char) :
    (front ++ c :: back).dropWhile Text.isWord = front.dropWhile Text.isWord ++ c :: back := by
  induction front with
  | nil => exact List.dropWhile_cons_of_neg (by simp [other])
  | cons d rest ih =>
    rw [List.cons_append, List.dropWhile_cons, List.dropWhile_cons, ih]
    split <;> rfl

/-- A text is read on either side of a divider by itself. No name goes across it. -/
theorem read_append_cons {c : Char} (divider : isDivider c = true) (front back : List Char) :
    read (front ++ c :: back) = read front ++ .char c :: read back := by
  simp only [isDivider, Bool.and_eq_true, Bool.not_eq_true', bne_iff_ne] at divider
  obtain ⟨other, noMark⟩ := divider
  fun_induction read front with
  | case1 => exact read_of_ne noMark back
  | case2 d rest number fresh ih =>
    have same : startsFresh? d (rest ++ c :: back) = some number := by
      rw [startsFresh?, takeWhile_append_cons other]
      exact fresh
    rw [List.cons_append, read_of_some same, dropWhile_append_cons other, ih]
    rfl
  | case3 d rest none ih =>
    have same : startsFresh? d (rest ++ c :: back) = Option.none := by
      rw [startsFresh?, takeWhile_append_cons other]
      exact none
    rw [List.cons_append, read_of_none same, ih]
    rfl

end Template

end ShapeQuery.Compile
