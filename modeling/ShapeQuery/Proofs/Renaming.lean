import ShapeQuery.Proofs.Lines
import ShapeQuery.Proofs.Template
import Mathlib.Data.List.TakeWhile

/-!
Renaming the fresh variables of a text. What stands on either side of a divider is
renamed by itself, a text without the mark of fresh variables stays, and filters are
told, taken apart and combined as before.
-/
namespace ShapeQuery.Compile

open Template

/-- The text with its fresh variables renumbered. -/
def renameFresh (renumber : Nat → Nat) (text : String) : String :=
  String.ofList ((read text.toList).fill renumber)

theorem renameFresh_toList (renumber : Nat → Nat) (text : String) :
    (renameFresh renumber text).toList = (read text.toList).fill renumber :=
  String.toList_ofList

/-- Different texts stay different when different fresh variables get different
numbers. -/
theorem renameFresh_injective {renumber : Nat → Nat} (injective : Function.Injective renumber) :
    Function.Injective (renameFresh renumber) := by
  intro text other same
  have lists := congrArg String.toList same
  rw [renameFresh_toList, renameFresh_toList] at lists
  exact String.toList_injective (fill_read_injective injective lists)

/-- The variable with a number becomes that with the new number. -/
theorem renameFresh_fresh (renumber : Nat → Nat) (number : Nat) :
    renameFresh renumber (freshVariable number) = freshVariable (renumber number) := by
  apply String.toList_injective
  have alone : (freshVariable number).toList = '?' :: (freshName number).toList ++ [] := by
    simp [freshVariable]
  rw [renameFresh_toList, alone, read_fresh number rfl, fill_hole, read_nil, fill_nil]
  simp [freshVariable]

/-! ### Texts that stay -/

def isPlain (text : String) : Bool :=
  !text.toList.contains '?'

theorem isPlain_iff {text : String} : isPlain text = true ↔ '?' ∉ text.toList := by
  simp [isPlain]

/-- A text without question marks has no variable to rename. -/
theorem renameFresh_plain {text : String} (plain : isPlain text = true) (renumber : Nat → Nat) :
    renameFresh renumber text = text := by
  have kept := read_append_plain (isPlain_iff.mp plain) []
  rw [List.append_nil, read_nil, List.append_nil] at kept
  rw [renameFresh, kept, fill_chars, String.ofList_toList]

def freshMark : List Char := "?litOrObj_".toList

/-- A text in which the mark of fresh variables does not occur. -/
def Unmarked (text : List Char) : Prop :=
  ¬ freshMark <:+: text

instance (text : List Char) : Decidable (Unmarked text) :=
  inferInstanceAs (Decidable (¬ freshMark <:+: text))

theorem freshMark_starts (number : Nat) : freshMark <+: '?' :: (freshName number).toList := by
  rw [freshName_toList]
  exact List.prefix_append freshMark _

/-- A text without the mark of fresh variables has no holes. -/
theorem read_unmarked {text : List Char} (unmarked : Unmarked text) :
    read text = text.map .char := by
  induction text with
  | nil => exact read_nil
  | cons c rest ih =>
    have other : startsFresh? c rest = none := by
      rw [Option.eq_none_iff_forall_ne_some]
      intro number fresh
      obtain ⟨rfl, name⟩ := startsFresh?_eq_some.mp fresh
      have start : '?' :: (freshName number).toList <+: '?' :: rest := by
        rw [← name]
        exact List.cons_prefix_cons.mpr ⟨rfl, List.takeWhile_prefix _⟩
      exact unmarked ((freshMark_starts number).trans start).isInfix
    rw [read_of_none other, ih fun inside => unmarked (List.infix_cons inside), List.map_cons]

theorem renameFresh_unmarked {text : String} (unmarked : Unmarked text.toList)
    (renumber : Nat → Nat) : renameFresh renumber text = text := by
  rw [renameFresh, read_unmarked unmarked, fill_chars, String.ofList_toList]

/-- A text without fresh variables stays so between dividers. -/
theorem read_enclosed {front back : Char} (opens : isDivider front = true)
    (closes : isDivider back = true) {text : List Char} (chars : read text = text.map .char) :
    read (front :: text ++ [back]) = (front :: text ++ [back]).map .char := by
  have start := read_append_cons opens [] text
  rw [List.nil_append, read_nil, List.nil_append, chars] at start
  rw [read_append_cons closes, start, read_nil, List.map_append, List.map_cons, List.map_cons,
    List.map_nil]

/-! ### Texts side by side -/

def opensApart (text : String) : Bool :=
  text.toList.head?.any isDivider

def closesApart (text : String) : Bool :=
  text.toList.getLast?.any isDivider

theorem renameFresh_plain_append {front : String} (plain : isPlain front = true)
    (renumber : Nat → Nat) (back : String) :
    renameFresh renumber (front ++ back) = front ++ renameFresh renumber back := by
  apply String.toList_injective
  rw [renameFresh_toList, String.toList_append,
    read_append_plain (isPlain_iff.mp plain), fill_append, fill_chars, String.toList_append,
      renameFresh_toList]

/-- Two texts are renamed each by itself, if the second opens with a divider.
Without one a name could go on across the border. -/
theorem renameFresh_append_opens {back : String} (opens : opensApart back = true)
    (renumber : Nat → Nat) (front : String) :
    renameFresh renumber (front ++ back) = renameFresh renumber front ++
      renameFresh renumber back := by
  apply String.toList_injective
  rw [String.toList_append, renameFresh_toList, renameFresh_toList, renameFresh_toList,
    String.toList_append]
  cases chars : back.toList with
  | nil => simp [opensApart, chars] at opens
  | cons c rest =>
    have divider : isDivider c = true := by simpa [opensApart, chars] using opens
    have alone := read_append_cons divider [] rest
    rw [List.nil_append, read_nil, List.nil_append] at alone
    rw [read_append_cons divider, fill_append, alone]

/-- The same if the first text closes with a divider. -/
theorem renameFresh_append_closes {front : String} (closes : closesApart front = true)
    (renumber : Nat → Nat) (back : String) :
    renameFresh renumber (front ++ back) = renameFresh renumber front ++
      renameFresh renumber back := by
  apply String.toList_injective
  rw [String.toList_append, renameFresh_toList, renameFresh_toList, renameFresh_toList,
    String.toList_append]
  rcases List.eq_nil_or_concat front.toList with none | ⟨start, c, chars⟩
  · simp [closesApart, none] at closes
  · have divider : isDivider c = true := by simpa [closesApart, chars] using closes
    rw [chars, List.concat_eq_append, List.append_assoc, List.singleton_append,
      read_append_cons divider, read_append_cons divider, read_nil, ← fill_append,
      List.append_assoc, List.singleton_append]

/-- Renaming goes into a text that is followed by a divider. -/
theorem renameFresh_before {fixed : String} (plain : isPlain fixed = true)
    (opens : opensApart fixed = true) (renumber : Nat → Nat) (front : String) :
    renameFresh renumber (front ++ fixed) = renameFresh renumber front ++ fixed := by
  rw [renameFresh_append_opens opens, renameFresh_plain plain]

/-- Renaming goes into both texts on the sides of a fixed one that starts and
ends with a divider. -/
theorem renameFresh_between {fixed : String} (plain : isPlain fixed = true)
    (opens : opensApart fixed = true) (closes : closesApart fixed = true) (renumber : Nat → Nat)
    (front back : String) :
    renameFresh renumber (front ++ fixed ++ back) =
      renameFresh renumber front ++ fixed ++ renameFresh renumber back := by
  have ends : closesApart (front ++ fixed) = true := by
    cases last : fixed.toList.getLast? with
    | none => simp [closesApart, last] at closes
    | some c =>
      simp only [closesApart, last, Option.any_some] at closes
      simp [closesApart, last, closes]
  rw [renameFresh_append_closes ends, renameFresh_before plain opens]

/-- Renaming goes into texts that are put together with dividers between them.
Induction on the texts. -/
theorem renameFresh_intercalate {separator : String} (plain : isPlain separator = true)
    (opens : opensApart separator = true) (closes : closesApart separator = true)
    (renumber : Nat → Nat) (texts : List String) :
    renameFresh renumber (separator.intercalate texts) =
      separator.intercalate (texts.map (renameFresh renumber)) := by
  induction texts with
  | nil =>
    rw [List.map_nil, String.intercalate_nil]
    exact renameFresh_plain (by decide) renumber
  | cons text rest ih =>
    cases rest with
    | nil => simp
    | cons next more =>
      rw [String.intercalate_cons_cons, renameFresh_between plain opens closes, ih]
      simp only [List.map_cons, String.intercalate_cons_cons]

/-! ### Filters -/

/-- Texts that are told by characters other than question marks are told alike. -/
theorem isPrefixOf_fill_read {start : List Char} (plain : '?' ∉ start) (renumber : Nat → Nat) :
    ∀ text : List Char, start.isPrefixOf ((read text).fill renumber) = start.isPrefixOf text := by
  induction start with
  | nil => exact fun _ => rfl
  | cons c rest ih =>
    rw [List.mem_cons, not_or] at plain
    intro text
    cases text with
    | nil => rw [read_nil, fill_nil]
    | cons d more =>
      cases fresh : startsFresh? d more with
      | some number =>
        obtain ⟨rfl, -⟩ := startsFresh?_eq_some.mp fresh
        have different : (c == '?') = false := by simpa using Ne.symm plain.1
        rw [read_of_some fresh, fill_hole, List.cons_append, List.isPrefixOf,
          List.isPrefixOf, different, Bool.false_and, Bool.false_and]
      | none =>
        rw [read_of_none fresh, fill_char, List.isPrefixOf, List.isPrefixOf, ih plain.2]

/-- A line is a filter before and after renaming, as the word that tells it has
no question mark. -/
theorem isFilter_renameFresh (renumber : Nat → Nat) (line : String) :
    isFilter (renameFresh renumber line) = isFilter line := by
  rw [isFilter, renameFresh_toList, isPrefixOf_fill_read (by decide)]
  rfl

theorem isValues_renameFresh (renumber : Nat → Nat) (line : String) :
    isValues (renameFresh renumber line) = isValues line := by
  rw [isValues, renameFresh_toList, isPrefixOf_fill_read (by decide)]
  rfl

/-! ### Blanks at the ends -/

theorem blankRanges_low : ∀ blank ∈ Text.blankRanges, blank.2 ≤ 32 ∨ 128 ≤ blank.1 := by
  decide

theorem blankRanges_apart : ∀ blank ∈ Text.blankRanges, ∀ word ∈ Text.alphanumericRanges,
    word.2 < blank.1 ∨ blank.2 < word.1 := by
  decide +kernel

theorem not_isAlphanum_of_le {c : Char} (small : c.toNat ≤ 32) : c.isAlphanum = false := by
  have below : ∀ first : Char, 32 < first.toNat → ¬ first.val ≤ c.val := by
    intro first low above
    have between : first.toNat ≤ c.toNat := UInt32.le_iff_toNat_le.mp above
    omega
  have upper : c.isUpper = false := decide_eq_false fun inside => below 'A' (by decide) inside.1
  have lower : c.isLower = false :=
    Bool.and_eq_false_iff.mpr (Or.inl (decide_eq_false (below 'a' (by decide))))
  have digit : c.isDigit = false :=
    Bool.and_eq_false_iff.mpr (Or.inl (decide_eq_false (below '0' (by decide))))
  exact Bool.or_eq_false_iff.mpr ⟨Bool.or_eq_false_iff.mpr ⟨upper, lower⟩, digit⟩

/-- A blank ends a variable and starts none, which is seen from the ranges of
both kinds of characters. -/
theorem isDivider_of_isBlank {c : Char} (blank : Text.isBlank c = true) : isDivider c = true := by
  obtain ⟨range, member, inside⟩ := List.any_eq_true.mp blank
  simp only [Bool.and_eq_true, decide_eq_true_eq] at inside
  have low := blankRanges_low range member
  have noWord : Text.isAlphanumeric c = false := by
    unfold Text.isAlphanumeric
    split
    · exact not_isAlphanum_of_le (by omega)
    · rw [Text.Ranges.contains, List.any_eq_false]
      intro word wordMember
      have apart := blankRanges_apart range member word wordMember
      simp only [Bool.and_eq_true, decide_eq_true_eq]
      omega
  have other : ∀ d : Char, 32 < d.toNat → d.toNat < 128 → c ≠ d := by
    rintro d above below rfl
    omega
  simp [isDivider, Text.isWord, noWord, other '_' (by decide) (by decide),
    other '?' (by decide) (by decide)]

/-- A text with blanks only around a part that neither starts nor ends with one. -/
structure Trimmed (text core front back : List Char) : Prop where
  split : text = front ++ core ++ back
  front : ∀ c ∈ front, Text.isBlank c = true
  back : ∀ c ∈ back, Text.isBlank c = true
  head : ∀ c ∈ core.head?, Text.isBlank c = false
  last : ∀ c ∈ core.getLast?, Text.isBlank c = false

theorem head?_dropWhile_isBlank (text : List Char) :
    ∀ c ∈ (text.dropWhile Text.isBlank).head?, Text.isBlank c = false := by
  intro c found
  have stopped := List.head?_dropWhile_not Text.isBlank text
  rw [Option.mem_def] at found
  rw [found] at stopped
  simpa using stopped

/-- Trimming leaves a part that neither starts nor ends with a blank, and takes
only blanks away. -/
theorem trimmed_trim (text : List Char) :
    ∃ front back, Trimmed text (Text.trim text) front back := by
  have start : text = text.takeWhile Text.isBlank ++ Text.trimStart text :=
    List.takeWhile_append_dropWhile.symm
  have whole : (Text.trimStart text).reverse = (Text.trimStart text).reverse.takeWhile
    Text.isBlank ++
      Text.trimStart (Text.trimStart text).reverse := List.takeWhile_append_dropWhile.symm
  have split : Text.trimStart text = Text.trim text ++
      ((Text.trimStart text).reverse.takeWhile Text.isBlank).reverse := by
    rw [Text.trim, ← List.reverse_append, ← whole, List.reverse_reverse]
  refine ⟨text.takeWhile Text.isBlank,
    ((Text.trimStart text).reverse.takeWhile Text.isBlank).reverse, ?_, ?_, ?_, ?_, ?_⟩
  · rw [List.append_assoc, ← split]
    exact start
  · exact fun c member => List.mem_takeWhile_imp member
  · exact fun c member => List.mem_takeWhile_imp (List.mem_reverse.mp member)
  · intro c found
    refine head?_dropWhile_isBlank text c ?_
    change c ∈ (Text.trimStart text).head?
    rw [split, List.head?_append, Option.mem_def.mp found]
    rfl
  · intro c found
    refine head?_dropWhile_isBlank (Text.trimStart text).reverse c ?_
    rwa [Text.trim, List.getLast?_reverse] at found

theorem Trimmed.trim_eq {text core front back : List Char}
    (trimmed : Trimmed text core front back) : Text.trim text = core := by
  obtain ⟨rfl, blank, blankBack, head, last⟩ := trimmed
  have start : Text.trimStart (front ++ core ++ back) = Text.trimStart (core ++ back) := by
    rw [List.append_assoc, Text.trimStart, List.dropWhile_append_of_pos blank]
    rfl
  cases core with
  | nil =>
    have none : Text.trimStart ([] ++ back) = [] := List.dropWhile_eq_nil_iff.mpr blankBack
    rw [Text.trim, start, none]
    rfl
  | cons c rest =>
    have kept : Text.trimStart (c :: rest ++ back) = c :: rest ++ back :=
      List.dropWhile_cons_of_neg (by simp [head c rfl])
    have ended : Text.trimStart (c :: rest ++ back).reverse = (c :: rest).reverse := by
      rw [List.reverse_append, Text.trimStart,
        List.dropWhile_append_of_pos fun d member => blankBack d (List.mem_reverse.mp member)]
      cases reversed : (c :: rest).reverse with
      | nil => rfl
      | cons d more =>
        refine List.dropWhile_cons_of_neg ?_
        rw [last d (by rw [List.getLast?_eq_head?_reverse, reversed]; rfl)]
        simp
    rw [Text.trim, start, kept, ended, List.reverse_reverse]

theorem head?_fill_read (renumber : Nat → Nat) (text : List Char) :
    ((read text).fill renumber).head? = text.head? := by
  fun_cases read text with
  | case1 => rfl
  | case2 c rest number fresh =>
    obtain ⟨rfl, -⟩ := startsFresh?_eq_some.mp fresh
    rw [fill_hole, List.cons_append, List.head?_cons, List.head?_cons]
  | case3 c rest other => rw [fill_char, List.head?_cons, List.head?_cons]

theorem renameFresh_eq_empty (renumber : Nat → Nat) (text : String) :
    renameFresh renumber text = "" ↔ text = "" := by
  rw [← String.toList_eq_nil_iff, ← String.toList_eq_nil_iff, renameFresh_toList,
    ← List.head?_eq_none_iff, head?_fill_read, List.head?_eq_none_iff]

theorem mem_getLast?_cons {c d : Char} {rest : List Char} (found : c ∈ rest.getLast?) :
    c ∈ (d :: rest).getLast? := by
  rw [List.getLast?_cons, Option.mem_def.mp found]
  rfl

/-- The last character stays, unless it belongs to the name of a variable. -/
theorem getLast?_fill_read (renumber : Nat → Nat) (text : List Char) :
    ∀ c ∈ ((read text).fill renumber).getLast?, Text.isWord c = true ∨ c ∈ text.getLast? := by
  fun_induction read text with
  | case1 => exact fun c found => Or.inr found
  | case2 d rest number fresh ih =>
    intro c found
    rw [fill_hole, List.getLast?_append] at found
    rcases Option.or_eq_some_iff.mp found with later | ⟨-, last⟩
    · refine (ih c later).imp_right fun inside => mem_getLast?_cons ?_
      rw [← List.takeWhile_append_dropWhile (p := Text.isWord) (l := rest), List.getLast?_append,
        Option.mem_def.mp inside]
      rfl
    · obtain ⟨tail, chars⟩ := freshName_cons (renumber number)
      rw [chars, List.getLast?_cons_cons, ← chars] at last
      exact Or.inl (isWord_of_mem_freshName _ c (List.mem_of_getLast? last))
  | case3 d rest other ih =>
    intro c found
    rw [fill_char, List.getLast?_cons, Option.mem_some_iff] at found
    cases later : ((read rest).fill renumber).getLast? with
    | some e =>
      rw [later, Option.getD_some] at found
      subst found
      exact (ih e later).imp_right mem_getLast?_cons
    | none =>
      rw [later, Option.getD_none] at found
      have none : rest.head? = Option.none := by
        rw [← head?_fill_read renumber rest, List.getLast?_eq_none_iff.mp later]
        rfl
      rw [List.head?_eq_none_iff.mp none, found]
      exact Or.inr rfl

theorem read_append_dividers {back : List Char} (dividers : ∀ c ∈ back, isDivider c = true) :
    ∀ front, read (front ++ back) = read front ++ back.map .char := by
  induction back with
  | nil => simp
  | cons c rest ih =>
    intro front
    rw [List.forall_mem_cons] at dividers
    have alone := ih dividers.2 []
    rw [List.nil_append, read_nil, List.nil_append] at alone
    rw [read_append_cons dividers.1, alone, List.map_cons]

/-- Trimming and renaming go together, as blanks are in no name. -/
theorem trim_fill_read (renumber : Nat → Nat) (text : List Char) :
    Text.trim ((read text).fill renumber) = (read (Text.trim text)).fill renumber := by
  obtain ⟨front, back, split, blank, blankBack, head, last⟩ := trimmed_trim text
  have plain : '?' ∉ front := fun member => by
    have mark := blank '?' member
    revert mark
    decide
  have trimmed : Trimmed ((read text).fill renumber) ((read (Text.trim text)).fill renumber)
      front back := by
    refine ⟨?_, blank, blankBack, ?_, ?_⟩
    · have dividers := fun c member => isDivider_of_isBlank (blankBack c member)
      conv => lhs; rw [split]
      rw [List.append_assoc, read_append_plain plain, read_append_dividers dividers, fill_append,
        fill_append, fill_chars, fill_chars, List.append_assoc]
    · rwa [head?_fill_read]
    · intro c found
      rcases getLast?_fill_read renumber _ c found with word | same
      · by_contra blankLast
        have divider := isDivider_of_isBlank (Bool.not_eq_false _ ▸ blankLast)
        simp [isDivider, word] at divider
      · exact last c same
  exact trimmed.trim_eq

/-- The condition of a renamed filter is the renamed condition. -/
theorem conditionOf_renameFresh {filter : String} (filtering : isFilter filter = true)
    (renumber : Nat → Nat) :
    conditionOf (renameFresh renumber filter) = renameFresh renumber (conditionOf filter) := by
  obtain ⟨rest, chars⟩ := List.isPrefixOf_iff_prefix.mp filtering
  rw [conditionOf, conditionOf, renameFresh, renameFresh, String.toList_ofList,
    String.toList_ofList, ← chars, read_append_plain (by decide), fill_append, fill_chars,
    List.drop_left' (by decide), List.drop_left' (by decide), trim_fill_read]

theorem renameFresh_filterLine (renumber : Nat → Nat) (condition : String) :
    renameFresh renumber (filterLine condition) = filterLine (renameFresh renumber condition) := by
  simp (disch := decide) only [filterLine, renameFresh_before, renameFresh_plain_append]

theorem mergeFilters_of_ne {filters : List String} (several : ∀ filter, filters ≠ [filter])
    (operator : String) : mergeFilters filters operator =
      filterLine ((" " ++ operator ++ " ").intercalate (filters.map conditionOf)) := by
  unfold mergeFilters
  split
  · next filter => exact absurd rfl (several filter)
  · rfl

/-- Combined filters are renamed one by one. The brackets and connectives
between them are dividers. -/
theorem renameFresh_mergeFilters {filters : List String} {operator : String}
    (connective : IsConnective operator) (filtering : ∀ filter ∈ filters, isFilter filter = true)
    (renumber : Nat → Nat) :
    renameFresh renumber (mergeFilters filters operator) =
      mergeFilters (filters.map (renameFresh renumber)) operator := by
  by_cases one : ∃ filter, filters = [filter]
  · obtain ⟨filter, rfl⟩ := one
    rw [List.map_singleton, mergeFilters, mergeFilters]
  · have several : ∀ filter, filters ≠ [filter] := fun filter same => one ⟨filter, same⟩
    have still : ∀ filter, filters.map (renameFresh renumber) ≠ [filter] := by
      intro filter same
      obtain ⟨original, alone, -⟩ := List.map_eq_singleton_iff.mp same
      exact several original alone
    have conditions : (filters.map conditionOf).map (renameFresh renumber) =
        (filters.map (renameFresh renumber)).map conditionOf := by
      rw [List.map_map, List.map_map]
      exact List.map_congr_left fun filter member =>
        (conditionOf_renameFresh (filtering filter member) renumber).symm
    rw [mergeFilters_of_ne several, mergeFilters_of_ne still, renameFresh_filterLine, ← conditions]
    rcases connective with rfl | rfl
    · rw [renameFresh_intercalate (by decide) (by decide) (by decide)]
    · rw [renameFresh_intercalate (by decide) (by decide) (by decide)]

end ShapeQuery.Compile
