import ShapeQuery.Text.Split
import Mathlib.Data.List.TakeWhile

/-!
The pieces of a text between the occurrences of a character: which characters they hold, and how
they come from the pieces of its parts.
-/
namespace ShapeQuery.Text

variable {mark c : Char}

theorem mem_of_mem_splitAt {text piece : List Char} (member : piece ∈ splitAt mark text)
    (inside : c ∈ piece) : c ∈ text := by
  induction text generalizing piece with
  | nil =>
    rw [splitAt, List.mem_singleton] at member
    rwa [member] at inside
  | cons first rest ih =>
    rw [splitAt] at member
    split at member
    · next head pieces split =>
      rw [split] at ih
      split at member
      · rcases List.mem_cons.mp member with rfl | others
        · cases inside
        · exact List.mem_cons_of_mem _ (ih others inside)
      · rcases List.mem_cons.mp member with rfl | others
        · rcases List.mem_cons.mp inside with rfl | more
          · exact .head _
          · exact List.mem_cons_of_mem _ (ih (.head _) more)
        · exact List.mem_cons_of_mem _ (ih (.tail _ others) inside)
    · rw [List.mem_singleton] at member
      rw [member, List.mem_singleton] at inside
      rw [inside]
      exact .head _

theorem splitAt_eq_cons (mark : Char) (text : List Char) :
    ∃ piece pieces, splitAt mark text = piece :: pieces := by
  cases text with
  | nil => exact ⟨[], [], rfl⟩
  | cons c rest =>
    rw [splitAt]
    split
    · split
      · exact ⟨_, _, rfl⟩
      · exact ⟨_, _, rfl⟩
    · exact ⟨_, _, rfl⟩

theorem splitAt_cons_mark (mark : Char) (rest : List Char) :
    splitAt mark (mark :: rest) = [] :: splitAt mark rest := by
  obtain ⟨piece, pieces, parts⟩ := splitAt_eq_cons mark rest
  rw [splitAt, parts]
  exact if_pos rfl

theorem splitAt_cons_other {mark c : Char} (other : c ≠ mark) {rest piece : List Char}
    {pieces : List (List Char)} (parts : splitAt mark rest = piece :: pieces) :
    splitAt mark (c :: rest) = (c :: piece) :: pieces := by
  rw [splitAt, parts]
  exact if_neg other

/-- A mark divides: the pieces in front of it and those behind it are the
pieces of the whole. -/
theorem splitAt_append (mark : Char) (front back : List Char) :
    splitAt mark (front ++ mark :: back) = splitAt mark front ++ splitAt mark back := by
  induction front with
  | nil => exact splitAt_cons_mark mark back
  | cons c front ih =>
    by_cases same : c = mark
    · subst same
      rw [List.cons_append, splitAt_cons_mark, splitAt_cons_mark, ih, List.cons_append]
    · obtain ⟨piece, pieces, parts⟩ := splitAt_eq_cons mark front
      rw [parts, List.cons_append] at ih
      rw [List.cons_append, splitAt_cons_other same ih, splitAt_cons_other same parts,
        List.cons_append]

theorem splitAt_of_not_mem {mark : Char} {text : List Char} (without : mark ∉ text) :
    splitAt mark text = [text] := by
  induction text with
  | nil => rfl
  | cons c rest ih =>
    rw [List.mem_cons, not_or] at without
    exact splitAt_cons_other (Ne.symm without.1) (ih without.2)

/-- Texts with a character between them that none of them holds are the pieces
of the whole. Induction on the texts. -/
theorem splitAt_intercalate {separator : String} (single : separator.toList = [mark])
    {texts : List String} (given : texts ≠ []) (without : ∀ text ∈ texts, mark ∉ text.toList) :
    splitAt mark (separator.intercalate texts).toList = texts.map String.toList := by
  induction texts with
  | nil => exact absurd rfl given
  | cons text rest ih =>
    obtain ⟨here, others⟩ := List.forall_mem_cons.mp without
    cases rest with
    | nil => rw [String.intercalate_singleton, splitAt_of_not_mem here, List.map_singleton]
    | cons next rest =>
      rw [List.map_cons, String.intercalate_cons_cons, String.toList_append,
        String.toList_append, single, List.append_assoc, List.singleton_append, splitAt_append,
        splitAt_of_not_mem here, ih (List.cons_ne_nil _ _) others, List.singleton_append]

theorem not_mem_of_mem_splitAt {mark : Char} {text piece : List Char}
    (member : piece ∈ splitAt mark text) : mark ∉ piece := by
  induction text generalizing piece with
  | nil =>
    rw [splitAt, List.mem_singleton] at member
    rw [member]
    exact List.not_mem_nil
  | cons c rest ih =>
    by_cases same : c = mark
    · subst same
      rw [splitAt_cons_mark, List.mem_cons] at member
      obtain rfl | member := member
      · exact List.not_mem_nil
      · exact ih member
    · obtain ⟨first, pieces, parts⟩ := splitAt_eq_cons mark rest
      rw [splitAt_cons_other same parts, List.mem_cons] at member
      obtain rfl | member := member
      · rw [List.mem_cons, not_or]
        exact ⟨Ne.symm same, ih (parts ▸ List.mem_cons_self)⟩
      · exact ih (parts ▸ List.mem_cons_of_mem _ member)

theorem mem_joinWith {pieces : List (List Char)} (member : c ∈ joinWith mark pieces) :
    c = mark ∨ ∃ piece ∈ pieces, c ∈ piece := by
  induction pieces with
  | nil => cases member
  | cons first rest ih =>
    cases rest with
    | nil => exact .inr ⟨first, .head _, member⟩
    | cons second others =>
      rw [joinWith, List.mem_append, List.mem_cons] at member
      · rcases member with here | rfl | there
        · exact .inr ⟨first, .head _, here⟩
        · exact .inl rfl
        · rcases ih there with marked | ⟨piece, among, inside⟩
          · exact .inl marked
          · exact .inr ⟨piece, .tail _ among, inside⟩
      · rintro ⟨⟩

theorem mem_cutFirst_fst {text : List Char} (member : c ∈ (cutFirst mark text).1) : c ∈ text := by
  unfold cutFirst at member
  split at member
  · exact member
  · exact (List.takeWhile_prefix _).subset member

theorem mem_cutFirst_snd {text : List Char} (member : c ∈ ((cutFirst mark text).2).getD []) :
    c ∈ text := by
  unfold cutFirst at member
  split at member
  · cases member
  · next after there =>
    refine (List.dropWhile_suffix (· != mark)).subset ?_
    rw [there]
    exact List.mem_cons_of_mem _ member

end ShapeQuery.Text
