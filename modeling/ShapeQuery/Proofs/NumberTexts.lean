import ShapeQuery.Number.Decimal
import Mathlib.Data.List.TakeWhile

/-!
The characters of the texts of numbers: digits, signs, a point, the letter of an
exponent, and the letters of the values that are not finite. So the text of a number has
no part in what its surroundings mean.
-/
namespace ShapeQuery

def isNumberChar (c : Char) : Bool :=
  c.isDigit || ['-', '+', '.', 'e', 'n', 'a', 'i', 'f'].contains c

/-- A text that has only characters of numbers in it. -/
def NumberChars (text : List Char) : Prop :=
  ∀ c ∈ text, isNumberChar c = true

namespace NumberChars

theorem append {front back : List Char} (first : NumberChars front) (second : NumberChars back) :
    NumberChars (front ++ back) :=
  List.forall_mem_append.mpr ⟨first, second⟩

theorem cons {c : Char} {rest : List Char} (first : isNumberChar c = true)
    (others : NumberChars rest) : NumberChars (c :: rest) :=
  List.forall_mem_cons.mpr ⟨first, others⟩

theorem zeros (count : Nat) : NumberChars (List.replicate count '0') := by
  intro c member
  rw [List.eq_of_mem_replicate member]
  rfl

/-- A character that no number has is not in a text of such characters. -/
theorem not_mem {text : List Char} (numbers : NumberChars text) {c : Char}
    (other : isNumberChar c = false) : c ∉ text := by
  intro member
  rw [numbers c member] at other
  cases other

end NumberChars

theorem numberChars_decimalDigits (n : Nat) : NumberChars (decimalDigits n) := by
  intro c member
  have digit := Nat.isDigit_of_mem_toDigits (by decide) (by decide) member
  rw [isNumberChar, digit, Bool.true_or]

/-- An integer is written with digits and perhaps a sign. -/
theorem numberChars_decimalText (n : Int) : NumberChars (decimalText n).toList := by
  have digits := numberChars_decimalDigits n.natAbs
  unfold decimalText
  simp only [String.toList_ofList]
  split
  · exact .cons rfl digits
  · exact digits

namespace Double

theorem numberChars_significant (mantissa : Nat) (exponent : Int) :
    NumberChars (significant mantissa exponent).digits := by
  intro c member
  have kept := (List.dropWhile_sublist _).subset (List.mem_reverse.mp member)
  exact numberChars_decimalDigits _ c (List.mem_reverse.mp kept)

/-- A number in positional form has its digits, a point, and zeros that fill
the places. -/
theorem numberChars_positional {d : Digits} (digits : NumberChars d.digits) :
    NumberChars (positional d) := by
  have front : NumberChars (d.digits.take d.point.toNat) :=
    fun c member => digits c (List.mem_of_mem_take member)
  have back : NumberChars (d.digits.drop d.point.toNat) :=
    fun c member => digits c (List.mem_of_mem_drop member)
  unfold positional
  split
  · exact .append (.cons rfl (.cons rfl (.zeros _))) digits
  · refine .append (.append front (.zeros _)) (.cons rfl ?_)
    split
    · exact .cons rfl (List.forall_mem_nil _)
    · exact back

/-- A number in scientific form has an exponent besides its digits. -/
theorem numberChars_scientific {d : Digits} (digits : NumberChars d.digits) :
    NumberChars (scientific d) := by
  have power := numberChars_decimalDigits (d.point - 1).natAbs
  unfold scientific
  refine .append ?_ (.cons rfl (.cons ?_ ?_))
  · split
    · next first second more chars =>
      rw [chars] at digits
      obtain ⟨one, others⟩ := List.forall_mem_cons.mp digits
      exact .cons one (.cons rfl others)
    · exact digits
  · split <;> rfl
  · split
    · exact .cons rfl power
    · exact power

/-- Every number is written with the characters of numbers only, whichever of
the forms it takes. So its text breaks out of no string and no bracket of a
query. -/
theorem numberChars_text (x : Double) : NumberChars x.text.toList := by
  cases x with
  | nan => exact List.all_eq_true.mp (by decide)
  | infinite negative => cases negative <;> exact List.all_eq_true.mp (by decide)
  | finite negative mantissa exponent =>
    have digits := numberChars_significant mantissa exponent
    have body : NumberChars (if mantissa = 0 then ['0', '.', '0'] else
        let d := significant mantissa exponent
        if -4 < d.point ∧ d.point ≤ 16 then positional d else scientific d) := by
      split
      · exact List.all_eq_true.mp (by decide)
      · dsimp only
        split
        · exact numberChars_positional digits
        · exact numberChars_scientific digits
    unfold text
    simp only [String.toList_ofList]
    split
    · exact .cons rfl body
    · exact body

end Double

end ShapeQuery
