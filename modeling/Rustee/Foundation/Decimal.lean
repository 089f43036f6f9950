/-
# Rustee.Foundation.Decimal -- decimal texts and the texts they delimit

A number prints as decimal digits, so its text ends where the first other character stands.
That makes `lengthDelimited`, a text behind its own length, a code that reads off uniquely
from the front of any text (`lengthDelimited_append_inj`): keys that are put together from
such parts do not collide.
-/
import Rustee.Foundation.Text

namespace Rustee.Foundation

set_option autoImplicit false

/-- The characters of a decimal text. -/
theorem repr_digits (n : Nat) : ∀ c ∈ (Nat.repr n).toList, c.isDigit = true := by
  intro c among
  rw [Nat.toList_repr] at among
  exact Nat.isDigit_of_mem_toDigits (by decide) (by decide) among

theorem repr_injective {n m : Nat} (same : Nat.repr n = Nat.repr m) : n = m := by
  have digits := congrArg (fun text => Nat.ofDigitChars 10 text.toList 0) same
  simpa only [Nat.toList_repr, Nat.ofDigitChars_ten_toDigits] using digits

theorem intRepr_injective {a b : Int} (same : Int.repr a = Int.repr b) : a = b := by
  have noSign (n : Nat) (rest : String) : Nat.repr n ≠ "-" ++ rest := by
    intro signed
    have minus : '-' ∈ (Nat.repr n).toList := by simp [signed]
    have digit := repr_digits n '-' minus
    simp at digit
  rw [Int.repr_eq_if, Int.repr_eq_if] at same
  split_ifs at same
  · have magnitude := repr_injective same
    omega
  · exact absurd same (noSign _ _)
  · exact absurd same.symm (noSign _ _)
  · have magnitude := repr_injective ((String.append_right_inj _).1 same)
    omega

/-- `format!("{}:{text}", text.len())`. -/
def lengthDelimited (text : String) : String := Nat.repr (byteLen text) ++ ":" ++ text

/-- Two texts with the same separator after a part without it have that part in common. -/
theorem append_separator_inj {α : Type} {separator : α} {first second rest rest' : List α}
    (free : separator ∉ first) (free' : separator ∉ second)
    (same : first ++ separator :: rest = second ++ separator :: rest') :
    first = second ∧ rest = rest' := by
  induction first generalizing second with
  | nil =>
    cases second with
    | nil => exact ⟨rfl, (List.cons.inj same).2⟩
    | cons c tail => exact absurd ((List.cons.inj same).1 ▸ List.mem_cons_self) free'
  | cons c tail ih =>
    cases second with
    | nil => exact absurd ((List.cons.inj same).1 ▸ List.mem_cons_self) free
    | cons d tail' =>
      obtain ⟨rfl, tails⟩ := List.cons.inj same
      obtain ⟨rfl, rest⟩ := ih (fun member => free (List.mem_cons_of_mem _ member))
        (fun member => free' (List.mem_cons_of_mem _ member)) tails
      exact ⟨rfl, rest⟩

/-- Texts of one byte length in front of equal texts are equal. -/
theorem append_inj_of_byteLen {first second rest rest' : String}
    (length : byteLen first = byteLen second) (same : first ++ rest = second ++ rest') :
    first = second ∧ rest = rest' := by
  have bytes := congrArg (fun text => text.toByteArray.data.toList) same
  simp only [String.toByteArray_append, ByteArray.data_append, Array.toList_append] at bytes
  have front := (List.append_inj bytes length).1
  have isFirst : first = second := by
    rw [← String.toByteArray_inj]
    exact ByteArray.ext (Array.toList_inj.1 front)
  subst isFirst
  exact ⟨rfl, String.append_right_inj _ |>.1 same⟩

/-- **A length-delimited text reads off uniquely.** -/
theorem lengthDelimited_append_inj {text text' rest rest' : String}
    (same : lengthDelimited text ++ rest = lengthDelimited text' ++ rest') :
    text = text' ∧ rest = rest' := by
  have noColon : ∀ n, ':' ∉ (Nat.repr n).toList := fun n member => by
    have digit := repr_digits n ':' member
    simp at digit
  have chars := congrArg String.toList same
  simp only [lengthDelimited, String.toList_append, List.append_assoc] at chars
  obtain ⟨lengths, tails⟩ := append_separator_inj (noColon _) (noColon _) chars
  have length : byteLen text = byteLen text' := repr_injective (String.toList_inj.1 lengths)
  refine append_inj_of_byteLen length ?_
  rw [← String.toList_inj, String.toList_append, String.toList_append]
  exact tails

/-- Two texts, each behind a colon and its length, and what follows them. -/
def delimited (parts : String × String × String) : String :=
  ":" ++ (lengthDelimited parts.1 ++ (":" ++ (lengthDelimited parts.2.1 ++ parts.2.2)))

theorem delimited_injective : Function.Injective delimited := by
  rintro ⟨first, second, tail⟩ ⟨first', second', tail'⟩ same
  simp only [delimited, String.append_right_inj] at same
  obtain ⟨rfl, rest⟩ := lengthDelimited_append_inj same
  rw [String.append_right_inj] at rest
  obtain ⟨rfl, rfl⟩ := lengthDelimited_append_inj rest
  rfl

/-- A text in the order in which the parts are read off. -/
theorem append_delimited (front first second tail : String) :
    front ++ ":" ++ lengthDelimited first ++ ":" ++ lengthDelimited second ++ tail =
      front ++ delimited (first, second, tail) := by
  simp only [delimited, String.append_assoc]

end Rustee.Foundation
