import Approval.Number.Decimal
import Mathlib.Tactic.IntervalCases
import Mathlib.Tactic.Lemma

/-!
# Decimal digits

A number is what its digits spell, and its digits are read up to whatever is no digit.
-/

namespace Approval.Number

/-- What follows a number has no digit in front. -/
def EndsDigits (cs : List Char) : Prop := ∀ c ∈ cs.head?, c.isDigit = false

lemma endsDigits_nil : EndsDigits [] := by simp [EndsDigits]

lemma endsDigits_cons {c : Char} (h : c.isDigit = false) (cs : List Char) : EndsDigits (c :: cs) := by
  simpa [EndsDigits] using h

section Spans

variable {cs tail : List Char}

lemma EndsDigits.takeWhile (ends : EndsDigits tail) : tail.takeWhile Char.isDigit = [] := by
  cases tail with
  | nil => rfl
  | cons c tail => simp [ends c rfl]

lemma EndsDigits.dropWhile (ends : EndsDigits tail) : tail.dropWhile Char.isDigit = tail := by
  cases tail with
  | nil => rfl
  | cons c tail => simp [ends c rfl]

lemma takeWhile_append_of_endsDigits (ends : EndsDigits tail) :
    (cs ++ tail).takeWhile Char.isDigit = cs.takeWhile Char.isDigit := by
  induction cs with
  | nil => exact ends.takeWhile
  | cons c cs ih => simp only [List.cons_append, List.takeWhile_cons, ih]

lemma dropWhile_append_of_endsDigits (ends : EndsDigits tail) :
    (cs ++ tail).dropWhile Char.isDigit = cs.dropWhile Char.isDigit ++ tail := by
  induction cs with
  | nil => exact ends.dropWhile
  | cons c cs ih =>
    simp only [List.cons_append, List.dropWhile_cons, ih]
    split_ifs <;> rfl

/-- Digits and what follows them. -/
lemma span_of_digits (digits : ∀ c ∈ cs, c.isDigit = true) (ends : EndsDigits tail) :
    (cs ++ tail).takeWhile Char.isDigit = cs ∧ (cs ++ tail).dropWhile Char.isDigit = tail := by
  rw [List.takeWhile_append_of_pos digits, List.dropWhile_append_of_pos digits, ends.takeWhile, ends.dropWhile]
  exact ⟨List.append_nil cs, rfl⟩

end Spans

/-! ### Numbers -/

lemma isDigit_of_mem_toDigits {n : Nat} : ∀ c ∈ Nat.toDigits 10 n, c.isDigit = true :=
  fun _ => Nat.isDigit_of_mem_toDigits (by decide) (by decide)

@[simp] lemma ofDigits_toDigits (n : Nat) : ofDigits (Nat.toDigits 10 n) = n :=
  Nat.ofDigitChars_toDigits (by decide) (by decide)

/-- Zeros in front of digits do not count. -/
@[simp] lemma ofDigits_replicate_append (count : Nat) (cs : List Char) :
    ofDigits (List.replicate count '0' ++ cs) = ofDigits cs := by
  have zeros : (List.replicate count '0').foldl (fun n c => 10 * n + digitOf c) 0 = 0 := by
    induction count with
    | zero => rfl
    | succ count ih => exact ih
  rw [ofDigits, List.foldl_append, zeros, ofDigits]

/-- A number that is not zero does not begin with a zero. -/
lemma head?_toDigits {n : Nat} (pos : 0 < n) : (Nat.toDigits 10 n).head? ≠ some '0' := by
  rw [Nat.toDigits_eq_if (by decide)]
  split
  case isTrue small => interval_cases n <;> decide
  case isFalse large =>
    have front := head?_toDigits (n := n / 10) (by omega)
    rwa [List.head?_append, Option.or_of_isSome (by simp [Nat.toDigits_ne_nil])]

end Approval.Number
