import Mathlib.Data.List.TakeWhile
import Mathlib.Data.Nat.Digits.Lemmas
import Mathlib.Tactic.Ring

/-!
# Changing the base of a number

Big-endian digit strings to one base written to another, digit by digit, with the leading
zeros kept one for one. A string is a number of leading zeros and a number (`padded`);
converting changes the base and keeps both, and cutting digits off the end divides the
number by a power of the base.
-/

namespace Lib

/-- The little-endian number to base `b`, times `a`, plus a carry. -/
def absorb (b a : Nat) : List Nat → Nat → List Nat
  | [], carry => Nat.digits b carry
  | d :: ds, carry => (d * a + carry) % b :: absorb b a ds ((d * a + carry) / b)

/-- From base `a` to base `b`. -/
def convert (a b : Nat) (xs : List Nat) : List Nat :=
  (xs.foldl (absorb b a) [] ++ xs.takeWhile (· == 0)).reverse

/-- `z` zeros and the digits of `n`. -/
def padded (z b n : Nat) : List Nat := List.replicate z 0 ++ (Nat.digits b n).reverse

variable {a b : Nat}

theorem absorb_digits (base : 1 < b) (grows : 0 < a) (n carry : Nat) :
    absorb b a (Nat.digits b n) carry = Nat.digits b (n * a + carry) := by
  induction n using Nat.strong_induction_on generalizing carry with
  | h n ih =>
    rcases Nat.eq_zero_or_pos n with rfl | positive
    · rw [Nat.digits_zero, absorb, Nat.zero_mul, Nat.zero_add]
    · have whole : n * a + carry = n % b * a + carry + b * (n / b * a) := by
        conv_lhs => rw [← Nat.mod_add_div n b]
        ring
      have positive' : 0 < n * a + carry := Nat.add_pos_left (Nat.mul_pos positive grows) carry
      rw [Nat.digits_def' base positive, absorb, ih _ (Nat.div_lt_self positive base),
        Nat.digits_def' base positive', whole, Nat.add_mul_mod_self_left,
        Nat.add_mul_div_left _ _ (Nat.zero_lt_of_lt base), Nat.add_comm (n / b * a)]

theorem foldl_absorb (base : 1 < b) (grows : 0 < a) (xs : List Nat) (n : Nat) :
    xs.foldl (absorb b a) (Nat.digits b n) = Nat.digits b (xs.foldl (fun n x => n * a + x) n) := by
  induction xs generalizing n with
  | nil => rfl
  | cons x xs ih => rw [List.foldl_cons, absorb_digits base grows, ih, List.foldl_cons]

theorem foldl_eq_ofDigits (a : Nat) (xs : List Nat) :
    xs.foldl (fun n x => n * a + x) 0 = Nat.ofDigits a xs.reverse := by
  rw [Nat.ofDigits_eq_foldr, List.foldr_reverse]
  congr 1
  funext n x
  rw [Nat.cast_id, Nat.add_comm, Nat.mul_comm]

/-- The number a string of leading zeros and digits stands for. -/
theorem foldl_padded (z n : Nat) : (padded z a n).foldl (fun n x => n * a + x) 0 = n := by
  rw [foldl_eq_ofDigits, padded, List.reverse_append, List.reverse_reverse,
    List.reverse_replicate, Nat.ofDigits_append_replicate_zero, Nat.ofDigits_digits]

/-- The digits of a number do not start with a zero. -/
theorem takeWhile_padded (z n : Nat) : (padded z a n).takeWhile (· == 0) = List.replicate z 0 := by
  induction z with
  | zero =>
    rcases Nat.eq_zero_or_pos n with rfl | positive
    · rw [padded, Nat.digits_zero]
      rfl
    · have top := Nat.getLast_digit_ne_zero a positive.ne'
      rw [padded, List.replicate_zero, List.nil_append, List.takeWhile_eq_nil_iff]
      intro inside
      rw [List.get_eq_getElem, List.getElem_zero_eq_head]
      simpa using top
  | succ z ih =>
    exact congrArg _ ih

/-- Converting keeps the leading zeros and the number. -/
theorem convert_padded (base : 1 < a) (base' : 1 < b) (z n : Nat) :
    convert a b (padded z a n) = padded z b n := by
  have digits := foldl_absorb base' (Nat.zero_lt_of_lt base) (padded z a n) 0
  rw [Nat.digits_zero, foldl_padded] at digits
  rw [convert, digits, takeWhile_padded, List.reverse_append, List.reverse_replicate]
  rfl

/-- Every string of digits is some zeros and the digits of a number. -/
theorem exists_padded (base : 1 < a) (digits : ∀ x ∈ xs, x < a) : ∃ z n, xs = padded z a n := by
  induction xs with
  | nil => exact ⟨0, 0, by rw [padded, Nat.digits_zero]; rfl⟩
  | cons x xs ih =>
    rcases Nat.eq_zero_or_pos x with rfl | positive
    · obtain ⟨z, n, rfl⟩ := ih fun x member => digits x (List.mem_cons_of_mem _ member)
      exact ⟨z + 1, n, rfl⟩
    · refine ⟨0, Nat.ofDigits a (x :: xs).reverse, ?_⟩
      have top : ∀ filled : (x :: xs).reverse ≠ [], (x :: xs).reverse.getLast filled ≠ 0 := by
        intro filled
        rw [List.getLast_reverse]
        exact positive.ne'
      rw [padded, Nat.digits_ofDigits a base _ (by simpa [or_comm] using digits) top,
        List.reverse_reverse]
      rfl

theorem length_padded (z n : Nat) : (padded z b n).length = z + (Nat.digits b n).length := by
  rw [padded, List.length_append, List.length_replicate, List.length_reverse]

theorem digits_div_pow (base : 1 < b) (n k : Nat) :
    Nat.digits b (n / b ^ k) = (Nat.digits b n).drop k := by
  induction k generalizing n with
  | zero => rw [Nat.pow_zero, Nat.div_one, List.drop_zero]
  | succ k ih =>
    rcases Nat.eq_zero_or_pos n with rfl | positive
    · rw [Nat.zero_div, Nat.digits_zero, List.drop_nil]
    · rw [Nat.pow_succ', ← Nat.div_div_eq_div_mul, ih, Nat.digits_def' base positive (n := n),
        List.drop_succ_cons]

/-- A string cut within its leading zeros. -/
theorem take_padded_of_le (within : j ≤ z) : (padded z b n).take j = padded j b 0 := by
  rw [padded, List.take_append_of_le_length (by rwa [List.length_replicate]), List.take_replicate,
    Nat.min_eq_left within, padded, Nat.digits_zero, List.reverse_nil, List.append_nil]

/-- A string with its last `k` digits cut off. -/
theorem take_padded_of_digits (base : 1 < b)
    (cut : z + (Nat.digits b n).length = j + k) (beyond : z ≤ j) :
    (padded z b n).take j = padded z b (n / b ^ k) := by
  have front : (List.replicate z 0).length ≤ j := by rwa [List.length_replicate]
  rw [padded, List.take_append, List.take_of_length_le front, List.length_replicate,
    List.take_reverse, padded, digits_div_pow base]
  have left : (Nat.digits b n).length - (j - z) = k := by omega
  rw [left]

/-- How many digits a number has. -/
theorem length_digits_iff (base : 1 < b) :
    (Nat.digits b n).length = k + 1 ↔ b ^ k ≤ n ∧ n < b ^ (k + 1) := by
  rw [← Nat.lt_digits_length_iff base, ← Nat.digits_length_le_iff base]
  exact ⟨fun exact' => ⟨exact'.ge, exact'.le⟩, fun ⟨least, most⟩ => Nat.le_antisymm most least⟩

end Lib
