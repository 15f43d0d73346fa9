import Mathlib.Data.Finset.Card
import Mathlib.Data.Finset.Range

/-!
# Bitmaps over 64-bit words

A bitmap as a program keeps it, in an array of words, and the set of positions it
stands for: `test_mark` says marking adds one position, `count_eq_iff` that a
full count means full coverage.
-/

namespace Lib

abbrev Bitmap := List (BitVec 64)

namespace Bitmap

def empty (words : Nat) : Bitmap := List.replicate words 0

/-- `words[pos / 64] & (1 << (pos % 64)) != 0`. -/
def test (b : Bitmap) (pos : Nat) : Bool := b.getD (pos / 64) 0 &&& (1#64 <<< (pos % 64)) != 0

/-- `words[pos / 64] |= 1 << (pos % 64)`. -/
def mark (b : Bitmap) (pos : Nat) : Bitmap :=
  b.set (pos / 64) (b.getD (pos / 64) 0 ||| (1#64 <<< (pos % 64)))

/-- How many positions below `n` are marked. -/
def count (b : Bitmap) (n : Nat) : Nat := ((Finset.range n).filter fun i => b.test i = true).card

variable {b : Bitmap} {pos q n : Nat}

theorem getLsbD_one_shift (hj : j < 64) : (1#64 <<< i).getLsbD j = decide (j = i) := by
  by_cases h : j = i
  · subst h
    simp [hj]
  · simp [h]
    omega

/-- A masked word is nonzero exactly when the masked bit is set. -/
theorem and_bit_ne_zero (word : BitVec 64) (hk : k < 64) :
    (word &&& (1#64 <<< k) != 0) = word.getLsbD k := by
  have bit : (word &&& (1#64 <<< k)).getLsbD k = word.getLsbD k := by
    rw [BitVec.getLsbD_and, getLsbD_one_shift hk, decide_eq_true rfl, Bool.and_true]
  cases set : word.getLsbD k with
  | true =>
    rw [bne_iff_ne]
    intro zero
    rw [zero, set] at bit
    exact absurd bit (by simp)
  | false =>
    rw [bne_eq_false_iff_eq]
    apply BitVec.eq_of_getLsbD_eq
    intro i hi
    rw [BitVec.getLsbD_and, getLsbD_one_shift hi]
    by_cases same : i = k
    · subst same
      simp [set]
    · simp [same]

theorem test_eq_getLsbD (b : Bitmap) (pos : Nat) :
    b.test pos = (b.getD (pos / 64) 0).getLsbD (pos % 64) :=
  and_bit_ne_zero _ (Nat.mod_lt _ (by omega))

@[simp] theorem test_empty (words pos : Nat) : (empty words).test pos = false := by
  rw [test_eq_getLsbD, empty]
  by_cases inside : pos / 64 < words
  · simp [inside]
  · simp [inside]

@[simp] theorem mark_length (b : Bitmap) (pos : Nat) : (b.mark pos).length = b.length :=
  List.length_set

/-- Marking adds one position. -/
theorem test_mark (inside : pos / 64 < b.length) :
    (b.mark pos).test q = (decide (q = pos) || b.test q) := by
  rw [test_eq_getLsbD, test_eq_getLsbD, mark]
  by_cases word : pos / 64 = q / 64
  · rw [← word, List.getD_eq_getElem?_getD, List.getElem?_set_self inside, Option.getD_some,
      BitVec.getLsbD_or, getLsbD_one_shift (Nat.mod_lt _ (by omega)), Bool.or_comm]
    congr 1
    rw [decide_eq_decide]
    omega
  · rw [List.getD_eq_getElem?_getD, List.getElem?_set_ne word, ← List.getD_eq_getElem?_getD,
      decide_eq_false (fun same => word (by rw [same])), Bool.false_or]

theorem count_mark (inside : pos / 64 < b.length) (fresh : b.test pos = false) (hp : pos < n) :
    (b.mark pos).count n = b.count n + 1 := by
  have added : (Finset.range n).filter (fun i => (b.mark pos).test i = true) =
      insert pos ((Finset.range n).filter fun i => b.test i = true) := by
    ext i
    simp only [test_mark inside, Finset.mem_filter, Finset.mem_range, Finset.mem_insert,
      Bool.or_eq_true, decide_eq_true_eq]
    constructor
    · rintro ⟨hi, same | older⟩
      · exact .inl same
      · exact .inr ⟨hi, older⟩
    · rintro (rfl | ⟨hi, older⟩)
      · exact ⟨hp, .inl rfl⟩
      · exact ⟨hi, .inr older⟩
  rw [count, added, Finset.card_insert_of_notMem]
  · rfl
  · simp [fresh]

@[simp] theorem count_empty (words n : Nat) : (empty words).count n = 0 := by
  simp [count]

theorem count_le : b.count n ≤ n := (Finset.card_filter_le ..).trans_eq (Finset.card_range n)

theorem count_eq_iff : b.count n = n ↔ ∀ i < n, b.test i = true := by
  constructor
  · intro full i hi
    have whole : (Finset.range n).filter (fun i => b.test i = true) = Finset.range n :=
      Finset.eq_of_subset_of_card_le (Finset.filter_subset _ _)
        (by rw [Finset.card_range]; exact le_of_eq full.symm)
    have := Finset.mem_range.mpr hi
    rw [← whole] at this
    exact (Finset.mem_filter.mp this).2
  · intro all
    rw [count, Finset.filter_true_of_mem fun i hi => all i (Finset.mem_range.mp hi),
      Finset.card_range]

end Bitmap

end Lib
