import Mathlib.Data.List.Basic

/-!
# Streams that arrive in chunks

What is still to be read of a finished stream, cut into chunks at arbitrary places. An
exact read takes whole and partial chunks until it has enough; what it gives and what it
leaves depend on the bytes alone, not on where they are cut.
-/

namespace Lib

variable {α : Type*}

abbrev ChunkStream (α : Type*) := List (List α)

/-- Read `n` items; a stream that ends before is used up and gives none. -/
def readExact : Nat → ChunkStream α → Option (List α) × ChunkStream α
  | 0, chunks => (some [], chunks)
  | _ + 1, [] => (none, [])
  | n + 1, chunk :: rest =>
    if n + 1 ≤ chunk.length then (some (chunk.take (n + 1)), chunk.drop (n + 1) :: rest)
    else
      ((readExact (n + 1 - chunk.length) rest).1.map (chunk ++ ·),
        (readExact (n + 1 - chunk.length) rest).2)

theorem readExact_of_le (enough : n ≤ chunks.flatten.length) :
    (readExact n chunks).1 = some (chunks.flatten.take n) ∧
      (readExact n chunks).2.flatten = chunks.flatten.drop n := by
  induction chunks generalizing n with
  | nil =>
    obtain rfl : n = 0 := Nat.le_zero.mp enough
    exact ⟨rfl, rfl⟩
  | cons chunk rest ih =>
    cases n with
    | zero => exact ⟨rfl, rfl⟩
    | succ n =>
      rw [List.flatten_cons, List.length_append] at enough
      by_cases within : n + 1 ≤ chunk.length
      · rw [readExact, if_pos within, List.flatten_cons, List.take_append_of_le_length within,
          List.drop_append_of_le_length within]
        exact ⟨rfl, rfl⟩
      · obtain ⟨read, left⟩ := ih (n := n + 1 - chunk.length) (by omega)
        have beyond : chunk.length ≤ n + 1 := Nat.le_of_lt (Nat.lt_of_not_le within)
        rw [readExact, if_neg within, read, left, List.flatten_cons, List.take_append,
          List.drop_append, List.take_of_length_le beyond, List.drop_of_length_le beyond]
        exact ⟨rfl, rfl⟩

theorem readExact_of_lt (short : chunks.flatten.length < n) :
    (readExact n chunks).1 = none ∧ (readExact n chunks).2.flatten = [] := by
  induction chunks generalizing n with
  | nil =>
    obtain ⟨n, rfl⟩ := Nat.exists_eq_succ_of_ne_zero (Nat.ne_of_gt short)
    exact ⟨rfl, rfl⟩
  | cons chunk rest ih =>
    obtain ⟨n, rfl⟩ := Nat.exists_eq_succ_of_ne_zero (Nat.ne_of_gt (Nat.zero_lt_of_lt short))
    rw [List.flatten_cons, List.length_append] at short
    obtain ⟨read, left⟩ := ih (n := n + 1 - chunk.length) (by omega)
    rw [readExact, if_neg (by omega), read, left]
    exact ⟨rfl, rfl⟩

/-- A read takes a front part of the stream, of at most the asked length. -/
theorem readExact_split (n : Nat) (chunks : ChunkStream α) :
    ∃ read, chunks.flatten = read ++ (readExact n chunks).2.flatten ∧ read.length ≤ n ∧
      ∀ got, (readExact n chunks).1 = some got → got = read ∧ read.length = n := by
  rcases Nat.lt_or_ge chunks.flatten.length n with short | enough
  · obtain ⟨none, left⟩ := readExact_of_lt short
    refine ⟨chunks.flatten, ?_, Nat.le_of_lt short, ?_⟩
    · rw [left, List.append_nil]
    · intro got some
      cases none.symm.trans some
  · obtain ⟨read, left⟩ := readExact_of_le enough
    refine ⟨chunks.flatten.take n, ?_, List.length_take_le n _, ?_⟩
    · rw [left, List.take_append_drop]
    · intro got some
      exact ⟨(Option.some.inj (read.symm.trans some)).symm, List.length_take_of_le enough⟩

end Lib
