import Mathlib.Algebra.GroupWithZero.Nat
import Mathlib.Data.List.AList

/-!
# Finite maps with a filter

Association lists without duplicate keys, as a model of hash maps, with the
operations Mathlib's `AList` lacks: `retain` keeps the entries a predicate accepts, and
`total` sums a number over the values.
-/

namespace Lib

abbrev HashMap (κ ν : Type*) := AList (fun _ : κ => ν)

namespace HashMap

variable {κ ν : Type*} (f : ν → Nat)

/-- A number summed over the values of a map. -/
def total (m : HashMap κ ν) : Nat := (m.entries.map fun e => f e.2).sum

variable [DecidableEq κ] (m : HashMap κ ν) (p : κ → ν → Bool)

def retain (m : HashMap κ ν) : HashMap κ ν :=
  ⟨m.entries.filter fun e => p e.1 e.2, m.nodupKeys.sublist List.filter_sublist⟩

def size : Nat := m.entries.length

theorem lookup_retain (m : HashMap κ ν) (k : κ) :
    (retain p m).lookup k = (m.lookup k).filter (p k) := by
  ext v
  rw [← Option.mem_def, ← Option.mem_def, AList.mem_lookup_iff, Option.mem_filter_iff,
    AList.mem_lookup_iff]
  exact List.mem_filter

theorem total_insert (m : HashMap κ ν) (k : κ) (v : ν) :
    total f (m.insert k v) = f v + total f (m.erase k) := by
  rfl

/-- What a key contributes, and the rest. -/
theorem total_erase (m : HashMap κ ν) (k : κ) :
    total f m = ((m.lookup k).map f).getD 0 + total f (m.erase k) := by
  cases found : m.lookup k with
  | none =>
    have absent : k ∉ m.entries.keys := AList.lookup_eq_none.mp found
    rw [Option.map_none, Option.getD_none, Nat.zero_add]
    exact congrArg (fun l => (l.map fun e => f e.2).sum) (List.kerase_of_notMem_keys absent).symm
  | some v =>
    have present : k ∈ m.entries.keys := AList.lookup_isSome.mp (by rw [found]; rfl)
    obtain ⟨w, left, right, -, parts, erased⟩ := List.exists_of_kerase present
    have same : w = v := by
      have at_key : (⟨k, w⟩ : Sigma fun _ : κ => ν) ∈ m.entries := by
        rw [parts]
        exact List.mem_append_right _ List.mem_cons_self
      exact Option.some.inj ((AList.mem_lookup_iff.mpr at_key).symm.trans found)
    have rest : total f (m.erase k) = ((left ++ right).map fun e => f e.2).sum :=
      congrArg (fun l => (l.map fun e => f e.2).sum) erased
    rw [rest, total, parts, same]
    simp only [List.map_append, List.map_cons, List.sum_append, List.sum_cons, Option.map_some,
      Option.getD_some]
    omega

theorem size_erase (k : κ) : size m = size (m.erase k) + ((m.lookup k).map fun _ => 1).getD 0 := by
  simpa [total, size, Nat.add_comm] using total_erase (fun _ => 1) m k

theorem size_insert (k : κ) (v : ν) : size (m.insert k v) = size (m.erase k) + 1 := rfl

end HashMap

end Lib
