import Mathlib.Data.Finmap
import Mathlib.Data.List.Sort

/-!
# Ordered maps

`OrdMap` models a sorted map: its order is canonical, so two of them with the same
entries are equal. A `KeyedMap key` holds each value under its own key and
carries the proof.
-/

namespace Lib

abbrev OrdMap (κ ν : Type*) := Finmap (fun _ : κ => ν)

structure KeyedMap {κ ν : Type*} [DecidableEq κ] (key : ν → κ) where
  map : OrdMap κ ν
  keyed : ∀ k v, map.lookup k = some v → key v = k

namespace KeyedMap

variable {κ ν : Type*} [DecidableEq κ] {key : ν → κ}

theorem map_injective {m₁ m₂ : KeyedMap key} (h : m₁.map = m₂.map) : m₁ = m₂ := by
  cases m₂
  cases h
  rfl

instance [DecidableEq ν] : DecidableEq (KeyedMap key) := fun m₁ m₂ =>
  decidable_of_iff (m₁.map = m₂.map) ⟨map_injective, congrArg map⟩

def empty : KeyedMap key := ⟨∅, by simp⟩

section

variable (m : KeyedMap key)

def get (k : κ) : Option ν := m.map.lookup k

/-- Every value, in no particular order. -/
def values : Multiset ν := m.map.entries.map Sigma.snd

/-- Some value satisfies `p`. -/
def any (p : ν → Bool) : Bool :=
  @decide (∃ v ∈ m.values, p v = true) Multiset.decidableExistsMultiset

def insert (v : ν) : KeyedMap key where
  map := m.map.insert (key v) v
  keyed k v' held := by
    by_cases same : k = key v
    · subst same
      rw [Finmap.lookup_insert] at held
      cases held
      rfl
    · rw [Finmap.lookup_insert_of_ne _ same] at held
      exact m.keyed k v' held

def erase (k : κ) : KeyedMap key where
  map := m.map.erase k
  keyed k' v held := by
    by_cases same : k' = k
    · subst same
      rw [Finmap.lookup_erase] at held
      cases held
    · rw [Finmap.lookup_erase_ne same] at held
      exact m.keyed k' v held

/-- The value under `k` changed in place; a change of its key would move it. -/
def modify (k : κ) (f : ν → ν) : KeyedMap key :=
  match m.get k with
  | some v => m.insert (f v)
  | none => m

theorem key_get {m : KeyedMap key} {k : κ} {v : ν} (h : m.get k = some v) : key v = k :=
  m.keyed k v h

theorem get_insert (v : ν) (k : κ) :
    (m.insert v).get k = if k = key v then some v else m.get k := by
  unfold get insert
  split
  · next same => rw [same, Finmap.lookup_insert]
  · next other => rw [Finmap.lookup_insert_of_ne _ other]

theorem get_insert_self (v : ν) : (m.insert v).get (key v) = some v := by
  rw [get_insert, if_pos rfl]

theorem get_erase (k k' : κ) : (m.erase k).get k' = if k' = k then none else m.get k' := by
  unfold get erase
  split
  · next same => rw [same, Finmap.lookup_erase]
  · next other => rw [Finmap.lookup_erase_ne other]

end

theorem get_modify {m : KeyedMap key} {k : κ} {f : ν → ν} (same : ∀ v, key (f v) = key v)
    (k' : κ) : (m.modify k f).get k' = if k' = k then (m.get k).map f else m.get k' := by
  unfold modify
  cases held : m.get k with
  | none =>
    dsimp only
    split
    · next eq => rw [eq, held, Option.map_none]
    · rfl
  | some v =>
    rw [get_insert, same, key_get held, Option.map_some]

theorem mem_values {m : KeyedMap key} {v : ν} : v ∈ m.values ↔ m.get (key v) = some v := by
  simp only [values, Multiset.mem_map]
  constructor
  · rintro ⟨⟨k, v'⟩, member, rfl⟩
    have held : m.map.lookup k = some v' := Finmap.mem_lookup_iff.mpr member
    rw [m.keyed k v' held]
    exact held
  · intro held
    exact ⟨⟨key v, v⟩, Finmap.mem_lookup_iff.mp held, rfl⟩

theorem any_eq_true {m : KeyedMap key} {p : ν → Bool} :
    m.any p = true ↔ ∃ v, m.get (key v) = some v ∧ p v = true := by
  simp only [any, decide_eq_true_eq, mem_values]

end KeyedMap

/-! ## Iteration in key order -/

section Sorted

variable {κ ν : Type*} (r : κ → κ → Prop) [DecidableRel r] [Std.Total r] [IsTrans κ r]
  [Std.Antisymm r]

/-- The elements in the order `r`. Insertion sort, so that it can be evaluated. -/
def sorted (s : Finset κ) : List κ :=
  Quot.liftOn s.val (List.insertionSort r) fun _ _ perm =>
    List.Perm.eq_of_pairwise (fun _ _ _ _ => Std.Antisymm.antisymm _ _)
      (List.pairwise_insertionSort r _) (List.pairwise_insertionSort r _)
      ((List.perm_insertionSort r _).trans (perm.trans (List.perm_insertionSort r _).symm))

theorem mem_sorted : k ∈ sorted r s ↔ k ∈ s := by
  obtain ⟨⟨l⟩, nodup⟩ := s
  exact List.mem_insertionSort r

/-- The entries of a map in the order of its keys. -/
def OrdMap.iter [DecidableEq κ] (m : OrdMap κ ν) : List (κ × ν) :=
  (sorted r m.keys).filterMap fun k => (m.lookup k).map (k, ·)

theorem OrdMap.mem_iter [DecidableEq κ] : (k, v) ∈ OrdMap.iter r m ↔ m.lookup k = some v := by
  simp only [OrdMap.iter, List.mem_filterMap, mem_sorted, Option.map_eq_some_iff, Prod.mk.injEq]
  constructor
  · rintro ⟨_, _, _, held, rfl, rfl⟩
    exact held
  · intro held
    have bound : k ∈ m := Finmap.lookup_isSome.1 (held ▸ rfl)
    exact ⟨k, Finmap.mem_keys.2 bound, v, held, rfl, rfl⟩

/-- The values of a map in the order of their keys. -/
def KeyedMap.iter [DecidableEq κ] {key : ν → κ} (m : KeyedMap key) : List ν :=
  (OrdMap.iter r m.map).map Prod.snd

end Sorted

end Lib
