import Rayfish.Firewall.Conntrack
import Mathlib.Data.Finset.Card

/-!
# Firewall verdicts for IPv6 fragments

The first fragment of a packet is judged like a whole packet; when it passes, its
key is remembered for a short time and later fragments follow it
(`forward/frag_verdicts.rs`).
-/

namespace Rayfish

def verdictTtl : Nat := secs 10

def verdictCapacity : Nat := 1024

structure FragmentVerdicts where
  allowed : Finset FragmentKey
  /-- Insertion order with expiry, one entry per key in `allowed`. -/
  order : List (FragmentKey × Nat)

namespace FragmentVerdicts

def empty : FragmentVerdicts := ⟨∅, []⟩

/-- The loop of `expire`, over the entries in insertion order. -/
def expireLoop (now : Nat) : Finset FragmentKey → List (FragmentKey × Nat) → FragmentVerdicts
  | allowed, [] => ⟨allowed, []⟩
  | allowed, (key, deadline) :: rest =>
    if deadline > now then ⟨allowed, (key, deadline) :: rest⟩
    else expireLoop now (allowed.erase key) rest

section

variable (v : FragmentVerdicts)

def expire (now : Nat) : FragmentVerdicts :=
  expireLoop now v.allowed v.order

/-- The loop of `allow` that makes room, oldest out first. -/
def roomLoop : Finset FragmentKey → List (FragmentKey × Nat) → FragmentVerdicts
  | allowed, [] => ⟨allowed, []⟩
  | allowed, (oldest, deadline) :: rest =>
    if allowed.card ≥ verdictCapacity then roomLoop (allowed.erase oldest) rest
    else ⟨allowed, (oldest, deadline) :: rest⟩

/-- Records that the first fragment of `key` was let through. -/
def allow (key : FragmentKey) (now : Nat) : FragmentVerdicts :=
  let v := v.expire now
  if key ∈ v.allowed then v
  else
    let v := roomLoop v.allowed v.order
    ⟨insert key v.allowed, v.order ++ [(key, now + verdictTtl)]⟩

/-- Whether a later fragment of `key` may follow its first. -/
def admits (key : FragmentKey) (now : Nat) : Bool × FragmentVerdicts :=
  let v := v.expire now
  (decide (key ∈ v.allowed), v)

theorem expireLoop_subset (now : Nat) (allowed : Finset FragmentKey)
    (order : List (FragmentKey × Nat)) : (expireLoop now allowed order).allowed ⊆ allowed := by
  fun_induction expireLoop with
  | case1 => exact Finset.Subset.refl _
  | case2 => exact Finset.Subset.refl _
  | case3 allowed key deadline rest _ ih => exact ih.trans (Finset.erase_subset _ _)

theorem expire_subset (now : Nat) : (v.expire now).allowed ⊆ v.allowed :=
  expireLoop_subset now v.allowed v.order

end

theorem roomLoop_subset (allowed : Finset FragmentKey) (order : List (FragmentKey × Nat)) :
    (roomLoop allowed order).allowed ⊆ allowed := by
  fun_induction roomLoop with
  | case1 => exact Finset.Subset.refl _
  | case2 allowed oldest deadline rest _ ih => exact ih.trans (Finset.erase_subset _ _)
  | case3 => exact Finset.Subset.refl _

/-- Only the key just recorded is new. -/
theorem mem_allow {v : FragmentVerdicts} {key key' : FragmentKey} {now : Nat}
    (h : key' ∈ (v.allow key now).allowed) : key' = key ∨ key' ∈ v.allowed := by
  unfold allow at h
  dsimp only at h
  split at h
  · exact .inr (expire_subset v now h)
  · rcases Finset.mem_insert.mp h with same | older
    · exact .inl same
    · exact .inr (expire_subset v now (roomLoop_subset _ _ older))

theorem mem_of_admits {v : FragmentVerdicts} {key : FragmentKey} {now : Nat}
    (h : (v.admits key now).1 = true) : key ∈ v.allowed :=
  expire_subset v now (of_decide_eq_true h)

end FragmentVerdicts

end Rayfish
