import Rayfish.Firewall.Suggestions
import Rayfish.Lib.MapFold

/-!
# Merging the rules of a deployment spec

Two rules for the same host and peer are merged: port specifications by the union of
their tokens, SSH grants account by account (`apply.rs`). An empty account list stands
for any account but root, and `*` for every account. `merged_grants_iff` compares a
merged grant with the policy that `ssh/authz.rs` builds from the grants one by one: they
permit the same logins unless a grant for any account but root is merged with one that
lists accounts. The merged grant then loses the listed ones for root
(`root_grant_lost`).
-/

namespace Rayfish

open Lib

/-! ## Port specifications -/

/-- The specification with these tokens, in order. -/
def canonicalSpec (tokens : Finset Name) : Name :=
  List.intercalate [','] (sorted (· ≤ ·) tokens)

def mergeSpec (existing new : Name) : Name :=
  canonicalSpec (specTokens existing ++ specTokens new).toFinset

/-- A token that `specTokens` can return. -/
structure SpecToken (tok : Name) : Prop where
  trimmed : trim tok = tok
  filled : tok ≠ []
  single : ',' ∉ tok

theorem specToken_of_mem (member : tok ∈ specTokens ports) : SpecToken tok := by
  obtain ⟨member, filled⟩ := List.mem_filter.mp member
  obtain ⟨part, split, rfl⟩ := List.mem_map.mp member
  exact ⟨trim_trim part, by simpa using filled,
    fun comma => not_mem_of_mem_splitOn split (mem_of_mem_trim comma)⟩

/-- Reading a canonical specification back gives its tokens. -/
theorem specTokens_canonicalSpec (clean : ∀ tok ∈ tokens, SpecToken tok) :
    specTokens (canonicalSpec tokens) = sorted (· ≤ ·) tokens := by
  have clean : ∀ tok ∈ sorted (· ≤ ·) tokens, SpecToken tok :=
    fun tok member => clean tok ((mem_sorted _).mp member)
  unfold specTokens canonicalSpec
  generalize sorted (· ≤ ·) tokens = list at clean ⊢
  cases list with
  | nil => rfl
  | cons tok list =>
    have trimmed : ((tok :: list).map trim) = tok :: list :=
      (List.map_congr_left fun tok member => (clean tok member).trimmed).trans (List.map_id _)
    rw [List.splitOn_intercalate ',' (fun tok member => (clean tok member).single)
      (List.cons_ne_nil tok list), trimmed, List.filter_eq_self]
    intro tok member
    simpa using (clean tok member).filled

/-! ## SSH grants -/

def mergeSshUsers (existing new : List Name) : List Name :=
  if "*".toList ∈ existing ++ new then ["*".toList]
  else if existing = [] ∨ new = [] then []
  else sorted (· ≤ ·) (existing ++ new).toFinset

/-- What becomes of the entry of a peer; `OrdMap.gather` does it for one grant after the other.
A new peer takes the accounts as they are given. -/
def addSshGrant : Option (List Name) → List Name → List Name
  | none, users => users
  | some existing, users => mergeSshUsers existing users

/-- `Merged grants users`: `users` is what the grants come to when they are merged two at a
time, in any order and grouping. -/
inductive Merged : List (List Name) → List Name → Prop where
  | one (users : List Name) : Merged [users] users
  | both :
      Merged left existing → Merged right new → grants.Perm (left ++ right) →
      Merged grants (mergeSshUsers existing new)

/-- What a merged account list stands for, in terms of the grants. -/
structure MergedUsers (grants : List (List Name)) (users : List Name) : Prop where
  any : "*".toList ∈ users ↔ ∃ grant ∈ grants, "*".toList ∈ grant
  nonroot : "*".toList ∉ users → (users = [] ↔ ∃ grant ∈ grants, grant = [])
  accounts : "*".toList ∉ users → users ≠ [] → ∀ name, name ∈ users ↔ ∃ grant ∈ grants, name ∈ grant

variable {grants : List (List Name)}

theorem mergedUsers_both (first : MergedUsers left existing) (second : MergedUsers right new)
    (perm : grants.Perm (left ++ right)) : MergedUsers grants (mergeSshUsers existing new) := by
  have either : ∀ P : List Name → Prop, (∃ grant ∈ grants, P grant) ↔
      (∃ grant ∈ left, P grant) ∨ ∃ grant ∈ right, P grant := by
    intro P
    simp only [perm.mem_iff, List.mem_append, or_and_right, exists_or]
  unfold mergeSshUsers
  split
  · next star =>
    rw [List.mem_append, first.any, second.any, ← either] at star
    exact ⟨iff_of_true List.mem_cons_self star, fun absent => absurd List.mem_cons_self absent,
      fun absent => absurd List.mem_cons_self absent⟩
  · next plain =>
    have plainLeft : "*".toList ∉ existing := fun star => plain (List.mem_append_left _ star)
    have plainRight : "*".toList ∉ new := fun star => plain (List.mem_append_right _ star)
    have none : ¬∃ grant ∈ grants, "*".toList ∈ grant := by
      rw [either, ← first.any, ← second.any]
      exact not_or.mpr ⟨plainLeft, plainRight⟩
    split
    · next empty =>
      rw [first.nonroot plainLeft, second.nonroot plainRight, ← either] at empty
      exact ⟨iff_of_false List.not_mem_nil none, fun _ => iff_of_true rfl empty,
        fun _ filled => absurd rfl filled⟩
    · next filled =>
      obtain ⟨filledLeft, filledRight⟩ := not_or.mp filled
      have member : ∀ name, name ∈ sorted (· ≤ ·) (existing ++ new).toFinset ↔
          name ∈ existing ++ new := fun name => by rw [mem_sorted, List.mem_toFinset]
      refine ⟨iff_of_false (fun star => plain ((member _).mp star)) none, fun _ => ?_,
        fun _ _ name => ?_⟩
      · rw [either, ← first.nonroot plainLeft, ← second.nonroot plainRight]
        refine iff_of_false (fun empty => ?_) filled
        obtain ⟨name, rest, rfl⟩ := List.exists_cons_of_ne_nil filledLeft
        exact List.not_mem_nil (empty ▸ (member name).mpr List.mem_cons_self)
      · rw [member, List.mem_append, first.accounts plainLeft filledLeft,
          second.accounts plainRight filledRight, ← either]

theorem mergedUsers_of_merged (merged : Merged grants users) : MergedUsers grants users := by
  induction merged with
  | one users =>
    refine ⟨?_, fun _ => ?_, fun _ _ name => ?_⟩
    · simp only [List.mem_singleton, exists_eq_left]
    · simp only [List.mem_singleton, exists_eq_left]
    · simp only [List.mem_singleton, exists_eq_left]
  | both _ _ perm first second => exact mergedUsers_both first second perm

/-! ## Login policies -/

structure UserPolicy where
  localUid : Option UInt32
  matched : Bool
  any : Bool
  nonroot : Bool
  users : Finset Name

namespace UserPolicy

def default : UserPolicy := ⟨none, false, false, false, ∅⟩

def add (policy : UserPolicy) (users : List Name) : UserPolicy :=
  let policy := { policy with matched := true }
  if "*".toList ∈ users then { policy with any := true }
  else if users = [] then { policy with nonroot := true }
  else { policy with users := policy.users ∪ users.toFinset }

def permitsAccount (policy : UserPolicy) (privileged : Bool) (named : Name → Bool) : Bool :=
  policy.any || decide (∃ user ∈ policy.users, named user = true) ||
    (policy.nonroot && !privileged)

def permits (policy : UserPolicy) (name : Name) (uid : UInt32) : Bool :=
  match policy.localUid with
  | some localUid => localUid == 0 || localUid == uid
  | none => policy.permitsAccount (uid == 0) (· == name)

/-- What a policy of a peer permits. -/
theorem permits_iff {policy : UserPolicy} (remote : policy.localUid = none) {name : Name}
    {uid : UInt32} : policy.permits name uid = true ↔
      policy.any = true ∨ name ∈ policy.users ∨ policy.nonroot = true ∧ uid ≠ 0 := by
  simp only [permits, remote, permitsAccount, Bool.or_eq_true, decide_eq_true_eq,
    Bool.and_eq_true, beq_iff_eq, exists_eq_right, Bool.not_eq_true', beq_eq_false_iff_ne, or_assoc]

end UserPolicy

structure SshRule where
  peer : Name
  users : List Name

/-- The policy for a peer from the rules of the networks it shares. -/
def resolveUserPolicyWithHostnames (authz : OrdMap Name (List SshRule)) (user : EndpointId)
    (identity : Name) (networks : List Name)
    (resolveHostname : Name → Name → Option EndpointId) : UserPolicy :=
  networks.foldl (fun policy network =>
    ((authz.lookup network).getD []).foldl (fun policy rule =>
      if rule.peer = "*".toList ∨ rule.peer = identity ∨
          resolveHostname network rule.peer = some user then policy.add rule.users
      else policy) policy) .default

/-- A policy in terms of the grants it was built from. -/
structure Pooled (grants : List (List Name)) (policy : UserPolicy) : Prop where
  remote : policy.localUid = none
  any : policy.any = true ↔ ∃ grant ∈ grants, "*".toList ∈ grant
  nonroot : policy.nonroot = true ↔ ∃ grant ∈ grants, grant = []
  users : ∀ name, name ∈ policy.users ↔ ∃ grant ∈ grants, "*".toList ∉ grant ∧ name ∈ grant

theorem pooled_add (pooled : Pooled grants policy) (grant : List Name) :
    Pooled (grants ++ [grant]) (policy.add grant) := by
  have either : ∀ P : List Name → Prop, (∃ g ∈ grants ++ [grant], P g) ↔
      (∃ g ∈ grants, P g) ∨ P grant := by
    intro P
    simp only [List.mem_append, List.mem_singleton, or_and_right, exists_or, exists_eq_left]
  unfold UserPolicy.add
  split
  · next star =>
    refine ⟨pooled.remote, ?_, ?_, fun name => ?_⟩
    · exact iff_of_true rfl ((either _).mpr (.inr star))
    · rw [either, ← pooled.nonroot]
      exact (or_iff_left (List.ne_nil_of_mem star)).symm
    · rw [either, ← pooled.users]
      exact (or_iff_left fun ⟨plain, _⟩ => plain star).symm
  · next plain =>
    split
    · next empty =>
      subst empty
      refine ⟨pooled.remote, ?_, ?_, fun name => ?_⟩
      · rw [either, ← pooled.any]
        exact (or_iff_left List.not_mem_nil).symm
      · exact iff_of_true rfl ((either _).mpr (.inr rfl))
      · rw [either, ← pooled.users]
        exact (or_iff_left fun ⟨_, member⟩ => List.not_mem_nil member).symm
    · next filled =>
      refine ⟨pooled.remote, ?_, ?_, fun name => ?_⟩
      · rw [either, ← pooled.any]
        exact (or_iff_left plain).symm
      · rw [either, ← pooled.nonroot]
        exact (or_iff_left filled).symm
      · rw [either, ← pooled.users, Finset.mem_union, List.mem_toFinset, and_iff_right plain]

theorem pooled_foldl (grants : List (List Name)) :
    Pooled grants (grants.foldl UserPolicy.add .default) := by
  induction grants using List.reverseRecOn with
  | nil => exact ⟨rfl, by simp [UserPolicy.default], by simp [UserPolicy.default],
      by simp [UserPolicy.default]⟩
  | append_singleton grants grant ih =>
    rw [List.foldl_append]
    exact pooled_add ih grant

/-- The policy of a peer that one network has these grants for, each as a rule of its own. -/
def grantPolicy (network peer identity : Name) (user : EndpointId)
    (resolveHostname : Name → Name → Option EndpointId) (grants : List (List Name)) : UserPolicy :=
  resolveUserPolicyWithHostnames
    (Finmap.singleton network (grants.map fun users => ⟨peer, users⟩)) user identity [network]
    resolveHostname

theorem grantPolicy_eq (resolved : peer = "*".toList ∨ peer = identity ∨
      resolveHostname network peer = some user) (grants : List (List Name)) :
    grantPolicy network peer identity user resolveHostname grants =
      grants.foldl UserPolicy.add .default := by
  simp only [grantPolicy, resolveUserPolicyWithHostnames, List.foldl_cons, List.foldl_nil,
    Finmap.lookup_singleton_eq, Option.getD_some, List.foldl_map, if_pos resolved]

theorem permits_of_pooled {policy : UserPolicy} (pooled : Pooled grants policy) (name : Name)
    (uid : UInt32) :
    policy.permits name uid = true ↔ (∃ grant ∈ grants, "*".toList ∈ grant) ∨
      (∃ grant ∈ grants, "*".toList ∉ grant ∧ name ∈ grant) ∨
      (∃ grant ∈ grants, grant = []) ∧ uid ≠ 0 := by
  rw [UserPolicy.permits_iff pooled.remote, pooled.any, pooled.nonroot, pooled.users]

/-- What a merged grant permits, in terms of the grants. -/
theorem permits_of_merged (merged : Merged grants users) (name : Name) (uid : UInt32) :
    (UserPolicy.default.add users).permits name uid = true ↔
      (∃ grant ∈ grants, "*".toList ∈ grant) ∨
      ((∀ grant ∈ grants, grant ≠ []) ∧ ∃ grant ∈ grants, name ∈ grant) ∨
      (∃ grant ∈ grants, grant = []) ∧ uid ≠ 0 := by
  have spec := mergedUsers_of_merged merged
  have alone : Pooled [users] (UserPolicy.default.add users) := pooled_foldl [users]
  rw [permits_of_pooled alone]
  simp only [List.mem_singleton, exists_eq_left]
  by_cases star : "*".toList ∈ users
  · exact iff_of_true (.inl star) (.inl (spec.any.mp star))
  · have none := mt spec.any.mpr star
    rw [spec.nonroot star]
    simp only [star, none, not_false_eq_true, true_and]
    by_cases empty : users = []
    · obtain ⟨grant, member, rfl⟩ := (spec.nonroot star).mp empty
      have first : name ∉ users := empty ▸ List.not_mem_nil
      have second : ¬∀ grant ∈ grants, grant ≠ [] := fun filled => filled [] member rfl
      simp only [first, second, false_and]
    · have filled : ∀ grant ∈ grants, grant ≠ [] :=
        fun grant member none => empty ((spec.nonroot star).mpr ⟨grant, member, none⟩)
      rw [spec.accounts star empty, and_iff_right filled]

/-- No grant for any account but root meets one that lists accounts. -/
def KeepsAccounts (grants : List (List Name)) : Prop :=
  (∃ grant ∈ grants, "*".toList ∈ grant) ∨ (∀ grant ∈ grants, grant ≠ []) ∨
    ∀ grant ∈ grants, grant = []

/-- Merging the grants of one peer on one host gives a policy that does not depend on the
order, the grouping and repetitions. It permits what the grants permit one by one exactly if
no grant for any account but root is merged with one that lists accounts. -/
theorem merged_grants_iff {network peer identity : Name} {user : EndpointId}
    {resolveHostname : Name → Name → Option EndpointId}
    (resolved : peer = "*".toList ∨ peer = identity ∨ resolveHostname network peer = some user)
    (grants : List (List Name)) :
    let permits := fun grants => (grantPolicy network peer identity user resolveHostname
      grants).permits
    (∀ users, Merged grants users →
      ((∀ name uid, permits [users] name uid = permits grants name uid) ↔ KeepsAccounts grants)) ∧
    ∀ users grants' users', Merged grants users → Merged grants' users' →
      (∀ grant, grant ∈ grants ↔ grant ∈ grants') →
      ∀ name uid, permits [users] name uid = permits [users'] name uid := by
  intro permits
  have single : ∀ users, permits [users] = (UserPolicy.default.add users).permits := fun users => by
    simp only [permits, grantPolicy_eq resolved, List.foldl_cons, List.foldl_nil]
  refine ⟨fun users merged => ?_, fun users grants' users' merged merged' same name uid => ?_⟩
  · have apart : ∀ name uid, permits grants name uid = true ↔ _ :=
      permits_of_pooled (by rw [grantPolicy_eq resolved]; exact pooled_foldl grants)
    simp only [Bool.eq_iff_iff, single, permits_of_merged merged, apart]
    constructor
    · intro agree
      by_contra kept
      obtain ⟨plain, kept⟩ := not_or.mp kept
      obtain ⟨mixed, listed⟩ := not_or.mp kept
      push Not at plain mixed listed
      obtain ⟨empty, emptyMember, rfl⟩ := mixed
      obtain ⟨grant, member, filled⟩ := listed
      obtain ⟨name, rest, rfl⟩ := List.exists_cons_of_ne_nil filled
      -- a login as root under a listed name
      have granted := (agree name 0).mpr
        (.inr (.inl ⟨name :: rest, member, plain _ member, List.mem_cons_self⟩))
      rcases granted with ⟨grant, member, star⟩ | ⟨filled, -⟩ | ⟨-, root⟩
      · exact plain grant member star
      · exact filled [] emptyMember rfl
      · exact root rfl
    · rintro (star | filled | empty) name uid
      · exact iff_of_true (.inl star) (.inl star)
      · have plain : (∃ grant ∈ grants, "*".toList ∈ grant) ∨ (∃ grant ∈ grants, name ∈ grant) ↔
            (∃ grant ∈ grants, "*".toList ∈ grant) ∨
              ∃ grant ∈ grants, "*".toList ∉ grant ∧ name ∈ grant := by
          by_cases star : ∃ grant ∈ grants, "*".toList ∈ grant
          · exact iff_of_true (.inl star) (.inl star)
          · push Not at star
            refine or_congr_right ⟨?_, ?_⟩
            · rintro ⟨grant, member, listed⟩
              exact ⟨grant, member, star grant member, listed⟩
            · rintro ⟨grant, member, -, listed⟩
              exact ⟨grant, member, listed⟩
        rw [and_iff_right filled, ← or_assoc, plain, or_assoc]
      · have unlisted : ∀ grant ∈ grants, name ∉ grant :=
          fun grant member => empty grant member ▸ List.not_mem_nil
        refine or_congr_right (or_congr_left (iff_of_false ?_ ?_))
        · rintro ⟨-, grant, member, listed⟩
          exact unlisted grant member listed
        · rintro ⟨grant, member, -, listed⟩
          exact unlisted grant member listed
  · rw [Bool.eq_iff_iff, single, single, permits_of_merged merged, permits_of_merged merged']
    simp only [same]

theorem merged_grants_named :
    (grantPolicy "infra".toList "laptop".toList [] 7 (fun _ _ => some 7)
      [["audit".toList, "deploy".toList]]).permits "deploy".toList 1000 =
    (grantPolicy "infra".toList "laptop".toList [] 7 (fun _ _ => some 7)
      [["deploy".toList], ["audit".toList]]).permits "deploy".toList 1000 := by
  have merged : Merged [["deploy".toList], ["audit".toList]] ["audit".toList, "deploy".toList] :=
    .both (.one ["deploy".toList]) (.one ["audit".toList]) (.refl _)
  exact ((merged_grants_iff (.inr (.inr rfl)) _).1 _ merged).mpr (.inr (.inl (by decide))) _ _

/-- One grant is for any account but root, the other for root: merged, they are for any account
but root. -/
theorem root_grant_lost :
    Merged [[], ["root".toList]] [] ∧
    (grantPolicy "infra".toList "laptop".toList [] 7 (fun _ _ => some 7)
      [[], ["root".toList]]).permits "root".toList 0 = true ∧
    (grantPolicy "infra".toList "laptop".toList [] 7 (fun _ _ => some 7)
      [[]]).permits "root".toList 0 = false := by
  refine ⟨.both (.one []) (.one ["root".toList]) (.refl _), ?_, ?_⟩
  · decide +kernel
  · decide +kernel

end Rayfish
