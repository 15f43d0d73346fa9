import Rayfish.Mesh.Group

/-!
# The invite ledger

A coordinator's record of the one-time invites it may redeem (`invite.rs`). A secret
stands here as its hash, the only form in which the ledger keeps it. Each operation comes
with what it does to the entry that is found under a hash.
-/

namespace Rayfish

inductive InviteStatus where
  | pending
  | redeemed (by_ : EndpointId) (at_ : Nat)
  | revoked
  deriving DecidableEq

structure Invite where
  id : Name
  secretHash : Name
  created : Nat
  expires : Nat
  status : InviteStatus
  /-- The name a redemption assigns, whatever the joiner asks for. -/
  hostname : Option Name

inductive InviteRefusal where
  | unknown
  | used
  | revoked
  | expired
  /-- The ledger could not be read or saved. -/
  | unavailable

/-- Why an invite is not revoked. -/
inductive RevokeRefusal where
  | ambiguous
  | noMatch
  | used

/-- Times are `u64` seconds. -/
def saturatingAdd (time ttl : Nat) : Nat := min (time + ttl) (2 ^ 64 - 1)

/-- A pending invite; its id is the start of its hash. -/
def Invite.new (hash : Name) (ttl : Nat) (hostname : Option Name) (now : Nat) : Invite :=
  { id := hash.take 8
    secretHash := hash
    created := now
    expires := saturatingAdd now ttl
    status := .pending
    hostname := hostname }

abbrev InviteStore := List Invite

namespace InviteStore

section

variable (store : InviteStore) (hash : Name)

def find : Option Invite :=
  store.find? (·.secretHash = hash)

/-- The first invite under `hash` changes its status. -/
def setStatus (status : InviteStatus) (hash : Name) : InviteStore → InviteStore
  | [] => []
  | invite :: rest =>
    if invite.secretHash = hash then { invite with status := status } :: rest
    else invite :: setStatus status hash rest

/-- Burn a live invite; answers the name bound to it. -/
def redeem (by_ : EndpointId) (now : Nat) : Except InviteRefusal (Option Name × InviteStore) :=
  match find store hash with
  | none => .error .unknown
  | some invite =>
    match invite.status with
    | .redeemed _ _ => .error .used
    | .revoked => .error .revoked
    | .pending =>
      if now ≥ invite.expires then .error .expired
      else .ok (invite.hostname, setStatus (.redeemed by_ now) hash store)

/-- Un-burn an invite whose admission was denied. -/
def restore : InviteStore :=
  match (find store hash).map Invite.status with
  | some (.redeemed _ _) => setStatus .pending hash store
  | _ => store

def mint (ttl : Nat) (hostname : Option Name) (now : Nat) : InviteStore :=
  store ++ [.new hash ttl hostname now]

/-- Revoke the one invite whose id starts with `id`, if it is unused. -/
def revoke (id : Name) : Except RevokeRefusal InviteStore :=
  match store.filter fun invite => id.isPrefixOf invite.id with
  | [] => .error .noMatch
  | [invite] =>
    match invite.status with
    | .redeemed _ _ => .error .used
    | _ =>
      .ok (store.map fun invite =>
        if id.isPrefixOf invite.id then { invite with status := .revoked } else invite)
  | _ => .error .ambiguous

/-- Enter an invite of another coordinator; nothing is said of a hostname. -/
def recordShared (id hash : Name) (expires now : Nat) : InviteStore :=
  if store.any (·.id = id) then store
  else store ++ [⟨id, hash, now, expires, .pending, none⟩]

/-- The invite was used at another coordinator; `none` if there is nothing to change. -/
def burnByHash (now : Nat) : Option InviteStore :=
  match (find store hash).map Invite.status with
  | some .pending => some (setStatus (.redeemed 0 now) hash store)
  | _ => none

end

/-! ## What is found under a hash -/

variable {store store' : InviteStore} {hash other : Name}

theorem find_setStatus (status : InviteStatus) :
    (setStatus status hash store).find hash =
      (store.find hash).map fun invite => { invite with status := status } := by
  induction store with
  | nil => rfl
  | cons invite rest ih =>
    by_cases same : invite.secretHash = hash
    · simp [setStatus, find, same]
    · simpa [setStatus, find, same] using ih

theorem find_setStatus_ne (status : InviteStatus) (differs : other ≠ hash) :
    (setStatus status hash store).find other = store.find other := by
  induction store with
  | nil => rfl
  | cons invite rest ih =>
    by_cases same : invite.secretHash = hash
    · simp [setStatus, find, same, differs.symm]
    · by_cases here : invite.secretHash = other
      · simp [setStatus, find, here, differs]
      · simpa [setStatus, find, same, here] using ih

theorem find_append (invite : Invite) :
    find (store ++ [invite]) hash =
      (store.find hash).or (if invite.secretHash = hash then some invite else none) := by
  by_cases same : invite.secretHash = hash <;> simp [find]

/-- Revoking changes at most the status of what is found, and never of a used invite. -/
theorem find_revoke {id : Name} (revoked : store.revoke id = .ok store') (hash : Name) :
    store'.find hash = store.find hash ∨
      ∃ invite, store.find hash = some invite ∧ (∀ by_ at_, invite.status ≠ .redeemed by_ at_) ∧
        store'.find hash = some { invite with status := .revoked } := by
  unfold revoke at revoked
  split at revoked
  · cases revoked
  · next only matching =>
    split at revoked
    · cases revoked
    next unused =>
    cases revoked
    have found : find (store.map fun invite =>
        if id.isPrefixOf invite.id then { invite with status := .revoked } else invite) hash =
        (store.find hash).map fun invite =>
          if id.isPrefixOf invite.id then { invite with status := .revoked } else invite := by
      rw [find, List.find?_map]
      congr 2
      funext invite
      dsimp only [Function.comp_apply]
      split <;> rfl
    rw [found]
    cases listed : store.find hash with
    | none => exact .inl rfl
    | some invite =>
      rw [Option.map_some]
      split
      · next named =>
        -- the only match of `id` is unused, and this is it
        have member : invite ∈ [only] := by
          rw [← matching, List.mem_filter]
          exact ⟨List.mem_of_find?_eq_some listed, named⟩
        cases List.mem_singleton.mp member
        exact .inr ⟨_, rfl, unused, rfl⟩
      · exact .inl rfl
  · cases revoked

theorem redeem_ok (redeemed : store.redeem hash by_ now = .ok (bound, store')) :
    ∃ invite, store.find hash = some invite ∧ invite.status = .pending ∧ now < invite.expires ∧
      bound = invite.hostname ∧ store' = setStatus (.redeemed by_ now) hash store := by
  unfold redeem at redeemed
  split at redeemed
  · cases redeemed
  next invite found =>
  split at redeemed
  · cases redeemed
  · cases redeemed
  next pending =>
  split at redeemed
  · cases redeemed
  · next early =>
    cases redeemed
    exact ⟨invite, found, pending, Nat.not_le.mp early, rfl, rfl⟩

theorem find_recordShared (store : InviteStore) (id hash : Name) (expires now : Nat)
    (other : Name) :
    (store.recordShared id hash expires now).find other = store.find other ∨
      (hash = other ∧ store.find other = none ∧
        (store.recordShared id hash expires now).find other =
          some ⟨id, hash, now, expires, .pending, none⟩) := by
  unfold recordShared
  split
  · exact .inl rfl
  rw [find_append]
  cases listed : store.find other with
  | some invite => exact .inl rfl
  | none =>
    split
    · next same => exact .inr ⟨same, rfl, rfl⟩
    · exact .inl rfl

theorem burnByHash_some (burned : store.burnByHash hash now = some store') :
    ∃ invite, store.find hash = some invite ∧ invite.status = .pending ∧
      store' = setStatus (.redeemed 0 now) hash store := by
  unfold burnByHash at burned
  split at burned
  · next pending =>
    obtain ⟨invite, found, status⟩ := Option.map_eq_some_iff.mp pending
    cases burned
    exact ⟨invite, found, status, rfl⟩
  · cases burned

theorem find_restore (store : InviteStore) (hash other : Name) :
    (store.restore hash).find other = store.find other ∨
      ∃ invite by_ at_, other = hash ∧ store.find hash = some invite ∧
        invite.status = .redeemed by_ at_ ∧
        (store.restore hash).find hash = some { invite with status := .pending } := by
  unfold restore
  split
  · next by_ at_ used =>
    obtain ⟨invite, found, status⟩ := Option.map_eq_some_iff.mp used
    rcases eq_or_ne other hash with rfl | differs
    · refine .inr ⟨invite, by_, at_, rfl, found, status, ?_⟩
      rw [find_setStatus, found, Option.map_some]
    · exact .inl (find_setStatus_ne _ differs)
  · exact .inl rfl

end InviteStore

end Rayfish
