import Rayfish.Mesh.Group

/-!
# Edits of the roster

The commands that change a network's group under the state's write lock and commit
the snapshot afterwards. `RosterEdit.Contained` says that a group has an edit in it;
right after its own section every edit is contained (`RosterEdit.apply_contained`).
-/

namespace Rayfish

open Lib

/-- The edits a coordinator's commands make to the group. -/
inductive RosterEdit where
  | suggestFirewall (suggestions : SuggestedFirewall)
  | createReusable (hash : Name) (key : ReusableKey)
  /-- A created key whose snapshot could not be saved is taken back. -/
  | withdrawReusable (hash : Name)
  /-- `hash` is the key that the scan for `id` finds. -/
  | revokeReusable (id : Name) (hash : Name)
  | revokeDevice (target : EndpointId) (independent : Bool)
  | acceptRequest (entry : ApprovedEntry)
  | removeMember (id : EndpointId)
  deriving DecidableEq

/-- The key under `hash` is the only one whose id starts with `id`. -/
def onlyReusable (keys : OrdMap Name ReusableKey) (id hash : Name) : Bool :=
  decide ((keys.keys.filter fun hash =>
    (keys.lookup hash).any fun key => id.isPrefixOf key.id) = {hash})

/-- A certificate goes, and the membership with it unless it is independent. -/
def revokeCertificateFromRoster (members : MemberList) (target : EndpointId) (independent : Bool) :
    Bool × MemberList :=
  if independent then
    ((members.get target).any fun m => m.userIdentity.isSome || m.deviceCert.isSome,
      members.modify target fun m => { m with userIdentity := none, deviceCert := none })
  else ((members.get target).isSome, members.erase target)

/-- The write-lock section of an edit; `none` when the command stops there. -/
def RosterEdit.apply (g : GroupBlob) : RosterEdit → Option GroupBlob
  | .suggestFirewall suggestions => some { g with suggestedFirewall := suggestions }
  | .createReusable hash key => some { g with reusableKeys := g.reusableKeys.insert hash key }
  | .withdrawReusable hash => some { g with reusableKeys := g.reusableKeys.erase hash }
  | .revokeReusable id hash =>
    if onlyReusable g.reusableKeys id hash then
      (g.reusableKeys.lookup hash).map fun key =>
        { g with reusableKeys := g.reusableKeys.insert hash { key with revoked := true } }
    else none
  | .revokeDevice target independent =>
    let nullified := decide (target ∉ g.nullifiers)
    let (revoked, members) := revokeCertificateFromRoster g.members target independent
    let unapproved := (g.approved.get target).isSome
    if nullified || revoked || unapproved then
      some { g with
        nullifiers := insert target g.nullifiers
        members := members
        approved := g.approved.erase target }
    else none
  | .acceptRequest entry => some { g with approved := g.approved.insert entry }
  | .removeMember id =>
    some { g with members := g.members.erase id, approved := g.approved.erase id }

/-- `accept_request` encodes the group in the same section. -/
def RosterEdit.refreshes : RosterEdit → Bool
  | .acceptRequest _ => true
  | _ => false

/-- The group has the edit in it. -/
def RosterEdit.Contained (g : GroupBlob) : RosterEdit → Prop
  | .suggestFirewall suggestions => g.suggestedFirewall = suggestions
  | .createReusable hash key => g.reusableKeys.lookup hash = some key
  | .withdrawReusable hash => g.reusableKeys.lookup hash = none
  | .revokeReusable _ hash => (g.reusableKeys.lookup hash).any (·.revoked) = true
  | .revokeDevice target independent => target ∈ g.nullifiers ∧ g.approved.get target = none ∧
    if independent then
      (g.members.get target).all (fun m => m.userIdentity.isNone && m.deviceCert.isNone) = true
    else g.members.get target = none
  | .acceptRequest entry => g.approved.get entry.identity = some entry
  | .removeMember id => g.members.get id = none ∧ g.approved.get id = none

instance (g : GroupBlob) (edit : RosterEdit) : Decidable (edit.Contained g) := by
  cases edit <;> dsimp only [RosterEdit.Contained] <;> infer_instance

theorem RosterEdit.apply_contained {edit : RosterEdit} {g g' : GroupBlob}
    (h : edit.apply g = some g') : edit.Contained g' := by
  cases edit with
  | suggestFirewall suggestions =>
    cases h
    rfl
  | createReusable hash key =>
    cases h
    exact Finmap.lookup_insert _
  | withdrawReusable hash =>
    cases h
    exact Finmap.lookup_erase _ _
  | revokeReusable id hash =>
    have h := (Option.ite_none_right_eq_some.1 h).2
    obtain ⟨key, held, rfl⟩ := Option.map_eq_some_iff.mp h
    rw [Contained, Finmap.lookup_insert]
    rfl
  | revokeDevice target independent =>
    cases (Option.ite_none_right_eq_some.1 h).2
    refine ⟨Finset.mem_insert_self _ _, by rw [KeyedMap.get_erase, if_pos rfl], ?_⟩
    cases independent with
    | true =>
      show ((KeyedMap.modify g.members target _).get target).all _ = true
      rw [KeyedMap.get_modify, if_pos rfl]
      · cases g.members.get target <;> rfl
      · exact fun _ => rfl
    | false =>
      show (KeyedMap.erase g.members target).get target = none
      rw [KeyedMap.get_erase, if_pos rfl]
  | acceptRequest entry =>
    cases h
    show (KeyedMap.insert g.approved entry).get entry.identity = some entry
    rw [KeyedMap.get_insert, if_pos rfl]
  | removeMember id =>
    cases h
    constructor
    · show (KeyedMap.erase g.members id).get id = none
      rw [KeyedMap.get_erase, if_pos rfl]
    · show (KeyedMap.erase g.approved id).get id = none
      rw [KeyedMap.get_erase, if_pos rfl]

end Rayfish
