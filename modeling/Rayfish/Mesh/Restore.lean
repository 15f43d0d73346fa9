import Rayfish.Mesh.Machine

/-!
# Restoring a network after a restart

Both restores resolve the network's record from a relay again and take their roster
from what it names: `restore_coordinator_network`, which then signs and publishes
that roster, and `restore_member_network`, which first tries the saved snapshot.
Neither compares the record with the saved replay floor, so a relay that serves an
old record brings an old roster back (`stale_record_restored`). `restore_iff` says
when the installed roster is the saved one or at least as new as the floor.
-/

namespace Rayfish

open Lib

variable {Hash : Type}

/-! ## What the network answers -/

/-- A relay's answer to one resolve. `compatible` when the record names a mesh
version this build speaks. -/
inductive RelayAnswer (Hash : Type) where
  | unavailable
  | destroyed
  | malformed
  | record (record : SignedGroupRecord Hash) (compatible : Bool)

/-- A coordinator's signed admission in its welcome. -/
structure Admission (Hash : Type) where
  record : SignedGroupRecord Hash
  /-- It grants the network key. -/
  grantsKey : Bool

/-- What became of the dial to the coordinator. -/
inductive Reconnect (Hash : Type) where
  /-- Offline, or the handshake failed. -/
  | failed
  /-- Welcomed; without an admission the record is resolved once more. -/
  | welcomed (direct : Option (Admission Hash)) (second : RelayAnswer Hash)

/-- The blob under `hash`, if the store or some peer has it. -/
def fetchVerified (codec : GroupCodec Hash) (served : Hash → Bool) (hash : Hash) :
    Option GroupBlob :=
  if served hash then codec.named hash else none

variable {codec : GroupCodec Hash} {saved : NetworkConfig Hash} {blobs : Finset Hash}

theorem fetchVerified_named {served : Hash → Bool} {hash : Hash} {data : GroupBlob}
    (h : fetchVerified codec served hash = some data) :
    codec.named hash = some data := by
  have h := (Option.ite_none_right_eq_some.1 h).2
  exact h

/-- Where an installed roster came from. -/
inductive RosterSource (Hash : Type) where
  | saved (hash : Hash)
  | record (record : SignedGroupRecord Hash)

def RosterSource.hash : RosterSource Hash → Hash
  | .saved hash => hash
  | .record r => r.hash

/-! ## Coordinator restore -/

inductive RestoreHashSource where
  | published
  | cached
  | localPending
  deriving DecidableEq

/-- The hash a coordinator restores: its own unpublished one, else the record's, else
the saved one. -/
def selectRestoreTarget (published cached : Option Hash) (cachedIsPublished : Bool) :
    Option (Hash × RestoreHashSource) :=
  match cached.filter fun _ => !cachedIsPublished with
  | some hash => some (hash, .localPending)
  | none =>
    match published with
    | some hash => some (hash, .published)
    | none => cached.map fun hash => (hash, .cached)

/-- The saved pointer names a generation of our own that was never published. -/
def NetworkConfig.Pending (saved : NetworkConfig Hash) : Prop :=
  saved.lastGroupHash.isSome ∧ saved.lastGroupHashPublished = false

theorem selectRestoreTarget_cases {published : Option Hash} {hash : Hash}
    {source : RestoreHashSource}
    (h : selectRestoreTarget published saved.lastGroupHash saved.lastGroupHashPublished =
      some (hash, source)) :
    (source = .localPending ∧ saved.lastGroupHash = some hash ∧ saved.Pending) ∨
      (source = .published ∧ published = some hash ∧ ¬saved.Pending) ∨
      (source = .cached ∧ published = none ∧ saved.lastGroupHash = some hash) := by
  unfold selectRestoreTarget at h
  split at h
  · next own pending =>
    obtain ⟨held, unpublished⟩ := Option.filter_eq_some_iff.mp pending
    cases h
    exact .inl ⟨rfl, held, by simp [held], by simpa using unpublished⟩
  · next settled =>
    have notPending : ¬saved.Pending := by
      rintro ⟨held, unpublished⟩
      obtain ⟨own, held⟩ := Option.isSome_iff_exists.mp held
      simp [held, unpublished] at settled
    split at h
    · cases h
      exact .inr (.inl ⟨rfl, rfl, notPending⟩)
    · obtain ⟨cached, held, same⟩ := Option.map_eq_some_iff.mp h
      cases same
      exact .inr (.inr ⟨rfl, rfl, held⟩)

structure RestoredGroupBlob (Hash : Type) where
  blob : GroupBlob
  hash : Hash
  published : Bool
  /-- Kept for the statements below; the source only keeps the hash. -/
  source : RosterSource Hash

def RelayAnswer.rosterSource (answer : RelayAnswer Hash) (hash : Hash) :
    RestoreHashSource → RosterSource Hash
  | .published =>
    match answer with
    | .record r _ => .record r
    | _ => .saved hash
  | .cached | .localPending => .saved hash

def restoreRosterFromBlob (codec : GroupCodec Hash) (served : Hash → Bool)
    (answer : RelayAnswer Hash) (cached : Option Hash) (cachedIsPublished : Bool) :
    Option (RestoredGroupBlob Hash) :=
  let target := match answer with
    | .destroyed | .malformed => none
    | .unavailable => selectRestoreTarget none cached cachedIsPublished
    | .record r _ => selectRestoreTarget (some r.hash) cached cachedIsPublished
  target.bind fun (hash, source) =>
    (fetchVerified codec served hash).map fun blob =>
      ⟨blob, hash, source ≠ .localPending, answer.rosterSource hash source⟩

/-- What a coordinator restores: a saved snapshot, when it is unpublished or no record
is to be had, and otherwise whatever the record names. -/
theorem restoreRosterFromBlob_cases
    (h : restoreRosterFromBlob codec served answer saved.lastGroupHash
      saved.lastGroupHashPublished = some restored) :
    codec.named restored.source.hash = some restored.blob ∧
      ((∃ hash, restored.source = .saved hash ∧ saved.lastGroupHash = some hash ∧
          (saved.Pending ∨ answer = .unavailable)) ∨
        ∃ r compatible, restored.source = .record r ∧ answer = .record r compatible ∧
          ¬saved.Pending) := by
  obtain ⟨⟨hash, source⟩, target, h⟩ := Option.bind_eq_some_iff.mp h
  obtain ⟨blob, fetched, rfl⟩ := Option.map_eq_some_iff.mp h
  have named := fetchVerified_named fetched
  cases answer with
  | destroyed | malformed => cases target
  | unavailable =>
    rcases selectRestoreTarget_cases target with
      ⟨rfl, held, -⟩ | ⟨-, absent, -⟩ | ⟨rfl, -, held⟩
    · exact ⟨named, .inl ⟨hash, rfl, held, .inr rfl⟩⟩
    · cases absent
    · exact ⟨named, .inl ⟨hash, rfl, held, .inr rfl⟩⟩
  | record r compatible =>
    rcases selectRestoreTarget_cases target with
      ⟨rfl, held, pending⟩ | ⟨rfl, same, settled⟩ | ⟨-, absent, -⟩
    · exact ⟨named, .inl ⟨hash, rfl, held, .inl pending⟩⟩
    · cases same
      exact ⟨named, .inr ⟨r, compatible, rfl, rfl, settled⟩⟩
    · cases absent

/-- The key holder is a coordinator of its own roster, whatever the blob says. -/
def materializeCoordinatorRoster (group : GroupBlob) (me : EndpointId) (hostname : Option Name) :
    GroupBlob :=
  match group.members.get me with
  | some _ =>
    { group with
      members := group.members.modify me fun m =>
        { m with isCoordinator := true, lastSeen := none } }
  | none =>
    { group with
      members := group.members.insert
        { identity := me
          isCoordinator := true
          hostname := hostname
          userIdentity := none
          deviceCert := none
          lastSeen := none
          exitNode := false
          exitFamilies := .unknown } }

/-- A restored network. -/
structure Installed (Hash : Type) where
  node : Node Hash
  source : RosterSource Hash
  /-- The record signed for it that a relay took. -/
  republished : Option (SignedGroupRecord Hash)

/-- A state built from a blob: nothing pending, converged on our own encoding. -/
def NetworkState.ofBlob (codec : GroupCodec Hash) (group : GroupBlob) (hasKey : Bool)
    (floor : Option Nat) : NetworkState Hash :=
  NetworkState.refreshSnapshot codec
    { group := group
      snapshot := none
      destroyed := false
      convergedHash := none
      unconfirmedDurableHash := none
      hasKey := hasKey
      lastRecordTimestamp := floor }

/-- What a coordinator's restart depends on besides the saved network. -/
structure CoordinatorRestart (Hash : Type) where
  me : EndpointId
  hostname : Option Name
  revokedDevices : Finset EndpointId
  disk : Disk
  served : Hash → Bool
  answer : RelayAnswer Hash
  /-- The time its own record is signed at, and whether the relay takes it. -/
  now : Nat
  relayTakes : Bool

/-- The roster a coordinator seals: its own seat, and every device it has revoked. -/
def CoordinatorRestart.sealed (env : CoordinatorRestart Hash) (blob : GroupBlob) : GroupBlob :=
  let roster := materializeCoordinatorRoster blob env.me env.hostname
  { roster with nullifiers := roster.nullifiers ∪ env.revokedDevices }

variable {installed : Installed Hash}

section

variable [DecidableEq Hash]

def restoreCoordinatorNetwork (codec : GroupCodec Hash) (env : CoordinatorRestart Hash)
    (saved : NetworkConfig Hash) (blobs : Finset Hash) : Option (Installed Hash) :=
  (restoreRosterFromBlob codec env.served env.answer saved.lastGroupHash
      saved.lastGroupHashPublished).bind fun restored =>
    let group := env.sealed restored.blob
    let hash := codec.groupBlobHash group
    if env.disk.configReads ∧ env.disk.configFault = none ∧ env.disk.blobWrites then
      let node : Node Hash :=
        { net := .ofBlob codec group true saved.lastRecordTimestamp
          config := some
            { saved with
              lastGroupHash := some hash
              lastGroupHashPublished := restored.published && hash = restored.hash }
          blobs := insert hash (insert restored.hash blobs) }
      some (if env.relayTakes then
        ⟨(node.confirmPublication env.disk hash env.now).2, restored.source, some ⟨hash, env.now⟩⟩
      else ⟨node, restored.source, none⟩)
    else none

/-- What a coordinator installs is the sealed roster of its source. -/
theorem restoreCoordinatorNetwork_cases
    (h : restoreCoordinatorNetwork codec env saved blobs = some installed) :
    ∃ restored, restoreRosterFromBlob codec env.served env.answer saved.lastGroupHash
        saved.lastGroupHashPublished = some restored ∧
      installed.source = restored.source ∧
      installed.node.net.group = env.sealed restored.blob ∧
      ∀ r ∈ installed.republished, r.hash = codec.groupBlobHash installed.node.net.group := by
  obtain ⟨restored, found, h⟩ := Option.bind_eq_some_iff.mp h
  refine ⟨restored, found, ?_⟩
  split at h
  · split at h
    · cases h
      refine ⟨rfl, Node.confirmPublication_group env.disk _ _ _, fun r signed => ?_⟩
      cases signed
      rw [Node.confirmPublication_group]
      rfl
    · cases h
      exact ⟨rfl, rfl, fun r signed => by cases signed⟩
  · cases h

end

/-! ## Member restore -/

/-- What a member's restart depends on besides the saved network. -/
structure MemberRestart (Hash : Type) where
  me : EndpointId
  key : EndpointId
  deviceCert : Option DeviceCert
  disk : Disk
  served : Hash → Bool
  first : RelayAnswer Hash
  reconnect : Reconnect Hash

/-- The floor saved for this network; an unreadable config leaves it open. -/
def savedRecordFloor (disk : Disk) (saved : NetworkConfig Hash) (key : EndpointId) : Option Nat :=
  if disk.configReads ∧ saved.networkPublicKey = some key then saved.lastRecordTimestamp else none

/-- The roster a member restore settles on. -/
structure MemberRoster (Hash : Type) where
  blob : GroupBlob
  /-- The record that names `blob`. -/
  record : SignedGroupRecord Hash
  /-- The timestamp the state's floor is raised to. -/
  recordTs : Option Nat
  hasKey : Bool
  /-- The exact hash of a signed admission. -/
  exactHash : Option Hash

/-- The reconnect handshake; `none` when it fails. `fallback` is the roster of the
record resolved first. -/
def performReconnectHandshake (codec : GroupCodec Hash) (env : MemberRestart Hash)
    (fallback : MemberRoster Hash) (direct : Option (Admission Hash)) (second : RelayAnswer Hash) :
    Option (MemberRoster Hash) :=
  let listed := (fallback.blob.members.get env.me).any (·.isCoordinator)
  if listed ∧ direct.any (·.grantsKey) = false then none
  else
    match direct with
    | some admission =>
      (fetchVerified codec env.served admission.record.hash).bind fun data =>
        if (data.members.get env.me).any fun m => !admission.grantsKey || m.isCoordinator then
          some ⟨data, admission.record, some admission.record.timestamp, admission.grantsKey,
            some admission.record.hash⟩
        else none
    | none =>
      match second with
      | .record r _ =>
        some (match fetchVerified codec env.served r.hash with
          | some data => ⟨data, r, some r.timestamp, false, none⟩
          | none => fallback)
      | _ => some fallback

variable {env : MemberRestart Hash}

/-- A handshake that succeeds leaves a roster its record names. -/
theorem performReconnectHandshake_named
    (named : codec.named fallback.record.hash = some fallback.blob)
    (h : performReconnectHandshake codec env fallback direct second = some roster) :
    codec.named roster.record.hash = some roster.blob := by
  unfold performReconnectHandshake at h
  dsimp only at h
  split at h
  · cases h
  split at h
  · obtain ⟨data, fetched, h⟩ := Option.bind_eq_some_iff.mp h
    split at h
    · cases h
      exact fetchVerified_named fetched
    · cases h
  · split at h
    · split at h
      · next fetched =>
        cases h
        exact fetchVerified_named fetched
      · cases h
        exact named
    · cases h
      exact named

/-- `join_network_inner` for a restore: the record, its blob, and the dial. -/
def memberRoster (codec : GroupCodec Hash) (env : MemberRestart Hash) :
    Option (MemberRoster Hash) :=
  match env.first with
  | .record r compatible =>
    (fetchVerified codec env.served r.hash).bind fun data =>
      -- a nullified device unpairs itself instead
      if (data.nullifiedCert env.deviceCert).isSome then none
      else if data.members.any fun m => m.isCoordinator && m.identity != env.me then
        let fallback : MemberRoster Hash := ⟨data, r, none, false, none⟩
        match compatible, env.reconnect with
        | true, .welcomed direct second =>
          some ((performReconnectHandshake codec env fallback direct second).getD fallback)
        | _, _ => some fallback
      else none
  | _ => none

/-- The roster a member settles on is one its record names. -/
theorem memberRoster_named (h : memberRoster codec env = some roster) :
    codec.named roster.record.hash = some roster.blob := by
  unfold memberRoster at h
  split at h
  · obtain ⟨data, fetched, h⟩ := Option.bind_eq_some_iff.mp h
    have named := fetchVerified_named fetched
    split at h
    · cases h
    split at h
    · split at h
      · next direct second _ _ _ =>
        cases h
        cases welcome : performReconnectHandshake codec env _ direct second with
        | none => exact named
        | some admitted => exact performReconnectHandshake_named named welcome
      · cases h
        exact named
    · cases h
  · cases h

section

variable (codec : GroupCodec Hash)

/-- The blob of `r` is to be had and lists this node as a coordinator. -/
def MemberRestart.coordinates (env : MemberRestart Hash) (r : SignedGroupRecord Hash) : Bool :=
  (fetchVerified codec env.served r.hash).any fun data =>
    (data.members.get env.me).any (·.isCoordinator)

/-- The blob of a signed admission is to be had and seats this node, as a coordinator if
it grants the key, which it must to one that coordinated by `first`. -/
def MemberRestart.accepts (env : MemberRestart Hash)
    (first : SignedGroupRecord Hash) (admission : Admission Hash) : Bool :=
  (!env.coordinates codec first || admission.grantsKey) &&
    (fetchVerified codec env.served admission.record.hash).any fun data =>
      (data.members.get env.me).any fun m => !admission.grantsKey || m.isCoordinator

/-- The record a welcome puts in the place of the one resolved first: its signed
admission, or what is resolved after it. -/
def MemberRestart.welcomeRecord (env : MemberRestart Hash)
    (first : SignedGroupRecord Hash) : Option (SignedGroupRecord Hash) :=
  match env.reconnect with
  | .welcomed (some admission) _ =>
    if env.accepts codec first admission then some admission.record else none
  | .welcomed none (.record second _) =>
    if !env.coordinates codec first && (fetchVerified codec env.served second.hash).isSome then
      some second
    else none
  | _ => none

/-- The record a member restore goes by: the welcome's, else the one resolved first. -/
def MemberRestart.rosterRecord (env : MemberRestart Hash) : Option (SignedGroupRecord Hash) :=
  match env.first with
  | .record first true => some ((env.welcomeRecord codec first).getD first)
  | .record first false => some first
  | _ => none

end

/-- A handshake goes by the welcome's record, if that is of use. -/
theorem performReconnectHandshake_record (fallback : MemberRoster Hash)
    (welcomed : env.reconnect = .welcomed direct second)
    (fetched : fetchVerified codec env.served fallback.record.hash = some fallback.blob) :
    ((performReconnectHandshake codec env fallback direct second).getD fallback).record =
      (env.welcomeRecord codec fallback.record).getD fallback.record := by
  have listed : (fallback.blob.members.get env.me).any (·.isCoordinator) =
      env.coordinates codec fallback.record := by
    rw [MemberRestart.coordinates, fetched, Option.any_some]
  unfold performReconnectHandshake MemberRestart.welcomeRecord
  rw [welcomed, listed]
  cases direct with
  | some admission =>
    -- a coordinator has to be granted the key again
    by_cases refused : env.coordinates codec fallback.record = true ∧ admission.grantsKey = false
    · rw [if_pos (by simpa using refused)]
      simp [MemberRestart.accepts, refused]
    · have granted : (!env.coordinates codec fallback.record || admission.grantsKey) = true := by
        cases granted : admission.grantsKey with
        | true => simp
        | false => simpa [granted] using refused
      rw [if_neg (by simpa using refused)]
      simp only [MemberRestart.accepts, granted, Bool.true_and]
      cases fetchVerified codec env.served admission.record.hash with
      | none => rfl
      | some data =>
        simp only [Option.bind_some, Option.any_some]
        split <;> rfl
  | none =>
    cases second with
    | record r compatible =>
      cases env.coordinates codec fallback.record with
      | true => simp
      | false => cases found : fetchVerified codec env.served r.hash <;> simp [found]
    | _ => cases env.coordinates codec fallback.record <;> rfl

/-- The roster a member settles on is that of the record it goes by. -/
theorem memberRoster_record (h : memberRoster codec env = some roster) :
    env.rosterRecord codec = some roster.record := by
  unfold memberRoster at h
  unfold MemberRestart.rosterRecord
  split at h
  · next first compatible answered =>
    obtain ⟨data, fetched, h⟩ := Option.bind_eq_some_iff.mp h
    rw [answered]
    split at h
    · cases h
    have h := (Option.ite_none_right_eq_some.1 h).2
    cases compatible with
    | false =>
      cases h
      rfl
    | true =>
      cases dialed : env.reconnect with
      | failed =>
        rw [dialed] at h
        cases h
        simp [MemberRestart.welcomeRecord, dialed]
      | welcomed direct second =>
        rw [dialed] at h
        cases h
        exact congrArg some (performReconnectHandshake_record
          ⟨data, first, none, false, none⟩ dialed fetched).symm
  · cases h

variable [DecidableEq Hash]

/-- `finalize_join`: the pointer saved for a restored member. -/
def finalizeJoin (disk : Disk) (saved : NetworkConfig Hash) (groupHash : Hash)
    (net : NetworkState Hash) (source : RosterSource Hash) (blobs : Finset Hash) :
    Option (Installed Hash) :=
  let raised := saved.raiseSavedRecordFloor net.lastRecordTimestamp
  let config :=
    if net.hasKey then
      if saved.lastGroupHash = net.convergedHash then some raised else none
    else some { raised with lastGroupHash := some groupHash, lastGroupHashPublished := true }
  let blobs := match net.snapshot with
    | some hash => if disk.blobWrites then insert hash blobs else blobs
    | none => blobs
  if disk.configFault = none then
    config.map fun config => ⟨⟨net, some config, blobs⟩, source, none⟩
  else none

theorem finalizeJoin_some
    (h : finalizeJoin disk saved groupHash net source blobs = some installed) :
    installed.source = source ∧ installed.node.net = net ∧ disk.configFault = none := by
  obtain ⟨healthy, h⟩ := Option.ite_none_right_eq_some.1 h
  obtain ⟨config, -, rfl⟩ := Option.map_eq_some_iff.mp h
  exact ⟨rfl, rfl, healthy⟩

/-- The saved snapshot, if it was published, is still stored and lists us. -/
def warmResumeMemberNetwork (codec : GroupCodec Hash) (env : MemberRestart Hash)
    (saved : NetworkConfig Hash) (blobs : Finset Hash) : Option (Installed Hash) :=
  (saved.lastGroupHash.filter fun _ => saved.lastGroupHashPublished).bind fun hash =>
    if env.disk.blobReads ∧ hash ∈ blobs then
      (codec.named hash).bind fun data =>
        if data.members.isMember env.me then
          finalizeJoin env.disk saved hash
            (.ofBlob codec data false (savedRecordFloor env.disk saved env.key)) (.saved hash) blobs
        else none
    else none

/-- The saved snapshot was published, is still stored and lists this node. -/
def MemberRestart.Resumes (codec : GroupCodec Hash) (env : MemberRestart Hash)
    (saved : NetworkConfig Hash) (blobs : Finset Hash) : Prop :=
  ∃ hash data, saved.lastGroupHash = some hash ∧ saved.lastGroupHashPublished = true ∧
    (env.disk.blobReads = true ∧ hash ∈ blobs) ∧ codec.named hash = some data ∧
    data.members.isMember env.me = true

theorem warmResumeMemberNetwork_cases
    (h : warmResumeMemberNetwork codec env saved blobs = some installed) :
    env.Resumes codec saved blobs ∧ ∃ hash, installed.source = .saved hash ∧
      saved.lastGroupHash = some hash ∧ codec.named hash = some installed.node.net.group := by
  obtain ⟨hash, held, h⟩ := Option.bind_eq_some_iff.mp h
  obtain ⟨held, published⟩ := Option.filter_eq_some_iff.mp held
  obtain ⟨stored, h⟩ := Option.ite_none_right_eq_some.1 h
  obtain ⟨data, named, h⟩ := Option.bind_eq_some_iff.mp h
  split at h
  · next listed =>
    obtain ⟨source, net, -⟩ := finalizeJoin_some h
    exact ⟨⟨hash, data, held, published, stored, named, listed⟩, hash, source, held,
      by rw [net]; exact named⟩
  · cases h

/-- Nothing but a failed config write keeps a member from resuming. -/
theorem warmResumeMemberNetwork_isSome (resumes : env.Resumes codec saved blobs)
    (healthy : env.disk.configFault = none) :
    (warmResumeMemberNetwork codec env saved blobs).isSome = true := by
  obtain ⟨hash, data, held, published, stored, named, listed⟩ := resumes
  rw [warmResumeMemberNetwork, held, Option.filter_some, if_pos published, Option.bind_some,
    if_pos stored, named, Option.bind_some, if_pos listed, finalizeJoin, if_pos healthy]
  rfl

def restoreMemberNetwork (codec : GroupCodec Hash) (env : MemberRestart Hash)
    (saved : NetworkConfig Hash) (blobs : Finset Hash) : Option (Installed Hash) :=
  match warmResumeMemberNetwork codec env saved blobs with
  | some installed => some installed
  | none =>
    (memberRoster codec env).bind fun roster =>
      let floor := max roster.recordTs (savedRecordFloor env.disk saved env.key)
      let net := NetworkState.ofBlob codec roster.blob roster.hasKey floor
      let net := { net with convergedHash := roster.exactHash.orElse fun _ => net.convergedHash }
      match env.first with
      | .record first _ =>
        finalizeJoin env.disk saved first.hash net (.record roster.record)
          (insert first.hash (insert roster.record.hash blobs))
      | _ => none

theorem restoreMemberNetwork_cases
    (h : restoreMemberNetwork codec env saved blobs = some installed) :
    warmResumeMemberNetwork codec env saved blobs = some installed ∨
      ¬env.Resumes codec saved blobs ∧
        ∃ roster, memberRoster codec env = some roster ∧
          installed.source = .record roster.record ∧ installed.node.net.group = roster.blob := by
  unfold restoreMemberNetwork at h
  split at h
  · next warm => exact .inl (warm.trans h)
  next cold =>
  obtain ⟨roster, settled, h⟩ := Option.bind_eq_some_iff.mp h
  split at h
  · obtain ⟨source, net, healthy⟩ := finalizeJoin_some h
    refine .inr ⟨fun resumes => ?_, roster, settled, source, by rw [net]; rfl⟩
    have warm := warmResumeMemberNetwork_isSome resumes healthy
    rw [cold] at warm
    cases warm
  · cases h

/-! ## No rollback -/

/-- The record names the saved snapshot, or is at least as new as the saved floor. -/
def NetworkConfig.Fresh (saved : NetworkConfig Hash) (r : SignedGroupRecord Hash) : Prop :=
  saved.lastGroupHash = some r.hash ∨ FloorLe saved.lastRecordTimestamp (some r.timestamp)

/-- The roster is the saved one or comes from a fresh record. -/
def NetworkConfig.NoRollback (saved : NetworkConfig Hash) : RosterSource Hash → Prop
  | .saved hash => saved.lastGroupHash = some hash
  | .record r => saved.Fresh r

/-- **Restart.** A coordinator's restore installs, and republishes, the sealed roster of
its source; it does not roll back exactly if the saved generation is still unpublished
or the relay's record is fresh. A member's restore installs the roster of its source; it
does not roll back exactly if it can resume from the saved snapshot or the record it goes
by is fresh. -/
theorem restore_iff (codec : GroupCodec Hash) (saved : NetworkConfig Hash) (blobs : Finset Hash) :
    (∀ env installed, restoreCoordinatorNetwork codec env saved blobs = some installed →
      (∃ blob, codec.named installed.source.hash = some blob ∧
        installed.node.net.group = env.sealed blob) ∧
      (∀ r ∈ installed.republished, r.hash = codec.groupBlobHash installed.node.net.group) ∧
      (saved.NoRollback installed.source ↔
        saved.Pending ∨ ∀ r compatible, env.answer = .record r compatible → saved.Fresh r)) ∧
    ∀ env installed, restoreMemberNetwork codec env saved blobs = some installed →
      codec.named installed.source.hash = some installed.node.net.group ∧
      (saved.NoRollback installed.source ↔
        env.Resumes codec saved blobs ∨ ∀ r ∈ env.rosterRecord codec, saved.Fresh r) := by
  refine ⟨fun env installed restart => ?_, fun env installed restart => ?_⟩
  · obtain ⟨restored, found, source, group, republished⟩ := restoreCoordinatorNetwork_cases restart
    obtain ⟨named, origin⟩ := restoreRosterFromBlob_cases found
    rw [source]
    refine ⟨⟨restored.blob, named, group⟩, republished, ?_⟩
    rcases origin with ⟨hash, own, held, kept⟩ | ⟨r, compatible, own, answered, settled⟩
    · -- the saved snapshot, kept for one of two reasons
      rw [own]
      refine ⟨fun _ => kept.imp_right fun silent r compatible answered => ?_, fun _ => held⟩
      cases silent.symm.trans answered
    · rw [own]
      constructor
      · intro fresh
        refine .inr fun r' compatible' answered' => ?_
        cases answered.symm.trans answered'
        exact fresh
      · rintro (pending | fresh)
        · exact absurd pending settled
        · exact fresh r compatible answered
  · rcases restoreMemberNetwork_cases restart with warm | ⟨cold, roster, settled, source, group⟩
    · obtain ⟨resumes, hash, source, held, named⟩ := warmResumeMemberNetwork_cases warm
      rw [source]
      exact ⟨named, fun _ => .inl resumes, fun _ => held⟩
    · rw [source, group, memberRoster_record settled]
      refine ⟨memberRoster_named settled, fun fresh => .inr fun r same => ?_, ?_⟩
      · cases same
        exact fresh
      · rintro (resumes | fresh)
        · exact absurd resumes cold
        · exact fresh roster.record rfl

/-! ## The stale record -/

/-- Node 1 saved a published `soleGroup`, after member 2 was removed, at floor 100. -/
def savedAfterRemoval : NetworkConfig GroupBlob := ⟨some 9, some soleGroup, true, some 100⟩

/-- Node 1 restarts as coordinator while the relay serves `r`. -/
def coordinatorRestart (r : SignedGroupRecord GroupBlob) : CoordinatorRestart GroupBlob where
  me := 1
  hostname := none
  revokedDevices := ∅
  disk := healthyDisk
  served := fun _ => true
  answer := .record r true
  now := 200
  relayTakes := true

/-- Node 1 restarts as a member of node 2 with an empty blob store; node 2 is offline. -/
def memberRestart (r : SignedGroupRecord GroupBlob) : MemberRestart GroupBlob where
  me := 1
  key := 9
  deviceCert := none
  disk := healthyDisk
  served := fun _ => true
  first := .record r true
  reconnect := .failed

/-- `pairGroup` run by node 2. -/
def ledGroup : GroupBlob :=
  { pairGroup with members := pairGroup.members.modify 2 fun m => { m with isCoordinator := true } }

theorem stale_record_restored :
    (∃ installed r,
      restoreCoordinatorNetwork plainCodec (coordinatorRestart ⟨pairGroup, 50⟩) savedAfterRemoval
        {soleGroup} = some installed ∧
      ¬savedAfterRemoval.NoRollback installed.source ∧
      installed.node.net.group.members.isMember 2 ∧
      installed.republished = some r ∧ r.hash.members.isMember 2 ∧ r.timestamp = 200) ∧
    ∃ installed,
      restoreMemberNetwork plainCodec (memberRestart ⟨ledGroup, 50⟩) savedAfterRemoval ∅ =
        some installed ∧
      ¬savedAfterRemoval.NoRollback installed.source ∧
      installed.node.net.group.members.isMember 2 := by
  have stale : ∀ group, group ≠ soleGroup →
      ¬savedAfterRemoval.NoRollback (.record ⟨group, 50⟩) := by
    rintro group differs (same | above)
    · exact differs (Option.some.inj same).symm
    · obtain ⟨ts, held, le⟩ := above 100 rfl
      cases held
      exact absurd (show 100 ≤ 50 from le) (by decide)
  refine ⟨⟨_, _, rfl, stale pairGroup (by decide), by decide, rfl, by decide, rfl⟩, ?_⟩
  exact ⟨_, rfl, stale ledGroup (by decide), by decide⟩

/-- With records signed at the floor or above, both restores keep the roster current. -/
theorem restore_iff_current :
    (∃ installed,
      restoreCoordinatorNetwork plainCodec (coordinatorRestart ⟨pairGroup, 150⟩) savedAfterRemoval
        {soleGroup} = some installed ∧
      savedAfterRemoval.NoRollback installed.source) ∧
    ∃ installed,
      restoreMemberNetwork plainCodec (memberRestart ⟨ledGroup, 100⟩) savedAfterRemoval ∅ =
        some installed ∧
      savedAfterRemoval.NoRollback installed.source := by
  have coordinator := (restore_iff plainCodec savedAfterRemoval {soleGroup}).1
  have member := (restore_iff plainCodec savedAfterRemoval ∅).2
  refine ⟨⟨_, rfl, ((coordinator (coordinatorRestart ⟨pairGroup, 150⟩) _ rfl).2.2).mpr ?_⟩,
    ⟨_, rfl, ((member (memberRestart ⟨ledGroup, 100⟩) _ rfl).2).mpr ?_⟩⟩
  · refine .inr fun r compatible answered => .inr fun f hf => ?_
    cases answered
    cases hf
    exact ⟨150, rfl, by omega⟩
  · refine .inr fun r same => .inr fun f hf => ?_
    cases same
    cases hf
    exact ⟨100, rfl, le_rfl⟩

end Rayfish
