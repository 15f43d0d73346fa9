import Rayfish.Mesh.Group

/-!
# A running network and what is saved of it

The live state of one network, its saved config and its blob store, with the
functions of `publish.rs` that move a group hash to disk. Every access to the disk
can fail, and a failed config write may have been installed all the same.
-/

namespace Rayfish

open Lib

variable {Hash : Type} [DecidableEq Hash]

/-! ## State -/

/-- A config write whose outcome is unknown, and whether its hash came from a
published record. -/
structure PendingSnapshotDurability (Hash : Type) where
  hash : Hash
  published : Bool

structure NetworkState (Hash : Type) where
  group : GroupBlob
  /-- The hash of the last encoding made of `group`; the bytes are those it names. -/
  snapshot : Option Hash
  destroyed : Bool
  /-- The hash of the signed record this state is converged on. -/
  convergedHash : Option Hash
  unconfirmedDurableHash : Option (PendingSnapshotDurability Hash)
  /-- This node holds the network's secret key. -/
  hasKey : Bool
  /-- The replay floor. -/
  lastRecordTimestamp : Option Nat

/-- The saved fields the functions below read or write. -/
structure NetworkConfig (Hash : Type) where
  networkPublicKey : Option EndpointId
  lastGroupHash : Option Hash
  lastGroupHashPublished : Bool
  lastRecordTimestamp : Option Nat

structure Node (Hash : Type) where
  net : NetworkState Hash
  /-- `none` once the network has been deleted. -/
  config : Option (NetworkConfig Hash)
  blobs : Finset Hash

/-- How the disk answers during one step. -/
structure Disk where
  configReads : Bool
  /-- `some installed`: the config write fails, and is installed or not. -/
  configFault : Option Bool
  blobReads : Bool
  blobWrites : Bool

/-- Whether a record of this author time may replace what we hold. -/
def recordIsNewer (recordTs : Nat) : Option Nat → Bool
  | some seen => decide (recordTs > seen)
  | none => true

/-- `some signed` when the signed hash differs from the one we hold. -/
def trustedReconvergeHash (current : Option Hash) (signed : Hash) : Option Hash :=
  if current = some signed then none else some signed

namespace NetworkState

variable (codec : GroupCodec Hash) (s : NetworkState Hash) (hash : Hash)

def needsReconverge (signed : Hash) : Bool :=
  (trustedReconvergeHash s.convergedHash signed).isSome

/-- Encode the group; our own encoding is by definition what we are converged on. -/
def refreshSnapshot : NetworkState Hash :=
  { s with
    snapshot := some (codec.groupBlobHash s.group)
    convergedHash := some (codec.groupBlobHash s.group) }

/-- The blob's fields replaced by a verified blob at `signed`. -/
def adoptBlob (data : GroupBlob) (signed : Hash) : NetworkState Hash :=
  { ({ s with group := data } : NetworkState Hash).refreshSnapshot codec with
    convergedHash := some signed }

/-- A record that names the blob we hold raises the floor. -/
def observeCurrentRecord (recordTs : Nat) : Bool × NetworkState Hash :=
  if s.needsReconverge hash then (false, s)
  else if recordIsNewer recordTs s.lastRecordTimestamp then
    (true, { s with lastRecordTimestamp := some recordTs })
  else (true, s)

/-- Refuse every record authored before `published`, one the relay took. -/
def raiseRecordFloor (published : Nat) : NetworkState Hash :=
  { s with
    lastRecordTimestamp :=
      some (s.lastRecordTimestamp.elim published fun floor => max floor published) }

def markGroupHashDurabilityPending (published : Bool) : NetworkState Hash :=
  if s.convergedHash = some hash then
    let held := (s.unconfirmedDurableHash.filter fun pending => pending.hash = hash).any
      (·.published)
    { s with unconfirmedDurableHash := some ⟨hash, held || published⟩ }
  else s

def confirmCurrentGroupHashDurable : NetworkState Hash :=
  if s.convergedHash = some hash then { s with unconfirmedDurableHash := none } else s

end NetworkState

/-- The saved floor rises, never falls. -/
def NetworkConfig.raiseSavedRecordFloor (cfg : NetworkConfig Hash) (floor : Option Nat) :
    NetworkConfig Hash :=
  { cfg with lastRecordTimestamp := max cfg.lastRecordTimestamp floor }

/-- The recovery pointer moves to `hash`. -/
def NetworkConfig.setPointer (cfg : NetworkConfig Hash) (hash : Hash) (published : Bool)
    (floor : Option Nat) : NetworkConfig Hash :=
  { cfg with lastGroupHash := some hash, lastGroupHashPublished := published
  }.raiseSavedRecordFloor floor

namespace Node

variable (disk : Disk)

/-! ## The config transaction -/

section

variable (n : Node Hash)

def loadNetwork : Option (NetworkConfig Hash) :=
  if disk.configReads then n.config else none

inductive ConfigUpdate where
  | saved
  | deleted
  | failed
  deriving DecidableEq

def updateNetwork (f : NetworkConfig Hash → NetworkConfig Hash) (n : Node Hash) :
    ConfigUpdate × Node Hash :=
  match n.config, disk.configFault with
  | none, _ => (.deleted, n)
  | some cfg, none => (.saved, { n with config := some (f cfg) })
  | some cfg, some true => (.failed, { n with config := some (f cfg) })
  | some _, some false => (.failed, n)

/-- Save a floor that no recovery pointer write carries. -/
def persistRecordFloor (floor : Nat) (n : Node Hash) : Node Hash :=
  (updateNetwork disk (·.raiseSavedRecordFloor (some floor)) n).2

/-- Mark `hash` published if it is still the recovery pointer, and save the floor
its record raised either way. -/
def markGroupHashPublished (hash : Hash) (published : Nat) (n : Node Hash) : Bool × Node Hash :=
  let current := n.config.any fun cfg => cfg.lastGroupHash = some hash
  let (outcome, n) := updateNetwork disk
    (fun cfg =>
      { cfg with
        lastGroupHashPublished := cfg.lastGroupHashPublished || cfg.lastGroupHash = some hash
      }.raiseSavedRecordFloor (some published)) n
  (current && outcome == .saved, n)

/-! ## The recovery pointer -/

/-- A locally authored generation that is durable and not published yet. -/
def pendingAuthoredGroupHash : Option Hash :=
  if n.net.hasKey then
    n.net.convergedHash.bind fun converged =>
      (loadNetwork disk n).bind fun cfg =>
        if cfg.lastGroupHash = some converged ∧ cfg.lastGroupHashPublished = false then
          some converged
        else none
  else none

/-- Write the recovery pointer and settle its durability marker. -/
def writeGroupHashPointer (hash : Hash) (published : Bool) (n : Node Hash) : Bool × Node Hash :=
  let (outcome, n) := updateNetwork disk (·.setPointer hash published n.net.lastRecordTimestamp) n
  match outcome with
  | .saved => (true, { n with net := n.net.confirmCurrentGroupHashDurable hash })
  | .deleted | .failed =>
    (false, { n with net := n.net.markGroupHashDurabilityPending hash published })

/-- The blob is in the store, or goes there from the live snapshot. -/
def ensureStored (hash : Hash) (n : Node Hash) : Bool × Node Hash :=
  if disk.blobReads ∧ hash ∈ n.blobs then (true, n)
  else if n.net.snapshot = some hash ∧ disk.blobWrites then
    (true, { n with blobs := insert hash n.blobs })
  else (false, n)

def persistGroupHashLocked (hash : Hash) (published : Bool) (n : Node Hash) : Bool × Node Hash :=
  if n.net.destroyed ∨ n.net.convergedHash ≠ some hash then (false, n)
  else
    -- an exact retry keeps the provenance of the failed write
    let published := ((n.net.unconfirmedDurableHash.filter fun pending => pending.hash = hash).map
      (·.published)).getD published
    let (stored, n) := ensureStored disk hash n
    if stored then writeGroupHashPointer disk hash published n
    else (false, { n with net := n.net.markGroupHashDurabilityPending hash published })

def confirmPendingSnapshotDurability : Bool × Node Hash :=
  match n.net.unconfirmedDurableHash with
  | none => (true, n)
  | some pending => persistGroupHashLocked disk pending.hash pending.published n

def persistGroupHashIfNeeded (hash : Hash) (published : Bool) (n : Node Hash) : Bool × Node Hash :=
  if n.net.convergedHash ≠ some hash then (false, n)
  else
    let pending := n.net.unconfirmedDurableHash
    let effective := ((pending.filter fun pending => pending.hash = hash).map
      (·.published)).getD published
    let alreadyDurable := pending.isNone && (loadNetwork disk n).any fun cfg =>
      cfg.lastGroupHash = some hash && (!effective || cfg.lastGroupHashPublished)
    if alreadyDurable then (true, n) else persistGroupHashLocked disk hash effective n

/-- The section under `snapshot_commit` is one step, so the snapshot just encoded is
still the current one and the source's loop ends in its first pass. -/
def commitCurrentSnapshot (codec : GroupCodec Hash) (n : Node Hash) : Bool × Node Hash :=
  if n.net.destroyed then (false, n)
  else
    let n := { n with net := n.net.refreshSnapshot codec }
    let hash := codec.groupBlobHash n.net.group
    if disk.blobWrites then
      writeGroupHashPointer disk hash false { n with blobs := insert hash n.blobs }
    else (false, { n with net := n.net.markGroupHashDurabilityPending hash false })

/-! ## Publishing -/

/-- The converged hash when its pointer still has to be written. -/
def groupHashNeedingPersistence : Option Hash :=
  n.net.convergedHash.bind fun converged =>
    if n.net.unconfirmedDurableHash.isSome ∨
        (loadNetwork disk n).all (fun cfg => cfg.lastGroupHash ≠ some converged) then
      some converged
    else none

def snapshotIsPublishable (hash : Hash) (n : Node Hash) : Bool :=
  !n.net.destroyed && n.net.convergedHash = some hash && n.net.unconfirmedDurableHash.isNone &&
    (loadNetwork disk n).any (fun cfg => cfg.lastGroupHash = some hash) &&
    disk.blobReads && hash ∈ n.blobs

/-- The publisher's section under `snapshot_commit`: retry the pointer, then choose
the hash to sign. -/
def preparePublication : Option Hash × Node Hash :=
  let (ready, n) := match groupHashNeedingPersistence disk n with
    | some hash => persistGroupHashLocked disk hash false n
    | none => (true, n)
  let configured := (loadNetwork disk n).bind (·.lastGroupHash)
  (configured.filter fun hash =>
    ready && snapshotIsPublishable disk hash n && !n.net.needsReconverge hash, n)

end

/-- A relay took the record: raise the floor and mark the generation published. -/
def confirmPublication (hash : Hash) (published : Nat) (n : Node Hash) : Bool × Node Hash :=
  markGroupHashPublished disk hash published { n with net := n.net.raiseRecordFloor published }

end Node

end Rayfish
