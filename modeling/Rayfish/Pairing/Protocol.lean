import Mathlib.Data.List.Nodup
import Mathlib.Logic.Function.Basic
import Rayfish.Addr
import Rayfish.Lib.Run

/-!
# Pairing and unpairing

A primary and one of its devices. The primary numbers the pairings of the device, revokes
it with a nullifier in the records of the networks it coordinates, and lifts the
revocation before it pairs the device again. The device gives its certificate up in two
saved phases, the cleanup and the request. Each side works under a lock of its own (the
primary's `revocation_lock`, the device's `unpair_lock`), so at most one such task is
under way on a side; the confirmation of a saved certificate is read outside the lock.

Messages may be lost, held back or repeated, and either side may restart between any two
steps. A write can fail, also after the new file is in place.
-/

namespace Rayfish.Pairing

open Lib

/-! ## The primary's settings -/

structure DeviceGeneration where
  device : EndpointId
  issued : Nat
  confirmed : Option Nat

structure PendingUnpairNotice where
  device : EndpointId
  generation : Nat
  deriving DecidableEq

structure AppConfig where
  /-- What the certificates of devices paired before pairings were numbered carry. -/
  certGeneration : Nat
  deviceGenerations : List DeviceGeneration
  revokedDevices : List EndpointId
  pendingUnpairNotices : List PendingUnpairNotice
  /-- The saved networks whose secret key is held here, by their key. -/
  coordinates : List EndpointId

/-- What a write to disk reports. An error may come after the new file is in place. -/
inductive Write where
  | saved
  | failed (installed : Bool)
  deriving DecidableEq

/-- Change what is saved: whether that is reported to have worked, and what is on disk. -/
def Write.update {α : Type} (write : Write) (old new : α) : Bool × α :=
  match write with
  | .saved => (true, new)
  | .failed true => (false, new)
  | .failed false => (false, old)

section Settings

variable (cfg : AppConfig) (device : EndpointId)

def deviceGeneration : Option DeviceGeneration :=
  cfg.deviceGenerations.find? fun known => known.device = device

def issuedGeneration : Nat :=
  ((deviceGeneration cfg device).map (·.issued)).getD cfg.certGeneration

def confirmedGeneration : Option Nat :=
  (deviceGeneration cfg device).bind (·.confirmed)

/-- The new pairing gets a generation one above the last; the notices end with it. -/
def savePairingGeneration : AppConfig :=
  { cfg with
    deviceGenerations := (cfg.deviceGenerations.filter fun known => known.device ≠ device) ++
      [⟨device, issuedGeneration cfg device + 1, confirmedGeneration cfg device⟩]
    pendingUnpairNotices := cfg.pendingUnpairNotices.filter fun notice => notice.device ≠ device }

def saveCertificateSaved (generation : Nat) : AppConfig :=
  { cfg with
    deviceGenerations := cfg.deviceGenerations.modify
      (cfg.deviceGenerations.findIdx fun known => known.device = device)
      fun known => { known with confirmed := max known.confirmed (some generation) } }

def clearUnpairNotice : AppConfig :=
  { cfg with
    pendingUnpairNotices := cfg.pendingUnpairNotices.filter fun notice => notice.device ≠ device }

def saveUnpairNotice : AppConfig :=
  { cfg with
    pendingUnpairNotices :=
      (cfg.pendingUnpairNotices.filter fun notice => notice.device ≠ device) ++
        [⟨device, issuedGeneration cfg device⟩] }

def saveRevocation : AppConfig :=
  { cfg with
    revokedDevices :=
      if device ∈ cfg.revokedDevices then cfg.revokedDevices
      else cfg.revokedDevices ++ [device] }

def liftRevocation : AppConfig :=
  { cfg with revokedDevices := cfg.revokedDevices.erase device }

end Settings

section Settings

variable {cfg : AppConfig} {device : EndpointId} {generation : Nat}

theorem deviceGeneration_savePairingGeneration :
    deviceGeneration (savePairingGeneration cfg device) device =
      some ⟨device, issuedGeneration cfg device + 1, confirmedGeneration cfg device⟩ := by
  have others : ((cfg.deviceGenerations.filter fun known => known.device ≠ device).find?
      fun known => known.device = device) = none := by
    simp [List.find?_eq_none]
  unfold deviceGeneration savePairingGeneration
  rw [List.find?_append, others]
  simp

@[simp] theorem issuedGeneration_savePairingGeneration :
    issuedGeneration (savePairingGeneration cfg device) device =
      issuedGeneration cfg device + 1 := by
  simp [issuedGeneration, deviceGeneration_savePairingGeneration]

@[simp] theorem confirmedGeneration_savePairingGeneration :
    confirmedGeneration (savePairingGeneration cfg device) device =
      confirmedGeneration cfg device := by
  simp [confirmedGeneration, deviceGeneration_savePairingGeneration]

/-- Only the first entry of the device changes, which is the one that counts. -/
theorem deviceGeneration_saveCertificateSaved :
    deviceGeneration (saveCertificateSaved cfg device generation) device =
      (deviceGeneration cfg device).map fun known =>
        { known with confirmed := max known.confirmed (some generation) } := by
  unfold deviceGeneration saveCertificateSaved
  induction cfg.deviceGenerations with
  | nil => rfl
  | cons known rest ih =>
    by_cases same : known.device = device
    · simp [List.findIdx_cons, same]
    · simp [List.findIdx_cons, same, ih]

@[simp] theorem issuedGeneration_saveCertificateSaved :
    issuedGeneration (saveCertificateSaved cfg device generation) device =
      issuedGeneration cfg device := by
  rw [issuedGeneration, deviceGeneration_saveCertificateSaved, Option.map_map]
  rfl

theorem confirmedGeneration_saveCertificateSaved
    (old : ∀ known, confirmedGeneration cfg device = some known → known ≤ top)
    (new : generation ≤ top)
    (is : confirmedGeneration (saveCertificateSaved cfg device generation) device =
      some confirmed) : confirmed ≤ top := by
  rw [confirmedGeneration, deviceGeneration_saveCertificateSaved] at is
  unfold confirmedGeneration at old
  cases known : deviceGeneration cfg device with
  | none => simp [known] at is
  | some entry =>
    cases before : entry.confirmed with
    | none =>
      simp only [known, Option.map_some, Option.bind_some, before, Option.max_none_left,
        Option.some.injEq] at is
      exact is ▸ new
    | some last =>
      simp only [known, Option.map_some, Option.bind_some, before, Option.max_some_some,
        Option.some.injEq] at is
      exact is ▸ Nat.max_le.2 ⟨old last (by simp [known, before]), new⟩

theorem notice_savePairingGeneration :
    ⟨device, generation⟩ ∉ (savePairingGeneration cfg device).pendingUnpairNotices := by
  simp [savePairingGeneration]

theorem notice_clearUnpairNotice :
    ⟨device, generation⟩ ∉ (clearUnpairNotice cfg device).pendingUnpairNotices := by
  simp [clearUnpairNotice]

theorem notice_saveUnpairNotice
    (waiting : ⟨device, generation⟩ ∈ (saveUnpairNotice cfg device).pendingUnpairNotices) :
    generation = issuedGeneration cfg device := by
  simpa [saveUnpairNotice] using waiting

theorem saveRevocation_nodup (nodup : cfg.revokedDevices.Nodup) :
    (saveRevocation cfg device).revokedDevices.Nodup := by
  unfold saveRevocation
  split
  · exact nodup
  · next fresh => exact nodup.append (List.nodup_singleton device) (by simpa using fresh)

theorem liftRevocation_lifts (nodup : cfg.revokedDevices.Nodup) :
    device ∉ (liftRevocation cfg device).revokedDevices :=
  nodup.not_mem_erase

end Settings

/-! ## The two sides -/

/-- Whether a coordinated network nullifies the device: in its roster as it runs, in its
saved blob, and in the record its members read. -/
structure Listing where
  live : Bool
  stored : Bool
  published : Bool
  /-- `last_group_hash_published` is off. -/
  unpublished : Bool

/-- The roster as it runs gets saved, and waits to be published. A failed write may have
saved it all the same. -/
def Listing.save (listing : Listing) (live : Bool) : Write → Listing
  | .failed false => { listing with live := live }
  | _ => { listing with live := live, stored := live, unpublished := true }

inductive Message where
  | request (conn secret : Nat)
  | response (conn generation : Nat)
  | certificateSaved (conn generation : Nat)
  | pairingRevoked (generation : Nat)
  | unpairRequest (conn generation : Nat)
  | unpairRecorded (conn : Nat)
  deriving DecidableEq

/-- What a revocation was for, once every network is done. -/
inductive Sequel where
  /-- `ray unpair`. -/
  | done
  /-- A device's request, to be answered. -/
  | answer (conn : Nat)
  /-- The revocation that a failed pairing had lifted. -/
  | refuse
  deriving DecidableEq

/-- The task that holds the revocation lock. -/
inductive Revoking where
  /-- `record_unpair`, with its check passed. -/
  | recording (conn generation : Nat)
  | nullifying (left : List EndpointId) (sequel : Sequel)
  | lifting (conn : Nat) (lifted : Bool) (left changed : List EndpointId)
  | publishing (conn : Nat) (lifted : Bool) (changed : List EndpointId)
  | saving (conn : Nat) (lifted : Bool)
  /-- A pairing failed after the revocation was lifted. -/
  | puttingBack
  deriving DecidableEq

structure Primary where
  config : AppConfig
  running : List EndpointId
  restoring : List EndpointId
  listing : EndpointId → Listing
  /-- The pairing secret of an open session. -/
  session : Option Nat
  /-- Connections that presented it and wait for the revocation lock. -/
  accepted : List Nat
  revoking : Option Revoking
  /-- Connections on which a certificate went out and is to be confirmed. -/
  awaiting : List (Nat × Nat)

inductive UnpairPhase where
  | cleanup
  | request
  deriving DecidableEq

structure PendingUnpair where
  cert : Nat
  phase : UnpairPhase
  deriving DecidableEq

/-- The task that holds the device's unpair lock. A cleanup may have been started by a
pairing, which goes on with the secret. -/
inductive Unpairing where
  | cleaning (cert : Nat) (secret : Option Nat)
  | cleaned (cert : Nat) (secret : Option Nat)
  | asking (conn cert : Nat)
  | dialing (secret : Nat)
  | awaiting (conn : Nat)
  | stored (conn generation : Nat)
  | confirming (conn generation : Nat)
  deriving DecidableEq

/-- A network record on its way to `self_is_nullified`. A join, like `apply_signed_record`, has
the record first and the certificate then, a reconvergence the other way round. -/
inductive RecordRead where
  | fetched (network : EndpointId) (nullifies : Bool)
  | holding (cert : Nat)
  /-- The record nullifies this certificate; `unpair_nullified` waits for the lock. -/
  | nullified (cert : Nat)
  deriving DecidableEq

/-- The device: certificates are named by their generation. -/
structure Device where
  cert : Option Nat
  pending : Option PendingUnpair
  unpairing : Option Unpairing
  reads : List RecordRead

structure System where
  primary : Primary
  device : Device
  /-- Everything sent so far. -/
  sent : List Message

/-! ## Steps of the primary -/

inductive PrimaryOp where
  | startPairing (secret : Nat)
  | closePairing
  | request (conn secret : Nat)
  /-- `save_new_pairing` gets the lock. -/
  | reauth (conn : Nat) (write : Write)
  /-- `ray unpair`. -/
  | unpair (write : Write)
  /-- `record_unpair` gets the lock and makes its check. -/
  | unpairRequest (conn generation : Nat)
  /-- The next step of the task that holds the lock. -/
  | advance (write : Write)
  /-- The records were not published in time. -/
  | giveUp
  | certificateSaved (conn generation : Nat) (write : Write)
  /-- `await_certificate_saved` timed out. -/
  | forget (conn generation : Nat)
  /-- Tell the device that its pairing is revoked. -/
  | notify (generation : Nat)
  /-- Another change of a network saves its blob. -/
  | store (network : EndpointId)
  | publish (network : EndpointId)
  /-- A restore reads a network back and seals it with the saved revocations. -/
  | sealGroup (network : EndpointId)
  | install (network : EndpointId)
  | restart

namespace Primary

variable (d : EndpointId) (p : Primary) (network : EndpointId)

def setListing (listing : Listing) : Primary :=
  { p with listing := Function.update p.listing network listing }

def save (live : Bool) (write : Write) : Primary :=
  p.setListing network ((p.listing network).save live write)

/-- The seed write of `revoke_device_locked`, together with the change `also`. -/
def revoke (write : Write) (also : AppConfig → AppConfig) (sequel : Sequel) : Primary :=
  match write.update p.config (also (saveRevocation p.config d)) with
  | (true, config) =>
    { p with config := config, revoking := some (.nullifying p.running sequel) }
  | (false, config) => { p with config := config, revoking := none }

/-- `reauth_device_locked` up to the networks: a revoked device is refused while a
coordinated network is not running, and otherwise the seed is dropped. -/
def reauth (conn : Nat) (write : Write) : Primary :=
  if d ∈ p.config.revokedDevices ∧ p.config.coordinates.any (· ∉ p.running) then
    { p with accepted := p.accepted.erase conn }
  else
    match write.update p.config (liftRevocation p.config d) with
    | (true, config) =>
      { p with
        config := config
        accepted := p.accepted.erase conn
        revoking := some (.lifting conn (decide (d ∈ p.config.revokedDevices)) p.running []) }
    | (false, config) => { p with config := config, accepted := p.accepted.erase conn }

/-- Save the generation and send the certificate signed at it. -/
def issue (conn : Nat) (lifted : Bool) (write : Write) : Primary × List Message :=
  match write.update p.config (savePairingGeneration p.config d) with
  | (true, config) =>
    let generation := issuedGeneration p.config d + 1
    ({ p with
        config := config
        revoking := none
        awaiting := (conn, generation) :: p.awaiting },
      [.response conn generation])
  | (false, config) =>
    ({ p with config := config, revoking := if lifted then some .puttingBack else none }, [])

/-- The next step of the task that holds the lock. -/
def advance (write : Write) : Revoking → Option (Primary × List Message)
  | .recording conn _ =>
    some (p.revoke d write (clearUnpairNotice · d) (.answer conn), [])
  | .nullifying (network :: left) sequel =>
    some ({ p.save network true write with revoking := some (.nullifying left sequel) }, [])
  | .nullifying [] (.answer conn) => some ({ p with revoking := none }, [.unpairRecorded conn])
  | .nullifying [] _ => some ({ p with revoking := none }, [])
  | .lifting conn lifted (network :: left) changed =>
    if (p.listing network).live then
      some ({ p.save network false write with
        revoking := some <|
          if write = .saved then .lifting conn true left (changed ++ [network])
          else .puttingBack }, [])
    else some ({ p with revoking := some (.lifting conn lifted left changed) }, [])
  | .lifting conn lifted [] changed =>
    some ({ p with revoking := some (.publishing conn lifted changed) }, [])
  | .publishing conn lifted changed =>
    if changed.any fun network => (p.listing network).unpublished then none
    else some ({ p with revoking := some (.saving conn lifted) }, [])
  | .saving conn lifted => some (p.issue d conn lifted write)
  | .puttingBack => some (p.revoke d write id .refuse, [])

/-- A restored network nullifies what its blob and the saved revocations do. -/
def sealed : Primary :=
  let old := p.listing network
  let live := old.stored || decide (d ∈ p.config.revokedDevices)
  { p.setListing network
      ⟨live, live, old.published, old.unpublished || live != old.stored⟩ with
    restoring := network :: p.restoring }

end Primary

/-- One step: the primary after it and what it sends. `d` is the device. -/
def PrimaryOp.run (d : EndpointId) (sent : List Message) (p : Primary) :
    PrimaryOp → Option (Primary × List Message)
  | .startPairing secret => some ({ p with session := some secret }, [])
  | .closePairing => some ({ p with session := none }, [])
  | .request conn secret =>
    if .request conn secret ∈ sent then
      if p.session = some secret then
        some ({ p with session := none, accepted := conn :: p.accepted }, [])
      else some (p, [])
    else none
  | .reauth conn write =>
    if conn ∈ p.accepted ∧ p.revoking = none then some (p.reauth d conn write, []) else none
  | .unpair write =>
    if p.revoking = none then
      some (p.revoke d write (saveUnpairNotice · d) .done, [])
    else none
  | .unpairRequest conn generation =>
    if .unpairRequest conn generation ∈ sent ∧ p.revoking = none then
      if (confirmedGeneration p.config d).any (fun confirmed => generation < confirmed) then
        some (p, [.unpairRecorded conn])
      else some ({ p with revoking := some (.recording conn generation) }, [])
    else none
  | .advance write => p.revoking.bind (p.advance d write)
  | .giveUp =>
    match p.revoking with
    | some (.publishing _ _ changed) =>
      if changed.any fun network => (p.listing network).unpublished then
        some ({ p with revoking := some .puttingBack }, [])
      else none
    | _ => none
  | .certificateSaved conn generation write =>
    if .certificateSaved conn generation ∈ sent ∧ (conn, generation) ∈ p.awaiting then
      some ({ p with
        config := (write.update p.config (saveCertificateSaved p.config d generation)).2
        awaiting := p.awaiting.erase (conn, generation) }, [])
    else none
  | .forget conn generation =>
    some ({ p with awaiting := p.awaiting.erase (conn, generation) }, [])
  | .notify generation =>
    if ⟨d, generation⟩ ∈ p.config.pendingUnpairNotices then
      some (p, [.pairingRevoked generation])
    else none
  | .store network =>
    if network ∈ p.running then some (p.save network (p.listing network).live .saved, [])
    else none
  | .publish network =>
    if network ∈ p.running ∨ network ∈ p.restoring then
      some (p.setListing network
        { p.listing network with
          published := (p.listing network).stored
          unpublished := false }, [])
    else none
  | .sealGroup network =>
    if network ∈ p.config.coordinates ∧ network ∉ p.running ∧ network ∉ p.restoring then
      some (p.sealed d network, [])
    else none
  | .install network =>
    if network ∈ p.restoring then
      some ({ p with
        running := network :: p.running
        restoring := p.restoring.erase network }, [])
    else none
  | .restart =>
    some ({ p with
      running := []
      restoring := []
      session := none
      accepted := []
      revoking := none
      awaiting := [] }, [])

/-! ## Steps of the device -/

/-- How far a start gets with a cleanup that the last run left behind. -/
inductive Resumed where
  | nothing
  | deleted
  | completed

inductive DeviceOp where
  /-- `unpair_self`, asked for by the user. -/
  | unpairSelf (write : Write)
  /-- `on_unpaired_notice`. -/
  | notice (generation : Nat) (write : Write)
  /-- A join reads the published record of a network. -/
  | fetch (network : EndpointId)
  /-- A join checks the certificate stored now against the record it read. -/
  | check (read : RecordRead)
  /-- A reconvergence takes the certificate stored now. -/
  | hold
  /-- A reconvergence reads the published record and checks its certificate. -/
  | fetchFor (read : RecordRead) (network : EndpointId)
  /-- `unpair_nullified` gets the lock. -/
  | unpairNullified (read : RecordRead) (write : Write)
  /-- `attempt_unpair_requests`. -/
  | attempt (write : Write)
  | recorded (conn : Nat) (write : Write)
  /-- `pair_with_device`. -/
  | pair (secret : Nat)
  | receive (conn generation : Nat) (write : Write)
  /-- The next step of the task that holds the lock. -/
  | advance (write : Write)
  /-- The task that holds the lock fails or times out. -/
  | giveUp
  | restart (resumed : Resumed)

namespace Device

variable (dev : Device)

/-- `unpair_self_locked` up to the cleanup: the unpair is saved first. -/
def unpairSelfLocked (cert : Nat) (write : Write) : Device :=
  match write.update dev.pending (some ⟨cert, .cleanup⟩) with
  | (true, pending) => { dev with pending := pending, unpairing := some (.cleaning cert none) }
  | (false, pending) => { dev with pending := pending }

/-- `complete_cleanup`: the entry of this certificate moves on to its request. -/
def completed (cert : Nat) : Option PendingUnpair :=
  dev.pending.map fun entry => if entry.cert = cert then { entry with phase := .request } else entry

/-- The entries of other certificates stay. -/
def removePending (cert : Nat) : Option PendingUnpair :=
  dev.pending.filter fun entry => entry.cert ≠ cert

/-- `attempt_unpair_requests`, under the lock. A request goes out on a connection of its
own. -/
def attempt (conn : Nat) (write : Write) : Device × List Message :=
  match dev.pending with
  | none => (dev, [])
  | some ⟨cert, .cleanup⟩ => ({ dev with unpairing := some (.cleaning cert none) }, [])
  | some ⟨cert, .request⟩ =>
    match dev.cert with
    | some _ => ({ dev with pending := (write.update dev.pending (dev.removePending cert)).2 }, [])
    | none => ({ dev with unpairing := some (.asking conn cert) }, [.unpairRequest conn cert])

/-- `pair_with_device`, under the lock: a cleanup that is left is finished first. -/
def pair (secret : Nat) : Device :=
  match dev.pending with
  | some ⟨cert, .cleanup⟩ => { dev with unpairing := some (.cleaning cert (some secret)) }
  | _ => { dev with unpairing := some (.dialing secret) }

def advance (conn : Nat) (write : Write) : Unpairing → Option (Device × List Message)
  | .cleaning cert secret =>
    match write.update dev.cert none with
    | (true, stored) =>
      some ({ dev with cert := stored, unpairing := some (.cleaned cert secret) }, [])
    | (false, stored) => some ({ dev with cert := stored, unpairing := none }, [])
  | .cleaned cert secret =>
    match write.update dev.pending (dev.completed cert) with
    | (true, pending) =>
      some ({ dev with pending := pending, unpairing := secret.map .dialing }, [])
    | (false, pending) => some ({ dev with pending := pending, unpairing := none }, [])
  | .dialing secret =>
    some ({ dev with unpairing := some (.awaiting conn) }, [.request conn secret])
  | .stored conn generation =>
    -- `paired_again`; a cancel that cannot be saved is left to the next attempt
    some ({ dev with
      pending := (write.update dev.pending none).2
      unpairing := some (.confirming conn generation) }, [])
  | .confirming conn generation =>
    some ({ dev with unpairing := none }, [.certificateSaved conn generation])
  | .asking _ _ => none
  | .awaiting _ => none

/-- `finish_interrupted_unpair`: a start finishes what it can of a cleanup. Another
pairing's certificate is left alone. -/
def resume (resumed : Resumed) : Device :=
  match dev.pending, resumed with
  | some ⟨cert, .cleanup⟩, .deleted =>
    { dev with cert := dev.cert.filter (· ≠ cert) }
  | some ⟨cert, .cleanup⟩, .completed =>
    { dev with cert := dev.cert.filter (· ≠ cert), pending := dev.completed cert }
  | _, _ => dev

end Device

/-- One step: the device after it and what it sends. `listing` gives the published records;
a new connection is numbered by what has been sent so far. -/
def DeviceOp.run (listing : EndpointId → Listing) (sent : List Message) (dev : Device) :
    DeviceOp → Option (Device × List Message)
  | .unpairSelf write =>
    if dev.unpairing = none then
      dev.cert.map fun cert => (dev.unpairSelfLocked cert write, [])
    else none
  | .notice generation write =>
    if .pairingRevoked generation ∈ sent ∧ dev.unpairing = none then
      match dev.cert with
      | some cert =>
        if generation < cert then some (dev, [])
        else some (dev.unpairSelfLocked cert write, [])
      | none => some (dev, [])
    else none
  | .fetch network =>
    some ({ dev with reads := .fetched network (listing network).published :: dev.reads }, [])
  | .check read =>
    if read ∈ dev.reads then
      match read, dev.cert with
      | .fetched _ true, some cert =>
        some ({ dev with reads := .nullified cert :: dev.reads.erase read }, [])
      | .fetched _ _, _ => some ({ dev with reads := dev.reads.erase read }, [])
      | _, _ => none
    else none
  | .hold => dev.cert.map fun cert => ({ dev with reads := .holding cert :: dev.reads }, [])
  | .fetchFor read network =>
    if read ∈ dev.reads then
      match read with
      | .holding cert =>
        if (listing network).published then
          some ({ dev with reads := .nullified cert :: dev.reads.erase read }, [])
        else some ({ dev with reads := dev.reads.erase read }, [])
      | _ => none
    else none
  | .unpairNullified read write =>
    if read ∈ dev.reads ∧ dev.unpairing = none then
      match read with
      | .nullified cert =>
        if dev.cert = some cert then
          some ({ dev with reads := dev.reads.erase read }.unpairSelfLocked cert write, [])
        else some ({ dev with reads := dev.reads.erase read }, [])
      | _ => none
    else none
  | .attempt write =>
    if dev.unpairing = none then some (dev.attempt sent.length write) else none
  | .recorded conn write =>
    match dev.unpairing with
    | some (.asking own cert) =>
      if own = conn ∧ .unpairRecorded conn ∈ sent then
        some ({ dev with
          pending := (write.update dev.pending (dev.removePending cert)).2
          unpairing := none }, [])
      else none
    | _ => none
  | .pair secret => if dev.unpairing = none then some (dev.pair secret, []) else none
  | .receive conn generation write =>
    if dev.unpairing = some (.awaiting conn) ∧ .response conn generation ∈ sent then
      match write.update dev.cert (some generation) with
      | (true, cert) =>
        some ({ dev with cert := cert, unpairing := some (.stored conn generation) }, [])
      | (false, cert) => some ({ dev with cert := cert, unpairing := none }, [])
    else none
  | .advance write => dev.unpairing.bind (dev.advance sent.length write)
  | .giveUp =>
    match dev.unpairing with
    | none | some (.cleaned _ _) | some (.stored _ _) => none
    | some _ => some ({ dev with unpairing := none }, [])
  | .restart resumed =>
    some ({ dev with unpairing := none, reads := [] }.resume resumed, [])

/-! ## The system -/

inductive Act where
  | primary (op : PrimaryOp)
  | device (op : DeviceOp)

/-- One step of either side; it answers with what was sent. -/
def Act.run (d : EndpointId) (s : System) : Act → Option (List Message × System)
  | .primary op =>
    (op.run d s.sent s.primary).map fun result =>
      (result.2, { s with primary := result.1, sent := result.2 ++ s.sent })
  | .device op =>
    (op.run s.primary.listing s.sent s.device).map fun result =>
      (result.2, { s with device := result.1, sent := result.2 ++ s.sent })

def step (d : EndpointId) : StepRel System Act (List Message) :=
  fun s a sends s' => a.run d s = some (sends, s')

abbrev PairEntry := Entry System Act (List Message)

end Rayfish.Pairing
