import Mathlib.Data.List.MinMax
import Mathlib.Logic.Function.Basic
import Rayfish.Hostname
import Rayfish.Invite
import Rayfish.Lib.HashMap
import Rayfish.Mesh.State

/-!
# Admitting peers

A coordinator's side of joins and reconnects (`accept.rs`): who is admitted, the name
it gets, and the commit of its seat. Each frame becomes a task that moves on by lock
sections. The name is chosen when the admission is validated, under a read lock; the
seat is taken later, under `snapshot_commit`, without another look at the name. A
hello of a seated member chooses and writes its name in one section.
-/

namespace Rayfish

open Lib

variable {Hash : Type} [DecidableEq Hash]

/-! ## The desk -/

inductive GroupMode where
  | openMode
  | restricted
  deriving DecidableEq

/-- A join that waits for the operator. -/
structure PendingJoin where
  denied : Bool
  hostname : Option Name
  deviceCert : Option DeviceCert
  requestedAt : Nat

/-- A certificate as presented, and whether its signature verifies. -/
structure PresentedCert where
  cert : DeviceCert
  verifies : Bool

/-- An admission that has been authorised. -/
structure AdmissionRequest where
  remoteId : EndpointId
  hostname : Option Name
  deviceCert : Option DeviceCert
  wasApproved : Bool
  /-- The name is bound by the invite. -/
  authoritative : Bool
  /-- The one-time secret this admission burned. -/
  burned : Option Name

/-- A tentative seat, with what a rollback puts back. -/
structure Seat where
  tentative : Member
  displaced : Option Member
  removedApproved : Option ApprovedEntry
  removedPending : Option PendingJoin
  burned : Option Name

/-- Where a commit of a seat is; the task holds `snapshot_commit`. -/
inductive SeatPhase where
  | seated (seat : Seat)
  /-- The commit failed. -/
  | failed (seat : Seat)
  | rolledBack (seat : Seat)
  /-- The rollback could not be made durable either. -/
  | retaining (seat : Seat)
  | retained (seat : Seat)

def SeatPhase.seat : SeatPhase → Seat
  | .seated seat | .failed seat | .rolledBack seat | .retaining seat | .retained seat => seat

inductive AcceptTask where
  | admitting (request : AdmissionRequest)
  | validated (request : AdmissionRequest) (hostname : Option Name)
  | committing (phase : SeatPhase)
  /-- Denied: a burned invite goes back. -/
  | denied (burned : Option Name)
  | greeted (id : EndpointId) (hostname : Option Name) (cert : Option PresentedCert)
  | welcomed (id : EndpointId) (hostname : Option Name) (cert : Option PresentedCert)
  /-- The operator has taken a request from the queue. -/
  | approving (entry : ApprovedEntry)

/-- One network at its coordinator. -/
structure Desk (Hash : Type) where
  node : Node Hash
  mode : GroupMode
  pending : HashMap EndpointId PendingJoin
  invites : InviteStore
  /-- The task that holds `snapshot_commit` from one section to the next. -/
  lock : Option Nat
  tasks : Nat → Option AcceptTask

namespace Desk

variable (s : Desk Hash)

def members : MemberList := s.node.net.group.members

def withGroup (group : GroupBlob) : Desk Hash :=
  { s with node := { s.node with net := { s.node.net with group := group } } }

def setTask (task : Nat) (t : Option AcceptTask) : Desk Hash :=
  { s with tasks := Function.update s.tasks task t }

/-- Requests of peers that are seated or approved by now leave the queue. -/
def retainPending : Desk Hash :=
  { s with
    pending := HashMap.retain
      (fun id _ => !s.members.isMember id && !s.node.net.group.approved.isApproved id) s.pending }

def refreshSnapshot (codec : GroupCodec Hash) (s : Desk Hash) : Desk Hash :=
  { s with node := { s.node with net := s.node.net.refreshSnapshot codec } }.retainPending

def commitCurrentSnapshot (disk : Disk) (codec : GroupCodec Hash) (s : Desk Hash) :
    Bool × Desk Hash :=
  let (saved, node) := Node.commitCurrentSnapshot disk codec s.node
  let s := { s with node := node }
  (saved, if node.net.destroyed then s else s.retainPending)

end Desk

/-- The names of everyone but `except`. -/
def takenHostnames (members : MemberList) (except : EndpointId) : Multiset Name :=
  (members.values.filter fun m => m.identity ≠ except).filterMap (·.hostname)

/-- What the rest of the world does during one section. -/
structure Surroundings (Hash : Type) where
  disk : Disk
  now : Nat
  /-- The reply reaches the peer. -/
  delivered : Bool
  /-- The saved direct link was minted for this peer, so it is handed the key. -/
  grantDirect : Bool
  /-- The hash of the record the registry holds. -/
  record : Option Hash
  /-- Encoding and signing a record succeeds. -/
  signs : Bool

/-! ## Authorising a join -/

inductive ControlFrame where
  | joinRequest (secret : Option Name) (hostname : Option Name) (cert : Option PresentedCert)
  | meshHello (hostname : Option Name) (cert : Option PresentedCert)

inductive JoinDenial where
  | invalidCertificate
  | revokedCertificate
  | inviteRejected (refusal : InviteRefusal)
  | byOperator
  | hostname (reason : List Char)
  | directGrantUnavailable
  | notDurable

/-- What a section answers. -/
inductive DeskOut (Hash : Type) where
  | authorised (request : AdmissionRequest)
  | validated (hostname : Option Name)
  | denied (reason : JoinDenial)
  | queued
  | greeted
  /-- The peer is asked to come back. -/
  | joinPending
  | seated (member : Member)
  /-- The commit stands, with the hash of the record signed for it. -/
  | committed (signed : Option Hash)
  | notDurable
  | rolledBack
  | retained
  | renamed (hostname : Option Name)
  | accepted (entry : ApprovedEntry)
  | approved (entry : ApprovedEntry)
  | stored (saved : Bool)
  | signed (hash : Option Hash)
  | done

def maxPendingJoins : Nat := 256

/-- Make room for a new request: the oldest one goes. -/
def evictOldestPending (pending : HashMap EndpointId PendingJoin) (incoming : EndpointId)
    (cap : Nat) : HashMap EndpointId PendingJoin :=
  if (pending.lookup incoming).isSome ∨ pending.size < cap then pending
  else
    match pending.entries.argmin fun e => e.2.requestedAt with
    | some oldest => pending.erase oldest.1
    | none => pending

/-- The certificate is of one of the coordinator's own devices. -/
def ownerAdmits (cert : Option DeviceCert) (me : EndpointId) : Bool :=
  cert.any fun c => c.userIdentity == me

/-- The certificate is of a device of someone seated. -/
def memberAdmits (cert : Option DeviceCert) (members : MemberList) : Bool :=
  cert.any fun c => members.isMember c.userIdentity

/-- The reusable key under `hash`, if it is neither revoked nor expired. -/
def validateReusableKey (keys : OrdMap Name ReusableKey) (hash : Name) (now : Nat) :
    Option ReusableKey :=
  (keys.lookup hash).filter fun key => !key.revoked && decide (now < key.expires)

namespace Desk

variable (codec : GroupCodec Hash) (me : EndpointId) (s : Desk Hash) (task : Nat)
  (env : Surroundings Hash) (id : EndpointId) (hostname : Option Name) (cert : Option PresentedCert)

def authorise (request : AdmissionRequest) : DeskOut Hash × Desk Hash :=
  (.authorised request, s.setTask task (some (.admitting request)))

/-- Redeem under the ledger's lock; the ledger is a file of the config directory. -/
def redeem (secret : Name) (peer : EndpointId) : Except InviteRefusal (Option Name) × Desk Hash :=
  if env.disk.configReads then
    match s.invites.redeem secret peer env.now with
    | .error refusal => (.error refusal, s)
    | .ok (bound, invites) =>
      match env.disk.configFault with
      | none => (.ok bound, { s with invites := invites })
      | some true => (.error .unavailable, { s with invites := invites })
      | some false => (.error .unavailable, s)
  else (.error .unavailable, s)

section

variable (peer : EndpointId)

/-- `redeem_invite_and_admit`: a one-time invite of the ledger, else a reusable key. -/
def redeemInvite (secret : Name) (hostname : Option Name) (cert : Option DeviceCert) :
    DeskOut Hash × Desk Hash :=
  match s.redeem env secret peer with
  | (.ok bound, s) =>
    s.authorise task
      { remoteId := peer
        hostname := bound.orElse fun _ => hostname
        deviceCert := cert
        wasApproved := false
        authoritative := bound.isSome
        burned := some secret }
  | (.error refusal, s) =>
    match validateReusableKey s.node.net.group.reusableKeys secret env.now with
    | some _ => s.authorise task ⟨peer, hostname, cert, false, false, none⟩
    | none => (.denied (.inviteRejected refusal), s)

/-- Queue for the operator, or deliver a denial given before. -/
def queue (hostname : Option Name) (cert : Option DeviceCert)
    (env : Surroundings Hash) : DeskOut Hash × Desk Hash :=
  if (s.pending.lookup peer).any (·.denied) then
    -- the decision stays until it has been delivered
    (.denied .byOperator, if env.delivered then { s with pending := s.pending.erase peer } else s)
  else
    (.queued,
      { s with
        pending := (evictOldestPending s.pending peer maxPendingJoins).insert peer
          ⟨false, hostname, cert, env.now⟩ })

/-- A member's hello starts by being turned away while a commit is in doubt. -/
def greet (hostname : Option Name) (cert : Option PresentedCert) : DeskOut Hash × Desk Hash :=
  if s.node.net.unconfirmedDurableHash.isSome then (.joinPending, s)
  else (.greeted, s.setTask task (some (.greeted peer hostname cert)))

def handleJoinRequest (secret hostname : Option Name) (cert : Option PresentedCert) :
    DeskOut Hash × Desk Hash :=
  if cert.any fun c => !c.verifies || c.cert.deviceKey != peer then (.denied .invalidCertificate, s)
  else if cert.any fun c => c.cert.deviceKey ∈ s.node.net.group.nullifiers then
    (.denied .revokedCertificate, s)
  else if s.members.isMember peer then s.greet task peer hostname cert
  else
    let deviceCert := cert.map (·.cert)
    if s.node.net.group.approved.isApproved peer then
      s.authorise task ⟨peer, hostname, deviceCert, true, false, none⟩
    else
      match secret with
      | some secret => s.redeemInvite task env peer secret hostname deviceCert
      | none =>
        if s.mode = .openMode ∨ ownerAdmits deviceCert me ∨ memberAdmits deviceCert s.members then
          s.authorise task ⟨peer, hostname, deviceCert, false, false, none⟩
        else s.queue peer hostname deviceCert env

/-- A frame of `peer`. A hello of a peer that is not seated is an old client's join. -/
def handleFrame : ControlFrame → DeskOut Hash × Desk Hash
  | .joinRequest secret hostname cert => handleJoinRequest me s task env peer secret hostname cert
  | .meshHello hostname cert =>
    if s.members.isMember peer then s.greet task peer hostname cert
    else handleJoinRequest me s task env peer none hostname cert

end

/-! ## Validating and seating -/

/-- Settle the joiner's name against the roster as it is now. -/
def validateAdmission (request : AdmissionRequest) : DeskOut Hash × Desk Hash :=
  match request.hostname with
  | none => (.validated none, s.setTask task (some (.validated request none)))
  | some desired =>
    match admissionHostname desired (takenHostnames s.members request.remoteId)
        request.authoritative with
    | .ok name => (.validated (some name), s.setTask task (some (.validated request (some name))))
    | .error reason => (.denied (.hostname reason), s.setTask task (some (.denied request.burned)))

/-- Take `snapshot_commit` and seat the peer tentatively. -/
def seat (request : AdmissionRequest) (hostname : Option Name) : DeskOut Hash × Desk Hash :=
  let group := s.node.net.group
  let tentative : Member :=
    { identity := request.remoteId
      isCoordinator := request.wasApproved && env.grantDirect
      hostname := hostname
      userIdentity := request.deviceCert.map (·.userIdentity)
      deviceCert := request.deviceCert
      lastSeen := some env.now
      exitNode := false
      exitFamilies := .unknown }
  let seat : Seat :=
    { tentative := tentative
      displaced := group.members.get request.remoteId
      removedApproved := if request.wasApproved then group.approved.get request.remoteId else none
      removedPending := s.pending.lookup request.remoteId
      burned := request.burned }
  let group :=
    { group with
      members := group.members.insert tentative
      approved :=
        if request.wasApproved then group.approved.erase request.remoteId else group.approved }
  (.seated tentative,
    { s with lock := some task, pending := s.pending.erase request.remoteId
      }.withGroup group |>.setTask task (some (.committing (.seated seat))))

/-- Release the lock; the record is signed while it is still held. -/
def finishCommit : DeskOut Hash × Desk Hash :=
  let signed := if s.node.net.hasKey && env.signs then s.node.net.convergedHash else none
  (.committed signed, { s with lock := none }.setTask task none)

def commitSeat (seat : Seat) : DeskOut Hash × Desk Hash :=
  match s.commitCurrentSnapshot env.disk codec with
  | (true, s) => s.finishCommit task env
  | (false, s) => (.notDurable, s.setTask task (some (.committing (.failed seat))))

/-- The roster before the tentative seat; `none` when the seat is no longer ours. -/
def restoreDisplacedMember (members : MemberList) (seat : Seat) : Option MemberList :=
  if members.get seat.tentative.identity = some seat.tentative then
    some (match seat.displaced with
      | some member => members.insert member
      | none => members.erase seat.tentative.identity)
  else none

def rollBack (seat : Seat) : DeskOut Hash × Desk Hash :=
  let restored := match restoreDisplacedMember s.members seat with
    | none => s
    | some members =>
      let group := s.node.net.group
      let approved := match seat.removedApproved with
        | some entry => group.approved.insert entry
        | none => group.approved
      let pending := match seat.removedPending with
        | some request => s.pending.insert seat.tentative.identity request
        | none => s.pending
      ({ s with pending := pending }.withGroup
        { group with members := members, approved := approved }).refreshSnapshot codec
  (.rolledBack, restored.setTask task (some (.committing (.rolledBack seat))))

def commitRollback (seat : Seat) : DeskOut Hash × Desk Hash :=
  match s.commitCurrentSnapshot env.disk codec with
  | (true, s) =>
    (.denied .notDurable, { s with lock := none }.setTask task (some (.denied seat.burned)))
  | (false, s) => (.notDurable, s.setTask task (some (.committing (.retaining seat))))

/-- The disk may hold the seat, so it stays live and its commit is tried again. -/
def retainSeat (seat : Seat) : DeskOut Hash × Desk Hash :=
  let group := s.node.net.group
  let seated := ({ s with pending := s.pending.erase seat.tentative.identity }.withGroup
    { group with
      members := group.members.insert seat.tentative
      approved := group.approved.erase seat.tentative.identity }).refreshSnapshot codec
  let net :=
    { seated.node.net with
      unconfirmedDurableHash := seated.node.net.convergedHash.map fun hash => ⟨hash, false⟩ }
  (.retained,
    { seated with node := { seated.node with net := net }
      }.setTask task (some (.committing (.retained seat))))

def commitRetained : DeskOut Hash × Desk Hash :=
  match s.commitCurrentSnapshot env.disk codec with
  | (true, s) => s.finishCommit task env
  | (false, s) => (.joinPending, { s with lock := none }.setTask task none)

def restoreInvite (burned : Option Name) : DeskOut Hash × Desk Hash :=
  let invites := match burned with
    | some secret =>
      if env.disk.configReads ∧ env.disk.configFault ≠ some false then s.invites.restore secret
      else s.invites
    | none => s.invites
  (.done, { s with invites := invites }.setTask task none)

/-! ## Members' hellos -/

/-- The reply: only from a settled generation, and with the key grant if one is due. -/
def welcome : DeskOut Hash × Desk Hash :=
  if env.grantDirect ∧ env.record = none then
    (.denied .directGrantUnavailable, s.setTask task none)
  else if s.node.net.unconfirmedDurableHash.isSome ∨
      env.record.any (fun hash => s.node.net.convergedHash ≠ some hash) ∨
      s.members.isMember id = false then
    (.joinPending, s.setTask task none)
  else (.greeted, s.setTask task (some (.welcomed id hostname cert)))

/-- A claim that is not a valid label is ignored. -/
def validClaim : Option Name := hostname.filter isValidHostname

/-- Refresh the member's certificate and name, under `snapshot_commit`. -/
def memberHello : DeskOut Hash × Desk Hash :=
  match s.members.get id with
  | none => (.done, s.setTask task none)
  | some member =>
    let group := s.node.net.group
    let verified : Option DeviceCert :=
      (cert.filter fun c => c.verifies && c.cert.deviceKey == id &&
        decide (c.cert.deviceKey ∉ group.nullifiers)).map (·.cert)
    let recertified :=
      { member with
        userIdentity := verified.map DeviceCert.userIdentity
        deviceCert := verified }
    let final := (validClaim hostname).map fun desired =>
      resolveCollision desired (takenHostnames s.members id)
    let renamed := { recertified with hostname := final.orElse fun _ => member.hostname }
    if renamed = member then (.renamed final, s.setTask task none)
    else
      let s := s.withGroup { group with members := group.members.insert renamed }
      (.renamed final, (s.commitCurrentSnapshot env.disk codec).2.setTask task none)

end Desk

/-! ## Steps -/

inductive DeskAct (Hash : Type) where
  | receive (task : Nat) (env : Surroundings Hash) (peer : EndpointId) (frame : ControlFrame)
  /-- The next section of a task. -/
  | advance (task : Nat) (env : Surroundings Hash)
  /-- `ray accept`. -/
  | accept (task : Nat) (id : EndpointId)
  /-- Commit the live snapshot, as a command does after its edit. -/
  | store (disk : Disk)
  /-- The publisher signs the current generation. -/
  | publish (disk : Disk)

namespace Desk

variable (codec : GroupCodec Hash) (s : Desk Hash) (task : Nat) (env : Surroundings Hash)

/-- Take a request from the queue; it is approved in a write section of its own. -/
def acceptRequest (id : EndpointId) : Option (DeskOut Hash × Desk Hash) :=
  ((s.pending.lookup id).filter fun request => !request.denied).map fun request =>
    let entry : ApprovedEntry :=
      { identity := id
        hostname := request.hostname
        userIdentity := request.deviceCert.map DeviceCert.userIdentity
        deviceCert := request.deviceCert }
    (.accepted entry,
      { s with pending := s.pending.erase id }.setTask task (some (.approving entry)))

def approve (entry : ApprovedEntry) : DeskOut Hash × Desk Hash :=
  let group := s.node.net.group
  (.approved entry,
    ((s.withGroup { group with approved := group.approved.insert entry }).refreshSnapshot codec
      ).setTask task none)

/-- The next section of a commit, run by the holder of `snapshot_commit`. -/
def advanceCommit : SeatPhase → DeskOut Hash × Desk Hash
  | .seated seat => s.commitSeat codec task env seat
  | .failed seat => s.rollBack codec task seat
  | .rolledBack seat => s.commitRollback codec task env seat
  | .retaining seat => s.retainSeat codec task seat
  | .retained _ => s.commitRetained codec task env

/-- The next section of a task; `none` while it waits for the lock. -/
def advance : AcceptTask → Option (DeskOut Hash × Desk Hash)
  | .admitting request => some (s.validateAdmission task request)
  | .validated request hostname =>
    if s.lock = none then some (s.seat task env request hostname) else none
  | .committing phase =>
    if s.lock = some task then some (s.advanceCommit codec task env phase) else none
  | .denied burned => some (s.restoreInvite task env burned)
  | .greeted id hostname cert =>
    if s.lock = none then some (s.welcome task env id hostname cert) else none
  | .welcomed id hostname cert =>
    if s.lock = none then some (s.memberHello codec task env id hostname cert) else none
  | .approving entry => some (s.approve codec task entry)

end Desk

def DeskAct.run (codec : GroupCodec Hash) (me : EndpointId) (s : Desk Hash) :
    DeskAct Hash → Option (DeskOut Hash × Desk Hash)
  | .receive task env peer frame =>
    if (s.tasks task).isNone then some (s.handleFrame me task env peer frame) else none
  | .advance task env => (s.tasks task).bind (s.advance codec task env)
  | .accept task id => if (s.tasks task).isNone then s.acceptRequest task id else none
  | .store disk =>
    if s.lock = none then
      let (saved, s) := s.commitCurrentSnapshot disk codec
      some (.stored saved, s)
    else none
  | .publish disk =>
    if s.lock = none then
      let (hash, node) := s.node.preparePublication disk
      some (.signed hash, { s with node := node })
    else none

def deskStep (codec : GroupCodec Hash) (me : EndpointId) (s : Desk Hash) (a : DeskAct Hash)
    (out : DeskOut Hash) (s' : Desk Hash) : Prop :=
  a.run codec me s = some (out, s')

end Rayfish
