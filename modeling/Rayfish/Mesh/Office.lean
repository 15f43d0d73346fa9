import Mathlib.Data.Finset.Union
import Rayfish.Lib.Run
import Rayfish.Mesh.Admission
import Rayfish.Mesh.RosterEdit

/-!
# A coordinator's office

The desk of `Rayfish.Mesh.Admission` with every lock section a step of its own. A join
request presents its certificate, records the device's user and then asks one question of
the state after the other; a member's hello checks, writes, records and renames in
separate sections while it holds `snapshot_commit`. The commands that change the roster
without that lock run in between: device revocations, kicks, leaves.

`device_user_map` is one map for the whole daemon, so it stands beside the office.
-/

namespace Rayfish

open Lib

variable {Hash : Type} [DecidableEq Hash]

/-! ## The device-user map -/

/-- The user that a device key stands for, for the devices that are known. -/
abbrev DeviceUserMap := EndpointId → Option EndpointId

namespace DeviceUserMap

def resolve (users : DeviceUserMap) (key : EndpointId) : EndpointId := (users key).getD key

/-- `insert`, or `remove` where there is no user. -/
def bind (users : DeviceUserMap) (key : EndpointId) (user : Option EndpointId) : DeviceUserMap :=
  Function.update users key user

end DeviceUserMap

/-! ## Errands -/

/-- The question that a join request asks next. -/
inductive JoinStage where
  | member
  | approved
  | invite (secret : Name)
  | reusable (secret : Name) (refusal : InviteRefusal)
  | mode
  | device
  | queue

/-- A task between two lock sections, before it is at the desk or apart from it. -/
inductive Errand where
  | presenting (peer : EndpointId) (secret hostname : Option Name) (cert : Option PresentedCert)
  /-- The certificate has passed its checks. -/
  | certified (peer : EndpointId) (secret hostname : Option Name) (cert : DeviceCert)
  | joining (peer : EndpointId) (secret hostname : Option Name) (cert : Option DeviceCert)
      (stage : JoinStage)
  /-- `handle_member_hello` begins. -/
  | hello (id : EndpointId) (hostname : Option Name) (cert : Option PresentedCert)
  /-- The lock is taken and the member is seated. -/
  | verifying (id : EndpointId) (hostname : Option Name) (cert : Option PresentedCert)
  | recertifying (id : EndpointId) (hostname : Option Name) (verified : Option DeviceCert)
  | binding (id : EndpointId) (hostname : Option Name) (user : Option EndpointId) (changed : Bool)
  | naming (id : EndpointId) (desired : Name) (changed : Bool)
  | labelling (id : EndpointId) (final : Name) (renamed changed : Bool)
  | closing (changed : Bool)
  | kicking (candidate : EndpointId) (confirm : Bool)
  | targeting (candidate user : EndpointId) (confirm : Bool)
  | removing (candidate user : EndpointId) (left targets : Finset EndpointId)
  /-- The roster without the targets is committed. -/
  | returning (candidate user : EndpointId) (targets : Finset EndpointId)
  | leaving (id : EndpointId) (closed : Bool)
  | departed

structure Office (Hash : Type) where
  desk : Desk Hash
  errands : Nat → Option Errand

/-- An office with the daemon's device-user map. -/
structure Premises (Hash : Type) where
  users : DeviceUserMap
  office : Office Hash

inductive KickRefusal where
  | notCoordinator
  | openNetwork
  | notMember
  | self
  | coordinator

inductive OfficeOut (Hash : Type) where
  | desk (out : DeskOut Hash)
  /-- The task goes on to its next section. -/
  | moved
  | kicked (targets : Finset EndpointId)
  | kickRefused (reason : KickRefusal)
  /-- More than one row would go, and the caller has not confirmed that. -/
  | confirmKick (targets : Finset EndpointId)
  | edited
  | left

namespace Office

variable (codec : GroupCodec Hash) (me : EndpointId) (s : Office Hash) (task : Nat)

def group : GroupBlob := s.desk.node.net.group

def members : MemberList := s.desk.members

def setErrand (errand : Option Errand) : Office Hash :=
  { s with errands := Function.update s.errands task errand }

def setGroup (group : GroupBlob) : Office Hash :=
  { s with desk := s.desk.withGroup group }

def setMembers (members : MemberList) : Office Hash :=
  s.setGroup { s.group with members := members }

def setLock (lock : Option Nat) : Office Hash :=
  { s with desk := { s.desk with lock := lock } }

def commit (disk : Disk) : Office Hash :=
  { s with desk := (s.desk.commitCurrentSnapshot disk codec).2 }

/-! ## Join requests -/

/-- The checks on a certificate come first, whatever admits the peer. -/
def present (peer : EndpointId) (secret hostname : Option Name) :
    Option PresentedCert → OfficeOut Hash × Office Hash
  | none => (.moved, s.setErrand task (some (.joining peer secret hostname none .member)))
  | some presented =>
    if !presented.verifies || presented.cert.deviceKey != peer then
      (.desk (.denied .invalidCertificate), s.setErrand task none)
    else if presented.cert.deviceKey ∈ s.group.nullifiers then
      (.desk (.denied .revokedCertificate), s.setErrand task none)
    else (.moved, s.setErrand task (some (.certified peer secret hostname presented.cert)))

def authorise (request : AdmissionRequest) : OfficeOut Hash × Office Hash :=
  (.desk (.authorised request),
    { s with desk := (s.desk.authorise task request).2 }.setErrand task none)

/-- One question of `handle_join_request`. -/
def decideJoin (env : Surroundings Hash) (peer : EndpointId) (secret hostname : Option Name)
    (cert : Option DeviceCert) :
    JoinStage → OfficeOut Hash × Office Hash
  | .member =>
    if s.members.isMember peer then
      (.moved, s.setErrand task (some (.hello peer hostname (cert.map (⟨·, true⟩)))))
    else (.moved, s.setErrand task (some (.joining peer secret hostname cert .approved)))
  | .approved =>
    if s.group.approved.isApproved peer then
      s.authorise task ⟨peer, hostname, cert, true, false, none⟩
    else
      (.moved, s.setErrand task (some (.joining peer secret hostname cert
        (secret.elim .mode .invite))))
  | .invite secret' =>
    match s.desk.redeem env secret' peer with
    | (.ok bound, desk) =>
      { s with desk := desk }.authorise task
        { remoteId := peer
          hostname := bound.orElse fun _ => hostname
          deviceCert := cert
          wasApproved := false
          authoritative := bound.isSome
          burned := some secret' }
    | (.error refusal, desk) =>
      (.moved, { s with desk := desk }.setErrand task
        (some (.joining peer secret hostname cert (.reusable secret' refusal))))
  | .reusable secret' refusal =>
    match validateReusableKey s.group.reusableKeys secret' env.now with
    | some _ => s.authorise task ⟨peer, hostname, cert, false, false, none⟩
    | none => (.desk (.denied (.inviteRejected refusal)), s.setErrand task none)
  | .mode =>
    if s.desk.mode = .openMode then s.authorise task ⟨peer, hostname, cert, false, false, none⟩
    else (.moved, s.setErrand task (some (.joining peer secret hostname cert .device)))
  | .device =>
    if ownerAdmits cert me ∨ memberAdmits cert s.members then
      s.authorise task ⟨peer, hostname, cert, false, false, none⟩
    else (.moved, s.setErrand task (some (.joining peer secret hostname cert .queue)))
  | .queue =>
    (.desk (s.desk.queue peer hostname cert env).1,
      { s with desk := (s.desk.queue peer hostname cert env).2 }.setErrand task none)

/-! ## Members' hellos -/

variable (id : EndpointId)

def greet (hostname : Option Name) (cert : Option PresentedCert) : OfficeOut Hash × Office Hash :=
  (.desk (s.desk.greet task id hostname cert).1,
    { s with desk := (s.desk.greet task id hostname cert).2 }.setErrand task none)

/-- `handle_member_hello` takes the lock for the second time. -/
def enter (hostname : Option Name) (cert : Option PresentedCert) : OfficeOut Hash × Office Hash :=
  if s.members.isMember id then
    (.moved, { s with desk := { s.desk with lock := some task }.setTask task none }.setErrand task
      (some (.verifying id hostname cert)))
  else (.moved, { s with desk := s.desk.setTask task none })

/-- The certificate counts if it verifies, is the member's own and is not nullified. -/
def verify (cert : Option PresentedCert) : Option DeviceCert :=
  (cert.filter fun c => c.verifies && c.cert.deviceKey == id &&
    decide (c.cert.deviceKey ∉ s.group.nullifiers)).map (·.cert)

/-- Write the certificate that was verified, or none, into the member's row. -/
def recertify (hostname : Option Name) (verified : Option DeviceCert) :
    OfficeOut Hash × Office Hash :=
  match s.members.get id with
  | none => (.moved, (s.setLock none).setErrand task none)
  | some member =>
    let user := verified.map DeviceCert.userIdentity
    (.moved,
      (s.setMembers (s.members.insert
        { member with userIdentity := user, deviceCert := verified })).setErrand task
        (some (.binding id hostname user
          (decide (member.userIdentity ≠ user ∨ member.deviceCert ≠ verified)))))

/-- After the binding: a claim that is not a valid label renames nobody. -/
def claim (hostname : Option Name) (changed : Bool) : Errand :=
  match Desk.validClaim hostname with
  | some desired => .naming id desired changed
  | none => .closing changed

def settleName (desired : Name) (changed : Bool) : OfficeOut Hash × Office Hash :=
  let final := resolveCollision desired (takenHostnames s.members id)
  (.moved, s.setErrand task (some (.labelling id final
    (decide ((s.members.get id).bind (·.hostname) ≠ some final)) changed)))

def rename (final : Name) (renamed changed : Bool) : OfficeOut Hash × Office Hash :=
  let s := if renamed then
      s.setMembers (s.members.modify id fun m => { m with hostname := some final })
    else s
  (.moved, s.setErrand task (some (.closing (renamed || changed))))

def close (disk : Disk) (changed : Bool) : OfficeOut Hash × Office Hash :=
  (.moved, ((if changed then s.commit codec disk else s).setLock none).setErrand task none)

/-! ## Kicks and leaves -/

/-- The rows of a user: the named one, the user's own and those of the user's devices. -/
def kickTargets (members : MemberList) (candidate user : EndpointId) : Multiset Member :=
  members.values.filter fun m =>
    m.identity = candidate ∨ m.identity = user ∨ m.userIdentity = some user

/-- `kick_member` reads its targets and refuses what it may not remove. -/
def target (candidate user : EndpointId) (confirm : Bool) : OfficeOut Hash × Office Hash :=
  let rows := kickTargets s.members candidate user
  let targets := (rows.map Member.identity).toFinset
  if targets = ∅ then (.kickRefused .notMember, s.setErrand task none)
  else if me ∈ targets then (.kickRefused .self, s.setErrand task none)
  else if (rows.filter fun m => m.isCoordinator = true) ≠ 0 then
    (.kickRefused .coordinator, s.setErrand task none)
  else if 1 < targets.card ∧ confirm = false then (.confirmKick targets, s.setErrand task none)
  else (.moved, s.setErrand task (some (.removing candidate user targets targets)))

/-- `remove_member_roster_only`. -/
def removeRow : Office Hash :=
  s.setGroup
    { s.group with members := s.members.erase id, approved := s.group.approved.erase id }

/-- The leaver's row goes under the lock. In-band, a leave of someone who is not seated ends
here. -/
def leave (closed : Bool) : OfficeOut Hash × Office Hash :=
  if closed = false ∧ s.members.get id = none then (.left, s.setErrand task none)
  else
    (.left, ((s.setMembers (s.members.erase id)).setLock (some task)).setErrand task
      (some .departed))

end Office

/-! ## Steps -/

inductive OfficeAct (Hash : Type) where
  | receive (task : Nat) (peer : EndpointId) (frame : ControlFrame)
  /-- The next section of a task. -/
  | advance (task : Nat) (env : Surroundings Hash)
  | accept (task : Nat) (id : EndpointId)
  | store (disk : Disk)
  | publish (disk : Disk)
  /-- The write section of another command. -/
  | edit (change : RosterEdit)
  /-- A device that pairs again is no longer nullified. -/
  | reauthorize (target : EndpointId)
  | kick (task : Nat) (candidate : EndpointId) (confirm : Bool)
  /-- A kick removes one of its targets. -/
  | remove (task : Nat) (id : EndpointId)
  /-- `LeaveNetwork`, or a close with the leave code. -/
  | leave (task : Nat) (peer : EndpointId) (closed : Bool)
  /-- A lost route: the member was last seen now. -/
  | stamp (peer : EndpointId) (now : Nat)
  /-- Another network's traffic changes the device-user map. -/
  | rebind (key : EndpointId) (user : Option EndpointId)

namespace Office

variable (s : Office Hash) (task : Nat)

def idle : Bool :=
  (s.errands task).isNone && (s.desk.tasks task).isNone

/-- How a frame of `peer` begins. A hello of a peer that is not seated is an old client's
join. -/
def dispatch (peer : EndpointId) : ControlFrame → Errand
  | .joinRequest secret hostname cert => .presenting peer secret hostname cert
  | .meshHello hostname cert =>
    if s.members.isMember peer then .hello peer hostname cert
    else .presenting peer none hostname cert

/-- `kick_member` looks at the key and the mode before anything else. -/
def startKick (candidate : EndpointId) (confirm : Bool) : OfficeOut Hash × Office Hash :=
  if s.desk.node.net.hasKey = false then (.kickRefused .notCoordinator, s)
  else if s.desk.mode = .openMode then (.kickRefused .openNetwork, s)
  else (.moved, s.setErrand task (some (.kicking candidate confirm)))

/-- The next section of a task at the desk; a welcomed hello leaves the desk. -/
def runDesk (codec : GroupCodec Hash) (s : Office Hash) (task : Nat) (env : Surroundings Hash) :
    AcceptTask → Option (OfficeOut Hash × Office Hash)
  | .welcomed id hostname cert =>
    if s.desk.lock = none then some (s.enter task id hostname cert) else none
  | t => (s.desk.advance codec task env t).map fun r => (.desk r.1, { s with desk := r.2 })

end Office

namespace Premises

/-- A section that leaves the device-user map alone. -/
def keep (p : Premises Hash) (r : OfficeOut Hash × Office Hash) : OfficeOut Hash × Premises Hash :=
  (r.1, { p with office := r.2 })

/-- The next section of an errand; `none` while it waits for the lock or for its caller. -/
def runErrand (codec : GroupCodec Hash) (me : EndpointId) (p : Premises Hash) (task : Nat)
    (env : Surroundings Hash) : Errand → Option (OfficeOut Hash × Premises Hash)
  | .presenting peer secret hostname cert =>
    some (p.keep (p.office.present task peer secret hostname cert))
  | .certified peer secret hostname cert =>
    some (.moved, ⟨p.users.bind peer (some cert.userIdentity),
      p.office.setErrand task (some (.joining peer secret hostname (some cert) .member))⟩)
  | .joining peer secret hostname cert stage =>
    some (p.keep (p.office.decideJoin me task env peer secret hostname cert stage))
  | .hello id hostname cert => some (p.keep (p.office.greet task id hostname cert))
  | .verifying id hostname cert =>
    some (p.keep (.moved,
      p.office.setErrand task (some (.recertifying id hostname (p.office.verify id cert)))))
  | .recertifying id hostname verified =>
    some (p.keep (p.office.recertify task id hostname verified))
  | .binding id hostname user changed =>
    some (.moved, ⟨p.users.bind id user,
      p.office.setErrand task (some (Office.claim id hostname changed))⟩)
  | .naming id desired changed => some (p.keep (p.office.settleName task id desired changed))
  | .labelling id final renamed changed =>
    some (p.keep (p.office.rename task id final renamed changed))
  | .closing changed => some (p.keep (p.office.close codec task env.disk changed))
  | .kicking candidate confirm =>
    some (p.keep (.moved,
      p.office.setErrand task (some (.targeting candidate (p.users.resolve candidate) confirm))))
  | .targeting candidate user confirm =>
    some (p.keep (p.office.target me task candidate user confirm))
  | .removing candidate user left targets =>
    if left = ∅ ∧ p.office.desk.lock = none then
      some (p.keep (.moved, (p.office.commit codec env.disk).setErrand task
        (some (.returning candidate user targets))))
    else none
  | .returning _ _ targets => some (p.keep (.kicked targets, p.office.setErrand task none))
  | .leaving id closed =>
    if p.office.desk.lock = none then some (p.keep (p.office.leave task id closed)) else none
  | .departed =>
    some (p.keep (.left, ((p.office.commit codec env.disk).setLock none).setErrand task none))

end Premises

open Premises in

def OfficeAct.run (codec : GroupCodec Hash) (me : EndpointId) (p : Premises Hash) :
    OfficeAct Hash → Option (OfficeOut Hash × Premises Hash)
  | .receive task peer frame =>
    if p.office.idle task then
      some (p.keep (.moved, p.office.setErrand task (some (p.office.dispatch peer frame))))
    else none
  | .advance task env =>
    match p.office.errands task with
    | some errand => p.runErrand codec me task env errand
    | none => ((p.office.desk.tasks task).bind (p.office.runDesk codec task env)).map p.keep
  | .accept task id =>
    if p.office.idle task then
      (p.office.desk.acceptRequest task id).map fun r =>
        p.keep (.desk r.1, { p.office with desk := r.2 })
    else none
  | .store disk =>
    if p.office.desk.lock = none then some (p.keep (.edited, p.office.commit codec disk)) else none
  | .publish disk =>
    if p.office.desk.lock = none then
      let result := p.office.desk.node.preparePublication disk
      some (p.keep (.desk (.signed result.1),
        { p.office with desk := { p.office.desk with node := result.2 } }))
    else none
  | .edit change =>
    (change.apply p.office.group).map fun group => p.keep (.edited, p.office.setGroup group)
  | .reauthorize target =>
    some (p.keep (.edited, p.office.setGroup
      { p.office.group with nullifiers := p.office.group.nullifiers.erase target }))
  | .kick task candidate confirm =>
    if p.office.idle task then some (p.keep (p.office.startKick task candidate confirm)) else none
  | .remove task id =>
    match p.office.errands task with
    | some (.removing candidate user left targets) =>
      if id ∈ left then
        some (p.keep (.moved, (p.office.removeRow id).setErrand task
          (some (.removing candidate user (left.erase id) targets))))
      else none
    | _ => none
  | .leave task peer closed =>
    if p.office.idle task then
      some (p.keep (.moved,
        p.office.setErrand task (some (.leaving (p.users.resolve peer) closed))))
    else none
  | .stamp peer now =>
    some (p.keep (.edited, p.office.setMembers
      (p.office.members.modify (p.users.resolve peer) fun m => { m with lastSeen := some now })))
  | .rebind key user => some (.moved, { p with users := p.users.bind key user })

def officeStep (codec : GroupCodec Hash) (me : EndpointId) :
    StepRel (Premises Hash) (OfficeAct Hash) (OfficeOut Hash) :=
  fun p a out p' => a.run codec me p = some (out, p')

end Rayfish
