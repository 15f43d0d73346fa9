import Rayfish.Mesh.AdmissionSteps
import Rayfish.Mesh.Office

/-!
# The steps of a coordinator's office

`OfficeView` keeps of an office what a roster is decided by: the rows, the nullifiers, the
device-user map and what each task holds. `Walk` lists the sections that change nothing
but their task, `OfficeStep` every step, and `OfficeAct.run_step` says that the office's
steps are these. What is proved of `OfficeStep` needs no look at the source's functions.
-/

namespace Rayfish

open Lib

variable {Hash : Type}

/-! ## Views -/

/-- One task, at the desk or on an errand. -/
structure Slot where
  task : Option AcceptTask
  errand : Option Errand

structure OfficeView where
  members : MemberList
  nullifiers : Finset EndpointId
  users : DeviceUserMap
  slots : Nat → Slot

namespace OfficeView

def setSlot (v : OfficeView) (task : Nat) (slot : Slot) : OfficeView :=
  { v with slots := Function.update v.slots task slot }

theorem slots_setSlot (v : OfficeView) (task i : Nat) (slot : Slot) :
    (v.setSlot task slot).slots i = if i = task then slot else v.slots i :=
  Function.update_apply ..

def of (users : DeviceUserMap) (desk : Desk Hash) (errands : Nat → Option Errand) : OfficeView where
  members := desk.members
  nullifiers := desk.node.net.group.nullifiers
  users := users
  slots i := ⟨desk.tasks i, errands i⟩

variable {users : DeviceUserMap} {desk : Desk Hash} {errands : Nat → Option Errand} (task : Nat)
  (t : Option AcceptTask) (e : Option Errand)

theorem of_update :
    of users desk (Function.update errands task e) =
      (of users desk errands).setSlot task ⟨desk.tasks task, e⟩ := by
  refine congrArg (OfficeView.mk _ _ _) (funext fun i => ?_)
  rw [Function.update_apply, Function.update_apply]
  split
  · next same => rw [same]
  · rfl

theorem of_setTask :
    of users (desk.setTask task t) errands =
      (of users desk errands).setSlot task ⟨t, errands task⟩ := by
  refine congrArg (OfficeView.mk _ _ _) (funext fun i => ?_)
  rw [Desk.tasks_setTask, Function.update_apply]
  split
  · next same => rw [same]
  · rfl

theorem of_setTask_update :
    of users (desk.setTask task t) (Function.update errands task e) =
      (of users desk errands).setSlot task ⟨t, e⟩ := by
  rw [of_update, of_setTask, setSlot, setSlot, Function.update_idem, setSlot]
  rw [Desk.tasks_setTask, if_pos rfl]

variable {codec : GroupCodec Hash}

/-- A snapshot commit is not seen. -/
theorem of_commits (commits : desk.Commits codec desk') :
    of users desk' errands = of users desk errands := by
  have group := commits.node.group
  unfold of Desk.members
  rw [group, commits.tasks]

end OfficeView

open OfficeView

def Premises.view (p : Premises Hash) : OfficeView := .of p.users p.office.desk p.office.errands

/-! ## Rows and kicks -/

/-- A row of `user`, or the one that a kick names. -/
def Member.Of (row : Member) (candidate user : EndpointId) : Prop :=
  row.identity = candidate ∨ row.identity = user ∨ row.userIdentity = some user

instance (row : Member) (candidate user : EndpointId) : Decidable (row.Of candidate user) :=
  inferInstanceAs (Decidable (_ ∨ _))

/-- What a kick has established about the rows it will remove. -/
structure KickPlan (me : EndpointId) (members : MemberList) (candidate user : EndpointId)
    (targets : Finset EndpointId) : Prop where
  mem_iff : ∀ id, id ∈ targets ↔ ∃ row, members.get id = some row ∧ row.Of candidate user
  nonempty : targets ≠ ∅
  others : me ∉ targets
  plain : ∀ id row, members.get id = some row → row.Of candidate user → row.isCoordinator = false

/-! ## Steps -/

/-- Neither an admission is authorised nor a kick done. -/
def OfficeOut.Plain : OfficeOut Hash → Prop
  | .kicked _ => False
  | .desk (.authorised _) => False
  | _ => True

def ControlFrame.cert : ControlFrame → Option PresentedCert
  | .joinRequest _ _ cert => cert
  | .meshHello _ cert => cert

/-- The sections that change nothing but their task. -/
inductive Walk (me : EndpointId) (v : OfficeView) : OfficeOut Hash → Slot → Slot → Prop
  | ends (plain : out.Plain) : Walk me v out slot { slot with errand := none }
  | presents (held : slot.errand = some (.presenting peer secret hostname none)) :
      Walk me v .moved slot
        { slot with errand := some (.joining peer secret hostname none .member) }
  | certifies (held : slot.errand = some (.presenting peer secret hostname (some ⟨cert, true⟩)))
      (own : cert.deviceKey = peer) (live : cert.deviceKey ∉ v.nullifiers) :
      Walk me v .moved slot { slot with errand := some (.certified peer secret hostname cert) }
  | asks (held : slot.errand = some (.joining peer secret hostname cert stage)) (next : JoinStage) :
      Walk me v .moved slot { slot with errand := some (.joining peer secret hostname cert next) }
  | reconnects (held : slot.errand = some (.joining peer secret hostname cert stage)) :
      Walk me v .moved slot
        { slot with errand := some (.hello peer hostname (cert.map (⟨·, true⟩))) }
  | authorises (held : slot.errand = some (.joining peer secret hostname cert stage))
      (id : request.remoteId = peer) (same : request.deviceCert = cert) :
      Walk me v (.desk (.authorised request)) slot ⟨some (.admitting request), none⟩
  | greets {id : EndpointId} (held : slot.errand = some (.hello id hostname cert))
      (plain : out.Plain) : Walk me v out slot ⟨some (.greeted id hostname cert), none⟩
  | verifies {id : EndpointId} (held : slot.errand = some (.verifying id hostname cert))
      (own : ∀ c ∈ verified,
        cert = some ⟨c, true⟩ ∧ c.deviceKey = id ∧ c.deviceKey ∉ v.nullifiers) :
      Walk me v .moved slot { slot with errand := some (.recertifying id hostname verified) }
  | names {id : EndpointId} (held : slot.errand = some (.naming id desired changed)) (final : Name)
      (renamed : Bool) :
      Walk me v .moved slot { slot with errand := some (.labelling id final renamed changed) }
  | closes {id : EndpointId} (held : slot.errand = some (.labelling id final false changed)) :
      Walk me v .moved slot { slot with errand := some (.closing changed) }
  | resolves (held : slot.errand = some (.kicking candidate confirm)) :
      Walk me v .moved slot
        { slot with errand := some (.targeting candidate (v.users.resolve candidate) confirm) }
  | targets (held : slot.errand = some (.targeting candidate user confirm))
      (plan : KickPlan me v.members candidate user targets) :
      Walk me v .moved slot
        { slot with errand := some (.removing candidate user targets targets) }
  | swept (held : slot.errand = some (.removing candidate user ∅ targets)) :
      Walk me v .moved slot { slot with errand := some (.returning candidate user targets) }
  | kicked (held : slot.errand = some (.returning candidate user targets)) :
      Walk me v (.kicked targets) slot { slot with errand := none }
  | admits (free : slot.errand = none) (held : slot.task = some (.admitting request))
      (hostname : Option Name) (plain : out.Plain) :
      Walk me v out slot { slot with task := some (.validated request hostname) }
  | commits (free : slot.errand = none) (held : slot.task = some (.committing phase))
      (same : next.seat = phase.seat) (plain : out.Plain) :
      Walk me v out slot { slot with task := some (.committing next) }
  | denies (free : slot.errand = none) (burned : Option Name) (plain : out.Plain) :
      Walk me v out slot { slot with task := some (.denied burned) }
  | finishes (free : slot.errand = none) (plain : out.Plain) :
      Walk me v out slot { slot with task := none }
  | welcomes {id : EndpointId} (free : slot.errand = none)
      (held : slot.task = some (.greeted id hostname cert)) (plain : out.Plain) :
      Walk me v out slot { slot with task := some (.welcomed id hostname cert) }
  | enters {id : EndpointId} (free : slot.errand = none)
      (held : slot.task = some (.welcomed id hostname cert)) :
      Walk me v .moved slot ⟨none, some (.verifying id hostname cert)⟩

/-- The row that an admission seats. -/
def AdmissionRequest.row (request : AdmissionRequest) (hostname : Option Name)
    (env : Surroundings Hash) : Member where
  identity := request.remoteId
  isCoordinator := request.wasApproved && env.grantDirect
  hostname := hostname
  userIdentity := request.deviceCert.map (·.userIdentity)
  deviceCert := request.deviceCert
  lastSeen := some env.now
  exitNode := false
  exitFamilies := .unknown

/-- The row that a hello leaves behind. -/
def Member.recertified (row : Member) (verified : Option DeviceCert) : Member :=
  { row with userIdentity := verified.map DeviceCert.userIdentity, deviceCert := verified }

/-- The device that a step revokes. -/
def OfficeAct.revokes : OfficeAct Hash → Option EndpointId
  | .edit (.revokeDevice target _) => some target
  | _ => none

/-- The task that an action is of. -/
def OfficeAct.task : OfficeAct Hash → Option Nat
  | .receive task _ _ | .advance task _ | .accept task _ | .kick task _ _ | .remove task _
  | .leave task _ _ => some task
  | _ => none

/-- What one step of an office does. -/
inductive OfficeStep (me : EndpointId) (v : OfficeView) :
    OfficeAct Hash → OfficeOut Hash → OfficeView → Prop
  | keeps (quiet : a.revokes = none) (apart : a.task = none) (plain : out.Plain) :
      OfficeStep me v a out v
  | walks (walk : Walk me v out (v.slots task) slot) :
      OfficeStep me v (.advance task env) out (v.setSlot task slot)
  | presents (idle : v.slots task = ⟨none, none⟩) (secret hostname : Option Name) :
      OfficeStep me v (.receive task peer frame) .moved
        (v.setSlot task ⟨none, some (.presenting peer secret hostname frame.cert)⟩)
  | greets (idle : v.slots task = ⟨none, none⟩) (hostname : Option Name) :
      OfficeStep me v (.receive task peer frame) .moved
        (v.setSlot task ⟨none, some (.hello peer hostname frame.cert)⟩)
  | accepts {id : EndpointId} (idle : v.slots task = ⟨none, none⟩) (entry : ApprovedEntry)
      (plain : out.Plain) :
      OfficeStep me v (.accept task id) out (v.setSlot task ⟨some (.approving entry), none⟩)
  | kicks (idle : v.slots task = ⟨none, none⟩) :
      OfficeStep me v (.kick task candidate confirm) .moved
        (v.setSlot task ⟨none, some (.kicking candidate confirm)⟩)
  | refuses (idle : v.slots task = ⟨none, none⟩) (plain : out.Plain) :
      OfficeStep me v (.kick task candidate confirm) out v
  | departs (idle : v.slots task = ⟨none, none⟩) :
      OfficeStep me v (.leave task peer closed) .moved
        (v.setSlot task ⟨none, some (.leaving (v.users.resolve peer) closed)⟩)
  | certifies (held : (v.slots task).errand = some (.certified peer secret hostname cert)) :
      OfficeStep me v (.advance task env) .moved
        ({ v with users := v.users.bind peer (some cert.userIdentity) }.setSlot task
          ⟨(v.slots task).task, some (.joining peer secret hostname (some cert) .member)⟩)
  | binds {id : EndpointId}
      (held : (v.slots task).errand = some (.binding id hostname user changed)) :
      OfficeStep me v (.advance task env) .moved
        ({ v with users := v.users.bind id user }.setSlot task
          ⟨(v.slots task).task, some (Office.claim id hostname changed)⟩)
  | rebinds : OfficeStep me v (.rebind key user) .moved { v with users := v.users.bind key user }
  | recertifies {id : EndpointId}
      (held : (v.slots task).errand = some (.recertifying id hostname verified))
      (seated : v.members.get id = some row) (changed : Bool) :
      OfficeStep me v (.advance task env) .moved
        ({ v with members := v.members.insert (row.recertified verified) }.setSlot task
          ⟨(v.slots task).task,
            some (.binding id hostname (verified.map DeviceCert.userIdentity) changed)⟩)
  | renames {id : EndpointId}
      (held : (v.slots task).errand = some (.labelling id final true changed)) :
      OfficeStep me v (.advance task env) .moved
        ({ v with
            members := v.members.modify id fun m => { m with hostname := some final } }.setSlot task
          ⟨(v.slots task).task, some (.closing true)⟩)
  | stamps :
      OfficeStep me v (.stamp peer now) .edited
        { v with
          members := v.members.modify (v.users.resolve peer)
            fun m => { m with lastSeen := some now } }
  | seats (free : (v.slots task).errand = none)
      (held : (v.slots task).task = some (.validated request hostname))
      (tentative : seat.tentative = request.row hostname env)
      (displaced : seat.displaced = v.members.get request.remoteId) :
      OfficeStep me v (.advance task env) (.desk (.seated (request.row hostname env)))
        ({ v with members := v.members.insert (request.row hostname env) }.setSlot task
          ⟨some (.committing (.seated seat)), none⟩)
  | rollsBack (free : (v.slots task).errand = none)
      (held : (v.slots task).task = some (.committing (.failed seat))) {members : MemberList}
      (restored : Desk.restoreDisplacedMember v.members seat = some members) :
      OfficeStep me v (.advance task env) (.desk .rolledBack)
        ({ v with members := members }.setSlot task ⟨some (.committing (.rolledBack seat)), none⟩)
  | retains (free : (v.slots task).errand = none)
      (held : (v.slots task).task = some (.committing (.retaining seat))) :
      OfficeStep me v (.advance task env) (.desk .retained)
        ({ v with members := v.members.insert seat.tentative }.setSlot task
          ⟨some (.committing (.retained seat)), none⟩)
  | removes {id : EndpointId}
      (held : (v.slots task).errand = some (.removing candidate user left targets))
      (mem : id ∈ left) :
      OfficeStep me v (.remove task id) .moved
        ({ v with members := v.members.erase id }.setSlot task
          ⟨(v.slots task).task, some (.removing candidate user (left.erase id) targets)⟩)
  | leaves {id : EndpointId} (held : (v.slots task).errand = some (.leaving id closed)) :
      OfficeStep me v (.advance task env) .left
        ({ v with members := v.members.erase id }.setSlot task
          ⟨(v.slots task).task, some .departed⟩)
  | revokes :
      OfficeStep me v (.edit (.revokeDevice target independent)) .edited
        { v with
          members := (revokeCertificateFromRoster v.members target independent).2
          nullifiers := insert target v.nullifiers }
  | prunes {id : EndpointId} :
      OfficeStep me v (.edit (.removeMember id)) .edited { v with members := v.members.erase id }
  | lifts :
      OfficeStep me v (.reauthorize target) .edited
        { v with nullifiers := v.nullifiers.erase target }

/-! ## The office's steps -/

variable {r : OfficeOut Hash × Premises Hash} {env : Surroundings Hash} {p : Premises Hash}

variable {out : OfficeOut Hash} {t : AcceptTask}

namespace Premises

variable {p : Premises Hash} {me : EndpointId} {task : Nat}

/-- A section that changes nothing but its task. -/
def Walks (me : EndpointId) (p : Premises Hash) (task : Nat)
    (r : OfficeOut Hash × Premises Hash) : Prop :=
  ∃ slot, Walk me p.view r.1 (p.view.slots task) slot ∧ r.2.view = p.view.setSlot task slot

/-- A step of the office, as its view shows it. -/
def Stepped (me : EndpointId) (p : Premises Hash) (a : OfficeAct Hash)
    (r : OfficeOut Hash × Premises Hash) : Prop :=
  OfficeStep me p.view a r.1 r.2.view

theorem Stepped.of_eq (step : OfficeStep me p.view a r.1 v) (after : r.2.view = v) :
    p.Stepped me a r := by
  rw [Stepped, after]
  exact step

theorem Walks.step (walks : p.Walks me task r) : p.Stepped me (.advance task env) r := by
  obtain ⟨slot, walk, after⟩ := walks
  exact .of_eq (.walks walk) after

/-- The errand moves on. -/
theorem Walks.errand (same : OfficeView.of p.users desk p.office.errands = p.view)
    (walk : Walk me p.view out (p.view.slots task) { p.view.slots task with errand := e }) :
    p.Walks me task (p.keep (out, Office.setErrand { p.office with desk := desk } task e)) := by
  refine ⟨_, walk, ?_⟩
  rw [← same]
  exact of_update task e

/-- The task moves on at the desk. -/
theorem Walks.desk {desk : Desk Hash} {t : Option AcceptTask}
    (same : OfficeView.of p.users desk p.office.errands = p.view)
    (walk : Walk me p.view out (p.view.slots task) { p.view.slots task with task := t }) :
    p.Walks me task (p.keep (out, { p.office with desk := desk.setTask task t })) := by
  refine ⟨_, walk, ?_⟩
  rw [← same]
  exact of_setTask task t

/-! ### Join requests -/

variable {hostname : Option Name} {id : EndpointId} {codec : GroupCodec Hash}

variable {peer candidate user : EndpointId} {secret : Option Name} {disk : Disk}

theorem present_walks
    (held : p.office.errands task = some (.presenting peer secret hostname cert)) :
    p.Walks me task (p.keep (p.office.present task peer secret hostname cert)) := by
  cases cert with
  | none => exact .errand rfl (.presents held)
  | some presented =>
    obtain ⟨cert, verifies⟩ := presented
    rw [Office.present]
    split
    · exact .errand rfl (.ends trivial)
    next valid =>
    split
    · exact .errand rfl (.ends trivial)
    next live =>
    simp only [Bool.or_eq_true, Bool.not_eq_true', bne_iff_ne, ne_eq, not_or,
      Bool.not_eq_false, not_not] at valid
    obtain ⟨rfl, own⟩ := valid
    exact .errand rfl (.certifies held own live)

theorem authorise_walks
    (held : p.office.errands task = some (.joining peer secret hostname cert stage))
    (same : OfficeView.of p.users desk p.office.errands = p.view) (id : request.remoteId = peer)
    (certs : request.deviceCert = cert) :
    p.Walks me task (p.keep (Office.authorise { p.office with desk := desk } task request)) := by
  refine ⟨_, .authorises held id certs, ?_⟩
  rw [← same]
  exact of_setTask_update task _ _

theorem decideJoin_walks [DecidableEq Hash] (env : Surroundings Hash)
    (held : p.office.errands task = some (.joining peer secret hostname cert stage)) :
    p.Walks me task (p.keep (p.office.decideJoin me task env peer secret hostname cert stage)) := by
  cases stage with
  | member =>
    rw [Office.decideJoin]
    split
    · exact .errand rfl (.reconnects held)
    · exact .errand rfl (.asks held _)
  | approved | mode | device =>
    rw [Office.decideJoin]
    split
    · exact authorise_walks held rfl rfl rfl
    · exact .errand rfl (.asks held _)
  | invite secret' =>
    obtain ⟨invites, ledger⟩ := p.office.desk.redeem_ledger env secret' peer
    rw [Office.decideJoin]
    split
    · next redeemed =>
      rw [redeemed] at ledger
      cases ledger
      exact authorise_walks held (by rfl) rfl rfl
    · next refused =>
      rw [refused] at ledger
      cases ledger
      exact .errand (by rfl) (.asks held _)
  | reusable secret' refusal =>
    rw [Office.decideJoin]
    split
    · exact authorise_walks held rfl rfl rfl
    · exact .errand rfl (.ends trivial)
  | queue =>
    rw [Office.decideJoin, Desk.queue]
    split
    · split
      · exact .errand rfl (.ends trivial)
      · exact .errand rfl (.ends trivial)
    · exact .errand rfl (.ends trivial)

/-! ### Members' hellos -/

theorem greet_walks (held : p.office.errands task = some (.hello id hostname cert)) :
    p.Walks me task (p.keep (p.office.greet task id hostname cert)) := by
  unfold Office.greet Desk.greet
  split
  · exact .errand rfl (.ends trivial)
  · exact ⟨_, .greets held trivial, of_setTask_update task _ _⟩

/-- A certificate that counts is the one presented, the member's own and not nullified. -/
theorem mem_verify {s : Office Hash} {cert : Option PresentedCert} {c : DeviceCert}
    (verified : c ∈ s.verify id cert) :
    cert = some ⟨c, true⟩ ∧ c.deviceKey = id ∧ c.deviceKey ∉ s.group.nullifiers := by
  obtain ⟨⟨cert, verifies⟩, kept, rfl⟩ := Option.map_eq_some_iff.mp verified
  obtain ⟨rfl, counts⟩ := Option.filter_eq_some_iff.mp kept
  simp only [Bool.and_eq_true, beq_iff_eq, decide_eq_true_eq] at counts
  obtain ⟨⟨rfl, own⟩, live⟩ := counts
  exact ⟨rfl, own, live⟩

theorem recertify_step (held : p.office.errands task = some (.recertifying id hostname verified)) :
    p.Stepped me (.advance task env) (p.keep (p.office.recertify task id hostname verified)) := by
  unfold Office.recertify
  split
  · exact Walks.step (.errand rfl (.ends trivial))
  · next row seated =>
    exact .of_eq (.recertifies held seated _) (of_update task _)

theorem rename_step (held : p.office.errands task = some (.labelling id final renamed changed)) :
    p.Stepped me (.advance task env) (p.keep (p.office.rename task id final renamed changed)) := by
  cases renamed with
  | true => exact .of_eq (.renames held) (of_update task _)
  | false => exact Walks.step (.errand rfl (.closes held))

theorem of_commit [DecidableEq Hash] :
    OfficeView.of p.users (p.office.commit codec disk).desk p.office.errands = p.view :=
  of_commits (Desk.commitCurrentSnapshot_commits codec disk _)

theorem of_committed [DecidableEq Hash]
    (committed : p.office.desk.commitCurrentSnapshot disk codec = (saved, desk)) :
    OfficeView.of p.users { desk with lock := lock } p.office.errands = p.view := by
  rw [Premises.view, ← of_commits (Desk.Commits.of_eq committed)]
  rfl

theorem close_walks [DecidableEq Hash] :
    p.Walks me task (p.keep (p.office.close codec task disk changed)) := by
  cases changed with
  | true => exact .errand of_commit (.ends trivial)
  | false => exact .errand rfl (.ends trivial)

/-! ### Kicks -/

theorem mem_kickTargets {members : MemberList} {row : Member} :
    row ∈ Office.kickTargets members candidate user ↔
      members.get row.identity = some row ∧ row.Of candidate user := by
  rw [Office.kickTargets, Multiset.mem_filter, KeyedMap.mem_values]
  rfl

theorem mem_targets {members : MemberList} :
    id ∈ ((Office.kickTargets members candidate user).map Member.identity).toFinset ↔
      ∃ row, members.get id = some row ∧ row.Of candidate user := by
  rw [Multiset.mem_toFinset, Multiset.mem_map]
  constructor
  · rintro ⟨row, target, rfl⟩
    exact ⟨row, mem_kickTargets.1 target⟩
  · rintro ⟨row, seated, named⟩
    obtain rfl : row.identity = id := KeyedMap.key_get seated
    exact ⟨row, mem_kickTargets.2 ⟨seated, named⟩, rfl⟩

/-- A kick that is not refused has a plan. -/
theorem target_cases (s : Office Hash) (me : EndpointId) (task : Nat)
    (candidate user : EndpointId) (confirm : Bool) :
    (∃ out, out.Plain ∧
        s.target me task candidate user confirm = (out, s.setErrand task none)) ∨
      ∃ targets, KickPlan me s.members candidate user targets ∧
        s.target me task candidate user confirm =
          (.moved, s.setErrand task (some (.removing candidate user targets targets))) := by
  unfold Office.target
  dsimp only
  split
  · exact .inl ⟨.kickRefused .notMember, trivial, rfl⟩
  split
  · exact .inl ⟨.kickRefused .self, trivial, rfl⟩
  split
  · exact .inl ⟨.kickRefused .coordinator, trivial, rfl⟩
  split
  · exact .inl ⟨.confirmKick _, trivial, rfl⟩
  next nonempty others plain _ =>
  refine .inr ⟨_, ⟨fun _ => mem_targets, nonempty, others, fun id row seated named => ?_⟩, rfl⟩
  obtain rfl : row.identity = id := KeyedMap.key_get seated
  exact Bool.eq_false_iff.2 (Multiset.filter_eq_nil.1 (not_not.1 plain) row
    (mem_kickTargets.2 ⟨seated, named⟩))

theorem target_walks (held : p.office.errands task = some (.targeting candidate user confirm)) :
    p.Walks me task (p.keep (p.office.target me task candidate user confirm)) := by
  rcases target_cases p.office me task candidate user confirm with
    ⟨out, plain, refused⟩ | ⟨targets, plan, planned⟩
  · rw [refused]
    exact .errand rfl (.ends plain)
  · rw [planned]
    exact .errand rfl (.targets held plan)

/-! ### Errands -/

theorem leave_step (held : p.office.errands task = some (.leaving id closed)) :
    p.Stepped me (.advance task env) (p.keep (p.office.leave task id closed)) := by
  unfold Office.leave
  split
  · exact Walks.step (.errand rfl (.ends trivial))
  · exact .of_eq (.leaves held) (of_update task _)

theorem runErrand_step [DecidableEq Hash] {errand : Errand}
    (held : p.office.errands task = some errand)
    (ran : p.runErrand codec me task env errand = some r) :
    p.Stepped me (.advance task env) r := by
  cases errand with
  | presenting peer secret hostname cert =>
    cases ran
    exact (present_walks held).step
  | certified peer secret hostname cert =>
    cases ran
    exact .of_eq (.certifies held) (of_update task _)
  | joining peer secret hostname cert stage =>
    cases ran
    exact (decideJoin_walks env held).step
  | hello id hostname cert =>
    cases ran
    exact (greet_walks held).step
  | verifying id hostname cert =>
    cases ran
    exact Walks.step (.errand rfl (.verifies held fun _ => mem_verify))
  | recertifying id hostname verified =>
    cases ran
    exact recertify_step held
  | binding id hostname user changed =>
    cases ran
    exact .of_eq (.binds held) (of_update task _)
  | naming id desired changed =>
    cases ran
    exact Walks.step (.errand rfl (.names held _ _))
  | labelling id final renamed changed =>
    cases ran
    exact rename_step held
  | closing changed =>
    cases ran
    exact close_walks.step
  | kicking candidate confirm =>
    cases ran
    exact Walks.step (.errand rfl (.resolves held))
  | targeting candidate user confirm =>
    cases ran
    exact (target_walks held).step
  | removing candidate user left targets =>
    obtain ⟨⟨empty, -⟩, same⟩ := Option.ite_none_right_eq_some.mp ran
    rw [empty] at held
    cases same
    exact Walks.step (.errand of_commit (.swept held))
  | returning candidate user targets =>
    cases ran
    exact Walks.step (.errand rfl (.kicked held))
  | leaving id closed =>
    obtain ⟨-, ran⟩ := Option.ite_none_right_eq_some.mp ran
    cases ran
    exact leave_step held
  | departed =>
    cases ran
    exact Walks.step (.errand of_commit (.ends trivial))

/-! ### At the desk -/

/-- A section of the desk. -/
def ofDesk (p : Premises Hash) (r : DeskOut Hash × Desk Hash) : OfficeOut Hash × Premises Hash :=
  p.keep (.desk r.1, { p.office with desk := r.2 })

variable (free : p.office.errands task = none)

include free

/-- The desk writes rows and its task moves on. -/
theorem of_setTask_free (t : Option AcceptTask) :
    OfficeView.of p.users (desk.setTask task t) p.office.errands =
      (OfficeView.of p.users desk p.office.errands).setSlot task ⟨t, none⟩ := by
  rw [of_setTask, free]

theorem validateAdmission_walks {request : AdmissionRequest}
    (held : p.office.desk.tasks task = some (.admitting request)) :
    p.Walks me task (p.ofDesk (p.office.desk.validateAdmission task request)) := by
  unfold Desk.validateAdmission
  split
  · exact .desk rfl (.admits free held _ trivial)
  · split
    · exact .desk rfl (.admits free held _ trivial)
    · exact .desk rfl (.denies free _ trivial)

theorem rollBack_step {seat : Seat}
    (held : p.office.desk.tasks task = some (.committing (.failed seat))) :
    p.Stepped me (.advance task env) (p.ofDesk (p.office.desk.rollBack codec task seat)) := by
  unfold Desk.rollBack
  split
  · exact Walks.step (.desk rfl (.commits free held rfl trivial))
  · next members restored =>
    exact .of_eq (.rollsBack free held restored) (of_setTask_free free _)

theorem advanceCommit_step [DecidableEq Hash] {phase : SeatPhase}
    (held : p.office.desk.tasks task = some (.committing phase)) :
    p.Stepped me (.advance task env)
      (p.ofDesk (p.office.desk.advanceCommit codec task env phase)) := by
  cases phase with
  | seated seat =>
    rw [Desk.advanceCommit, Desk.commitSeat]
    split
    · next committed =>
      exact Walks.step (.desk (of_committed committed) (.finishes free trivial))
    · next committed =>
      exact Walks.step (.desk (of_committed committed) (.commits free held rfl trivial))
  | failed seat => exact rollBack_step free held
  | rolledBack seat =>
    rw [Desk.advanceCommit, Desk.commitRollback]
    split
    · next committed =>
      exact Walks.step (.desk (of_committed committed) (.denies free _ trivial))
    · next committed =>
      exact Walks.step (.desk (of_committed committed) (.commits free held rfl trivial))
  | retaining seat => exact .of_eq (.retains free held) (of_setTask_free free _)
  | retained seat =>
    rw [Desk.advanceCommit, Desk.commitRetained]
    split
    all_goals next committed =>
      exact Walks.step (.desk (of_committed committed) (.finishes free trivial))

theorem welcome_walks [DecidableEq Hash] {cert : Option PresentedCert}
    (held : p.office.desk.tasks task = some (.greeted id hostname cert)) :
    p.Walks me task (p.ofDesk (p.office.desk.welcome task env id hostname cert)) := by
  unfold Desk.welcome
  split
  · exact .desk rfl (.finishes free trivial)
  split
  · exact .desk rfl (.finishes free trivial)
  · exact .desk rfl (.welcomes free held trivial)

theorem enter_walks {cert : Option PresentedCert}
    (held : p.office.desk.tasks task = some (.welcomed id hostname cert)) :
    p.Walks me task (p.keep (p.office.enter task id hostname cert)) := by
  unfold Office.enter
  split
  · exact ⟨_, .enters free held, of_setTask_update task _ _⟩
  · exact .desk rfl (.finishes free trivial)

theorem runDesk_step [DecidableEq Hash] (held : p.office.desk.tasks task = some t)
    {r : OfficeOut Hash × Office Hash} (ran : p.office.runDesk codec task env t = some r) :
    p.Stepped me (.advance task env) (p.keep r) := by
  cases t with
  | welcomed id hostname cert =>
    obtain ⟨-, ran⟩ := Option.ite_none_right_eq_some.mp ran
    cases ran
    exact (enter_walks free held).step
  | admitting request =>
    cases ran
    exact (validateAdmission_walks free held).step
  | validated request hostname =>
    obtain ⟨_, seated, rfl⟩ := Option.map_eq_some_iff.mp ran
    obtain ⟨-, seated⟩ := Option.ite_none_right_eq_some.mp seated
    cases seated
    exact .of_eq (.seats free held rfl rfl) (of_setTask_free free _)
  | committing phase =>
    obtain ⟨_, advanced, rfl⟩ := Option.map_eq_some_iff.mp ran
    obtain ⟨-, advanced⟩ := Option.ite_none_right_eq_some.mp advanced
    cases advanced
    exact advanceCommit_step free held
  | denied burned | approving entry =>
    cases ran
    exact Walks.step (.desk (by rfl) (.finishes free trivial))
  | greeted id hostname cert =>
    obtain ⟨_, welcomed, rfl⟩ := Option.map_eq_some_iff.mp ran
    obtain ⟨-, welcomed⟩ := Option.ite_none_right_eq_some.mp welcomed
    cases welcomed
    exact (welcome_walks free held).step

end Premises

/-! ### Every step -/

variable {codec : GroupCodec Hash} {me : EndpointId}

theorem Office.idle_iff {s : Office Hash} {task : Nat} :
    s.idle task = true ↔ s.errands task = none ∧ s.desk.tasks task = none := by
  rw [idle, Bool.and_eq_true, Option.isNone_iff_eq_none, Option.isNone_iff_eq_none]

theorem Premises.view_idle {task : Nat} (idle : p.office.idle task = true) :
    p.view.slots task = ⟨none, none⟩ := by
  obtain ⟨errand, t⟩ := Office.idle_iff.1 idle
  exact congrArg₂ Slot.mk t errand

theorem Premises.of_update_idle {task : Nat} (idle : p.office.idle task = true)
    (e : Option Errand) :
    OfficeView.of p.users p.office.desk (Function.update p.office.errands task e) =
      p.view.setSlot task ⟨none, e⟩ := by
  rw [of_update, (Office.idle_iff.1 idle).2]
  rfl

theorem Premises.edit_step (applied : change.apply p.office.group = some group) :
    p.Stepped me (.edit change) (p.keep (.edited, p.office.setGroup group)) := by
  cases change with
  | suggestFirewall suggestions | createReusable hash key | withdrawReusable hash
  | acceptRequest entry =>
    cases applied
    exact .keeps rfl rfl trivial
  | revokeReusable id hash =>
    obtain ⟨-, applied⟩ := Option.ite_none_right_eq_some.mp applied
    obtain ⟨key, -, rfl⟩ := Option.map_eq_some_iff.mp applied
    exact .keeps rfl rfl trivial
  | revokeDevice target independent =>
    obtain ⟨-, applied⟩ := Option.ite_none_right_eq_some.mp applied
    cases applied
    exact .revokes
  | removeMember id =>
    cases applied
    exact .prunes

variable [DecidableEq Hash]

section

variable {p : Premises Hash} {task : Nat} {env : Surroundings Hash}

theorem OfficeAct.run_errand (held : p.office.errands task = some errand) :
    (OfficeAct.advance task env).run codec me p = p.runErrand codec me task env errand := by
  rw [run, held]

theorem OfficeAct.run_desk (free : p.office.errands task = none)
    (held : p.office.desk.tasks task = some t) :
    (OfficeAct.advance task env).run codec me p =
      (p.office.runDesk codec task env t).map p.keep := by
  rw [run, free, held, Option.bind_some]

end

def AcceptTask.isWelcomed : AcceptTask → Bool
  | .welcomed _ _ _ => true
  | _ => false

/-- A step of a task that stays at the desk. -/
theorem Premises.advanced_of_step (free : p.office.errands task = none)
    (held : p.office.desk.tasks task = some t) (stays : t.isWelcomed = false)
    (ran : officeStep codec me p (.advance task env) out p') :
    ∃ r, p.office.desk.advance codec task env t = some r ∧ out = .desk r.1 ∧
      p' = (p.ofDesk r).2 := by
  rw [officeStep, OfficeAct.run_desk free held] at ran
  obtain ⟨_, after, same⟩ := Option.map_eq_some_iff.mp ran
  cases t with
  | welcomed id hostname cert => cases stays
  | _ =>
    rw [Office.runDesk] at after
    · obtain ⟨r, advanced, rfl⟩ := Option.map_eq_some_iff.mp after
      cases same
      exact ⟨r, advanced, rfl, rfl⟩
    · nofun

/-- The office's steps are the ones listed. -/
theorem OfficeAct.run_step {a : OfficeAct Hash} (ran : a.run codec me p = some r) :
    p.Stepped me a r := by
  cases a with
  | receive task peer frame =>
    obtain ⟨idle, ran⟩ := Option.ite_none_right_eq_some.mp ran
    cases ran
    cases frame with
    | joinRequest secret hostname cert =>
      exact .of_eq (.presents (Premises.view_idle idle) _ _) (Premises.of_update_idle idle _)
    | meshHello hostname cert =>
      rw [Office.dispatch]
      split
      · exact .of_eq (.greets (Premises.view_idle idle) _) (Premises.of_update_idle idle _)
      · exact .of_eq (.presents (Premises.view_idle idle) _ _) (Premises.of_update_idle idle _)
  | advance task env =>
    rw [run] at ran
    split at ran
    · next errand held => exact Premises.runErrand_step held ran
    next free =>
    obtain ⟨after, advanced, rfl⟩ := Option.map_eq_some_iff.mp ran
    obtain ⟨t, held, advanced⟩ := Option.bind_eq_some_iff.mp advanced
    exact Premises.runDesk_step free held advanced
  | accept task id =>
    obtain ⟨idle, ran⟩ := Option.ite_none_right_eq_some.mp ran
    obtain ⟨_, accepted, rfl⟩ := Option.map_eq_some_iff.mp ran
    obtain ⟨request, -, rfl⟩ := Option.map_eq_some_iff.mp accepted
    exact .of_eq (.accepts (Premises.view_idle idle) _ trivial)
      (Premises.of_setTask_free (Office.idle_iff.1 idle).1 _)
  | store disk =>
    obtain ⟨-, ran⟩ := Option.ite_none_right_eq_some.mp ran
    cases ran
    exact .of_eq (.keeps rfl rfl trivial) Premises.of_commit
  | publish disk =>
    obtain ⟨-, ran⟩ := Option.ite_none_right_eq_some.mp ran
    cases ran
    have published : Node.Committed codec p.office.desk.node _ :=
      (Node.Bookkept.preparePublication disk p.office.desk.node).committed
    exact .of_eq (.keeps rfl rfl trivial) (of_commits ⟨published, rfl, rfl⟩)
  | edit change =>
    obtain ⟨group, applied, rfl⟩ := Option.map_eq_some_iff.mp ran
    exact Premises.edit_step applied
  | reauthorize target =>
    cases ran
    exact .lifts
  | kick task candidate confirm =>
    obtain ⟨idle, ran⟩ := Option.ite_none_right_eq_some.mp ran
    cases ran
    unfold Office.startKick
    split
    · exact .refuses (Premises.view_idle idle) trivial
    split
    · exact .refuses (Premises.view_idle idle) trivial
    · exact .of_eq (.kicks (Premises.view_idle idle)) (Premises.of_update_idle idle _)
  | remove task id =>
    rw [run] at ran
    split at ran
    · next held =>
      obtain ⟨mem, ran⟩ := Option.ite_none_right_eq_some.mp ran
      cases ran
      exact .of_eq (.removes held mem) (of_update task _)
    · cases ran
  | leave task peer closed =>
    obtain ⟨idle, ran⟩ := Option.ite_none_right_eq_some.mp ran
    cases ran
    exact .of_eq (.departs (Premises.view_idle idle)) (Premises.of_update_idle idle _)
  | stamp peer now =>
    cases ran
    exact .stamps
  | rebind key user =>
    cases ran
    exact .rebinds

end Rayfish
