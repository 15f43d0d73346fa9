import Rayfish.Mesh.OfficeRows

/-!
# The steps of a kick

What one step means to a kick under way. `TaskOrigin` and `KickOrigin` say how an admission
and a kick came to be where they are. Up to the last removal the targets left are the rows
of the user that are left (`Sweeping.step`); after it, every row of the user was seated by
an admission authorised since (`Settled.rows_step`).
-/

namespace Rayfish

open Lib

variable {Hash : Type}

/-! ## Where a task and a kick come from -/

/-- How a task came to be at the desk after a step. -/
inductive TaskOrigin (v : OfficeView) (i : Nat) :
    OfficeAct Hash → OfficeOut Hash → AcceptTask → Prop
  | same (held : (v.slots i).task = some t) : TaskOrigin v i a out t
  | authorised : TaskOrigin v i (.advance i env) (.desk (.authorised request)) (.admitting request)
  | validated (hostname : Option Name) (held : (v.slots i).task = some (.admitting request)) :
      TaskOrigin v i a out (.validated request hostname)
  | seated (free : (v.slots i).errand = none)
      (held : (v.slots i).task = some (.validated request hostname))
      (tentative : seat.tentative = request.row hostname env)
      (displaced : seat.displaced = v.members.get request.remoteId) :
      TaskOrigin v i (.advance i env) out (.committing (.seated seat))
  | committing (held : (v.slots i).task = some (.committing phase))
      (same : next.seat = phase.seat) : TaskOrigin v i a out (.committing next)
  | denied (burned : Option Name) : TaskOrigin v i a out (.denied burned)
  | greeted (id : EndpointId) (hostname : Option Name) (cert : Option PresentedCert) :
      TaskOrigin v i a out (.greeted id hostname cert)
  | welcomed (id : EndpointId) (hostname : Option Name) (cert : Option PresentedCert) :
      TaskOrigin v i a out (.welcomed id hostname cert)
  | approving (entry : ApprovedEntry) : TaskOrigin v i a out (.approving entry)

/-- The kick has resolved its user. -/
def Errand.isSweep : Errand → Bool
  | .targeting _ _ _ | .removing _ _ _ _ | .returning _ _ _ => true
  | _ => false

/-- How a kick came to be where it is. -/
inductive KickOrigin (v : OfficeView) (task : Nat) : OfficeAct Hash → Errand → Prop
  | waits (other : a.task ≠ some task) (held : (v.slots task).errand = some e) :
      KickOrigin v task a e
  | resolved (held : (v.slots task).errand = some (.kicking candidate confirm)) :
      KickOrigin v task (.advance task env)
        (.targeting candidate (v.users.resolve candidate) confirm)
  | read (held : (v.slots task).errand = some (.targeting candidate user confirm))
      (nonempty : targets ≠ ∅) :
      KickOrigin v task (.advance task env) (.removing candidate user targets targets)
  | removed {id : EndpointId}
      (held : (v.slots task).errand = some (.removing candidate user left targets))
      (mem : id ∈ left) :
      KickOrigin v task (.remove task id) (.removing candidate user (left.erase id) targets)
  | committed (held : (v.slots task).errand = some (.removing candidate user ∅ targets)) :
      KickOrigin v task (.advance task env) (.returning candidate user targets)

variable {me : EndpointId} {v v' : OfficeView} {a : OfficeAct Hash} {out : OfficeOut Hash}
  {env : Surroundings Hash} {i : Nat} {row : Member} {slot : Slot} {t : AcceptTask}
  {e : OfficeEntry Hash}

theorem Walk.task_origin (walk : Walk me v out (v.slots task) slot) (held : slot.task = some t) :
    TaskOrigin v task (.advance task env) out t := by
  cases walk with
  | authorises before peer same =>
    cases held
    exact .authorised
  | greets before plain =>
    cases held
    exact .greeted ..
  | admits free before hostname plain =>
    cases held
    exact .validated hostname before
  | commits free before same plain =>
    cases held
    exact .committing before same
  | denies free burned plain =>
    cases held
    exact .denied burned
  | finishes free plain | enters free before => cases held
  | welcomes free before plain =>
    cases held
    exact .welcomed ..
  | _ => exact .same held

/-- Only the slot that is set needs looking at. -/
theorem task_origin_setSlot {v₁ : OfficeView} {task : Nat} (same : v₁.slots = v.slots)
    (held : ((v₁.setSlot task slot).slots i).task = some t)
    (new : slot.task = some t → TaskOrigin v task a out t) : TaskOrigin v i a out t := by
  rw [OfficeView.slots_setSlot, same] at held
  split at held
  · next eq => exact eq ▸ new held
  · exact .same held

theorem OfficeStep.task_origin (step : OfficeStep me v a out v')
    (held : (v'.slots i).task = some t) : TaskOrigin v i a out t := by
  cases step with
  | keeps quiet apart plain | refuses idle plain | rebinds | stamps | revokes | prunes | lifts =>
    exact .same held
  | walks walk => exact task_origin_setSlot rfl held walk.task_origin
  | presents idle secret hostname | greets idle hostname | kicks idle | departs idle =>
    exact task_origin_setSlot rfl held nofun
  | accepts idle entry plain =>
    refine task_origin_setSlot rfl held fun now => ?_
    cases now
    exact .approving entry
  | certifies errand | binds errand | recertifies errand before changed | renames errand
  | removes errand mem | leaves errand => exact task_origin_setSlot (by rfl) held .same
  | seats free before tentative displaced =>
    refine task_origin_setSlot (by rfl) held fun now => ?_
    cases now
    exact .seated free before tentative displaced
  | rollsBack free before restored | retains free before =>
    refine task_origin_setSlot (by rfl) held fun now => ?_
    cases now
    exact .committing before rfl

/-! ## The kick's own errand -/

variable {task : Nat} {candidate user : EndpointId} {left targets : Finset EndpointId}

/-- While a kick runs its errand changes by its own removals only. -/
theorem OfficeStep.removing (step : OfficeStep me v a out v')
    (held : (v.slots task).errand = some (.removing candidate user left targets))
    (running : ∀ env, a ≠ .advance task env) :
    (∃ id ∈ left, a = .remove task id ∧ v'.members = v.members.erase id ∧
        (v'.slots task).errand = some (.removing candidate user (left.erase id) targets)) ∨
      (v'.slots task).errand = some (.removing candidate user left targets) ∧
        ∀ id, a ≠ .remove task id := by
  by_cases own : a.task = some task
  · -- every other step of the task needs it to be idle
    have busy : v.slots task ≠ ⟨none, none⟩ := by
      intro idle
      rw [idle] at held
      cases held
    cases step with
    | keeps quiet apart plain => exact absurd (apart.symm.trans own) nofun
    | removes removing mem =>
      cases own
      obtain ⟨rfl, rfl, rfl, rfl⟩ : _ ∧ _ ∧ _ ∧ _ := by
        have same := removing.symm.trans held
        simpa using same
      exact .inl ⟨_, mem, rfl, rfl, by rw [OfficeView.slots_setSlot, if_pos rfl]⟩
    | presents idle _ _ | greets idle _ | accepts idle _ _ | kicks idle | refuses idle _
    | departs idle =>
      cases own
      exact absurd idle busy
    | rebinds | stamps | revokes | prunes | lifts => cases own
    | _ =>
      cases own
      exact absurd rfl (running _)
  · refine .inr ⟨(congrArg Slot.errand (step.slots_eq own)).trans held, fun id same => own ?_⟩
    rw [same]
    rfl

theorem Walk.kick_origin {e : Errand} (walk : Walk me v out (v.slots task) slot)
    (held : slot.errand = some e) (sweep : e.isSweep = true) :
    KickOrigin v task (.advance task env) e := by
  cases walk with
  | resolves before =>
    cases held
    exact .resolved before
  | targets before plan =>
    cases held
    exact .read before plan.nonempty
  | swept before =>
    cases held
    exact .committed before
  | admits free | commits free | denies free | finishes free | welcomes free =>
    exact absurd (free.symm.trans held) nofun
  | ends | authorises | greets | kicked => cases held
  | _ =>
    cases held
    cases sweep

theorem OfficeStep.kick_origin (step : OfficeStep me v a out v') {e : Errand}
    (held : (v'.slots task).errand = some e) (sweep : e.isSweep = true) :
    KickOrigin v task a e := by
  by_cases own : a.task = some task
  · cases step with
    | keeps quiet apart plain => exact absurd (apart.symm.trans own) nofun
    | @walks out i slot env walk =>
      cases own
      rw [OfficeView.slots_setSlot, if_pos rfl] at held
      exact walk.kick_origin held sweep
    | removes before mem =>
      cases own
      rw [OfficeView.slots_setSlot, if_pos rfl] at held
      cases held
      exact .removed before mem
    | refuses idle plain =>
      cases own
      rw [idle] at held
      cases held
    | binds errand =>
      cases own
      rw [OfficeView.slots_setSlot, if_pos rfl] at held
      unfold Office.claim at held
      split at held
      · cases held
        cases sweep
      · cases held
        cases sweep
    | rebinds | stamps | revokes | prunes | lifts => cases own
    | accepts | seats | rollsBack | retains =>
      cases own
      rw [OfficeView.slots_setSlot, if_pos rfl] at held
      cases held
    | _ =>
      cases own
      rw [OfficeView.slots_setSlot, if_pos rfl] at held
      cases held
      cases sweep
  · exact .waits own ((congrArg Slot.errand (step.slots_eq own)).symm.trans held)

/-! ## Up to the last removal -/

theorem Member.of_congr {before : Member} (id : row.identity = before.identity)
    (same : row.userIdentity = before.userIdentity) :
    row.Of candidate user ↔ before.Of candidate user := by
  rw [Of, Of, id, same]

/-- A row without a user is only named by its own key. -/
theorem Member.Of.by_identity {before : Member} (named : row.Of candidate user)
    (none : row.userIdentity = none) (same : before.identity = row.identity) :
    before.Of candidate user := by
  rw [Of, none] at named
  rw [Of, same]
  rcases named with named | named | absurd
  · exact .inl named
  · exact .inr (.inl named)
  · cases absurd

/-- The targets that a kick has left. -/
def OfficeView.remaining (v : OfficeView) (task : Nat) : Finset EndpointId :=
  match (v.slots task).errand with
  | some (.removing _ _ left _) => left
  | _ => ∅

theorem OfficeView.remaining_eq (held : (v.slots task).errand =
    some (.removing candidate user left targets)) : v.remaining task = left := by
  rw [OfficeView.remaining, held]

/-- The step writes no row of the user and none under a target still to be removed, and
takes no such target's certificate away. -/
structure SparesTargets (task : Nat) (candidate user : EndpointId) (e : OfficeEntry Hash) :
    Prop where
  unwritten : ∀ row ∈ e.before.view.written e.act,
    ¬ row.Of candidate user ∧ row.identity ∉ e.before.view.remaining task
  unstripped : ∀ key ∈ e.before.view.remaining task, e.act ≠ .edit (.revokeDevice key true)

/-- The targets left are the rows of the user that are left. -/
structure Sweeping (v : OfficeView) (task : Nat) (candidate user : EndpointId)
    (targets left : Finset EndpointId) : Prop where
  held : (v.slots task).errand = some (.removing candidate user left targets)
  rows : ∀ row, v.members.get row.identity = some row → row.Of candidate user → row.identity ∈ left
  plain : ∀ row, v.members.get row.identity = some row → row.identity ∈ left →
    row.Of candidate user ∧ row.isCoordinator = false

/-- A row of the user after a step was one before, or has just been written. -/
theorem RowOrigin.named (origin : RowOrigin v a row) (named : row.Of candidate user) :
    (∃ before, v.members.get before.identity = some before ∧ before.identity = row.identity ∧
      before.Of candidate user) ∨ v.written a = some row := by
  cases origin with
  | kept before seated _ same _ _ =>
    have key : before.identity = row.identity := KeyedMap.key_get seated
    exact .inl ⟨before, key.symm ▸ seated, key, (Member.of_congr key.symm same).1 named⟩
  | stripped before seated _ none _ =>
    have key : before.identity = row.identity := KeyedMap.key_get seated
    exact .inl ⟨before, key.symm ▸ seated, key, named.by_identity none key⟩
  | written written => exact .inr written

theorem Sweeping.step (sweeping : Sweeping e.before.view task candidate user targets left)
    (spares : SparesTargets task candidate user e) (running : ∀ env, e.act ≠ .advance task env)
    (step : OfficeStep me e.before.view e.act e.out e.after.view) :
    ∃ left', Sweeping e.after.view task candidate user targets left' ∧
      ∀ id, e.act = .remove task id → left' = left.erase id := by
  obtain ⟨unwritten, unstripped⟩ := spares
  rw [OfficeView.remaining_eq sweeping.held] at unwritten unstripped
  have plain : ∀ row, e.after.view.members.get row.identity = some row → row.identity ∈ left →
      row.Of candidate user ∧ row.isCoordinator = false := by
    intro row seated mem
    cases step.row_origin seated with
    | kept before was coordinator same _ _ =>
      have key : before.identity = row.identity := KeyedMap.key_get was
      rw [← key] at was mem
      obtain ⟨named, ordinary⟩ := sweeping.plain before was mem
      exact ⟨(Member.of_congr key.symm same).2 named, coordinator.trans ordinary⟩
    | stripped _ _ revoked _ _ => exact absurd revoked (unstripped _ mem)
    | written written => exact absurd mem (unwritten row written).2
  have rows : ∀ row, e.after.view.members.get row.identity = some row →
      row.Of candidate user → row.identity ∈ left := by
    intro row seated named
    rcases (step.row_origin seated).named named with ⟨before, was, key, named⟩ | written
    · exact key ▸ sweeping.rows before was named
    · exact absurd named (unwritten row written).1
  rcases step.removing sweeping.held running with ⟨id, mem, removed, erased, held⟩ | ⟨held, other⟩
  · refine ⟨left.erase id, ⟨held, fun row seated named => ?_, fun row seated mem => ?_⟩, ?_⟩
    · refine Finset.mem_erase.2 ⟨fun same => ?_, rows row seated named⟩
      rw [erased, KeyedMap.get_erase, if_pos same] at seated
      cases seated
    · exact plain row seated (Finset.mem_of_mem_erase mem)
    · intro id' same
      rw [removed] at same
      cases same
      rfl
  · exact ⟨left, ⟨held, rows, plain⟩, fun id same => absurd same (other id)⟩

/-! ## After the last removal -/

def AdmissionRequest.Of (request : AdmissionRequest) (candidate user : EndpointId) : Prop :=
  request.remoteId = candidate ∨ request.remoteId = user ∨
    request.deviceCert.map (·.userIdentity) = some user

/-- The task is about to seat `request`. -/
def OfficeView.Carries (v : OfficeView) (i : Nat) (request : AdmissionRequest) : Prop :=
  (v.slots i).task = some (.admitting request) ∨
    ∃ hostname, (v.slots i).task = some (.validated request hostname)

/-- No admission of the user is under way, nor may one be undone. -/
structure NoneUnderWay (v : OfficeView) (candidate user : EndpointId) : Prop where
  requests : ∀ i request, v.Carries i request → ¬ request.Of candidate user
  seats : ∀ i phase, (v.slots i).task = some (.committing phase) →
    ¬ phase.seat.tentative.Of candidate user ∧ ∀ row ∈ phase.seat.displaced, ¬ row.Of candidate user

/-- A hello that the step concludes makes no other row one of the user's. -/
def KeepsOwners (candidate user : EndpointId) (e : OfficeEntry Hash) : Prop :=
  ∀ i env id hostname verified row, e.act = .advance i env →
    (e.before.view.slots i).errand = some (.recertifying id hostname verified) →
    e.before.view.members.get id = some row → (row.recertified verified).Of candidate user →
    row.Of candidate user

/-- In the history `task` was authorised to admit `request`, and has carried it since. -/
def Authorised (h : List (OfficeEntry Hash)) (task : Nat) (request : AdmissionRequest) : Prop :=
  ∃ pre decision post env, h = pre ++ decision :: post ∧ decision.act = .advance task env ∧
    decision.out = .desk (.authorised request) ∧ ∀ e ∈ post, e.before.view.Carries task request

/-- In the history an admission took the seat of `id` that had been authorised in it. -/
def SeatedAfresh (h : List (OfficeEntry Hash)) (id : EndpointId) : Prop :=
  ∃ pre seating post task env request hostname, h = pre ++ seating :: post ∧
    seating.act = .advance task env ∧ (seating.before.view.slots task).errand = none ∧
    (seating.before.view.slots task).task = some (.validated request hostname) ∧
    request.remoteId = id ∧ Authorised pre task request

/-- Every row of the user was seated in the history, by an admission authorised in it. -/
structure Settled (h : List (OfficeEntry Hash)) (v : OfficeView) (candidate user : EndpointId) :
    Prop where
  rows : ∀ row, v.members.get row.identity = some row → row.Of candidate user →
    SeatedAfresh h row.identity
  requests : ∀ i request, v.Carries i request → request.Of candidate user → Authorised h i request
  seats : ∀ i phase, (v.slots i).task = some (.committing phase) →
    (phase.seat.tentative.Of candidate user → SeatedAfresh h phase.seat.tentative.identity) ∧
      ∀ row ∈ phase.seat.displaced, row.Of candidate user → SeatedAfresh h row.identity

section

variable {h : List (OfficeEntry Hash)} {e : OfficeEntry Hash} {id : EndpointId}
  {request : AdmissionRequest}

theorem SeatedAfresh.snoc (seated : SeatedAfresh h id) : SeatedAfresh (h ++ [e]) id := by
  obtain ⟨pre, seating, post, task, env, request, hostname, rfl, rest⟩ := seated
  exact ⟨pre, seating, post ++ [e], task, env, request, hostname, by simp, rest⟩

theorem Authorised.snoc (authorised : Authorised h task request)
    (carries : e.before.view.Carries task request) : Authorised (h ++ [e]) task request := by
  obtain ⟨pre, decision, post, env, rfl, act, out, since⟩ := authorised
  refine ⟨pre, decision, post ++ [e], env, by simp, act, out, ?_⟩
  rw [List.forall_mem_append]
  exact ⟨since, List.forall_mem_singleton.2 carries⟩

/-- An admission that has been authorised takes its seat. -/
theorem Authorised.seated (authorised : Authorised h task request)
    (act : e.act = .advance task env) (free : (e.before.view.slots task).errand = none)
    (held : (e.before.view.slots task).task = some (.validated request hostname)) :
    SeatedAfresh (h ++ [e]) request.remoteId :=
  ⟨h, e, [], task, env, request, hostname, rfl, act, free, held, rfl, authorised⟩

namespace Settled

variable (settled : Settled h e.before.view candidate user)

include settled

variable (step : OfficeStep me e.before.view e.act e.out e.after.view)

include step

theorem requests_step (carries : e.after.view.Carries i request)
    (named : request.Of candidate user) : Authorised (h ++ [e]) i request := by
  have before : e.before.view.Carries i request → Authorised (h ++ [e]) i request :=
    fun before => (settled.requests i request before named).snoc before
  obtain ⟨s, a, out, s'⟩ := e
  rcases carries with held | ⟨hostname, held⟩
  · cases step.task_origin held with
    | same held => exact before (.inl held)
    | authorised => exact ⟨h, _, [], _, rfl, rfl, rfl, List.forall_mem_nil _⟩
  · cases step.task_origin held with
    | same held => exact before (.inr ⟨hostname, held⟩)
    | validated _ held => exact before (.inl held)

theorem seats_step (held : (e.after.view.slots i).task = some (.committing phase)) :
    (phase.seat.tentative.Of candidate user →
        SeatedAfresh (h ++ [e]) phase.seat.tentative.identity) ∧
      ∀ row ∈ phase.seat.displaced, row.Of candidate user →
        SeatedAfresh (h ++ [e]) row.identity := by
  obtain ⟨s, a, out, s'⟩ := e
  cases step.task_origin held with
  | same held =>
    obtain ⟨tentative, displaced⟩ := settled.seats i phase held
    exact ⟨fun named => (tentative named).snoc, fun row was named => (displaced row was named).snoc⟩
  | @seated request hostname env out seat free validated tentative displaced =>
    refine ⟨fun named => ?_, fun row was named => ?_⟩
    · have named : request.Of candidate user := by
        rw [show (SeatPhase.seated seat).seat.tentative = _ from tentative] at named
        exact named
      have authorised := settled.requests i request (.inr ⟨hostname, validated⟩) named
      rw [show (SeatPhase.seated seat).seat.tentative = _ from tentative]
      exact authorised.seated rfl free validated
    · have seated : s.view.members.get request.remoteId = some row := displaced.symm.trans was
      have key : row.identity = request.remoteId := KeyedMap.key_get seated
      exact (settled.rows row (key.symm ▸ seated) named).snoc
  | committing held same =>
    obtain ⟨tentative, displaced⟩ := settled.seats i _ held
    rw [← same] at tentative displaced
    exact ⟨fun named => (tentative named).snoc, fun row was named => (displaced row was named).snoc⟩

theorem rows_step (owners : KeepsOwners candidate user e)
    (seated : e.after.view.members.get row.identity = some row) (named : row.Of candidate user) :
    SeatedAfresh (h ++ [e]) row.identity := by
  rcases (step.row_origin seated).named named with ⟨before, was, key, named⟩ | written
  · exact key ▸ (settled.rows before was named).snoc
  · obtain ⟨s, a, out, s'⟩ := e
    cases OfficeView.writes_of_written written with
    | @recertified i hostname verified before env id held was =>
      have key : before.identity = id := KeyedMap.key_get was
      have named := owners i env id hostname verified before rfl held was named
      exact (settled.rows before (key.symm ▸ was) named).snoc
    | seated free held =>
      exact (settled.requests _ _ (.inr ⟨_, held⟩) named).seated rfl free held
    | restored free held ours displaced =>
      exact ((settled.seats _ _ held).2 row displaced named).snoc
    | retained free held => exact ((settled.seats _ _ held).1 named).snoc

end Settled

end

/-- Rows removed by a kick were of that user and of no coordinator. -/
def RemovesPlain (task : Nat) (candidate user : EndpointId) (e : OfficeEntry Hash) : Prop :=
  ∀ id, e.act = .remove task id →
    (∀ row, e.before.office.members.get id = some row →
      row.Of candidate user ∧ row.isCoordinator = false) ∧
    ∀ i, e.after.office.members.get i = if i = id then none else e.before.office.members.get i

theorem KickPlan.sweeping (plan : KickPlan me v.members candidate user targets)
    (held : (v.slots task).errand = some (.removing candidate user targets targets)) :
    Sweeping v task candidate user targets targets where
  held := held
  rows row seated named := (plan.mem_iff _).2 ⟨row, seated, named⟩
  plain row seated mem := by
    obtain ⟨row', seated', named⟩ := (plan.mem_iff _).1 mem
    cases seated.symm.trans seated'
    exact ⟨named, plan.plain _ row seated named⟩

/-- Each removal is one of a target that is left. -/
theorem removes_of_step (step : OfficeStep me e.before.view e.act e.out e.after.view)
    (held : (e.before.view.slots task).errand = some (.removing candidate user left targets))
    (running : ∀ env, e.act ≠ .advance task env) {id : EndpointId}
    (removes : e.act = .remove task id) :
    id ∈ left ∧ e.after.view.members = e.before.view.members.erase id := by
  rcases step.removing held running with ⟨id', mem, removed, erased, -⟩ | ⟨-, other⟩
  · cases removes.symm.trans removed
    exact ⟨mem, erased⟩
  · exact absurd removes (other id)

theorem Sweeping.removesPlain (sweeping : Sweeping e.before.view task candidate user targets left)
    (step : OfficeStep me e.before.view e.act e.out e.after.view)
    (running : ∀ env, e.act ≠ .advance task env) : RemovesPlain task candidate user e := by
  intro id removes
  obtain ⟨mem, erased⟩ := removes_of_step step sweeping.held running removes
  refine ⟨fun row seated => ?_, fun i => ?_⟩
  · obtain rfl : row.identity = id := KeyedMap.key_get seated
    exact sweeping.plain row seated mem
  · show e.after.view.members.get i = _
    rw [erased]
    exact KeyedMap.get_erase ..

/-- A kick returns after its commit. -/
theorem OfficeStep.kicked (step : OfficeStep me v (.advance task env) (.kicked targets) v') :
    ∃ candidate user, (v.slots task).errand = some (.returning candidate user targets) := by
  cases step with
  | keeps quiet apart plain => exact plain.elim
  | walks walk =>
    cases walk with
    | kicked held => exact ⟨_, _, held⟩
    | ends plain | greets _ plain | admits _ _ _ plain | commits _ _ _ plain
    | denies _ _ plain | finishes _ plain | welcomes _ _ plain => exact plain.elim

/-- The section in which a kick returns writes no row. -/
theorem written_returning
    (held : (v.slots task).errand = some (.returning candidate user targets)) :
    v.written (.advance task env) ≠ some row := by
  intro written
  cases OfficeView.writes_of_written written with
  | recertified held' _ => exact absurd (held.symm.trans held') nofun
  | seated free _ | restored free _ _ _ | retained free _ =>
    exact absurd (held.symm.trans free) nofun

end Rayfish
