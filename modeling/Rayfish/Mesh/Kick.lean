import Rayfish.Mesh.KickSteps
import Rayfish.Mesh.Leave

/-!
# Kicks

A kick reads the rows of a user, removes them one by one and returns after a commit of the
roster; every section of others may run in between. It removes rows of that user only and
leaves none behind but those of later admissions, provided that nobody touches the rows in
question meanwhile and that no admission of the user is under way when the last row goes
(`kick_removes_user`). A device that was admitted on the word of the kicked user's seat
and takes its own seat after the removals stays: `device_outlives_kick`. The coordinator's
own row is never removed.
-/

namespace Rayfish

open Lib

variable {Hash : Type} {me : EndpointId} {v v' : OfficeView} {a : OfficeAct Hash}
  {out : OfficeOut Hash} {task : Nat} {candidate user : EndpointId}
  {left targets : Finset EndpointId}

/-! ## Whole kicks -/

/-- The section that looks up the user of the member to kick. -/
def KickResolves (task : Nat) (candidate user : EndpointId) (e : OfficeEntry Hash) : Prop :=
  e.before.users.resolve candidate = user ∧
    ∃ confirm, e.before.office.errands task = some (.kicking candidate confirm)

/-- The section that reads the targets, and finds no reason to refuse. -/
def KickReads (task : Nat) (candidate user : EndpointId) (targets : Finset EndpointId)
    (e : OfficeEntry Hash) : Prop :=
  ∃ env confirm, e.act = .advance task env ∧
    e.before.office.errands task = some (.targeting candidate user confirm) ∧
    e.after.office.errands task = some (.removing candidate user targets targets)

/-- The removal of the last target. -/
def KickRemovesLast (task : Nat) (candidate user : EndpointId) (targets : Finset EndpointId)
    (e : OfficeEntry Hash) : Prop :=
  ∃ id, e.act = .remove task id ∧
    e.before.office.errands task = some (.removing candidate user {id} targets)

/-- The commit of the roster without the targets. -/
def KickCommits (task : Nat) (candidate user : EndpointId) (targets : Finset EndpointId)
    (e : OfficeEntry Hash) : Prop :=
  ∃ env, e.act = .advance task env ∧
    e.before.office.errands task = some (.removing candidate user ∅ targets)

/-- A kick, from the section that resolves the user to the one before its return: `read`
finds the rows `targets`, `last` removes the last of them, and a commit follows. -/
structure Kick (task : Nat) (candidate user : EndpointId) (targets : Finset EndpointId)
    (resolved : OfficeEntry Hash) (wait : List (OfficeEntry Hash)) (read : OfficeEntry Hash)
    (during : List (OfficeEntry Hash)) (last : OfficeEntry Hash)
    (after : List (OfficeEntry Hash)) : Prop where
  resolves : KickResolves task candidate user resolved
  waits : ∀ e ∈ wait, e.act.task ≠ some task
  reads : KickReads task candidate user targets read
  running : ∀ e ∈ during ++ [last], ∀ env, e.act ≠ .advance task env
  removes : KickRemovesLast task candidate user targets last
  commits : ∃ e ∈ after, KickCommits task candidate user targets e

/-- What the history tells of a kick under way. -/
def KickTold (task : Nat) (h : List (OfficeEntry Hash)) : Errand → Prop
  | .targeting candidate user _ =>
    ∃ pre resolved wait, h = pre ++ resolved :: wait ∧ KickResolves task candidate user resolved ∧
      ∀ e ∈ wait, e.act.task ≠ some task
  | .removing candidate user left targets =>
    ∃ pre resolved wait read during, h = pre ++ resolved :: (wait ++ read :: during) ∧
      KickResolves task candidate user resolved ∧ (∀ e ∈ wait, e.act.task ≠ some task) ∧
      KickReads task candidate user targets read ∧
      (∀ e ∈ during, ∀ env, e.act ≠ .advance task env) ∧
      (left = ∅ → ∃ early last after, during = early ++ last :: after ∧
        KickRemovesLast task candidate user targets last)
  | .returning candidate user targets =>
    ∃ pre resolved wait read during last after,
      h = pre ++ resolved :: (wait ++ read :: (during ++ last :: after)) ∧
        Kick task candidate user targets resolved wait read during last after
  | _ => True

namespace KickTold

variable {h : List (OfficeEntry Hash)} {e : OfficeEntry Hash} {errand : Errand}

theorem snoc (told : KickTold task h errand) (other : e.act.task ≠ some task) :
    KickTold task (h ++ [e]) errand := by
  cases errand with
  | targeting candidate user confirm =>
    obtain ⟨pre, resolved, wait, rfl, resolves, waits⟩ := told
    refine ⟨pre, resolved, wait ++ [e], by simp, resolves, ?_⟩
    exact List.forall_mem_append.2 ⟨waits, List.forall_mem_singleton.2 other⟩
  | removing candidate user left targets =>
    obtain ⟨pre, resolved, wait, read, during, rfl, resolves, waits, reads, running, done⟩ := told
    refine ⟨pre, resolved, wait, read, during ++ [e], by simp, resolves, waits, reads, ?_, ?_⟩
    · refine List.forall_mem_append.2 ⟨running, List.forall_mem_singleton.2 fun env same => ?_⟩
      rw [same] at other
      exact other rfl
    · intro empty
      obtain ⟨early, last, after, rfl, removes⟩ := done empty
      exact ⟨early, last, after ++ [e], by simp, removes⟩
  | returning candidate user targets =>
    obtain ⟨pre, resolved, wait, read, during, last, after, rfl, kick⟩ := told
    obtain ⟨commit, member, commits⟩ := kick.commits
    exact ⟨pre, resolved, wait, read, during, last, after ++ [e], by simp,
      { kick with commits := ⟨commit, List.mem_append_left _ member, commits⟩ }⟩
  | _ => trivial

theorem step
    (told : ∀ errand, (e.before.view.slots task).errand = some errand → KickTold task h errand)
    (step : OfficeStep me e.before.view e.act e.out e.after.view)
    (held : (e.after.view.slots task).errand = some errand) : KickTold task (h ++ [e]) errand := by
  obtain ⟨s, a, out, s'⟩ := e
  cases errand with
  | targeting candidate user confirm =>
    cases step.kick_origin held rfl with
    | waits other before => exact (told _ before).snoc other
    | resolved before => exact ⟨h, _, [], rfl, ⟨rfl, _, before⟩, List.forall_mem_nil _⟩
  | removing candidate user left targets =>
    cases step.kick_origin held rfl with
    | waits other before => exact (told _ before).snoc other
    | read before nonempty =>
      obtain ⟨pre, resolved, wait, rfl, resolves, waits⟩ := told _ before
      exact ⟨pre, resolved, wait, _, [], List.append_assoc .., resolves, waits,
        ⟨_, _, rfl, before, held⟩, List.forall_mem_nil _, fun empty => absurd empty nonempty⟩
    | @removed _ _ left _ id before mem =>
      obtain ⟨pre, resolved, wait, read, during, rfl, resolves, waits, reads, running, done⟩ :=
        told _ before
      refine ⟨pre, resolved, wait, read, during ++ [⟨s, .remove task id, out, s'⟩], by simp,
        resolves, waits, reads, ?_, ?_⟩
      · exact List.forall_mem_append.2 ⟨running, List.forall_mem_singleton.2 nofun⟩
      · intro empty
        have one : left = {id} := by
          rw [← Finset.insert_erase mem, empty, insert_empty_eq]
        exact ⟨during, _, [], rfl, id, rfl, one ▸ before⟩
  | returning candidate user targets =>
    cases step.kick_origin held rfl with
    | waits other before => exact (told _ before).snoc other
    | committed before =>
      obtain ⟨pre, resolved, wait, read, during, rfl, resolves, waits, reads, running, done⟩ :=
        told _ before
      obtain ⟨early, last, after, rfl, removes⟩ := done rfl
      rw [List.append_cons, List.forall_mem_append] at running
      exact ⟨pre, resolved, wait, read, early, last, _, by simp; rfl, resolves, waits, reads,
        running.1, removes, _, mem_snoc, _, rfl, before⟩
  | _ => trivial

end KickTold

/-! ## Answers -/

def OfficeOut.kickedTargets : OfficeOut Hash → Option (Finset EndpointId)
  | .kicked targets => some targets
  | _ => none

theorem OfficeOut.eq_kicked (kicked : out.kickedTargets = some targets) :
    out = .kicked targets := by
  cases out with
  | kicked _ =>
    cases kicked
    rfl
  | _ => cases kicked

def OfficeOut.authorises : OfficeOut Hash → Bool
  | .desk (.authorised _) => true
  | _ => false

theorem SeatedAfresh.authorises {h : List (OfficeEntry Hash)} {id : EndpointId}
    (seated : SeatedAfresh h id) : ∃ e ∈ h, e.out.authorises = true := by
  obtain ⟨_, _, _, _, _, request, _, rfl, _, _, _, _, ⟨_, decision, _, _, rfl, _, out, _⟩⟩ := seated
  exact ⟨decision, by simp, by rw [out]; rfl⟩

/-! ## Runs -/

variable [DecidableEq Hash] {codec : GroupCodec Hash} {q p : Premises Hash}
  {h : List (OfficeEntry Hash)}

section

variable (run : Run (officeStep codec me) q h p)

include run

theorem sweeping_of_run (start : Sweeping q.view task candidate user targets targets)
    (running : ∀ e ∈ h, ∀ env, e.act ≠ .advance task env)
    (spares : ∀ e ∈ h, SparesTargets task candidate user e) :
    ∃ left, Sweeping p.view task candidate user targets left := by
  refine run.invariant (fun e member => And.intro (spares e member) (running e member))
    ⟨targets, start⟩ fun _ _ taken kept before => ?_
  obtain ⟨left, sweeping⟩ := before
  obtain ⟨left', sweeping, -⟩ := sweeping.step kept.1 kept.2 (OfficeAct.run_step taken)
  exact ⟨left', sweeping⟩

/-- Whatever else happens, a kick removes nothing but its targets. -/
theorem removing_of_run
    (start : (q.view.slots task).errand = some (.removing candidate user targets targets))
    (running : ∀ e ∈ h, ∀ env, e.act ≠ .advance task env) :
    ∃ left ⊆ targets,
      (p.view.slots task).errand = some (.removing candidate user left targets) := by
  refine run.invariant running ⟨targets, subset_rfl, start⟩ fun _ _ taken running before => ?_
  obtain ⟨left, part, held⟩ := before
  rcases (OfficeAct.run_step taken).removing held running with ⟨id, -, -, -, held⟩ | ⟨held, -⟩
  · exact ⟨left.erase id, (Finset.erase_subset _ _).trans part, held⟩
  · exact ⟨left, part, held⟩

/-- After the last removal, rows of the user are seated by admissions authorised since. -/
theorem settled_of_run (start : Sweeping q.view task candidate user targets ∅)
    (none : NoneUnderWay q.view candidate user) (owners : ∀ e ∈ h, KeepsOwners candidate user e) :
    Settled h p.view candidate user := by
  induction run with
  | nil =>
    refine ⟨fun row seated named => ?_, fun i request carries named => ?_,
      fun i phase held => ⟨fun named => ?_, fun row was named => ?_⟩⟩
    · exact absurd (start.rows row seated named) (Finset.notMem_empty _)
    · exact absurd named (none.requests i request carries)
    · exact absurd named (none.seats i phase held).1
    · exact absurd named ((none.seats i phase held).2 row was)
  | @snoc h s s' a out run taken ih =>
    rw [List.forall_mem_append] at owners
    have settled := ih owners.1
    have step : OfficeStep me s.view a out s'.view := OfficeAct.run_step taken
    exact ⟨fun row => settled.rows_step step (owners.2 _ (List.mem_singleton_self _)),
      fun i request => settled.requests_step (e := ⟨s, a, out, s'⟩) step,
      fun i phase => settled.seats_step (e := ⟨s, a, out, s'⟩) step⟩

end

/-- A kick that goes on has read a plan for the roster as it is. -/
theorem plan_of_read (held : p.office.errands task = some (.targeting candidate user confirm))
    (read : officeStep codec me p (.advance task env) out p')
    (planned : p'.office.errands task = some (.removing candidate user targets targets)) :
    KickPlan me p'.view.members candidate user targets := by
  rw [officeStep, OfficeAct.run_errand held, Premises.runErrand] at read
  rcases Premises.target_cases p.office me task candidate user confirm with
    ⟨_, -, refused⟩ | ⟨_, plan, moved⟩
  · rw [refused] at read
    cases read
    cases (Function.update_self ..).symm.trans planned
  · rw [moved] at read
    cases read
    cases (Function.update_self ..).symm.trans planned
    exact plan

theorem kickTold_of_run (run : Run (officeStep codec me) q h p)
    (fresh : q.office.idle task = true) (held : (p.view.slots task).errand = some errand) :
    KickTold task h errand := by
  induction run generalizing errand with
  | nil =>
    rw [Premises.view_idle fresh] at held
    cases held
  | snoc run taken ih => exact KickTold.step (fun _ => ih) (OfficeAct.run_step taken) held

/-- A kick removes rows of its user, of no coordinator and not the coordinator's own, and
leaves no row of the user but those of later admissions. -/
theorem Kick.removes_user {resolved read last returned : OfficeEntry Hash}
    {wait during after : List (OfficeEntry Hash)}
    (run : Run (officeStep codec me) q (read :: (during ++ last :: (after ++ [returned]))) p)
    {env' : Surroundings Hash} (returns : returned.act = .advance task env')
    (success : returned.out = .kicked targets)
    (kick : Kick task candidate user targets resolved wait read during last after) :
    (∀ e ∈ during ++ [last], ∀ id, e.act = .remove task id → id ≠ me) ∧
      ((∀ e ∈ during ++ [last], SparesTargets task candidate user e) →
        NoneUnderWay last.after.view candidate user →
        (∀ e ∈ after, KeepsOwners candidate user e) →
          (∀ e ∈ during ++ [last], RemovesPlain task candidate user e) ∧
          ∀ row ∈ returned.after.office.members.values, row.Of candidate user →
            SeatedAfresh after row.identity) := by
  obtain ⟨-, -, ⟨env, confirm, reads, targeting, planned⟩, running, ⟨id, removes, one⟩, -⟩ := kick
  obtain ⟨-, read_step, rest⟩ := run.split (List.nil_append _).symm
  obtain ⟨swept, last_step, rest⟩ := rest.split rfl
  obtain ⟨waited, returned_step, -⟩ := rest.split rfl
  rw [reads] at read_step
  have plan := plan_of_read targeting read_step planned
  have sweep : Run (officeStep codec me) read.after (during ++ [last]) last.after :=
    .snoc swept last_step
  refine ⟨fun e mem i removes => ?_, fun spares none owners => ⟨fun e mem => ?_, ?_⟩⟩
  · obtain ⟨h', part, before⟩ := sweep.before mem
    obtain ⟨left, sub, held⟩ := removing_of_run before planned fun e mem => running e (part mem)
    obtain ⟨target, -⟩ := removes_of_step (OfficeAct.run_step (sweep.entry_step mem)) held
      (running e mem) removes
    rintro rfl
    exact plan.others (sub target)
  · obtain ⟨h', part, before⟩ := sweep.before mem
    obtain ⟨left, sweeping⟩ := sweeping_of_run before (plan.sweeping planned)
      (fun e mem => running e (part mem)) fun e mem => spares e (part mem)
    exact sweeping.removesPlain (OfficeAct.run_step (sweep.entry_step mem)) (running e mem)
  · -- nothing is left after the last removal
    have last_mem : last ∈ during ++ [last] := mem_snoc
    obtain ⟨left, sweeping⟩ := sweeping_of_run swept (plan.sweeping planned)
      (fun e mem => running e (List.mem_append_left _ mem))
      fun e mem => spares e (List.mem_append_left _ mem)
    obtain ⟨left', sweeping', erased⟩ := sweeping.step (spares last last_mem)
      (running last last_mem) (OfficeAct.run_step last_step)
    have done : left' = ∅ := by
      cases sweeping.held.symm.trans one
      rw [erased id removes, Finset.erase_singleton]
    rw [done] at sweeping'
    have settled := settled_of_run waited sweeping' none owners
    intro row mem named
    have step := OfficeAct.run_step returned_step
    rw [returns, success] at step
    obtain ⟨_, _, held⟩ := step.kicked
    rcases (step.row_origin (KeyedMap.mem_values.1 mem)).named named with
      ⟨before, was, key, named⟩ | written
    · exact key ▸ settled.rows before was named
    · exact absurd written (written_returning held)

/-- Every kick that returns success is one that resolved its user, read its targets and
removed them all; and whatever it runs in between with, it never removes the coordinator's
own row. If, up to its last removal, no step writes a row of the user or under a target
still to go, nor takes such a target's certificate away; if no admission of the user is
under way when the last row goes; and if no hello makes another's row one of the user's
after that: then the rows it removes are the user's and no coordinator's, and every row of
the user in the roster when it returns was seated by an admission authorised after the
last removal. -/
theorem kick_removes_user {past : List (OfficeEntry Hash)} {returned : OfficeEntry Hash}
    {env : Surroundings Hash} (run : Run (officeStep codec me) q (past ++ [returned]) p)
    (fresh : q.office.idle task = true) (returns : returned.act = .advance task env)
    (success : returned.out = .kicked targets) :
    (∃ candidate user pre resolved wait read during last after,
      past = pre ++ resolved :: (wait ++ read :: (during ++ last :: after)) ∧
        Kick task candidate user targets resolved wait read during last after) ∧
    ∀ candidate user pre resolved wait read during last after,
      past = pre ++ resolved :: (wait ++ read :: (during ++ last :: after)) →
      Kick task candidate user targets resolved wait read during last after →
        (∀ e ∈ during ++ [last], ∀ id, e.act = .remove task id → id ≠ me) ∧
        ((∀ e ∈ during ++ [last], SparesTargets task candidate user e) →
          NoneUnderWay last.after.view candidate user →
          (∀ e ∈ after, KeepsOwners candidate user e) →
            (∀ e ∈ during ++ [last], RemovesPlain task candidate user e) ∧
            ∀ row ∈ returned.after.office.members.values, row.Of candidate user →
              SeatedAfresh after row.identity) := by
  constructor
  · obtain ⟨before, step, -⟩ := run.split rfl
    have step := OfficeAct.run_step step
    rw [returns, success] at step
    obtain ⟨candidate, user, held⟩ := step.kicked
    exact ⟨candidate, user, kickTold_of_run before fresh held⟩
  · rintro candidate user pre resolved wait read during last after rfl kick
    simp only [List.append_assoc, List.cons_append] at run
    obtain ⟨-, -, rest⟩ := run.split rfl
    obtain ⟨-, read_step, rest⟩ := rest.split rfl
    exact Kick.removes_user (rest.cons read_step) returns success kick

/-! ## Two kicks -/

/-- Member 2 is kicked while nothing else happens, and no row of it is left. -/
theorem kick_removes_user_alone :
    ∃ past returned p, Run (officeStep plainCodec 1) ownerOffice (past ++ [returned]) p ∧
      returned.out = .kicked {2} ∧
      ∀ row ∈ returned.after.office.members.values, ¬ row.Of 2 2 := by
  let kicking := officeAfter ownerOffice [.kick 0 2 true]
  let targeting := officeAfter kicking [.advance 0 calm]
  let removing := officeAfter targeting [.advance 0 calm]
  let removed := officeAfter removing [.remove 0 2]
  let committed := officeAfter removed [.advance 0 calm]
  let kicked := officeAfter committed [.advance 0 calm]
  obtain ⟨o₁, asked⟩ : ∃ o, officeStep plainCodec 1 ownerOffice (.kick 0 2 true) o kicking :=
    step_executed _ _ (by decide +kernel)
  obtain ⟨o₂, resolved⟩ : ∃ o, officeStep plainCodec 1 kicking (.advance 0 calm) o targeting :=
    step_executed _ _ (by decide +kernel)
  obtain ⟨o₃, read⟩ : ∃ o, officeStep plainCodec 1 targeting (.advance 0 calm) o removing :=
    step_executed _ _ (by decide +kernel)
  obtain ⟨o₄, last⟩ : ∃ o, officeStep plainCodec 1 removing (.remove 0 2) o removed :=
    step_executed _ _ (by decide +kernel)
  obtain ⟨o₅, commit⟩ : ∃ o, officeStep plainCodec 1 removed (.advance 0 calm) o committed :=
    step_executed _ _ (by decide +kernel)
  obtain ⟨out, returned⟩ : ∃ o, officeStep plainCodec 1 committed (.advance 0 calm) o kicked :=
    step_executed _ _ (by decide +kernel)
  have success : (OfficeAct.run plainCodec 1 committed (.advance 0 calm)).map
      (fun r => r.1.kickedTargets) = some (some {2}) := by decide +kernel
  have quiet : (OfficeAct.run plainCodec 1 removed (.advance 0 calm)).map
      (fun r => r.1.authorises) = some false := by decide +kernel
  rw [returned] at success
  rw [commit] at quiet
  have user : kicking.users.resolve 2 = 2 := by decide +kernel
  have begun : kicking.office.errands 0 = some (.kicking 2 true) := rfl
  have aimed : targeting.office.errands 0 = some (.targeting 2 2 true) := rfl
  have swept : removing.office.errands 0 = some (.removing 2 2 {2} {2}) := rfl
  have done : removed.office.errands 0 = some (.removing 2 2 ∅ {2}) := rfl
  have idle : ∀ i, (removed.view.slots i).task = none := fun _ => rfl
  clear_value kicking targeting removing removed committed kicked
  have run : Run (officeStep plainCodec 1) ownerOffice _ _ :=
    .snoc (.snoc (.snoc (.snoc (.snoc (.snoc .nil asked) resolved) read) last) commit) returned
  have out_eq : out = .kicked {2} := OfficeOut.eq_kicked (Option.some.inj success)
  refine ⟨_, _, _, run, out_eq, fun row mem named => ?_⟩
  have kick : Kick 0 2 2 {2} ⟨kicking, .advance 0 calm, o₂, targeting⟩ []
      ⟨targeting, .advance 0 calm, o₃, removing⟩ [] ⟨removing, .remove 0 2, o₄, removed⟩
      [⟨removed, .advance 0 calm, o₅, committed⟩] :=
    ⟨⟨user, true, begun⟩, List.forall_mem_nil _, ⟨calm, true, rfl, aimed, swept⟩,
      List.forall_mem_singleton.2 nofun, ⟨2, rfl, swept⟩, _, List.mem_singleton_self _, calm, rfl,
      done⟩
  have owners : KeepsOwners 2 2 ⟨removed, .advance 0 calm, o₅, committed⟩ := by
    rintro _ _ _ _ _ _ ⟨⟩ held
    cases done.symm.trans held
  have none : NoneUnderWay removed.view 2 2 := by
    refine ⟨fun i request carries => ?_, fun i phase held => ?_⟩
    · rw [OfficeView.Carries, idle] at carries
      rcases carries with held | ⟨_, held⟩ <;> cases held
    · rw [idle] at held
      cases held
  obtain ⟨_, rows⟩ := ((kick_removes_user run rfl rfl out_eq).2 2 2 [_] _ [] _ [] _ [_] rfl kick).2
    (List.forall_mem_singleton.2 ⟨nofun, nofun⟩) none (List.forall_mem_singleton.2 owners)
  obtain ⟨e, fresh, authorises⟩ := (rows row mem named).authorises
  cases List.mem_singleton.1 fresh
  cases (Option.some.inj quiet).symm.trans authorises

/-- Device 3 of member 2 has been admitted on the word of its user's seat, and member 2 is
being kicked: the kick has read its targets. -/
def sweptOffice : Premises GroupBlob :=
  officeAfter ownerOffice ((.receive 0 3 (.joinRequest none none (some ⟨certOf 2 3, true⟩)) ::
    sections 0 6) ++ .kick 1 2 true :: sections 1 2)

/-- Device 3 of member 2 is admitted on the word of its user's seat. Member 2 is kicked;
the device takes its seat before the kick returns, and stays. -/
theorem device_outlives_kick :
    ∃ pre last after returned p,
      Run (officeStep plainCodec 1) ownerOffice (pre ++ last :: (after ++ [returned])) p ∧
      last.act = .remove 1 2 ∧ returned.out = .kicked {2} ∧
      ∃ row ∈ returned.after.office.members.values,
        row.Of 2 2 ∧ ¬ SeatedAfresh after row.identity := by
  let swept := officeAfter sweptOffice [.remove 1 2]
  let seated := officeAfter swept (sections 0 3 ++ [.advance 1 calm])
  have early := run_executed (f := OfficeAct.run plainCodec 1) (s := ownerOffice)
    ((.receive 0 3 (.joinRequest none none (some ⟨certOf 2 3, true⟩)) :: sections 0 6) ++
      .kick 1 2 true :: sections 1 2) (by decide +kernel)
  obtain ⟨_, last⟩ := step_executed (f := OfficeAct.run plainCodec 1) sweptOffice (.remove 1 2)
    (by decide +kernel)
  have after := run_executed (f := OfficeAct.run plainCodec 1) (s := swept)
    (sections 0 3 ++ [.advance 1 calm]) (by decide +kernel)
  obtain ⟨out, returned⟩ := step_executed (f := OfficeAct.run plainCodec 1) seated
    (.advance 1 calm) (by decide +kernel)
  have success : out.kickedTargets = some {2} := by
    have kicked : (OfficeAct.run plainCodec 1 seated (.advance 1 calm)).map
        (fun r => r.1.kickedTargets) = some (some {2}) := by decide +kernel
    rw [returned] at kicked
    exact Option.some.inj kicked
  have quiet : ∀ e ∈ (executed (OfficeAct.run plainCodec 1) swept
      (sections 0 3 ++ [.advance 1 calm])).1, e.out.authorises = false := by
    decide +kernel
  have run := Run.snoc ((Run.snoc early last).append after) returned
  simp only [List.append_assoc, List.cons_append, List.nil_append] at run
  refine ⟨_, _, _, _, _, run, rfl, OfficeOut.eq_kicked success, ?_⟩
  have stays : (officeAfter seated [.advance 1 calm]).office.members.any
      (fun row => row.Of 2 2) = true := by
    decide +kernel
  obtain ⟨row, mem, named⟩ := KeyedMap.any_eq_true.1 stays
  refine ⟨row, KeyedMap.mem_values.2 mem, of_decide_eq_true named, fun fresh => ?_⟩
  obtain ⟨e, mem, authorises⟩ := fresh.authorises
  exact absurd ((quiet e mem).symm.trans authorises) nofun

end Rayfish
