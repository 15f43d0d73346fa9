import Rayfish.Mesh.OfficeRows

/-!
# Leaving

A leave comes from a device and removes the row of the user the device stands for. The
device's own row is the one that goes just when the device stands for itself
(`leave_own_row_iff`). A device that joined with its user's certificate takes the user's
row with it and keeps its own: `leave_takes_user`.
-/

namespace Rayfish

open Lib

variable {Hash : Type}

/-- The section of a leave that edits the roster removes the row under the name it goes by. -/
theorem Office.get_leave {s : Office Hash} {task : Nat} {id i : EndpointId} {closed : Bool} :
    (s.leave task id closed).2.members.get i = if i = id then none else s.members.get i := by
  unfold leave
  split
  · next absent =>
    split
    · next same => exact same ▸ absent.2
    · rfl
  · exact KeyedMap.get_erase ..

/-- Removing the row of `id` removes just the row of `peer` if the two are one, or neither
is there. -/
theorem get_ite_eq_iff {members : MemberList} {id peer : EndpointId} :
    (∀ i, (if i = id then none else members.get i) = if i = peer then none else members.get i) ↔
      id = peer ∨ members.get peer = none ∧ members.get id = none := by
  constructor
  · intro same
    by_cases eq : id = peer
    · exact .inl eq
    · have at_peer := same peer
      have at_id := same id
      rw [if_neg (Ne.symm eq), if_pos rfl] at at_peer
      rw [if_pos rfl, if_neg eq] at at_id
      exact .inr ⟨at_peer, at_id.symm⟩
  · rintro (rfl | ⟨at_peer, at_id⟩) i
    · rfl
    · split
      · next same => rw [same, at_id, ite_self]
      · split
        · next same => rw [same, at_peer]
        · rfl

variable [DecidableEq Hash] {codec : GroupCodec Hash} {me : EndpointId}

/-- The section of `task` that follows a leave. -/
theorem leave_pruned {p p' : Premises Hash} {out : OfficeOut Hash} {task : Nat}
    {env : Surroundings Hash} {id : EndpointId} {closed : Bool}
    (held : p.office.errands task = some (.leaving id closed))
    (pruned : officeStep codec me p (.advance task env) out p') (i : EndpointId) :
    p'.office.members.get i = if i = id then none else p.office.members.get i := by
  rw [officeStep, OfficeAct.run_errand held] at pruned
  obtain ⟨-, pruned⟩ := Option.ite_none_right_eq_some.mp pruned
  cases pruned
  exact Office.get_leave

theorem leave_asked (asked : officeStep codec me p (.leave task peer closed) out p') :
    p'.view.slots task = ⟨none, some (.leaving (p.users.resolve peer) closed)⟩ := by
  obtain ⟨idle, asked⟩ := Option.ite_none_right_eq_some.mp asked
  cases asked
  exact congrArg₂ Slot.mk (Office.idle_iff.1 idle).2 (Function.update_self ..)

/-- A leave of `peer`, in-band or by closing the connection, takes the row under `peer`'s
own key and no other, if and only if the device-user map resolves `peer` to itself, or
neither `peer` nor the user it resolves to is seated. -/
theorem leave_own_row_iff {p₀ p : Premises Hash} {pre mid post : List (OfficeEntry Hash)}
    {asked pruned : OfficeEntry Hash}
    (run : Run (officeStep codec me) p₀ (pre ++ asked :: (mid ++ pruned :: post)) p) {task : Nat}
    {peer : EndpointId} {closed : Bool} {env : Surroundings Hash}
    (asks : asked.act = .leave task peer closed) (waits : ∀ e ∈ mid, e.act.task ≠ some task)
    (prunes : pruned.act = .advance task env) :
    (∀ i, pruned.after.office.members.get i =
        if i = peer then none else pruned.before.office.members.get i) ↔
      asked.before.users.resolve peer = peer ∨
        pruned.before.office.members.get peer = none ∧
          pruned.before.office.members.get (asked.before.users.resolve peer) = none := by
  obtain ⟨-, asked_step, rest⟩ := run.split rfl
  obtain ⟨waited, pruned_step, -⟩ := rest.split rfl
  rw [asks] at asked_step
  rw [prunes] at pruned_step
  have held := (slots_of_run waited waits).trans (leave_asked asked_step)
  have removed := leave_pruned (congrArg Slot.errand held) pruned_step
  simp only [removed]
  exact get_ite_eq_iff

/-! ## Two leaves -/

/-- Node 1's network has the member 2, which has a device 3. -/
def ownerOffice : Premises GroupBlob := closedOffice pairGroup

/-- Device 3 joins with its user's certificate and is seated. -/
def deviceJoins : List (OfficeAct GroupBlob) :=
  .receive 0 3 (.joinRequest none none (some ⟨certOf 2 3, true⟩)) :: sections 0 9

/-- Member 2, which has no other devices, leaves: its row goes and no other. -/
theorem leave_own_row_member :
    ∃ p asked pruned,
      Run (officeStep plainCodec 1) ownerOffice ([] ++ asked :: ([] ++ [pruned])) p ∧
      asked.act = .leave 0 2 false ∧ pruned.act = .advance 0 calm ∧
      pruned.before.office.members.isMember 2 = true ∧
      ∀ i, pruned.after.office.members.get i =
        if i = 2 then none else pruned.before.office.members.get i := by
  obtain ⟨_, asked⟩ := step_executed (f := OfficeAct.run plainCodec 1) ownerOffice
    (.leave 0 2 false) (by decide +kernel)
  obtain ⟨_, pruned⟩ := step_executed (f := OfficeAct.run plainCodec 1)
    (officeAfter ownerOffice [.leave 0 2 false]) (.advance 0 calm) (by decide +kernel)
  have seated : (officeAfter ownerOffice [.leave 0 2 false]).office.members.isMember 2 = true := by
    decide +kernel
  have run : Run (officeStep plainCodec 1) ownerOffice
      ([] ++ ⟨_, .leave 0 2 false, _, _⟩ :: ([] ++ [⟨_, .advance 0 calm, _, _⟩])) _ :=
    .snoc (.snoc .nil asked) pruned
  have itself : ownerOffice.users.resolve 2 = 2 := rfl
  have left := (leave_own_row_iff run rfl (List.forall_mem_nil _) rfl).mpr (.inl itself)
  exact ⟨_, _, _, run, rfl, rfl, seated, left⟩

/-- Device 3 leaves: the row of its user is gone, its own stays. -/
theorem leave_takes_user :
    ∃ p pre asked pruned,
      Run (officeStep plainCodec 1) ownerOffice (pre ++ asked :: ([] ++ [pruned])) p ∧
      asked.act = .leave 0 3 false ∧ pruned.act = .advance 0 calm ∧
      pruned.before.office.members.isMember 2 = true ∧
      pruned.before.office.members.isMember 3 = true ∧
      pruned.after.office.members.isMember 2 = false ∧
      pruned.after.office.members.isMember 3 = true := by
  have joins := run_executed (f := OfficeAct.run plainCodec 1) (s := ownerOffice) deviceJoins
    (by decide +kernel)
  let asking := officeAfter ownerOffice deviceJoins
  let leaving := officeAfter asking [.leave 0 3 false]
  obtain ⟨_, asked⟩ := step_executed (f := OfficeAct.run plainCodec 1) asking (.leave 0 3 false)
    (by decide +kernel)
  obtain ⟨_, pruned⟩ := step_executed (f := OfficeAct.run plainCodec 1) leaving (.advance 0 calm)
    (by decide +kernel)
  have before : leaving.office.members.isMember 2 = true ∧
      leaving.office.members.isMember 3 = true := by
    decide +kernel
  have after : (officeAfter leaving [.advance 0 calm]).office.members.isMember 2 = false ∧
      (officeAfter leaving [.advance 0 calm]).office.members.isMember 3 = true := by
    decide +kernel
  have run := Run.snoc (Run.snoc joins asked) pruned
  rw [List.append_assoc] at run
  exact ⟨_, _, _, _, run, rfl, rfl, before.1, before.2, after.1, after.2⟩

end Rayfish
