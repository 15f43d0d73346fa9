import Rayfish.Mesh.OfficeSteps
import Rayfish.Mesh.UniqueNames

/-!
# The rows of an office

Where a row of the roster comes from. A step writes at most one row, `OfficeView.written`;
`OfficeStep.row_origin` says that every other row was there before, up to its name, its
last sign of life and a certificate that was revoked.
-/

namespace Rayfish

open Lib

variable {Hash : Type} {me : EndpointId} {v v' : OfficeView} {a : OfficeAct Hash}
  {out : OfficeOut Hash} {row : Member}

namespace OfficeView

/-- The row that a task's next section writes. -/
def writing (v : OfficeView) (env : Surroundings Hash) : Slot → Option Member
  | ⟨_, some (.recertifying id _ verified)⟩ =>
    (v.members.get id).map fun row => row.recertified verified
  | ⟨some (.validated request hostname), none⟩ => some (request.row hostname env)
  | ⟨some (.committing (.failed seat)), none⟩ =>
    if v.members.get seat.tentative.identity = some seat.tentative then seat.displaced else none
  | ⟨some (.committing (.retaining seat)), none⟩ => some seat.tentative
  | _ => none

/-- The row that a step writes. -/
def written (v : OfficeView) : OfficeAct Hash → Option Member
  | .advance task env => v.writing env (v.slots task)
  | _ => none

end OfficeView

/-- How a row came to be in the roster after a step. -/
inductive RowOrigin (v : OfficeView) (a : OfficeAct Hash) (row : Member) : Prop
  /-- It was there, and its certificate has not been revoked by this step. -/
  | kept (before : Member) (seated : v.members.get row.identity = some before)
      (coordinator : row.isCoordinator = before.isCoordinator)
      (user : row.userIdentity = before.userIdentity) (cert : row.deviceCert = before.deviceCert)
      (unrevoked : a.revokes ≠ some row.identity)
  | stripped (before : Member) (seated : v.members.get row.identity = some before)
      (revoked : a = .edit (.revokeDevice row.identity true)) (user : row.userIdentity = none)
      (cert : row.deviceCert = none)
  | written (written : v.written a = some row)

namespace RowOrigin

theorem unchanged (seated : v.members.get row.identity = some row)
    (unrevoked : a.revokes ≠ some row.identity) : RowOrigin v a row :=
  .kept row seated rfl rfl rfl unrevoked

/-- A row of the roster with one row written into it. -/
theorem of_insert (quiet : a.revokes = none) (written : v.written a = some new)
    (seated : (v.members.insert new).get row.identity = some row) : RowOrigin v a row := by
  rw [KeyedMap.get_insert] at seated
  split at seated
  · cases seated
    exact .written written
  · exact .unchanged seated (by rw [quiet]; nofun)

theorem of_erase {id : EndpointId} (quiet : a.revokes = none ∨ a.revokes = some id)
    (seated : (v.members.erase id).get row.identity = some row) : RowOrigin v a row := by
  rw [KeyedMap.get_erase] at seated
  split at seated
  · cases seated
  · next other =>
    refine .unchanged seated ?_
    rcases quiet with quiet | quiet
    · rw [quiet]
      nofun
    · rw [quiet]
      exact fun same => other (Option.some.inj same).symm

/-- A row of the roster after an edit in place that leaves user and certificate alone. -/
theorem of_modify {id : EndpointId} {f : Member → Member} (quiet : a.revokes = none)
    (seated : (v.members.modify id f).get row.identity = some row)
    (same : ∀ m, (f m).identity = m.identity)
    (coordinator : ∀ m, (f m).isCoordinator = m.isCoordinator)
    (user : ∀ m, (f m).userIdentity = m.userIdentity)
    (cert : ∀ m, (f m).deviceCert = m.deviceCert) : RowOrigin v a row := by
  have unrevoked : a.revokes ≠ some row.identity := by rw [quiet]; nofun
  rw [KeyedMap.get_modify same] at seated
  split at seated
  · next eq =>
    obtain ⟨before, held, rfl⟩ := Option.map_eq_some_iff.mp seated
    rw [← eq] at held
    exact .kept before held (coordinator _) (user _) (cert _) unrevoked
  · exact .unchanged seated unrevoked

/-- The certificate of a revoked device is gone, with its row or alone. -/
theorem of_revoke
    (seated : (revokeCertificateFromRoster v.members target independent).2.get row.identity =
      some row) :
    RowOrigin v (.edit (.revokeDevice target independent) : OfficeAct Hash) row := by
  cases independent with
  | false => exact of_erase (.inr rfl) seated
  | true =>
    unfold revokeCertificateFromRoster at seated
    rw [if_pos rfl] at seated
    rw [KeyedMap.get_modify (by exact fun _ => rfl)] at seated
    split at seated
    · next eq =>
      obtain ⟨before, held, rfl⟩ := Option.map_eq_some_iff.mp seated
      rw [← eq] at held ⊢
      exact .stripped before held rfl rfl rfl
    · next other =>
      exact .unchanged seated fun same => other (Option.some.inj same).symm

end RowOrigin

/-! ## Which row a section writes -/

namespace OfficeView

variable {task : Nat} {env : Surroundings Hash}

theorem written_recertifying {id : EndpointId} {hostname : Option Name}
    {verified : Option DeviceCert} {before : Member}
    (held : (v.slots task).errand = some (.recertifying id hostname verified))
    (seated : v.members.get id = some before) :
    v.written (.advance task env) = some (before.recertified verified) := by
  obtain ⟨t, e, at_task⟩ : ∃ t e, v.slots task = ⟨t, e⟩ := ⟨_, _, rfl⟩
  rw [at_task] at held
  cases held
  rw [written, at_task, writing, seated, Option.map_some]

theorem written_desk (free : (v.slots task).errand = none) (held : (v.slots task).task = some t) :
    v.written (.advance task env) = v.writing env ⟨some t, none⟩ := by
  rw [written, ← free, ← held]

theorem written_failed (free : (v.slots task).errand = none)
    (held : (v.slots task).task = some (.committing (.failed seat)))
    (ours : v.members.get seat.tentative.identity = some seat.tentative) :
    v.written (.advance task env) = seat.displaced := by
  rw [written_desk free held, writing, if_pos ours]

end OfficeView

/-- The sections that write a row. -/
inductive Writes (v : OfficeView) : OfficeAct Hash → Member → Prop
  | recertified {id : EndpointId}
      (held : (v.slots task).errand = some (.recertifying id hostname verified))
      (seated : v.members.get id = some before) :
      Writes v (.advance task env) (before.recertified verified)
  | seated (free : (v.slots task).errand = none)
      (held : (v.slots task).task = some (.validated request hostname)) :
      Writes v (.advance task env) (request.row hostname env)
  | restored {row : Member} (free : (v.slots task).errand = none)
      (held : (v.slots task).task = some (.committing (.failed seat)))
      (ours : v.members.get seat.tentative.identity = some seat.tentative)
      (displaced : seat.displaced = some row) : Writes v (.advance task env) row
  | retained (free : (v.slots task).errand = none)
      (held : (v.slots task).task = some (.committing (.retaining seat))) :
      Writes v (.advance task env) seat.tentative

theorem OfficeView.writes_of_written (written : v.written a = some row) : Writes v a row := by
  cases a with
  | advance task env =>
    rw [OfficeView.written] at written
    unfold OfficeView.writing at written
    split at written
    · next at_task =>
      obtain ⟨before, seated, rfl⟩ := Option.map_eq_some_iff.mp written
      exact .recertified (congrArg Slot.errand at_task) seated
    · next at_task =>
      cases written
      exact .seated (congrArg Slot.errand at_task) (congrArg Slot.task at_task)
    · next at_task =>
      obtain ⟨ours, displaced⟩ := Option.ite_none_right_eq_some.mp written
      exact .restored (congrArg Slot.errand at_task) (congrArg Slot.task at_task) ours displaced
    · next at_task =>
      cases written
      exact .retained (congrArg Slot.errand at_task) (congrArg Slot.task at_task)
    · cases written
  | _ => cases written

/-- Every row of the roster after a step was there before or is the one written. -/
theorem OfficeStep.row_origin (step : OfficeStep me v a out v')
    (seated : v'.members.get row.identity = some row) : RowOrigin v a row := by
  cases step with
  | keeps quiet apart plain => exact .unchanged seated (by rw [quiet]; nofun)
  | refuses idle plain | walks walk | presents idle secret hostname | greets idle hostname
  | accepts idle entry plain | kicks idle | departs idle | certifies held | binds held | rebinds
  | lifts => exact .unchanged seated nofun
  | recertifies held before changed =>
    exact .of_insert rfl (OfficeView.written_recertifying held before) seated
  | renames held | stamps =>
    exact .of_modify rfl seated (fun _ => rfl) (fun _ => rfl) (fun _ => rfl) fun _ => rfl
  | seats free held tentative displaced =>
    exact .of_insert rfl (OfficeView.written_desk free held) seated
  | rollsBack free held restored =>
    obtain ⟨ours, restored⟩ := Option.ite_none_right_eq_some.mp restored
    split at restored
    · next displaced =>
      cases restored
      exact .of_insert rfl ((OfficeView.written_failed free held ours).trans displaced) seated
    · cases restored
      exact .of_erase (.inl rfl) seated
  | retains free held => exact .of_insert rfl (OfficeView.written_desk free held) seated
  | removes held mem | leaves held | prunes => exact .of_erase (.inl rfl) seated
  | revokes => exact .of_revoke seated

/-! ## Tasks -/

theorem OfficeView.slots_setSlot_of_ne (ne : some task ≠ some i) (slot : Slot) :
    (v.setSlot task slot).slots i = v.slots i := by
  rw [slots_setSlot, if_neg fun same => ne (congrArg some same.symm)]

/-- A step leaves the other tasks alone. -/
theorem OfficeStep.slots_eq (step : OfficeStep me v a out v') (other : a.task ≠ some i) :
    v'.slots i = v.slots i := by
  cases step with
  | keeps quiet apart plain | refuses idle plain | rebinds | stamps | revokes | prunes | lifts =>
    rfl
  | walks walk | presents idle secret hostname | greets idle hostname | accepts idle entry plain
  | kicks idle | departs idle | certifies held | binds held | recertifies held before changed
  | renames held | seats free held tentative displaced | rollsBack free held restored
  | retains free held | removes held mem | leaves held =>
    exact OfficeView.slots_setSlot_of_ne other _

abbrev OfficeEntry (Hash : Type) := Entry (Premises Hash) (OfficeAct Hash) (OfficeOut Hash)

/-- A task waits while a history has no step of it. -/
theorem slots_of_run [DecidableEq Hash] {codec : GroupCodec Hash} {p₀ p : Premises Hash}
    {h : List (OfficeEntry Hash)} (run : Run (officeStep codec me) p₀ h p) {task : Nat}
    (waits : ∀ e ∈ h, e.act.task ≠ some task) : p.view.slots task = p₀.view.slots task := by
  refine run.invariant waits rfl fun _ _ taken other before => ?_
  exact ((OfficeAct.run_step taken).slots_eq other).trans before

/-! ## An office with nothing in flight -/

/-- Node 1 keeps a closed network of which `group` is published, and has seen no device. -/
def closedOffice (group : GroupBlob) : Premises GroupBlob where
  users := fun _ => none
  office :=
    { desk :=
        { node :=
            { net := ⟨group, some group, false, some group, none, true, none⟩
              config := some ⟨none, some group, true, none⟩
              blobs := {group} }
          mode := .restricted
          pending := ∅
          invites := []
          lock := none
          tasks := fun _ => none }
      errands := fun _ => none }

/-- The certificate of device `device` under `user`. -/
def certOf (user device : EndpointId) : DeviceCert := ⟨user, device, 0⟩

/-- Task `task` runs its next `n` sections. -/
def sections (task n : Nat) : List (OfficeAct GroupBlob) := List.replicate n (.advance task calm)

/-- The office after some actions. -/
def officeAfter (p : Premises GroupBlob) (acts : List (OfficeAct GroupBlob)) : Premises GroupBlob :=
  (executed (OfficeAct.run plainCodec 1) p acts).2

end Rayfish
