import Rayfish.Mesh.OfficeRows

/-!
# Revocation against admission

A certificate is checked against the nullifiers when it is presented and written into a
row in a later section, and a revocation needs neither of the locks in between. So a row
with a nullified certificate appears exactly when a section writes one
(`unrevoked_rows_iff`), and none does if no admission or hello is under way with the
certificate of a device while that device is revoked. The gap is real:
`revoked_while_joining`.
-/

namespace Rayfish

open Lib

variable {Hash : Type} {me : EndpointId} {v v' : OfficeView} {a : OfficeAct Hash}
  {out : OfficeOut Hash}

/-! ## Certificates under way -/

section

variable (id : EndpointId) (cert : DeviceCert)

/-- The row carries `cert` and stands under `id`. -/
def Member.Holds (row : Member) : Prop := row.identity = id ∧ row.deviceCert = some cert

def Errand.Holds : Errand → Prop
  | .certified peer _ _ presented => peer = id ∧ presented = cert
  | .joining peer _ _ presented _ => peer = id ∧ presented = some cert
  | .recertifying peer _ verified => peer = id ∧ verified = some cert
  | _ => False

def Seat.Holds (seat : Seat) : Prop :=
  seat.tentative.Holds id cert ∨ ∃ row, seat.displaced = some row ∧ row.Holds id cert

def AcceptTask.Holds : AcceptTask → Prop
  | .admitting request | .validated request _ =>
    request.remoteId = id ∧ request.deviceCert = some cert
  | .committing phase => phase.seat.Holds id cert
  | _ => False

/-- The task may yet write `cert` into the row of `id`, or put it back there. -/
def Slot.Holds (slot : Slot) : Prop :=
  (∃ t, slot.task = some t ∧ t.Holds id cert) ∨ ∃ e, slot.errand = some e ∧ e.Holds id cert

end

variable {id : EndpointId} {cert : DeviceCert}

namespace Slot.Holds

variable {slot : Slot}

/-- The errand has changed. -/
theorem errand (holds : Slot.Holds id cert { slot with errand := some e }) :
    slot.Holds id cert ∨ e.Holds id cert := by
  rcases holds with task | ⟨e, same, holds⟩
  · exact .inl (.inl task)
  · cases same
    exact .inr holds

theorem no_errand (holds : Slot.Holds id cert { slot with errand := none }) :
    slot.Holds id cert := by
  rcases holds with task | ⟨e, absent, -⟩
  · exact .inl task
  · cases absent

/-- Nothing but a task at the desk. -/
theorem task (free : e = none) (holds : Slot.Holds id cert ⟨some t, e⟩) : t.Holds id cert := by
  rcases holds with ⟨t, same, holds⟩ | ⟨e, held, -⟩
  · cases same
    exact holds
  · exact absurd (free.symm.trans held) nofun

theorem only (holds : Slot.Holds id cert ⟨none, some e⟩) : e.Holds id cert := by
  rcases holds with ⟨t, absent, -⟩ | ⟨e, same, holds⟩
  · cases absent
  · cases same
    exact holds

theorem idle (free : e = none) : ¬ Slot.Holds id cert ⟨none, e⟩ := by
  rintro (⟨t, absent, -⟩ | ⟨e, held, -⟩)
  · cases absent
  · exact absurd (free.symm.trans held) nofun

end Slot.Holds

/-- A walk takes up a certificate only after its checks. -/
theorem Walk.holds (walk : Walk me v out slot slot') (holds : slot'.Holds id cert) :
    slot.Holds id cert ∨ cert.deviceKey = id ∧ cert.deviceKey ∉ v.nullifiers := by
  cases walk with
  | ends plain | kicked held => exact .inl holds.no_errand
  | presents held => exact .inl (holds.errand.resolve_right fun absent => nomatch absent.2)
  | certifies held own live =>
    rcases holds.errand with before | ⟨rfl, rfl⟩
    · exact .inl before
    · exact .inr ⟨own, live⟩
  | asks held next =>
    rcases holds.errand with before | same
    · exact .inl before
    · exact .inl (.inr ⟨_, held, same⟩)
  | reconnects held | names held final renamed | closes held | resolves held | targets held plan
  | swept held =>
    exact .inl (holds.errand.resolve_right fun absent => absent)
  | authorises held peer same =>
    obtain ⟨rfl, presented⟩ := holds.task rfl
    exact .inl (.inr ⟨_, held, peer.symm, same.symm.trans presented⟩)
  | greets held plain => exact (holds.task rfl).elim
  | verifies held own =>
    rcases holds.errand with before | ⟨rfl, verified⟩
    · exact .inl before
    · exact .inr (own _ verified).2
  | admits free held hostname plain =>
    have holds := holds.task free
    exact .inl (.inl ⟨_, held, holds⟩)
  | commits free held same plain =>
    have holds : Seat.Holds id cert _ := holds.task free
    rw [same] at holds
    exact .inl (.inl ⟨_, held, holds⟩)
  | denies free burned plain | welcomes free held plain => exact (holds.task free).elim
  | finishes free plain => exact (Slot.Holds.idle free holds).elim
  | enters free held => exact holds.only.elim

/-- The certificate was checked just now, or is one of the roster's. -/
def Vouched (v : OfficeView) (id : EndpointId) (cert : DeviceCert) : Prop :=
  (cert.deviceKey = id ∧ cert.deviceKey ∉ v.nullifiers) ∨
    ∃ row, v.members.get id = some row ∧ row.deviceCert = some cert

/-- Only the certificates of the slot that is set need looking at. -/
theorem holds_setSlot {v₁ : OfficeView} {task i : Nat} {slot : Slot} (quiet : a.revokes = none)
    (same : v₁.slots = v.slots) (holds : ((v₁.setSlot task slot).slots i).Holds id cert)
    (new : slot.Holds id cert → (v.slots task).Holds id cert ∨ Vouched v id cert) :
    (v.slots i).Holds id cert ∨ a.revokes = none ∧ Vouched v id cert := by
  rw [OfficeView.slots_setSlot, same] at holds
  split at holds
  · next eq => exact eq ▸ (new holds).imp_right fun vouched => ⟨quiet, vouched⟩
  · exact .inl holds

/-- A task takes up a certificate that has been checked, or the one of a row it displaces. -/
theorem OfficeStep.holds (step : OfficeStep me v a out v') {i : Nat}
    (holds : (v'.slots i).Holds id cert) :
    (v.slots i).Holds id cert ∨ a.revokes = none ∧ Vouched v id cert := by
  cases step with
  | keeps quiet apart plain | refuses idle plain | rebinds | stamps | revokes | prunes | lifts =>
    exact .inl holds
  | walks walk => exact holds_setSlot rfl rfl holds fun now => (walk.holds now).imp_right .inl
  | presents idle secret hostname | greets idle hostname | kicks idle | departs idle =>
    exact holds_setSlot rfl rfl holds fun now => now.only.elim
  | accepts idle entry plain => exact holds_setSlot rfl rfl holds fun now => (now.task rfl).elim
  | certifies held =>
    refine holds_setSlot rfl (by rfl) holds fun now => .inl ?_
    rcases now.errand with before | ⟨rfl, same⟩
    · exact before
    · exact .inr ⟨_, held, rfl, Option.some.inj same⟩
  | binds held =>
    refine holds_setSlot rfl (by rfl) holds fun now => .inl ?_
    refine now.errand.resolve_right ?_
    unfold Office.claim
    split
    · exact fun absent => absent
    · exact fun absent => absent
  | recertifies held before changed | renames held | removes held mem | leaves held =>
    exact holds_setSlot rfl (by rfl) holds fun now =>
      .inl (now.errand.resolve_right fun absent => absent)
  | seats free held tentative displaced =>
    refine holds_setSlot rfl (by rfl) holds fun now => ?_
    have seat : Seat.Holds id cert _ := now.task rfl
    rcases seat with own | ⟨row, was, rfl, carried⟩
    · have own : Member.Holds id cert _ := tentative ▸ own
      exact .inl (.inl ⟨_, held, own⟩)
    · have seated := displaced.symm.trans was
      have same : row.identity = _ := KeyedMap.key_get seated
      rw [← same] at seated
      exact .inr (.inr ⟨row, seated, carried⟩)
  | rollsBack free held restored | retains free held =>
    refine holds_setSlot rfl (by rfl) holds fun now => .inl (.inl ⟨_, held, ?_⟩)
    exact (now.task rfl : Seat.Holds id cert _)

/-! ## One step -/

/-- Every certificate is its bearer's own. -/
structure OfficeView.Own (v : OfficeView) : Prop where
  rows : ∀ row cert, v.members.get row.identity = some row → row.deviceCert = some cert →
    cert.deviceKey = row.identity
  held : ∀ i id cert, (v.slots i).Holds id cert → cert.deviceKey = id

/-- No row carries a nullified certificate. -/
def OfficeView.Unrevoked (v : OfficeView) : Prop :=
  ∀ row cert, v.members.get row.identity = some row → row.deviceCert = some cert →
    cert.deviceKey ∉ v.nullifiers

theorem Vouched.live (vouched : Vouched v id cert) (clean : v.Unrevoked) :
    cert.deviceKey ∉ v.nullifiers := by
  rcases vouched with ⟨-, live⟩ | ⟨row, seated, carried⟩
  · exact live
  · have key : row.identity = id := KeyedMap.key_get seated
    exact clean row cert (key.symm ▸ seated) carried

theorem OfficeView.written_holds (written : v.written a = some row)
    (carried : row.deviceCert = some cert) : ∃ i, (v.slots i).Holds row.identity cert := by
  cases OfficeView.writes_of_written written with
  | recertified held seated =>
    have same : Member.identity _ = _ := KeyedMap.key_get seated
    exact ⟨_, .inr ⟨_, held, same.symm, carried⟩⟩
  | seated free held => exact ⟨_, .inl ⟨_, held, rfl, carried⟩⟩
  | restored free held ours displaced =>
    exact ⟨_, .inl ⟨_, held, .inr ⟨row, displaced, rfl, carried⟩⟩⟩
  | retained free held => exact ⟨_, .inl ⟨_, held, .inl ⟨rfl, carried⟩⟩⟩

theorem OfficeStep.own (step : OfficeStep me v a out v') (own : v.Own) : v'.Own where
  rows row cert seated carried := by
    cases step.row_origin seated with
    | kept before was _ _ same _ =>
      have key : before.identity = row.identity := KeyedMap.key_get was
      rw [← key] at was
      exact (own.rows before cert was (same ▸ carried)).trans key
    | stripped _ _ _ _ none => exact absurd (none.symm.trans carried) nofun
    | written written =>
      obtain ⟨i, holds⟩ := OfficeView.written_holds written carried
      exact own.held i _ _ holds
  held i id cert holds := by
    rcases step.holds holds with before | ⟨-, ⟨key, -⟩ | ⟨row, seated, carried⟩⟩
    · exact own.held i _ _ before
    · exact key
    · have key : row.identity = id := KeyedMap.key_get seated
      rw [← key] at seated
      exact (own.rows row cert seated carried).trans key

/-- A key is nullified by its revocation only. -/
theorem OfficeStep.mem_nullifiers (step : OfficeStep me v a out v')
    (nullified : key ∈ v'.nullifiers) : key ∈ v.nullifiers ∨ a.revokes = some key := by
  cases step with
  | revokes =>
    rcases Finset.mem_insert.1 nullified with rfl | before
    · exact .inr rfl
    · exact .inl before
  | lifts => exact .inl (Finset.mem_of_mem_erase nullified)
  | _ => exact .inl nullified

theorem OfficeAct.revokes_of_written (written : v.written a = some row) : a.revokes = none := by
  cases OfficeView.writes_of_written written with
  | _ => rfl

/-- Rows stay unrevoked under a step that writes no revoked one. -/
theorem OfficeStep.unrevoked (step : OfficeStep me v a out v') (own : v.Own) (clean : v.Unrevoked)
    (writes : ∀ row ∈ v.written a, ∀ cert ∈ row.deviceCert, cert.deviceKey ∉ v.nullifiers) :
    v'.Unrevoked := by
  intro row cert seated carried nullified
  have nullified := step.mem_nullifiers nullified
  cases step.row_origin seated with
  | kept before was _ _ same unrevoked =>
    have key : before.identity = row.identity := KeyedMap.key_get was
    rw [← key] at was unrevoked
    rw [same] at carried
    rcases nullified with before | revoked
    · exact clean _ cert was carried before
    · exact unrevoked (own.rows _ cert was carried ▸ revoked)
  | stripped _ _ _ _ none => exact absurd (none.symm.trans carried) nofun
  | written written =>
    rcases nullified with before | revoked
    · exact writes row written cert carried before
    · exact absurd ((OfficeAct.revokes_of_written written).symm.trans revoked) nofun

/-! ## Runs -/

/-- No row of the group carries a certificate that the group nullifies. -/
def GroupBlob.Unrevoked (group : GroupBlob) : Prop :=
  ∀ row ∈ group.members.values, ∀ cert ∈ row.deviceCert, cert.deviceKey ∉ group.nullifiers

theorem Premises.unrevoked_iff {p : Premises Hash} :
    p.view.Unrevoked ↔ p.office.group.Unrevoked := by
  simp only [OfficeView.Unrevoked, GroupBlob.Unrevoked, KeyedMap.mem_values]
  constructor
  · intro clean row seated cert carried
    exact clean row cert seated carried
  · intro clean row cert seated carried
    exact clean row seated cert carried

/-- An office that opens: nothing is under way, every certificate in the roster is its
bearer's own, and none is nullified. -/
structure Premises.Opening (p : Premises Hash) : Prop where
  idle : ∀ task, p.office.idle task = true
  own : ∀ row ∈ p.office.members.values, ∀ cert ∈ row.deviceCert, cert.deviceKey = row.identity
  clean : p.office.group.Unrevoked

theorem Premises.Opening.view_own {p : Premises Hash} (opening : p.Opening) : p.view.Own where
  rows row cert seated carried := opening.own row (KeyedMap.mem_values.2 seated) cert carried
  held i id cert holds := by
    rw [Premises.view_idle (opening.idle i)] at holds
    exact (Slot.Holds.idle rfl holds).elim

variable [DecidableEq Hash] {codec : GroupCodec Hash} {p₀ p p' : Premises Hash}
  {h : List (OfficeEntry Hash)}

/-- The row that a step writes is in the roster after it. -/
theorem OfficeAct.written_seated (ran : officeStep codec me p a out p')
    (written : p.view.written a = some row) :
    p'.view.members.get row.identity = some row ∧ p'.view.nullifiers = p.view.nullifiers := by
  cases OfficeView.writes_of_written written with
  | recertified held seated =>
    rw [officeStep, OfficeAct.run_errand held, Premises.runErrand, Office.recertify] at ran
    rw [show p.office.members.get _ = some _ from seated] at ran
    cases ran
    exact ⟨KeyedMap.get_insert_self .., rfl⟩
  | seated free held | retained free held =>
    obtain ⟨r, advanced, -, rfl⟩ := Premises.advanced_of_step free held rfl ran
    obtain ⟨-, same⟩ := Option.ite_none_right_eq_some.mp advanced
    cases same
    exact ⟨KeyedMap.get_insert_self .., rfl⟩
  | @restored task seat env _ free held ours displaced =>
    obtain ⟨r, advanced, -, rfl⟩ := Premises.advanced_of_step free held rfl ran
    obtain ⟨-, same⟩ := Option.ite_none_right_eq_some.mp advanced
    cases same
    have restored : Desk.restoreDisplacedMember p.view.members seat =
        some (p.view.members.insert row) := by
      rw [Desk.restoreDisplacedMember, if_pos ours, displaced]
    unfold Desk.advanceCommit Desk.rollBack
    dsimp only
    rw [show Desk.restoreDisplacedMember p.office.desk.members seat = _ from restored]
    exact ⟨KeyedMap.get_insert_self .., rfl⟩

section

variable (opening : p₀.Opening) (run : Run (officeStep codec me) p₀ h p) (e : OfficeEntry Hash)

include opening run

theorem own_of_run : p.view.Own :=
  run.preserves opening.view_own fun taken own => (OfficeAct.run_step taken).own own

/-- The certificate that a step writes into a row is not nullified. -/
def WritesUnrevoked : Prop :=
  ∀ row ∈ e.before.view.written e.act, ∀ cert ∈ row.deviceCert,
    cert.deviceKey ∉ e.before.office.group.nullifiers

/-- No task is under way with the certificate of the device that the step revokes. -/
def RevokesUnheld : Prop :=
  ∀ key ∈ e.act.revokes, ∀ task id cert, (e.before.view.slots task).Holds id cert →
    cert.deviceKey ≠ key

theorem unrevoked_of_writes (writes : ∀ e ∈ h, WritesUnrevoked e) : p.view.Unrevoked := by
  refine run.invariant writes (Premises.unrevoked_iff.2 opening.clean)
    fun run _ taken writes before => ?_
  exact (OfficeAct.run_step taken).unrevoked (own_of_run opening run) before writes

/-- A certificate under way is not nullified while no device under way is revoked. -/
theorem held_live_of_run (unheld : ∀ e ∈ h, RevokesUnheld e) :
    p.view.Unrevoked ∧
      ∀ i id cert, (p.view.slots i).Holds id cert → cert.deviceKey ∉ p.view.nullifiers := by
  induction run with
  | nil =>
    refine ⟨Premises.unrevoked_iff.2 opening.clean, fun i id cert holds => ?_⟩
    rw [Premises.view_idle (opening.idle i)] at holds
    exact (Slot.Holds.idle rfl holds).elim
  | @snoc h s s' a out run taken ih =>
    rw [List.forall_mem_append] at unheld
    obtain ⟨clean, live⟩ := ih unheld.1
    have unheld := unheld.2 _ (List.mem_singleton_self _)
    have step : OfficeStep me s.view a out s'.view := OfficeAct.run_step taken
    refine ⟨step.unrevoked (own_of_run opening run) clean fun row written cert carried => ?_, ?_⟩
    · obtain ⟨i, holds⟩ := OfficeView.written_holds written carried
      exact live i _ _ holds
    · intro i id cert holds nullified
      have nullified := step.mem_nullifiers nullified
      rcases step.holds holds with before | ⟨quiet, vouched⟩
      · exact nullified.elim (live i id cert before) fun revoked =>
          unheld _ revoked i id cert before rfl
      · rw [quiet] at nullified
        exact vouched.live clean (nullified.resolve_right nofun)

end

/-- From an office that opens, no reachable roster has a row with a nullified certificate
if and only if no section writes one; and none does if no device is revoked while an
admission or a hello is under way with its certificate. -/
theorem unrevoked_rows_iff (opening : p₀.Opening) (run : Run (officeStep codec me) p₀ h p) :
    ((∀ e ∈ h, e.after.office.group.Unrevoked) ↔ ∀ e ∈ h, WritesUnrevoked e) ∧
      ((∀ e ∈ h, RevokesUnheld e) → ∀ e ∈ h, e.after.office.group.Unrevoked) := by
  refine ⟨⟨fun clean e mem row written cert carried => ?_, fun writes e mem => ?_⟩,
    fun unheld e mem => ?_⟩
  · obtain ⟨seated, same⟩ := OfficeAct.written_seated (run.entry_step mem) written
    have live := Premises.unrevoked_iff.2 (clean e mem) row cert seated carried
    rwa [same] at live
  · obtain ⟨h', part, run⟩ := run.upto mem
    exact Premises.unrevoked_iff.1
      (unrevoked_of_writes opening run fun e mem => writes e (part mem))
  · obtain ⟨h', part, run⟩ := run.upto mem
    have live := held_live_of_run opening run fun e mem => unheld e (part mem)
    exact Premises.unrevoked_iff.1 live.1

/-! ## Two revocations -/

/-- Node 1 keeps a closed network on its own. -/
def soleOffice : Premises GroupBlob := closedOffice soleGroup

theorem soleOffice_opening : soleOffice.Opening where
  idle _ := rfl
  own := by decide +kernel
  clean := by unfold GroupBlob.Unrevoked; decide +kernel

/-- Device `device` of node 1 asks to join as task `task`, which runs its next `n` sections. -/
def asksToJoin (task : Nat) (device : EndpointId) (n : Nat) : List (OfficeAct GroupBlob) :=
  .receive task device (.joinRequest none none (some ⟨certOf 1 device, true⟩)) :: sections task n

/-- Device 3 is revoked before it asks to join and is turned away; device 4 is seated. -/
theorem unrevoked_rows_in_turn :
    soleOffice.Opening ∧ ∃ h p, Run (officeStep plainCodec 1) soleOffice h p ∧
      3 ∈ p.office.group.nullifiers ∧ p.office.members.isMember 3 = false ∧
      p.office.members.isMember 4 = true ∧ ∀ e ∈ h, e.after.office.group.Unrevoked := by
  obtain ⟨_, revoked⟩ := step_executed (f := OfficeAct.run plainCodec 1) soleOffice
    (.edit (.revokeDevice 3 false)) (by decide +kernel)
  have joins := run_executed (f := OfficeAct.run plainCodec 1)
    (s := officeAfter soleOffice [.edit (.revokeDevice 3 false)])
    (asksToJoin 0 3 1 ++ asksToJoin 1 4 9) (by decide +kernel)
  have run := Run.cons revoked joins
  have quiet : ∀ e ∈ (executed (OfficeAct.run plainCodec 1)
      (officeAfter soleOffice [.edit (.revokeDevice 3 false)])
      (asksToJoin 0 3 1 ++ asksToJoin 1 4 9)).1, e.act.revokes = none := by
    decide +kernel
  refine ⟨soleOffice_opening, _, _, run, by decide +kernel, by decide +kernel, by decide +kernel,
    (unrevoked_rows_iff soleOffice_opening run).2 ?_⟩
  rw [List.forall_mem_cons]
  constructor
  · intro key _ task id cert holds
    exact (Slot.Holds.idle rfl holds).elim
  · intro e mem key revokes
    exact absurd ((quiet e mem).symm.trans revokes) nofun

/-- The device is revoked before it is seated, and then it is seated with the certificate
just nullified. -/
theorem revoked_while_joining :
    ∃ h p, soleOffice.Opening ∧ Run (officeStep plainCodec 1) soleOffice h p ∧
      p.office.members.isMember 3 = true ∧ ¬ p.office.group.Unrevoked := by
  have run := run_executed (f := OfficeAct.run plainCodec 1) (s := soleOffice)
    (asksToJoin 0 3 7 ++ (.edit (.revokeDevice 3 false) :: sections 0 1)) (by decide +kernel)
  refine ⟨_, _, soleOffice_opening, run, by decide +kernel, ?_⟩
  unfold GroupBlob.Unrevoked
  decide +kernel

end Rayfish
