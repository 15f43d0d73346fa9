import Rayfish.Pairing.Steps

/-!
# An unpair and the pairings after it

The generations a primary gives a device only grow, and a notice never ends a pairing
younger than itself. That a confirmed pairing is undone only by an unpair started after it
needs three things of a run (`Careful`), which the code does not see to: no request is
checked while a younger pairing waits to be confirmed, no pairing is made while a record
still nullifies the device, as a restart in the middle of a reauthorization leaves behind,
and no join checks a new certificate against a record read before the pairing.

* `Primary.Grounded`, `Device.Grounded`: whatever can still end a pairing goes back to an
  unpair that names it;
* `unpair_of_its_pairing`: what holds of every run, and of every careful one;
* `undone_by_earlier_unpair`: two runs that are not careful.
-/

namespace Rayfish.Pairing

open Lib

variable {d : EndpointId} {sent sends : List Message} {p p' : Primary} {dev dev' : Device}

/-! ## Generations -/

theorem PrimaryOp.Ran.issued_mono (ran : PrimaryOp.Ran d sent p op p' sends) :
    issuedGeneration p.config d ≤ issuedGeneration p'.config d := by
  cases ran with
  | quiet config => rw [config]
  | liftFails conn write config idle written =>
    rcases written with rfl | rfl
    · exact le_rfl
    · exact le_rfl
  | revokes op also sequel origin => cases origin <;> exact le_rfl
  | revokeFails op also sequel config origin written =>
    rcases written with rfl | rfl
    · exact le_rfl
    · cases origin <;> exact le_rfl
  | issues => simp
  | issueFails conn lifted write config held written
  | confirms conn generation write config awaited written =>
    rcases written with rfl | rfl
    · exact le_rfl
    · simp
  | _ => exact le_rfl

variable {generation cert : Nat} {op : DeviceOp} {listing : EndpointId → Listing} {a : Act}

variable {conn : Nat} {write : Write} {e : PairEntry}

/-- A certificate goes out at the generation that was just saved. -/
theorem PrimaryOp.Ran.response {op : PrimaryOp} (ran : PrimaryOp.Ran d sent p op p' sends)
    (given : .response conn generation ∈ sends) :
    issuedGeneration p.config d < generation ∧ issuedGeneration p'.config d = generation := by
  cases ran with
  | quiet config listing revoking awaiting replies =>
    obtain ⟨_, ⟨⟩⟩ := replies _ given
  | issues conn lifted held =>
    obtain ⟨⟩ := List.mem_singleton.1 given
    simp
  | notifies => simp at given
  | _ => cases given

/-! ## The cleanup belongs to the stored certificate -/

/-- A task of the device fits the unpair that is saved: a pairing waits until no cleanup
is left. -/
def Unpairing.Orderly (pending : Option PendingUnpair) : Unpairing → Prop
  | .cleaning cert _ | .cleaned cert _ => pending = some ⟨cert, .cleanup⟩
  | .dialing _ | .awaiting _ => ∀ cert, pending ≠ some ⟨cert, .cleanup⟩
  | .asking _ _ | .stored _ _ | .confirming _ _ => True

/-- A saved cleanup is of the certificate that is stored, if any is. -/
structure Device.Orderly (dev : Device) : Prop where
  cleanup : ∀ cert stored, dev.pending = some ⟨cert, .cleanup⟩ → dev.cert = some stored →
    stored = cert
  task : ∀ task, dev.unpairing = some task → task.Orderly dev.pending

theorem Device.completed_cleanup (is : dev.completed cert = some ⟨other, .cleanup⟩) :
    dev.pending = some ⟨other, .cleanup⟩ ∧ other ≠ cert := by
  obtain ⟨entry, pending, same⟩ := Option.map_eq_some_iff.1 is
  split at same
  · cases same
  · next differs =>
    subst same
    exact ⟨pending, differs⟩

theorem Device.removePending_some (is : dev.removePending cert = some entry) :
    dev.pending = some entry :=
  (Option.filter_eq_some_iff.1 is).1

/-- A start deletes no certificate but the one whose cleanup was left. -/
theorem Device.resume_cases (dev : Device) (resumed : Resumed) :
    (dev.resume resumed).unpairing = dev.unpairing ∧ (dev.resume resumed).reads = dev.reads ∧
      ((dev.resume resumed).cert = dev.cert ∧ (dev.resume resumed).pending = dev.pending ∨
        ∃ cert, dev.pending = some ⟨cert, .cleanup⟩ ∧
          (dev.resume resumed).cert = dev.cert.filter (· ≠ cert) ∧
          ((dev.resume resumed).pending = dev.pending ∨
            (dev.resume resumed).pending = dev.completed cert)) := by
  unfold Device.resume
  split
  · next cert left => exact ⟨rfl, rfl, .inr ⟨cert, left, rfl, .inl rfl⟩⟩
  · next cert left => exact ⟨rfl, rfl, .inr ⟨cert, left, rfl, .inr rfl⟩⟩
  · exact ⟨rfl, rfl, .inl ⟨rfl, rfl⟩⟩

theorem DeviceOp.Ran.orderly (ran : DeviceOp.Ran listing sent dev op dev' sends)
    (orderly : dev.Orderly) :
    dev'.Orderly := by
  cases ran with
  | quiet cert pending unpairing reads =>
    refine ⟨by simpa only [cert, pending] using orderly.cleanup, fun task held => ?_⟩
    rw [pending]
    rcases unpairing with same | ended
    · exact orderly.task task (same ▸ held)
    · rw [ended] at held
      cases held
  | begins cert pending unpairing reads idle stored origin kept written =>
    rcases written with ⟨rfl, rfl⟩ | ⟨rfl, rfl | rfl⟩
    · exact ⟨orderly.cleanup, by rintro _ ⟨⟩⟩
    · refine ⟨?_, by rintro _ ⟨⟩⟩
      rintro _ other ⟨⟩ is
      exact Option.some.inj (is.symm.trans stored)
    · refine ⟨?_, by rintro _ ⟨⟩; rfl⟩
      rintro _ other ⟨⟩ is
      exact Option.some.inj (is.symm.trans stored)
  | fetches network | holds cert stored | judges network cert read stored
  | judgesHeld network cert read published => exact ⟨orderly.cleanup, orderly.task⟩
  | cleans cert secret idle left => exact ⟨orderly.cleanup, by rintro _ ⟨⟩; exact left⟩
  | asks cert write idle left => exact ⟨orderly.cleanup, by rintro _ ⟨⟩; trivial⟩
  | drops cert pending written =>
    refine ⟨fun other stored is => orderly.cleanup other stored ?_, by rintro _ ⟨⟩⟩
    rcases written with rfl | rfl
    · exact is
    · exact Device.removePending_some is
  | pairs secret idle clean => exact ⟨orderly.cleanup, by rintro _ ⟨⟩; exact clean⟩
  | deletes cert secret write stored unpairing held written =>
    have left : dev.pending = some ⟨cert, .cleanup⟩ := orderly.task _ held
    rcases written with ⟨rfl, rfl⟩ | ⟨rfl, rfl | rfl⟩
    · exact ⟨orderly.cleanup, by rintro _ ⟨⟩⟩
    · exact ⟨by rintro _ _ _ ⟨⟩, by rintro _ ⟨⟩⟩
    · exact ⟨by rintro _ _ _ ⟨⟩, by rintro _ ⟨⟩; exact left⟩
  | completes cert secret write pending unpairing held written =>
    have left : dev.pending = some ⟨cert, .cleanup⟩ := orderly.task _ held
    have done : ∀ other, dev.completed cert ≠ some ⟨other, .cleanup⟩ := by
      intro other is
      obtain ⟨same, differs⟩ := Device.completed_cleanup is
      rw [left] at same
      cases same
      exact differs rfl
    rcases written with ⟨rfl, rfl⟩ | ⟨rfl, rfl | rfl⟩
    · exact ⟨orderly.cleanup, by rintro _ ⟨⟩⟩
    · exact ⟨fun other _ is => absurd is (done other), by rintro _ ⟨⟩⟩
    · refine ⟨fun other _ is => absurd is (done other), fun task is => ?_⟩
      obtain ⟨_, -, rfl⟩ := Option.map_eq_some_iff.1 is
      exact done
  | dials secret write held =>
    have clean : ∀ cert, dev.pending ≠ some ⟨cert, .cleanup⟩ := orderly.task _ held
    exact ⟨orderly.cleanup, by rintro _ ⟨⟩; exact clean⟩
  | receives conn generation write cert unpairing held given written =>
    have clean : ∀ cert, dev.pending ≠ some ⟨cert, .cleanup⟩ := orderly.task _ held
    rcases written with ⟨rfl, rfl⟩ | ⟨rfl, rfl | rfl⟩
    · exact ⟨orderly.cleanup, by rintro _ ⟨⟩⟩
    · exact ⟨fun other _ is => absurd is (clean other), by rintro _ ⟨⟩⟩
    · exact ⟨fun other _ is => absurd is (clean other), by rintro _ ⟨⟩; trivial⟩
  | cancels conn generation write pending held written =>
    refine ⟨?_, by rintro _ ⟨⟩; trivial⟩
    rcases written with rfl | rfl
    · exact orderly.cleanup
    · rintro _ _ ⟨⟩
  | confirms conn generation write held => exact ⟨orderly.cleanup, by rintro _ ⟨⟩⟩
  | restarts resumed =>
    obtain ⟨idle, -, kept | ⟨cert, left, stored, pending⟩⟩ :=
      Device.resume_cases { dev with unpairing := none, reads := [] } resumed
    · refine ⟨?_, fun task is => by cases idle.symm.trans is⟩
      simpa only [kept.1, kept.2] using orderly.cleanup
    · refine ⟨fun other held is has => ?_, fun task is => by cases idle.symm.trans is⟩
      rw [stored] at has
      obtain ⟨has, differs⟩ := Option.filter_eq_some_iff.1 has
      exact absurd (orderly.cleanup cert held left has) (by simpa using differs)

/-- Only a cleanup of the stored certificate deletes it. -/
theorem DeviceOp.Ran.deletes_left (ran : DeviceOp.Ran listing sent dev op dev' sends)
    (orderly : dev.Orderly) (stored : dev.cert = some cert) (gone : dev'.cert = none) :
    dev.pending = some ⟨cert, .cleanup⟩ := by
  cases ran with
  | quiet same =>
    rw [same, stored] at gone
    cases gone
  | deletes own secret write kept unpairing held written =>
    have left : dev.pending = some ⟨own, .cleanup⟩ := orderly.task _ held
    rwa [orderly.cleanup own cert left stored]
  | receives conn generation write kept unpairing held given written =>
    rcases written with ⟨rfl, -⟩ | ⟨rfl, -⟩
    · cases stored.symm.trans gone
    · cases gone
  | restarts resumed =>
    obtain ⟨-, -, kept | ⟨own, left, -, -⟩⟩ :=
      Device.resume_cases { dev with unpairing := none, reads := [] } resumed
    · cases stored.symm.trans (kept.1.symm.trans gone)
    · rwa [orderly.cleanup own cert left stored]
  | _ => cases stored.symm.trans gone

/-- A notice begins no unpair of a certificate younger than itself. -/
theorem DeviceOp.Ran.opens_by_notice
    (ran : DeviceOp.Ran listing sent dev (.notice generation write) dev' sends)
    (fresh : dev.pending ≠ some ⟨cert, .cleanup⟩) (opened : dev'.pending = some ⟨cert, .cleanup⟩) :
    cert ≤ generation := by
  cases ran with
  | quiet _ pending => exact absurd (pending ▸ opened) fresh
  | begins own pending unpairing reads idle stored origin kept written =>
    rcases written with ⟨rfl, -⟩ | ⟨rfl, -⟩
    · exact absurd opened fresh
    · cases opened
      cases origin with
      | notice _ _ told covers => exact covers
  | cleans own secret idle left => exact absurd opened fresh
  | drops own pending written =>
    rcases written with rfl | rfl
    · exact absurd opened fresh
    · exact absurd (Device.removePending_some opened) fresh

theorem DeviceOp.Ran.no_response (ran : DeviceOp.Ran listing sent dev op dev' sends) :
    .response conn generation ∉ sends := by
  cases ran <;> simp

/-! ## What can end a pairing -/

/-- Some copy of the network's group nullifies the device. -/
def Listing.Nullifies (listing : Listing) : Prop :=
  listing.live = true ∨ listing.stored = true ∨ listing.published = true

section Grounded

-- `Started g`: an unpair has been started that names generation `g` or a later one. `top`
-- is the last generation that was sent to the device.
variable (Started : Nat → Prop) (top : Nat)

def Message.Grounded : Message → Prop
  | .response _ generation => generation ≤ top
  | .pairingRevoked generation | .unpairRequest _ generation => Started generation
  | .request _ _ | .certificateSaved _ _ | .unpairRecorded _ => True

/-- A pairing under way has lifted the revocation, and may put back only what it lifted. -/
def Revoking.Grounded (revoked : Prop) : Revoking → Prop
  | .recording _ generation => Started generation ∧ top ≤ generation
  | .nullifying _ _ | .puttingBack => Started top
  | .lifting _ lifted _ changed | .publishing _ lifted changed =>
    ¬ revoked ∧ (lifted = true → Started top) ∧ (changed ≠ [] → lifted = true)
  | .saving _ lifted => ¬ revoked ∧ (lifted = true → Started top)

structure Primary.Grounded (d : EndpointId) (p : Primary) : Prop where
  nodup : p.config.revokedDevices.Nodup
  issued : top ≤ issuedGeneration p.config d
  confirmed : ∀ generation, confirmedGeneration p.config d = some generation → generation ≤ top
  awaiting : ∀ waits ∈ p.awaiting, waits.2 ≤ top
  revoked : d ∈ p.config.revokedDevices → Started top
  listed : ∀ network, (p.listing network).Nullifies → Started top
  notice : ∀ generation, ⟨d, generation⟩ ∈ p.config.pendingUnpairNotices → Started generation
  task : ∀ task, p.revoking = some task → task.Grounded Started top (d ∈ p.config.revokedDevices)

def RecordRead.Grounded : RecordRead → Prop
  | .fetched _ _ => True
  | .holding cert => cert ≤ top
  | .nullified cert => Started cert

structure Device.Grounded (dev : Device) : Prop where
  cert : ∀ cert, dev.cert = some cert → cert ≤ top
  pending : ∀ entry, dev.pending = some entry → Started entry.cert
  reads : ∀ read ∈ dev.reads, read.Grounded Started top

end Grounded

section GroundedStep

variable {Started : Nat → Prop} {top : Nat}

section

variable (grounded : p.Grounded Started top d)

include grounded

/-- A step that leaves the generations and the records as they are. -/
theorem Primary.Grounded.reconfigured (base : p'.config.certGeneration = p.config.certGeneration)
    (generations : p'.config.deviceGenerations = p.config.deviceGenerations)
    (listing : p'.listing = p.listing) (awaiting : ∀ waits ∈ p'.awaiting, waits ∈ p.awaiting)
    (nodup : p'.config.revokedDevices.Nodup) (revoked : d ∈ p'.config.revokedDevices → Started top)
    (notice : ∀ generation, ⟨d, generation⟩ ∈ p'.config.pendingUnpairNotices → Started generation)
    (task : ∀ task, p'.revoking = some task →
      task.Grounded Started top (d ∈ p'.config.revokedDevices)) :
    p'.Grounded Started top d where
  nodup := nodup
  issued := by
    simpa only [issuedGeneration, deviceGeneration, base, generations] using grounded.issued
  confirmed := by
    simpa only [confirmedGeneration, deviceGeneration, generations] using grounded.confirmed
  awaiting waits waiting := grounded.awaiting waits (awaiting waits waiting)
  revoked := revoked
  listed network := by simpa only [listing] using grounded.listed network
  notice := notice
  task := task

/-- A step that changes one network's record. -/
theorem Primary.Grounded.relisted {network : EndpointId} {listing : Listing}
    (covered : listing.Nullifies → Started top) :
    (p.setListing network listing).Grounded Started top d where
  nodup := grounded.nodup
  issued := grounded.issued
  confirmed := grounded.confirmed
  awaiting := grounded.awaiting
  revoked := grounded.revoked
  listed other nullifies := by
    simp only [Primary.setListing, Function.update_apply] at nullifies
    split at nullifies
    · exact covered nullifies
    · exact grounded.listed other nullifies
  notice := grounded.notice
  task := grounded.task

/-- A step that only moves the task that holds the lock. -/
theorem Primary.Grounded.moved {revoking : Option Revoking}
    (task : ∀ task ∈ revoking, task.Grounded Started top (d ∈ p.config.revokedDevices)) :
    { p with revoking := revoking }.Grounded Started top d :=
  { grounded with task }

theorem Primary.Grounded.onto {task : Revoking}
    (next : task.Grounded Started top (d ∈ p.config.revokedDevices)) :
    { p with revoking := some task }.Grounded Started top d :=
  grounded.moved (by rintro _ ⟨⟩; exact next)

/-- A certificate is issued at a new generation, while no record nullifies the device. -/
theorem Primary.Grounded.issue (free : d ∉ p.config.revokedDevices)
    (clean : ∀ network, ¬(p.listing network).Nullifies) (conn : Nat) :
    Primary.Grounded Started (issuedGeneration p.config d + 1) d
      { p with
        config := savePairingGeneration p.config d
        revoking := none
        awaiting := (conn, issuedGeneration p.config d + 1) :: p.awaiting } where
  nodup := grounded.nodup
  issued := by simp
  confirmed generation is := by
    rw [confirmedGeneration_savePairingGeneration] at is
    exact (grounded.confirmed generation is).trans (grounded.issued.trans (Nat.le_succ _))
  awaiting := by
    rintro waits (_ | ⟨_, waiting⟩)
    · exact le_rfl
    · exact (grounded.awaiting waits waiting).trans (grounded.issued.trans (Nat.le_succ _))
  revoked revoked := absurd revoked free
  listed network nullifies := absurd nullifies (clean network)
  notice _ waiting := absurd waiting notice_savePairingGeneration
  task := by rintro _ ⟨⟩

/-- A new generation is saved, and no certificate goes out. -/
theorem Primary.Grounded.issueLost {revoking : Option Revoking}
    (task : ∀ task ∈ revoking, task.Grounded Started top (d ∈ p.config.revokedDevices)) :
    Primary.Grounded Started top d
      { p with config := savePairingGeneration p.config d, revoking := revoking } :=
  { grounded with
    issued := by
      simp only [issuedGeneration_savePairingGeneration]
      exact grounded.issued.trans (Nat.le_succ _)
    confirmed := by simpa using grounded.confirmed
    notice := fun _ waiting => absurd waiting notice_savePairingGeneration
    task }

theorem Primary.Grounded.confirm {config : AppConfig} (awaited : (conn, generation) ∈ p.awaiting)
    (written : config = p.config ∨ config = saveCertificateSaved p.config d generation) :
    Primary.Grounded Started top d
      { p with config := config, awaiting := p.awaiting.erase (conn, generation) } := by
  have given : generation ≤ top := grounded.awaiting _ awaited
  have awaiting : ∀ waits ∈ p.awaiting.erase (conn, generation), waits.2 ≤ top :=
    fun waits waiting => grounded.awaiting waits (List.mem_of_mem_erase waiting)
  rcases written with rfl | rfl
  · exact { grounded with awaiting }
  · exact {
      grounded with
      issued := by simpa using grounded.issued
      confirmed := fun known is =>
        confirmedGeneration_saveCertificateSaved grounded.confirmed given is
      awaiting }

theorem Primary.Grounded.seal (network : EndpointId) :
    (p.sealed d network).Grounded Started top d := by
  have sealed : ((p.listing network).stored || decide (d ∈ p.config.revokedDevices)) = true →
      Started top := by
    intro is
    rcases Bool.or_eq_true_iff.1 is with stored | revoked
    · exact grounded.listed network (.inr (.inl stored))
    · exact grounded.revoked (of_decide_eq_true revoked)
  have relisted : Primary.Grounded Started top d
      (p.setListing network ((p.sealed d network).listing network)) := by
    refine grounded.relisted fun nullifies => ?_
    simp only [Primary.sealed, Primary.setListing, Function.update_self] at nullifies
    rcases nullifies with live | stored | published
    · exact sealed live
    · exact sealed stored
    · exact grounded.listed network (.inr (.inr published))
  refine { relisted with listed := fun other nullifies => relisted.listed other ?_ }
  simpa [Primary.sealed, Primary.setListing] using nullifies

/-- A step that sends nothing to the device. -/
theorem silent :
    ∃ last, top ≤ last ∧ p.Grounded Started last d ∧
      ∀ msg ∈ ([] : List Message), msg.Grounded Started last :=
  ⟨top, le_rfl, grounded, nofun⟩

end

theorem Listing.nullifies_save {listing : Listing} {live : Bool}
    (nullifies : (listing.save live write).Nullifies) : live = true ∨ listing.Nullifies := by
  unfold Listing.save at nullifies
  split at nullifies
  · rcases nullifies with is | stored | published
    · exact .inl is
    · exact .inr (.inr (.inl stored))
    · exact .inr (.inr (.inr published))
  · rcases nullifies with is | is | published
    · exact .inl is
    · exact .inl is
    · exact .inr (.inr (.inr published))

theorem Message.Grounded.mono {more : Nat} (le : top ≤ more) {msg : Message}
    (grounded : msg.Grounded Started top) : msg.Grounded Started more := by
  cases msg with
  | response _ generation => exact Nat.le_trans grounded le
  | _ => exact grounded

theorem Device.Grounded.mono (le : top ≤ more) (grounded : dev.Grounded Started top) :
    dev.Grounded Started more where
  cert cert stored := (grounded.cert cert stored).trans le
  pending := grounded.pending
  reads read listed := by
    have old := grounded.reads read listed
    cases read with
    | holding cert => exact Nat.le_trans old le
    | _ => exact old

theorem Device.Grounded.completed (grounded : dev.Grounded Started top)
    (is : dev.completed cert = some entry) : Started entry.cert := by
  obtain ⟨old, pending, same⟩ := Option.map_eq_some_iff.1 is
  have started := grounded.pending old pending
  split at same <;> exact same ▸ started

/-- A step that adds a read. -/
theorem Device.Grounded.reading (grounded : dev.Grounded Started top) {read : RecordRead}
    {reads : List RecordRead} (kept : ∀ old ∈ reads, old ∈ dev.reads)
    (new : read.Grounded Started top) :
    { dev with reads := read :: reads }.Grounded Started top := by
  refine ⟨grounded.cert, grounded.pending, fun other listed => ?_⟩
  rcases List.mem_cons.1 listed with rfl | old
  · exact new
  · exact grounded.reads other (kept other old)

variable (down : ∀ {low high}, low ≤ high → Started high → Started low)

include down

/-- Where a revocation is written, an unpair of the last pairing has been started. -/
theorem PrimaryOp.Revokes.started {op : PrimaryOp} {also : AppConfig → AppConfig} {sequel : Sequel}
    (grounded : p.Grounded Started top d)
    (starts : ∀ write, op = .unpair write → Started (issuedGeneration p.config d))
    (origin : PrimaryOp.Revokes d p op also sequel) :
    Started top ∧ (also (saveRevocation p.config d)).certGeneration = p.config.certGeneration ∧
      (also (saveRevocation p.config d)).deviceGenerations = p.config.deviceGenerations ∧
      (also (saveRevocation p.config d)).revokedDevices =
        (saveRevocation p.config d).revokedDevices ∧
      ∀ generation, ⟨d, generation⟩ ∈ (also (saveRevocation p.config d)).pendingUnpairNotices →
        Started generation := by
  cases origin with
  | unpair write idle =>
    refine ⟨down grounded.issued (starts write rfl), rfl, rfl, rfl, fun generation waiting => ?_⟩
    rw [notice_saveUnpairNotice waiting]
    exact starts write rfl
  | recording conn generation write checked =>
    obtain ⟨started, covers⟩ := grounded.task _ checked
    exact ⟨down covers started, rfl, rfl, rfl, fun _ waiting =>
      absurd waiting notice_clearUnpairNotice⟩
  | puttingBack write failed =>
    exact ⟨grounded.task _ failed, rfl, rfl, rfl, grounded.notice⟩

theorem PrimaryOp.Ran.grounded {op : PrimaryOp} (ran : PrimaryOp.Ran d sent p op p' sends)
    (grounded : p.Grounded Started top d) (messages : ∀ msg ∈ sent, msg.Grounded Started top)
    (starts : ∀ write, op = .unpair write → Started (issuedGeneration p.config d))
    (covers : ∀ conn generation, op = .unpairRequest conn generation →
      (∃ confirmed, confirmedGeneration p.config d = some confirmed ∧ generation < confirmed) ∨
        issuedGeneration p.config d ≤ generation)
    (clean : ∀ conn lifted write, op = .advance write →
      p.revoking = some (.saving conn lifted) → ∀ network, ¬ (p.listing network).Nullifies) :
    ∃ last, top ≤ last ∧ p'.Grounded Started last d ∧ ∀ msg ∈ sends, msg.Grounded Started last := by
  cases ran with
  | quiet config listing revoking awaiting replies =>
    refine ⟨top, le_rfl, grounded.reconfigured (by rw [config]) (by rw [config]) listing awaiting
      (config ▸ grounded.nodup) (config ▸ grounded.revoked) (config ▸ grounded.notice)
      (fun task held => ?_), fun msg sent => ?_⟩
    · rw [config]
      rcases revoking with same | ended
      · exact grounded.task task (same ▸ held)
      · cases ended.symm.trans held
    · obtain ⟨conn, rfl⟩ := replies msg sent
      trivial
  | lifts conn write idle =>
    refine silent (grounded.reconfigured rfl rfl rfl (fun _ waits => waits)
      (grounded.nodup.erase d) (fun revoked => absurd revoked (liftRevocation_lifts grounded.nodup))
      grounded.notice ?_)
    rintro _ ⟨⟩
    exact ⟨liftRevocation_lifts grounded.nodup, fun revoked =>
      grounded.revoked (of_decide_eq_true revoked), fun changed => absurd rfl changed⟩
  | liftFails conn write config idle written =>
    have none_held : ∀ task, p.revoking = some task →
        task.Grounded Started top (d ∈ config.revokedDevices) := by simp [idle]
    refine silent ?_
    rcases written with rfl | rfl
    · exact { grounded with task := none_held }
    · exact grounded.reconfigured rfl rfl rfl (fun _ waits => waits) (grounded.nodup.erase d)
        (fun revoked => absurd revoked (liftRevocation_lifts grounded.nodup)) grounded.notice
        none_held
  | revokes op also sequel origin =>
    obtain ⟨started, base, generations, devices, notices⟩ := origin.started down grounded starts
    refine silent (grounded.reconfigured base generations rfl (fun _ waits => waits)
      (devices ▸ saveRevocation_nodup grounded.nodup) (fun _ => started) notices ?_)
    rintro _ ⟨⟩
    exact started
  | revokeFails op also sequel config origin written =>
    obtain ⟨started, base, generations, devices, notices⟩ := origin.started down grounded starts
    refine silent ?_
    rcases written with rfl | rfl
    · exact grounded.moved nofun
    · exact grounded.reconfigured base generations rfl (fun _ waits => waits)
        (devices ▸ saveRevocation_nodup grounded.nodup) (fun _ => started) notices nofun
  | checks conn generation asked idle current =>
    refine silent (grounded.onto ⟨messages _ asked, ?_⟩)
    rcases covers conn generation rfl with ⟨confirmed, is, older⟩ | covered
    · exact absurd (current confirmed is) (Nat.not_le.2 older)
    · exact grounded.issued.trans covered
  | nullifies network left sequel write held =>
    have started : Started top := grounded.task _ held
    exact silent ((grounded.relisted fun _ => started).onto started)
  | liftsNetwork conn lifted network left changed held live =>
    obtain ⟨lifted, -, -⟩ := grounded.task _ held
    have started : Started top := grounded.listed network (.inl live)
    exact silent ((grounded.relisted fun _ => started).onto
      ⟨lifted, fun _ => started, fun _ => rfl⟩)
  | liftNetworkFails conn lifted network left changed write held live =>
    have started : Started top := grounded.listed network (.inl live)
    exact silent ((grounded.relisted fun _ => started).onto started)
  | skips conn lifted network left changed write held | waits conn lifted changed write held =>
    have before := grounded.task _ held
    exact silent (grounded.onto before)
  | gotPublished conn lifted changed write held =>
    obtain ⟨free, started, -⟩ := grounded.task _ held
    exact silent (grounded.onto ⟨free, started⟩)
  | timesOut conn lifted changed held left =>
    obtain ⟨-, started, lifts⟩ := grounded.task _ held
    exact silent (grounded.onto (started (lifts left)))
  | issues conn lifted held =>
    obtain ⟨free, -⟩ := grounded.task _ held
    refine ⟨_, grounded.issued.trans (Nat.le_succ _),
      grounded.issue free (clean conn lifted .saved rfl held) conn, fun msg sent => ?_⟩
    obtain rfl := List.mem_singleton.1 sent
    exact le_rfl
  | issueFails conn lifted write config held written =>
    obtain ⟨free, started⟩ := grounded.task _ held
    have back : ∀ task ∈ (if lifted then some Revoking.puttingBack else none),
        task.Grounded Started top (d ∈ p.config.revokedDevices) := by
      intro task is
      obtain ⟨was, ⟨⟩⟩ := Option.ite_none_right_eq_some.1 is
      exact started was
    refine silent ?_
    rcases written with rfl | rfl
    · exact grounded.moved back
    · exact grounded.issueLost back
  | confirms conn generation write config awaited written =>
    exact silent (grounded.confirm awaited written)
  | notifies generation waiting =>
    refine ⟨top, le_rfl, grounded, fun msg sent => ?_⟩
    obtain rfl := List.mem_singleton.1 sent
    exact grounded.notice generation waiting
  | stores network =>
    refine silent (grounded.relisted fun nullifies => ?_)
    rcases Listing.nullifies_save nullifies with live | old
    · exact grounded.listed network (.inl live)
    · exact grounded.listed network old
  | publishes network =>
    refine silent (grounded.relisted fun nullifies => grounded.listed network ?_)
    rcases nullifies with live | stored | published
    · exact .inl live
    · exact .inr (.inl stored)
    · exact .inr (.inl published)
  | seals network => exact silent (grounded.seal network)

theorem DeviceOp.Begins.started (grounded : dev.Grounded Started top)
    (messages : ∀ msg ∈ sent, msg.Grounded Started top)
    (starts : ∀ write, op = .unpairSelf write → Started cert)
    (origin : DeviceOp.Begins sent dev cert op) : Started cert := by
  cases origin with
  | user write => exact starts write rfl
  | notice generation write told covers => exact down covers (messages _ told)
  | nullified write read => exact grounded.reads _ read

theorem DeviceOp.Ran.grounded (ran : DeviceOp.Ran listing sent dev op dev' sends)
    (grounded : dev.Grounded Started top) (messages : ∀ msg ∈ sent, msg.Grounded Started top)
    (listed : ∀ network, (listing network).Nullifies → Started top)
    (starts : ∀ write cert, op = .unpairSelf write → dev.cert = some cert → Started cert)
    (fresh : ∀ network, op = .check (.fetched network true) → (listing network).published = true) :
    dev'.Grounded Started top ∧ ∀ msg ∈ sends, msg.Grounded Started top := by
  have published {network : EndpointId} {cert : Nat} (le : cert ≤ top)
      (is : (listing network).published = true) : Started cert :=
    down le (listed network (.inr (.inr is)))
  cases ran with
  | quiet cert pending unpairing reads =>
    exact ⟨⟨cert ▸ grounded.cert, pending ▸ grounded.pending, fun read listed =>
      grounded.reads read (reads read listed)⟩, by simp⟩
  | begins cert pending unpairing reads idle stored origin kept written =>
    have started := origin.started down grounded messages fun write is =>
      starts write cert is stored
    refine ⟨⟨grounded.cert, fun entry is => ?_, fun read listed =>
      grounded.reads read (kept read listed)⟩, by simp⟩
    rcases written with ⟨rfl, -⟩ | ⟨rfl, -⟩
    · exact grounded.pending entry is
    · cases is
      exact started
  | fetches network => exact ⟨grounded.reading (fun _ => id) trivial, by simp⟩
  | holds cert stored => exact ⟨grounded.reading (fun _ => id) (grounded.cert cert stored), by simp⟩
  | judges network cert read stored =>
    exact ⟨grounded.reading (fun _ => List.mem_of_mem_erase)
      (published (grounded.cert cert stored) (fresh network rfl)), by simp⟩
  | judgesHeld network cert read is =>
    exact ⟨grounded.reading (fun _ => List.mem_of_mem_erase)
      (published (grounded.reads _ read) is), by simp⟩
  | cleans cert secret idle left | pairs secret idle clean =>
    exact ⟨⟨grounded.cert, grounded.pending, grounded.reads⟩, by simp⟩
  | asks cert write idle left =>
    refine ⟨⟨grounded.cert, grounded.pending, grounded.reads⟩, fun msg sent => ?_⟩
    obtain rfl := List.mem_singleton.1 sent
    exact grounded.pending _ left
  | drops cert pending written =>
    refine ⟨⟨grounded.cert, fun entry is => grounded.pending entry ?_, grounded.reads⟩, by simp⟩
    rcases written with rfl | rfl
    · exact is
    · exact Device.removePending_some is
  | deletes cert secret write stored unpairing held written =>
    refine ⟨⟨fun other is => ?_, grounded.pending, grounded.reads⟩, by simp⟩
    rcases written with ⟨rfl, -⟩ | ⟨rfl, -⟩
    · exact grounded.cert other is
    · cases is
  | completes cert secret write pending unpairing held written =>
    refine ⟨⟨grounded.cert, fun entry is => ?_, grounded.reads⟩, by simp⟩
    rcases written with ⟨rfl, -⟩ | ⟨rfl, -⟩
    · exact grounded.pending entry is
    · exact grounded.completed is
  | dials secret write held | confirms conn generation write held =>
    refine ⟨⟨grounded.cert, grounded.pending, grounded.reads⟩, fun msg sent => ?_⟩
    obtain rfl := List.mem_singleton.1 sent
    trivial
  | receives conn generation write cert unpairing held given written =>
    refine ⟨⟨fun other is => ?_, grounded.pending, grounded.reads⟩, by simp⟩
    rcases written with ⟨rfl, -⟩ | ⟨rfl, -⟩
    · exact grounded.cert other is
    · cases is
      exact messages _ given
  | cancels conn generation write pending held written =>
    refine ⟨⟨grounded.cert, fun entry is => ?_, grounded.reads⟩, by simp⟩
    rcases written with rfl | rfl
    · exact grounded.pending entry is
    · cases is
  | restarts resumed =>
    obtain ⟨-, reads, kept | ⟨cert, left, stored, pending⟩⟩ :=
      Device.resume_cases { dev with unpairing := none, reads := [] } resumed
    · exact ⟨⟨fun other is => grounded.cert other (kept.1.symm.trans is), fun entry is =>
        grounded.pending entry (kept.2.symm.trans is), by simp [reads]⟩, by simp⟩
    · refine ⟨⟨fun other is => ?_, fun entry is => ?_, by simp [reads]⟩, by simp⟩
      · rw [stored] at is
        exact grounded.cert other (Option.filter_eq_some_iff.1 is).1
      · rcases pending with same | done
        · exact grounded.pending entry (same ▸ is)
        · exact grounded.completed (done ▸ is)

end GroundedStep

/-! ## Runs -/

/-- The generation that an unpair started by this step names: that of the certificate the
device holds, or, for `ray unpair`, the last one issued. -/
def startedBy (d : EndpointId) (e : PairEntry) : Option Nat :=
  match e.act with
  | .device (.unpairSelf _) => e.before.device.cert
  | .primary (.unpair _) => some (issuedGeneration e.before.primary.config d)
  | _ => none

/-- An unpair has been started that names the generation or a later one. -/
def StartedFor (d : EndpointId) (h : List PairEntry) (generation : Nat) : Prop :=
  ∃ e ∈ h, ∃ named ∈ startedBy d e, generation ≤ named

/-- The step deletes the device's certificate. -/
def Deletes (e : PairEntry) (cert : Nat) : Prop :=
  e.before.device.cert = some cert ∧ e.after.device.cert = none

instance (e : PairEntry) (cert : Nat) : Decidable (Deletes e cert) :=
  inferInstanceAs (Decidable (_ ∧ _))

/-- The step saves an unpair of the certificate. -/
def Opens (e : PairEntry) (cert : Nat) : Prop :=
  e.before.device.pending ≠ some ⟨cert, .cleanup⟩ ∧ e.after.device.pending = some ⟨cert, .cleanup⟩

/-- What the code does not see to. -/
structure Careful (d : EndpointId) (e : PairEntry) : Prop where
  /-- A request is checked when a later pairing is confirmed, or none was begun. -/
  request : ∀ conn generation, e.act = .primary (.unpairRequest conn generation) →
    (∃ confirmed, confirmedGeneration e.before.primary.config d = some confirmed ∧
      generation < confirmed) ∨ issuedGeneration e.before.primary.config d ≤ generation
  /-- A pairing is saved when no copy of a network's group nullifies the device. -/
  saved : ∀ conn lifted write, e.act = .primary (.advance write) →
    e.before.primary.revoking = some (.saving conn lifted) →
    ∀ network, ¬ (e.before.primary.listing network).Nullifies
  /-- A join checks its certificate against a record that is still published. -/
  joined : ∀ network, e.act = .device (.check (.fetched network true)) →
    (e.before.primary.listing network).published = true

/-- No unpair and no pairing is under way, and nothing is left of an earlier one. -/
structure System.Idle (d : EndpointId) (s : System) : Prop where
  sent : s.sent = []
  nodup : s.primary.config.revokedDevices.Nodup
  revoked : d ∉ s.primary.config.revokedDevices
  notice : ∀ generation, ⟨d, generation⟩ ∉ s.primary.config.pendingUnpairNotices
  confirmed : ∀ generation, confirmedGeneration s.primary.config d = some generation →
    generation ≤ issuedGeneration s.primary.config d
  listed : ∀ network, ¬ (s.primary.listing network).Nullifies
  revoking : s.primary.revoking = none
  awaiting : s.primary.awaiting = []
  cert : ∀ cert, s.device.cert = some cert → cert ≤ issuedGeneration s.primary.config d
  pending : s.device.pending = none
  unpairing : s.device.unpairing = none
  reads : s.device.reads = []

variable {s₀ s s' : System} {h : List PairEntry}

theorem step_cases (taken : step d s a sends s') :
    (∃ op, a = .primary op ∧ s'.device = s.device ∧ s'.sent = sends ++ s.sent ∧
      PrimaryOp.Ran d s.sent s.primary op s'.primary sends) ∨
    (∃ op, a = .device op ∧ s'.primary = s.primary ∧ s'.sent = sends ++ s.sent ∧
      DeviceOp.Ran s.primary.listing s.sent s.device op s'.device sends) := by
  cases a with
  | primary op =>
    obtain ⟨⟨primary, msgs⟩, ran, same⟩ := Option.map_eq_some_iff.1 taken
    cases same
    exact .inl ⟨op, rfl, rfl, rfl, PrimaryOp.ran_of_run ran⟩
  | device op =>
    obtain ⟨⟨device, msgs⟩, ran, same⟩ := Option.map_eq_some_iff.1 taken
    cases same
    exact .inr ⟨op, rfl, rfl, rfl, DeviceOp.ran_of_run ran⟩

/-! ### Every run -/

theorem issued_step (taken : step d s a sends s') :
    issuedGeneration s.primary.config d ≤ issuedGeneration s'.primary.config d := by
  rcases step_cases taken with ⟨op, -, -, -, ran⟩ | ⟨op, -, same, -, -⟩
  · exact ran.issued_mono
  · rw [same]

theorem issued_run (run : Run (step d) s₀ h s) :
    issuedGeneration s₀.primary.config d ≤ issuedGeneration s.primary.config d :=
  run.preserves le_rfl
    fun taken before => before.trans (issued_step taken)

theorem response_step (taken : step d s a sends s') (given : .response conn generation ∈ sends) :
    issuedGeneration s.primary.config d < generation ∧
      issuedGeneration s'.primary.config d = generation := by
  rcases step_cases taken with ⟨op, -, -, -, ran⟩ | ⟨op, -, -, -, ran⟩
  · exact ran.response given
  · exact absurd given ran.no_response

theorem orderly_step (taken : step d s a sends s') (orderly : s.device.Orderly) :
    s'.device.Orderly := by
  rcases step_cases taken with ⟨op, -, same, -, -⟩ | ⟨op, -, -, -, ran⟩
  · rwa [same]
  · exact ran.orderly orderly

theorem orderly_run (run : Run (step d) s₀ h s) (idle : s₀.Idle d) : s.device.Orderly :=
  run.preserves ⟨by simp [idle.pending], by simp [idle.unpairing]⟩ orderly_step

/-- A cleanup that is left was saved by some step. -/
theorem opened_run (run : Run (step d) s₀ h s) (idle : s₀.Idle d)
    (left : s.device.pending = some ⟨cert, .cleanup⟩) : ∃ e ∈ h, Opens e cert := by
  induction run with
  | nil => simp [idle.pending] at left
  | @snoc h s s' a sends run taken ih =>
    by_cases before : s.device.pending = some ⟨cert, .cleanup⟩
    · obtain ⟨e, listed, opens⟩ := ih before
      exact ⟨e, List.mem_append_left _ listed, opens⟩
    · exact ⟨_, mem_snoc, before, left⟩

theorem opens_by_notice (taken : step d e.before e.act e.out e.after) (opens : Opens e cert)
    (act : e.act = .device (.notice generation write)) : cert ≤ generation := by
  rcases step_cases taken with ⟨op, is, -⟩ | ⟨op, is, -, -, ran⟩
  · cases act.symm.trans is
  · cases act.symm.trans is
    exact ran.opens_by_notice opens.1 opens.2

theorem deletes_left (taken : step d e.before e.act e.out e.after)
    (orderly : e.before.device.Orderly) (deletes : Deletes e cert) :
    e.before.device.pending = some ⟨cert, .cleanup⟩ := by
  rcases step_cases taken with ⟨op, -, same, -⟩ | ⟨op, -, -, -, ran⟩
  · cases deletes.1.symm.trans (same ▸ deletes.2)
  · exact ran.deletes_left orderly deletes.1 deletes.2

/-! ### Careful runs -/

/-- Whatever can still end a pairing goes back to an unpair that names it. -/
structure System.Grounded (Started : Nat → Prop) (top : Nat) (d : EndpointId) (s : System) :
    Prop where
  primary : s.primary.Grounded Started top d
  device : s.device.Grounded Started top
  sent : ∀ msg ∈ s.sent, msg.Grounded Started top

theorem StartedFor.down (le : low ≤ high) (started : StartedFor d h high) : StartedFor d h low := by
  obtain ⟨e, listed, named, starts, covers⟩ := started
  exact ⟨e, listed, named, starts, le.trans covers⟩

theorem System.Idle.grounded (Started : Nat → Prop) (idle : s.Idle d) :
    s.Grounded Started (issuedGeneration s.primary.config d) d where
  primary := {
    nodup := idle.nodup
    issued := le_rfl
    confirmed := idle.confirmed
    awaiting := by simp [idle.awaiting]
    revoked := fun revoked => absurd revoked idle.revoked
    listed := fun network nullifies => absurd nullifies (idle.listed network)
    notice := fun generation waiting => absurd waiting (idle.notice generation)
    task := by simp [idle.revoking] }
  device := ⟨idle.cert, by simp [idle.pending], by simp [idle.reads]⟩
  sent := by simp [idle.sent]

theorem grounded_step {Started : Nat → Prop} {top : Nat}
    (down : ∀ {low high}, low ≤ high → Started high → Started low)
    (taken : step d e.before e.act e.out e.after) (starts : ∀ named ∈ startedBy d e, Started named)
    (careful : Careful d e) (grounded : e.before.Grounded Started top d) :
    ∃ last, e.after.Grounded Started last d := by
  obtain ⟨s, a, sends, s'⟩ := e
  rcases step_cases taken with ⟨op, rfl, device, sent, ran⟩ | ⟨op, rfl, primary, sent, ran⟩
  · obtain ⟨last, le, after, msgs⟩ := ran.grounded down grounded.primary grounded.sent
      (fun write is => starts _ (by simp [startedBy, is]))
      (fun conn generation is => careful.request conn generation (congrArg Act.primary is))
      (fun conn lifted write is => careful.saved conn lifted write (congrArg Act.primary is))
    refine ⟨last, after, device ▸ grounded.device.mono le, fun msg listed => ?_⟩
    rcases List.mem_append.1 (sent ▸ listed) with new | old
    · exact msgs msg new
    · exact (grounded.sent msg old).mono le
  · obtain ⟨after, msgs⟩ := ran.grounded down grounded.device grounded.sent
      grounded.primary.listed
      (fun write cert is stored => starts cert (by simpa [startedBy, is] using stored))
      (fun network is => careful.joined network (congrArg Act.device is))
    refine ⟨top, primary ▸ grounded.primary, after, fun msg listed => ?_⟩
    rcases List.mem_append.1 (sent ▸ listed) with new | old
    · exact msgs msg new
    · exact grounded.sent msg old

theorem grounded_run (down : ∀ {low high}, low ≤ high → Started high → Started low)
    (run : Run (step d) s₀ h s) (idle : s₀.Idle d) (careful : ∀ e ∈ h, Careful d e)
    (starts : ∀ e ∈ h, ∀ named ∈ startedBy d e, Started named) :
    ∃ top, s.Grounded Started top d := by
  refine run.invariant (fun e listed => And.intro (starts e listed) (careful e listed))
    ⟨_, idle.grounded Started⟩ fun _ _ taken kept before => ?_
  obtain ⟨top, grounded⟩ := before
  exact grounded_step down taken kept.1 kept.2 grounded

/-- In a careful run, whatever can still end a pairing goes back to an unpair of that run. -/
theorem run_grounded (run : Run (step d) s₀ h s) (idle : s₀.Idle d)
    (careful : ∀ e ∈ h, Careful d e) : ∃ top, s.Grounded (StartedFor d h) top d :=
  grounded_run StartedFor.down run idle careful fun e listed named starts =>
    ⟨e, listed, named, starts, le_rfl⟩

/-- In every run the generations sent to the device increase, and a certificate is deleted
only after an unpair of it was saved, by a notice only if the notice is not older. In a
careful run a request writes no revocation once a later pairing is confirmed, and a
confirmed pairing is revoked, and a certificate deleted, only after an unpair of it or of a
later one was started. -/
theorem unpair_of_its_pairing (run : Run (step d) s₀ h s) (idle : s₀.Idle d) :
    (∀ pre mid post e e' conn conn' generation generation',
      h = pre ++ e :: (mid ++ e' :: post) → .response conn generation ∈ e.out →
      .response conn' generation' ∈ e'.out → generation < generation') ∧
    (∀ pre e post cert, h = pre ++ e :: post → Deletes e cert →
      ∃ opened ∈ pre, Opens opened cert ∧ ∀ generation write,
        opened.act = .device (.notice generation write) → cert ≤ generation) ∧
    ((∀ e ∈ h, Careful d e) →
      (∀ e ∈ h, ∀ conn generation write, e.act = .primary (.advance write) →
        e.before.primary.revoking = some (.recording conn generation) →
        ∀ confirmed, confirmedGeneration e.before.primary.config d = some confirmed →
          confirmed ≤ generation) ∧
      (∀ confirmed, d ∈ s.primary.config.revokedDevices →
        confirmedGeneration s.primary.config d = some confirmed → StartedFor d h confirmed) ∧
      ∀ pre e post cert, h = pre ++ e :: post → Deletes e cert → StartedFor d pre cert) := by
  refine ⟨?_, ?_, fun careful => ⟨?_, ?_, ?_⟩⟩
  · intro pre mid post e e' conn conn' generation generation' split given given'
    obtain ⟨-, taken, rest⟩ := run.split split
    obtain ⟨between, taken', -⟩ := rest.split rfl
    calc generation = issuedGeneration e.after.primary.config d :=
          (response_step taken given).2.symm
      _ ≤ issuedGeneration e'.before.primary.config d := issued_run between
      _ < generation' := (response_step taken' given').1
  · intro pre e post cert split deletes
    obtain ⟨before, taken, -⟩ := run.split split
    have left := deletes_left taken (orderly_run before idle) deletes
    obtain ⟨opened, listed, opens⟩ := opened_run before idle left
    exact ⟨opened, listed, opens, fun generation write act =>
      opens_by_notice (before.entry_step listed) opens act⟩
  · intro e listed conn generation write act held confirmed is
    obtain ⟨h', part, before⟩ := run.before listed
    obtain ⟨top, grounded⟩ := run_grounded before idle fun e listed => careful e (part listed)
    exact (grounded.primary.confirmed confirmed is).trans (grounded.primary.task _ held).2
  · intro confirmed revoked is
    obtain ⟨top, grounded⟩ := run_grounded run idle careful
    exact (grounded.primary.revoked revoked).down (grounded.primary.confirmed confirmed is)
  · intro pre e post cert split deletes
    obtain ⟨before, taken, -⟩ := run.split split
    obtain ⟨top, grounded⟩ := run_grounded before idle fun e listed =>
      careful e (split ▸ List.mem_append_left _ listed)
    exact grounded.device.pending _ (deletes_left taken (orderly_run before idle) deletes)

/-! ## Runs of one device -/

/-- A device paired at generation 1, whose primary coordinates the given networks. -/
def pairedSystem (d : EndpointId) (networks : List EndpointId) : System where
  primary := {
    config := ⟨0, [⟨d, 1, some 1⟩], [], [], networks⟩
    running := networks
    restoring := []
    listing := fun _ => ⟨false, false, false, false⟩
    session := none
    accepted := []
    revoking := none
    awaiting := [] }
  device := ⟨some 1, none, none, []⟩
  sent := []

theorem pairedSystem_idle (networks : List EndpointId) : (pairedSystem 7 networks).Idle 7 where
  sent := rfl
  nodup := List.nodup_nil
  revoked := List.not_mem_nil
  notice _ := List.not_mem_nil
  confirmed := by
    rintro _ ⟨⟩
    exact le_rfl
  listed _ := by
    rintro (listed | listed | listed) <;> cases listed
  revoking := rfl
  awaiting := rfl
  cert := by
    rintro _ ⟨⟩
    exact le_rfl
  pending := rfl
  unpairing := rfl
  reads := rfl

/-- The primary unpairs the device, which hears of it and deletes its certificate. -/
def noticedActs : List Act :=
  [.primary (.unpair .saved), .primary (.advance .saved), .primary (.notify 1),
    .device (.notice 1 .saved), .device (.advance .saved)]

theorem noticed_run :
    ∃ h s, Run (step 7) (pairedSystem 7 []) h s ∧ (∀ e ∈ h, Careful 7 e) ∧
      (∃ pre e, h = pre ++ [e] ∧ Deletes e 1) ∧ 7 ∈ s.primary.config.revokedDevices ∧
      confirmedGeneration s.primary.config 7 = some 1 := by
  refine ⟨_, _,
    run_execute (f := fun s a => Act.run 7 s a) (s := pairedSystem 7 []) noticedActs rfl,
    ?_, ⟨_, _, (List.dropLast_append_getLast (by simp)).symm, rfl, rfl⟩, by decide, rfl⟩
  refine List.forall_mem_cons.2 ⟨?_, List.forall_mem_cons.2 ⟨?_, List.forall_mem_cons.2 ⟨?_,
    List.forall_mem_cons.2 ⟨?_, List.forall_mem_singleton.2 ?_⟩⟩⟩⟩
  all_goals
    refine ⟨?_, ?_, ?_⟩
    · rintro _ _ ⟨⟩
    · rintro _ _ _ ⟨⟩ ⟨⟩
    · rintro _ ⟨⟩

theorem unpair_of_its_pairing_noticed :
    ∃ h s, Run (step 7) (pairedSystem 7 []) h s ∧ (pairedSystem 7 []).Idle 7 ∧
      (∀ e ∈ h, Careful 7 e) ∧ (∃ pre e, h = pre ++ [e] ∧ Deletes e 1 ∧ StartedFor 7 pre 1) ∧
      7 ∈ s.primary.config.revokedDevices ∧ StartedFor 7 h 1 := by
  obtain ⟨h, s, run, careful, ⟨pre, e, split, deletes⟩, revoked, confirmed⟩ := noticed_run
  have idle := pairedSystem_idle []
  obtain ⟨-, grounds, deleted⟩ := (unpair_of_its_pairing run idle).2.2 careful
  exact ⟨h, s, run, idle, careful, ⟨pre, e, split, deletes, deleted pre e [] 1 split deletes⟩,
    revoked, grounds 1 revoked confirmed⟩

/-- The device unpairs from its pairing at generation 1, its request is held back, and it
pairs again. The primary checks the request before it hears that the certificate of
generation 2 is saved, and writes the revocation after that. -/
def recordedLateActs : List Act :=
  [.device (.unpairSelf .saved), .device (.advance .saved), .device (.advance .saved),
    .device (.attempt .saved), .device .giveUp,
    .primary (.startPairing 5), .device (.pair 5), .device (.advance .saved),
    .primary (.request 1 5), .primary (.reauth 1 .saved), .primary (.advance .saved),
    .primary (.advance .saved), .primary (.advance .saved),
    .device (.receive 1 2 .saved), .device (.advance .saved), .device (.advance .saved),
    .primary (.unpairRequest 0 1), .primary (.certificateSaved 1 2 .saved),
    .primary (.advance .saved)]

/-- `ray unpair` revokes the device, and the record is published. The device hears of it,
cleans up and pairs again. The primary lifts the revocation and restarts before the record
is published, and the next pairing does not wait for it. The device then joins the network
and finds itself nullified. -/
def lostLiftActs : List Act :=
  [.primary (.unpair .saved), .primary (.advance .saved), .primary (.advance .saved),
    .primary (.publish 9), .primary (.notify 1),
    .device (.notice 1 .saved), .device (.advance .saved), .device (.advance .saved),
    .primary (.startPairing 5), .device (.pair 5), .device (.advance .saved),
    .primary (.request 1 5), .primary (.reauth 1 .saved), .primary (.advance .saved),
    .primary (.advance .saved), .primary .restart, .device .giveUp,
    .primary (.sealGroup 9), .primary (.install 9),
    .primary (.startPairing 6), .device (.pair 6), .device (.advance .saved),
    .primary (.request 2 6), .primary (.reauth 2 .saved), .primary (.advance .saved),
    .primary (.advance .saved), .primary (.advance .saved), .primary (.advance .saved),
    .device (.receive 2 2 .saved), .device (.advance .saved), .device (.advance .saved),
    .primary (.certificateSaved 2 2 .saved),
    .device (.fetch 9), .device (.check (.fetched 9 true)),
    .device (.unpairNullified (.nullified 2) .saved), .device (.advance .saved)]

instance (h : List PairEntry) (generation : Nat) : Decidable (StartedFor d h generation) :=
  decidable_of_iff (∃ e ∈ h, (startedBy d e).any fun named => generation ≤ named) (by
    simp [StartedFor, Option.any_eq_true])

/-- A confirmed pairing is undone by an unpair started before it: by its request, which
writes the revocation after the pairing is confirmed, and by a record it left behind. -/
theorem undone_by_earlier_unpair :
    (pairedSystem 7 []).Idle 7 ∧ (pairedSystem 7 [9]).Idle 7 ∧
    (∃ h s, Run (step 7) (pairedSystem 7 []) h s ∧
      (∃ e ∈ h, e.before.primary.revoking = some (.recording 0 1) ∧
        confirmedGeneration e.before.primary.config 7 = some 2 ∧
        7 ∉ e.before.primary.config.revokedDevices ∧
        7 ∈ e.after.primary.config.revokedDevices) ∧ ¬ StartedFor 7 h 2) ∧
    ∃ h s, Run (step 7) (pairedSystem 7 [9]) h s ∧
      (∃ e ∈ h, confirmedGeneration e.before.primary.config 7 = some 2 ∧ Deletes e 2) ∧
      ¬ StartedFor 7 h 2 := by
  exact ⟨pairedSystem_idle _, pairedSystem_idle _,
    ⟨_, _, run_executed recordedLateActs (by decide +kernel), by decide +kernel, by decide +kernel⟩,
    _, _, run_executed lostLiftActs (by decide +kernel), by decide +kernel, by decide +kernel⟩

end Rayfish.Pairing
