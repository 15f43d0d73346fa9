import Rayfish.Pairing.Protocol

/-!
# What a step of a pairing does

* `PrimaryOp.Ran`, `PrimaryOp.ran_of_run`: every outcome of a step of the primary;
* `DeviceOp.Ran`, `DeviceOp.ran_of_run`: the same for the device.

A write that can fail leaves either the old or the new file.
-/

namespace Rayfish.Pairing

section Writes

variable {α : Type} {write : Write} {old new result : α}

theorem Write.update_true (eq : write.update old new = (true, result)) :
    write = .saved ∧ result = new := by
  unfold Write.update at eq
  split at eq <;> cases eq
  exact ⟨rfl, rfl⟩

theorem Write.update_cases (write : Write) (old new : α) :
    (write.update old new).2 = old ∨ (write.update old new).2 = new := by
  unfold Write.update
  split
  · exact .inr rfl
  · exact .inr rfl
  · exact .inl rfl

theorem Write.update_snd (eq : write.update old new = (ok, result)) :
    result = old ∨ result = new := by
  have cases := write.update_cases old new
  rwa [eq] at cases

/-- What a failed write leaves, with what goes with the old and the new content. -/
theorem Write.update_false (eq : write.update old new = (false, result)) (kept : P)
    (written : Q) : result = old ∧ P ∨ result = new ∧ Q :=
  (Write.update_snd eq).imp (⟨·, kept⟩) (⟨·, written⟩)

end Writes

/-! ## The primary -/

/-- Where a revocation is written, with the rest of that write and what comes after it. -/
inductive PrimaryOp.Revokes (d : EndpointId) (p : Primary) :
    PrimaryOp → (AppConfig → AppConfig) → Sequel → Prop
  | unpair (write : Write) (idle : p.revoking = none) :
      Revokes d p (.unpair write) (saveUnpairNotice · d) .done
  | recording (conn generation : Nat) (write : Write)
      (checked : p.revoking = some (.recording conn generation)) :
      Revokes d p (.advance write) (clearUnpairNotice · d) (.answer conn)
  | puttingBack (write : Write) (failed : p.revoking = some .puttingBack) :
      Revokes d p (.advance write) id .refuse

/-- What a step of the primary can do. -/
inductive PrimaryOp.Ran (d : EndpointId) (sent : List Message) (p : Primary) :
    PrimaryOp → Primary → List Message → Prop
  /-- The settings and the records stay, and no task gets further with the lock. -/
  | quiet (config : p'.config = p.config) (listing : p'.listing = p.listing)
      (revoking : p'.revoking = p.revoking ∨ p'.revoking = none)
      (awaiting : ∀ waits ∈ p'.awaiting, waits ∈ p.awaiting)
      (replies : ∀ msg ∈ sends, ∃ conn, msg = .unpairRecorded conn) :
      Ran d sent p op p' sends
  | lifts (conn : Nat) (write : Write) (idle : p.revoking = none) :
      Ran d sent p (.reauth conn write)
        { p with
          config := liftRevocation p.config d
          accepted := p.accepted.erase conn
          revoking := some (.lifting conn (decide (d ∈ p.config.revokedDevices)) p.running []) } []
  | liftFails (conn : Nat) (write : Write) (config : AppConfig) (idle : p.revoking = none)
      (written : config = p.config ∨ config = liftRevocation p.config d) :
      Ran d sent p (.reauth conn write)
        { p with config := config, accepted := p.accepted.erase conn } []
  | revokes (op : PrimaryOp) (also : AppConfig → AppConfig) (sequel : Sequel)
      (origin : PrimaryOp.Revokes d p op also sequel) :
      Ran d sent p op
        { p with
          config := also (saveRevocation p.config d)
          revoking := some (.nullifying p.running sequel) } []
  | revokeFails (op : PrimaryOp) (also : AppConfig → AppConfig) (sequel : Sequel)
      (config : AppConfig) (origin : PrimaryOp.Revokes d p op also sequel)
      (written : config = p.config ∨ config = also (saveRevocation p.config d)) :
      Ran d sent p op { p with config := config, revoking := none } []
  | checks (conn generation : Nat) (asked : .unpairRequest conn generation ∈ sent)
      (idle : p.revoking = none)
      (current : ∀ confirmed, confirmedGeneration p.config d = some confirmed →
        confirmed ≤ generation) :
      Ran d sent p (.unpairRequest conn generation)
        { p with revoking := some (.recording conn generation) } []
  | nullifies (network : EndpointId) (left : List EndpointId) (sequel : Sequel) (write : Write)
      (held : p.revoking = some (.nullifying (network :: left) sequel)) :
      Ran d sent p (.advance write)
        { p.save network true write with revoking := some (.nullifying left sequel) } []
  | liftsNetwork (conn : Nat) (lifted : Bool) (network : EndpointId)
      (left changed : List EndpointId)
      (held : p.revoking = some (.lifting conn lifted (network :: left) changed))
      (live : (p.listing network).live = true) :
      Ran d sent p (.advance .saved)
        { p.save network false .saved with
          revoking := some (.lifting conn true left (changed ++ [network])) } []
  | liftNetworkFails (conn : Nat) (lifted : Bool) (network : EndpointId)
      (left changed : List EndpointId) (write : Write)
      (held : p.revoking = some (.lifting conn lifted (network :: left) changed))
      (live : (p.listing network).live = true) :
      Ran d sent p (.advance write)
        { p.save network false write with revoking := some .puttingBack } []
  | skips (conn : Nat) (lifted : Bool) (network : EndpointId) (left changed : List EndpointId)
      (write : Write)
      (held : p.revoking = some (.lifting conn lifted (network :: left) changed)) :
      Ran d sent p (.advance write)
        { p with revoking := some (.lifting conn lifted left changed) } []
  | waits (conn : Nat) (lifted : Bool) (changed : List EndpointId) (write : Write)
      (held : p.revoking = some (.lifting conn lifted [] changed)) :
      Ran d sent p (.advance write)
        { p with revoking := some (.publishing conn lifted changed) } []
  | gotPublished (conn : Nat) (lifted : Bool) (changed : List EndpointId) (write : Write)
      (held : p.revoking = some (.publishing conn lifted changed)) :
      Ran d sent p (.advance write) { p with revoking := some (.saving conn lifted) } []
  | timesOut (conn : Nat) (lifted : Bool) (changed : List EndpointId)
      (held : p.revoking = some (.publishing conn lifted changed)) (left : changed ≠ []) :
      Ran d sent p .giveUp { p with revoking := some .puttingBack } []
  | issues (conn : Nat) (lifted : Bool) (held : p.revoking = some (.saving conn lifted)) :
      Ran d sent p (.advance .saved)
        { p with
          config := savePairingGeneration p.config d
          revoking := none
          awaiting := (conn, issuedGeneration p.config d + 1) :: p.awaiting }
        [.response conn (issuedGeneration p.config d + 1)]
  | issueFails (conn : Nat) (lifted : Bool) (write : Write) (config : AppConfig)
      (held : p.revoking = some (.saving conn lifted))
      (written : config = p.config ∨ config = savePairingGeneration p.config d) :
      Ran d sent p (.advance write)
        { p with
          config := config
          revoking := if lifted then some .puttingBack else none } []
  | confirms (conn generation : Nat) (write : Write) (config : AppConfig)
      (awaited : (conn, generation) ∈ p.awaiting)
      (written : config = p.config ∨ config = saveCertificateSaved p.config d generation) :
      Ran d sent p (.certificateSaved conn generation write)
        { p with config := config, awaiting := p.awaiting.erase (conn, generation) } []
  | notifies (generation : Nat) (waiting : ⟨d, generation⟩ ∈ p.config.pendingUnpairNotices) :
      Ran d sent p (.notify generation) p [.pairingRevoked generation]
  | stores (network : EndpointId) :
      Ran d sent p (.store network) (p.save network (p.listing network).live .saved) []
  | publishes (network : EndpointId) :
      Ran d sent p (.publish network)
        (p.setListing network
          { p.listing network with
            published := (p.listing network).stored
            unpublished := false }) []
  | seals (network : EndpointId) : Ran d sent p (.sealGroup network) (p.sealed d network) []

variable {d : EndpointId} {sent sends : List Message} {p p' : Primary}

theorem Primary.revoke_ran (origin : PrimaryOp.Revokes d p op also sequel) (write : Write) :
    PrimaryOp.Ran d sent p op (p.revoke d write also sequel) [] := by
  unfold Primary.revoke
  split
  · next saved =>
    obtain ⟨-, rfl⟩ := Write.update_true saved
    exact .revokes op also sequel origin
  · next failed => exact .revokeFails op also sequel _ origin (Write.update_snd failed)

theorem Primary.issue_ran (held : p.revoking = some (.saving conn lifted)) (write : Write) :
    PrimaryOp.Ran d sent p (.advance write) (p.issue d conn lifted write).1
      (p.issue d conn lifted write).2 := by
  unfold Primary.issue
  split
  · next saved =>
    obtain ⟨rfl, rfl⟩ := Write.update_true saved
    exact .issues conn lifted held
  · next failed => exact .issueFails conn lifted write _ held (Write.update_snd failed)

theorem Primary.reauth_ran (idle : p.revoking = none) (write : Write) :
    PrimaryOp.Ran d sent p (.reauth conn write) (p.reauth d conn write) [] := by
  unfold Primary.reauth
  split
  · exact .quiet rfl rfl (.inl rfl) (fun _ waits => waits) (by simp)
  split
  · next saved =>
    obtain ⟨rfl, rfl⟩ := Write.update_true saved
    exact .lifts conn .saved idle
  · next failed => exact .liftFails conn write _ idle (Write.update_snd failed)

theorem Primary.advance_ran (is : p.revoking = some held)
    (ran : p.advance d write held = some (p', sends)) :
    PrimaryOp.Ran d sent p (.advance write) p' sends := by
  unfold Primary.advance at ran
  split at ran
  · next conn generation =>
    cases ran
    exact Primary.revoke_ran (.recording conn generation write is) write
  · next network left sequel =>
    cases ran
    exact .nullifies network left sequel write is
  · cases ran
    exact .quiet rfl rfl (.inr rfl) (fun _ waits => waits) (by simp)
  · cases ran
    exact .quiet rfl rfl (.inr rfl) (fun _ waits => waits) (by simp)
  · next conn lifted network left changed =>
    split at ran
    · next live =>
      cases ran
      split
      · next saved =>
        subst saved
        exact .liftsNetwork conn lifted network left changed is live
      · exact .liftNetworkFails conn lifted network left changed write is live
    · cases ran
      exact .skips conn lifted network left changed write is
  · next conn lifted changed =>
    cases ran
    exact .waits conn lifted changed write is
  · next conn lifted changed =>
    split at ran <;> cases ran
    exact .gotPublished conn lifted changed write is
  · next conn lifted =>
    simp only [Option.some.injEq] at ran
    have issued : PrimaryOp.Ran d sent p (.advance write) _ _ := Primary.issue_ran is write
    rwa [ran] at issued
  · cases ran
    exact Primary.revoke_ran (.puttingBack write is) write

theorem PrimaryOp.ran_of_run (ran : op.run d sent p = some (p', sends)) :
    PrimaryOp.Ran d sent p op p' sends := by
  cases op with
  | startPairing secret | closePairing =>
    cases ran
    exact .quiet rfl rfl (.inl rfl) (fun _ waits => waits) (by simp)
  | request conn secret =>
    have ran := (Option.ite_none_right_eq_some.1 ran).2
    split at ran
    · cases ran
      exact .quiet rfl rfl (.inl rfl) (fun _ waits => waits) (by simp)
    · cases ran
      exact .quiet rfl rfl (.inl rfl) (fun _ waits => waits) (by simp)
  | reauth conn write =>
    obtain ⟨can, ran⟩ := Option.ite_none_right_eq_some.1 ran
    cases ran
    exact Primary.reauth_ran can.2 write
  | unpair write =>
    obtain ⟨idle, ran⟩ := Option.ite_none_right_eq_some.1 ran
    cases ran
    exact Primary.revoke_ran (.unpair write idle) write
  | unpairRequest conn generation =>
    obtain ⟨can, ran⟩ := Option.ite_none_right_eq_some.1 ran
    split at ran
    · cases ran
      exact .quiet rfl rfl (.inl rfl) (fun _ waits => waits) (by simp)
    next current =>
    cases ran
    refine .checks conn generation can.1 can.2 fun confirmed is => ?_
    simpa [is] using current
  | advance write =>
    obtain ⟨held, is, ran⟩ := Option.bind_eq_some_iff.1 ran
    exact Primary.advance_ran is ran
  | giveUp =>
    simp only [PrimaryOp.run] at ran
    split at ran
    · next conn lifted changed held =>
      split at ran <;> cases ran
      next waiting =>
      refine .timesOut conn lifted changed held ?_
      rintro rfl
      cases waiting
    · cases ran
  | certificateSaved conn generation write =>
    obtain ⟨can, ran⟩ := Option.ite_none_right_eq_some.1 ran
    cases ran
    exact .confirms conn generation write _ can.2 (write.update_cases _ _)
  | forget conn generation =>
    cases ran
    exact .quiet rfl rfl (.inl rfl) (fun _ waits => List.mem_of_mem_erase waits) (by simp)
  | notify generation =>
    obtain ⟨waiting, ran⟩ := Option.ite_none_right_eq_some.1 ran
    cases ran
    exact .notifies generation waiting
  | store network =>
    cases (Option.ite_none_right_eq_some.1 ran).2
    exact .stores network
  | publish network =>
    cases (Option.ite_none_right_eq_some.1 ran).2
    exact .publishes network
  | sealGroup network =>
    cases (Option.ite_none_right_eq_some.1 ran).2
    exact .seals network
  | install network =>
    cases (Option.ite_none_right_eq_some.1 ran).2
    exact .quiet rfl rfl (.inl rfl) (fun _ waits => waits) (by simp)
  | restart =>
    cases ran
    exact .quiet rfl rfl (.inr rfl) (by simp) (by simp)

/-! ## The device -/

/-- Where an unpair of the stored certificate begins. -/
inductive DeviceOp.Begins (sent : List Message) (dev : Device) (cert : Nat) : DeviceOp → Prop
  | user (write : Write) : Begins sent dev cert (.unpairSelf write)
  | notice (generation : Nat) (write : Write) (told : .pairingRevoked generation ∈ sent)
      (covers : cert ≤ generation) : Begins sent dev cert (.notice generation write)
  | nullified (write : Write) (read : .nullified cert ∈ dev.reads) :
      Begins sent dev cert (.unpairNullified (.nullified cert) write)

/-- What a step of the device can do. Where a write can fail, `written` says what is on
disk after it. -/
inductive DeviceOp.Ran (listing : EndpointId → Listing) (sent : List Message) (dev : Device) :
    DeviceOp → Device → List Message → Prop
  /-- Nothing on disk changes, and the task that held the lock may have ended. -/
  | quiet (cert : dev'.cert = dev.cert)
      (pending : dev'.pending = dev.pending)
      (unpairing : dev'.unpairing = dev.unpairing ∨ dev'.unpairing = none)
      (reads : ∀ read ∈ dev'.reads, read ∈ dev.reads) : Ran listing sent dev op dev' []
  | begins (cert : Nat) (pending : Option PendingUnpair)
      (unpairing : Option Unpairing) (reads : List RecordRead)
      (idle : dev.unpairing = none) (stored : dev.cert = some cert)
      (origin : DeviceOp.Begins sent dev cert op)
      (kept : ∀ read ∈ reads, read ∈ dev.reads)
      (written : pending = dev.pending ∧ unpairing = none ∨
        pending = some ⟨cert, .cleanup⟩ ∧
          (unpairing = none ∨ unpairing = some (.cleaning cert none))) :
      Ran listing sent dev op
        { dev with pending := pending, unpairing := unpairing, reads := reads } []
  | fetches (network : EndpointId) :
      Ran listing sent dev (.fetch network)
        { dev with reads := .fetched network (listing network).published :: dev.reads } []
  | holds (cert : Nat) (stored : dev.cert = some cert) :
      Ran listing sent dev .hold { dev with reads := .holding cert :: dev.reads } []
  | judges (network : EndpointId) (cert : Nat) (read : .fetched network true ∈ dev.reads)
      (stored : dev.cert = some cert) :
      Ran listing sent dev (.check (.fetched network true))
        { dev with reads := .nullified cert :: dev.reads.erase (.fetched network true) } []
  | judgesHeld (network : EndpointId) (cert : Nat) (read : .holding cert ∈ dev.reads)
      (published : (listing network).published = true) :
      Ran listing sent dev (.fetchFor (.holding cert) network)
        { dev with reads := .nullified cert :: dev.reads.erase (.holding cert) } []
  | cleans (cert : Nat) (secret : Option Nat) (idle : dev.unpairing = none)
      (left : dev.pending = some ⟨cert, .cleanup⟩) :
      Ran listing sent dev op { dev with unpairing := some (.cleaning cert secret) } []
  | asks (cert : Nat) (write : Write) (idle : dev.unpairing = none)
      (left : dev.pending = some ⟨cert, .request⟩) :
      Ran listing sent dev (.attempt write)
        { dev with unpairing := some (.asking sent.length cert) }
        [.unpairRequest sent.length cert]
  /-- The request is recorded, or cancelled by a new pairing. -/
  | drops (cert : Nat) (pending : Option PendingUnpair)
      (written : pending = dev.pending ∨ pending = dev.removePending cert) :
      Ran listing sent dev op { dev with pending := pending, unpairing := none } []
  | pairs (secret : Nat) (idle : dev.unpairing = none)
      (clean : ∀ cert, dev.pending ≠ some ⟨cert, .cleanup⟩) :
      Ran listing sent dev (.pair secret) { dev with unpairing := some (.dialing secret) } []
  | deletes (cert : Nat) (secret : Option Nat) (write : Write) (stored : Option Nat)
      (unpairing : Option Unpairing) (held : dev.unpairing = some (.cleaning cert secret))
      (written : stored = dev.cert ∧ unpairing = none ∨
        stored = none ∧ (unpairing = none ∨ unpairing = some (.cleaned cert secret))) :
      Ran listing sent dev (.advance write)
        { dev with cert := stored, unpairing := unpairing } []
  | completes (cert : Nat) (secret : Option Nat) (write : Write)
      (pending : Option PendingUnpair) (unpairing : Option Unpairing)
      (held : dev.unpairing = some (.cleaned cert secret))
      (written : pending = dev.pending ∧ unpairing = none ∨
        pending = dev.completed cert ∧ (unpairing = none ∨ unpairing = secret.map .dialing)) :
      Ran listing sent dev (.advance write)
        { dev with pending := pending, unpairing := unpairing } []
  | dials (secret : Nat) (write : Write) (held : dev.unpairing = some (.dialing secret)) :
      Ran listing sent dev (.advance write)
        { dev with unpairing := some (.awaiting sent.length) } [.request sent.length secret]
  | receives (conn generation : Nat) (write : Write) (cert : Option Nat)
      (unpairing : Option Unpairing) (held : dev.unpairing = some (.awaiting conn))
      (given : .response conn generation ∈ sent)
      (written : cert = dev.cert ∧ unpairing = none ∨
        cert = some generation ∧ (unpairing = none ∨ unpairing = some (.stored conn generation))) :
      Ran listing sent dev (.receive conn generation write)
        { dev with cert := cert, unpairing := unpairing } []
  | cancels (conn generation : Nat) (write : Write) (pending : Option PendingUnpair)
      (held : dev.unpairing = some (.stored conn generation))
      (written : pending = dev.pending ∨ pending = none) :
      Ran listing sent dev (.advance write)
        { dev with pending := pending, unpairing := some (.confirming conn generation) } []
  | confirms (conn generation : Nat) (write : Write)
      (held : dev.unpairing = some (.confirming conn generation)) :
      Ran listing sent dev (.advance write)
        { dev with unpairing := none } [.certificateSaved conn generation]
  | restarts (resumed : Resumed) :
      Ran listing sent dev (.restart resumed)
        ({ dev with unpairing := none, reads := [] }.resume resumed) []

variable {listing : EndpointId → Listing} {dev dev' : Device}

theorem Device.unpairSelfLocked_ran {op : DeviceOp} {cert : Nat} (idle : dev.unpairing = none)
    (stored : dev.cert = some cert) (origin : DeviceOp.Begins sent dev cert op) (write : Write)
    (reads : List RecordRead) (kept : ∀ read ∈ reads, read ∈ dev.reads) :
    DeviceOp.Ran listing sent dev op
      ({ dev with reads := reads }.unpairSelfLocked cert write) [] := by
  unfold Device.unpairSelfLocked
  split
  · next saved =>
    obtain ⟨-, rfl⟩ := Write.update_true saved
    exact .begins cert _ _ reads idle stored origin kept (.inr ⟨rfl, .inr rfl⟩)
  · next failed =>
    simp only [idle]
    exact .begins cert _ _ reads idle stored origin kept (Write.update_false failed rfl (.inl rfl))

theorem Device.attempt_ran (idle : dev.unpairing = none) (write : Write) :
    DeviceOp.Ran listing sent dev (.attempt write) (dev.attempt sent.length write).1
      (dev.attempt sent.length write).2 := by
  unfold Device.attempt
  split
  · exact .quiet rfl rfl (.inl rfl) fun _ read => read
  · next cert left => exact .cleans cert none idle left
  next cert left =>
  split
  · have dropped : DeviceOp.Ran listing sent dev (.attempt write) _ [] :=
      .drops cert _ (write.update_cases dev.pending (dev.removePending cert))
    rwa [← idle] at dropped
  · exact .asks cert write idle left

theorem Device.advance_ran (is : dev.unpairing = some held)
    (ran : dev.advance sent.length write held = some (dev', sends)) :
    DeviceOp.Ran listing sent dev (.advance write) dev' sends := by
  unfold Device.advance at ran
  split at ran
  · next cert secret =>
    split at ran <;> cases ran
    · next saved =>
      obtain ⟨-, rfl⟩ := Write.update_true saved
      exact .deletes cert secret write _ _ is (.inr ⟨rfl, .inr rfl⟩)
    · next failed =>
      exact .deletes cert secret write _ _ is (Write.update_false failed rfl (.inl rfl))
  · next cert secret =>
    split at ran <;> cases ran
    · next saved =>
      obtain ⟨-, rfl⟩ := Write.update_true saved
      exact .completes cert secret write _ _ is (.inr ⟨rfl, .inr rfl⟩)
    · next failed =>
      exact .completes cert secret write _ _ is (Write.update_false failed rfl (.inl rfl))
  · next secret =>
    cases ran
    exact .dials secret write is
  · next conn generation =>
    cases ran
    exact .cancels conn generation write _ is (write.update_cases _ _)
  · next conn generation =>
    cases ran
    exact .confirms conn generation write is
  · cases ran
  · cases ran

theorem DeviceOp.ran_of_run (ran : op.run listing sent dev = some (dev', sends)) :
    DeviceOp.Ran listing sent dev op dev' sends := by
  cases op with
  | unpairSelf write =>
    obtain ⟨idle, ran⟩ := Option.ite_none_right_eq_some.1 ran
    obtain ⟨cert, stored, same⟩ := Option.map_eq_some_iff.1 ran
    cases same
    exact Device.unpairSelfLocked_ran idle stored (.user write) write dev.reads fun _ read => read
  | notice generation write =>
    obtain ⟨can, ran⟩ := Option.ite_none_right_eq_some.1 ran
    split at ran
    · next cert stored =>
      split at ran <;> cases ran
      · exact .quiet rfl rfl (.inl rfl) fun _ read => read
      next older =>
      exact Device.unpairSelfLocked_ran can.2 stored
        (.notice generation write can.1 (Nat.le_of_not_lt older)) write dev.reads
        fun _ read => read
    · cases ran
      exact .quiet rfl rfl (.inl rfl) fun _ read => read
  | fetch network =>
    cases ran
    exact .fetches network
  | check read =>
    obtain ⟨listed, ran⟩ := Option.ite_none_right_eq_some.1 ran
    split at ran <;> cases ran
    · next network cert stored => exact .judges network cert listed stored
    · exact .quiet rfl rfl (.inl rfl) fun _ read => List.mem_of_mem_erase read
  | hold =>
    obtain ⟨cert, stored, same⟩ := Option.map_eq_some_iff.1 ran
    cases same
    exact .holds cert stored
  | fetchFor read network =>
    simp only [DeviceOp.run] at ran
    split at ran
    · next listed =>
      split at ran
      · next cert =>
        split at ran <;> cases ran
        · next published => exact .judgesHeld network cert listed published
        · exact .quiet rfl rfl (.inl rfl) fun _ read => List.mem_of_mem_erase read
      · cases ran
    · cases ran
  | unpairNullified read write =>
    obtain ⟨can, ran⟩ := Option.ite_none_right_eq_some.1 ran
    split at ran
    · next cert =>
      split at ran <;> cases ran
      · next stored =>
        exact Device.unpairSelfLocked_ran can.2 stored (.nullified write can.1) write _
          fun _ read => List.mem_of_mem_erase read
      · exact .quiet rfl rfl (.inl rfl) fun _ read => List.mem_of_mem_erase read
    · cases ran
  | attempt write =>
    obtain ⟨idle, ran⟩ := Option.ite_none_right_eq_some.1 ran
    simp only [Option.some.injEq] at ran
    have attempted : DeviceOp.Ran listing sent dev (.attempt write) _ _ :=
      Device.attempt_ran idle write
    rwa [ran] at attempted
  | recorded conn write =>
    simp only [DeviceOp.run] at ran
    split at ran
    · next own cert held =>
      split at ran <;> cases ran
      exact .drops cert _ (write.update_cases _ _)
    · cases ran
  | pair secret =>
    obtain ⟨idle, ran⟩ := Option.ite_none_right_eq_some.1 ran
    cases ran
    unfold Device.pair
    split
    · next cert left => exact .cleans cert (some secret) idle left
    · next clean => exact .pairs secret idle clean
  | receive conn generation write =>
    obtain ⟨can, ran⟩ := Option.ite_none_right_eq_some.1 ran
    split at ran <;> cases ran
    · next saved =>
      obtain ⟨-, rfl⟩ := Write.update_true saved
      exact .receives conn generation write _ _ can.1 can.2 (.inr ⟨rfl, .inr rfl⟩)
    · next failed =>
      exact .receives conn generation write _ _ can.1 can.2
        (Write.update_false failed rfl (.inl rfl))
  | advance write =>
    obtain ⟨held, is, ran⟩ := Option.bind_eq_some_iff.1 ran
    exact Device.advance_ran is ran
  | giveUp =>
    simp only [DeviceOp.run] at ran
    split at ran <;> cases ran
    exact .quiet rfl rfl (.inr rfl) fun _ read => read
  | restart resumed =>
    cases ran
    exact .restarts resumed

end Rayfish.Pairing
