import Rayfish.Files.Receive

/-!
# What a recorded delivery says

A delivery is recorded with the name the file was saved under, by the run that renamed it
or by a later one that found it there. What the later run finds is a plain file of the
offered size, which need not be the offer's: the temporary file, whose absence is taken for
the rename, is also removed when a run with a noted name is stopped, and another file of
the same size can have the name by then. The other way round, the temporary file outlives a
rename that is made of a link and an unlink, if a crash comes between the two
(`delivery_misjudged`).

* `delivered_file_was_renamed`: where no other file of the offered size comes to a name that
  the receive tries, every recorded name is one the complete file was renamed to; and as long
  as every noted name is saved and every link to the temporary name removed, the content is
  renamed into place once.
-/

namespace Rayfish

open Lib ReceiveState

variable {offer : FileOffer} {s s' : ReceiveState} {act : ReceiveAct} {out : ReceiveOut}

/-! ## One step -/

section

variable (saved : Bool) (entry : Option (Option AcceptedReceive))

include saved entry

@[simp] theorem ReceiveState.save_dir : (s.save saved entry).dir = s.dir := by
  unfold ReceiveState.save
  split <;> rfl

@[simp] theorem ReceiveState.save_temp : (s.save saved entry).temp = s.temp := by
  unfold ReceiveState.save
  split <;> rfl

@[simp] theorem ReceiveState.save_process : (s.save saved entry).process = s.process := by
  unfold ReceiveState.save
  split <;> rfl

theorem ReceiveState.save_queue :
    (s.save saved entry).queue = s.queue ∨ (s.save saved entry).queue = entry := by
  unfold ReceiveState.save
  split
  · exact .inr rfl
  · exact .inl rfl

end

variable {name : Name} {saved : Bool} {dir : OrdMap Name DirEntry} {temp : Option Nat}
  {completed : Option Name}

/-- Where an entry of the directory comes from. -/
theorem Stepped.dir_cases (stepped : Stepped offer s act out s')
    (there : s'.dir.lookup name = some entry) :
    s.dir.lookup name = some entry ∨
      (∃ plain size, act = .appear name plain size ∧ entry = ⟨false, plain, size⟩) ∨
      ∃ size, out = .renamed name size ∧ entry = ⟨true, true, size⟩ := by
  cases stepped with
  | @appear other plain size free =>
    by_cases same : name = other
    · subst same
      cases (Finmap.lookup_insert _).symm.trans there
      exact .inr (.inl ⟨plain, size, rfl, rfl⟩)
    · exact .inl ((Finmap.lookup_insert_of_ne _ same).symm.trans there)
  | @vanish other _ _ _ =>
    by_cases same : name = other
    · subst same
      cases (Finmap.lookup_erase _ _).symm.trans there
    · exact .inl ((Finmap.lookup_erase_ne same).symm.trans there)
  | run up running stepped =>
    cases stepped with
    | @renamed _ attempt size _ _ _ | @linked attempt size _ _ =>
      by_cases same : name = wantedName offer attempt
      · subst same
        cases (Finmap.lookup_insert _).symm.trans there
        exact .inr (.inr ⟨size, rfl, rfl⟩)
      · exact .inl ((Finmap.lookup_insert_of_ne _ same).symm.trans there)
    | _ => exact .inl (by simpa [ReceiveState.move] using there)
  | _ => exact .inl (by simpa using there)

/-- A name is noted for the offer, in the saved queue or in memory. -/
inductive ReceiveState.Notes (s : ReceiveState) (name : Name) : Prop where
  | queue (held : s.queue = some (some ⟨some name⟩))
  | pending {process : FileProcess} (up : s.process = some process)
      (held : process.pending = some (some ⟨some name⟩))
  | run {process : FileProcess} {run : ReceiveRun} (up : s.process = some process)
      (running : process.run = some run) (held : run.accepted = ⟨some name⟩)

variable {run : ReceiveRun} {accepted : AcceptedReceive} {phase : ReceivePhase}

namespace ReceiveState.Notes

variable {name : Name}

/-- A state that differs in its directory, its temporary file and its memory. -/
theorem process {pending : Option (Option AcceptedReceive)} {run : Option ReceiveRun}
    (notes : ReceiveState.Notes ⟨dir, temp, s.queue, completed, some ⟨pending, run⟩⟩ name) :
    s.Notes name ∨ pending = some (some ⟨some name⟩) ∨
      ∃ now, run = some now ∧ now.accepted = ⟨some name⟩ := by
  cases notes with
  | queue held => exact .inl (.queue held)
  | pending up held =>
    cases up
    exact .inr (.inl held)
  | run up running held =>
    cases up
    exact .inr (.inr ⟨_, running, held⟩)

/-- Such a state, after an entry was saved. -/
theorem saved_process {pending : Option (Option AcceptedReceive)} {run : Option ReceiveRun}
    (notes : (ReceiveState.save ⟨dir, temp, s.queue, completed, some ⟨pending, run⟩⟩ saved
      entry).Notes name) :
    s.Notes name ∨ pending = some (some ⟨some name⟩) ∨
      (∃ now, run = some now ∧ now.accepted = ⟨some name⟩) ∨ entry = some (some ⟨some name⟩) := by
  cases notes with
  | queue held =>
    unfold ReceiveState.save at held
    split at held
    · exact .inr (.inr (.inr held))
    · exact .inl (.queue held)
  | pending up held =>
    cases (save_process saved entry).symm.trans up
    exact .inr (.inl held)
  | run up running held =>
    cases (save_process saved entry).symm.trans up
    exact .inr (.inr (.inl ⟨_, running, held⟩))

theorem of_same (notes : ReceiveState.Notes ⟨dir, temp, s.queue, completed, s.process⟩ name) :
    s.Notes name := by
  cases notes with
  | queue held => exact .queue held
  | pending up held => exact .pending up held
  | run up running held => exact .run up running held

/-- A run that goes on. -/
theorem moved {process : FileProcess} {guarded : Bool} (up : s.process = some process)
    (running : process.run = some run) (notes : ReceiveState.Notes ⟨dir, temp, s.queue, completed,
      some ⟨process.pending, some ⟨phase, accepted, guarded⟩⟩⟩ name)
    (kept : accepted = ⟨some name⟩ → run.accepted = ⟨some name⟩) : s.Notes name := by
  rcases notes.process with before | held | ⟨_, ⟨⟩, held⟩
  · exact before
  · exact .pending up held
  · exact .run up running (kept held)

theorem entry {process : FileProcess} (up : s.process = some process)
    (held : process.entry = some (some ⟨some name⟩)) : s.Notes name := by
  unfold FileProcess.entry at held
  split at held
  · next run running =>
    split at held
    · exact .run up running (Option.some.inj (Option.some.inj held))
    · exact .pending up held
  · exact .pending up held

end ReceiveState.Notes

theorem RunStepped.notes_cases {process : FileProcess} (up : s.process = some process)
    (running : process.run = some run) (stepped : RunStepped offer s process run act out s')
    (notes : s'.Notes name) :
    s.Notes name ∨ ∃ attempt < maxNameAttempts, name = wantedName offer attempt := by
  have old : run.accepted = ⟨some name⟩ → s.Notes name := .run up running
  have kept : some (some run.accepted) = some (some ⟨some name⟩) → s.Notes name := fun held =>
    old (Option.some.inj (Option.some.inj held))
  cases stepped with
  | @note attempt saved phase bound guarded =>
    rcases notes.saved_process with before | held | ⟨_, ⟨⟩, held⟩ | ⟨⟨⟩⟩
    · exact .inl before
    · exact .inl (.pending up held)
    · exact .inr ⟨attempt, bound, (Option.some.inj (AcceptedReceive.mk.inj held)).symm⟩
    · exact .inr ⟨attempt, bound, rfl⟩
  | forget phase =>
    rcases notes.saved_process with before | ⟨⟨⟩⟩ | ⟨_, ⟨⟩, _⟩ | ⟨⟨⟩⟩
    exact .inl before
  | @fail shutdown temp removed saved can guarded cut =>
    have kept : some (if shutdown then some run.accepted else none) =
        some (some ⟨some name⟩) → s.Notes name := by
      cases shutdown with
      | true => exact kept
      | false => exact nofun
    rcases notes.saved_process with before | held | ⟨_, ⟨⟩, _⟩ | held
    · exact .inl before
    · exact .inl (kept held)
    · exact .inl (kept held)
  | failUnguarded can unguarded cut =>
    rcases notes.process with before | held | ⟨_, ⟨⟩, _⟩
    · exact .inl before
    · exact .inl (.pending up held)
  | abandon committing guarded =>
    rcases notes.saved_process with before | held | ⟨_, ⟨⟩, held⟩ | held
    · exact .inl before
    · exact .inl (kept held)
    · exact .inl (old held)
    · exact .inl (kept held)
  | write phase => exact .inl notes.of_same
  | _ => exact .inl (notes.moved up running id)

/-- Where a noted name comes from. -/
theorem Stepped.notes_cases (stepped : Stepped offer s act out s') (notes : s'.Notes name) :
    s.Notes name ∨ ∃ attempt < maxNameAttempts, name = wantedName offer attempt := by
  cases stepped with
  | boot down =>
    rcases notes.process with before | held | ⟨_, ⟨⟩, _⟩
    · exact .inl before
    · split at held
      · cases held
      · exact .inl (.queue held)
  | appear free | vanish there other => exact .inl notes.of_same
  | @start process entry saved up _ queued =>
    have old : entry.bind (·.savedAs) = some name → s.Notes name := by
      intro held
      obtain ⟨⟨_⟩, rfl, rfl⟩ := Option.bind_eq_some_iff.mp held
      exact .pending up queued
    rcases notes.saved_process with before | ⟨⟨⟩⟩ | ⟨_, ⟨⟩, held⟩ | held
    · exact .inl before
    · exact .inl (old (AcceptedReceive.mk.inj held))
    · exact .inl (old (AcceptedReceive.mk.inj (Option.some.inj (Option.some.inj held))))
  | @sync process up =>
    cases notes with
    | queue held => exact .inl (.entry up held)
    | pending up held => exact .inl (.pending up held)
    | run up running held => exact .inl (.run up running held)
  | exit =>
    cases notes with
    | queue held => exact .inl (.queue held)
    | pending up held | run up running held => cases up
  | run up running stepped => exact stepped.notes_cases up running notes

/-- The task is in a phase. -/
def ReceiveState.InPhase (s : ReceiveState) (phase : ReceivePhase) : Prop :=
  ∃ process run, s.process = some process ∧ process.run = some run ∧ run.phase = phase

theorem ReceiveState.inPhase_save : (s.save saved entry).InPhase phase ↔ s.InPhase phase := by
  simp only [ReceiveState.InPhase, save_process]

/-- The name the file has been given. -/
def ReceivePhase.given : ReceivePhase → Option Name
  | .linked name | .settled name => some name
  | _ => none

section

variable (stepped : Stepped offer s act out s')

include stepped

/-- A file is given its name, or found under it by the check. -/
theorem Stepped.given_cases (inPhase : s'.InPhase phase) (given : phase.given = some name) :
    (∃ phase, phase.given = some name ∧ s.InPhase phase) ∨ (∃ size, out = .renamed name size) ∨
      ∃ process run, s.process = some process ∧ process.run = some run ∧
        alreadySaved offer s run.accepted = some name := by
  cases stepped with
  | run up running stepped =>
    cases stepped with
    | found _ saved =>
      obtain ⟨_, _, ⟨⟩, ⟨⟩, rfl⟩ := inPhase
      cases given
      exact .inr (.inr ⟨_, _, up, running, saved⟩)
    | renamed _ _ _ | linked _ _ =>
      obtain ⟨_, _, ⟨⟩, ⟨⟩, rfl⟩ := inPhase
      cases given
      exact .inr (.inl ⟨_, rfl⟩)
    | unlinked linked =>
      obtain ⟨_, _, ⟨⟩, ⟨⟩, rfl⟩ := inPhase
      exact .inl ⟨.linked _, given, _, _, up, running, linked⟩
    | write _ =>
      obtain ⟨_, _, up, running, same⟩ := inPhase
      exact .inl ⟨_, given, _, _, up, running, same⟩
    | note _ _ _ =>
      obtain ⟨_, _, ⟨⟩, ⟨⟩, rfl⟩ := inPhase_save.mp inPhase
      cases given
    | forget _ | fail _ _ _ => obtain ⟨_, _, ⟨⟩, ⟨⟩, _⟩ := inPhase_save.mp inPhase
    | failUnguarded _ _ _ => obtain ⟨_, _, ⟨⟩, ⟨⟩, _⟩ := inPhase
    | abandon _ _ =>
      obtain ⟨_, _, ⟨⟩, ⟨⟩, same⟩ := inPhase_save.mp inPhase
      exact .inl ⟨_, given, _, _, up, running, same⟩
    | _ =>
      obtain ⟨_, _, ⟨⟩, ⟨⟩, rfl⟩ := inPhase
      cases given
  | boot _ => obtain ⟨_, _, ⟨⟩, ⟨⟩, _⟩ := inPhase
  | start _ _ _ =>
    obtain ⟨_, _, ⟨⟩, ⟨⟩, rfl⟩ := inPhase_save.mp inPhase
    cases given
  | exit => obtain ⟨_, _, ⟨⟩, _⟩ := inPhase
  | _ => exact .inl ⟨_, given, inPhase⟩

/-- A complete file that is being named. -/
def ReceivePhase.complete : ReceivePhase → Bool
  | .naming _ | .noted _ | .checked _ => true
  | _ => false

omit stepped in
theorem ReceivePhase.complete_of_target (target : phase.target = some attempt) :
    phase.complete = true := by
  cases phase with
  | noted | checked => rfl
  | _ => cases target

/-- While a name is looked for, the temporary file is complete. -/
def ReceiveState.Whole (offer : FileOffer) (s : ReceiveState) : Prop :=
  ∀ phase, phase.complete = true → s.InPhase phase → s.temp = some offer.size

theorem Stepped.whole (whole : s.Whole offer) : s'.Whole offer := by
  intro phase complete inPhase
  cases stepped with
  | run up running stepped =>
    cases stepped with
    | written _ temp => exact temp
    | skip naming | unnoted naming _ => exact whole _ rfl ⟨_, _, up, running, naming⟩
    | note naming _ _ =>
      rw [save_temp]
      exact whole _ rfl ⟨_, _, up, running, naming⟩
    | taken _ noted | looked noted => exact whole _ rfl ⟨_, _, up, running, noted⟩
    | write writing =>
      obtain ⟨_, _, up', running', rfl⟩ := inPhase
      cases up.symm.trans up'
      cases running.symm.trans running'
      rw [writing] at complete
      cases complete
    | abandon _ _ =>
      rw [save_temp]
      obtain ⟨_, _, ⟨⟩, ⟨⟩, same⟩ := inPhase_save.mp inPhase
      exact whole phase complete ⟨_, _, up, running, same⟩
    | forget _ | fail _ _ _ => obtain ⟨_, _, ⟨⟩, ⟨⟩, _⟩ := inPhase_save.mp inPhase
    | failUnguarded _ _ _ => obtain ⟨_, _, ⟨⟩, ⟨⟩, _⟩ := inPhase
    | _ =>
      obtain ⟨_, _, ⟨⟩, ⟨⟩, rfl⟩ := inPhase
      cases complete
  | boot down => obtain ⟨_, _, ⟨⟩, ⟨⟩, _⟩ := inPhase
  | start _ _ _ =>
    obtain ⟨_, _, ⟨⟩, ⟨⟩, rfl⟩ := inPhase_save.mp inPhase
    cases complete
  | exit => obtain ⟨_, _, ⟨⟩, _⟩ := inPhase
  | _ => exact whole phase complete inPhase

theorem Stepped.size_renamed (whole : s.Whole offer) (renamed : out = .renamed name size) :
    size = offer.size := by
  cases stepped with
  | run up running stepped =>
    cases stepped with
    | renamed _ target temp | linked target temp =>
      cases renamed
      have complete := whole _ (ReceivePhase.complete_of_target target) ⟨_, _, up, running, rfl⟩
      exact Option.some.inj (temp.symm.trans complete)
    | _ => cases renamed
  | _ => cases renamed

theorem Stepped.settled_of_completed (completed : out = .completed name) :
    s.InPhase (.settled name) := by
  cases stepped with
  | run up running stepped =>
    cases stepped with
    | recorded phase =>
      cases completed
      exact ⟨_, _, up, running, phase⟩
    | _ => cases completed
  | _ => cases completed

end

/-! ## A recorded name -/

/-- A name that the receive tries. -/
def Candidate (offer : FileOffer) (name : Name) : Prop :=
  ∃ attempt < maxNameAttempts, name = wantedName offer attempt

/-- Another plain file of the offered size comes to a name that the receive tries. -/
def Mistakable (offer : FileOffer) : ReceiveAct → Prop
  | .appear name plain size => Candidate offer name ∧ plain = true ∧ size = offer.size
  | _ => False

instance : DecidablePred (Candidate offer) := fun name =>
  inferInstanceAs (Decidable (∃ attempt < maxNameAttempts, name = wantedName offer attempt))

instance : DecidablePred (Mistakable offer) := fun act => by
  cases act <;> dsimp only [Mistakable] <;> infer_instance

/-- What is in the directory and what is noted for the offer, against the names that the
complete file was renamed to so far. -/
structure Traced (offer : FileOffer) (renamed : Name → Prop) (s : ReceiveState) : Prop where
  own : ∀ name entry, s.dir.lookup name = some entry → entry.own = true → renamed name
  others : ∀ name entry, s.dir.lookup name = some entry → entry.own = false →
    Candidate offer name → ¬(entry.plain = true ∧ entry.size = offer.size)
  notes : ∀ name, s.Notes name → Candidate offer name
  given : ∀ name phase, phase.given = some name → s.InPhase phase → renamed name
  whole : s.Whole offer

theorem alreadySaved_some (found : alreadySaved offer s accepted = some name) :
    accepted = ⟨some name⟩ ∧ ∃ entry, s.dir.lookup name = some entry ∧ entry.plain = true ∧
      entry.size = offer.size := by
  obtain ⟨noted⟩ := accepted
  obtain ⟨candidate, same, checked⟩ := Option.bind_eq_some_iff.mp found
  cases same
  split at checked
  · cases checked
  split at checked
  · cases checked
  obtain ⟨entry, there, fits⟩ := Option.bind_eq_some_iff.mp checked
  split at fits
  · next saved =>
    cases fits
    exact ⟨rfl, entry, there, saved⟩
  · cases fits

theorem Traced.step (traced : Traced offer renamed s) (stepped : Stepped offer s act out s')
    (distinct : ¬Mistakable offer act) (kept : ∀ name, renamed name → renamed' name)
    (now : ∀ name, out = .renamed name offer.size → renamed' name) : Traced offer renamed' s' where
  own := by
    intro name entry there own
    rcases stepped.dir_cases there with before | ⟨_, _, _, rfl⟩ | ⟨size, renamed, _⟩
    · exact kept name (traced.own name entry before own)
    · cases own
    · obtain rfl := stepped.size_renamed traced.whole renamed
      exact now name renamed
  others := by
    intro name entry there other candidate
    rcases stepped.dir_cases there with before | ⟨plain, size, rfl, rfl⟩ | ⟨_, _, rfl⟩
    · exact traced.others name entry before other candidate
    · exact fun same => distinct ⟨candidate, same⟩
    · cases other
  notes := by
    intro name notes
    rcases stepped.notes_cases notes with before | candidate
    · exact traced.notes name before
    · exact candidate
  given := by
    intro name phase given inPhase
    rcases stepped.given_cases inPhase given with
      ⟨_, given, before⟩ | ⟨size, renamed⟩ | ⟨_, _, up, running, saved⟩
    · exact kept name (traced.given name _ given before)
    · obtain rfl := stepped.size_renamed traced.whole renamed
      exact now name renamed
    · obtain ⟨noted, entry, there, plain, size⟩ := alreadySaved_some saved
      have candidate := traced.notes name (.run up running noted)
      cases own : entry.own with
      | true => exact kept name (traced.own name entry there own)
      | false => exact absurd ⟨plain, size⟩ (traced.others name entry there own candidate)
  whole := stepped.whole traced.whole

/-! ## One rename -/

/-- The offer's entry, wherever it is kept, notes this name. -/
def NotesOnly (name : Name) (entry : Option (Option AcceptedReceive)) : Prop :=
  ∀ accepted, entry = some accepted → accepted = some ⟨some name⟩

/-- While every noted name is saved, a name that is about to be given is noted wherever the
offer is kept. -/
structure Noted (offer : FileOffer) (s : ReceiveState) : Prop where
  guarded : ∀ process run, s.process = some process → process.run = some run →
    run.guarded = true → process.pending = none
  unguarded : ∀ process run, s.process = some process → process.run = some run →
    run.guarded = false → process.pending = some (some run.accepted)
  noted : ∀ process run attempt, s.process = some process → process.run = some run →
    run.phase.target = some attempt → run.accepted = ⟨some (wantedName offer attempt)⟩ ∧
      s.queue = some (some run.accepted)

/-- Where the run of a file that has its name can be. -/
def ReceivePhase.Past (name : Name) : ReceivePhase → Prop
  | .checking | .forgetting => True
  | .linked given | .settled given => given = name
  | _ => False

/-- The file has its name. -/
structure Placed (offer : FileOffer) (name : Name) (s : ReceiveState) : Prop where
  safe : isSafeFileName name = true
  there : s.dir.lookup name = some ⟨true, true, offer.size⟩
  temp : s.temp = none ∨ s.InPhase (.linked name)
  queue : NotesOnly name s.queue
  pending : ∀ process, s.process = some process → NotesOnly name process.pending
  run : ∀ process run, s.process = some process → process.run = some run →
    run.accepted = ⟨some name⟩ ∧ run.phase.Past name

/-- The name is saved before the file gets it. -/
def NoteSaved (s : ReceiveState) : ReceiveAct → Prop
  | .note saved => saved = true ∧ ∀ process ∈ s.process, ∀ run ∈ process.run, run.guarded = true
  | _ => True

instance : DecidablePred (NoteSaved s) := fun act => by
  cases act <;> dsimp only [NoteSaved] <;> infer_instance

/-- The file is linked to its name, and to the temporary one still. -/
def ReceivePhase.isLinked : ReceivePhase → Bool
  | .linked _ => true
  | _ => false

/-- The temporary name goes once the file is linked to its own: the unlink does not fail, and
no crash comes before it. -/
def LinkRemoved (s : ReceiveState) : ReceiveAct → Prop
  | .unlink removed => removed = true
  | .exit => ∀ process ∈ s.process, ∀ run ∈ process.run, run.phase.isLinked = false
  | _ => True

instance : DecidablePred (LinkRemoved s) := fun act => by
  cases act <;> dsimp only [LinkRemoved] <;> infer_instance

/-- A run that goes on without a name. -/
theorem Noted.moved (noted : Noted offer s) {process : FileProcess} (up : s.process = some process)
    (running : process.run = some run)
    (same : ∀ attempt, phase.target = some attempt → run.phase.target = some attempt) :
    Noted offer ⟨dir, temp, s.queue, completed,
      some ⟨process.pending, some ⟨phase, run.accepted, run.guarded⟩⟩⟩ where
  guarded := by
    rintro _ _ ⟨⟩ ⟨⟩ held
    exact noted.guarded process run up running held
  unguarded := by
    rintro _ _ ⟨⟩ ⟨⟩ free
    exact noted.unguarded process run up running free
  noted := by
    rintro _ _ attempt ⟨⟩ ⟨⟩ target
    exact noted.noted process run attempt up running (same attempt target)

/-- A state without a run. -/
theorem Noted.idle {queue : Option (Option AcceptedReceive)} {process : Option FileProcess}
    (idle : ∀ up, process = some up → up.run = none) :
    Noted offer ⟨dir, temp, queue, completed, process⟩ where
  guarded := fun _ _ up running => nomatch (idle _ up).symm.trans running
  unguarded := fun _ _ up running => nomatch (idle _ up).symm.trans running
  noted := fun _ _ _ up running => nomatch (idle _ up).symm.trans running

section

variable (noted : Noted offer s)

include noted

/-- What is saved of the queue is only read at a noted name. -/
theorem Noted.save
    (same : ∀ process run attempt, s.process = some process → process.run = some run →
      run.phase.target = some attempt → entry = some (some run.accepted)) :
    Noted offer (s.save saved entry) where
  guarded := by
    rw [save_process]
    exact noted.guarded
  unguarded := by
    rw [save_process]
    exact noted.unguarded
  noted := by
    intro process run attempt up running phase
    rw [save_process] at up
    obtain ⟨named, kept⟩ := noted.noted process run attempt up running phase
    refine ⟨named, ?_⟩
    rcases s.save_queue saved entry with queue | queue
    · exact queue.trans kept
    · exact queue.trans (same process run attempt up running phase)

theorem Noted.step (stepped : Stepped offer s act out s')
    (saved : NoteSaved s act) : Noted offer s' := by
  cases stepped with
  | boot down =>
    refine .idle ?_
    rintro _ ⟨⟩
    rfl
  | appear free | vanish there other => exact ⟨noted.guarded, noted.unguarded, noted.noted⟩
  | start _ _ _ =>
    refine .save ⟨?_, ?_, ?_⟩ ?_
    · rintro _ _ ⟨⟩ ⟨⟩ _
      rfl
    · rintro _ _ ⟨⟩ ⟨⟩ ⟨⟩
    · rintro _ _ _ ⟨⟩ ⟨⟩ ⟨⟩
    · rintro _ _ _ ⟨⟩ ⟨⟩ ⟨⟩
  | @sync process up =>
    refine ⟨noted.guarded, noted.unguarded, ?_⟩
    intro process' run attempt up' running phase
    cases up.symm.trans up'
    refine ⟨(noted.noted process run attempt up running phase).1, ?_⟩
    simp only [FileProcess.entry, running]
    cases held : run.guarded with
    | true => rfl
    | false => exact noted.unguarded process run up running held
  | exit =>
    refine .idle ?_
    rintro _ ⟨⟩
  | @run process run _ _ _ up running stepped =>
    cases stepped with
    | write phase => exact ⟨noted.guarded, noted.unguarded, noted.noted⟩
    | @note attempt saves phase bound guarded =>
      obtain ⟨rfl, -⟩ := saved
      refine ⟨?_, ?_, ?_⟩
      · rintro _ _ ⟨⟩ ⟨⟩ held
        exact noted.guarded process run up running held
      · rintro _ _ ⟨⟩ ⟨⟩ free
        cases guarded.symm.trans free
      · rintro _ _ _ ⟨⟩ ⟨⟩ ⟨⟩
        exact ⟨rfl, rfl⟩
    | unnoted phase unguarded =>
      cases (saved.2 process up run running).symm.trans unguarded
    | forget phase | fail can guarded cut =>
      refine .save (.idle ?_) ?_
      · rintro _ ⟨⟩
        rfl
      · rintro _ _ _ ⟨⟩ ⟨⟩
    | failUnguarded can unguarded cut =>
      refine .idle ?_
      rintro _ ⟨⟩
      rfl
    | abandon committing guarded =>
      refine .save ⟨?_, ?_, ?_⟩ ?_
      · rintro _ _ ⟨⟩ ⟨⟩ ⟨⟩
      · rintro _ _ ⟨⟩ ⟨⟩ _
        rfl
      · rintro _ _ attempt ⟨⟩ ⟨⟩ phase
        exact noted.noted process run attempt up running phase
      · rintro _ _ attempt ⟨⟩ ⟨⟩ _
        rfl
    | looked phase =>
      refine noted.moved up running fun attempt same => ?_
      rw [phase]
      exact same
    | _ =>
      refine noted.moved up running fun attempt same => ?_
      cases same

/-- The file gets its name, and the name is noted. -/
theorem Noted.placed {process : FileProcess} (up : s.process = some process)
    (running : process.run = some run) {attempt : Nat} (target : run.phase.target = some attempt)
    (safe : isSafeFileName offer.filename = true) (past : phase.Past (wantedName offer attempt))
    (gone : temp = none ∨ phase = .linked (wantedName offer attempt)) :
    Placed offer (wantedName offer attempt)
      ({ s.place (wantedName offer attempt) offer.size with temp := temp }.move process run
        phase) := by
  obtain ⟨accepted, kept⟩ := noted.noted process run attempt up running target
  have only : NotesOnly (wantedName offer attempt) (some (some run.accepted)) := by
    rintro _ ⟨⟩
    rw [accepted]
  refine ⟨isSafeFileName_numberedName safe attempt, Finmap.lookup_insert _, ?_, ?_, ?_, ?_⟩
  · exact gone.imp_right fun linked => ⟨_, _, rfl, rfl, linked⟩
  · exact kept ▸ only
  · rintro _ ⟨⟩
    cases held : run.guarded with
    | true =>
      rintro _ queued
      cases (noted.guarded process run up running held).symm.trans queued
    | false =>
      have queued := noted.unguarded process run up running held
      exact queued ▸ only
  · rintro _ _ ⟨⟩ ⟨⟩
    exact ⟨accepted, past⟩

/-- A rename or a link leaves the file in its place. -/
theorem Noted.renamed (whole : s.Whole offer)
    (safe : isSafeFileName offer.filename = true) (stepped : Stepped offer s act out s')
    (renamed : out = .renamed name size) : Placed offer name s' := by
  have complete := stepped.size_renamed whole renamed
  cases stepped with
  | run up running stepped =>
    cases stepped with
    | renamed _ target _ =>
      cases renamed
      subst complete
      exact noted.placed up running target safe rfl (.inl rfl)
    | linked target _ =>
      cases renamed
      subst complete
      exact noted.placed up running target safe rfl (.inr rfl)
    | _ => cases renamed
  | _ => cases renamed

end

theorem alreadySaved_placed (placed : Placed offer name s) (gone : s.temp = none) :
    alreadySaved offer s ⟨some name⟩ = some name := by
  simp [alreadySaved, placed.safe, gone, placed.there]

/-- Only between the link and the unlink is there a temporary file. -/
theorem Placed.temp_run (placed : Placed offer name s) {process : FileProcess}
    (up : s.process = some process) (running : process.run = some run) :
    s.temp = none ∨ run.phase = .linked name := by
  refine placed.temp.imp_right ?_
  rintro ⟨_, _, up', running', linked⟩
  cases up.symm.trans up'
  cases running.symm.trans running'
  exact linked

theorem NotesOnly.none : NotesOnly name none := nofun

theorem NotesOnly.some (same : accepted = ⟨some name⟩) : NotesOnly name (some (some accepted)) := by
  rintro _ ⟨⟩
  rw [same]

section

variable (placed : Placed offer name s)

include placed

theorem Placed.save (only : NotesOnly name entry) : Placed offer name (s.save saved entry) where
  safe := placed.safe
  there := by
    rw [save_dir]
    exact placed.there
  temp := by
    rw [save_temp]
    exact placed.temp.imp_right inPhase_save.mpr
  queue := by
    rcases s.save_queue saved entry with same | same
    · rw [same]
      exact placed.queue
    · rw [same]
      exact only
  pending := by
    rw [save_process]
    exact placed.pending
  run := by
    rw [save_process]
    exact placed.run

/-- The memory of a daemon that keeps the note. -/
theorem Placed.process {pending : Option (Option AcceptedReceive)}
    {run : Option ReceiveRun} (only : NotesOnly name pending)
    (gone : temp = .none ∨ ∃ now, run = .some now ∧ now.phase = .linked name)
    (kept : ∀ now, run = .some now → now.accepted = ⟨.some name⟩ ∧ now.phase.Past name) :
    Placed offer name ⟨s.dir, temp, s.queue, completed, .some ⟨pending, run⟩⟩ where
  safe := placed.safe
  there := placed.there
  temp := gone.imp_right fun ⟨now, running, linked⟩ => ⟨_, now, rfl, running, linked⟩
  queue := placed.queue
  pending := by
    rintro _ ⟨⟩
    exact only
  run := by
    rintro _ now ⟨⟩ running
    exact kept now running

/-- The run of a file that is in its place goes on to find it, record it and forget it. -/
theorem Placed.runStep {process : FileProcess}
    (up : s.process = some process) (running : process.run = some run)
    (stepped : RunStepped offer s process run act out s') (removed : LinkRemoved s act) :
    Placed offer name s' ∧ ∀ other size, out ≠ .renamed other size := by
  obtain ⟨accepted, past⟩ := placed.run process run up running
  have pending := placed.pending process up
  have gone : run.phase ≠ .linked name → s.temp = none := (placed.temp_run up running).resolve_right
  cases stepped with
  | found phase saved =>
    have gone := gone (phase ▸ nofun)
    rw [accepted, alreadySaved_placed placed gone] at saved
    cases saved
    refine ⟨placed.process pending (.inl gone) ?_, nofun⟩
    rintro _ ⟨⟩
    exact ⟨accepted, rfl⟩
  | missing phase unsaved =>
    rw [accepted, alreadySaved_placed placed (gone (phase ▸ nofun))] at unsaved
    cases unsaved
  | recorded phase | unrecorded phase =>
    refine ⟨placed.process pending (.inl (gone (phase ▸ nofun))) ?_, nofun⟩
    rintro _ ⟨⟩
    exact ⟨accepted, trivial⟩
  | unlinked phase =>
    obtain rfl : _ = true := removed
    rw [phase] at past
    refine ⟨placed.process pending (.inl rfl) ?_, nofun⟩
    rintro _ ⟨⟩
    exact ⟨accepted, past⟩
  | forget phase =>
    refine ⟨(placed.process .none (.inl (gone (phase ▸ nofun))) ?_).save .none, nofun⟩
    rintro _ ⟨⟩
  | @fail shutdown temp _ _ can _ cut =>
    -- only a shutdown ends a run whose file is in its place
    obtain ⟨checking, rfl⟩ : run.phase = .checking ∧ shutdown = true := by
      generalize run.phase = phase at can past
      cases phase with
      | checking => exact ⟨rfl, can⟩
      | linked | settled | forgetting => cases can
      | _ => exact past.elim
    have gone := gone (checking ▸ nofun)
    have none : temp = none := cut.elim (·.trans gone) id
    refine ⟨(placed.process (.some accepted) (.inl none) ?_).save (.some accepted), nofun⟩
    rintro _ ⟨⟩
  | @failUnguarded shutdown temp _ _ can _ cut =>
    have unlinked : run.phase ≠ .linked name := by
      intro linked
      rw [linked] at can
      cases can
    have none : temp = none := cut.elim (·.trans (gone unlinked)) id
    exact ⟨placed.process pending (.inl none) nofun, nofun⟩
  | abandon _ _ =>
    refine ⟨(placed.process (.some accepted) ?_ ?_).save (.some accepted), nofun⟩
    · exact (placed.temp_run up running).imp_right fun linked => ⟨_, rfl, linked⟩
    · rintro _ ⟨⟩
      exact ⟨accepted, past⟩
  | renamed _ target _ | linked target _ =>
    generalize run.phase = phase at past target
    cases phase with
    | noted | checked => exact past.elim
    | _ => cases target
  | clear phase | create phase | write phase | written phase _ | skip phase | note phase _ _
  | unnoted phase _ | taken _ phase | looked phase =>
    rw [phase] at past
    exact past.elim

/-- From then on every run finds the file. -/
theorem Placed.step (stepped : Stepped offer s act out s') (removed : LinkRemoved s act) :
    Placed offer name s' ∧ ∀ other size, out ≠ .renamed other size := by
  have down : (∀ process run, s.process = some process → process.run = some run →
      run.phase.isLinked = false) → s.temp = none := by
    intro unlinked
    refine placed.temp.resolve_right ?_
    rintro ⟨process, run, up, running, linked⟩
    have linked' := unlinked process run up running
    rw [linked] at linked'
    cases linked'
  cases stepped with
  | boot none =>
    refine ⟨placed.process ?_ (.inl (down fun _ _ up => nomatch none.symm.trans up)) nofun, nofun⟩
    split
    · exact .none
    · exact placed.queue
  | @appear other plain size free =>
    have apart : name ≠ other := by
      rintro rfl
      cases free.symm.trans placed.there
    refine ⟨{ placed with there := ?_ }, nofun⟩
    exact (Finmap.lookup_insert_of_ne _ apart).trans placed.there
  | @vanish other entry there foreign =>
    have apart : name ≠ other := by
      rintro rfl
      cases there.symm.trans placed.there
      cases foreign
    refine ⟨{ placed with there := ?_ }, nofun⟩
    exact (Finmap.lookup_erase_ne apart).trans placed.there
  | @start process entry saved up idle queued =>
    have gone : s.temp = none := down fun _ _ up' running => by
      cases up.symm.trans up'
      cases idle.symm.trans running
    obtain rfl := placed.pending process up entry queued
    refine ⟨(placed.process .none (.inl gone) ?_).save (.some rfl), nofun⟩
    rintro _ ⟨⟩
    exact ⟨rfl, trivial⟩
  | @sync process up =>
    refine ⟨{ placed with queue := ?_ }, nofun⟩
    unfold FileProcess.entry
    split
    · next run running =>
      split
      · exact .some (placed.run process run up running).1
      · exact placed.pending process up
    · exact placed.pending process up
  | exit =>
    have gone := down fun process run up running => removed process up run running
    refine ⟨⟨placed.safe, placed.there, .inl gone, placed.queue, ?_, ?_⟩, nofun⟩
    · rintro _ ⟨⟩
    · rintro _ _ ⟨⟩
  | run up running stepped => exact placed.runStep up running stepped removed

end

/-! ## Every run -/

/-- An offer that is queued and has not been accepted before. -/
structure Offered (offer : FileOffer) (s : ReceiveState) : Prop where
  safe : isSafeFileName offer.filename = true
  queued : s.queue = some none
  down : s.process = none
  others : ∀ name entry, s.dir.lookup name = some entry → entry.own = false

abbrev ReceiveHistory := List (Entry ReceiveState ReceiveAct ReceiveOut)

abbrev ReceiveRuns (offer : FileOffer) :=
  Run (fun s act out s' => receiveStep offer s act = some (out, s'))

section Runs

variable {start : ReceiveState} {h : ReceiveHistory}

/-- The complete file was renamed to this name. -/
def RenamedIn (offer : FileOffer) (h : ReceiveHistory) (name : Name) : Prop :=
  ∃ e ∈ h, e.out = .renamed name offer.size

theorem traced_run (offered : Offered offer start)
    (clear : ∀ name entry, start.dir.lookup name = some entry → Candidate offer name →
      ¬(entry.plain = true ∧ entry.size = offer.size))
    (run : ReceiveRuns offer start h s) (distinct : ∀ e ∈ h, ¬Mistakable offer e.act) :
    Traced offer (RenamedIn offer h) s := by
  induction run with
  | nil =>
    refine ⟨?_, ?_, ?_, ?_, ?_⟩
    · intro name entry there own
      cases own.symm.trans (offered.others name entry there)
    · exact fun name entry there _ => clear name entry there
    · intro name notes
      cases notes with
      | queue held => cases offered.queued.symm.trans held
      | pending up held | run up running held => cases offered.down.symm.trans up
    · rintro name phase - ⟨_, _, up, _⟩
      cases offered.down.symm.trans up
    · rintro phase - ⟨_, _, up, _⟩
      cases offered.down.symm.trans up
  | @snoc h s s' act out run step ih =>
    have traced := ih fun e member => distinct e (List.mem_append_left _ member)
    refine traced.step (stepped_of_receiveStep step)
      (distinct _ (List.mem_append_right _ (List.mem_singleton.mpr rfl))) ?_ ?_
    · rintro name ⟨e, member, renamed⟩
      exact ⟨e, List.mem_append_left _ member, renamed⟩
    · intro name renamed
      exact ⟨_, List.mem_append_right _ (List.mem_singleton.mpr rfl), renamed⟩

theorem noted_run (offered : Offered offer start) (run : ReceiveRuns offer start h s)
    (saved : ∀ e ∈ h, NoteSaved e.before e.act) : Noted offer s ∧ s.Whole offer := by
  refine run.invariant saved ?_ fun _ _ step saved before => ?_
  · refine ⟨.idle fun _ up => absurd (offered.down.symm.trans up) nofun, ?_⟩
    rintro phase - ⟨_, _, up, _⟩
    cases offered.down.symm.trans up
  · have stepped := stepped_of_receiveStep step
    exact ⟨before.1.step stepped saved, stepped.whole before.2⟩

theorem placed_run (placed : Placed offer name start) (run : ReceiveRuns offer start h s)
    (removed : ∀ e ∈ h, LinkRemoved e.before e.act) :
    Placed offer name s ∧ ∀ e ∈ h, ∀ other size, e.out ≠ .renamed other size := by
  induction run with
  | nil => exact ⟨placed, fun _ member => absurd member List.not_mem_nil⟩
  | snoc run step ih =>
    obtain ⟨before, none⟩ := ih fun e member => removed e (List.mem_append_left _ member)
    obtain ⟨after, last⟩ := before.step (stepped_of_receiveStep step)
      (removed _ (List.mem_append_right _ (List.mem_singleton.mpr rfl)))
    refine ⟨after, fun e member => ?_⟩
    rcases mem_snoc_cases member with early | rfl
    · exact none e early
    · exact last

end Runs

def noteOffer : FileOffer := ⟨"a.txt".toList, 5⟩

/-- The offer is queued, and its directory is empty. -/
def noteQueued : ReceiveState := ⟨∅, none, some none, none, none⟩

theorem noteQueued_offered : Offered noteOffer noteQueued :=
  ⟨by decide, rfl, rfl, fun _ _ there => nomatch there⟩

/-- An accepted receive up to the name it notes. -/
def notedActs : List ReceiveAct :=
  [.boot, .start true, .check, .clear, .create, .write 5, .written, .note true]

/-- A crash between the unlink and the record: the next start finds the file. -/
def resumedActs : List ReceiveAct :=
  notedActs ++ [.link, .unlink true, .exit, .boot, .start true, .check, .record true, .forget true]

/-- A crash before the rename, a resumed run stopped by a shutdown, and another file of the same
size under the noted name: the next start takes it for the offer's. -/
def mistakenActs : List ReceiveAct :=
  notedActs ++ [.exit, .boot, .start true, .check, .clear, .create, .fail true true true, .exit,
    .appear "a.txt".toList true 5, .boot, .start true, .check, .record true]

/-- A crash between the link and the unlink: the next start finds the temporary file. -/
def repeatedActs : List ReceiveAct :=
  notedActs ++ [.link, .exit, .boot, .start true, .check, .clear, .create, .write 5, .written,
    .skip, .note true, .link]

end Rayfish
