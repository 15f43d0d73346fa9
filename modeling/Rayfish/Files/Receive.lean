import Rayfish.Files.DestName
import Rayfish.Lib.MapFold
import Rayfish.Lib.Run

/-!
# Receiving a file

One accepted offer on its way into its directory (`receive.rs`, `receive_dest.rs`): it is
fetched, written under a temporary name, given its own name, recorded as delivered and then
forgotten. Just before the rename the queue that survives a restart notes the name. A start
that finds the name noted, a plain file of the offered size under it and no temporary file
takes the file for saved. Where the filesystem has no exclusive rename, the file is linked to
its name and then unlinked from the temporary one, or renamed after a look whether the name
is free. Every save of the queue can fail, the daemon can crash between any two steps and
shut down in any of them, and other files come and go in the directory.
-/

namespace Rayfish

open Lib

structure FileOffer where
  filename : Name
  size : Nat

/-- An entry of the directory. `own` tells whether it is the offer's content, which the code
cannot see. -/
structure DirEntry where
  own : Bool
  plain : Bool
  size : Nat

structure AcceptedReceive where
  /-- The name the complete file was being renamed to. -/
  savedAs : Option Name

inductive ReceivePhase where
  | checking
  | fetching
  /-- No file is under the temporary name. -/
  | cleared
  | writing
  /-- Looking for a free name. -/
  | naming (attempt : Nat)
  /-- About to rename to a name that has been noted. -/
  | noted (attempt : Nat)
  /-- About to rename to a name that was seen free, whatever has it by then. -/
  | checked (attempt : Nat)
  /-- Linked to its name, and to the temporary one still. -/
  | linked (name : Name)
  /-- The file is saved. -/
  | settled (name : Name)
  | forgetting
  deriving DecidableEq

structure ReceiveRun where
  phase : ReceivePhase
  accepted : AcceptedReceive
  /-- The task still holds the offer. While it does, the offer is not in the queue. -/
  guarded : Bool

/-- The daemon's memory: the offer as it is queued, and as it is received. -/
structure FileProcess where
  pending : Option (Option AcceptedReceive)
  run : Option ReceiveRun

structure ReceiveState where
  dir : OrdMap Name DirEntry
  /-- The bytes in the temporary file. -/
  temp : Option Nat
  /-- The offer in `pending-files.json`. -/
  queue : Option (Option AcceptedReceive)
  /-- The name a recorded delivery was saved under. -/
  completed : Option Name
  process : Option FileProcess

inductive ReceiveAct where
  | boot
  /-- An accept, or the resume of one. -/
  | start (saved : Bool)
  | check
  | clear
  | create
  | write (size : Nat)
  | written
  | skip
  | note (saved : Bool)
  /-- `exclusive_rename` -/
  | rename
  /-- The two steps of `link_no_replace`; that the second one fails is only logged. -/
  | link
  | unlink (removed : Bool)
  /-- The two steps of `checked_rename`. -/
  | look
  | replace
  | record (saved : Bool)
  | forget (saved : Bool)
  /-- The task ends without a file: canceled by a shutdown, or by an error. -/
  | fail (shutdown removed saved : Bool)
  /-- The task is dropped by a shutdown while the file is being named, which goes on. -/
  | abandon (saved : Bool)
  /-- The queue is saved for another offer's sake. -/
  | sync
  | exit
  | appear (name : Name) (plain : Bool) (size : Nat)
  | vanish (name : Name)
  deriving DecidableEq

inductive ReceiveOut where
  | quiet
  | renamed (name : Name) (size : Nat)
  | completed (name : Name)
  deriving DecidableEq

section Step

variable (offer : FileOffer)

def wantedName (attempt : Nat) : Name := numberedName (fittedName offer.filename) attempt

variable (s : ReceiveState) (process : FileProcess) (run : ReceiveRun)

/-- `already_saved` -/
def alreadySaved (accepted : AcceptedReceive) : Option Name := do
  let name ← accepted.savedAs
  if isSafeFileName name = false then none
  else if s.temp.isSome then none
  else
    let entry ← s.dir.lookup name
    if entry.plain = true ∧ entry.size = offer.size then some name else none

/-- The queue saved with this entry for the offer, unless saving fails. -/
def ReceiveState.save (saved : Bool) (entry : Option (Option AcceptedReceive)) : ReceiveState :=
  if saved then { s with queue := entry } else s

/-- The offer's entry in memory. -/
def FileProcess.entry : Option (Option AcceptedReceive) :=
  match process.run with
  | some run => if run.guarded then some (some run.accepted) else process.pending
  | none => process.pending

/-- The run goes on in another phase. -/
def ReceiveState.move (phase : ReceivePhase) : ReceiveState :=
  { s with process := some { process with run := some { run with phase := phase } } }

/-- A task that can end without a file, in the phase it is in. Only a shutdown ends it
before it has looked for the file. -/
def ReceivePhase.canFail : ReceivePhase → Bool → Bool
  | .checking, shutdown => shutdown
  | .linked _, _ | .settled _, _ | .forgetting, _ => false
  | _, _ => true

/-- The temporary file is the task's to remove. -/
def ReceivePhase.staged : ReceivePhase → Bool
  | .writing | .naming _ | .noted _ | .checked _ => true
  | _ => false

/-- The file is complete, and naming it is not canceled. -/
def ReceivePhase.committing : ReceivePhase → Bool
  | .naming _ | .noted _ | .checked _ | .linked _ | .settled _ => true
  | _ => false

/-- The complete file under its own name. -/
def ReceiveState.place (name : Name) (size : Nat) : ReceiveState :=
  { s with dir := Finmap.insert name ⟨true, true, size⟩ s.dir }

/-- A step of the task that receives the file. -/
def runStep : ReceivePhase → ReceiveAct → Option (ReceiveOut × ReceiveState)
  | .checking, .check =>
    match alreadySaved offer s run.accepted with
    | some name => some (.quiet, s.move process run (.settled name))
    | none => some (.quiet, s.move process run .fetching)
  | .fetching, .clear => some (.quiet, { s with temp := none }.move process run .cleared)
  | .cleared, .create => some (.quiet, { s with temp := some 0 }.move process run .writing)
  | .writing, .write size =>
    if size ≤ offer.size then some (.quiet, { s with temp := some size }) else none
  | .writing, .written =>
    if s.temp = some offer.size then some (.quiet, s.move process run (.naming 0)) else none
  | .naming attempt, .skip =>
    if attempt < maxNameAttempts ∧ (s.dir.lookup (wantedName offer attempt)).isSome then
      some (.quiet, s.move process run (.naming (attempt + 1)))
    else none
  | .naming attempt, .note saved =>
    if attempt < maxNameAttempts ∧ s.dir.lookup (wantedName offer attempt) = none then
      if run.guarded then
        let accepted : AcceptedReceive := ⟨some (wantedName offer attempt)⟩
        some (.quiet, (s.move process { run with accepted := accepted } (.noted attempt)).save
          saved (some (some accepted)))
      else some (.quiet, s.move process run (.noted attempt))
    else none
  | .noted attempt, .rename =>
    match s.dir.lookup (wantedName offer attempt), s.temp with
    | some _, _ => some (.quiet, s.move process run (.naming (attempt + 1)))
    | none, some size =>
      let name := wantedName offer attempt
      some (.renamed name size, { s.place name size with temp := none }.move process run
        (.settled name))
    | none, none => none
  | .noted attempt, .link =>
    match s.dir.lookup (wantedName offer attempt), s.temp with
    | some _, _ => some (.quiet, s.move process run (.naming (attempt + 1)))
    | none, some size =>
      let name := wantedName offer attempt
      some (.renamed name size, (s.place name size).move process run (.linked name))
    | none, none => none
  | .linked name, .unlink removed =>
    some (.quiet, { s with temp := if removed then none else s.temp }.move process run
      (.settled name))
  | .noted attempt, .look =>
    if (s.dir.lookup (wantedName offer attempt)).isSome then
      some (.quiet, s.move process run (.naming (attempt + 1)))
    else some (.quiet, s.move process run (.checked attempt))
  | .checked attempt, .replace =>
    s.temp.map fun size =>
      let name := wantedName offer attempt
      (.renamed name size, { s.place name size with temp := none }.move process run (.settled name))
  | .settled name, .record saved =>
    if run.guarded then
      if saved then
        some (.completed name, { s with completed := some name }.move process run .forgetting)
      else some (.quiet, s.move process run .forgetting)
    else none
  | .forgetting, .forget saved =>
    some (.quiet, { s with process := some ⟨none, none⟩ }.save saved none)
  | phase, .fail shutdown removed saved =>
    if phase.canFail shutdown then
      let temp := if phase.staged && removed then none else s.temp
      if run.guarded then
        let entry := if shutdown then some run.accepted else none
        some (.quiet, { s with temp := temp, process := some ⟨some entry, none⟩ }.save saved
          (some entry))
      else some (.quiet, { s with temp := temp, process := some { process with run := none } })
    else none
  | phase, .abandon saved =>
    if phase.committing && run.guarded then
      let entry := some run.accepted
      some (.quiet, { s with
        process := some ⟨some entry, some { run with guarded := false }⟩ }.save saved (some entry))
    else none
  | _, _ => none

def processStep : ReceiveAct → Option (ReceiveOut × ReceiveState)
  | .start saved =>
    match process.run, process.pending with
    | none, some entry =>
      -- a receive resumed into the same place keeps the name it was being saved under
      let accepted : AcceptedReceive := ⟨entry.bind (·.savedAs)⟩
      some (.quiet, { s with process := some ⟨none, some ⟨.checking, accepted, true⟩⟩ }.save saved
        (some (some accepted)))
    | _, _ => none
  | .sync => some (.quiet, { s with queue := process.entry })
  | .exit => some (.quiet, { s with process := none })
  | act => process.run.bind fun run => runStep offer s process run run.phase act

def receiveStep : ReceiveAct → Option (ReceiveOut × ReceiveState)
  | .boot =>
    if s.process.isSome then none
    else
      -- a delivery that is recorded is not queued again
      let pending := if s.completed.isSome then none else s.queue
      some (.quiet, { s with process := some ⟨pending, none⟩ })
  | .appear name plain size =>
    if (s.dir.lookup name).isSome then none
    else some (.quiet, { s with dir := Finmap.insert name ⟨false, plain, size⟩ s.dir })
  | .vanish name =>
    match s.dir.lookup name with
    | some entry =>
      if entry.own then none else some (.quiet, { s with dir := Finmap.erase name s.dir })
    | none => none
  | act => s.process.bind fun process => processStep offer s process act

end Step

/-! ## What a step does -/

/-- The attempt whose name the complete file is about to get. -/
def ReceivePhase.target : ReceivePhase → Option Nat
  | .noted attempt | .checked attempt => some attempt
  | _ => none

/-- What a step of the task does. -/
inductive RunStepped (offer : FileOffer) (s : ReceiveState) (process : FileProcess)
    (run : ReceiveRun) : ReceiveAct → ReceiveOut → ReceiveState → Prop where
  | found (phase : run.phase = .checking) (saved : alreadySaved offer s run.accepted = some name) :
      RunStepped offer s process run .check .quiet (s.move process run (.settled name))
  | missing (phase : run.phase = .checking) (unsaved : alreadySaved offer s run.accepted = none) :
      RunStepped offer s process run .check .quiet (s.move process run .fetching)
  | clear (phase : run.phase = .fetching) :
      RunStepped offer s process run .clear .quiet
        ({ s with temp := none }.move process run .cleared)
  | create (phase : run.phase = .cleared) :
      RunStepped offer s process run .create .quiet
        ({ s with temp := some 0 }.move process run .writing)
  | write (phase : run.phase = .writing) :
      RunStepped offer s process run (.write size) .quiet { s with temp := some size }
  | written (phase : run.phase = .writing) (whole : s.temp = some offer.size) :
      RunStepped offer s process run .written .quiet (s.move process run (.naming 0))
  | skip (phase : run.phase = .naming attempt) :
      RunStepped offer s process run .skip .quiet (s.move process run (.naming (attempt + 1)))
  | note (phase : run.phase = .naming attempt) (bound : attempt < maxNameAttempts)
      (guarded : run.guarded = true) :
      RunStepped offer s process run (.note saved) .quiet
        ((s.move process { run with accepted := ⟨some (wantedName offer attempt)⟩ }
          (.noted attempt)).save saved (some (some ⟨some (wantedName offer attempt)⟩)))
  | unnoted (phase : run.phase = .naming attempt) (unguarded : run.guarded = false) :
      RunStepped offer s process run (.note saved) .quiet (s.move process run (.noted attempt))
  | taken (tries : act = .rename ∨ act = .link ∨ act = .look) (phase : run.phase = .noted attempt) :
      RunStepped offer s process run act .quiet (s.move process run (.naming (attempt + 1)))
  | looked (phase : run.phase = .noted attempt) :
      RunStepped offer s process run .look .quiet (s.move process run (.checked attempt))
  | renamed (moves : act = .rename ∨ act = .replace) (phase : run.phase.target = some attempt)
      (temp : s.temp = some size) :
      RunStepped offer s process run act (.renamed (wantedName offer attempt) size)
        ({ s.place (wantedName offer attempt) size with temp := none }.move process run
          (.settled (wantedName offer attempt)))
  | linked (phase : run.phase.target = some attempt) (temp : s.temp = some size) :
      RunStepped offer s process run .link (.renamed (wantedName offer attempt) size)
        ((s.place (wantedName offer attempt) size).move process run
          (.linked (wantedName offer attempt)))
  | unlinked (phase : run.phase = .linked name) :
      RunStepped offer s process run (.unlink removed) .quiet
        ({ s with temp := if removed then none else s.temp }.move process run (.settled name))
  | recorded (phase : run.phase = .settled name) :
      RunStepped offer s process run (.record true) (.completed name)
        ({ s with completed := some name }.move process run .forgetting)
  | unrecorded (phase : run.phase = .settled name) :
      RunStepped offer s process run (.record false) .quiet (s.move process run .forgetting)
  | forget (phase : run.phase = .forgetting) :
      RunStepped offer s process run (.forget saved) .quiet
        ({ s with process := some ⟨none, none⟩ }.save saved none)
  | fail (can : run.phase.canFail shutdown = true) (guarded : run.guarded = true)
      (cut : temp = s.temp ∨ temp = none) :
      RunStepped offer s process run (.fail shutdown removed saved) .quiet
        ({ s with
          temp := temp
          process := some ⟨some (if shutdown then some run.accepted else none), none⟩ }.save saved
            (some (if shutdown then some run.accepted else none)))
  | failUnguarded (can : run.phase.canFail shutdown = true) (unguarded : run.guarded = false)
      (cut : temp = s.temp ∨ temp = none) :
      RunStepped offer s process run (.fail shutdown removed saved) .quiet
        { s with temp := temp, process := some { process with run := none } }
  | abandon (committing : run.phase.committing = true) (guarded : run.guarded = true) :
      RunStepped offer s process run (.abandon saved) .quiet
        ({ s with
          process := some ⟨some (some run.accepted), some { run with guarded := false }⟩ }.save
            saved (some (some run.accepted)))

/-- What a step does. -/
inductive Stepped (offer : FileOffer) (s : ReceiveState) :
    ReceiveAct → ReceiveOut → ReceiveState → Prop where
  | boot (down : s.process = none) :
      Stepped offer s .boot .quiet
        { s with process := some ⟨if s.completed.isSome then none else s.queue, none⟩ }
  | appear (free : s.dir.lookup name = none) :
      Stepped offer s (.appear name plain size) .quiet
        { s with dir := Finmap.insert name ⟨false, plain, size⟩ s.dir }
  | vanish (there : s.dir.lookup name = some entry) (other : entry.own = false) :
      Stepped offer s (.vanish name) .quiet { s with dir := Finmap.erase name s.dir }
  | start (up : s.process = some process) (idle : process.run = none)
      (queued : process.pending = some entry) :
      Stepped offer s (.start saved) .quiet
        ({ s with
          process := some ⟨none, some ⟨.checking, ⟨entry.bind (·.savedAs)⟩, true⟩⟩ }.save saved
            (some (some ⟨entry.bind (·.savedAs)⟩)))
  | sync (up : s.process = some process) :
      Stepped offer s .sync .quiet { s with queue := process.entry }
  | exit : Stepped offer s .exit .quiet { s with process := none }
  | run (up : s.process = some process) (running : process.run = some run)
      (stepped : RunStepped offer s process run act out s') : Stepped offer s act out s'

section Stepped

variable {offer : FileOffer} {s s' : ReceiveState} {act : ReceiveAct} {out : ReceiveOut}

variable {process : FileProcess} {run : ReceiveRun}

theorem runStepped (step : runStep offer s process run run.phase act = some (out, s')) :
    RunStepped offer s process run act out s' := by
  generalize phase : run.phase = now at step
  unfold runStep at step
  split at step
  -- the cases in the order of the definition
  · split at step <;> cases step
    · exact .found phase ‹_›
    · exact .missing phase ‹_›
  · cases step
    exact .clear phase
  · cases step
    exact .create phase
  · split at step <;> cases step
    exact .write phase
  · split at step <;> cases step
    exact .written phase ‹_›
  · split at step <;> cases step
    exact .skip phase
  · obtain ⟨free, step⟩ := Option.ite_none_right_eq_some.1 step
    split at step <;> cases step
    · exact .note phase free.1 ‹_›
    · exact .unnoted phase (Bool.eq_false_of_not_eq_true ‹_›)
  · split at step <;> cases step
    · exact .taken (.inl rfl) phase
    · exact .renamed (.inl rfl) (phase ▸ rfl) ‹_›
  · split at step <;> cases step
    · exact .taken (.inr (.inl rfl)) phase
    · exact .linked (phase ▸ rfl) ‹_›
  · cases step
    exact .unlinked phase
  · split at step <;> cases step
    · exact .taken (.inr (.inr rfl)) phase
    · exact .looked phase
  · obtain ⟨size, temp, same⟩ := Option.map_eq_some_iff.mp step
    cases same
    exact .renamed (.inr rfl) (phase ▸ rfl) temp
  · next saved =>
    have step := (Option.ite_none_right_eq_some.1 step).2
    cases saved <;> cases step
    · exact .unrecorded phase
    · exact .recorded phase
  · cases step
    exact .forget phase
  · next removed _ =>
    obtain ⟨can, step⟩ := Option.ite_none_right_eq_some.1 step
    have cut : (if now.staged && removed then none else s.temp) = s.temp ∨
        (if now.staged && removed then none else s.temp) = none := by
      split
      · exact .inr rfl
      · exact .inl rfl
    generalize (if now.staged && removed then none else s.temp) = temp at step cut
    rw [← phase] at can
    split at step <;> cases step
    · exact .fail can ‹_› cut
    · exact .failUnguarded can (Bool.eq_false_of_not_eq_true ‹_›) cut
  · obtain ⟨both, step⟩ := Option.ite_none_right_eq_some.1 step
    rw [Bool.and_eq_true, ← phase] at both
    cases step
    exact .abandon both.1 both.2
  · cases step

theorem stepped_of_receiveStep (step : receiveStep offer s act = some (out, s')) :
    Stepped offer s act out s' := by
  have inProcess : ∀ {process}, s.process = some process → process.run.bind
      (fun run => runStep offer s process run run.phase act) = some (out, s') →
      Stepped offer s act out s' := by
    intro process up ran
    obtain ⟨run, running, ran⟩ := Option.bind_eq_some_iff.mp ran
    exact .run up running (runStepped ran)
  cases act with
  | boot =>
    simp only [receiveStep] at step
    split at step <;> cases step
    exact .boot (Option.not_isSome_iff_eq_none.mp ‹_›)
  | appear name plain size =>
    simp only [receiveStep] at step
    split at step <;> cases step
    exact .appear (Option.not_isSome_iff_eq_none.mp ‹_›)
  | vanish name =>
    simp only [receiveStep] at step
    split at step
    · next entry there =>
      split at step <;> cases step
      exact .vanish there (Bool.eq_false_of_not_eq_true ‹_›)
    · cases step
  | start saved =>
    obtain ⟨process, up, step⟩ := Option.bind_eq_some_iff.mp step
    simp only [processStep] at step
    split at step
    · next idle queued =>
      cases step
      exact .start up idle queued
    · cases step
  | sync =>
    obtain ⟨process, up, step⟩ := Option.bind_eq_some_iff.mp step
    cases step
    exact .sync up
  | exit =>
    obtain ⟨process, up, step⟩ := Option.bind_eq_some_iff.mp step
    cases step
    exact .exit
  | _ =>
    obtain ⟨process, up, step⟩ := Option.bind_eq_some_iff.mp step
    exact inProcess up step

end Stepped

end Rayfish
