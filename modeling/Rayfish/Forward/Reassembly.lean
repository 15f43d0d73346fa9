import Rayfish.Lib.Run
import Rayfish.Forward.Assembly

/-!
# Reassembly over whole runs

A run interleaves datagrams, sweeps of expired assemblies and whatever other
connections do to the shared budget, under a clock that never goes back. `Backed`
is the invariant of every pending assembly: each covered byte was supplied, at that
offset, by a fragment of the same packet that was accepted in time.
`reassembly_safe` is what follows for every packet emitted.
-/

namespace Rayfish

open Lib

/-! ## The machine -/

inductive ReassemblyOp where
  | accept (datagram : Bytes) (tie : Nat)
  | expire
  | takeEvicted
  /-- Other connections take from or give back to the shared budget. -/
  | budget (available : Nat)

structure ReassemblyAct where
  now : Nat
  op : ReassemblyOp

/-- One operation; a datagram answers with what it emits or why it is dropped. -/
def ReassemblyOp.run (r : Reassembler) (now : Nat) :
    ReassemblyOp → Option (Except DropReason (Option Bytes)) × Reassembler
  | .accept datagram tie =>
    let (answer, r) := r.accept datagram now tie
    (some answer, r)
  | .expire => (none, r.expire now)
  | .takeEvicted => (none, { r with evicted := 0 })
  | .budget available => (none, { r with available := available })

structure ClockedReassembler where
  clock : Nat
  r : Reassembler

abbrev ReassemblyAnswer := Option (Except DropReason (Option Bytes))

def reassemblyStep : StepRel ClockedReassembler ReassemblyAct ReassemblyAnswer := fun s a out s' =>
  s.clock ≤ a.now ∧ s'.clock = a.now ∧ a.op.run s.r a.now = (out, s'.r)

abbrev ReassemblyEntry := Entry ClockedReassembler ReassemblyAct ReassemblyAnswer

/-- The step took the fragment `f` without error. -/
def Accepted (e : ReassemblyEntry) (f : FragmentFrame) : Prop :=
  ∃ datagram tie emitted, e.act.op = .accept datagram tie ∧ readFrame datagram = .fragment f ∧
    e.out = some (.ok emitted)

/-- The step took a fragment of the packet `key` of `total` bytes without error,
and that fragment holds the byte `b` at offset `i`. -/
def Supplies (e : ReassemblyEntry) (key : AssemblyKey) (total i : Nat) (b : UInt8) : Prop :=
  ∃ f, Accepted e f ∧ f.key = key ∧ f.total = total ∧ f.offset ≤ i ∧
    f.payload[i - f.offset]? = some b

/-- The step took the first fragment of an assembly. -/
def Starts (e : ReassemblyEntry) (key : AssemblyKey) (total : Nat) : Prop :=
  e.before.r.pending.lookup key = none ∧ ∃ f, Accepted e f ∧ f.key = key ∧ f.total = total

/-! ## What one step does -/

/-- What a step does to the assembly under one key. -/
inductive AssemblyChange (e : ReassemblyEntry) (key : AssemblyKey) : Prop where
  | kept : e.after.r.pending.lookup key = e.before.r.pending.lookup key → AssemblyChange e key
  | gone : e.after.r.pending.lookup key = none → AssemblyChange e key
  | extended {f : FragmentFrame} {part part' : Assembly} : Accepted e f → f.key = key →
      Extends e.before.r f e.act.now part part' →
      e.after.r.pending.lookup key = some part' → AssemblyChange e key

variable {datagram : Bytes} {f : FragmentFrame} {tie : Nat} {s s' : ClockedReassembler}
  {a : ReassemblyAct} {h : List ReassemblyEntry}

theorem accept_fragment_eq {r : Reassembler} {now : Nat} (h : readFrame datagram = .fragment f) :
    r.accept datagram now tie = r.acceptFragment f now tie := by
  rw [Reassembler.accept, h]

/-- A datagram that is no fragment leaves every assembly alone. -/
theorem accept_other {r : Reassembler} {now : Nat} (h : ∀ f, readFrame datagram ≠ .fragment f) :
    (r.accept datagram now tie).2 = r := by
  rw [Reassembler.accept]
  split
  · rfl
  · rfl
  · next f frame => exact absurd frame (h f)

theorem expire_lookup (r : Reassembler) (now : Nat) (key : AssemblyKey) :
    (r.expire now).pending.lookup key =
      (r.pending.lookup key).filter fun part => decide (now < part.deadline) :=
  HashMap.lookup_retain _ _ _

section

variable {out : ReassemblyAnswer} (step : reassemblyStep s a out s')

include step

/-- The answer and the state a datagram leaves. -/
theorem step_accept (hop : a.op = .accept datagram tie) :
    out = some (s.r.accept datagram a.now tie).1 ∧ s'.r = (s.r.accept datagram a.now tie).2 := by
  obtain ⟨_, _, ran⟩ := step
  rw [hop] at ran
  exact ⟨(congrArg Prod.fst ran).symm, (congrArg Prod.snd ran).symm⟩

theorem step_expire (hop : a.op = .expire) (key : AssemblyKey) :
    s'.r.pending.lookup key =
      (s.r.pending.lookup key).filter fun part => decide (a.now < part.deadline) := by
  obtain ⟨_, _, ran⟩ := step
  rw [hop] at ran
  exact (congrArg (fun r => r.2.pending.lookup key) ran).symm.trans (expire_lookup _ _ _)

/-- A step with a fragment, by what the fragment does. -/
theorem step_fragment (hop : a.op = .accept datagram tie)
    (frame : readFrame datagram = .fragment f) :
    ∃ answer, out = some answer ∧ FragmentOutcome s.r f a.now (answer, s'.r) := by
  obtain ⟨hout, hr⟩ := step_accept step hop
  have outcome := acceptFragment_cases s.r f a.now tie
  rw [← accept_fragment_eq frame] at outcome
  refine ⟨_, hout, ?_⟩
  rw [hr]
  exact outcome

theorem step_assemblyChange (key : AssemblyKey) : AssemblyChange ⟨s, a, out, s'⟩ key := by
  cases hop : a.op with
  | takeEvicted | budget available =>
    obtain ⟨_, _, ran⟩ := step
    rw [hop] at ran
    exact .kept (congrArg (fun r => r.2.pending.lookup key) ran).symm
  | expire =>
    have after := step_expire step hop key
    rcases held : s.r.pending.lookup key with _ | part
    · rw [held] at after
      exact .gone after
    · rw [held, Option.filter_some] at after
      split at after
      · exact .kept (after.trans held.symm)
      · exact .gone after
  | accept datagram tie =>
    by_cases isFragment : ∃ f, readFrame datagram = .fragment f
    · obtain ⟨f, frame⟩ := isFragment
      obtain ⟨answer, rfl, outcome⟩ := step_fragment step hop frame
      by_cases same : key = f.key
      · subst same
        cases outcome with
        | refused _ left =>
          rcases left with gone | same
          · exact .gone gone
          · exact .kept (congrArg (·.lookup f.key) same)
        | extended extends' _ _ held =>
          exact .extended ⟨datagram, tie, _, hop, frame, rfl⟩ rfl extends' held
        | completed _ _ _ gone => exact .gone gone
      · rcases outcome.framed.kept_or_gone same with kept | gone
        · exact .kept kept
        · exact .gone gone
    · obtain ⟨_, hr⟩ := step_accept step hop
      rw [accept_other fun f frame => isFragment ⟨f, frame⟩] at hr
      exact .kept (congrArg (·.pending.lookup key) hr)

end

/-! ## The history behind a pending assembly -/

/-- Every covered byte of `part` was supplied in time by a fragment of its packet. -/
structure Backed (h : List ReassemblyEntry) (key : AssemblyKey) (part : Assembly) : Prop where
  sound : part.Sound
  supplied : ∃ pre start post, h = pre ++ start :: post ∧
    Starts start key part.packet.length ∧
    part.deadline = start.act.now + reassemblyTimeout ∧
    ∀ i b, part.covered.test i = true → part.packet[i]? = some b →
      ∃ e ∈ start :: post, Supplies e key part.packet.length i b ∧
        e.act.now < start.act.now + reassemblyTimeout

theorem Backed.snoc (backed : Backed h key part) (e : ReassemblyEntry) :
    Backed (h ++ [e]) key part := by
  obtain ⟨pre, start, post, rfl, starts, deadline, bytes⟩ := backed.supplied
  refine ⟨backed.sound, pre, start, post ++ [e], by simp, starts, deadline, ?_⟩
  intro i b covered held
  obtain ⟨e', member, supplies⟩ := bytes i b covered held
  exact ⟨e', by rw [← List.cons_append]; exact List.mem_append_left _ member, supplies⟩

/-- A fragment taken without error leaves its assembly backed. -/
theorem backed_extends
    (before : ∀ part, e.before.r.pending.lookup f.key = some part → Backed h f.key part)
    (accepted : Accepted e f) (extends' : Extends e.before.r f e.act.now part part') :
    Backed (h ++ [e]) f.key part' ∧ part'.packet.length = f.total := by
  have positive : 0 < reassemblyTimeout := by decide
  have supplies : Copied part f.offset f.payload part' → ∀ {i b}, f.offset ≤ i →
      i < f.offset + f.payload.length → part'.packet[i]? = some b →
      Supplies e f.key f.total i b := by
    intro copied i b hi hi' held
    exact ⟨f, accepted, rfl, rfl, hi, (copied.copied i hi hi').symm.trans held⟩
  rcases extends'.origin with ⟨older, live⟩ | ⟨vacant, rfl⟩
  · have backed := before part older
    have copied := copied_of_copy backed.sound
      (le_of_le_of_eq extends'.wellFormed.fits extends'.length.symm) extends'.ran
    have total : part'.packet.length = f.total := copied.length.trans extends'.length
    obtain ⟨pre, start, post, rfl, starts, deadline, bytes⟩ := backed.supplied
    rw [extends'.length] at starts bytes
    refine ⟨⟨copied.sound, pre, start, post ++ [e], by simp, total ▸ starts,
      copied.deadline.trans deadline, fun i b covered held => ?_⟩, total⟩
    rw [total]
    rcases (copied.covered i).mp covered with old | ⟨hi, hi'⟩
    · obtain ⟨e', member, supply⟩ := bytes i b old ((copied.kept i old).symm.trans held)
      exact ⟨e', by rw [← List.cons_append]; exact List.mem_append_left _ member, supply⟩
    · refine ⟨e, ?_, supplies copied hi hi' held, deadline ▸ live⟩
      rw [← List.cons_append]
      exact mem_snoc
  · have copied := copied_of_copy (Assembly.fresh_sound extends'.wellFormed.short)
      (le_of_le_of_eq extends'.wellFormed.fits extends'.length.symm) extends'.ran
    have total : part'.packet.length = f.total := copied.length.trans extends'.length
    refine ⟨⟨copied.sound, h, e, [], rfl, ⟨vacant, f, accepted, rfl, total.symm⟩,
      copied.deadline, fun i b covered held => ?_⟩, total⟩
    rw [total]
    rcases (copied.covered i).mp covered with old | ⟨hi, hi'⟩
    · simp [Assembly.fresh] at old
    · exact ⟨e, List.mem_singleton_self e, supplies copied hi hi' held, by omega⟩

/-- Along every run that starts with nothing pending, every pending assembly is
backed by the history. -/
theorem run_backed (empty : ∀ key, s₀.r.pending.lookup key = none)
    (run : Run reassemblyStep s₀ h s) :
    ∀ key part, s.r.pending.lookup key = some part → Backed h key part := by
  induction run with
  | nil =>
    intro key part held
    rw [empty key] at held
    cases held
  | @snoc h s s' a out _ step ih =>
    intro key part held
    cases step_assemblyChange step key with
    | kept same => exact (ih key part (same.symm.trans held)).snoc _
    | gone gone =>
      rw [show s'.r.pending.lookup key = none from gone] at held
      cases held
    | extended accepted same extends' after =>
      subst same
      rw [show s'.r.pending.lookup _ = some _ from after] at held
      cases held
      exact (backed_extends (ih _) accepted extends').1

/-! ## Safety -/

/-- Where the bytes of an emitted packet come from: the datagram just given is
that packet, or every byte was supplied, at that offset, by a fragment of it that
was accepted within the timeout of the assembly's first fragment. -/
inductive Emission (h : List ReassemblyEntry) (datagram packet : Bytes) : Prop where
  | whole : packet = datagram.drop tagLen →
      (byte datagram tagLen >>> 4 = 4 ∨ byte datagram tagLen >>> 4 = 6) → Emission h datagram packet
  | assembled {f : FragmentFrame} : readFrame datagram = .fragment f → f.total = packet.length →
      h = pre ++ start :: post → Starts start f.key packet.length →
      (∀ i, i < packet.length → ∃ b, packet[i]? = some b ∧ ∃ e ∈ start :: post,
        Supplies e f.key packet.length i b ∧ e.act.now < start.act.now + reassemblyTimeout) →
      Emission h datagram packet

/-- What one step of a run may do. -/
structure SafeStep (h : List ReassemblyEntry) (e : ReassemblyEntry) : Prop where
  emits : ∀ packet, e.out = some (.ok (some packet)) →
    ∃ datagram tie, e.act.op = .accept datagram tie ∧ Emission (h ++ [e]) datagram packet
  /-- A call that fails adds to no assembly. -/
  fails : ∀ reason, e.out = some (.error reason) → ∀ key,
    e.after.r.pending.lookup key = e.before.r.pending.lookup key ∨
      e.after.r.pending.lookup key = none
  /-- A call with a fragment keeps to the assembly of its key. -/
  frame : ∀ datagram tie f, e.act.op = .accept datagram tie → readFrame datagram = .fragment f →
    Framed e.before.r e.after.r f
  /-- Any other datagram keeps to itself. -/
  other : ∀ datagram tie, e.act.op = .accept datagram tie →
    (∀ f, readFrame datagram ≠ .fragment f) → e.after.r = e.before.r

theorem readFrame_whole (h : readFrame datagram = .whole packet) :
    packet = datagram.drop tagLen ∧
      (byte datagram tagLen >>> 4 = 4 ∨ byte datagram tagLen >>> 4 = 6) := by
  unfold readFrame at h
  split at h
  · cases h
  · dsimp only at h
    split at h
    · cases h
    · split at h
      · next version =>
        cases h
        exact ⟨rfl, version⟩
      · split at h <;> cases h

/-- A completed assembly is emitted with every byte supplied. -/
theorem emission_of_completed
    (before : ∀ part, e.before.r.pending.lookup f.key = some part → Backed h f.key part)
    (hop : e.act.op = .accept datagram tie) (frame : readFrame datagram = .fragment f)
    (emitted : e.out = some (.ok (some part'.packet)))
    (extends' : Extends e.before.r f e.act.now part part') (full : part'.received = f.total) :
    Emission (h ++ [e]) datagram part'.packet := by
  obtain ⟨backed, total⟩ := backed_extends before ⟨datagram, tie, _, hop, frame, emitted⟩ extends'
  obtain ⟨pre, start, post, heq, starts, _, bytes⟩ := backed.supplied
  refine .assembled frame total.symm heq starts fun i hi => ?_
  have covered := (backed.sound.complete_iff).mp (full.trans total.symm) i hi
  have held : part'.packet[i]? = some (byte part'.packet i) := getElem?_byte hi
  exact ⟨_, held, bytes i _ covered held⟩

/-- Only a datagram answers. -/
theorem step_answer (step : reassemblyStep s a (some answer) s') :
    ∃ datagram tie, a.op = .accept datagram tie := by
  obtain ⟨_, _, ran⟩ := step
  cases hop : a.op with
  | accept datagram tie => exact ⟨datagram, tie, rfl⟩
  | expire | takeEvicted | budget available =>
    rw [hop] at ran
    cases congrArg Prod.fst ran

/-- Reassembly against an arbitrary sender: every step of every run is safe. -/
theorem reassembly_safe {s₀ s s' : ClockedReassembler} {h : List ReassemblyEntry}
    {a : ReassemblyAct} {out : ReassemblyAnswer}
    (empty : ∀ key, s₀.r.pending.lookup key = none) (run : Run reassemblyStep s₀ h s)
    (step : reassemblyStep s a out s') : SafeStep h ⟨s, a, out, s'⟩ := by
  have backed := run_backed empty run
  refine ⟨fun packet emitted => ?_, fun reason failed key => ?_, fun datagram tie f hop frame => ?_,
    fun datagram tie hop notFragment => ?_⟩
  · obtain rfl : out = some (.ok (some packet)) := emitted
    obtain ⟨datagram, tie, hop⟩ := step_answer step
    refine ⟨datagram, tie, hop, ?_⟩
    cases frame : readFrame datagram with
    | fragment f =>
      obtain ⟨answer, hanswer, outcome⟩ := step_fragment step hop frame
      cases hanswer
      cases outcome with
      | completed extends' _ full _ =>
        exact emission_of_completed (backed f.key) hop frame rfl extends' full
    | malformed =>
      obtain ⟨hout, _⟩ := step_accept step hop
      rw [Reassembler.accept, frame] at hout
      cases hout
    | whole body =>
      obtain ⟨hout, _⟩ := step_accept step hop
      rw [Reassembler.accept, frame] at hout
      cases hout
      obtain ⟨same, version⟩ := readFrame_whole frame
      exact .whole same version
  · obtain rfl : out = some (.error reason) := failed
    obtain ⟨datagram, tie, hop⟩ := step_answer step
    by_cases isFragment : ∃ f, readFrame datagram = .fragment f
    · obtain ⟨f, frame⟩ := isFragment
      obtain ⟨answer, hanswer, outcome⟩ := step_fragment step hop frame
      cases hanswer
      by_cases same : key = f.key
      · subst same
        cases outcome with
        | refused _ left =>
          rcases left with gone | same
          · exact .inr gone
          · exact .inl (congrArg (·.lookup f.key) same)
      · exact outcome.framed.kept_or_gone same
    · obtain ⟨_, hr⟩ := step_accept step hop
      rw [accept_other fun f frame => isFragment ⟨f, frame⟩] at hr
      exact .inl (congrArg (·.pending.lookup key) hr)
  · obtain ⟨answer, _, outcome⟩ := step_fragment step hop frame
    exact outcome.framed
  · obtain ⟨_, hr⟩ := step_accept step hop
    rw [accept_other notFragment] at hr
    exact hr

/-! ## A packet in two fragments -/

/-- The step that runs an operation. -/
def ReassemblyAct.exec (a : ReassemblyAct) (s : ClockedReassembler) : ReassemblyEntry :=
  ⟨s, a, (a.op.run s.r a.now).1, ⟨a.now, (a.op.run s.r a.now).2⟩⟩

theorem ReassemblyAct.exec_step (forward : s.clock ≤ a.now) :
    reassemblyStep s a (a.exec s).out (a.exec s).after :=
  ⟨forward, rfl, rfl⟩

def nothingPending : ClockedReassembler := ⟨0, ⟨∅, 8 * 1024 * 1024, 0⟩⟩

def secondHalf : ReassemblyEntry :=
  ReassemblyAct.exec ⟨1, .accept (fragmentDatagram 7 9 4 2 [2, 3]) 0⟩ nothingPending

def firstHalf : ReassemblyEntry :=
  ReassemblyAct.exec ⟨2, .accept (fragmentDatagram 7 9 4 0 [0x45, 1]) 0⟩ secondHalf.after

/-- Two halves in the wrong order are emitted as one packet, every byte supplied. -/
theorem reassembly_safe_twoHalves :
    firstHalf.out = some (.ok (some [0x45, 1, 2, 3])) ∧
      Emission [secondHalf, firstHalf] (fragmentDatagram 7 9 4 0 [0x45, 1]) [0x45, 1, 2, 3] := by
  have emitted : firstHalf.out = some (.ok (some [0x45, 1, 2, 3])) := rfl
  have run : Run reassemblyStep nothingPending [secondHalf] secondHalf.after :=
    .snoc .nil (ReassemblyAct.exec_step (by decide))
  have step : reassemblyStep secondHalf.after firstHalf.act firstHalf.out firstHalf.after :=
    ReassemblyAct.exec_step (by decide)
  obtain ⟨datagram, tie, hop, emission⟩ := (reassembly_safe (fun _ => rfl) run step).emits _ emitted
  cases hop
  exact ⟨emitted, emission⟩

end Rayfish
