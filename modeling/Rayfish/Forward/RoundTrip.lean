import Rayfish.Forward.Encoding
import Rayfish.Forward.Reassembly

/-!
# Delivering a packet

The datagrams of one packet are delivered in any order, repeated, and mixed with
other traffic. `Progress` is what holds in between: the packet's assembly covers
exactly the parts delivered since it was last emitted. `round_trip` follows: a
delivery emits the packet exactly when no other part is missing since then.
-/

namespace Rayfish

open Lib

/-! ## Undisturbed deliveries -/

/-- The step hands over `datagram`. -/
def Delivers (e : ReassemblyEntry) (datagram : Bytes) : Prop :=
  ∃ tie, e.act.op = .accept datagram tie

/-- The step emits a packet on one of `parts`. -/
def EmitsOn (parts : List Bytes) (e : ReassemblyEntry) : Prop :=
  (∃ p ∈ parts, Delivers e p) ∧ ∃ packet, e.out = some (.ok (some packet))

/-- `datagram` has been handed over since the last emission on one of `parts`. -/
def DeliveredSince (parts : List Bytes) (h : List ReassemblyEntry) (datagram : Bytes) : Prop :=
  ∃ pre e post, h = pre ++ e :: post ∧ Delivers e datagram ∧ ∀ e' ∈ e :: post, ¬EmitsOn parts e'

/-- A step that does not get in the way of the packet `key` that travels as `parts`:
no other datagram claims its key, a new assembly finds room under both limits, and
the packet's own assembly is not late. -/
structure Undisturbed (key : AssemblyKey) (parts : List Bytes) (s : ClockedReassembler)
    (a : ReassemblyAct) : Prop where
  datagrams : ∀ datagram tie, a.op = .accept datagram tie → datagram ∉ parts →
    ∀ f, readFrame datagram = .fragment f → f.key ≠ key
  room : ∀ datagram tie f, a.op = .accept datagram tie → readFrame datagram = .fragment f →
    f.WellFormed → s.r.pending.lookup f.key = none → s.r.Room
  timely : ∀ part, s.r.pending.lookup key = some part → a.now < part.deadline

def deliveryStep (key : AssemblyKey) (parts : List Bytes) :
    StepRel ClockedReassembler ReassemblyAct ReassemblyAnswer := fun s a out s' =>
  reassemblyStep s a out s' ∧ Undisturbed key parts s a

theorem deliveredSince_snoc :
    DeliveredSince parts (h ++ [e]) datagram ↔
      ¬EmitsOn parts e ∧ (Delivers e datagram ∨ DeliveredSince parts h datagram) := by
  have since : ∀ h, DeliveredSince parts h datagram ↔ ∃ pre x post, h = pre ++ x :: post ∧
      (Delivers x datagram ∧ ¬EmitsOn parts x) ∧ ∀ y ∈ post, ¬EmitsOn parts y := by
    simp only [DeliveredSince, List.forall_mem_cons, and_assoc, implies_true]
  rw [since, since_snoc, ← since, and_or_left, and_comm, or_congr_right and_comm]

/-- A step without any of the parts leaves the packet's assembly alone. -/
theorem deliveryStep_other (step : deliveryStep key parts s a out s')
    (other : ∀ p ∈ parts, ¬Delivers ⟨s, a, out, s'⟩ p) :
    s'.r.pending.lookup key = s.r.pending.lookup key := by
  obtain ⟨step, undisturbed⟩ := step
  cases hop : a.op with
  | takeEvicted | budget available =>
    have ran := step.2.2
    rw [hop] at ran
    exact (congrArg (fun r => r.2.pending.lookup key) ran).symm
  | expire =>
    have after := step_expire step hop key
    cases held : s.r.pending.lookup key with
    | none => rw [after, held, Option.filter_none]
    | some part =>
      rw [after, held, Option.filter_some, if_pos (decide_eq_true (undisturbed.timely part held))]
  | accept datagram tie =>
    have foreign : datagram ∉ parts := fun member => other datagram member ⟨tie, hop⟩
    by_cases isFragment : ∃ f, readFrame datagram = .fragment f
    · obtain ⟨f, frame⟩ := isFragment
      obtain ⟨answer, _, outcome⟩ := step_fragment step hop frame
      exact outcome.framed.kept (undisturbed.room datagram tie f hop frame)
        (undisturbed.datagrams datagram tie hop foreign f frame).symm
    · obtain ⟨_, hr⟩ := step_accept step hop
      rw [accept_other fun f frame => isFragment ⟨f, frame⟩] at hr
      exact congrArg (·.pending.lookup key) hr

/-! ## Progress of a split packet -/

section Progress

variable {handle : UInt16} {id : UInt64} {packet : Bytes} {chunk : Nat}
  {s s' : ClockedReassembler} {a : ReassemblyAct} {out : ReassemblyAnswer}
  {h : List ReassemblyEntry}

/-- `part` holds exactly the parts delivered since the last emission. -/
structure Collects (handle : UInt16) (id : UInt64) (packet : Bytes) (chunk : Nat)
    (h : List ReassemblyEntry) (part : Assembly) : Prop where
  sound : part.Sound
  length : part.packet.length = packet.length
  agrees : part.Agrees packet
  covered : ∀ i < packet.length, part.covered.test i = true ↔
    DeliveredSince (fragmentParts handle id packet chunk) h
      (fragmentPart handle id packet chunk (i / chunk))

/-- The assembly of a split packet, if there is one, holds exactly the parts
delivered since the last emission; without one there are none. -/
structure Progress (handle : UInt16) (id : UInt64) (packet : Bytes) (chunk : Nat)
    (h : List ReassemblyEntry) (s : ClockedReassembler) : Prop where
  vacant : s.r.pending.lookup ⟨handle, id⟩ = none → ∀ p ∈ fragmentParts handle id packet chunk,
    ¬DeliveredSince (fragmentParts handle id packet chunk) h p
  pending : ∀ part, s.r.pending.lookup ⟨handle, id⟩ = some part →
    Collects handle id packet chunk h part

variable {part : Assembly} {j : Nat}

variable (split : Split handle packet chunk)

include split

/-- The assembly the next part goes to, pending or newly opened. -/
theorem Progress.collects (progress : Progress handle id packet chunk h s)
    (origin : s.r.pending.lookup ⟨handle, id⟩ = some part ∨
      (s.r.pending.lookup ⟨handle, id⟩ = none ∧ part = .fresh packet.length now)) :
    Collects handle id packet chunk h part := by
  rcases origin with held | ⟨vacant, rfl⟩
  · exact progress.pending part held
  · refine ⟨Assembly.fresh_sound split.short, by simp [Assembly.fresh],
      fun i covered => by simp [Assembly.fresh] at covered, fun i hi => ?_⟩
    have none := progress.vacant vacant _
      ((mem_fragmentParts split).mpr ⟨_, part_start_lt hi, rfl⟩)
    simp [Assembly.fresh, none]

omit split in
/-- A part fits the assembly it goes to. -/
theorem Collects.copy_isSome (collects : Collects handle id packet chunk h part)
    (hj : j * chunk < packet.length) :
    (part.copy (j * chunk) ((packet.drop (j * chunk)).take chunk)).isSome := by
  have payload := length_part packet chunk j
  have length := collects.length
  refine collects.agrees.copy_isSome collects.sound (by omega) fun k hk => ?_
  rw [List.getElem?_take_of_lt (by omega), List.getElem?_drop]

/-- The assembly after part `j`. -/
structure Advanced (handle : UInt16) (id : UInt64) (packet : Bytes) (chunk j : Nat)
    (h : List ReassemblyEntry) (part : Assembly) : Prop where
  sound : part.Sound
  length : part.packet.length = packet.length
  agrees : part.Agrees packet
  covered : ∀ i < packet.length, part.covered.test i = true ↔ i / chunk = j ∨
    DeliveredSince (fragmentParts handle id packet chunk) h
      (fragmentPart handle id packet chunk (i / chunk))

theorem Collects.advanced (collects : Collects handle id packet chunk h part)
    (hj : j * chunk < packet.length)
    (ran : part.copy (j * chunk) ((packet.drop (j * chunk)).take chunk) = some part') :
    Advanced handle id packet chunk j h part' := by
  have payload := length_part packet chunk j
  have length := collects.length
  have copied := copied_of_copy collects.sound (by omega) ran
  refine ⟨copied.sound, copied.length.trans length, fun i covered => ?_, fun i hi => ?_⟩
  · by_cases older : part.covered.test i = true
    · rw [copied.kept i older, collects.agrees i older]
    · obtain ⟨lower, upper⟩ := ((copied.covered i).mp covered).resolve_left older
      rw [copied.copied i lower upper, List.getElem?_take_of_lt (by omega), List.getElem?_drop,
        show j * chunk + (i - j * chunk) = i by omega]
  · rw [copied.covered, part_holds_iff split hi, collects.covered i hi, or_comm]

/-- Every other part has been delivered since the last emission. -/
def LastMissing (parts : List Bytes) (h : List ReassemblyEntry) (datagram : Bytes) : Prop :=
  ∀ p ∈ parts, p = datagram ∨ DeliveredSince parts h p

theorem Advanced.complete_iff (advanced : Advanced handle id packet chunk j h part)
    (hj : j * chunk < packet.length) :
    part.received = packet.length ↔ LastMissing (fragmentParts handle id packet chunk) h
      (fragmentPart handle id packet chunk j) := by
  rw [← advanced.length, advanced.sound.complete_iff, advanced.length]
  constructor
  · intro full p member
    obtain ⟨m, hm, rfl⟩ := (mem_fragmentParts split).mp member
    have here : m * chunk / chunk = m := Nat.mul_div_cancel m split.positive
    rcases (advanced.covered _ hm).mp (full _ hm) with same | delivered
    · exact .inl (by rw [← same, here])
    · exact .inr (by rwa [here] at delivered)
  · intro last i hi
    have member : fragmentPart handle id packet chunk (i / chunk) ∈
        fragmentParts handle id packet chunk :=
      (mem_fragmentParts split).mpr ⟨_, part_start_lt hi, rfl⟩
    rw [advanced.covered i hi]
    rcases last _ member with same | delivered
    · exact .inl (fragmentPart_inj split (part_start_lt hi) hj same)
    · exact .inr delivered

omit split in
theorem Advanced.packet_eq (advanced : Advanced handle id packet chunk j h part)
    (full : part.received = packet.length) : part.packet = packet := by
  refine List.ext_getElem? fun i => ?_
  rcases Nat.lt_or_ge i packet.length with hi | hi
  · have covered := advanced.sound.complete_iff.mp (full.trans advanced.length.symm) i
      (advanced.length ▸ hi)
    exact advanced.agrees i covered
  · rw [List.getElem?_eq_none (by rw [advanced.length]; exact hi), List.getElem?_eq_none hi]

/-- What delivering one of the parts answers. -/
inductive DeliveryAnswer (parts : List Bytes) (packet : Bytes) (h : List ReassemblyEntry)
    (datagram : Bytes) (out : ReassemblyAnswer) : Prop where
  | emitted : LastMissing parts h datagram → out = some (.ok (some packet)) →
      DeliveryAnswer parts packet h datagram out
  | missing : ¬LastMissing parts h datagram → out = some (.ok none) →
      DeliveryAnswer parts packet h datagram out

section

variable (progress : Progress handle id packet chunk h s)
  (step : deliveryStep ⟨handle, id⟩ (fragmentParts handle id packet chunk) s a out s')

include progress step

/-- One part delivered: the answer, and the progress it leaves. -/
theorem Progress.deliver (hj : j * chunk < packet.length)
    (hop : a.op = .accept (fragmentPart handle id packet chunk j) tie) :
    DeliveryAnswer (fragmentParts handle id packet chunk) packet h
        (fragmentPart handle id packet chunk j) out ∧
      Progress handle id packet chunk (h ++ [⟨s, a, out, s'⟩]) s' := by
  obtain ⟨step, undisturbed⟩ := step
  have frame : readFrame (fragmentPart handle id packet chunk j) =
      .fragment (partFrame handle id packet chunk j) := readFrame_part split hj
  have wellFormed : (partFrame handle id packet chunk j).WellFormed := partFrame_wellFormed split hj
  obtain ⟨answer, hout, outcome⟩ := step_fragment step hop frame
  obtain ⟨emitted, taken⟩ : ∃ emitted, answer = .ok emitted := by
    obtain ⟨hout', _⟩ := step_accept step hop
    rw [accept_fragment_eq frame, hout] at hout'
    rw [Option.some.inj hout']
    refine acceptFragment_ok wellFormed undisturbed.timely
      (undisturbed.room _ tie _ hop frame wellFormed) fun part origin => ?_
    have collects := progress.collects split origin
    exact ⟨collects.length, collects.copy_isSome hj⟩
  have delivers : ∀ m, m * chunk < packet.length →
      (Delivers ⟨s, a, out, s'⟩ (fragmentPart handle id packet chunk m) ↔ m = j) := by
    intro m hm
    constructor
    · rintro ⟨tie', hop'⟩
      have same := hop'.symm.trans hop
      cases ReassemblyOp.accept.inj same with
      | intro same _ => exact fragmentPart_inj split hm hj same
    · rintro rfl
      exact ⟨tie, hop⟩
  have advanced : ∀ {part part'},
      Extends s.r (partFrame handle id packet chunk j) a.now part part' →
      Advanced handle id packet chunk j h part' := by
    intro part part' extends'
    have collects := progress.collects split (extends'.origin.imp And.left fun opened => opened)
    exact collects.advanced split hj extends'.ran
  subst hout taken
  cases outcome with
  | extended extends' _ incomplete held =>
    have advanced := advanced extends'
    have missing := mt (advanced.complete_iff split hj).mpr incomplete
    have silent : ¬EmitsOn (fragmentParts handle id packet chunk) ⟨s, a, some (.ok none), s'⟩ := by
      rintro ⟨_, packet, emitted⟩
      cases emitted
    refine ⟨.missing missing rfl, fun vacant => ?_, fun part held' => ?_⟩
    · rw [show s'.r.pending.lookup ⟨handle, id⟩ = some _ from held] at vacant
      cases vacant
    · rw [show s'.r.pending.lookup ⟨handle, id⟩ = some _ from held] at held'
      cases held'
      refine ⟨advanced.sound, advanced.length, advanced.agrees, fun i hi => ?_⟩
      rw [advanced.covered i hi, deliveredSince_snoc, delivers _ (part_start_lt hi)]
      simp only [silent, not_false_eq_true, true_and]
  | completed extends' _ complete gone =>
    have advanced := advanced extends'
    rw [advanced.packet_eq complete]
    refine ⟨.emitted ((advanced.complete_iff split hj).mp complete) rfl, fun _ p _ => ?_,
      fun part held => ?_⟩
    · rw [deliveredSince_snoc]
      rintro ⟨silent, _⟩
      exact silent ⟨⟨_, (mem_fragmentParts split).mpr ⟨j, hj, rfl⟩, tie, hop⟩, _, rfl⟩
    · rw [show s'.r.pending.lookup ⟨handle, id⟩ = none from gone] at held
      cases held

/-- Any other step changes no progress. -/
theorem Progress.other
    (other : ∀ p ∈ fragmentParts handle id packet chunk, ¬Delivers ⟨s, a, out, s'⟩ p) :
    Progress handle id packet chunk (h ++ [⟨s, a, out, s'⟩]) s' := by
  have kept := deliveryStep_other step other
  have since : ∀ p ∈ fragmentParts handle id packet chunk,
      (DeliveredSince (fragmentParts handle id packet chunk) (h ++ [⟨s, a, out, s'⟩]) p ↔
        DeliveredSince (fragmentParts handle id packet chunk) h p) := by
    intro p member
    have silent : ¬EmitsOn (fragmentParts handle id packet chunk) ⟨s, a, out, s'⟩ :=
      fun ⟨⟨q, inside, delivers⟩, _⟩ => other q inside delivers
    rw [deliveredSince_snoc]
    simp only [silent, other p member, not_false_eq_true, true_and, false_or]
  refine ⟨fun vacant p member => ?_, fun part held => ?_⟩
  · rw [since p member]
    exact progress.vacant (kept.symm.trans vacant) p member
  · obtain ⟨sound, length, agrees, covered⟩ := progress.pending part (kept.symm.trans held)
    refine ⟨sound, length, agrees, fun i hi => ?_⟩
    rw [covered i hi, since _ ((mem_fragmentParts split).mpr ⟨_, part_start_lt hi, rfl⟩)]

end

theorem run_progress (vacant : s₀.r.pending.lookup ⟨handle, id⟩ = none)
    (run : Run (deliveryStep ⟨handle, id⟩ (fragmentParts handle id packet chunk)) s₀ h s) :
    Progress handle id packet chunk h s := by
  induction run with
  | nil =>
    refine ⟨fun _ p _ => ?_, fun part held => ?_⟩
    · rintro ⟨pre, e, post, heq, _⟩
      simp at heq
    · rw [vacant] at held
      cases held
  | @snoc h s s' a out _ step ih =>
    by_cases delivery : ∃ p ∈ fragmentParts handle id packet chunk, Delivers ⟨s, a, out, s'⟩ p
    · obtain ⟨p, member, tie, hop⟩ := delivery
      obtain ⟨j, hj, rfl⟩ := (mem_fragmentParts split).mp member
      exact (ih.deliver split step hj hop).2
    · push Not at delivery
      exact ih.other split step delivery

end Progress

/-! ## The round trip -/

/-- A packet that fits one datagram is emitted by every delivery of it. -/
theorem deliver_whole (h : List ReassemblyEntry)
    (frame : readFrame (tagDatagram handle packet) = .whole packet)
    (step : reassemblyStep s a out s') (hop : a.op = .accept (tagDatagram handle packet) tie) :
    DeliveryAnswer [tagDatagram handle packet] packet h (tagDatagram handle packet) out := by
  refine .emitted (fun p member => .inl (List.mem_singleton.mp member)) ?_
  rw [(step_accept step hop).1, Reassembler.accept, frame]

/-- The round trip of a packet. Encoding succeeds exactly when `wireSize` does, and
its datagrams fit and add up to it. Delivered in any order, repeated and mixed with
other traffic, a datagram emits the packet when every other one has come since the
packet was last emitted, and nothing before that. -/
theorem round_trip {handle : UInt16} {packet : Bytes} {max : Nat} {id : UInt64}
    (tagged : handle ≠ 0) (version : byte packet 0 >>> 4 = 4 ∨ byte packet 0 >>> 4 = 6) :
    ((encode handle packet max id).isSome ↔ (wireSize packet.length max).isSome) ∧
      ∀ enc, encode handle packet max id = some enc →
        (∀ d ∈ enc.datagrams, d.length ≤ max) ∧
        wireSize packet.length max = some (enc.datagrams.map List.length).sum ∧
        ∀ {s₀ s s' : ClockedReassembler} {h : List ReassemblyEntry} {a : ReassemblyAct}
          {out : ReassemblyAnswer}, s₀.r.pending.lookup ⟨handle, id⟩ = none →
          Run (deliveryStep ⟨handle, id⟩ enc.datagrams) s₀ h s →
          deliveryStep ⟨handle, id⟩ enc.datagrams s a out s' →
          ∀ d ∈ enc.datagrams, ∀ tie, a.op = .accept d tie →
            DeliveryAnswer enc.datagrams packet h d out := by
  refine ⟨encode_isSome_iff packet max id tagged, fun enc encoded => ?_⟩
  obtain ⟨fits, sized⟩ := encode_lengths encoded
  refine ⟨fits, sized, fun {s₀ s s' h a out} vacant run step d member tie hop => ?_⟩
  obtain ⟨_, nonempty, short, _, parts, _⟩ | ⟨chunk, split, _, parts, _⟩ := encode_some encoded
  · rw [parts] at member ⊢
    cases List.mem_singleton.mp member
    exact deliver_whole h (readFrame_tagDatagram tagged nonempty short version) step.1 hop
  · rw [parts] at member run step ⊢
    obtain ⟨j, hj, rfl⟩ := (mem_fragmentParts split).mp member
    exact ((run_progress split vacant run).deliver split step hj hop).1

def splitPacket : Bytes := 0x45 :: List.replicate 31 1

def latePart : ReassemblyEntry :=
  ReassemblyAct.exec ⟨1, .accept (fragmentPart 7 9 splitPacket 16 1) 0⟩ nothingPending

def earlyPart : ReassemblyEntry :=
  ReassemblyAct.exec ⟨2, .accept (fragmentPart 7 9 splitPacket 16 0) 0⟩ latePart.after

/-- A packet in two parts, the second one first. -/
theorem round_trip_reversed :
    DeliveryAnswer (fragmentParts 7 9 splitPacket 16) splitPacket [latePart]
        (fragmentPart 7 9 splitPacket 16 0) earlyPart.out ∧
      earlyPart.out = some (.ok (some splitPacket)) := by
  have encoded : encode 7 splitPacket 31 9 = some (.fragments (fragmentParts 7 9 splitPacket 16)) :=
    rfl
  have late : deliveryStep ⟨7, 9⟩ (fragmentParts 7 9 splitPacket 16) nothingPending latePart.act
      latePart.out latePart.after := by
    refine ⟨ReassemblyAct.exec_step (by decide), fun d tie hop foreign => ?_,
      fun _ _ _ _ _ _ _ => ?_, fun part held => by cases held⟩
    · cases hop
      exact absurd (by decide) foreign
    · exact ⟨by decide, by decide⟩
  have early : deliveryStep ⟨7, 9⟩ (fragmentParts 7 9 splitPacket 16) latePart.after earlyPart.act
      earlyPart.out earlyPart.after := by
    refine ⟨ReassemblyAct.exec_step (by decide), fun d tie hop foreign => ?_,
      fun _ _ _ _ _ _ _ => ?_, fun part held => ?_⟩
    · cases hop
      exact absurd (by decide) foreign
    · exact ⟨by decide, by decide⟩
    · cases held
      decide
  refine ⟨?_, rfl⟩
  exact ((round_trip (by decide) (by decide)).2 _ encoded).2.2 rfl (.snoc .nil late) early _
    (by decide) 0 rfl

end Rayfish
