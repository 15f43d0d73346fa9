import Rayfish.Forward.Fragment

/-!
# One assembly, one call

`Copied` says what copying a fragment into an assembly leaves behind, and
`FragmentOutcome` everything a call with a fragment can do to the reassembler.
`Framed` is the frame rule: a call under one key leaves every other assembly alone,
except the oldest one when a new assembly needs its room.
-/

namespace Rayfish

open Lib

/-! ## Copying a fragment into an assembly -/

/-- What every assembly satisfies: the bitmap marks bytes of the packet only, and
`received` counts them. -/
structure Assembly.Sound (part : Assembly) : Prop where
  short : part.packet.length ≤ maxPacket
  words : part.covered.length = 24
  inside : ∀ i, part.covered.test i = true → i < part.packet.length
  counted : part.received = part.covered.count part.packet.length

variable {now pos tie : Nat} {part : Assembly} {r r' : Reassembler} {f : FragmentFrame}

theorem Assembly.fresh_sound (h : total ≤ maxPacket) : (Assembly.fresh total now).Sound := by
  refine ⟨?_, by simp [fresh, Bitmap.empty], fun i covered => ?_, by simp [fresh]⟩
  · simpa [fresh] using h
  · simp [fresh] at covered

/-- A full count means that every byte is covered. -/
theorem Assembly.Sound.complete_iff (sound : part.Sound) :
    part.received = part.packet.length ↔ ∀ i < part.packet.length, part.covered.test i = true := by
  rw [sound.counted]
  exact Bitmap.count_eq_iff

/-- `payload` copied to `pos`: the bytes covered before are kept, and those of the
payload are covered too. -/
structure Copied (part : Assembly) (pos : Nat) (payload : Bytes) (part' : Assembly) : Prop where
  sound : part'.Sound
  deadline : part'.deadline = part.deadline
  length : part'.packet.length = part.packet.length
  covered : ∀ i, part'.covered.test i = true ↔
    part.covered.test i = true ∨ (pos ≤ i ∧ i < pos + payload.length)
  kept : ∀ i, part.covered.test i = true → part'.packet[i]? = part.packet[i]?
  copied : ∀ i, pos ≤ i → i < pos + payload.length → part'.packet[i]? = payload[i - pos]?

/-- One more byte marked and written. -/
def Assembly.put (part : Assembly) (pos : Nat) (b : UInt8) : Assembly :=
  { part with
    covered := part.covered.mark pos
    packet := part.packet.set pos b
    received := part.received + 1 }

theorem Assembly.Sound.word_inside (sound : part.Sound) (fits : pos < part.packet.length) :
    pos / 64 < part.covered.length := by
  have := sound.short
  have : maxPacket = 1500 := rfl
  rw [sound.words]
  omega

theorem Assembly.Sound.test_put (sound : part.Sound) (fits : pos < part.packet.length) :
    (part.put pos b).covered.test i = true ↔ i = pos ∨ part.covered.test i = true := by
  rw [put, Bitmap.test_mark (sound.word_inside fits), Bool.or_eq_true, decide_eq_true_eq]

theorem Assembly.Sound.put (sound : part.Sound) (fits : pos < part.packet.length)
    (uncovered : part.covered.test pos = false) :
    (part.put pos b).Sound := by
  have length : (part.put pos b).packet.length = part.packet.length := List.length_set
  refine ⟨length ▸ sound.short, ?_, fun i covered => ?_, ?_⟩
  · show (part.covered.mark pos).length = 24
    rw [Bitmap.mark_length, sound.words]
  · rw [length]
    rcases (sound.test_put fits).mp covered with rfl | older
    · exact fits
    · exact sound.inside i older
  · rw [length]
    show part.received + 1 = (part.covered.mark pos).count part.packet.length
    rw [Bitmap.count_mark (sound.word_inside fits) uncovered fits, sound.counted]

theorem copied_of_copy (sound : part.Sound) (fits : pos + payload.length ≤ part.packet.length)
    (ran : part.copy pos payload = some part') :
    Copied part pos payload part' := by
  induction payload generalizing part pos with
  | nil =>
    cases ran
    refine ⟨sound, rfl, rfl, fun i => ?_, fun _ _ => rfl, fun i hi hi' => ?_⟩
    · simp only [List.length_nil]
      constructor
      · exact .inl
      · rintro (covered | empty)
        · exact covered
        · omega
    · simp only [List.length_nil] at hi'
      omega
  | cons b rest ih =>
    rw [List.length_cons] at fits
    have inside : pos < part.packet.length := by omega
    rw [Assembly.copy] at ran
    split at ran
    · next covered =>
      -- an identical duplicate of a byte that is there
      split at ran
      · cases ran
      next same =>
      have same : part.packet[pos]? = some b := by
        rw [getElem?_byte inside, not_not.mp same]
      obtain ⟨sound', deadline, length, covers, kept, copied⟩ := ih sound (by omega) ran
      refine ⟨sound', deadline, length, fun i => ?_, kept, fun i hi hi' => ?_⟩
      · rw [covers, List.length_cons]
        constructor
        · rintro (older | range)
          · exact .inl older
          · exact .inr (by omega)
        · rintro (older | range)
          · exact .inl older
          · by_cases here : i = pos
            · exact .inl (here ▸ covered)
            · exact .inr (by omega)
      · rw [List.length_cons] at hi'
        by_cases here : i = pos
        · subst here
          rw [kept i covered, same, Nat.sub_self, List.getElem?_cons_zero]
        · rw [copied i (by omega) (by omega), show i - pos = i - (pos + 1) + 1 by omega,
            List.getElem?_cons_succ]
    · next uncovered =>
      have uncovered : part.covered.test pos = false := by simpa using uncovered
      have sound' := sound.put (b := b) inside uncovered
      have put_length : (part.put pos b).packet.length = part.packet.length := List.length_set
      obtain ⟨sound', deadline, length, covers, kept, copied⟩ := ih sound' (by omega) ran
      refine ⟨sound', deadline, length.trans put_length, fun i => ?_, fun i older => ?_,
        fun i hi hi' => ?_⟩
      · rw [covers, sound.test_put inside, List.length_cons]
        constructor
        · rintro ((rfl | older) | range)
          · exact .inr (by omega)
          · exact .inl older
          · exact .inr (by omega)
        · rintro (older | range)
          · exact .inl (.inr older)
          · by_cases here : i = pos
            · exact .inl (.inl here)
            · exact .inr (by omega)
      · have elsewhere : pos ≠ i := by
          rintro rfl
          rw [uncovered] at older
          cases older
        rw [kept i ((sound.test_put inside).mpr (.inr older))]
        exact List.getElem?_set_ne elsewhere
      · rw [List.length_cons] at hi'
        by_cases here : i = pos
        · subst here
          rw [kept i ((sound.test_put inside).mpr (.inl rfl)), Nat.sub_self,
            List.getElem?_cons_zero]
          exact List.getElem?_set_self inside
        · rw [copied i (by omega) (by omega), show i - pos = i - (pos + 1) + 1 by omega,
            List.getElem?_cons_succ]

/-- The covered bytes are those of `packet`. -/
def Assembly.Agrees (part : Assembly) (packet : Bytes) : Prop :=
  ∀ i, part.covered.test i = true → part.packet[i]? = packet[i]?

/-- A piece of the packet that the covered bytes belong to is never refused. -/
theorem Assembly.Agrees.copy_isSome {packet payload : Bytes} (agrees : part.Agrees packet)
    (sound : part.Sound) (fits : pos + payload.length ≤ part.packet.length)
    (piece : ∀ k < payload.length, payload[k]? = packet[pos + k]?) :
    (part.copy pos payload).isSome := by
  induction payload generalizing part pos with
  | nil => rfl
  | cons b rest ih =>
    rw [List.length_cons] at fits
    have inside : pos < part.packet.length := by omega
    have first : packet[pos]? = some b := (piece 0 (by simp)).symm
    have rest_piece : ∀ k < rest.length, rest[k]? = packet[pos + 1 + k]? := fun k hk => by
      rw [← List.getElem?_cons_succ (a := b), piece (k + 1) (by simpa using hk),
        show pos + (k + 1) = pos + 1 + k by omega]
    rw [copy]
    split
    · next covered =>
      rw [if_neg (not_not.mpr (byte_of_getElem? ((agrees pos covered).trans first)))]
      exact ih agrees sound (by omega) rest_piece
    · next uncovered =>
      have put_length : (part.put pos b).packet.length = part.packet.length := List.length_set
      show ((part.put pos b).copy (pos + 1) rest).isSome
      refine ih (fun i covered => ?_) (sound.put inside (by simpa using uncovered)) (by omega)
        rest_piece
      rcases (sound.test_put inside).mp covered with rfl | older
      · rw [first]
        exact List.getElem?_set_self inside
      · have elsewhere : pos ≠ i := by
          rintro rfl
          exact uncovered older
        rw [← agrees i older]
        exact List.getElem?_set_ne elsewhere

/-! ## Making room -/

/-- Neither limit is reached. -/
def Reassembler.Room (r : Reassembler) : Prop :=
  r.pending.size < maxPending ∧ assemblyCost ≤ r.available

/-- `key` is pending, and nothing pending has an earlier deadline. -/
def Reassembler.Oldest (r : Reassembler) (key : AssemblyKey) : Prop :=
  ∃ part, r.pending.lookup key = some part ∧
    ∀ key' part', r.pending.lookup key' = some part' → part.deadline ≤ part'.deadline

theorem Reassembler.oldest_spec (h : r.oldest tie = some key) : r.Oldest key := by
  obtain ⟨least, hleast, h⟩ := Option.bind_eq_some_iff.mp h
  obtain ⟨⟨key', part⟩, found, rfl⟩ := Option.map_eq_some_iff.mp h
  have member := List.mem_filter.mp (List.mem_of_getElem? found)
  have hdeadline : part.deadline = least := beq_iff_eq.mp member.2
  refine ⟨part, AList.mem_lookup_iff.mpr member.1, fun other part' held => ?_⟩
  have member' : part'.deadline ∈ r.pending.entries.map fun e => e.2.deadline :=
    List.mem_map.mpr ⟨⟨other, part'⟩, AList.mem_lookup_iff.mp held, rfl⟩
  rw [hdeadline]
  exact (List.min?_eq_some_iff.mp hleast).2 _ member'

/-- Room for a new assembly: nothing moves, or the oldest one goes. -/
theorem Reassembler.reserve_some (h : r.reserve tie = some r') :
    (r.Room ∧ r'.pending = r.pending) ∨
      ∃ old, ¬r.Room ∧ r.Oldest old ∧ r'.pending = r.pending.erase old := by
  unfold reserve at h
  split at h
  · next room =>
    cases h
    exact .inl ⟨room, rfl⟩
  · next full =>
    obtain ⟨old, hold, rfl⟩ := Option.map_eq_some_iff.mp h
    exact .inr ⟨old, full, oldest_spec hold, rfl⟩

/-- The shape of a fragment that an assembly is looked up or opened for. -/
structure FragmentFrame.WellFormed (f : FragmentFrame) : Prop where
  positive : 0 < f.total
  short : f.total ≤ maxPacket
  fits : f.offset + f.payload.length ≤ f.total

/-- A call with the fragment `f` leaves the assembly of every other key alone,
except the oldest one when a new assembly needs its room. -/
inductive Framed (r r' : Reassembler) (f : FragmentFrame) : Prop where
  | others : (∀ k, k ≠ f.key → r'.pending.lookup k = r.pending.lookup k) → Framed r r' f
  | evicted {old : AssemblyKey} : f.WellFormed → r.pending.lookup f.key = none → ¬r.Room →
      r.Oldest old → r'.pending.lookup old = none →
      (∀ k, k ≠ f.key → k ≠ old → r'.pending.lookup k = r.pending.lookup k) → Framed r r' f

/-- Whatever happens afterwards to `f.key` alone keeps the frame. -/
theorem Framed.trans_same (h : Framed r r' f)
    (same : ∀ k, k ≠ f.key → r''.pending.lookup k = r'.pending.lookup k) : Framed r r'' f := by
  cases h with
  | others h => exact .others fun k hk => (same k hk).trans (h k hk)
  | @evicted old wellFormed vacant full isOldest gone h =>
    have ne : old ≠ f.key := by
      rintro rfl
      obtain ⟨part, held, _⟩ := isOldest
      rw [vacant] at held
      cases held
    exact .evicted wellFormed vacant full isOldest ((same old ne).trans gone)
      fun k hk hk' => (same k hk).trans (h k hk hk')

/-- Every other assembly is as it was, or gone. -/
theorem Framed.kept_or_gone (h : Framed r r' f) (ne : k ≠ f.key) :
    r'.pending.lookup k = r.pending.lookup k ∨ r'.pending.lookup k = none := by
  cases h with
  | others h => exact .inl (h k ne)
  | @evicted old _ _ _ _ gone h =>
    by_cases same : k = old
    · exact .inr (same ▸ gone)
    · exact .inl (h k ne same)

/-- With room for a new assembly nothing else moves. -/
theorem Framed.kept (h : Framed r r' f)
    (room : f.WellFormed → r.pending.lookup f.key = none → r.Room) (ne : k ≠ f.key) :
    r'.pending.lookup k = r.pending.lookup k := by
  cases h with
  | others h => exact h k ne
  | evicted wellFormed vacant full _ _ _ => exact absurd (room wellFormed vacant) full

@[simp] theorem Reassembler.remove_lookup_self (r : Reassembler) (key : AssemblyKey) :
    (r.remove key).pending.lookup key = none :=
  AList.lookup_erase key r.pending

theorem Reassembler.remove_lookup_ne (r : Reassembler) (ne : k ≠ key) :
    (r.remove key).pending.lookup k = r.pending.lookup k :=
  AList.lookup_erase_ne ne

/-- The assembly a fragment goes to: a pending one, or a new one that has room. -/
theorem Reassembler.assembly_some (wellFormed : f.WellFormed)
    (h : r.assembly f.key f.total now tie = some (r', part)) :
    r'.pending.lookup f.key = some part ∧ Framed r r' f ∧
      ((r.pending.lookup f.key = some part ∧ r' = r) ∨
        (r.pending.lookup f.key = none ∧ part = .fresh f.total now)) := by
  unfold assembly at h
  split at h
  · next held =>
    cases h
    exact ⟨held, .others fun _ _ => rfl, .inl ⟨held, rfl⟩⟩
  · next vacant =>
    obtain ⟨reserved, hreserve, h⟩ := Option.map_eq_some_iff.mp h
    cases h
    refine ⟨AList.lookup_insert _, ?_, .inr ⟨vacant, rfl⟩⟩
    have inserted : ∀ k, k ≠ f.key →
        (reserved.pending.insert f.key (Assembly.fresh f.total now)).lookup k =
          reserved.pending.lookup k := fun k ne => AList.lookup_insert_ne ne
    rcases reserve_some hreserve with ⟨_, same⟩ | ⟨old, full, isOldest, erased⟩
    · exact .others fun k ne => by rw [inserted k ne, same]
    · have ne : old ≠ f.key := by
        rintro rfl
        obtain ⟨part, held, _⟩ := isOldest
        rw [vacant] at held
        cases held
      refine .evicted wellFormed vacant full isOldest ?_ fun k hk hk' => ?_
      · rw [inserted old ne, erased, AList.lookup_erase]
      · rw [inserted k hk, erased, AList.lookup_erase_ne hk']

/-! ## One call with a fragment -/

/-- The fragment `f` goes to `part`, which is pending and not expired or newly
opened, and makes it `part'`. -/
structure Extends (r : Reassembler) (f : FragmentFrame) (now : Nat) (part part' : Assembly) :
    Prop where
  wellFormed : f.WellFormed
  origin : (r.pending.lookup f.key = some part ∧ now < part.deadline) ∨
    (r.pending.lookup f.key = none ∧ part = .fresh f.total now)
  length : part.packet.length = f.total
  ran : part.copy f.offset f.payload = some part'

/-- Everything a call with a fragment can do. -/
inductive FragmentOutcome (r : Reassembler) (f : FragmentFrame) (now : Nat) :
    Except DropReason (Option Bytes) × Reassembler → Prop where
  | refused {reason : DropReason} {r' : Reassembler} : Framed r r' f →
      (r'.pending.lookup f.key = none ∨ r'.pending = r.pending) →
      FragmentOutcome r f now (.error reason, r')
  | extended {r' : Reassembler} {part part' : Assembly} : Extends r f now part part' →
      Framed r r' f → part'.received ≠ f.total → r'.pending.lookup f.key = some part' →
      FragmentOutcome r f now (.ok none, r')
  | completed {r' : Reassembler} {part part' : Assembly} : Extends r f now part part' →
      Framed r r' f → part'.received = f.total → r'.pending.lookup f.key = none →
      FragmentOutcome r f now (.ok (some part'.packet), r')

theorem FragmentOutcome.framed (h : FragmentOutcome r f now (answer, r')) : Framed r r' f := by
  cases h with
  | refused framed _ | extended _ framed _ _ | completed _ framed _ _ => exact framed

theorem acceptFragment_cases (r : Reassembler) (f : FragmentFrame) (now tie : Nat) :
    FragmentOutcome r f now (r.acceptFragment f now tie) := by
  have removed : FragmentOutcome r f now (.error .malformed, r.remove f.key) ∧
      FragmentOutcome r f now (.error .reassemblyTimeout, r.remove f.key) := by
    have framed : Framed r (r.remove f.key) f := .others fun k ne => r.remove_lookup_ne ne
    exact ⟨.refused framed (.inl (by simp)), .refused framed (.inl (by simp))⟩
  unfold Reassembler.acceptFragment
  split
  · exact removed.1
  have wellFormed : f.WellFormed := ⟨by omega, by omega, by omega⟩
  split
  · exact removed.2
  next live =>
  split
  · exact .refused (.others fun _ _ => rfl) (.inr rfl)
  next r' part found =>
  obtain ⟨held, framed, origin⟩ := Reassembler.assembly_some wellFormed found
  have framed_remove : Framed r (r'.remove f.key) f :=
    framed.trans_same fun k ne => r'.remove_lookup_ne ne
  split
  · exact .refused framed_remove (.inl (by simp))
  next length =>
  split
  · exact .refused framed_remove (.inl (by simp))
  next part' ran =>
  have extends' : Extends r f now part part' := by
    refine ⟨wellFormed, ?_, not_not.mp length, ran⟩
    rcases origin with ⟨older, _⟩ | fresh
    · rw [older, Option.any_some, decide_eq_true_eq] at live
      exact .inl ⟨older, by omega⟩
    · exact .inr fresh
  split
  · next complete => exact .completed extends' framed_remove complete (by simp)
  next incomplete =>
  refine .extended extends' (framed.trans_same fun k ne => ?_) incomplete ?_
  · exact AList.lookup_insert_ne ne
  · exact AList.lookup_insert _

/-- A well-formed fragment is taken when its assembly is not late, has or finds
room, and does not contradict it. -/
theorem acceptFragment_ok (wellFormed : f.WellFormed)
    (timely : ∀ part, r.pending.lookup f.key = some part → now < part.deadline)
    (room : r.pending.lookup f.key = none → r.Room)
    (fits : ∀ part, (r.pending.lookup f.key = some part ∨
        (r.pending.lookup f.key = none ∧ part = .fresh f.total now)) →
      part.packet.length = f.total ∧ (part.copy f.offset f.payload).isSome) :
    ∃ emitted, (r.acceptFragment f now tie).1 = .ok emitted := by
  obtain ⟨positive, short, inside⟩ := wellFormed
  have live : ¬((r.pending.lookup f.key).any fun part => decide (part.deadline ≤ now)) = true := by
    cases held : r.pending.lookup f.key with
    | none => simp
    | some part => simpa using timely part held
  have opened : ∃ r' part, r.assembly f.key f.total now tie = some (r', part) ∧
      part.packet.length = f.total ∧ (part.copy f.offset f.payload).isSome := by
    unfold Reassembler.assembly
    cases held : r.pending.lookup f.key with
    | some part => exact ⟨r, part, rfl, fits part (.inl held)⟩
    | none =>
      have enough : r.pending.size < maxPending ∧ assemblyCost ≤ r.available := room held
      rw [Reassembler.reserve, if_pos enough]
      exact ⟨_, _, rfl, fits _ (.inr ⟨held, rfl⟩)⟩
  obtain ⟨r', part, opened, length, copies⟩ := opened
  obtain ⟨part', ran⟩ := Option.isSome_iff_exists.mp copies
  rw [Reassembler.acceptFragment, if_neg (by omega), if_neg live, opened]
  dsimp only
  rw [if_neg (not_not.mpr length), ran]
  dsimp only
  split
  · exact ⟨_, rfl⟩
  · exact ⟨_, rfl⟩

end Rayfish
