import Rayfish.Forward.Reassembly

/-!
# What reassembly holds of the budget

The connections of a process reassemble out of one budget. `Booked` is what a call does to the
books of its connection, on its success, error and eviction paths alike; `reassembly_budget` is
what follows for all of them after any calls.
-/

namespace Rayfish

open Lib HashMap

variable {r r' : Reassembler} {now tie : Nat} {key : AssemblyKey}

namespace Reassembler

/-- What the assemblies of a connection hold of the budget. -/
def held (r : Reassembler) : Nat := r.pending.size * assemblyCost

/-- Permits move between the budget and the assemblies only, and the limit is kept. -/
structure Booked (r r' : Reassembler) : Prop where
  charge : r'.available + r'.held = r.available + r.held
  few : r.pending.size ≤ maxPending → r'.pending.size ≤ maxPending

theorem Booked.trans (h : r.Booked r') (h' : r'.Booked r'') : r.Booked r'' :=
  ⟨h'.charge.trans h.charge, fun few => h'.few (h.few few)⟩

theorem booked_remove (r : Reassembler) (key : AssemblyKey) : r.Booked (r.remove key) := by
  have erased := size_erase r.pending key
  refine ⟨?_, fun few => (Nat.le_add_right ..).trans (erased.symm.trans_le few)⟩
  rw [held, held, remove, erased, Nat.add_mul]
  cases r.pending.lookup key with
  | none => simp
  | some part => simp [Nat.add_assoc, Nat.add_comm assemblyCost]

/-- A new assembly is paid for, by the budget or by the oldest one. -/
theorem booked_assembly {total : Nat} {part : Assembly}
    (h : r.assembly key total now tie = some (r', part)) : r.Booked r' := by
  unfold assembly at h
  split at h
  · cases h
    exact ⟨rfl, id⟩
  next vacant =>
  obtain ⟨reserved, hreserve, h⟩ := Option.map_eq_some_iff.mp h
  cases h
  unfold reserve at hreserve
  split at hreserve
  next room =>
    cases hreserve
    have grown : size (r.pending.insert key (.fresh total now)) = r.pending.size + 1 := by
      simp [size_insert, size_erase r.pending key, vacant]
    refine ⟨?_, fun _ => grown.trans_le room.1⟩
    have paid := room.2
    simp only [held, grown, Nat.succ_mul]
    omega
  · obtain ⟨old, oldest, rfl⟩ := Option.map_eq_some_iff.mp hreserve
    obtain ⟨part, found, _⟩ := oldest_spec oldest
    have ne : key ≠ old := by
      rintro rfl
      cases vacant.symm.trans found
    have same : size ((r.pending.erase old).insert key (.fresh total now)) = r.pending.size := by
      simp [size_insert, size_erase r.pending old, found, size_erase (r.pending.erase old) key,
        AList.lookup_erase_ne ne, vacant]
    exact ⟨congrArg (r.available + · * assemblyCost) same, same.trans_le⟩

theorem booked_acceptFragment (r : Reassembler) (f : FragmentFrame) :
    r.Booked (r.acceptFragment f now tie).2 := by
  unfold acceptFragment
  split
  · exact r.booked_remove _
  split
  · exact r.booked_remove _
  split
  · exact ⟨rfl, id⟩
  next opened part found =>
  have booked := booked_assembly found
  have removed := booked.trans (opened.booked_remove f.key)
  split
  · exact removed
  split
  · exact removed
  split
  · exact removed
  next copied _ _ =>
  obtain ⟨found, -⟩ := assembly_some ⟨by omega, by omega, by omega⟩ found
  have same : size (opened.pending.insert f.key copied) = opened.pending.size := by
    simp [size_insert, size_erase opened.pending f.key, found]
  exact booked.trans ⟨congrArg (opened.available + · * assemblyCost) same, same.trans_le⟩

theorem booked_accept (r : Reassembler) (datagram : Bytes) :
    r.Booked (r.accept datagram now tie).2 := by
  unfold accept
  split
  · exact ⟨rfl, id⟩
  · exact ⟨rfl, id⟩
  · exact r.booked_acceptFragment _

theorem booked_expire (r : Reassembler) : r.Booked (r.expire now) := by
  have fewer : size (r.pending.retain fun _ part => decide (now < part.deadline)) ≤
    r.pending.size := List.length_filter_le ..
  refine ⟨?_, fewer.trans⟩
  simp only [held, expire]
  rw [Nat.add_assoc, ← Nat.add_mul, Nat.sub_add_cancel fewer]

end Reassembler

/-! ## All connections -/

/-- Eight mebibytes. -/
def globalBudget : Nat := 8 * 1024 * 1024

/-- The connections of a process and what is left of the budget, which stands for what each
reader says of it. -/
structure ReassemblyHost (Conn : Type) where
  available : Nat
  readers : HashMap Conn Reassembler

/-- What a connection does with its reassembler. -/
inductive ReaderCall where
  | accept (datagram : Bytes) (now tie : Nat)
  | expire (now : Nat)
  /-- The connection ends, and its reservations with it. -/
  | drop

namespace ReassemblyHost

variable {Conn : Type} [DecidableEq Conn]

def reader (s : ReassemblyHost Conn) (c : Conn) : Reassembler :=
  { (s.readers.lookup c).getD ⟨∅, 0, 0⟩ with available := s.available }

def call (s : ReassemblyHost Conn) (c : Conn) : ReaderCall → ReassemblyHost Conn
  | .accept datagram now tie => put ((s.reader c).accept datagram now tie).2
  | .expire now => put ((s.reader c).expire now)
  | .drop => ⟨s.available + (s.reader c).held, s.readers.erase c⟩
where
  put (r : Reassembler) : ReassemblyHost Conn := ⟨r.available, s.readers.insert c r⟩

/-- Nothing of the budget is lost, and every connection keeps to its limit. -/
structure Bookkept (s : ReassemblyHost Conn) : Prop where
  charge : s.available + total Reassembler.held s.readers = globalBudget
  few : ∀ c r, s.readers.lookup c = some r → r.pending.size ≤ maxPending

variable {s : ReassemblyHost Conn} {c : Conn}

/-- One connection and the rest. -/
theorem Bookkept.split (kept : s.Bookkept) (c : Conn) :
    s.available + (s.reader c).held + total Reassembler.held (s.readers.erase c) = globalBudget ∧
      (s.reader c).pending.size ≤ maxPending := by
  have charge := kept.charge
  rw [total_erase _ _ c, ← Nat.add_assoc] at charge
  unfold reader
  cases found : s.readers.lookup c with
  | none =>
    rw [found] at charge
    exact ⟨by simpa [Reassembler.held, size] using charge, by simp [size]⟩
  | some r =>
    rw [found] at charge
    exact ⟨charge, kept.few c r found⟩

theorem Bookkept.put (kept : s.Bookkept) (booked : (s.reader c).Booked r) :
    (call.put s c r).Bookkept := by
  obtain ⟨charge, few⟩ := kept.split c
  refine ⟨?_, fun c' r' found => ?_⟩
  · rw [call.put, total_insert, ← Nat.add_assoc, booked.charge]
    exact charge
  · rcases eq_or_ne c' c with rfl | other
    · cases found.symm.trans (AList.lookup_insert _)
      exact booked.few few
    · exact kept.few c' r' ((AList.lookup_insert_ne other).symm.trans found)

theorem Bookkept.call (kept : s.Bookkept) (op : ReaderCall) : (s.call c op).Bookkept := by
  cases op with
  | accept datagram now tie => exact kept.put (Reassembler.booked_accept _ _)
  | expire now => exact kept.put (Reassembler.booked_expire _)
  | drop =>
    refine ⟨(kept.split c).1, fun c' r' found => ?_⟩
    rcases eq_or_ne c' c with rfl | other
    · cases found.symm.trans (AList.lookup_erase ..)
    · exact kept.few c' r' ((AList.lookup_erase_ne other).symm.trans found)

variable (calls : List (Conn × ReaderCall))

/-- After the calls, from an empty process. -/
def after : ReassemblyHost Conn :=
  calls.foldl (fun s a => s.call a.1 a.2) ⟨globalBudget, ∅⟩

theorem after_snoc (a : Conn × ReaderCall) :
    after (calls ++ [a]) = (after calls).call a.1 a.2 := List.foldl_concat ..

theorem bookkept_after : (after calls).Bookkept := by
  induction calls using List.reverseRecOn with
  | nil => exact ⟨rfl, fun _ _ found => nomatch found⟩
  | append_singleton calls a ih =>
    rw [after_snoc]
    exact ih.call a.2

end ReassemblyHost

/-- The budget after any calls of any connections, in any order. -/
theorem reassembly_budget {Conn : Type} [DecidableEq Conn] (calls : List (Conn × ReaderCall)) :
    let s : ReassemblyHost Conn := calls.foldl (fun s a => s.call a.1 a.2) ⟨globalBudget, ∅⟩
    s.Bookkept :=
  ReassemblyHost.bookkept_after calls

/-! ## What is pending -/

/-- Counted right, and not complete. -/
structure Assembly.Unfinished (part : Assembly) : Prop extends part.Sound where
  incomplete : part.received < part.packet.length

/-- A call leaves unfinished assemblies, and keeps the deadline of one that was there. -/
theorem Reassembler.accept_pending
    (inv : ∀ key part, r.pending.lookup key = some part → part.Unfinished)
    (held : (r.accept datagram now tie).2.pending.lookup key = some part') :
    part'.Unfinished ∧
      ((∃ part, r.pending.lookup key = some part ∧ part'.deadline = part.deadline) ∨
        r.pending.lookup key = none ∧ part'.deadline = now + reassemblyTimeout) := by
  have same {P : Prop} (before : r.pending.lookup key = some part') : part'.Unfinished ∧
      ((∃ part, r.pending.lookup key = some part ∧ part'.deadline = part.deadline) ∨ P) :=
    ⟨inv key part' before, .inl ⟨part', before, rfl⟩⟩
  unfold accept at held
  split at held
  · exact same held
  · exact same held
  next f _ =>
  have outcome := acceptFragment_cases r f now tie
  generalize r.acceptFragment f now tie = ran at held outcome
  obtain ⟨answer, r'⟩ := ran
  by_cases here : key = f.key
  · subst here
    cases outcome with
    | refused _ gone =>
      rcases gone with gone | kept
      · cases gone.symm.trans held
      · exact same (kept ▸ held)
    | completed _ _ _ gone => cases gone.symm.trans held
    | @extended _ part _ step _ incomplete there =>
      cases there.symm.trans held
      have sound : part.Sound := by
        rcases step.origin with ⟨before, _⟩ | ⟨_, rfl⟩
        · exact (inv _ _ before).toSound
        · exact Assembly.fresh_sound step.wellFormed.short
      have copied := copied_of_copy sound (step.length ▸ step.wellFormed.fits) step.ran
      have filled : part'.received ≤ part'.packet.length := by
        rw [copied.sound.counted]
        exact Bitmap.count_le
      rw [← step.length, ← copied.length] at incomplete
      refine ⟨⟨copied.sound, filled.lt_of_ne incomplete⟩, ?_⟩
      rcases step.origin with ⟨before, _⟩ | ⟨vacant, rfl⟩
      · exact .inl ⟨part, before, copied.deadline⟩
      · exact .inr ⟨vacant, copied.deadline⟩
  · rcases outcome.framed.kept_or_gone here with kept | gone
    · exact same (kept ▸ held)
    · cases gone.symm.trans held

namespace ReassemblyHost

variable {Conn : Type} [DecidableEq Conn] {s : ReassemblyHost Conn} {c : Conn}

def pendingAt (s : ReassemblyHost Conn) (c : Conn) (key : AssemblyKey) : Option Assembly :=
  (s.reader c).pending.lookup key

/-- The same for all connections: only a call of its own opens an assembly. -/
theorem call_pending (inv : ∀ c key part, s.pendingAt c key = some part → part.Unfinished)
    (held : (s.call c op).pendingAt c' key = some part') :
    part'.Unfinished ∧
      ((∃ part, s.pendingAt c' key = some part ∧ part'.deadline = part.deadline) ∨
        s.pendingAt c' key = none ∧ ∃ datagram now tie, (c, op) = (c', .accept datagram now tie) ∧
          part'.deadline = now + reassemblyTimeout) := by
  have same {P : Prop} (before : s.pendingAt c' key = some part') : part'.Unfinished ∧
      ((∃ part, s.pendingAt c' key = some part ∧ part'.deadline = part.deadline) ∨ P) :=
    ⟨inv c' key part' before, .inl ⟨part', before, rfl⟩⟩
  by_cases own : c' = c
  · subst own
    cases op with
    | accept datagram now tie =>
      rw [call, call.put, pendingAt, reader, AList.lookup_insert] at held
      obtain ⟨unfinished, origin⟩ := Reassembler.accept_pending (inv c') held
      exact ⟨unfinished, origin.imp_right fun ⟨vacant, is⟩ =>
        ⟨vacant, datagram, now, tie, rfl, is⟩⟩
    | expire now =>
      rw [call, call.put, pendingAt, reader, AList.lookup_insert] at held
      exact same (Option.filter_eq_some_iff.mp ((expire_lookup ..).symm.trans held)).1
    | drop =>
      rw [call, pendingAt, reader, AList.lookup_erase] at held
      cases held
  · refine same (Eq.trans ?_ held)
    cases op with
    | accept | expire => simp only [call, call.put, pendingAt, reader, AList.lookup_insert_ne own]
    | drop => simp only [call, pendingAt, reader, AList.lookup_erase_ne own]

/-- The assembly under the key has been pending since a call of the connection opened it, five
seconds before its deadline. -/
def OpenedBy (calls : List (Conn × ReaderCall)) (c : Conn) (key : AssemblyKey) (deadline : Nat) :
    Prop :=
  ∃ pre datagram created tie post, calls = pre ++ (c, .accept datagram created tie) :: post ∧
    (after pre).pendingAt c key = none ∧ deadline = created + reassemblyTimeout ∧
    ∀ mid, mid <+: post →
      ((after (pre ++ (c, .accept datagram created tie) :: mid)).pendingAt c key).isSome

theorem pending_after (held : (after calls).pendingAt c key = some part) :
    part.Unfinished ∧ OpenedBy calls c key part.deadline := by
  induction calls using List.reverseRecOn generalizing c key part with
  | nil => cases held
  | append_singleton calls a ih =>
    have there : ((after (calls ++ [a])).pendingAt c key).isSome := by rw [held]; rfl
    rw [after_snoc] at held
    obtain ⟨unfinished, origin⟩ := call_pending (fun _ _ _ held => (ih held).1) held
    refine ⟨unfinished, ?_⟩
    rcases origin with ⟨old, before, kept⟩ | ⟨vacant, datagram, created, tie, opens, is⟩
    · obtain ⟨pre, datagram, created, tie, post, rfl, vacant, is, since⟩ := (ih before).2
      refine ⟨pre, datagram, created, tie, post ++ [a], by simp, vacant, kept.trans is, ?_⟩
      intro mid part
      rcases List.prefix_concat_iff.mp part with rfl | earlier
      · simpa using there
      · exact since mid earlier
    · obtain rfl : a = _ := opens
      refine ⟨calls, datagram, created, tie, [], rfl, vacant, is, fun mid part => ?_⟩
      rwa [List.prefix_nil.mp part]

end ReassemblyHost

/-- After any calls of any connections, in any order: the permits left and those held add up
to the budget and at most 64 assemblies of a connection are pending; and each one has counted
its covered bytes, which are not all of them yet, and is due five seconds after it was opened. -/
theorem reassembly_bookkeeping {Conn : Type} [DecidableEq Conn] (calls : List (Conn × ReaderCall)) :
    let s := ReassemblyHost.after calls
    s.Bookkept ∧ ∀ c key part, s.pendingAt c key = some part →
      part.received = part.covered.count part.packet.length ∧
        part.received < part.packet.length ∧
        ReassemblyHost.OpenedBy calls c key part.deadline := by
  refine ⟨ReassemblyHost.bookkept_after calls, fun c key part held => ?_⟩
  obtain ⟨unfinished, opened⟩ := ReassemblyHost.pending_after held
  exact ⟨unfinished.counted, unfinished.incomplete, opened⟩

end Rayfish
