import Rayfish.Forward.Inbound
import Mathlib.Data.List.Nodup

/-!
# What later fragments follow

The verdicts of one reader against the history of the fragments it has seen. A key is held
while the fragment that recorded it is younger than the TTL and fewer than `verdictCapacity`
keys were recorded after it (`held_iff`). A first fragment whose key is held already changes
nothing, whether it is accepted or refused, so a later fragment follows the most recent first
fragment only if that one found no verdict for its key (`later_fragment_iff`).
-/

namespace Rayfish

open Lib

/-! ## Fragments of a history -/

/-- The fragment that gets as far as the verdicts. -/
def InboundCall.judged (c : InboundCall) : Option Ipv6Fragment :=
  if c.packet.length > maxPacket then none
  else
    match classify c.packet with
    | some (info, some f) =>
      if srcOk info c.peer then if isOverlayIp info.dstIp then some f else none
      else if exitReturn info c.exit c.peer then some f
      else none
    | _ => none

def InboundDecision.accepts : InboundDecision → Bool
  | .accept _ => true
  | _ => false

/-- A first fragment with this key is judged. -/
def FirstOf (key : FragmentKey) (e : InboundEntry) : Prop :=
  ∃ f, e.act.judged = some f ∧ f.first = true ∧ f.key = key

/-- What a step adds to the verdicts: the key, and when it expires. -/
def recording (e : InboundEntry) : Option (FragmentKey × Nat) :=
  match e.act.judged with
  | some f =>
    if f.first ∧ e.out.accepts ∧ f.key ∉ (e.before.expire e.act.now).allowed then
      some (f.key, e.act.now + verdictTtl)
    else none
  | none => none

/-- The verdicts after a call that judges this fragment, or none. -/
def Follows (v : FragmentVerdicts) (now : Nat) (out : InboundDecision) (v' : FragmentVerdicts) :
    Option Ipv6Fragment → Prop
  | none => v' = v
  | some f =>
    if f.first then v' = if out.accepts then v.allow f.key now else v
    else v' = v.expire now ∧ out.accepts = decide (f.key ∈ (v.expire now).allowed)

variable {v : FragmentVerdicts} {key : FragmentKey} {e : InboundEntry}

variable {v' : FragmentVerdicts} {c : InboundCall} {out : InboundDecision} {now : Nat}

theorem deliver_follows
    (ran : deliver c.fw c.peer c.sshPort c.now returning info v ipFragment = (out, fw', v')) :
    Follows v c.now out v' ipFragment := by
  cases ipFragment with
  | none =>
    cases ran
    rfl
  | some f =>
    cases first : f.first with
    | false =>
      rw [Follows, if_neg (Bool.eq_false_iff.mp first)]
      simp only [deliver, first] at ran
      cases ran
      refine ⟨rfl, ?_⟩
      split
      · next admitted => exact admitted.symm
      · next refused => exact (Bool.eq_false_iff.mpr refused).symm
    | true =>
      rw [Follows, if_pos first]
      simp only [deliver, first, Bool.not_true, Bool.false_eq_true, if_false] at ran
      split at ran
      · cases ran
        rfl
      · split at ran
        · cases ran
          rfl
        · cases ran
          rfl

theorem inboundStep_follows (step : inboundStep v c out v') : Follows v c.now out v' c.judged := by
  obtain ⟨fw', ran⟩ := step
  unfold evaluateInbound at ran
  unfold InboundCall.judged
  split at ran
  · next long =>
    cases ran
    rw [if_pos long]
    rfl
  · next fits =>
    rw [if_neg fits]
    split at ran
    · next unread =>
      cases ran
      rw [unread]
      rfl
    · next info ipFragment classified =>
      rw [classified]
      split at ran
      · next ours =>
        split at ran
        · next outside =>
          cases ran
          cases ipFragment with
          | none => rfl
          | some f =>
            have transit : ¬isOverlayIp info.dstIp = true := by simpa using outside
            dsimp only
            rw [if_pos ours, if_neg transit]
            rfl
        · next overlay =>
          have followed := deliver_follows ran
          cases ipFragment with
          | none => exact followed
          | some f =>
            dsimp only
            rw [if_pos ours, if_pos (by simpa using overlay)]
            exact followed
      · next other =>
        split at ran
        · next returns =>
          have followed := deliver_follows ran
          cases ipFragment with
          | none => exact followed
          | some f =>
            dsimp only
            rw [if_neg other, if_pos returns]
            exact followed
        · next spoofed =>
          cases ran
          cases ipFragment with
          | none => rfl
          | some f =>
            dsimp only
            rw [if_neg other, if_neg spoofed]
            rfl

/-! ## The queue against the recordings -/

namespace FragmentVerdicts

variable {v : FragmentVerdicts} {log : List (FragmentKey × Nat)} {clock now : Nat}

/-- The queue holds the last recordings. What has left it is expired, or has
`verdictCapacity` recordings after it. -/
structure Mirrors (log : List (FragmentKey × Nat)) (clock : Nat) (v : FragmentVerdicts) : Prop where
  allowed : v.allowed = (v.order.map Prod.fst).toFinset
  nodup : (v.order.map Prod.fst).Nodup
  sorted : (v.order.map Prod.snd).Pairwise (· ≤ ·)
  bounded : ∀ entry ∈ v.order, entry.2 ≤ clock + verdictTtl
  fits : v.order.length ≤ verdictCapacity
  split : ∃ gone, log = gone ++ v.order ∧ ∀ pre entry post, gone = pre ++ entry :: post →
    entry.2 ≤ clock ∨ verdictCapacity ≤ (post ++ v.order).length

theorem mirrors_empty : Mirrors [] clock empty where
  allowed := rfl
  nodup := .nil
  sorted := .nil
  bounded := nofun
  fits := Nat.zero_le _
  split := ⟨[], rfl, fun pre _ _ eq => absurd eq (by simp)⟩

theorem Mirrors.later (mirrors : Mirrors log clock v) (le : clock ≤ now) : Mirrors log now v := by
  obtain ⟨gone, parts, left⟩ := mirrors.split
  refine { mirrors with
    bounded := fun entry member => (mirrors.bounded entry member).trans (by omega)
    split := ⟨gone, parts, fun pre entry post eq => ?_⟩ }
  exact (left pre entry post eq).imp_left (·.trans le)

variable {allowed : Finset FragmentKey}

/-- The oldest entry leaves the queue. -/
theorem Mirrors.pop (mirrors : Mirrors log clock ⟨allowed, entry :: rest⟩) :
    allowed.erase entry.1 = (rest.map Prod.fst).toFinset ∧ (rest.map Prod.fst).Nodup ∧
      (rest.map Prod.snd).Pairwise (· ≤ ·) ∧ ∀ other ∈ rest, other.2 ≤ clock + verdictTtl := by
  obtain ⟨fresh, nodup⟩ := List.nodup_cons.mp mirrors.nodup
  refine ⟨?_, nodup, (List.pairwise_cons.mp mirrors.sorted).2, fun other member =>
    mirrors.bounded other (List.mem_cons_of_mem _ member)⟩
  rw [show allowed = _ from mirrors.allowed, List.map_cons, List.toFinset_cons]
  exact Finset.erase_insert (by rwa [List.mem_toFinset])

/-- What has left the queue, with one entry more. -/
theorem gone_concat {gone rest : List (FragmentKey × Nat)} {entry : FragmentKey × Nat}
    (left : ∀ pre x post, gone = pre ++ x :: post →
      x.2 ≤ clock ∨ verdictCapacity ≤ (post ++ entry :: rest).length)
    (excess : entry.2 ≤ clock ∨ verdictCapacity ≤ rest.length) :
    ∀ pre x post, gone ++ [entry] = pre ++ x :: post →
      x.2 ≤ clock ∨ verdictCapacity ≤ (post ++ rest).length := by
  intro pre x post eq
  rcases snoc_cases eq with ⟨-, rfl, rfl⟩ | ⟨post', rfl, parts⟩
  · exact excess
  · have before := left pre x post' parts
    rwa [List.append_assoc]

theorem Mirrors.expireLoop {order : List (FragmentKey × Nat)}
    (mirrors : Mirrors log now ⟨allowed, order⟩) :
    Mirrors log now (expireLoop now allowed order) ∧
      ∀ entry ∈ (expireLoop now allowed order).order, now < entry.2 := by
  fun_induction FragmentVerdicts.expireLoop with
  | case1 allowed => exact ⟨mirrors, List.forall_mem_nil _⟩
  | case2 allowed key deadline rest young =>
    refine ⟨mirrors, fun entry member => ?_⟩
    rcases List.mem_cons.mp member with rfl | later
    · exact young
    · have above := (List.pairwise_cons.mp mirrors.sorted).1
      exact Nat.lt_of_lt_of_le young (above entry.2 (List.mem_map_of_mem later))
  | case3 allowed key deadline rest old ih =>
    obtain ⟨erased, nodup, sorted, bounded⟩ := mirrors.pop
    obtain ⟨gone, parts, left⟩ := mirrors.split
    refine ih { allowed := erased, nodup, sorted, bounded, fits := ?_, split := ?_ }
    · exact (Nat.le_succ _).trans mirrors.fits
    · refine ⟨gone ++ [(key, deadline)], ?_, gone_concat left (.inl (Nat.not_lt.mp old))⟩
      rw [parts, List.append_assoc, List.singleton_append]

theorem Mirrors.expire (mirrors : Mirrors log clock v) (le : clock ≤ now) :
    Mirrors log now (v.expire now) ∧ ∀ entry ∈ (v.expire now).order, now < entry.2 :=
  (mirrors.later le).expireLoop

theorem Mirrors.card (mirrors : Mirrors log clock v) : v.allowed.card = v.order.length := by
  rw [mirrors.allowed, List.toFinset_card_of_nodup mirrors.nodup, List.length_map]

/-- A full queue gives up its oldest entry. -/
theorem Mirrors.room (mirrors : Mirrors log clock v) :
    (v.order.length < verdictCapacity ∧ roomLoop v.allowed v.order = v) ∨
      ∃ entry rest, v.order = entry :: rest ∧ rest.length + 1 = verdictCapacity ∧
        roomLoop v.allowed v.order = ⟨v.allowed.erase entry.1, rest⟩ := by
  have card := mirrors.card
  obtain ⟨allowed, order⟩ := v
  rcases Nat.lt_or_ge order.length verdictCapacity with space | full
  · refine .inl ⟨space, ?_⟩
    cases order with
    | nil => rfl
    | cons entry rest => exact if_neg (by rw [card]; exact Nat.not_le.mpr space)
  · cases order with
    | nil => exact absurd full (by decide)
    | cons entry rest =>
      have length : rest.length + 1 = verdictCapacity := Nat.le_antisymm mirrors.fits full
      refine .inr ⟨entry, rest, rfl, length, ?_⟩
      have excess : allowed.card ≥ verdictCapacity := by
        rw [card]
        exact full
      rw [roomLoop, if_pos excess]
      cases rest with
      | nil => rfl
      | cons next rest =>
        obtain ⟨erased, nodup, -⟩ := mirrors.pop
        refine if_neg ?_
        rw [erased, List.toFinset_card_of_nodup nodup, List.length_map, ← length]
        exact Nat.not_succ_le_self _

/-- A new entry goes to the end of a queue with room for it. -/
theorem Mirrors.push {order gone : List (FragmentKey × Nat)}
    (keys : allowed = (order.map Prod.fst).toFinset) (nodup : (order.map Prod.fst).Nodup)
    (sorted : (order.map Prod.snd).Pairwise (· ≤ ·))
    (bounded : ∀ entry ∈ order, entry.2 ≤ now + verdictTtl) (space : order.length < verdictCapacity)
    (left : ∀ pre entry post, gone = pre ++ entry :: post →
      entry.2 ≤ now ∨ verdictCapacity ≤ (post ++ order).length + 1) (fresh : key ∉ allowed) :
    Mirrors (gone ++ order ++ [(key, now + verdictTtl)]) now
      ⟨insert key allowed, order ++ [(key, now + verdictTtl)]⟩ where
  allowed := by
    simp [keys]
  nodup := by
    rw [keys, List.mem_toFinset] at fresh
    rw [List.map_append, List.map_singleton, ← List.concat_eq_append]
    exact nodup.concat fresh
  sorted := by
    rw [List.map_append, List.pairwise_append]
    refine ⟨sorted, List.pairwise_singleton _ _, fun deadline member last is => ?_⟩
    obtain ⟨entry, at_entry, rfl⟩ := List.mem_map.mp member
    cases List.mem_singleton.mp is
    exact bounded entry at_entry
  bounded entry member := by
    rcases List.mem_append.mp member with old | new
    · exact bounded entry old
    · cases List.mem_singleton.mp new
      exact le_rfl
  fits := by
    rw [List.length_append]
    exact space
  split := by
    refine ⟨gone, List.append_assoc _ _ _, fun pre entry post eq => ?_⟩
    have before := left pre entry post eq
    rwa [← List.append_assoc, List.length_append]

/-- A key that is not held is recorded. -/
theorem Mirrors.record (mirrors : Mirrors log now v) (fresh : key ∉ v.allowed) :
    Mirrors (log ++ [(key, now + verdictTtl)]) now
      ⟨insert key (roomLoop v.allowed v.order).allowed,
        (roomLoop v.allowed v.order).order ++ [(key, now + verdictTtl)]⟩ := by
  obtain ⟨gone, parts, left⟩ := mirrors.split
  rcases mirrors.room with ⟨space, same⟩ | ⟨entry, rest, queue, length, popped⟩
  · rw [same, parts]
    refine .push mirrors.allowed mirrors.nodup mirrors.sorted mirrors.bounded space ?_ fresh
    exact fun pre entry post eq => (left pre entry post eq).imp_right (Nat.le_succ_of_le ·)
  · have at_head : Mirrors log now ⟨v.allowed, entry :: rest⟩ := queue ▸ mirrors
    obtain ⟨erased, nodup, sorted, bounded⟩ := at_head.pop
    rw [popped, parts, queue, ← List.singleton_append, ← List.append_assoc]
    refine .push erased nodup sorted bounded (by omega) ?_ fun held =>
      fresh (Finset.mem_of_mem_erase held)
    intro pre x post eq
    rcases snoc_cases eq with ⟨-, -, rfl⟩ | ⟨post', rfl, parts'⟩
    · exact .inr length.ge
    · refine (left pre x post' parts').imp_right fun excess => ?_
      rw [queue] at excess
      rw [List.append_assoc]
      exact Nat.le_succ_of_le excess

/-- A key is held exactly while its recording is neither expired nor pushed out. -/
theorem Mirrors.held_iff (mirrors : Mirrors log clock v) (le : clock ≤ now) :
    key ∈ (v.expire now).allowed ↔
      ∃ pre deadline post, log = pre ++ (key, deadline) :: post ∧ now < deadline ∧
        post.length < verdictCapacity := by
  obtain ⟨expired, young⟩ := mirrors.expire le
  obtain ⟨gone, parts, left⟩ := expired.split
  rw [expired.allowed, List.mem_toFinset]
  constructor
  · intro member
    obtain ⟨⟨_, deadline⟩, at_entry, rfl⟩ := List.mem_map.mp member
    obtain ⟨before, after, queue⟩ := List.append_of_mem at_entry
    refine ⟨gone ++ before, deadline, after, ?_, young _ at_entry, ?_⟩
    · rw [parts, queue, List.append_assoc]
    · have fits := expired.fits
      rw [queue, List.length_append, List.length_cons] at fits
      omega
  · rintro ⟨pre, deadline, post, parts', future, few⟩
    -- the entry is in the queue, as what has left it is expired or pushed out
    rcases List.append_eq_append_iff.mp (parts.symm.trans parts') with
      ⟨middle, rfl, queue⟩ | ⟨middle, rfl, rest⟩
    · rw [queue]
      simp
    · cases middle with
      | nil =>
        rw [List.nil_append] at rest
        rw [← rest]
        simp
      | cons entry middle =>
        obtain ⟨rfl, rfl⟩ := List.cons.inj rest
        rcases left pre _ middle rfl with old | excess
        · exact absurd old (Nat.not_le.mpr future)
        · exact absurd excess (Nat.not_le.mpr few)

end FragmentVerdicts

/-! ## Every history -/

/-- What has been recorded along a history. -/
def recordings (h : List InboundEntry) : List (FragmentKey × Nat) := h.filterMap recording

/-- One call against the recordings. -/
theorem FragmentVerdicts.Mirrors.step (mirrors : Mirrors log c.now v)
    (step : inboundStep v c out v') :
    Mirrors (log ++ (recording ⟨v, c, out, v'⟩).toList) c.now v' := by
  have follows := inboundStep_follows step
  have expired := (mirrors.expire le_rfl).1
  unfold recording
  cases judged : c.judged with
  | none =>
    rw [judged] at follows
    obtain rfl : v' = v := follows
    rwa [Option.toList_none, List.append_nil]
  | some f =>
    rw [judged, Follows] at follows
    dsimp only
    split at follows
    · next first =>
      split at follows
      · next accepted =>
        rw [follows]
        unfold FragmentVerdicts.allow
        by_cases held : f.key ∈ (v.expire c.now).allowed
        · rw [if_pos held, if_neg fun all => all.2.2 held, Option.toList_none, List.append_nil]
          exact expired
        · rw [if_neg held, if_pos ⟨first, accepted, held⟩]
          exact expired.record held
      · next refused =>
        rw [if_neg fun all => refused all.2.1, Option.toList_none, List.append_nil, follows]
        exact mirrors
    · next later =>
      rw [if_neg fun all => later all.1, Option.toList_none, List.append_nil, follows.1]
      exact expired

theorem recordings_split (pre : List InboundEntry) (e : InboundEntry) (post : List InboundEntry) :
    recordings (pre ++ e :: post) =
      recordings pre ++ ((recording e).toList ++ recordings post) := by
  rw [recordings, List.filterMap_append, List.filterMap_cons]
  cases recording e <;> rfl

theorem mirrors_run (run : Run inboundStep .empty h v)
    (clock : (h.map (·.act.now)).Pairwise (· ≤ ·)) (past : ∀ e ∈ h, e.act.now ≤ now) :
    v.Mirrors (recordings h) now := by
  induction run generalizing now with
  | nil => exact FragmentVerdicts.mirrors_empty
  | @snoc h v v' c out run step ih =>
    rw [List.map_append, List.pairwise_append] at clock
    obtain ⟨earlier, -, before⟩ := clock
    have earlierPast : ∀ e ∈ h, e.act.now ≤ c.now := fun e member =>
      before _ (List.mem_map_of_mem member) _ (List.mem_singleton_self _)
    have mirrors := (ih earlier earlierPast).step step
    rw [recordings_split, show recordings [] = [] from rfl, List.append_nil]
    exact mirrors.later (past _ mem_snoc)

theorem recording_firstOf (recorded : recording e = some (key, deadline)) :
    FirstOf key e ∧ e.out.accepts = true ∧ deadline = e.act.now + verdictTtl := by
  unfold recording at recorded
  split at recorded
  · next f judged =>
    split at recorded
    · next all =>
      cases recorded
      exact ⟨⟨f, judged, all.1, rfl⟩, all.2.1, rfl⟩
    · cases recorded
  · cases recorded

theorem recording_of_firstOf (first : FirstOf key e) (accepted : e.out.accepts = true)
    (fresh : key ∉ (e.before.expire e.act.now).allowed) :
    recording e = some (key, e.act.now + verdictTtl) := by
  obtain ⟨f, judged, isFirst, rfl⟩ := first
  unfold recording
  rw [judged]
  exact if_pos ⟨isFirst, accepted, fresh⟩

/-- When the most recent first fragment with this key arrived, no verdict for the key was
held. -/
def FreshKey (key : FragmentKey) (h : List InboundEntry) : Prop :=
  ∀ pre e post, h = pre ++ e :: post → FirstOf key e → (∀ e' ∈ post, ¬FirstOf key e') →
    key ∉ (e.before.expire e.act.now).allowed

/-- The clocks up to an entry, and from it to the call after the history. -/
theorem clock_split (clock : ((pre ++ e :: post).map (·.act.now) ++ [now]).Pairwise (· ≤ ·)) :
    (pre.map (·.act.now)).Pairwise (· ≤ ·) ∧ (∀ e' ∈ pre, e'.act.now ≤ e.act.now) ∧
      e.act.now ≤ now := by
  rw [List.map_append, List.map_cons, List.append_assoc, List.pairwise_append,
    List.cons_append, List.pairwise_cons] at clock
  obtain ⟨earlier, ⟨later, -⟩, across⟩ := clock
  refine ⟨earlier, fun e' member => ?_, later now (by simp)⟩
  exact across _ (List.mem_map_of_mem member) _ List.mem_cons_self

/-- A recording that still counts at the end of the history is held by every call after it. -/
theorem held_between (run : Run inboundStep .empty (pre ++ e :: (mid ++ e' :: post)) v)
    (clock : ((pre ++ e :: (mid ++ e' :: post)).map (·.act.now) ++ [now]).Pairwise (· ≤ ·))
    (recorded : recording e = some (key, deadline)) (future : now < deadline)
    (few : (recordings (mid ++ e' :: post)).length < verdictCapacity) :
    key ∈ (e'.before.expire e'.act.now).allowed := by
  have parts : pre ++ e :: (mid ++ e' :: post) = (pre ++ e :: mid) ++ e' :: post := by
    rw [List.append_assoc, List.cons_append]
  obtain ⟨reached, -⟩ := run.split parts
  rw [parts] at clock
  obtain ⟨earlier, past, le⟩ := clock_split clock
  rw [(mirrors_run reached earlier past).held_iff le_rfl]
  refine ⟨recordings pre, deadline, recordings mid, ?_, Nat.lt_of_le_of_lt le future, ?_⟩
  · rw [recordings_split, recorded]
    rfl
  · rw [recordings_split, List.length_append] at few
    exact Nat.lt_of_le_of_lt (Nat.le_add_right _ _) few

/-- **A later fragment follows the most recent first fragment with its key**, if that one
found no verdict for the key: it is accepted exactly if the first one was, less than the TTL
ago, and fewer than `verdictCapacity` keys were recorded since. -/
theorem later_fragment_iff {h : List InboundEntry} {v v' : FragmentVerdicts} {c : InboundCall}
    {out : InboundDecision} {f : Ipv6Fragment} (run : Run inboundStep .empty h v)
    (step : inboundStep v c out v') (judged : c.judged = some f) (later : f.first = false)
    (clock : (h.map (·.act.now) ++ [c.now]).Pairwise (· ≤ ·)) (fresh : FreshKey f.key h) :
    out.accepts = true ↔
      ∃ pre e post, h = pre ++ e :: post ∧ FirstOf f.key e ∧
        (∀ e' ∈ post, ¬FirstOf f.key e') ∧ e.out.accepts = true ∧
        c.now < e.act.now + verdictTtl ∧ (recordings post).length < verdictCapacity := by
  have follows := inboundStep_follows step
  rw [judged, Follows, if_neg (by rw [later]; exact Bool.false_ne_true)] at follows
  have past : ∀ e ∈ h, e.act.now ≤ c.now := fun e member =>
    (List.pairwise_append.mp clock).2.2 _ (List.mem_map_of_mem member) _ (List.mem_singleton_self _)
  have mirrors := mirrors_run run (List.pairwise_append.mp clock).1 past
  rw [follows.2, decide_eq_true_iff, mirrors.held_iff le_rfl]
  constructor
  · rintro ⟨front, deadline, back, parts, future, few⟩
    obtain ⟨pre, rest, rfl, -, rest_parts⟩ := List.filterMap_eq_append_iff.mp parts
    obtain ⟨skipped, e, post, rfl, -, recorded, rfl⟩ := List.filterMap_eq_cons_iff.mp rest_parts
    rw [← List.append_assoc] at run clock fresh ⊢
    obtain ⟨first, accepted, rfl⟩ := recording_firstOf recorded
    refine ⟨_, e, post, rfl, first, fun e' member again => ?_, accepted, future, few⟩
    -- the last such fragment would have found the verdict that still counts now
    obtain ⟨mid, last, rest, rfl, isFirst, none⟩ := split_last ⟨e', member, again⟩
    refine fresh (pre ++ skipped ++ e :: mid) last rest ?_ isFirst none
      (held_between run clock recorded future few)
    rw [List.append_assoc (pre ++ skipped), List.cons_append]
  · rintro ⟨pre, e, post, rfl, first, none, accepted, future, few⟩
    have recorded := recording_of_firstOf first accepted (fresh pre e post rfl first none)
    refine ⟨recordings pre, _, recordings post, ?_, future, few⟩
    rw [recordings_split, recorded]
    rfl

/-- The first fragment sent again, while the firewall denies what comes in. -/
def refusedFragment : InboundEntry :=
  InboundCall.exec { udpFragment [0, 1] [3, 232, 0, 53, 0, 24, 0, 0] 2 with
    fw := ⟨⟨.deny, .allow, false, false, []⟩, fun _ => none⟩ } firstFragment.after

def laterJudged : Ipv6Fragment :=
  ⟨⟨.v6 (deriveIpv6 1), .v6 (deriveIpv6 2), 44, 0, 0, 0, 0, 0, 48⟩,
    ⟨deriveIpv6 1, deriveIpv6 2, 7⟩, false⟩

theorem firstFragment_run : Run inboundStep .empty [firstFragment] firstFragment.after :=
  .snoc .nil (InboundCall.exec_step _ _)

/-- The later fragment is accepted, and the first fragment is why. -/
theorem later_fragment_iff_accepted :
    laterFragment.out.accepts = true ∧
      ∃ pre e post, [firstFragment] = pre ++ e :: post ∧ FirstOf laterJudged.key e ∧
        (∀ e' ∈ post, ¬FirstOf laterJudged.key e') ∧ e.out.accepts = true ∧
        laterFragment.act.now < e.act.now + verdictTtl ∧
        (recordings post).length < verdictCapacity := by
  have accepted : laterFragment.out.accepts = true := by decide
  refine ⟨accepted, (later_fragment_iff firstFragment_run (InboundCall.exec_step _ _)
    (f := laterJudged) (by decide) rfl (by decide) ?_).mp accepted⟩
  intro pre e post parts _ _
  obtain ⟨rfl, rfl, rfl⟩ : pre = [] ∧ e = firstFragment ∧ post = [] := by
    cases pre with
    | nil => simpa [eq_comm] using parts
    | cons x rest => simp at parts
  decide

/-- The first fragment was refused when it came again, and the later fragment is accepted. -/
theorem later_fragment_after_refusal :
    ∃ h v v' c out f pre e, Run inboundStep .empty h v ∧ inboundStep v c out v' ∧
      c.judged = some f ∧ f.first = false ∧
      (h.map (·.act.now) ++ [c.now]).Pairwise (· ≤ ·) ∧ h = pre ++ [e] ∧ FirstOf f.key e ∧
      e.out.accepts = false ∧ out.accepts = true := by
  refine ⟨[firstFragment, refusedFragment], _, _,
    udpFragment [0, 8] [1, 2, 3, 4, 5, 6, 7, 8] 3, _, laterJudged, [firstFragment],
    refusedFragment, firstFragment_run.snoc (InboundCall.exec_step _ _), InboundCall.exec_step _ _,
    by decide, rfl, by decide, rfl, ?_, by decide, by decide⟩
  exact ⟨{ laterJudged with
    first := true
    info := ⟨.v6 (deriveIpv6 1), .v6 (deriveIpv6 2), 17, 1000, 53, 0, 0, 0, 48⟩ },
    by decide, rfl, rfl⟩

end Rayfish
