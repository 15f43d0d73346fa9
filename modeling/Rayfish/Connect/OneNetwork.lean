import Rayfish.Connect.Service

/-!
# One direct network

The tie-break between two peers that ask each other rests on what the lower one remembers
of its own request, and that memory ends with a lost reply, a failed join or a restart
(`two_networks_minted`). An approval that finds no direct network mints one, although it is
not the only call under way, and although a saved network may not be running yet.

* `minted_once`: where the calls of one daemon do not overlap, the networks it has saved are
  running, and the lower peer approves only while it remembers a request it has sent, at
  most one network is minted.
-/

namespace Rayfish.Connect

open Lib

/-! ## One step of a daemon -/

section Node

/-- A call waits for a reply, or the loop asks again. -/
def ConnectNode.Asking (node : ConnectNode) : Prop := node.retry ≠ .off ∨ node.calls ≠ 0

/-- What a step of a daemon does to its requests, its approvals and its networks. -/
inductive NodeStepped (side : Side) (node : ConnectNode) :
    NodeAct → ConnectOut → ConnectNode → Prop where
  | quiet (pending : node'.pending = true → node.pending = true)
      (asking : node'.Asking → node.Asking) (approving : node'.approving.Sublist node.approving)
      (saved : node.saved ≠ [] → node'.saved ≠ []) : NodeStepped side node act .quiet node'
  | asks (origin : act = .connect ∧ node.existingDirectNetworkWith = none ∨ node.Asking)
      (pending : node'.pending = node.pending) (approving : node'.approving = node.approving)
      (saved : node'.saved = node.saved) : NodeStepped side node act .asked node'
  | approves (pending : node.pending = true) (unlinked : node.existingDirectNetworkWith = none)
      (first : ¬(node.outgoing = true ∧ side = .low)) :
      NodeStepped side node .approve .quiet { node with approving := node.approving ++ [none] }
  | mints (waiting : node.approving[task]? = some none) :
      NodeStepped side node (.mint task) (.minted key)
        { node with
          approving := node.approving.set task (some key)
          saved := ⟨key, true, true⟩ :: node.saved }

variable {side : Side} {fresh : Nat} {node node' : ConnectNode} {act : NodeAct} {out : ConnectOut}

/-- A step of a daemon that is asking already. -/
theorem NodeStepped.ofAsking (asking : node.Asking) (pending : node'.pending = node.pending)
    (approving : node'.approving = node.approving) (saved : node.saved ≠ [] → node'.saved ≠ []) :
    NodeStepped side node act .quiet node' :=
  .quiet (pending ▸ id) (fun _ => asking) (approving ▸ .refl _) saved

theorem answerStepped (step : nodeStep side fresh node (.answer msg) = some (out, node')) :
    NodeStepped side node (.answer msg) out node' := by
  obtain ⟨waiting, step⟩ := Option.ite_none_left_eq_some.1 step
  have asking : node.Asking := .inr waiting
  cases msg <;> cases step
  · exact .ofAsking asking rfl rfl id
  · unfold ConnectNode.spawnConnectRetry
    split <;> exact .ofAsking asking rfl rfl id
  · exact .ofAsking asking rfl rfl id

theorem retryJoinStepped (step : nodeStep side fresh node (.retryJoin result) = some (out, node')) :
    NodeStepped side node (.retryJoin result) out node' := by
  have asking {room} (joining : node.retry = .joining room) : node.Asking :=
    .inl (by rw [joining]; nofun)
  simp only [nodeStep] at step
  split at step <;> cases step
  · exact .ofAsking (asking ‹_›) rfl rfl fun _ => List.cons_ne_nil _ _
  · exact .ofAsking (asking ‹_›) rfl rfl id
  · exact .ofAsking (asking ‹_›) rfl rfl id

theorem approveStepped (step : nodeStep side fresh node .approve = some (out, node')) :
    NodeStepped side node .approve out node' := by
  obtain ⟨approved, ran, same⟩ := Option.map_eq_some_iff.mp step
  cases same
  obtain ⟨asked, ran⟩ := Option.ite_none_left_eq_some.1 ran
  split at ran
  · cases ran
    exact .quiet nofun id (.refl _) id
  next unlinked =>
  split at ran <;> cases ran
  · exact .quiet nofun id (.refl _) id
  · next first =>
    exact .approves (Bool.of_not_eq_false asked) (Option.not_isSome_iff_eq_none.mp unlinked) first

theorem nodeStepped (step : nodeStep side fresh node act = some (out, node')) :
    NodeStepped side node act out node' := by
  cases act with
  | answer => exact answerStepped step
  | retryJoin => exact retryJoinStepped step
  | approve => exact approveStepped step
  | connect =>
    simp only [nodeStep] at step
    split at step <;> cases step
    · exact .quiet id id (.refl _) id
    · next unlinked =>
      exact .asks (.inl ⟨rfl, Option.not_isSome_iff_eq_none.mp unlinked⟩) rfl rfl rfl
  | lost =>
    obtain ⟨waiting, ⟨⟩⟩ := Option.ite_none_left_eq_some.1 step
    exact .ofAsking (.inr waiting) rfl rfl id
  | join room result =>
    have step := (Option.ite_none_right_eq_some.1 step).2
    cases result <;> cases step
    · exact .quiet id id (.refl _) fun _ => List.cons_ne_nil _ _
    · exact .quiet id id (.refl _) id
    · exact .quiet id id (.refl _) id
  | retryAsk =>
    obtain ⟨sleeping, ⟨⟩⟩ := Option.ite_none_right_eq_some.1 step
    exact .asks (.inr (.inl (by rw [sleeping]; nofun))) rfl rfl rfl
  | retryAnswer msg =>
    obtain ⟨waiting, step⟩ := Option.ite_none_right_eq_some.1 step
    cases msg <;> cases step <;> exact .ofAsking (.inl (by rw [waiting]; nofun)) rfl rfl id
  | retryLost =>
    obtain ⟨waiting, ⟨⟩⟩ := Option.ite_none_right_eq_some.1 step
    exact .ofAsking (.inl (by rw [waiting]; nofun)) rfl rfl id
  | finishQueued =>
    obtain ⟨-, ⟨⟩⟩ := Option.ite_none_right_eq_some.1 step
    exact .quiet id id (.refl _) fun _ => List.cons_ne_nil _ _
  | flag key =>
    cases step
    exact .quiet id id (.refl _) fun some none => some (List.map_eq_nil_iff.mp none)
  | mint task =>
    obtain ⟨waiting, ⟨⟩⟩ := Option.ite_none_right_eq_some.1 step
    exact .mints waiting
  | install task =>
    simp only [nodeStep] at step
    split at step <;> cases step
    exact .quiet nofun id (List.eraseIdx_sublist _ _) id
  | approveFailed task =>
    obtain ⟨-, ⟨⟩⟩ := Option.ite_none_right_eq_some.1 step
    exact .quiet id id (List.eraseIdx_sublist _ _) id
  | evict =>
    cases step
    exact .quiet nofun id (.refl _) id
  | reject =>
    obtain ⟨-, ⟨⟩⟩ := Option.ite_none_right_eq_some.1 step
    exact .quiet nofun id (.refl _) id
  | forgetRejection =>
    cases step
    exact .quiet id id (.refl _) id
  | restart =>
    cases step
    refine .quiet nofun ?_ (List.nil_sublist _) id
    rintro (retrying | calling)
    · exact absurd rfl retrying
    · exact absurd rfl calling
  | restore key =>
    obtain ⟨-, ⟨⟩⟩ := Option.ite_none_right_eq_some.1 step
    exact .quiet id id (.refl _) id

/-- An answer makes a request pending at most. -/
theorem connectReply_kept (replied : node.connectReply admitted = (msg, node')) :
    node' = node ∨ node' = { node with pending := true } := by
  unfold ConnectNode.connectReply at replied
  split at replied
  · cases replied
    exact .inl rfl
  split at replied
  · cases replied
    exact .inl rfl
  split at replied <;> cases replied
  · exact .inl rfl
  · exact .inr rfl

/-- The networks saved with the peer are known to be direct ones and run. -/
def ConnectNode.Known (node : ConnectNode) : Prop :=
  ∀ net ∈ node.saved, net.direct = true ∧ net.key ∈ node.running

theorem existing_of_known (known : node.Known) (linked : node.saved ≠ []) :
    node.existingDirectNetworkWith ≠ none := by
  obtain ⟨net, member⟩ := List.exists_mem_of_ne_nil _ linked
  obtain ⟨direct, running⟩ := known net member
  unfold ConnectNode.existingDirectNetworkWith
  rw [Ne, List.find?_eq_none]
  intro none
  exact none net member (by simp [direct, running])

end Node

/-! ## Two daemons -/

abbrev ConnectHistory := List (Entry Peers ConnectAct ConnectOut)

abbrev ConnectRuns := Run fun s act out s' => connectStep s act = some (out, s')

/-- The daemon that takes a step of its own. -/
def ConnectAct.taker : ConnectAct → Option Side
  | .node side _ => some side
  | .handle _ _ => none

/-- The lower peer has sent a request. -/
def Asked (h : ConnectHistory) : Prop := ∃ e ∈ h, e.act.taker = some .low ∧ e.out = .asked

instance : DecidablePred Asked := fun h =>
  inferInstanceAs (Decidable (∃ e ∈ h, e.act.taker = some .low ∧ e.out = .asked))

def MintedBy (side : Side) (h : ConnectHistory) : Prop :=
  ∃ e ∈ h, e.act.taker = some side ∧ ∃ key, e.out = .minted key

/-- The calls of a daemon do not overlap, it knows the networks it has saved, and the lower
peer approves only while it remembers the request it has sent. -/
def Orderly (h : ConnectHistory) (s : Peers) : ConnectAct → Prop
  | .node side act =>
    (act = .approve → (s.nodes side).approving = [] ∧ (s.nodes side).Known ∧
      (side = .low → Asked h → (s.nodes .low).outgoing = true)) ∧
    (act = .connect → side = .low → (s.nodes .low).approving = [] ∧ (s.nodes .low).Known)
  | .handle _ _ => True

instance {node : ConnectNode} : Decidable node.Known :=
  inferInstanceAs (Decidable (∀ net ∈ node.saved, net.direct = true ∧ net.key ∈ node.running))

instance {h : ConnectHistory} {s : Peers} : DecidablePred (Orderly h s)
  | .node _ _ => inferInstanceAs (Decidable ((_ → _ ∧ _ ∧ (_ → _ → _)) ∧ (_ → _ → _ ∧ _)))
  | .handle _ _ => isTrue trivial

/-- The higher peer mints only for a request of the lower one, and a lower peer that mints
never sends one. -/
structure Settled (h : ConnectHistory) (s : Peers) : Prop where
  requests : s.requests .low ≠ 0 → Asked h
  pending : (s.nodes .high).pending = true → Asked h
  asking : (s.nodes .low).Asking → Asked h
  highApproving : none ∈ (s.nodes .high).approving → Asked h
  highMinted : MintedBy .high h → Asked h
  lowApproving : (s.nodes .low).approving ≠ [] → ¬Asked h
  lowMinted : MintedBy .low h → ¬Asked h
  single : ∀ side, (s.nodes side).approving.length ≤ 1
  saved : ∀ side, MintedBy side h → (s.nodes side).saved ≠ [] ∧ none ∉ (s.nodes side).approving

section Runs

variable {h : ConnectHistory} {s s' : Peers} {act : ConnectAct} {out : ConnectOut}

variable {e : Entry Peers ConnectAct ConnectOut} {side : Side} {fresh : Nat}

theorem Asked.snoc (asked : Asked h) : Asked (h ++ [e]) := by
  obtain ⟨e, member, asks⟩ := asked
  exact ⟨e, List.mem_append_left _ member, asks⟩

theorem Asked.before (asked : Asked (h ++ [e]))
    (unasked : e.act.taker = some .low → e.out ≠ .asked) : Asked h := by
  obtain ⟨e', member, low, asks⟩ := asked
  rcases mem_snoc_cases member with early | rfl
  · exact ⟨e', early, low, asks⟩
  · exact absurd asks (unasked low)

theorem mintedBy_snoc (minted : MintedBy side (h ++ [e])) :
    MintedBy side h ∨ e.act.taker = some side ∧ ∃ key, e.out = .minted key := by
  obtain ⟨e', member, mints⟩ := minted
  rcases mem_snoc_cases member with early | rfl
  · exact .inl ⟨e', early, mints⟩
  · exact .inr mints

theorem MintedBy.before (minted : MintedBy side (h ++ [e]))
    (unminted : ∀ key, e.out ≠ .minted key) : MintedBy side h := by
  rcases mintedBy_snoc minted with before | ⟨-, key, mints⟩
  · exact before
  · exact absurd mints (unminted key)

variable (settled : Settled h s)

include settled

/-- A network is minted by a call that found none, after which there is no other. -/
theorem Settled.first_mint {task : Nat} (waiting : (s.nodes side).approving[task]? = some none)
    (other : Side) : ¬MintedBy other h := by
  have listed : none ∈ (s.nodes side).approving := List.mem_of_getElem? waiting
  intro minted
  cases side with
  | low =>
    have unasked := settled.lowApproving (List.ne_nil_of_mem listed)
    cases other with
    | low => exact (settled.saved .low minted).2 listed
    | high => exact unasked (settled.highMinted minted)
  | high =>
    have asked := settled.highApproving listed
    cases other with
    | low => exact settled.lowMinted minted asked
    | high => exact (settled.saved .high minted).2 listed

/-- A step that asks nothing for the lower peer and mints nothing. -/
theorem Settled.kept (unasked : e.act.taker = some .low → e.out ≠ .asked)
    (unminted : ∀ key, e.out ≠ .minted key) (requests : s'.requests .low ≠ 0 → Asked h)
    (pending : (s'.nodes .high).pending = true → Asked h)
    (asking : (s'.nodes .low).Asking → Asked h)
    (approving : ∀ side, (s'.nodes side).approving.Sublist (s.nodes side).approving)
    (saved : ∀ side, (s.nodes side).saved ≠ [] → (s'.nodes side).saved ≠ []) :
    Settled (h ++ [e]) s' := by
  refine ⟨fun sent => (requests sent).snoc, fun held => (pending held).snoc,
    fun asks => (asking asks).snoc, fun listed => ?_, fun mints => ?_, fun some asks => ?_,
    fun mints asks => settled.lowMinted (mints.before unminted) (asks.before unasked),
    fun side => ?_, fun side mints => ?_⟩
  · exact (settled.highApproving ((approving .high).subset listed)).snoc
  · exact (settled.highMinted (mints.before unminted)).snoc
  · refine settled.lowApproving (fun none => some ?_) (asks.before unasked)
    have sub := approving .low
    rw [none] at sub
    exact List.sublist_nil.mp sub
  · exact Nat.le_trans (approving side).length_le (settled.single side)
  · obtain ⟨there, ended⟩ := settled.saved side (mints.before unminted)
    exact ⟨saved side there, fun listed => ended ((approving side).subset listed)⟩

/-- The lower peer asks: it has not minted a network, and no approval is under way. -/
theorem Settled.asks {node : ConnectNode} {act : NodeAct} {requests : Side → Nat}
    (low : e.act.taker = some .low) (asked : e.out = .asked)
    (origin : act = .connect ∧ (s.nodes .low).existingDirectNetworkWith = none ∨
      (s.nodes .low).Asking) (orderly : Orderly h s (.node .low act))
    (approving : node.approving = (s.nodes .low).approving) :
    Settled (h ++ [e]) ⟨Function.update s.nodes .low node, requests, s.replies, fresh⟩ := by
  have now : Asked (h ++ [e]) := ⟨e, mem_snoc, low, asked⟩
  have idle : (s.nodes .low).approving = [] := by
    rcases origin with ⟨rfl, -⟩ | asking
    · exact (orderly.2 rfl rfl).1
    · by_contra some
      exact settled.lowApproving some (settled.asking asking)
  have answers : ∀ key, e.out ≠ .minted key := by simp [asked]
  have unminted : ¬MintedBy .low h := by
    intro mints
    rcases origin with ⟨rfl, unlinked⟩ | asking
    · exact existing_of_known (orderly.2 rfl rfl).2 (settled.saved .low mints).1 unlinked
    · exact settled.lowMinted mints (settled.asking asking)
  refine ⟨fun _ => now, fun _ => now, fun _ => now, fun _ => now, fun _ => now, fun some => ?_,
    fun mints => absurd (mints.before answers) unminted, fun side => ?_, fun side mints => ?_⟩
  · exact absurd (approving.trans idle) some
  · cases side with
    | low =>
      have none : node.approving = [] := approving.trans idle
      exact none ▸ Nat.zero_le 1
    | high => exact settled.single .high
  · cases side with
    | low => exact absurd (mints.before answers) unminted
    | high => exact settled.saved .high (mints.before answers)

/-- An approval that found no network. -/
theorem Settled.approves (quiet : e.out = .quiet) (orderly : Orderly h s (.node side .approve))
    (held : (s.nodes side).pending = true)
    (unlinked : (s.nodes side).existingDirectNetworkWith = none)
    (first : ¬((s.nodes side).outgoing = true ∧ side = .low)) :
    Settled (h ++ [e]) ⟨Function.update s.nodes side
      { s.nodes side with approving := (s.nodes side).approving ++ [none] },
      s.requests, s.replies, fresh⟩ := by
  obtain ⟨idle, known, remembers⟩ := orderly.1 rfl
  have asked (asks : Asked (h ++ [e])) : Asked h := asks.before (by simp [quiet])
  have minted {other} (mints : MintedBy other (h ++ [e])) : MintedBy other h :=
    mints.before (by simp [quiet])
  have unminted : ¬MintedBy side h :=
    fun mints => existing_of_known known (settled.saved side mints).1 unlinked
  rw [idle]
  cases side with
  | low =>
    have unasked : ¬Asked h := fun asks => first ⟨remembers rfl asks, rfl⟩
    refine ⟨fun sent => (settled.requests sent).snoc, fun held => (settled.pending held).snoc,
      fun asks => (settled.asking asks).snoc, fun listed => (settled.highApproving listed).snoc,
      fun mints => (settled.highMinted (minted mints)).snoc, fun _ asks => unasked (asked asks),
      fun mints => absurd (minted mints) unminted, fun other => ?_, fun other mints => ?_⟩
    · cases other with
      | low => exact Nat.le_refl 1
      | high => exact settled.single .high
    · cases other with
      | low => exact absurd (minted mints) unminted
      | high => exact settled.saved .high (minted mints)
  | high =>
    have now := settled.pending held
    refine ⟨fun _ => now.snoc, fun _ => now.snoc, fun _ => now.snoc, fun _ => now.snoc,
      fun _ => now.snoc, fun some asks => settled.lowApproving some (asked asks),
      fun mints asks => settled.lowMinted (minted mints) (asked asks), fun other => ?_,
      fun other mints => ?_⟩
    · cases other with
      | low => exact settled.single .low
      | high => exact Nat.le_refl 1
    · cases other with
      | low => exact settled.saved .low (minted mints)
      | high => exact absurd (minted mints) unminted

/-- A network is minted: the first one. -/
theorem Settled.mints {task key : Nat} (minting : e.act.taker = some side)
    (mints : e.out = .minted key) (waiting : (s.nodes side).approving[task]? = some none) :
    Settled (h ++ [e]) ⟨Function.update s.nodes side
      { s.nodes side with
        approving := (s.nodes side).approving.set task (some key)
        saved := ⟨key, true, true⟩ :: (s.nodes side).saved },
      s.requests, s.replies, fresh⟩ := by
  have listed : none ∈ (s.nodes side).approving := List.mem_of_getElem? waiting
  have unminted := settled.first_mint waiting
  have minter : ∀ {other}, MintedBy other (h ++ [e]) → other = side := by
    intro other minted
    rcases mintedBy_snoc minted with before | ⟨now, -⟩
    · exact absurd before (unminted other)
    · exact Option.some.inj (now.symm.trans minting)
  have asked (asks : Asked (h ++ [e])) : Asked h := asks.before (by simp [mints])
  -- the call that mints is the only one
  have only : (s.nodes side).approving = [none] := by
    have short := settled.single side
    match eq : (s.nodes side).approving with
    | [] => exact absurd (eq ▸ listed) List.not_mem_nil
    | [call] =>
      rw [eq] at listed
      rw [List.mem_singleton.mp listed]
    | _ :: _ :: _ =>
      rw [eq] at short
      exact absurd short (by simp)
  have done : (s.nodes side).approving.set task (some key) = [some key] := by
    rw [only] at waiting ⊢
    match task, waiting with
    | 0, _ => rfl
  rw [done]
  cases side with
  | low =>
    have unasked := settled.lowApproving (List.ne_nil_of_mem listed)
    refine ⟨fun sent => (settled.requests sent).snoc, fun held => (settled.pending held).snoc,
      fun asks => (settled.asking asks).snoc, fun listed => (settled.highApproving listed).snoc,
      fun minted => (nomatch minter minted), fun _ asks => unasked (asked asks),
      fun _ asks => unasked (asked asks), fun other => ?_, fun other minted => ?_⟩
    · cases other with
      | low => exact Nat.le_refl 1
      | high => exact settled.single .high
    · cases minter minted
      exact ⟨List.cons_ne_nil _ _, by simp⟩
  | high =>
    have now := settled.highApproving listed
    refine ⟨fun _ => now.snoc, fun _ => now.snoc, fun _ => now.snoc, fun _ => now.snoc,
      fun _ => now.snoc, fun some asks => settled.lowApproving some (asked asks),
      fun minted => (nomatch minter minted), fun other => ?_, fun other minted => ?_⟩
    · cases other with
      | low => exact settled.single .low
      | high => exact Nat.le_refl 1
    · cases minter minted
      exact ⟨List.cons_ne_nil _ _, by simp⟩

omit settled in
theorem mint_waiting (step : connectStep s act = some (out, s')) (minted : out = .minted key) :
    ∃ side task, act = .node side (.mint task) ∧ (s.nodes side).approving[task]? = some none := by
  cases act with
  | node side act =>
    have step := (Option.ite_none_right_eq_some.1 step).2
    obtain ⟨⟨out', node⟩, ran, same⟩ := Option.map_eq_some_iff.mp step
    obtain ⟨rfl, -⟩ := Prod.mk.inj same
    cases nodeStepped ran with
    | @mints task _ waiting => exact ⟨side, task, rfl, waiting⟩
    | _ => cases minted
  | handle side admitted =>
    simp only [connectStep] at step
    split at step <;> cases step
    cases minted

/-- A step of one daemon that leaves its requests, approvals and networks. -/
theorem Settled.node {node : ConnectNode} {requests : Side → Nat}
    (unasked : e.act.taker = some .low → e.out ≠ .asked) (unminted : ∀ key, e.out ≠ .minted key)
    (sent : requests .low = s.requests .low)
    (pending : node.pending = true → (s.nodes side).pending = true)
    (asking : side = .low → node.Asking → (s.nodes side).Asking)
    (approving : node.approving.Sublist (s.nodes side).approving)
    (saved : (s.nodes side).saved ≠ [] → node.saved ≠ []) :
    Settled (h ++ [e]) ⟨Function.update s.nodes side node, requests, s.replies, fresh⟩ := by
  refine settled.kept unasked unminted (fun some => settled.requests (sent ▸ some)) ?_ ?_ ?_ ?_
  · cases side with
    | low => exact settled.pending
    | high => exact fun held => settled.pending (pending held)
  · cases side with
    | low => exact fun asks => settled.asking (asking rfl asks)
    | high => exact settled.asking
  · intro other
    rcases eq_or_ne other side with rfl | ne
    · simpa using approving
    · simp [ne]
  · intro other
    rcases eq_or_ne other side with rfl | ne
    · simpa using saved
    · simp [ne]

theorem Settled.step (orderly : Orderly h s act) (step : connectStep s act = some (out, s')) :
    Settled (h ++ [⟨s, act, out, s'⟩]) s' := by
  cases act with
  | node side act =>
    have step := (Option.ite_none_right_eq_some.1 step).2
    obtain ⟨⟨out', node⟩, ran, same⟩ := Option.map_eq_some_iff.mp step
    obtain ⟨rfl, rfl⟩ := Prod.mk.inj same
    cases nodeStepped ran with
    | quiet pending asking approving saved =>
      exact settled.node (fun _ => nofun) nofun rfl pending (fun _ => asking) approving saved
    | asks origin pending approving saved =>
      cases side with
      | low => exact settled.asks rfl rfl origin orderly approving
      | high =>
        refine settled.node (fun low => (nomatch low)) nofun rfl ?_ nofun ?_ ?_
        · exact fun held => pending ▸ held
        · exact approving ▸ List.Sublist.refl _
        · exact fun some => saved ▸ some
    | approves pending unlinked first =>
      exact settled.approves rfl orderly pending unlinked first
    | mints waiting => exact settled.mints rfl rfl waiting
  | handle side admitted =>
    simp only [connectStep] at step
    obtain ⟨some, step⟩ := Option.ite_none_left_eq_some.1 step
    cases replied : (s.nodes side.other).connectReply admitted with
    | mk msg node =>
    rw [replied] at step
    cases step
    have approving : node.approving = (s.nodes side.other).approving := by
      rcases connectReply_kept replied with rfl | rfl <;> rfl
    have asking : node.Asking → (s.nodes side.other).Asking := by
      rcases connectReply_kept replied with rfl | rfl <;> exact id
    have saved : node.saved = (s.nodes side.other).saved := by
      rcases connectReply_kept replied with rfl | rfl <;> rfl
    refine settled.kept (fun low => (nomatch low)) nofun ?_ ?_ ?_ ?_ ?_
    · cases side with
      | low => exact fun _ => settled.requests some
      | high => exact settled.requests
    · cases side with
      | low => exact fun _ => settled.requests some
      | high => exact settled.pending
    · cases side with
      | low => exact settled.asking
      | high => exact fun asks => settled.asking (asking asks)
    · intro other
      rcases eq_or_ne other side.other with rfl | ne
      · simp [approving]
      · simp [ne]
    · intro other
      rcases eq_or_ne other side.other with rfl | ne
      · simp [saved]
      · simp [ne]

end Runs

/-! ## Every run -/

def ConnectNode.fresh : ConnectNode := ⟨false, none, false, false, 0, .off, [], [], [], [], []⟩

/-- Two daemons that have nothing to do with each other yet. -/
def unconnected : Peers := ⟨fun _ => .fresh, fun _ => 0, fun _ => [], 0⟩

theorem settled_run (run : ConnectRuns unconnected h s)
    (orderly : Throughout (fun pre e => Orderly pre e.before e.act) h) : Settled h s := by
  induction run with
  | nil =>
    have unminted : ∀ side, ¬MintedBy side [] :=
      fun _ ⟨_, member, _⟩ => absurd member List.not_mem_nil
    refine ⟨fun some => absurd rfl some, nofun, ?_, nofun, fun mints => absurd mints (unminted _),
      fun some => absurd rfl some, fun mints => absurd mints (unminted _), fun _ => Nat.zero_le 1,
      fun side mints => absurd mints (unminted side)⟩
    rintro (retrying | calling)
    · exact absurd rfl retrying
    · exact absurd rfl calling
  | @snoc h s s' act out run step ih =>
    exact (ih orderly.front).step (orderly h ⟨s, act, out, s'⟩ [] rfl) step

/-- Both peers connect and approve, messages are lost or late, and daemons restart. As long as
the calls of a daemon do not overlap, the networks it has saved are known when it is asked, and
the lower peer approves only while it remembers a request it has sent, the peers mint at most
one network. -/
theorem minted_once {h : ConnectHistory} {s : Peers} (run : ConnectRuns unconnected h s)
    (orderly : Throughout (fun pre e => Orderly pre e.before e.act) h)
    {pre post : ConnectHistory} {e : Entry Peers ConnectAct ConnectOut} {key : Nat}
    (split : h = pre ++ e :: post) (minted : e.out = .minted key) :
    ∀ later ∈ post, ∀ other, later.out ≠ .minted other := by
  intro later member other again
  obtain ⟨between, rest, rfl⟩ := List.append_of_mem member
  have parted : h = (pre ++ e :: between) ++ later :: rest := by
    rw [split, List.append_assoc, List.cons_append]
  obtain ⟨before, step, -⟩ := run.split parted
  have settled := settled_run before (Throughout.front (parted ▸ orderly))
  obtain ⟨side, task, -, waiting⟩ := mint_waiting step again
  obtain ⟨minter, task, act, -⟩ := mint_waiting (run.split split).2.1 minted
  exact settled.first_mint waiting minter
    ⟨e, List.mem_append_right _ List.mem_cons_self, congrArg ConnectAct.taker act, key, minted⟩

/-- The peers ask each other, and both approve. -/
def bothApprove : List ConnectAct :=
  [.node .low .connect, .handle .low true, .node .low (.answer .pending), .node .high .connect,
    .handle .high true, .node .high (.answer .pending), .node .low .approve, .node .high .approve,
    .node .high (.mint 0), .node .high (.install 0), .node .low .retryAsk, .handle .low true,
    .node .low (.retryAnswer (.approved 6)), .node .low (.retryJoin (.joined true)),
    .node .low (.flag 6), .node .high .connect]

theorem bothApprove_minted_once :
    (∃ e ∈ (executed connectStep unconnected bothApprove).1, e.out = .minted 6) ∧
    ∀ pre e post, (executed connectStep unconnected bothApprove).1 = pre ++ e :: post →
      e.out = .minted 6 → ∀ later ∈ post, ∀ other, later.out ≠ .minted other := by
  refine ⟨by decide +kernel, fun pre e post split minted => ?_⟩
  exact minted_once (run_executed bothApprove (by decide +kernel)) (by decide +kernel) split minted

/-- The reply to the lower peer's request is lost, so it forgets that it asked. -/
def replyLost : List ConnectAct :=
  [.node .low .connect, .handle .low true, .node .low .lost, .node .high .connect,
    .handle .high true, .node .high (.answer .pending), .node .low .approve, .node .low (.mint 0),
    .node .low (.install 0), .node .high .approve, .node .high (.mint 0), .node .high (.install 0)]

/-- Both peers asked and both approved, one after the other, and each has minted a network. -/
theorem two_networks_minted :
    ∃ h s, ConnectRuns unconnected h s ∧
      (∃ e ∈ h, e.act = .node .low (.mint 0) ∧ e.out = .minted 5) ∧
      (∃ e ∈ h, e.act = .node .high (.mint 0) ∧ e.out = .minted 8) :=
  ⟨_, _, run_executed replyLost (by decide +kernel), by decide +kernel, by decide +kernel⟩

end Rayfish.Connect
