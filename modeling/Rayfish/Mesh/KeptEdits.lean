import Rayfish.Mesh.Machine

/-!
# Local edits next to applied records

An edit is written under the state's write lock and committed later, under
`snapshot_commit`. An apply run that reads the live group in between takes it for a
settled generation: nothing stops it from adopting a record without the edit, which
is then gone although the command reports success (`suggestion_lost`).

`edits_kept_iff`: a run keeps every edit until it is published exactly when each
adoption either finds the live group saved, or brings the open edits along.
-/

namespace Rayfish

open Lib

variable {Hash : Type} [DecidableEq Hash] {codec : GroupCodec Hash} {me : EndpointId}
  {s₀ s s' : Mesh Hash} {a : MeshAct Hash} {out : MeshOut Hash} {h : List (MeshEntry Hash)}

/-! ## What it is to keep an edit -/

variable (codec)

/-- The group of the saved pointer, if it is marked published. -/
def Node.publishedGroup (n : Node Hash) : Option GroupBlob :=
  n.config.bind fun cfg =>
    if cfg.lastGroupHashPublished then cfg.lastGroupHash.bind codec.named else none

/-- A record that contains the edit is known to be published. -/
def PublishedWith (n : Node Hash) (edit : RosterEdit) : Prop :=
  ∃ group ∈ n.publishedGroup codec, edit.Contained group

instance (n : Node Hash) (edit : RosterEdit) : Decidable (PublishedWith codec n edit) :=
  inferInstanceAs (Decidable (∃ group ∈ n.publishedGroup codec, edit.Contained group))

def MeshOut.isEdit : MeshOut Hash → Bool
  | .edited _ => true
  | _ => false

/-- The edit has been written, no record with it has been published before the last
step, and no later edit has undone it. -/
def Open (h : List (MeshEntry Hash)) (edit : RosterEdit) : Prop :=
  ∃ pre e post, h = pre ++ e :: post ∧ e.out = .edited edit ∧
    ∀ x ∈ post, ¬PublishedWith codec x.before.node edit ∧
      (x.out.isEdit = true → edit.Contained x.after.node.net.group)

/-- The live group contains every open edit. -/
def Kept (h : List (MeshEntry Hash)) (s : Mesh Hash) : Prop :=
  ∀ edit, Open codec h edit → edit.Contained s.node.net.group

/-- A run that loses no edit: the live group contains every open one after each
step, and the snapshot a command commits contains its own. -/
structure KeepsEdits (h : List (MeshEntry Hash)) : Prop where
  live : ∀ pre x post, h = pre ++ x :: post → Kept codec (pre ++ [x]) x.after
  committed : ∀ pre x post edit, h = pre ++ x :: post → x.out = .committed edit true →
    Open codec pre edit → ∃ cfg hash group, x.after.node.config = some cfg ∧
      cfg.lastGroupHash = some hash ∧ codec.named hash = some group ∧ edit.Contained group

/-- No edit waits for its snapshot commit: the live group is the one that the saved
pointer and the converged hash name. -/
def Node.Saved (disk : Disk) (n : Node Hash) : Prop :=
  ∃ cfg hash, n.loadNetwork disk = some cfg ∧ cfg.lastGroupHash = some hash ∧
    n.net.convergedHash = some hash ∧ codec.named hash = some n.net.group

/-- When the blob of an apply run passes every check, the live group is saved, or the
blob contains every open edit. -/
def AdoptsSafely (me : EndpointId) (h : List (MeshEntry Hash)) (e : MeshEntry Hash) : Prop :=
  ∀ task disk served t generation data, e.act = .advance task disk served →
    e.before.applies task = some t → t.phase = .commit generation data →
    t.Passes codec me disk generation data e.before.node →
    e.before.node.Saved codec disk ∨
      ∀ edit, Open codec h edit → ¬PublishedWith codec e.before.node edit → edit.Contained data

/-- The saved pointer, the converged hash and the live group. -/
def Node.standing (n : Node Hash) : Option Hash × Option Hash × GroupBlob :=
  (n.config.bind (·.lastGroupHash), n.net.convergedHash, n.net.group)

/-- Whenever an apply run comes to its commit, nothing has been edited so far; or the config
can be read and all is as a command left it that has committed its edit. -/
def AdoptsInTurn (h : List (MeshEntry Hash)) (e : MeshEntry Hash) : Prop :=
  ∀ task disk served t generation data, e.act = .advance task disk served →
    e.before.applies task = some t → t.phase = .commit generation data →
    (∀ x ∈ h, x.out.isEdit = false) ∨ disk.configReads = true ∧ ∃ pre c mid edit,
      h = pre ++ c :: mid ∧ c.out = .committed edit true ∧
      ∀ m ∈ mid, m.after.node.standing = m.before.node.standing

variable {codec} {edit : RosterEdit} {n n' : Node Hash}

omit [DecidableEq Hash] in
theorem open_snoc :
    Open codec (h ++ [e]) edit ↔ e.out = .edited edit ∨
      (Open codec h edit ∧ ¬PublishedWith codec e.before.node edit ∧
        (e.out.isEdit = true → edit.Contained e.after.node.net.group)) :=
  since_snoc

/-! ## What a step does to the group -/

variable {disk : Disk} {t : ApplyTask Hash}

/-- A section keeps the key, and the group unless it adopts a blob. -/
theorem advance_keeps (outcome : AdvanceOutcome codec me disk t n (progress, n')) :
    n'.net.hasKey = n.net.hasKey ∧
      (progress ≠ .done .applied false → n'.net.group = n.net.group) := by
  have same : ∀ {n' : Node Hash}, n.Bookkept n' → n'.net.hasKey = n.net.hasKey ∧
      (progress ≠ .done .applied false → n'.net.group = n.net.group) :=
    fun kept => ⟨kept.net.hasKey, fun _ => kept.net.group⟩
  cases outcome with
  | stopped _ kept | resumed _ _ kept | saved _ _ _ kept | fetched _ kept => exact same kept
  | observed _ group hasKey _ _ => exact ⟨hasKey, fun _ => group⟩
  | unpaired _ | cleared _ _ | left _ _ => exact same (.refl n)
  | adopts _ _ kept => exact ⟨kept.net.hasKey, fun other => absurd rfl other⟩

/-- A step keeps the key, and the group unless it edits it or adopts a blob. -/
theorem step_keeps (step : meshStep codec me s a out s') :
    s'.node.net.hasKey = s.node.net.hasKey ∧ (out.isEdit = false →
      (∀ t, out ≠ .advanced t (.done .applied false)) →
      s'.node.net.group = s.node.net.group) := by
  cases meshStep_cases step with
  | received same _ _ =>
    rw [same]
    exact ⟨rfl, fun _ _ => rfl⟩
  | @advanced _ t _ progress _ _ _ outcome =>
    obtain ⟨hasKey, group⟩ := advance_keeps outcome
    exact ⟨hasKey, fun _ other => group fun same => other t (by rw [same])⟩
  | @edited group edit _ _ _ _ same =>
    refine ⟨?_, fun other _ => by cases other⟩
    rw [same, Node.writeEdit]
    split <;> rfl
  | @committed disk _ _ _ _ ran =>
    have kept := s.node.commitCurrentSnapshot_committed codec disk
    rw [ran] at kept
    exact ⟨kept.hasKey, fun _ _ => kept.group⟩
  | signed kept _ => exact ⟨kept.net.hasKey, fun _ _ => kept.net.group⟩
  | @confirmed disk _ packet _ same =>
    have kept := Node.Bookkept.markGroupHashPublished disk packet.hash packet.timestamp
      { s.node with net := s.node.net.raiseRecordFloor packet.timestamp }
    rw [same]
    exact ⟨kept.net.hasKey, fun _ _ => kept.net.group⟩

/-- Only a key holder edits, and it stays one. -/
theorem run_hasKey (run : Run (meshStep codec me) s₀ h s) (opened : Open codec h edit) :
    s.node.net.hasKey = true := by
  induction run with
  | nil =>
    obtain ⟨pre, e, post, heq, _⟩ := opened
    simp at heq
  | snoc _ step ih =>
    rw [(step_keeps step).1]
    rcases open_snoc.mp opened with rfl | ⟨older, _⟩
    · cases meshStep_cases step with
      | edited hasKey _ _ _ => exact hasKey
    · exact ih older

/-- The blob an apply run holds is the one its record names. -/
def ApplyTask.Fetched (codec : GroupCodec Hash) (t : ApplyTask Hash) : Prop :=
  ∀ data, t.phase.data = some data → codec.named t.record.hash = some data

theorem advance_fetched (outcome : AdvanceOutcome codec me disk t n (.next phase, n'))
    (fetched : t.Fetched codec) :
    ({ t with phase := phase } : ApplyTask Hash).Fetched codec := by
  intro data holds
  cases outcome with
  | resumed noData _ _ | saved _ noData _ _ => cases noData.symm.trans holds
  | observed _ _ _ _ _ => cases holds
  | fetched named _ =>
    cases holds
    exact named
  | cleared phase _ =>
    cases holds
    exact fetched _ (by rw [phase]; rfl)

theorem run_fetched (idle : ∀ task, s₀.applies task = none) (run : Run (meshStep codec me) s₀ h s) :
    ∀ task t, s.applies task = some t → t.Fetched codec := by
  refine run_applies (P := fun _ t => t.Fetched codec) idle (fun s t phase data holds => ?_)
    (fun _ fetched => fetched) (fun outcome fetched => advance_fetched outcome fetched) run
  rw [phase] at holds
  cases holds

/-! ## Adopting a blob -/

/-- With the live group saved, an open edit survives an adoption: the pointer is not
published yet, so only its own record passes. -/
theorem adoption_contained (named : codec.named t.record.hash = some data)
    (authored : ∀ pending ∈ n.pendingAuthoredGroupHash disk, pending = t.record.hash)
    (adopts : (adopted codec n t.record data).Bookkept n') (hasKey : n.net.hasKey = true)
    (saved : n.Saved codec disk) (unpublished : ¬PublishedWith codec n edit)
    (contained : edit.Contained n.net.group) : edit.Contained n'.net.group := by
  obtain ⟨cfg, hash, loaded, pointer, converged, group⟩ := saved
  have config : n.config = some cfg := by
    have loaded := (Option.ite_none_right_eq_some.1 loaded).2
    exact loaded
  have unmarked : cfg.lastGroupHashPublished = false := by
    by_contra marked
    refine unpublished ⟨n.net.group, ?_, contained⟩
    simp [Node.publishedGroup, config, marked, pointer, group]
  have pending : n.pendingAuthoredGroupHash disk = some hash := by
    simp [Node.pendingAuthoredGroupHash, hasKey, converged, loaded, pointer, unmarked]
  have same : n.net.group = data := by
    rw [authored hash pending, named] at group
    exact (Option.some.inj group).symm
  rw [adopts.net.group]
  exact same ▸ contained

/-- One step keeps the open edits. -/
theorem step_kept (idle : ∀ task, s₀.applies task = none)
    (run : Run (meshStep codec me) s₀ h s) (step : meshStep codec me s a out s')
    (kept : Kept codec h s) (safe : AdoptsSafely codec me h ⟨s, a, out, s'⟩) :
    Kept codec (h ++ [⟨s, a, out, s'⟩]) s' := by
  intro edit opened
  rcases open_snoc.mp opened with written | ⟨older, unpublished, survives⟩
  · obtain rfl : out = .edited edit := written
    cases meshStep_cases step with
    | edited _ applied same _ =>
      rw [same, Node.writeEdit_group]
      exact RosterEdit.apply_contained applied
  · by_cases edits : out.isEdit = true
    · exact survives edits
    · by_cases adopts : ∃ t, out = .advanced t (.done .applied false)
      · obtain ⟨t, rfl⟩ := adopts
        cases meshStep_cases step with
        | @advanced task _ disk _ served _ running outcome =>
          cases outcome with
          | stopped notApplied _ => exact absurd rfl notApplied
          | adopts phase passes adopted =>
            rcases safe task disk served t _ _ rfl running phase passes with saved | brings
            · have named := run_fetched idle run task t running _ (by rw [phase]; rfl)
              exact adoption_contained named passes.authored adopted (run_hasKey run older) saved
                unpublished (kept edit older)
            · rw [adopted.net.group]
              exact brings edit older unpublished
      · push Not at adopts
        rw [(step_keeps step).2 (by simpa using edits) adopts]
        exact kept edit older

/-- A blob that passes every check is what the step leaves. -/
theorem step_passes (step : meshStep codec me s (.advance task disk served) out s')
    (running : s.applies task = some t) (phase : t.phase = .commit generation data)
    (passes : t.Passes codec me disk generation data s.node) :
    out = .advanced t (.done .applied false) ∧ s'.node.net.group = data := by
  obtain ⟨node, committed, group⟩ := commitGroupBlob_passes passes
  have advanced : t.advance codec me disk served s.node = (.done .applied false, node) := by
    rw [ApplyTask.advance, phase]
    exact committed
  simp only [meshStep, MeshAct.run, running, Option.map_some, advanced] at step
  cases step
  exact ⟨rfl, group⟩

theorem AdoptsInTurn.adoptsSafely (turn : AdoptsInTurn h e)
    (run : Run (meshStep codec me) s₀ h e.before) : AdoptsSafely codec me h e := by
  intro task disk served t generation data act running phase _
  rcases turn task disk served t generation data act running phase with
    none | ⟨reads, pre, ⟨s, a, _, s'⟩, mid, edit, rfl, ⟨⟩, still⟩
  · refine .inr fun edit ⟨pre, x, post, heq, written, _⟩ => ?_
    have other := none x (by simp [heq])
    rw [written] at other
    cases other
  · obtain ⟨-, step, rest⟩ := run.split rfl
    have same : e.before.node.standing = s'.node.standing :=
      rest.invariant still rfl fun _ _ _ same before => same.trans before
    have kept : s'.node.net.group = s.node.net.group := (step_keeps step).2 rfl nofun
    cases meshStep_cases step with
    | committed ran _ =>
      dsimp only at ran
      obtain ⟨⟨cfg, config, pointer⟩, converged⟩ := Node.commitCurrentSnapshot_saved ran
      simp only [Node.standing, config, Option.bind_some, pointer, converged, kept,
        Prod.mk.injEq] at same
      obtain ⟨saved, converged, group⟩ := same
      obtain ⟨cfg, config, pointer⟩ := Option.bind_eq_some_iff.mp saved
      refine .inl ⟨cfg, _, ?_, pointer, converged, group ▸ codec.named_hash _⟩
      rw [Node.loadNetwork, if_pos reads, config]

/-- A run keeps its edits exactly when each adoption finds the live group saved or
brings the open edits along. It does if apply runs commit in turn. -/
theorem edits_kept_iff (idle : ∀ task, s₀.applies task = none)
    (run : Run (meshStep codec me) s₀ h s) :
    (KeepsEdits codec h ↔ ∀ pre x post, h = pre ++ x :: post → AdoptsSafely codec me pre x) ∧
      ((∀ pre x post, h = pre ++ x :: post → AdoptsInTurn pre x) → KeepsEdits codec h) := by
  suffices exactly : KeepsEdits codec h ↔
      ∀ pre x post, h = pre ++ x :: post → AdoptsSafely codec me pre x from
    ⟨exactly, fun turns => exactly.mpr fun pre x post heq =>
      (turns pre x post heq).adoptsSafely (run.split heq).1⟩
  constructor
  · intro keeps pre x post heq task disk served t generation data act running phase passes
    obtain ⟨-, step, -⟩ := run.split heq
    rw [act] at step
    obtain ⟨answered, adopted⟩ := step_passes step running phase passes
    refine .inr fun edit opened unpublished => adopted ▸ keeps.live pre x post heq edit ?_
    refine open_snoc.mpr (.inr ⟨opened, unpublished, fun edits => ?_⟩)
    rw [answered] at edits
    cases edits
  · intro safe
    suffices Kept codec h s ∧ KeepsEdits codec h from this.2
    induction run with
    | nil =>
      refine ⟨?_, fun pre x post heq => ?_, fun pre x post edit heq => ?_⟩
      · rintro edit ⟨pre, e, post, heq, _⟩
        simp at heq
      · simp at heq
      · simp at heq
    | @snoc h s s' a out run step ih =>
      obtain ⟨kept, keeps⟩ := ih fun pre x post heq => safe pre x (post ++ [⟨s, a, out, s'⟩])
        (by simp [heq])
      have now := step_kept idle run step kept (safe h _ [] rfl)
      refine ⟨now, fun pre x post heq => ?_, fun pre x post edit heq hout opened => ?_⟩
      · rcases snoc_cases heq with ⟨rfl, rfl, rfl⟩ | ⟨post, rfl, rfl⟩
        · exact now
        · exact keeps.live pre x post rfl
      · rcases snoc_cases heq with ⟨rfl, rfl, rfl⟩ | ⟨post, rfl, rfl⟩
        · obtain rfl : out = .committed edit true := hout
          cases meshStep_cases step with
          | committed ran _ =>
            obtain ⟨⟨cfg, config, pointer⟩, -⟩ := Node.commitCurrentSnapshot_saved ran
            exact ⟨cfg, _, _, config, pointer, codec.named_hash _, kept edit opened⟩
        · exact keeps.committed pre x post edit rfl hout opened

/-! ## A suggestion, and a record without it -/

def MeshOut.isAdoption : MeshOut Hash → Bool
  | .advanced _ (.done .applied false) => true
  | _ => false

/-- A run that adopts nothing adopts safely. -/
theorem adoptsSafely_of_quiet (run : Run (meshStep codec me) s₀ h s)
    (quiet : ∀ e ∈ h, e.out.isAdoption = false)
    (pre : List (MeshEntry Hash)) (x : MeshEntry Hash) (post : List (MeshEntry Hash))
    (heq : h = pre ++ x :: post) : AdoptsSafely codec me pre x := by
  intro task disk served t generation data act running phase passes
  obtain ⟨-, step, -⟩ := run.split heq
  rw [act] at step
  have none := quiet x (by simp [heq])
  rw [(step_passes step running phase passes).1] at none
  cases none

def someSuggestion : RosterEdit := .suggestFirewall (Finmap.insert ['*'] ⟨∅, ∅⟩ ∅)

/-- A command writes its suggestion, an apply run goes from start to end, and then
the command commits. -/
def lostActs : List (MeshAct GroupBlob) :=
  .write 0 someSuggestion :: .receive 1 ⟨pairGroup, 20⟩ .relay none ::
    List.replicate 7 (.advance 1 healthyDisk true) ++ [.commit 0 healthyDisk]

/-- The suggestion is gone from the live group, nothing with it was ever published,
and the command has just reported success. -/
theorem suggestion_lost :
    ∃ h s, Run (meshStep plainCodec 1) (convergedMesh (some 10)) h s ∧
      Open plainCodec h someSuggestion ∧ ¬someSuggestion.Contained s.node.net.group ∧
      h.getLast?.map Entry.out = some (.committed someSuggestion true) := by
  have run := run_execute (f := fun s a => MeshAct.run plainCodec 1 s a)
    (s := convergedMesh (some 10)) lostActs rfl
  refine ⟨_, _, run, ⟨[], _, _, rfl, rfl, ?_⟩, by decide, rfl⟩
  decide

/-- The command commits first; the record then waits for the publication. -/
def keptActs : List (MeshAct GroupBlob) :=
  .write 0 someSuggestion :: .commit 0 healthyDisk :: .receive 1 ⟨pairGroup, 20⟩ .relay none ::
    List.replicate 2 (.advance 1 healthyDisk true)

theorem edits_kept_iff_committed :
    ∃ h s, Run (meshStep plainCodec 1) (convergedMesh (some 10)) h s ∧
      KeepsEdits plainCodec h ∧ h.getLast?.map Entry.out =
        some (.advanced ⟨⟨pairGroup, 20⟩, .relay, none, .checkAuthored⟩
          (.done .superseded false)) := by
  have run := run_execute (f := fun s a => MeshAct.run plainCodec 1 s a)
    (s := convergedMesh (some 10)) keptActs rfl
  refine ⟨_, _, run, ?_, rfl⟩
  exact (edits_kept_iff (fun _ => rfl) run).1.mpr (adoptsSafely_of_quiet run (by decide))

end Rayfish
