import Rayfish.Config.Rename

/-!
# A rename left unfinished

When the renamed rules cannot be saved, or the intent cannot be removed, the daemon keeps
running with the intent standing, and its next start finishes the rename. The intent holds
only the two names. The networks that are left, created and joined until then decide which
network, ledger and rules those names stand for.
-/

namespace Rayfish

open Lib

variable {Rest Ledger : Type}

/-! ## What the daemon does meanwhile -/

inductive NameOwner where
  | free
  | network (key : EndpointId)
  | unknown

/-- What holds a local name. -/
def ConfigTree.nameOwner (tree : ConfigTree Rest Ledger) (name : Name) :
    Except ConfigError NameOwner := do
  match ← tree.loadNetwork name with
  | none => return .free
  | some net => return net.key.elim .unknown .network

inductive NetworkAct (Rest Ledger : Type) where
  | leave (name : Name)
  | destroy (name : Name)
  | create (net : NetworkFile Rest)
  /-- The name is one that the network holds already, or a free one. -/
  | join (net : NetworkFile Rest)
  /-- Invites minted by a network under the name it has. -/
  | saveInvites (name : Name) (ledger : Ledger)

section Acts

variable (owner : Ledger → EndpointId) (tree : ConfigTree Rest Ledger)

/-- The files an act leaves, unless it is refused. `owner` tells whose invites a ledger
holds. -/
def ConfigTree.perform : NetworkAct Rest Ledger → Except ConfigError (ConfigTree Rest Ledger)
  | .leave name => tree.deleteNetwork name
  | .destroy name => do
    match ← tree.loadNetwork name with
    | none => return tree
    | some net =>
      match net.key with
      | none => .error .networkWithoutKey
      | some key =>
        let proved : ConfigTree Rest Ledger := { tree with destroyed := insert key tree.destroyed }
        proved.deleteNetwork name
  | .create net => do
    if isValidHostname net.name = false then .error (.invalidName net.name)
    else
      match ← tree.nameOwner net.name with
      | .free => tree.saveNetwork net
      | _ => .error (.nameTaken net.name)
  | .join net => do
    match ← tree.nameOwner net.name with
    | .free => tree.saveNetwork net
    | .network key =>
      if net.key = some key then tree.saveNetwork net else .error (.nameTaken net.name)
    | .unknown => .error (.nameTaken net.name)
  | .saveInvites name ledger => do
    match ← tree.nameOwner name with
    | .network key =>
      if owner ledger = key then
        return { tree with invites := Finmap.insert name ledger tree.invites }
      else .error .networkWithoutKey
    | _ => .error .networkWithoutKey

/-- The files after an act that may be refused. -/
def ConfigTree.performed (act : NetworkAct Rest Ledger) : ConfigTree Rest Ledger :=
  match tree.perform owner act with
  | .ok after => after
  | .error _ => tree

/-- What acts can do to the files: a network or a ledger less, or one more. -/
inductive Performed : NetworkAct Rest Ledger → ConfigTree Rest Ledger → Prop where
  | refused : Performed act tree
  | deleted (name : Name) (proofs : Finset EndpointId) :
      Performed act { tree with
        networks := Finmap.erase name tree.networks
        destroyed := proofs }
  | created (net : NetworkFile Rest) :
      Performed (.create net) { tree with networks := Finmap.insert net.name net tree.networks }
  | joined (net : NetworkFile Rest) :
      Performed (.join net) { tree with networks := Finmap.insert net.name net tree.networks }
  | minted (holder : tree.networks.lookup name = some net) (own : net.key = some (owner ledger)) :
      Performed (.saveInvites name ledger)
        { tree with invites := Finmap.insert name ledger tree.invites }

theorem ConfigTree.nameOwner_network (held : tree.nameOwner name = .ok (.network key)) :
    ∃ net, tree.networks.lookup name = some net ∧ net.key = some key := by
  obtain ⟨found, loaded, held⟩ := bind_ok_iff.mp held
  obtain ⟨-, rfl⟩ := tree.loadNetwork_ok.mp loaded
  cases saved : tree.networks.lookup name with
  | none =>
    rw [saved] at held
    cases held
  | some net =>
    refine ⟨net, rfl, ?_⟩
    rw [saved] at held
    have kept : net.key.elim NameOwner.unknown NameOwner.network = .network key :=
      Except.ok.inj held
    cases known : net.key with
    | none =>
      rw [known] at kept
      cases kept
    | some other =>
      rw [known] at kept
      exact congrArg some (NameOwner.network.inj kept)

theorem performed_perform (ok : tree.perform owner act = .ok after) :
    Performed owner tree act after := by
  cases act with
  | leave name =>
    obtain ⟨-, rfl⟩ := tree.deleteNetwork_ok.mp ok
    exact .deleted name tree.destroyed
  | destroy name =>
    obtain ⟨found, -, ok⟩ := bind_ok_iff.mp ok
    cases found with
    | none =>
      cases ok
      exact .refused
    | some net =>
      cases keyed : net.key with
      | none =>
        simp only [keyed] at ok
        cases ok
      | some key =>
        simp only [keyed] at ok
        obtain ⟨-, rfl⟩ := (ConfigTree.deleteNetwork_ok _).mp ok
        exact .deleted name _
  | create net =>
    obtain ⟨-, ok⟩ := refuse_ok_iff.mp ok
    obtain ⟨held, -, ok⟩ := bind_ok_iff.mp ok
    cases held with
    | free =>
      obtain ⟨-, -, rfl⟩ := tree.saveNetwork_ok.mp ok
      exact .created net
    | network key | unknown => cases ok
  | join net =>
    obtain ⟨held, -, ok⟩ := bind_ok_iff.mp ok
    cases held with
    | free =>
      obtain ⟨-, -, rfl⟩ := tree.saveNetwork_ok.mp ok
      exact .joined net
    | network key =>
      obtain ⟨-, ok⟩ := ensure_ok_iff.mp ok
      obtain ⟨-, -, rfl⟩ := tree.saveNetwork_ok.mp ok
      exact .joined net
    | unknown => cases ok
  | saveInvites name ledger =>
    obtain ⟨held, named, ok⟩ := bind_ok_iff.mp ok
    cases held with
    | free | unknown => cases ok
    | network key =>
      obtain ⟨minter, saved⟩ := ensure_ok_iff.mp ok
      obtain ⟨net, holder, own⟩ := tree.nameOwner_network named
      cases saved
      exact .minted holder (own.trans (congrArg some minter.symm))

theorem performed_performed (act : NetworkAct Rest Ledger) :
    Performed owner tree act (tree.performed owner act) := by
  unfold ConfigTree.performed
  cases ok : tree.perform owner act with
  | ok after => exact performed_perform owner tree ok
  | error e => exact .refused

/-- Only a rename saves an intent, and it is refused while another stands. -/
theorem Performed.intent (performed : Performed owner tree act after) :
    after.intent = tree.intent := by
  cases performed <;> rfl

/-- The network an act saves. -/
def NetworkAct.saved : NetworkAct Rest Ledger → Option (NetworkFile Rest)
  | .create net | .join net => some net
  | _ => none

end Acts

/-! ## An unfinished rename -/

/-- The network's file has its new name, and the intent stands. -/
structure Unfinished (intent : RenameIntent) (key : EndpointId)
    (tree : ConfigTree Rest Ledger) : Prop where
  pending : tree.intent = some intent
  moved : tree.networks.lookup intent.source = none
  saved : ∃ net, tree.networks.lookup intent.target = some net ∧ net.key = some key ∧
    net.name = intent.target
  ledger : tree.invites.lookup intent.source = none

/-- A rename whose rules could not be saved, or whose intent could not be removed. -/
theorem Renamable.unfinished (renamable : Renamable before source target net)
    (keyed : net.key = some key) (stopped : n = 4 ∨ n = 5) :
    Unfinished ⟨source, target⟩ key (renamePoint before ⟨source, target⟩ net n) := by
  have lower : 4 ≤ n := by omega
  have upper : n ≤ 5 := by omega
  refine ⟨?_, lookup_source_renamePoint renamable (by omega), ?_, ?_⟩
  · rw [intent_renamePoint (by omega), if_pos upper]
  · refine ⟨_, lookup_target_renamePoint (by omega), ?_, ?_⟩
    · rw [if_neg (Nat.not_lt.mpr lower)]
      exact keyed
    · rw [if_neg (Nat.not_lt.mpr lower)]
  · have moved : (renamePoint before ⟨source, target⟩ net n).invites =
        movedLedgers ⟨source, target⟩ before.invites := if_neg (by omega)
    rw [moved]
    exact lookup_source_movedLedgers renamable.distinct before.invites

/-- While the intent stands, its names stand for the network that is renamed. -/
structure Standing (owner : Ledger → EndpointId) (intent : RenameIntent) (key : EndpointId)
    (tree : ConfigTree Rest Ledger) : Prop where
  holders : ∀ name, name = intent.source ∨ name = intent.target → ∀ net,
    tree.networks.lookup name = some net → net.key = some key
  ledger : ∀ ledger, tree.invites.lookup intent.source = some ledger → owner ledger = key

section Standing

variable {owner : Ledger → EndpointId} {intent : RenameIntent} {key : EndpointId}
  {tree after : ConfigTree Rest Ledger}

theorem Unfinished.standing (unfinished : Unfinished intent key tree) :
    Standing owner intent key tree where
  holders := by
    rintro name (rfl | rfl) net found
    · cases unfinished.moved.symm.trans found
    · obtain ⟨saved, there, keyed, -⟩ := unfinished.saved
      cases there.symm.trans found
      exact keyed
  ledger := fun ledger found => nomatch unfinished.ledger.symm.trans found

theorem Standing.insert (standing : Standing owner intent key tree)
    (own : net.name = intent.source ∨ net.name = intent.target → net.key = some key) :
    Standing owner intent key
      { tree with networks := Finmap.insert net.name net tree.networks } where
  holders := by
    intro name named found saved
    by_cases same : name = net.name
    · subst same
      cases (Finmap.lookup_insert _).symm.trans saved
      exact own named
    · exact standing.holders name named found ((Finmap.lookup_insert_of_ne _ same).symm.trans saved)
  ledger := standing.ledger

theorem Standing.performed (standing : Standing owner intent key tree)
    (own : ∀ net ∈ act.saved, net.name = intent.source ∨ net.name = intent.target →
      net.key = some key)
    (performed : Performed owner tree act after) : Standing owner intent key after := by
  cases performed with
  | refused => exact standing
  | deleted name proofs =>
    refine ⟨fun other named net found => ?_, standing.ledger⟩
    by_cases same : other = name
    · subst same
      cases (Finmap.lookup_erase _ _).symm.trans found
    · exact standing.holders other named net ((Finmap.lookup_erase_ne same).symm.trans found)
  | created net | joined net => exact standing.insert (own net rfl)
  | @minted name net ledger holder minted =>
    refine ⟨standing.holders, fun found saved => ?_⟩
    by_cases same : intent.source = name
    · subst same
      cases (Finmap.lookup_insert _).symm.trans saved
      have keyed := standing.holders _ (.inl rfl) net holder
      exact Option.some.inj (minted.symm.trans keyed)
    · exact standing.ledger found ((Finmap.lookup_insert_of_ne _ same).symm.trans saved)

end Standing

/-! ## What a recovery may touch -/

/-- Every network but `key`, its ledger and its rules are as before. A ledger that moves can
replace one left under the new name. -/
structure LeavesOthers (owner : Ledger → EndpointId) (key : EndpointId) (intent : RenameIntent)
    (tree after : ConfigTree Rest Ledger) : Prop where
  files : ∀ name net, net.key ≠ some key →
    (after.networks.lookup name = some net ↔ tree.networks.lookup name = some net)
  ledgers : ∀ name ledger, owner ledger ≠ key → tree.invites.lookup name = some ledger →
    after.invites.lookup name = some ledger ∨
      name = intent.target ∧ ∃ own, after.invites.lookup name = some own ∧ owner own = key
  unmoved : ∀ name ledger, owner ledger ≠ key → after.invites.lookup name = some ledger →
    tree.invites.lookup name = some ledger
  rules : ∀ rule, rule.names intent.source = false → rule.names intent.target = false →
    (rule ∈ after.firewall.rules ↔ rule ∈ tree.firewall.rules)

/-- The start that finishes the rename of network `key` touches no other network, and the
rules of the two names apply to none. -/
structure TouchesOnly (owner : Ledger → EndpointId) (key : EndpointId) (intent : RenameIntent)
    (tree after : ConfigTree Rest Ledger) : Prop
    extends LeavesOthers owner key intent tree after where
  applied : ∀ rule ∈ after.firewall.rules, ∀ name, name = intent.source ∨ name = intent.target →
    rule.names name = true → ∀ net, after.networks.lookup name = some net → net.key = some key

section Recovery

variable {owner : Ledger → EndpointId} {intent : RenameIntent} {key : EndpointId}
  {tree now : ConfigTree Rest Ledger}

/-- A recovery under way has touched nothing but what is the network's. -/
structure Touching (owner : Ledger → EndpointId) (key : EndpointId) (intent : RenameIntent)
    (tree now : ConfigTree Rest Ledger) : Prop where
  standing : Standing owner intent key now
  leaves : LeavesOthers owner key intent tree now

theorem Touching.start (standing : Standing owner intent key tree) :
    Touching owner key intent tree tree where
  standing := standing
  leaves :=
    { files := fun _ _ _ => Iff.rfl
      ledgers := fun _ _ _ found => .inl found
      unmoved := fun _ _ _ found => found
      rules := fun _ _ _ => Iff.rfl }

section

variable (touching : Touching owner key intent tree now)

include touching

theorem Touching.only : TouchesOnly owner key intent tree now where
  toLeavesOthers := touching.leaves
  applied := fun _ _ name named _ => touching.standing.holders name named

/-- Files that change under the two names only, where both hold the network itself. -/
theorem Touching.networks
    {networks : OrdMap Name (NetworkFile Rest)}
    (own : ∀ name, name = intent.source ∨ name = intent.target → ∀ net,
      networks.lookup name = some net → net.key = some key)
    (others : ∀ name, name ≠ intent.source → name ≠ intent.target →
      networks.lookup name = now.networks.lookup name) :
    Touching owner key intent tree { now with networks := networks } := by
  refine ⟨⟨own, touching.standing.ledger⟩, { touching.leaves with files := ?_ }⟩
  intro name net other
  rw [← touching.leaves.files name net other]
  by_cases named : name = intent.source ∨ name = intent.target
  · exact ⟨fun found => absurd (own name named net found) other,
      fun found => absurd (touching.standing.holders name named net found) other⟩
  · rw [not_or] at named
    rw [← others name named.1 named.2]

/-- A file of the network saved under the new name. -/
theorem Touching.insert {net : NetworkFile Rest}
    (own : net.key = some key) {networks : OrdMap Name (NetworkFile Rest)}
    (rest : ∀ name, networks.lookup name = none ∧ name = intent.source ∨
      networks.lookup name = now.networks.lookup name) :
    Touching owner key intent tree
      { now with networks := Finmap.insert intent.target net networks } := by
  refine touching.networks ?_ ?_
  · intro name named found saved
    by_cases target : name = intent.target
    · subst target
      cases (Finmap.lookup_insert _).symm.trans saved
      exact own
    · rw [Finmap.lookup_insert_of_ne _ target] at saved
      rcases rest name with ⟨absent, -⟩ | same
      · cases absent.symm.trans saved
      · exact touching.standing.holders name named found (same.symm.trans saved)
  · intro name notSource notTarget
    rw [Finmap.lookup_insert_of_ne _ notTarget]
    rcases rest name with ⟨-, source⟩ | same
    · exact absurd source notSource
    · exact same

end

variable {run : RenameRun Rest Ledger}

section

variable (touching : Touching owner key intent tree now)

include touching

theorem Touching.moveFile (ok : moveFile intent now = .ok run) :
    Touching owner key intent tree run.tree := by
  obtain ⟨_, -, ok⟩ := bind_ok_iff.mp ok
  obtain ⟨_, -, ok⟩ := bind_ok_iff.mp ok
  cases saved : now.networks.lookup intent.source with
  | none =>
    simp only [saved] at ok
    cases ok
    exact touching
  | some net =>
    simp only [saved] at ok
    split at ok
    · cases ok
      exact touching
    · cases ok
      refine touching.insert (touching.standing.holders _ (.inl rfl) net saved) fun name => ?_
      by_cases source : name = intent.source
      · subst source
        exact .inl ⟨Finmap.lookup_erase _ _, rfl⟩
      · exact .inr (Finmap.lookup_erase_ne source)

theorem Touching.moveLedger (distinct : intent.source ≠ intent.target)
    (ok : moveLedger intent now = .ok run) : Touching owner key intent tree run.tree := by
  unfold Rayfish.moveLedger at ok
  split at ok
  · cases ok
    exact touching
  cases ok
  cases held : now.invites.lookup intent.source with
  | none =>
    have same : movedLedgers intent now.invites = now.invites := movedLedgers_absent held
    rw [same]
    exact touching
  | some own =>
    have mine := touching.standing.ledger own held
    have target : (movedLedgers intent now.invites).lookup intent.target = some own := by
      rw [lookup_target_movedLedgers, held]
      rfl
    have source : (movedLedgers intent now.invites).lookup intent.source = none :=
      lookup_source_movedLedgers distinct now.invites
    refine ⟨⟨touching.standing.holders, fun ledger found => (nomatch source.symm.trans found)⟩,
      { touching.leaves with ledgers := ?_, unmoved := ?_ }⟩
    · intro name ledger other found
      by_cases new : name = intent.target
      · subst new
        exact .inr ⟨rfl, own, target, mine⟩
      · rcases touching.leaves.ledgers name ledger other found with kept | ⟨replaced, -⟩
        · by_cases old : name = intent.source
          · subst old
            cases held.symm.trans kept
            exact absurd mine other
          · exact .inl ((lookup_movedLedgers_of_ne now.invites old new).trans kept)
        · exact absurd replaced new
    · intro name ledger other found
      by_cases new : name = intent.target
      · subst new
        cases target.symm.trans found
        exact absurd mine other
      · by_cases old : name = intent.source
        · subst old
          cases source.symm.trans found
        · exact touching.leaves.unmoved name ledger other
            ((lookup_movedLedgers_of_ne now.invites old new).symm.trans found)

theorem Touching.rewriteName (ok : rewriteName intent now = .ok run) :
    Touching owner key intent tree run.tree := by
  unfold Rayfish.rewriteName at ok
  cases saved : now.networks.lookup intent.target with
  | none =>
    simp only [saved] at ok
    cases ok
    exact touching
  | some net =>
    simp only [saved] at ok
    split at ok
    · cases ok
      exact touching
    · obtain ⟨-, rewritten⟩ := ensure_ok_iff.mp ok
      obtain ⟨after, written, rfl⟩ := map_ok_iff.mp rewritten
      obtain ⟨-, -, rfl⟩ := now.saveNetwork_ok.mp written
      have mine := touching.standing.holders _ (.inr rfl) net saved
      exact @Touching.insert _ _ _ _ _ _ _ touching { net with name := intent.target } mine _
        fun _ => .inr rfl

theorem Touching.saveRules (ok : saveRules intent now.firewall now = .ok run) :
    Touching owner key intent tree run.tree := by
  cases ok
  split
  · refine ⟨⟨touching.standing.holders, touching.standing.ledger⟩,
      { touching.leaves with rules := fun rule source target => ?_ }⟩
    rw [← touching.leaves.rules rule source target]
    exact FirewallConfig.mem_renameNetwork source target
  · exact touching

end

/-- Wherever a start stops, it has touched nothing else. -/
theorem Touching.recovery (touching : Touching owner key intent tree tree)
    (distinct : intent.source ≠ intent.target) :
    Touching owner key intent tree (Steps.run (recoverySteps intent) ⟨tree, false⟩).1.tree := by
  have each : ∀ step ∈ (recoverySteps intent), ∀ run run' : RenameRun Rest Ledger,
      Touching owner key intent tree run.tree → step run = .ok run' →
      Touching owner key intent tree run'.tree := by
    intro step listed run run' now ok
    rcases List.mem_append.mp listed with early | last
    · obtain ⟨step, member, rfl⟩ := List.mem_map.mp early
      unfold RenameRun.unlessGone at ok
      split at ok
      · cases ok
        exact now
      · simp only [List.mem_cons, List.not_mem_nil, or_false] at member
        rcases member with rfl | rfl | rfl | rfl
        · exact now.moveFile ok
        · exact now.moveLedger distinct ok
        · exact now.rewriteName ok
        · exact now.saveRules ok
    · obtain rfl := List.mem_singleton.mp last
      cases ok
      exact ⟨⟨now.standing.holders, now.standing.ledger⟩, { now.leaves with }⟩
  exact Steps.run_preserves each touching

end Recovery

/-- The intent of network `key`'s rename stands, and networks are left, destroyed, created and
joined under any names, as long as each one created or joined under the old or the new name
is that network again. The next start then touches no other network. -/
theorem pending_rename_frame (owner : Ledger → EndpointId) (intent : RenameIntent)
    (key : EndpointId) (start : ConfigTree Rest Ledger) (unfinished : Unfinished intent key start)
    (acts : List (NetworkAct Rest Ledger))
    (own : ∀ act ∈ acts, ∀ net ∈ act.saved,
      net.name = intent.source ∨ net.name = intent.target → net.key = some key) :
    TouchesOnly owner key intent (acts.foldl (ConfigTree.performed owner) start)
      (finishInterruptedRename (acts.foldl (ConfigTree.performed owner) start)).1 := by
  have distinct : intent.source ≠ intent.target := by
    intro same
    obtain ⟨net, saved, -⟩ := unfinished.saved
    rw [← same, unfinished.moved] at saved
    cases saved
  have stands : ∀ tree, Standing owner intent key tree → tree.intent = some intent →
      Standing owner intent key (acts.foldl (ConfigTree.performed owner) tree) ∧
        (acts.foldl (ConfigTree.performed owner) tree).intent = some intent := by
    induction acts with
    | nil => exact fun tree standing pending => ⟨standing, pending⟩
    | cons act acts ih =>
      intro tree standing pending
      obtain ⟨first, rest⟩ := List.forall_mem_cons.mp own
      have performed := performed_performed owner tree act
      exact ih rest _ (standing.performed first performed) (performed.intent.trans pending)
  obtain ⟨standing, pending⟩ := stands start unfinished.standing unfinished.pending
  simp only [finishInterruptedRename, pending]
  exact ((Touching.start standing).recovery distinct).only

/-- The network `lab`, renamed to `home`. Its rule could not be saved under the new name. -/
def labUnsaved : ConfigTree Unit Nat :=
  renamePoint labTree ⟨"lab".toList, "home".toList⟩ labNetwork 4

theorem labUnsaved_unfinished : Unfinished ⟨"lab".toList, "home".toList⟩ 7 labUnsaved := by
  obtain ⟨run, ok, there⟩ := labTree_accepted
  rcases saveIntent_ok ok with rfl | ⟨net, renamable, -⟩
  · cases there
  · cases renamable.saved
    exact renamable.unfinished rfl (.inl rfl)

def labAfter (acts : List (NetworkAct Unit Nat)) : ConfigTree Unit Nat :=
  acts.foldl (ConfigTree.performed fun _ => 7) labUnsaved

/-- The network is left and joined again, and another one is created. -/
theorem labUnsaved_frame :
    TouchesOnly (fun _ => 7) 7 ⟨"lab".toList, "home".toList⟩
      (labAfter [.leave "home".toList, .create ⟨"office".toList, some 9, none, ()⟩,
        .join ⟨"lab".toList, some 7, none, ()⟩])
      (finishInterruptedRename (labAfter [.leave "home".toList,
        .create ⟨"office".toList, some 9, none, ()⟩,
        .join ⟨"lab".toList, some 7, none, ()⟩])).1 := by
  refine pending_rename_frame (fun _ => 7) _ 7 labUnsaved labUnsaved_unfinished _ ?_
  simp only [List.forall_mem_cons]
  refine ⟨nofun, ?_, ?_, fun _ member => absurd member List.not_mem_nil⟩
  · rintro net ⟨⟩ named
    exact absurd named (by decide)
  · rintro net ⟨⟩ -
    rfl

/-- Another network created under the old name is taken for the renamed one: its file moves to
the new name if that is free again, and otherwise the rules still saved under the old name
apply to it. -/
theorem pending_rename_takes_another :
    Unfinished ⟨"lab".toList, "home".toList⟩ 7 labUnsaved ∧
    (finishInterruptedRename (labAfter [.leave "home".toList,
        .create ⟨"lab".toList, some 9, none, ()⟩])).1.networks.lookup "home".toList =
      some ⟨"home".toList, some 9, none, ()⟩ ∧
    ¬TouchesOnly (fun _ => 7) 7 ⟨"lab".toList, "home".toList⟩
      (labAfter [.leave "home".toList, .create ⟨"lab".toList, some 9, none, ()⟩])
      (finishInterruptedRename (labAfter [.leave "home".toList,
        .create ⟨"lab".toList, some 9, none, ()⟩])).1 ∧
    ¬TouchesOnly (fun _ => 7) 7 ⟨"lab".toList, "home".toList⟩
      (labAfter [.create ⟨"lab".toList, some 9, none, ()⟩])
      (finishInterruptedRename (labAfter [.create ⟨"lab".toList, some 9, none, ()⟩])).1 := by
  have moved : (finishInterruptedRename (labAfter [.leave "home".toList,
      .create ⟨"lab".toList, some 9, none, ()⟩])).1.networks.lookup "home".toList =
      some ⟨"home".toList, some 9, none, ()⟩ := by decide +kernel
  refine ⟨labUnsaved_unfinished, moved, fun touches => ?_, fun touches => ?_⟩
  · exact absurd ((touches.files _ _ (by decide)).mp moved) (by decide +kernel)
  · have applied := touches.applied ⟨.incoming, .allow, .tcp, none, .any, some "lab", .local⟩
      (by decide +kernel) "lab".toList (.inl rfl) (by decide +kernel)
    exact absurd applied (by decide)

end Rayfish
