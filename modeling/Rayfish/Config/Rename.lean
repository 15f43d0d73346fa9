import Rayfish.Config
import Rayfish.Hostname

/-!
# Renaming a network

`ray rename` moves a network's config and invite ledger to its new name, rewrites the name
inside the config, and renames the firewall rules that name the network. An intent is saved
before anything moves and cleared once all of it has followed, and a daemon that starts with
an intent finishes the rename before it reads anything else (`finish_interrupted_rename`).
Each file that is written, moved or removed is one step of a program, and the daemon can
stop after any of them, in the rename and in every recovery.
-/

namespace Rayfish

open Lib

/-! ## Rules -/

namespace FirewallRule

variable (source target : Name) (rule : FirewallRule)

/-- The rule is scoped to the network, or was installed from its suggestions. -/
def names (net : Name) : Bool :=
  rule.network == some (String.ofList net) || rule.origin == .network (String.ofList net)

def renameNetwork : FirewallRule :=
  { rule with
    network :=
      if rule.network = some (String.ofList source) then some (String.ofList target)
      else rule.network
    origin :=
      if rule.origin = .network (String.ofList source) then .network (String.ofList target)
      else rule.origin }

variable {source target rule}

theorem renameNetwork_unnamed (unnamed : rule.names source = false) :
    rule.renameNetwork source target = rule := by
  simp only [names, Bool.or_eq_false_iff, beq_eq_false_iff_ne] at unnamed
  simp only [renameNetwork, if_neg unnamed.1, if_neg unnamed.2]

theorem names_renameNetwork (distinct : source ≠ target) :
    (rule.renameNetwork source target).names source = false := by
  have apart : String.ofList target ≠ String.ofList source :=
    fun same => distinct (String.ofList_injective same).symm
  simp only [names, renameNetwork, Bool.or_eq_false_iff, beq_eq_false_iff_ne]
  constructor
  · split
    · exact fun same => apart (Option.some.inj same)
    · assumption
  · split
    · exact fun same => apart (RuleOrigin.network.inj same)
    · assumption

theorem names_target_renameNetwork (named : rule.names source = true) :
    (rule.renameNetwork source target).names target = true := by
  simp only [names, Bool.or_eq_true, beq_iff_eq] at named
  simp only [names, Bool.or_eq_true, beq_iff_eq]
  rcases named with restricted | installed
  · exact .inl (if_pos restricted)
  · exact .inr (if_pos installed)

end FirewallRule

namespace FirewallConfig

/-- The rules renamed, and whether any rule named the network. -/
def renameNetwork (config : FirewallConfig) (source target : Name) : FirewallConfig × Bool :=
  ({ config with rules := config.rules.map (·.renameNetwork source target) },
    config.rules.any (·.names source))

variable {config : FirewallConfig} {source target : Name}

theorem renameNetwork_unnamed (unnamed : (config.renameNetwork source target).2 = false) :
    (config.renameNetwork source target).1 = config := by
  have same : config.rules.map (·.renameNetwork source target) = config.rules := by
    refine (List.map_congr_left fun rule member => ?_).trans (List.map_id _)
    exact FirewallRule.renameNetwork_unnamed
      (Bool.eq_false_of_not_eq_true (List.any_eq_false.mp unnamed rule member))
  simp only [renameNetwork, same]

theorem names_of_mem_renameNetwork (distinct : source ≠ target)
    (member : rule ∈ (config.renameNetwork source target).1.rules) :
    rule.names source = false := by
  obtain ⟨rule, -, rfl⟩ := List.mem_map.mp member
  exact FirewallRule.names_renameNetwork distinct

/-- The rules that name neither network stay. -/
theorem mem_renameNetwork (notSource : rule.names source = false)
    (notTarget : rule.names target = false) :
    rule ∈ (config.renameNetwork source target).1.rules ↔ rule ∈ config.rules := by
  simp only [renameNetwork, List.mem_map]
  constructor
  · rintro ⟨old, member, rfl⟩
    cases named : old.names source with
    | true =>
      rw [FirewallRule.names_target_renameNetwork named] at notTarget
      cases notTarget
    | false => rwa [FirewallRule.renameNetwork_unnamed named]
  · exact fun member => ⟨rule, member, FirewallRule.renameNetwork_unnamed notSource⟩

/-- Renaming again changes nothing. -/
theorem renameNetwork_again (distinct : source ≠ target) :
    ((config.renameNetwork source target).1.renameNetwork source target).2 = false := by
  refine List.any_eq_false.mpr fun rule member => ?_
  rw [names_of_mem_renameNetwork distinct member]
  exact Bool.false_ne_true

end FirewallConfig

/-! ## The steps -/

variable {Rest Ledger : Type}

/-- A rename under way. `gone` is set when there is nothing to rename, and ends it. -/
structure RenameRun (Rest Ledger : Type) where
  tree : ConfigTree Rest Ledger
  gone : Bool

/-- A step of a rename that still has something to rename. -/
def RenameRun.unlessGone
    (step : ConfigTree Rest Ledger → Except ConfigError (RenameRun Rest Ledger))
    (run : RenameRun Rest Ledger) : Except ConfigError (RenameRun Rest Ledger) :=
  if run.gone then .ok run else step run.tree

/-- The checks of a rename, and the intent saved. -/
def saveIntent (source target : Name) (tree : ConfigTree Rest Ledger) :
    Except ConfigError (RenameRun Rest Ledger) :=
  if isValidHostname target = false then .error (.invalidName target)
  else if source = target then .error (.nameTaken target)
  else do
    validateNetName target
    match tree.intent with
    | some pending => .error (.renameUnfinished pending)
    | none =>
      match ← tree.loadNetwork source with
      | none => return ⟨tree, true⟩
      | some net =>
        if net.name ≠ source then .error (.mismatchedName source net.name)
        else if (tree.networks.lookup target).isSome then .error (.nameTaken target)
        else return ⟨{ tree with intent := some ⟨source, target⟩ }, false⟩

section

variable (intent : RenameIntent)

def moveFile (tree : ConfigTree Rest Ledger) :
    Except ConfigError (RenameRun Rest Ledger) := do
  validateNetName intent.source
  validateNetName intent.target
  match tree.networks.lookup intent.source with
  | none => return ⟨tree, false⟩
  | some net =>
    if (tree.networks.lookup intent.target).isSome then return ⟨tree, true⟩
    else
      let networks := Finmap.insert intent.target net (Finmap.erase intent.source tree.networks)
      return ⟨{ tree with networks := networks }, false⟩

/-- What moving a ledger over the one under the new name makes of the ledgers. -/
def movedLedgers (invites : OrdMap Name Ledger) : OrdMap Name Ledger :=
  match invites.lookup intent.source with
  | none => invites
  | some ledger => Finmap.insert intent.target ledger (Finmap.erase intent.source invites)

def moveLedger (tree : ConfigTree Rest Ledger) : Except ConfigError (RenameRun Rest Ledger) :=
  match tree.networks.lookup intent.target with
  | none => .ok ⟨tree, true⟩
  | some _ => .ok ⟨{ tree with invites := movedLedgers intent tree.invites }, false⟩

def rewriteName (tree : ConfigTree Rest Ledger) : Except ConfigError (RenameRun Rest Ledger) :=
  match tree.networks.lookup intent.target with
  | none => .ok ⟨tree, true⟩
  | some net =>
    if net.name = intent.target then .ok ⟨tree, false⟩
    else if net.name = intent.source then
      (tree.saveNetwork { net with name := intent.target }).map (⟨·, false⟩)
    else .error (.mismatchedName intent.target net.name)

/-- Rules renamed, and saved if any of them named the network. -/
def saveRules (rules : FirewallConfig) (tree : ConfigTree Rest Ledger) :
    Except ConfigError (RenameRun Rest Ledger) :=
  let (renamed, changed) := rules.renameNetwork intent.source intent.target
  .ok ⟨if changed then { tree with firewall := renamed } else tree, false⟩

end

def clearIntent (tree : ConfigTree Rest Ledger) : ConfigTree Rest Ledger :=
  { tree with intent := none }

/-! ## Renames and recoveries -/

/-- `rename_network` and `follow_rename` of a daemon that runs with `running` as its rules. -/
def renameSteps (source target : Name) (running : FirewallConfig) :
    List (RenameRun Rest Ledger → Except ConfigError (RenameRun Rest Ledger)) :=
  [saveIntent source target, moveFile ⟨source, target⟩, moveLedger ⟨source, target⟩,
    rewriteName ⟨source, target⟩, fun tree => saveRules ⟨source, target⟩ running tree,
    fun tree => .ok ⟨clearIntent tree, false⟩].map RenameRun.unlessGone

/-- `finish_interrupted_rename` with an intent. The intent of a rename that has nothing left
to rename is dropped. -/
def recoverySteps (intent : RenameIntent) :
    List (RenameRun Rest Ledger → Except ConfigError (RenameRun Rest Ledger)) :=
  [moveFile intent, moveLedger intent, rewriteName intent,
    fun tree => saveRules intent tree.firewall tree].map RenameRun.unlessGone ++
  [fun run => .ok { run with tree := clearIntent run.tree }]

/-- The files that a rename stopped after `n` steps leaves. -/
def renameInterrupted (source target : Name) (running : FirewallConfig) (n : Nat)
    (tree : ConfigTree Rest Ledger) : ConfigTree Rest Ledger :=
  (Steps.interrupted (renameSteps source target running) n ⟨tree, false⟩).tree

/-- The files a start leaves before anything else reads them, and why it could not finish a
rename. -/
def finishInterruptedRename (tree : ConfigTree Rest Ledger) :
    ConfigTree Rest Ledger × Option ConfigError :=
  match tree.intent with
  | none => (tree, none)
  | some intent => (Steps.run (recoverySteps intent) ⟨tree, false⟩).map RenameRun.tree id

def recoveryInterrupted (n : Nat) (tree : ConfigTree Rest Ledger) : ConfigTree Rest Ledger :=
  match tree.intent with
  | none => tree
  | some intent => (Steps.interrupted (recoverySteps intent) n ⟨tree, false⟩).tree

/-- A rename stopped after `cut` steps, and then one start after another, each stopped. -/
def renameCrashes (source target : Name) (running : FirewallConfig) (cut : Nat)
    (cuts : List Nat) (tree : ConfigTree Rest Ledger) : ConfigTree Rest Ledger :=
  cuts.foldl (fun tree n => recoveryInterrupted n tree)
    (renameInterrupted source target running cut tree)

/-! ## The points a rename passes -/

/-- The files after the first `n` of the six things a rename does. -/
def renamePoint (before : ConfigTree Rest Ledger) (intent : RenameIntent)
    (net : NetworkFile Rest) (n : Nat) : ConfigTree Rest Ledger where
  networks :=
    if n < 2 then before.networks
    else Finmap.insert intent.target
      (if n < 4 then net else { net with name := intent.target })
      (Finmap.erase intent.source before.networks)
  invites := if n < 3 then before.invites else movedLedgers intent before.invites
  firewall :=
    if n < 5 then before.firewall
    else (before.firewall.renameNetwork intent.source intent.target).1
  intent := if n = 0 ∨ 6 ≤ n then none else some intent
  destroyed := before.destroyed

variable {n cut : Nat}

section Points

variable {before : ConfigTree Rest Ledger} {source target : Name} {net : NetworkFile Rest}

/-- What a rename found when it saved its intent. -/
structure Renamable (before : ConfigTree Rest Ledger) (source target : Name)
    (net : NetworkFile Rest) : Prop where
  distinct : source ≠ target
  unpending : before.intent = none
  saved : before.networks.lookup source = some net
  named : net.name = source
  free : before.networks.lookup target = none
  valid : isValidNetName source = true ∧ isValidNetName target = true

/-- A rename whose network is there has done at least the first `lo` things, and has not
cleared its intent. -/
def RenamePassed (before : ConfigTree Rest Ledger) (source target : Name) (net : NetworkFile Rest)
    (lo : Nat) (run : RenameRun Rest Ledger) : Prop :=
  run.gone = false ∧ ∃ n, lo ≤ n ∧ n ≤ 5 ∧ run.tree = renamePoint before ⟨source, target⟩ net n

variable {run : RenameRun Rest Ledger}

theorem saveIntent_ok (ok : saveIntent source target before = .ok run) :
    run = ⟨before, true⟩ ∨ ∃ net, Renamable before source target net ∧
      run = ⟨renamePoint before ⟨source, target⟩ net 1, false⟩ := by
  obtain ⟨-, ok⟩ := refuse_ok_iff.mp ok
  obtain ⟨distinct, ok⟩ := refuse_ok_iff.mp ok
  obtain ⟨_, validTarget, ok⟩ := bind_ok_iff.mp ok
  obtain ⟨validTarget, -⟩ := ensure_ok_iff.mp validTarget
  cases pending : before.intent with
  | some pending =>
    rw [pending] at ok
    cases ok
  | none =>
    rw [pending] at ok
    obtain ⟨found, loaded, ok⟩ := bind_ok_iff.mp ok
    obtain ⟨validSource, rfl⟩ := before.loadNetwork_ok.mp loaded
    cases saved : before.networks.lookup source with
    | none =>
      rw [saved] at ok
      cases ok
      exact .inl rfl
    | some net =>
      rw [saved] at ok
      obtain ⟨named, ok⟩ := refuse_ok_iff.mp ok
      obtain ⟨free, ok⟩ := refuse_ok_iff.mp ok
      cases ok
      rw [Option.not_isSome_iff_eq_none] at free
      exact .inr ⟨net, ⟨distinct, pending, saved, not_not.mp named, free, validSource, validTarget⟩,
        rfl⟩

variable {lo : Nat} {running : FirewallConfig} {tree : ConfigTree Rest Ledger}
  {act : ConfigTree Rest Ledger → Except ConfigError (RenameRun Rest Ledger)}

/-- A step of the program, for the runs that have something to rename. -/
theorem RenamePassed.step {run' : RenameRun Rest Ledger}
    (passed : RenamePassed before source target net lo run)
    (ok : RenameRun.unlessGone act run = .ok run') :
    ∃ n, lo ≤ n ∧ n ≤ 5 ∧ act (renamePoint before ⟨source, target⟩ net n) = .ok run' := by
  obtain ⟨there, n, lower, upper, point⟩ := passed
  simp only [RenameRun.unlessGone, there, point] at ok
  exact ⟨n, lower, upper, ok⟩

theorem RenamePassed.succeeds (passed : RenamePassed before source target net lo run)
    (each : ∀ n, lo ≤ n → ∃ run', act (renamePoint before ⟨source, target⟩ net n) = .ok run') :
    ∃ run', RenameRun.unlessGone act run = .ok run' := by
  obtain ⟨there, n, lower, upper, point⟩ := passed
  simp only [RenameRun.unlessGone, there, point]
  exact each n lower

theorem RenamePassed.point (lower : lo ≤ n) (upper : n ≤ 5) :
    RenamePassed before source target net lo ⟨renamePoint before ⟨source, target⟩ net n, false⟩ :=
  ⟨rfl, n, lower, upper, rfl⟩

/-- What a recovery has done before its step `j`. -/
def RecoveryAt (before : ConfigTree Rest Ledger) (source target : Name) (net : NetworkFile Rest)
    (j : Nat) (run : RenameRun Rest Ledger) : Prop :=
  if j < 5 then RenamePassed before source target net (j + 1) run
  else run.tree = renamePoint before ⟨source, target⟩ net 6

theorem recoveryAt_zero (lower : 1 ≤ n) (upper : n ≤ 5) :
    RecoveryAt before source target net 0 ⟨renamePoint before ⟨source, target⟩ net n, false⟩ :=
  RenamePassed.point lower upper

theorem lookup_target_renamePoint (moved : 2 ≤ n) :
    (renamePoint before ⟨source, target⟩ net n).networks.lookup target =
      some (if n < 4 then net else { net with name := target }) := by
  simp only [renamePoint, if_neg (Nat.not_lt.mpr moved)]
  exact Finmap.lookup_insert _

theorem movedLedgers_absent (absent : invites.lookup source = none) :
    movedLedgers ⟨source, target⟩ invites = invites := by
  simp only [movedLedgers, absent]

theorem lookup_source_movedLedgers (distinct : source ≠ target) (invites : OrdMap Name Ledger) :
    (movedLedgers ⟨source, target⟩ invites).lookup source = none := by
  unfold movedLedgers
  cases held : invites.lookup source with
  | none => exact held
  | some ledger => rw [Finmap.lookup_insert_of_ne _ distinct, Finmap.lookup_erase]

/-- The rules renamed from what they were before the rename, or again. -/
theorem savedRules_renamePoint (distinct : source ≠ target) (lower : 4 ≤ n) (upper : n ≤ 5)
    (read : rules = before.firewall ∨ rules = (renamePoint before ⟨source, target⟩ net n).firewall)
    :
    (if (rules.renameNetwork source target).2 then
      { renamePoint before ⟨source, target⟩ net n with
        firewall := (rules.renameNetwork source target).1 }
    else renamePoint before ⟨source, target⟩ net n) =
      renamePoint before ⟨source, target⟩ net 5 := by
  rcases Nat.lt_or_ge n 5 with unsaved | saved
  · obtain rfl : n = 4 := by omega
    obtain rfl : rules = before.firewall := by
      rcases read with read | read <;> exact read
    cases changed : (before.firewall.renameNetwork source target).2 with
    | true => rfl
    | false =>
      have same := FirewallConfig.renameNetwork_unnamed changed
      simp only [renamePoint, same]
      rfl
  · obtain rfl : n = 5 := by omega
    rcases read with rfl | rfl
    · split <;> rfl
    · have unchanged := @FirewallConfig.renameNetwork_again before.firewall _ _ distinct
      rw [if_neg]
      exact fun changed => Bool.false_ne_true (unchanged.symm.trans changed)

theorem moveFile_succeeds (valid : isValidNetName source = true ∧ isValidNetName target = true)
    (tree : ConfigTree Rest Ledger) : ∃ run, moveFile ⟨source, target⟩ tree = .ok run := by
  simp only [moveFile, validateNetName, valid.1, valid.2]
  cases tree.networks.lookup source with
  | none => exact ⟨_, rfl⟩
  | some net =>
    cases (tree.networks.lookup target).isSome with
    | false | true => exact ⟨_, rfl⟩

section Steps

variable (renamable : Renamable before source target net) {run run' : RenameRun Rest Ledger}

include renamable

theorem lookup_source_renamePoint (moved : 2 ≤ n) :
    (renamePoint before ⟨source, target⟩ net n).networks.lookup source = none := by
  simp only [renamePoint, if_neg (Nat.not_lt.mpr moved)]
  rw [Finmap.lookup_insert_of_ne _ renamable.distinct, Finmap.lookup_erase]

theorem moveFile_passed (passed : RenamePassed before source target net 1 run)
    (ok : RenameRun.unlessGone (moveFile ⟨source, target⟩) run = .ok run') :
    RenamePassed before source target net 2 run' := by
  obtain ⟨n, lower, upper, ok⟩ := passed.step ok
  obtain ⟨-, -, ok⟩ := bind_ok_iff.mp ok
  obtain ⟨-, -, ok⟩ := bind_ok_iff.mp ok
  rcases Nat.lt_or_ge n 2 with unmoved | moved
  · obtain rfl : n = 1 := by omega
    have saved : (renamePoint before ⟨source, target⟩ net 1).networks.lookup source = some net :=
      renamable.saved
    have free : (renamePoint before ⟨source, target⟩ net 1).networks.lookup target = none :=
      renamable.free
    simp only [saved, free] at ok
    cases ok
    exact RenamePassed.point (n := 2) le_rfl (by decide)
  · simp only [lookup_source_renamePoint renamable moved] at ok
    cases ok
    exact RenamePassed.point moved upper

theorem moveLedger_passed (passed : RenamePassed before source target net 2 run)
    (ok : RenameRun.unlessGone (moveLedger ⟨source, target⟩) run = .ok run') :
    RenamePassed before source target net 3 run' := by
  obtain ⟨n, lower, upper, ok⟩ := passed.step ok
  simp only [moveLedger, lookup_target_renamePoint lower] at ok
  cases ok
  rcases Nat.lt_or_ge n 3 with unmoved | moved
  · obtain rfl : n = 2 := by omega
    exact RenamePassed.point (n := 3) le_rfl (by decide)
  · have kept : movedLedgers ⟨source, target⟩ (renamePoint before ⟨source, target⟩ net n).invites =
        (renamePoint before ⟨source, target⟩ net n).invites := by
      simp only [renamePoint, if_neg (Nat.not_lt.mpr moved)]
      exact movedLedgers_absent (lookup_source_movedLedgers renamable.distinct _)
    rw [kept]
    exact RenamePassed.point moved upper

theorem rewriteName_succeeds (undestroyed : before.Undestroyed net) (lower : 3 ≤ n) :
    ∃ run, rewriteName ⟨source, target⟩ (renamePoint before ⟨source, target⟩ net n) = .ok run := by
  have moved : 2 ≤ n := by omega
  simp only [rewriteName, lookup_target_renamePoint moved]
  split
  · have differs : net.name ≠ target := renamable.named.trans_ne renamable.distinct
    rw [if_neg differs, if_pos renamable.named]
    have saved : (renamePoint before ⟨source, target⟩ net n).saveNetwork
        { net with name := target } = .ok _ :=
      (ConfigTree.saveNetwork_ok _).mpr ⟨renamable.valid.2, undestroyed, rfl⟩
    exact ⟨_, map_ok_iff.mpr ⟨_, saved, rfl⟩⟩
  · exact ⟨_, if_pos rfl⟩

theorem rewriteName_passed (passed : RenamePassed before source target net 3 run)
    (ok : RenameRun.unlessGone (rewriteName ⟨source, target⟩) run = .ok run') :
    RenamePassed before source target net 4 run' := by
  obtain ⟨n, lower, upper, ok⟩ := passed.step ok
  have moved : 2 ≤ n := by omega
  simp only [rewriteName, lookup_target_renamePoint moved] at ok
  rcases Nat.lt_or_ge n 4 with old | rewritten
  · obtain rfl : n = 3 := by omega
    have differs : net.name ≠ target := renamable.named.trans_ne renamable.distinct
    simp only [Nat.reduceLT, if_true, if_neg differs, if_pos renamable.named] at ok
    obtain ⟨tree, saved, rfl⟩ := map_ok_iff.mp ok
    obtain ⟨-, -, rfl⟩ := (ConfigTree.saveNetwork_ok _).mp saved
    have rewritten : Finmap.insert target { net with name := target }
        (renamePoint before ⟨source, target⟩ net 3).networks =
        (renamePoint before ⟨source, target⟩ net 4).networks := Finmap.insert_insert _
    rw [rewritten]
    exact RenamePassed.point (n := 4) le_rfl (by decide)
  · simp only [if_neg (Nat.not_lt.mpr rewritten)] at ok
    cases ok
    exact RenamePassed.point rewritten upper

theorem saveRules_passed {rules : ConfigTree Rest Ledger → FirewallConfig}
    (read : ∀ n, rules (renamePoint before ⟨source, target⟩ net n) = before.firewall ∨
      rules (renamePoint before ⟨source, target⟩ net n) =
        (renamePoint before ⟨source, target⟩ net n).firewall)
    (passed : RenamePassed before source target net 4 run)
    (ok : RenameRun.unlessGone (fun tree => saveRules ⟨source, target⟩ (rules tree) tree) run =
      .ok run') : RenamePassed before source target net 5 run' := by
  obtain ⟨n, lower, upper, ok⟩ := passed.step ok
  have saved := savedRules_renamePoint renamable.distinct lower upper (read n)
  obtain rfl : _ = run' := Except.ok.inj ok
  exact ⟨rfl, 5, le_rfl, le_rfl, saved⟩

/-- What a recovery has done before its step `j`. -/
theorem recovery_indexed (j : Nat)
    (step : RenameRun Rest Ledger → Except ConfigError (RenameRun Rest Ledger))
    (listed : (recoverySteps ⟨source, target⟩)[j]? = some step) (run run' : RenameRun Rest Ledger)
    (reached : RecoveryAt before source target net j run) (ok : step run = .ok run') :
    RecoveryAt before source target net (j + 1) run' := by
  rcases j with _ | _ | _ | _ | _ | j <;> cases listed
  · exact moveFile_passed renamable reached ok
  · exact moveLedger_passed renamable reached ok
  · exact rewriteName_passed renamable reached ok
  · exact @saveRules_passed _ _ _ _ _ _ renamable _ _ ConfigTree.firewall (fun _ => .inr rfl)
      reached ok
  · obtain ⟨-, n, lower, upper, point⟩ := reached
    obtain rfl : n = 5 := by omega
    cases ok
    simp only [point]
    rfl

/-- Without a proof that the network was destroyed, no step of a recovery fails. -/
theorem recovery_succeeds (undestroyed : before.Undestroyed net) (j : Nat)
    (step : RenameRun Rest Ledger → Except ConfigError (RenameRun Rest Ledger))
    (listed : (recoverySteps ⟨source, target⟩)[j]? = some step) (run : RenameRun Rest Ledger)
    (reached : RecoveryAt before source target net j run) :
    ∃ run', step run = .ok run' ∧ RecoveryAt before source target net (j + 1) run' := by
  suffices ok : ∃ run', step run = .ok run' by
    obtain ⟨run', ok⟩ := ok
    exact ⟨run', ok, recovery_indexed renamable j step listed run run' reached ok⟩
  rcases j with _ | _ | _ | _ | _ | j <;> cases listed
  · exact reached.succeeds fun n _ => moveFile_succeeds renamable.valid _
  · refine reached.succeeds fun n moved => ?_
    simp only [moveLedger, lookup_target_renamePoint moved]
    exact ⟨_, rfl⟩
  · exact reached.succeeds fun n lower => rewriteName_succeeds renamable undestroyed lower
  · exact reached.succeeds fun n _ => ⟨_, rfl⟩
  · exact ⟨_, rfl⟩

/-- The steps of a rename after its first do what those of a recovery do. -/
theorem rename_indexed (live : running = before.firewall) (j : Nat)
    (step : RenameRun Rest Ledger → Except ConfigError (RenameRun Rest Ledger))
    (listed : (renameSteps source target running).tail[j]? = some step)
    (run run' : RenameRun Rest Ledger) (reached : RecoveryAt before source target net j run)
    (ok : step run = .ok run') : RecoveryAt before source target net (j + 1) run' := by
  rcases j with _ | _ | _ | _ | _ | j <;> cases listed
  · exact moveFile_passed renamable reached ok
  · exact moveLedger_passed renamable reached ok
  · exact rewriteName_passed renamable reached ok
  · exact @saveRules_passed _ _ _ _ _ _ renamable _ _ (fun _ => running) (fun _ => .inl live)
      reached ok
  · obtain ⟨n, lower, upper, ok⟩ := reached.step ok
    obtain rfl : n = 5 := by omega
    cases ok
    rfl

end Steps

theorem RecoveryAt.point (reached : RecoveryAt before source target net j run) :
    ∃ n, 1 ≤ n ∧ n ≤ 6 ∧ run.tree = renamePoint before ⟨source, target⟩ net n := by
  unfold RecoveryAt at reached
  split at reached
  · obtain ⟨-, n, lower, upper, point⟩ := reached
    exact ⟨n, by omega, by omega, point⟩
  · exact ⟨6, by omega, le_rfl, reached⟩

/-- The rename passes its checks and finds its network. -/
def RenameAccepted (before : ConfigTree Rest Ledger) (source target : Name) : Prop :=
  ∃ run, saveIntent source target before = .ok run ∧ run.gone = false

/-- The files of a rename that was stopped, and those each start after it leaves. -/
inductive AtPoint (before : ConfigTree Rest Ledger) (source target : Name) (cut : Nat) :
    ConfigTree Rest Ledger → Prop where
  | untouched (unsaved : cut = 0 ∨ ¬RenameAccepted before source target) :
      AtPoint before source target cut before
  | passed {net : NetworkFile Rest} {n : Nat} (begun : cut ≠ 0)
      (renamable : Renamable before source target net) (lower : 1 ≤ n) (upper : n ≤ 6) :
      AtPoint before source target cut (renamePoint before ⟨source, target⟩ net n)

theorem atPoint_renameInterrupted (live : running = before.firewall) (cut : Nat) :
    AtPoint before source target cut (renameInterrupted source target running cut before) := by
  cases cut with
  | zero => exact .untouched (.inl rfl)
  | succ m =>
    have first : renameInterrupted source target running (m + 1) before =
        (match saveIntent source target before with
          | .ok run => Steps.interrupted (renameSteps source target running).tail m run
          | .error _ => ⟨before, false⟩).tree := by
      simp only [renameInterrupted, Steps.interrupted, renameSteps, List.map_cons,
        List.take_succ_cons, Steps.run, RenameRun.unlessGone]
      cases saveIntent source target before <;> rfl
    rw [first]
    cases saved : saveIntent source target before with
    | error e =>
      refine .untouched (.inr ?_)
      rintro ⟨run, ok, -⟩
      cases saved.symm.trans ok
    | ok run =>
      rcases saveIntent_ok saved with rfl | ⟨net, renamable, rfl⟩
      · -- every later step is skipped
        have skipped : Steps.interrupted (renameSteps source target running).tail m
            (⟨before, true⟩ : RenameRun Rest Ledger) = ⟨before, true⟩ := by
          have each : ∀ step ∈ (renameSteps source target running).tail,
              ∀ run run' : RenameRun Rest Ledger, run = ⟨before, true⟩ → step run = .ok run' →
              run' = ⟨before, true⟩ := by
            rintro step listed _ run' rfl ok
            obtain ⟨step, -, rfl⟩ := List.mem_map.mp (List.mem_of_mem_tail listed)
            exact (Except.ok.inj ok).symm
          exact Steps.interrupted_preserves each m rfl
        simp only [skipped]
        refine .untouched (.inr ?_)
        rintro ⟨run, ok, there⟩
        cases saved.symm.trans ok
        cases there
      · obtain ⟨j, -, reached⟩ := Steps.interrupted_indexed (rename_indexed renamable live) m
          (recoveryAt_zero le_rfl (by decide))
        obtain ⟨n, lower, upper, point⟩ := reached.point
        simp only [point]
        exact .passed (Nat.succ_ne_zero m) renamable lower upper

theorem intent_renamePoint (lower : 1 ≤ n) :
    (renamePoint before ⟨source, target⟩ net n).intent =
      if n ≤ 5 then some ⟨source, target⟩ else none := by
  simp only [renamePoint]
  split <;> split <;> first | rfl | omega

section

variable (settled : before.intent = none) (point : AtPoint before source target cut tree)

include settled point

theorem AtPoint.recoveryInterrupted (n : Nat) :
    AtPoint before source target cut (recoveryInterrupted n tree) := by
  cases point with
  | untouched unsaved =>
    simp only [Rayfish.recoveryInterrupted, settled]
    exact .untouched unsaved
  | @passed net i begun renamable lower upper =>
    simp only [Rayfish.recoveryInterrupted, intent_renamePoint lower]
    rcases Nat.lt_or_ge 5 i with cleared | pending
    · rw [if_neg (Nat.not_le.mpr cleared)]
      exact .passed begun renamable lower upper
    · rw [if_pos pending]
      obtain ⟨j, -, reached⟩ := Steps.interrupted_indexed (recovery_indexed renamable) n
        (recoveryAt_zero lower pending)
      obtain ⟨i, lower, upper, point⟩ := reached.point
      simp only [point]
      exact .passed begun renamable lower upper

/-- Wherever the starts before it stopped, a recovery that does not fail ends the rename. -/
theorem AtPoint.finished (done : finishInterruptedRename tree = (after, none)) :
    after = before ∧ (cut = 0 ∨ ¬RenameAccepted before source target) ∨
      ∃ net, cut ≠ 0 ∧ Renamable before source target net ∧
        after = renamePoint before ⟨source, target⟩ net 6 := by
  cases point with
  | untouched unsaved =>
    simp only [finishInterruptedRename, settled] at done
    cases done
    exact .inl ⟨rfl, unsaved⟩
  | @passed net i begun renamable lower upper =>
    refine .inr ⟨net, begun, renamable, ?_⟩
    simp only [finishInterruptedRename, intent_renamePoint lower] at done
    rcases Nat.lt_or_ge 5 i with cleared | pending
    · obtain rfl : i = 6 := by omega
      cases done
      rfl
    · rw [if_pos pending] at done
      obtain ⟨same, ended⟩ := Prod.mk.inj done
      rw [← same]
      exact (Steps.run_indexed (recovery_indexed renamable) (recoveryAt_zero lower pending)).2 ended

theorem AtPoint.finishes
    (undestroyed : ∀ net, before.networks.lookup source = some net → before.Undestroyed net) :
    (finishInterruptedRename tree).2 = none := by
  cases point with
  | untouched unsaved => simp only [finishInterruptedRename, settled]
  | @passed net i begun renamable lower upper =>
    simp only [finishInterruptedRename, intent_renamePoint lower]
    rcases Nat.lt_or_ge 5 i with cleared | pending
    · rw [if_neg (Nat.not_le.mpr cleared)]
    · rw [if_pos pending]
      exact Steps.run_succeeds
        (recovery_succeeds renamable (undestroyed net renamable.saved))
        (recoveryAt_zero lower pending)

end

theorem atPoint_renameCrashes (live : running = before.firewall) (settled : before.intent = none)
    (cut : Nat) (cuts : List Nat) :
    AtPoint before source target cut (renameCrashes source target running cut cuts before) := by
  unfold renameCrashes
  have start := @atPoint_renameInterrupted _ _ before source target running live cut
  generalize renameInterrupted source target running cut before = tree at start
  induction cuts generalizing tree with
  | nil => exact start
  | cons n cuts ih => exact ih _ (start.recoveryInterrupted settled n)

end Points

/-! ## What a rename leaves -/

/-- The network is saved under its old name, or under the new one, and every other network
as before. -/
def SavedOnce (before : ConfigTree Rest Ledger) (source target : Name)
    (tree : ConfigTree Rest Ledger) : Prop :=
  tree.networks = before.networks ∨ ∃ net, before.networks.lookup source = some net ∧
    tree.networks.lookup source = none ∧
    (tree.networks.lookup target = some net ∨
      tree.networks.lookup target = some { net with name := target }) ∧
    ∀ name, name ≠ source → name ≠ target → tree.networks.lookup name = before.networks.lookup name

/-- The network has its new name wherever it is named, and nothing else has changed. -/
structure RenamedTo (before : ConfigTree Rest Ledger) (source target : Name)
    (net : NetworkFile Rest) (after : ConfigTree Rest Ledger) : Prop where
  saved : after.networks.lookup target = some { net with name := target }
  moved : after.networks.lookup source = none
  others : ∀ name, name ≠ source → name ≠ target →
    after.networks.lookup name = before.networks.lookup name
  ledger : after.invites.lookup target =
    (before.invites.lookup source).or (before.invites.lookup target)
  ledgerMoved : after.invites.lookup source = none
  otherLedgers : ∀ name, name ≠ source → name ≠ target →
    after.invites.lookup name = before.invites.lookup name
  rules : after.firewall = { before.firewall with
    rules := before.firewall.rules.map (·.renameNetwork source target) }
  unnamed : ∀ rule ∈ after.firewall.rules, rule.names source = false
  cleared : after.intent = none
  proofs : after.destroyed = before.destroyed

section Ends

variable {before tree : ConfigTree Rest Ledger} {source target : Name} {net : NetworkFile Rest}
  (invites : OrdMap Name Ledger)

theorem lookup_renamePoint_of_ne (notSource : name ≠ source) (notTarget : name ≠ target) :
    (renamePoint before ⟨source, target⟩ net n).networks.lookup name =
      before.networks.lookup name := by
  simp only [renamePoint]
  split
  · rfl
  · rw [Finmap.lookup_insert_of_ne _ notTarget, Finmap.lookup_erase_ne notSource]

theorem AtPoint.savedOnce (point : AtPoint before source target cut tree) :
    SavedOnce before source target tree := by
  cases point with
  | untouched => exact .inl rfl
  | @passed net n begun renamable lower upper =>
    rcases Nat.lt_or_ge n 2 with unmoved | moved
    · refine .inl ?_
      simp only [renamePoint, if_pos unmoved]
    · refine .inr ⟨net, renamable.saved, lookup_source_renamePoint renamable moved, ?_,
        fun name => lookup_renamePoint_of_ne⟩
      rw [lookup_target_renamePoint moved]
      split
      · exact .inl rfl
      · exact .inr rfl

theorem lookup_target_movedLedgers :
    (movedLedgers ⟨source, target⟩ invites).lookup target =
      (invites.lookup source).or (invites.lookup target) := by
  unfold movedLedgers
  cases held : invites.lookup source with
  | none => rfl
  | some ledger => exact Finmap.lookup_insert _

theorem lookup_movedLedgers_of_ne (notSource : name ≠ source) (notTarget : name ≠ target) :
    (movedLedgers ⟨source, target⟩ invites).lookup name = invites.lookup name := by
  unfold movedLedgers
  cases invites.lookup source with
  | none => rfl
  | some ledger =>
    rw [Finmap.lookup_insert_of_ne _ notTarget, Finmap.lookup_erase_ne notSource]

theorem Renamable.renamedTo (renamable : Renamable before source target net) :
    RenamedTo before source target net (renamePoint before ⟨source, target⟩ net 6) where
  saved := lookup_target_renamePoint (by decide)
  moved := lookup_source_renamePoint renamable (by decide)
  others := fun _ => lookup_renamePoint_of_ne
  ledger := lookup_target_movedLedgers before.invites
  ledgerMoved := lookup_source_movedLedgers renamable.distinct before.invites
  otherLedgers := fun _ => lookup_movedLedgers_of_ne before.invites
  rules := rfl
  unnamed := fun _ member => FirewallConfig.names_of_mem_renameNetwork renamable.distinct member
  cleared := rfl
  proofs := rfl

end Ends

/-- A rename stopped anywhere, and any number of starts stopped anywhere after it. At no
point is the network saved under two names, and the first start that finishes without an
error leaves either what was there before the rename, if it stopped before its intent was
saved or was refused, or the network under its new name. Unless the network was destroyed,
that is the next start that is not stopped. -/
theorem rename_crash_safe (before : ConfigTree Rest Ledger) (source target : Name)
    (running : FirewallConfig) (live : running = before.firewall)
    (settled : before.intent = none) (cut : Nat) (cuts : List Nat) :
    SavedOnce before source target (renameCrashes source target running cut cuts before) ∧
    (∀ after, finishInterruptedRename (renameCrashes source target running cut cuts before) =
        (after, none) →
      after = before ∧ (cut = 0 ∨ ¬RenameAccepted before source target) ∨
        ∃ net, cut ≠ 0 ∧ before.networks.lookup source = some net ∧
          RenamedTo before source target net after) ∧
    ((∀ net, before.networks.lookup source = some net → before.Undestroyed net) →
      (finishInterruptedRename (renameCrashes source target running cut cuts before)).2 =
        none) := by
  have point := @atPoint_renameCrashes _ _ before source target running live settled cut cuts
  refine ⟨point.savedOnce, fun after done => ?_, point.finishes settled⟩
  rcases point.finished settled done with untouched | ⟨net, begun, renamable, rfl⟩
  · exact .inl untouched
  · exact .inr ⟨net, begun, renamable.saved, renamable.renamedTo⟩

/-- A network with an invite ledger and a rule scoped to it. -/
def labNetwork : NetworkFile Unit := ⟨"lab".toList, some 7, none, ()⟩

def labTree : ConfigTree Unit Nat where
  networks := Finmap.singleton "lab".toList labNetwork
  invites := Finmap.singleton "lab".toList 3
  firewall := ⟨.deny, .allow, false, false,
    [⟨.incoming, .allow, .tcp, none, .any, some "lab", .local⟩]⟩
  intent := none
  destroyed := ∅

theorem labTree_accepted : RenameAccepted labTree "lab".toList "home".toList :=
  ⟨⟨{ labTree with intent := some ⟨"lab".toList, "home".toList⟩ }, false⟩, rfl, rfl⟩

/-- Stopped once the file has moved, and again at the next start. -/
theorem labTree_renamed :
    ∃ after, finishInterruptedRename (renameCrashes "lab".toList "home".toList labTree.firewall 2
        [1] labTree) = (after, none) ∧
      RenamedTo labTree "lab".toList "home".toList labNetwork after := by
  obtain ⟨-, ends, finishes⟩ := rename_crash_safe labTree "lab".toList "home".toList
    labTree.firewall rfl rfl 2 [1]
  have done := finishes fun _ _ _ _ member => absurd member (Finset.notMem_empty _)
  refine ⟨_, Prod.ext rfl done, ?_⟩
  rcases ends _ (Prod.ext rfl done) with ⟨-, untouched⟩ | ⟨net, -, saved, renamed⟩
  · rcases untouched with early | refused
    · cases early
    · exact absurd labTree_accepted refused
  · cases saved
    exact renamed

end Rayfish
