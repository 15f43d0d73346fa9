import Rayfish.Config

/-!
# Restoring an identity

`restore_current_identity` of `keybackup.rs`, file by file. The first file it writes is the
secret key, and whether the old identity's networks and certificate are removed depends on
the key that is found on disk. A restore of the identity that is already there can be
interrupted and run again (`settling_keepSteps`). One that replaces an identity cannot once
the key is written: the next run takes the old networks and the old certificate for its own
(`old_networks_stay`). `restore_retry_iff` has the exact condition.
-/

namespace Rayfish

open Lib

variable {Signature Rest Ledger : Type}

structure SignedCert (Signature : Type) extends DeviceCert where
  signature : Signature
  deriving DecidableEq

/-- What the daemon keeps: its identity, its pairing certificate and the config tree. -/
@[ext] structure DataDir (Signature Rest Ledger : Type) where
  secretKey : Option SecretKey
  deviceCert : Option (SignedCert Signature)
  config : ConfigTree Rest Ledger

/-- A decrypted backup, after the checks of `restored_payload`. -/
structure RestoredBackup (verify : SignedCert Signature → Bool) (Rest : Type) where
  secretKey : SecretKey
  deviceCert : Option (SignedCert Signature)
  networks : List (NetworkFile Rest)
  verified : ∀ cert ∈ deviceCert, verify cert = true
  bound : ∀ cert ∈ deviceCert, cert.deviceKey = secretKey.publicKey

/-! ## The steps -/

namespace DataDir

variable (dir : DataDir Signature Rest Ledger)

def storeSecretKey (key : SecretKey) : DataDir Signature Rest Ledger :=
  { dir with secretKey := some key }

def loadDeviceCert (verify : SignedCert Signature → Bool) :
    Except ConfigError (Option (SignedCert Signature)) :=
  match dir.deviceCert with
  | some cert => if verify cert then .ok (some cert) else .error .invalidCertificate
  | none => .ok none

def mapNetworks (g : OrdMap Name (NetworkFile Rest) → OrdMap Name (NetworkFile Rest)) :
    DataDir Signature Rest Ledger :=
  { dir with config := { dir.config with networks := g dir.config.networks } }

/-- A step on the config tree. -/
def onConfig (step : ConfigTree Rest Ledger → Except ConfigError (ConfigTree Rest Ledger)) :
    Except ConfigError (DataDir Signature Rest Ledger) :=
  (step dir.config).map fun config => { dir with config }

end DataDir

namespace RestoredBackup

variable {verify : SignedCert Signature → Bool} (backup : RestoredBackup verify Rest)

section

variable (dir : DataDir Signature Rest Ledger)

/-- The identity on disk is the one in the backup. -/
def sameIdentity : Bool :=
  dir.secretKey.any fun existing => existing.publicKey == backup.secretKey.publicKey

def installKey : Except ConfigError (DataDir Signature Rest Ledger) :=
  .ok (dir.storeSecretKey backup.secretKey)

def checkNetwork (net : NetworkFile Rest) (dir : DataDir Signature Rest Ledger) :
    Except ConfigError (DataDir Signature Rest Ledger) := do
  let _ ← dir.config.loadNetwork net.name
  if net.networkPublicKey.isSome || net.networkSecretKey.isSome then return dir
  else .error .networkWithoutKey

def deleteOld (old : NetworkFile Rest) (dir : DataDir Signature Rest Ledger) :
    Except ConfigError (DataDir Signature Rest Ledger) :=
  dir.onConfig (·.deleteNetwork old.name)

/-- Whether the certificate on disk is kept: it is for the same pairing, and as new. -/
def keepsExisting (cert current : SignedCert Signature) : Bool :=
  current.deviceKey == cert.deviceKey && current.userIdentity == cert.userIdentity &&
    decide (current.generation ≥ cert.generation)

def restoreCert (same : Bool) (dir : DataDir Signature Rest Ledger) :
    Except ConfigError (DataDir Signature Rest Ledger) :=
  match backup.deviceCert with
  | some cert => do
    let existing ← if same then dir.loadDeviceCert verify else .ok none
    if same && existing.any (keepsExisting cert) then return dir
    else return { dir with deviceCert := some cert }
  | none => if same then .ok dir else .ok { dir with deviceCert := none }

def saveRestored (same : Bool) (net : NetworkFile Rest) (dir : DataDir Signature Rest Ledger) :
    Except ConfigError (DataDir Signature Rest Ledger) := do
  let saved ← if same then dir.config.loadNetwork net.name else .ok none
  if saved.isNone then dir.onConfig (·.saveNetwork net) else return dir

/-- The steps of a restore over the identity that is already there. -/
def keepSteps :
    List (DataDir Signature Rest Ledger → Except ConfigError (DataDir Signature Rest Ledger)) :=
  backup.networks.map checkNetwork ++
    backup.restoreCert true :: backup.networks.map (saveRestored true)

/-- The steps of a restore that replaces another identity. -/
def replaceSteps (start : DataDir Signature Rest Ledger) :
    List (DataDir Signature Rest Ledger → Except ConfigError (DataDir Signature Rest Ledger)) :=
  backup.installKey ::
    (backup.networks.map checkNetwork ++
      (start.config.load.map deleteOld ++
        backup.restoreCert false :: backup.networks.map (saveRestored false)))

/-- `restore_current_identity`, with `restore_metadata`. -/
def restoreSteps (start : DataDir Signature Rest Ledger) :
    List (DataDir Signature Rest Ledger → Except ConfigError (DataDir Signature Rest Ledger)) :=
  if backup.sameIdentity start then backup.keepSteps else backup.replaceSteps start

def restore : DataDir Signature Rest Ledger × Option ConfigError :=
  Steps.run (backup.restoreSteps dir) dir

end

/-- A restore that a crash, or a failure to read or write, stops after `n` steps. -/
def interrupted (n : Nat) (dir : DataDir Signature Rest Ledger) : DataDir Signature Rest Ledger :=
  Steps.interrupted (backup.restoreSteps dir) n dir

/-- What several interrupted restores leave. -/
def attempts (cuts : List Nat) (dir : DataDir Signature Rest Ledger) :
    DataDir Signature Rest Ledger :=
  cuts.foldl (fun dir n => backup.interrupted n dir) dir

end RestoredBackup

/-! ## What each step does -/

section Steps

variable {verify : SignedCert Signature → Bool} {backup : RestoredBackup verify Rest}
  {dir after : DataDir Signature Rest Ledger} {net : NetworkFile Rest}

namespace RestoredBackup

/-- The network can be in a backup. -/
structure Checked (net : NetworkFile Rest) : Prop where
  valid : isValidNetName net.name = true
  keyed : net.networkPublicKey.isSome || net.networkSecretKey.isSome

theorem checkNetwork_ok : checkNetwork net dir = .ok after ↔ Checked net ∧ after = dir := by
  unfold checkNetwork
  rw [bind_ok_iff]
  simp only [ConfigTree.loadNetwork_ok, ensure_ok_iff]
  constructor
  · rintro ⟨_, ⟨valid, -⟩, keyed, ok⟩
    exact ⟨⟨valid, keyed⟩, (Except.ok.inj ok).symm⟩
  · rintro ⟨⟨valid, keyed⟩, rfl⟩
    exact ⟨_, ⟨valid, rfl⟩, keyed, rfl⟩

theorem deleteOld_ok : deleteOld net dir = .ok after ↔
    isValidNetName net.name = true ∧ after = dir.mapNetworks (Finmap.erase net.name) := by
  rw [deleteOld, DataDir.onConfig, map_ok_iff]
  simp only [ConfigTree.deleteNetwork_ok, and_assoc, exists_and_left, exists_eq_left,
    DataDir.mapNetworks]

theorem save_ok : dir.onConfig (·.saveNetwork net) = .ok after ↔
    isValidNetName net.name = true ∧ dir.config.Undestroyed net ∧
      after = dir.mapNetworks (Finmap.insert net.name net) := by
  rw [DataDir.onConfig, map_ok_iff]
  simp only [ConfigTree.saveNetwork_ok, and_assoc, exists_and_left, exists_eq_left,
    DataDir.mapNetworks]

theorem restoreCert_replace (dir : DataDir Signature Rest Ledger) :
    backup.restoreCert false dir = .ok { dir with deviceCert := backup.deviceCert } := by
  unfold restoreCert
  cases backup.deviceCert with
  | none | some cert => rfl

theorem loadDeviceCert_ok :
    dir.loadDeviceCert verify = .ok found ↔
      (∀ cert ∈ dir.deviceCert, verify cert = true) ∧ found = dir.deviceCert := by
  unfold DataDir.loadDeviceCert
  cases dir.deviceCert with
  | none =>
    constructor
    · rintro ⟨⟩
      exact ⟨fun _ absent => (nomatch absent), rfl⟩
    · rintro ⟨-, rfl⟩
      rfl
  | some cert =>
    rw [ensure_ok_iff]
    constructor
    · rintro ⟨valid, ⟨⟩⟩
      exact ⟨fun _ held => Option.some.inj held ▸ valid, rfl⟩
    · rintro ⟨valid, rfl⟩
      exact ⟨valid cert rfl, rfl⟩

/-- The certificate that is there after a restore of the same identity. -/
def certAfter (backup : RestoredBackup verify Rest) (dir : DataDir Signature Rest Ledger) :
    Option (SignedCert Signature) :=
  match backup.deviceCert with
  | some cert => if dir.deviceCert.any (keepsExisting cert) then dir.deviceCert else some cert
  | none => dir.deviceCert

theorem certAfter_eq_iff : backup.certAfter dir = backup.deviceCert ↔
    ∀ found ∈ dir.deviceCert, backup.deviceCert = some found ∨
      ∃ cert ∈ backup.deviceCert, keepsExisting cert found = false := by
  unfold certAfter
  cases backup.deviceCert with
  | none => cases dir.deviceCert <;> simp
  | some cert =>
    cases dir.deviceCert with
    | none => simp
    | some found =>
      by_cases keeps : keepsExisting cert found = true
      · simpa [keeps] using eq_comm
      · simp [keeps]

theorem restoreCert_keep : backup.restoreCert true dir = .ok after ↔
    (backup.deviceCert.isSome → ∀ cert ∈ dir.deviceCert, verify cert = true) ∧
      after = { dir with deviceCert := backup.certAfter dir } := by
  unfold restoreCert certAfter
  cases backup.deviceCert with
  | none =>
    constructor
    · rintro ⟨⟩
      exact ⟨fun absent => (nomatch absent), rfl⟩
    · rintro ⟨-, rfl⟩
      rfl
  | some cert =>
    dsimp only
    rw [if_pos rfl, bind_ok_iff]
    simp only [loadDeviceCert_ok, Bool.true_and]
    constructor
    · rintro ⟨_, ⟨valid, rfl⟩, ok⟩
      refine ⟨fun _ => valid, ?_⟩
      split at ok
      · next keeps =>
        rw [if_pos keeps]
        exact (Except.ok.inj ok).symm
      · next replaces =>
        rw [if_neg replaces]
        exact (Except.ok.inj ok).symm
    · rintro ⟨valid, rfl⟩
      refine ⟨_, ⟨valid rfl, rfl⟩, ?_⟩
      split
      · rfl
      · rfl

theorem saveRestored_keep : saveRestored true net dir = .ok after ↔
    isValidNetName net.name = true ∧
      ((dir.config.networks.lookup net.name).isSome ∧ after = dir ∨
        dir.config.networks.lookup net.name = none ∧ dir.config.Undestroyed net ∧
          after = dir.mapNetworks (Finmap.insert net.name net)) := by
  unfold saveRestored
  rw [if_pos rfl, bind_ok_iff]
  simp only [ConfigTree.loadNetwork_ok]
  constructor
  · rintro ⟨_, ⟨valid, rfl⟩, ok⟩
    refine ⟨valid, ?_⟩
    split at ok
    · next missing =>
      obtain ⟨-, kept, rfl⟩ := save_ok.mp ok
      exact .inr ⟨Option.isNone_iff_eq_none.mp missing, kept, rfl⟩
    · next present =>
      refine .inl ⟨?_, (Except.ok.inj ok).symm⟩
      rwa [Option.isNone_iff_eq_none, ← ne_eq, Option.ne_none_iff_isSome] at present
  · rintro ⟨valid, ⟨present, rfl⟩ | ⟨missing, kept, rfl⟩⟩
    · refine ⟨_, ⟨valid, rfl⟩, if_neg ?_⟩
      rw [Option.isNone_iff_eq_none, ← ne_eq, Option.ne_none_iff_isSome]
      exact present
    · refine ⟨_, ⟨valid, rfl⟩, ?_⟩
      rw [missing]
      exact save_ok.mpr ⟨valid, kept, rfl⟩

/-! ## A restore of the identity that is there -/

variable {step : DataDir Signature Rest Ledger → Except ConfigError (DataDir Signature Rest Ledger)}
  {start : DataDir Signature Rest Ledger}

theorem mem_keepSteps :
    step ∈ backup.keepSteps ↔ (∃ net ∈ backup.networks, checkNetwork net = step) ∨
      step = backup.restoreCert true ∨ ∃ net ∈ backup.networks, saveRestored true net = step := by
  simp only [keepSteps, List.mem_append, List.mem_cons, List.mem_map]

theorem keepsExisting_refl (cert : SignedCert Signature) : keepsExisting cert cert = true := by
  simp [keepsExisting]

/-- The certificate step has nothing left to do. -/
theorem restoreCert_settled : backup.restoreCert true dir = .ok dir ↔
    ∀ cert ∈ backup.deviceCert, ∃ current ∈ dir.deviceCert,
      verify current = true ∧ keepsExisting cert current = true := by
  rw [restoreCert_keep]
  constructor
  · rintro ⟨valid, same⟩ cert held
    have certs : dir.deviceCert = backup.certAfter dir := congrArg DataDir.deviceCert same
    unfold certAfter at certs
    rw [held] at certs
    dsimp only at certs
    have valid := valid (held ▸ rfl)
    cases present : dir.deviceCert with
    | none =>
      rw [present] at certs
      cases certs
    | some current =>
      refine ⟨current, rfl, valid current present, ?_⟩
      rw [present] at certs
      split at certs
      · next keeps => exact keeps
      · rw [Option.some.inj certs]
        exact keepsExisting_refl cert
  · intro settled
    unfold certAfter
    cases held : backup.deviceCert with
    | none => exact ⟨fun absent => (nomatch absent), rfl⟩
    | some cert =>
      obtain ⟨current, present, valid, keeps⟩ := settled cert held
      refine ⟨fun _ other there => ?_, ?_⟩
      · rw [present] at there
        exact Option.some.inj there ▸ valid
      · dsimp only
        rw [present, if_pos]
        · rw [← present]
        · exact keeps

theorem saveRestored_settled : saveRestored true net dir = .ok dir ↔
    isValidNetName net.name = true ∧ (dir.config.networks.lookup net.name).isSome := by
  rw [saveRestored_keep]
  refine and_congr_right fun _ => ⟨?_, fun present => .inl ⟨present, rfl⟩⟩
  rintro (⟨present, -⟩ | ⟨missing, -, same⟩)
  · exact present
  · have networks : dir.config.networks = Finmap.insert net.name net dir.config.networks :=
      congrArg (fun dir => dir.config.networks) same
    rw [networks, Finmap.lookup_insert]
    rfl

/-- What a step of such a restore does to the certificate and the networks. -/
theorem keepStep_cases (member : step ∈ backup.keepSteps) (ok : step dir = .ok after) :
    after = dir ∨ after = { dir with deviceCert := backup.certAfter dir } ∨
      ∃ net ∈ backup.networks, dir.config.networks.lookup net.name = none ∧
        after = dir.mapNetworks (Finmap.insert net.name net) := by
  rcases mem_keepSteps.mp member with ⟨net, _, rfl⟩ | rfl | ⟨net, listed, rfl⟩
  · exact .inl (checkNetwork_ok.mp ok).2
  · exact .inr (.inl (restoreCert_keep.mp ok).2)
  · obtain ⟨-, ⟨-, same⟩ | ⟨missing, -, rfl⟩⟩ := saveRestored_keep.mp ok
    · exact .inl same
    · exact .inr (.inr ⟨net, listed, missing, rfl⟩)

/-- A step that is done has nothing left to do, and keeps having nothing to do. -/
theorem settling_keepSteps (backup : RestoredBackup verify Rest) :
    Steps.Settling (backup.keepSteps : List (DataDir Signature Rest Ledger → _)) where
  settles step member dir after ok := by
    rcases mem_keepSteps.mp member with ⟨net, _, rfl⟩ | rfl | ⟨net, _, rfl⟩
    · exact checkNetwork_ok.mpr ⟨(checkNetwork_ok.mp ok).1, rfl⟩
    · obtain ⟨valid, rfl⟩ := restoreCert_keep.mp ok
      refine restoreCert_settled.mpr fun cert held => ?_
      have valid := valid (held ▸ rfl)
      have certs : backup.certAfter dir =
          if dir.deviceCert.any (keepsExisting cert) then dir.deviceCert else some cert := by
        rw [certAfter, held]
      rw [certs]
      cases present : dir.deviceCert with
      | none => exact ⟨cert, rfl, backup.verified cert held, keepsExisting_refl cert⟩
      | some current =>
        split
        · next keeps => exact ⟨current, rfl, valid current present, keeps⟩
        · exact ⟨cert, rfl, backup.verified cert held, keepsExisting_refl cert⟩
    · obtain ⟨name, ⟨present, rfl⟩ | ⟨-, -, rfl⟩⟩ := saveRestored_keep.mp ok
      · exact ok
      · refine saveRestored_settled.mpr ⟨name, ?_⟩
        rw [DataDir.mapNetworks, Finmap.lookup_insert]
        rfl
  stays step member other listed dir after settled ok := by
    rcases mem_keepSteps.mp member with ⟨net, _, rfl⟩ | rfl | ⟨net, _, rfl⟩
    · exact checkNetwork_ok.mpr ⟨(checkNetwork_ok.mp settled).1, rfl⟩
    · rcases keepStep_cases listed ok with rfl | rfl | ⟨net, _, -, rfl⟩
      · exact settled
      · obtain same := (restoreCert_keep.mp settled).2
        rw [← same]
        exact settled
      · have held := restoreCert_settled.mp settled
        exact restoreCert_settled.mpr held
    · obtain ⟨name, present⟩ := saveRestored_settled.mp settled
      refine saveRestored_settled.mpr ⟨name, ?_⟩
      rcases keepStep_cases listed ok with rfl | rfl | ⟨saved, _, -, rfl⟩
      · exact present
      · exact present
      · rw [DataDir.mapNetworks]
        by_cases same : net.name = saved.name
        · rw [same, Finmap.lookup_insert]
          rfl
        · rwa [Finmap.lookup_insert_of_ne _ same]

/-! ## Complete runs -/

theorem foldl_mapNetworks (g : α → OrdMap Name (NetworkFile Rest) → OrdMap Name (NetworkFile Rest))
    (items : List α) (dir : DataDir Signature Rest Ledger) :
    items.foldl (fun dir a => dir.mapNetworks (g a)) dir =
      dir.mapNetworks fun networks => items.foldl (fun networks a => g a networks) networks := by
  induction items generalizing dir with
  | nil => rfl
  | cons a items ih =>
    rw [List.foldl_cons, ih]
    rfl

theorem run_checks : Steps.run (backup.networks.map checkNetwork) dir = (after, none) ↔
    (∀ net ∈ backup.networks, Checked net) ∧ after = dir := by
  rw [Steps.run_map_done (fun _ _ _ => checkNetwork_ok) fun _ _ _ => Iff.rfl, List.foldl_fixed]

variable (backup dir)

/-- The networks of the backup, by name. -/
def files : List (Name × NetworkFile Rest) :=
  backup.networks.map fun net => (net.name, net)

/-- The first network of the backup with this name. -/
def first (name : Name) : Option (NetworkFile Rest) :=
  (valuesAt name backup.files).head?

/-- The last network of the backup with this name. -/
def last (name : Name) : Option (NetworkFile Rest) :=
  (valuesAt name backup.files).getLast?

/-- The networks under the names that the saved ones have inside. -/
def listed (name : Name) : Prop :=
  ∃ old ∈ dir.config.load, old.name = name

instance (name : Name) : Decidable (listed dir name) :=
  inferInstanceAs (Decidable (∃ old ∈ dir.config.load, old.name = name))

/-- What replacing the identity leaves. -/
def replaced : DataDir Signature Rest Ledger where
  secretKey := some backup.secretKey
  deviceCert := backup.deviceCert
  config := { dir.config with
    networks := OrdMap.gather (fun _ net => net)
      (dir.config.load.foldl (fun networks old => Finmap.erase old.name networks)
        dir.config.networks) backup.files }

/-- What restoring the same identity leaves. -/
def kept : DataDir Signature Rest Ledger where
  secretKey := dir.secretKey
  deviceCert := backup.certAfter dir
  config := { dir.config with
    networks := OrdMap.gather (fun old net => old.getD net) dir.config.networks backup.files }

variable {backup dir}

theorem run_deletes {olds : List (NetworkFile Rest)} :
    Steps.run (olds.map deleteOld) dir = (after, none) ↔
      (∀ old ∈ olds, isValidNetName old.name = true) ∧ after = dir.mapNetworks fun networks =>
        olds.foldl (fun networks old => Finmap.erase old.name networks) networks := by
  have ok : ∀ (old : NetworkFile Rest) (dir after : DataDir Signature Rest Ledger),
      deleteOld old dir = .ok after ↔ isValidNetName old.name = true ∧
        after = dir.mapNetworks (Finmap.erase old.name) := fun _ _ _ => deleteOld_ok
  rw [Steps.run_map_done ok fun _ _ _ => Iff.rfl, foldl_mapNetworks]

theorem run_overwrites {nets : List (NetworkFile Rest)} :
    Steps.run (nets.map (saveRestored false)) dir = (after, none) ↔
      (∀ net ∈ nets, isValidNetName net.name = true ∧ dir.config.Undestroyed net) ∧
        after = dir.mapNetworks fun networks =>
          OrdMap.gather (fun _ net => net) networks (nets.map fun net => (net.name, net)) := by
  have ok : ∀ (net : NetworkFile Rest) (dir after : DataDir Signature Rest Ledger),
      saveRestored false net dir = .ok after ↔
        (isValidNetName net.name = true ∧ dir.config.Undestroyed net) ∧
          after = dir.mapNetworks (Finmap.insert net.name net) := by
    intro net dir after
    rw [and_assoc]
    exact save_ok
  rw [Steps.run_map_done ok fun _ _ _ => Iff.rfl, foldl_mapNetworks]
  simp only [OrdMap.gather, List.foldl_map]
  rfl

theorem replace_done : Steps.run (backup.replaceSteps dir) dir = (after, none) ↔
    (∀ net ∈ backup.networks, Checked net) ∧
    (∀ old ∈ dir.config.load, isValidNetName old.name = true) ∧
    (∀ net ∈ backup.networks, dir.config.Undestroyed net) ∧ after = backup.replaced dir := by
  unfold replaceSteps
  rw [Steps.run_cons_ok (show backup.installKey dir = .ok _ from rfl)]
  simp only [run_checks, Steps.run_append_done, run_deletes]
  constructor
  · rintro ⟨_, ⟨checked, rfl⟩, _, ⟨valid, rfl⟩, done⟩
    rw [Steps.run_cons_ok (restoreCert_replace _), run_overwrites] at done
    obtain ⟨saved, rfl⟩ := done
    exact ⟨checked, valid, fun net member => (saved net member).2, rfl⟩
  · rintro ⟨checked, valid, undestroyed, rfl⟩
    refine ⟨_, ⟨checked, rfl⟩, _, ⟨valid, rfl⟩, ?_⟩
    rw [Steps.run_cons_ok (restoreCert_replace _), run_overwrites]
    exact ⟨fun net member => ⟨(checked net member).valid, undestroyed net member⟩, rfl⟩

theorem run_fills {nets : List (NetworkFile Rest)} (valid : ∀ net ∈ nets, Checked net)
    (undestroyed : ∀ net ∈ nets, dir.config.Undestroyed net) :
    Steps.run (nets.map (saveRestored true)) dir = (dir.mapNetworks fun networks =>
      OrdMap.gather (fun old net => old.getD net) networks (nets.map fun net => (net.name, net)),
      none) := by
  induction nets generalizing dir with
  | nil => rfl
  | cons net nets ih =>
    have rest := fun net member => valid net (List.mem_cons_of_mem _ member)
    have saved : saveRestored true net dir = .ok (dir.mapNetworks fun networks =>
        networks.upsert net.name fun old => old.getD net) := by
      refine saveRestored_keep.mpr ⟨(valid net List.mem_cons_self).valid, ?_⟩
      cases held : dir.config.networks.lookup net.name with
      | none =>
        refine .inr ⟨rfl, undestroyed net List.mem_cons_self, ?_⟩
        simp only [DataDir.mapNetworks, OrdMap.upsert, held, Option.getD_none]
      | some file =>
        refine .inl ⟨rfl, ?_⟩
        have same : (dir.config.networks.upsert net.name fun old => old.getD net) =
            dir.config.networks := by
          refine Finmap.ext_lookup fun name => ?_
          rw [OrdMap.lookup_upsert]
          split
          · next here =>
            rw [here, held]
            rfl
          · rfl
        simp only [DataDir.mapNetworks, same]
    rw [List.map_cons, Steps.run_cons_ok saved, ih rest]
    · rfl
    · exact fun net member => undestroyed net (List.mem_cons_of_mem _ member)

theorem keep_done (checked : ∀ net ∈ backup.networks, Checked net)
    (undestroyed : ∀ net ∈ backup.networks, dir.config.Undestroyed net) :
    Steps.run backup.keepSteps dir = (after, none) ↔
      (backup.deviceCert.isSome → ∀ cert ∈ dir.deviceCert, verify cert = true) ∧
        after = backup.kept dir := by
  unfold keepSteps
  rw [Steps.run_append_ok (run_checks.mpr ⟨checked, rfl⟩), Steps.run_cons_done]
  simp only [restoreCert_keep, and_assoc, exists_and_left, exists_eq_left]
  refine and_congr_right fun _ => ?_
  have fills : Steps.run (backup.networks.map (saveRestored true))
      { dir with deviceCert := backup.certAfter dir } = (backup.kept dir, none) :=
    run_fills checked undestroyed
  rw [fills]
  constructor
  · rintro ⟨⟩
    rfl
  · rintro rfl
    rfl

/-! ## What interrupted restores leave -/

theorem lookup_erased (olds : List (NetworkFile Rest)) (networks : OrdMap Name (NetworkFile Rest))
    (name : Name) :
    (olds.foldl (fun networks old => Finmap.erase old.name networks) networks).lookup name =
      if ∃ old ∈ olds, old.name = name then none else networks.lookup name := by
  induction olds generalizing networks with
  | nil => simp
  | cons old olds ih =>
    rw [List.foldl_cons, ih]
    by_cases same : old.name = name
    · subst same
      simp
    · simp only [List.mem_cons, exists_eq_or_imp, same, false_or,
        Finmap.lookup_erase_ne (Ne.symm same)]

section

variable (backup dir)

theorem lookup_kept (name : Name) :
    (backup.kept dir).config.networks.lookup name =
      (dir.config.networks.lookup name).or (backup.first name) := by
  have found : ∀ (nets : List (NetworkFile Rest)) (start : Option (NetworkFile Rest)),
      nets.foldl (fun old net => some (old.getD net)) start = start.or nets.head? := by
    intro nets
    induction nets with
    | nil => exact fun start => (Option.or_none).symm
    | cons net nets ih =>
      intro start
      rw [List.foldl_cons, ih]
      cases start with
      | none | some file => rfl
  rw [kept, OrdMap.lookup_gather, found]
  rfl

theorem lookup_replaced (name : Name) :
    (backup.replaced dir).config.networks.lookup name =
      (backup.last name).or
        (if listed dir name then none else dir.config.networks.lookup name) := by
  have found : ∀ (nets : List (NetworkFile Rest)) (start : Option (NetworkFile Rest)),
      nets.foldl (fun _ net => some net) start = nets.getLast?.or start := by
    intro nets
    induction nets using List.reverseRecOn with
    | nil => exact fun start => rfl
    | append_singleton nets net ih =>
      intro start
      rw [List.foldl_append, List.getLast?_concat]
      rfl
  rw [replaced, OrdMap.lookup_gather, found, lookup_erased]
  rfl

end

/-- What a step can do once the key is installed. -/
inductive Effect (backup : RestoredBackup verify Rest)
    (start dir : DataDir Signature Rest Ledger) : DataDir Signature Rest Ledger → Prop where
  | nothing : Effect backup start dir dir
  | cert (cert : Option (SignedCert Signature)) :
      Effect backup start dir { dir with deviceCert := cert }
  | erased {old : NetworkFile Rest} : old ∈ start.config.load →
      Effect backup start dir (dir.mapNetworks (Finmap.erase old.name))
  | saved {net : NetworkFile Rest} : net ∈ backup.networks →
      Effect backup start dir (dir.mapNetworks (Finmap.insert net.name net))

theorem effect_of_keepSteps (member : step ∈ backup.keepSteps) (ok : step dir = .ok after) :
    Effect backup start dir after := by
  rcases keepStep_cases member ok with rfl | rfl | ⟨net, listed, -, rfl⟩
  · exact .nothing
  · exact .cert _
  · exact .saved listed

theorem effect_of_replaceSteps (member : step ∈ (backup.replaceSteps start).tail)
    (ok : step dir = .ok after) :
    Effect backup start dir after := by
  simp only [replaceSteps, List.tail_cons, List.mem_append, List.mem_cons, List.mem_map] at member
  rcases member with ⟨net, _, rfl⟩ | ⟨old, listed, rfl⟩ | rfl | ⟨net, listed, rfl⟩
  · obtain ⟨-, rfl⟩ := checkNetwork_ok.mp ok
    exact .nothing
  · obtain ⟨-, rfl⟩ := deleteOld_ok.mp ok
    exact .erased listed
  · rw [restoreCert_replace] at ok
    obtain rfl := Except.ok.inj ok
    exact .cert _
  · obtain ⟨-, -, rfl⟩ := save_ok.mp ok
    exact .saved listed

/-- A tree between the installed key and the end of the restore. -/
structure Between (backup : RestoredBackup verify Rest)
    (start dir : DataDir Signature Rest Ledger) : Prop where
  key : dir.secretKey = some backup.secretKey
  rest : dir.config = { start.config with networks := dir.config.networks }
  untouched : ∀ name, ¬listed start name → backup.last name = none →
    dir.config.networks.lookup name = start.config.networks.lookup name
  present : ∀ name, ¬listed start name → (start.config.networks.lookup name).isSome →
    (dir.config.networks.lookup name).isSome

theorem last_isSome (member : net ∈ backup.networks) : (backup.last net.name).isSome := by
  have listed : net ∈ valuesAt net.name backup.files :=
    mem_valuesAt.mpr (List.mem_map.mpr ⟨net, member, rfl⟩)
  rw [last, List.getLast?_isSome]
  exact List.ne_nil_of_mem listed

theorem between_of_effect (between : Between backup start dir)
    (effect : Effect backup start dir after) :
    Between backup start after := by
  cases effect with
  | nothing => exact between
  | cert cert => exact ⟨between.key, between.rest, between.untouched, between.present⟩
  | erased listed =>
    have other : ∀ name, ¬RestoredBackup.listed start name → name ≠ _ := fun name plain same =>
      plain ⟨_, listed, same.symm⟩
    refine ⟨between.key, ?_, fun name plain absent => ?_, fun name plain held => ?_⟩
    · unfold DataDir.mapNetworks
      rw [between.rest]
    · rw [DataDir.mapNetworks, Finmap.lookup_erase_ne (other name plain)]
      exact between.untouched name plain absent
    · rw [DataDir.mapNetworks, Finmap.lookup_erase_ne (other name plain)]
      exact between.present name plain held
  | @saved net listed =>
    refine ⟨between.key, ?_, fun name plain absent => ?_, fun name plain held => ?_⟩
    · unfold DataDir.mapNetworks
      rw [between.rest]
    · have other : name ≠ net.name := by
        rintro rfl
        have some := last_isSome listed
        rw [absent] at some
        cases some
      rw [DataDir.mapNetworks, Finmap.lookup_insert_of_ne _ other]
      exact between.untouched name plain absent
    · rw [DataDir.mapNetworks]
      by_cases same : name = net.name
      · rw [same, Finmap.lookup_insert]
        rfl
      · rw [Finmap.lookup_insert_of_ne _ same]
        exact between.present name plain held

theorem sameIdentity_of_between (between : Between backup start dir) :
    backup.sameIdentity dir = true := by
  rw [sameIdentity, between.key]
  exact beq_self_eq_true _

theorem attempts_snoc (backup : RestoredBackup verify Rest) (cuts : List Nat) (n : Nat)
    (dir : DataDir Signature Rest Ledger) :
    backup.attempts (cuts ++ [n]) dir = backup.interrupted n (backup.attempts cuts dir) :=
  List.foldl_append

/-- Interrupted restores that replace an identity leave everything as it was, or a tree in
between. -/
theorem attempts_replace (replaces : backup.sameIdentity dir = false) (cuts : List Nat) :
    backup.attempts cuts dir = dir ∨ Between backup dir (backup.attempts cuts dir) := by
  induction cuts using List.reverseRecOn with
  | nil => exact .inl rfl
  | append_singleton cuts n ih =>
    rw [attempts_snoc]
    generalize backup.attempts cuts dir = left at ih
    rw [interrupted, restoreSteps]
    rcases ih with rfl | between
    · rw [if_neg (Bool.not_eq_true _ ▸ replaces)]
      cases n with
      | zero => exact .inl rfl
      | succ n =>
        have installed : Between backup left (left.storeSecretKey backup.secretKey) :=
          ⟨rfl, rfl, fun _ _ _ => rfl, fun _ _ held => held⟩
        exact .inr (Steps.interrupted_preserves (fun step member dir after between ok =>
          between_of_effect between (effect_of_replaceSteps member ok)) n installed)
    · rw [if_pos (sameIdentity_of_between between)]
      exact .inr (Steps.interrupted_preserves (fun step member dir after between ok =>
        between_of_effect between (effect_of_keepSteps member ok)) n between)

/-- Interrupted restores of the identity that is there do not change what a complete one does. -/
theorem attempts_keep (same : backup.sameIdentity dir = true) (cuts : List Nat) :
    backup.sameIdentity (backup.attempts cuts dir) = true ∧
      backup.restore (backup.attempts cuts dir) = backup.restore dir := by
  induction cuts using List.reverseRecOn with
  | nil => exact ⟨same, rfl⟩
  | append_singleton cuts n ih =>
    rw [attempts_snoc]
    generalize backup.attempts cuts dir = left at ih
    obtain ⟨sameLeft, restored⟩ := ih
    have key : backup.sameIdentity (backup.interrupted n left) = true := by
      have each : ∀ step ∈ backup.keepSteps, ∀ dir after : DataDir Signature Rest Ledger,
          backup.sameIdentity dir = true → step dir = .ok after →
            backup.sameIdentity after = true := by
        intro step member dir after held ok
        rcases keepStep_cases member ok with rfl | rfl | ⟨net, _, -, rfl⟩
        · exact held
        · exact held
        · exact held
      rw [interrupted, restoreSteps, if_pos sameLeft]
      exact Steps.interrupted_preserves each n sameLeft
    refine ⟨key, ?_⟩
    rw [← restored, restore, restore, restoreSteps, if_pos key, interrupted, restoreSteps,
      if_pos sameLeft]
    exact Steps.run_interrupted (settling_keepSteps backup) n left

/-- Nothing that an interrupted restore left is in the way of the next one: each network file
is one that the restore leaves, the networks that are not saved yet are the only ones of their
name, and a certificate that is there is the backup's or one that is not kept, and can be
read. -/
structure Harmless (backup : RestoredBackup verify Rest)
    (start left : DataDir Signature Rest Ledger) : Prop where
  files : ∀ name file, left.config.networks.lookup name = some file →
    backup.last name = some file ∨ backup.last name = none ∧ ¬listed start name
  missing : ∀ name, left.config.networks.lookup name = none → backup.first name = backup.last name
  readable : backup.deviceCert.isSome → ∀ cert ∈ left.deviceCert, verify cert = true
  cert : ∀ found ∈ left.deviceCert, backup.deviceCert = some found ∨
    ∃ cert ∈ backup.deviceCert, keepsExisting cert found = false

end RestoredBackup

end Steps

/-! ## Running a restore again -/

section Retry

variable {verify : SignedCert Signature → Bool} {backup : RestoredBackup verify Rest}
  {dir after left : DataDir Signature Rest Ledger}

namespace RestoredBackup

variable (between : Between backup dir left)

include between

theorem kept_eq_replaced_iff :
    backup.kept left = backup.replaced dir ↔
      (∀ name, (left.config.networks.lookup name).or (backup.first name) =
        (backup.last name).or (if listed dir name then none
          else dir.config.networks.lookup name)) ∧
      backup.certAfter left = backup.deviceCert := by
  constructor
  · intro same
    refine ⟨fun name => ?_, congrArg DataDir.deviceCert same⟩
    rw [← lookup_kept, ← lookup_replaced, same]
  · rintro ⟨networks, cert⟩
    have networks : (backup.kept left).config.networks = (backup.replaced dir).config.networks :=
      Finmap.ext_lookup fun name => by rw [lookup_kept, lookup_replaced, networks]
    have config : (backup.kept left).config = (backup.replaced dir).config := by
      have rest : (backup.kept left).config =
          { dir.config with networks := (backup.kept left).config.networks } := by
        unfold kept
        rw [between.rest]
      rw [rest, networks]
      rfl
    have key : (backup.kept left).secretKey = (backup.replaced dir).secretKey := between.key
    exact DataDir.ext key cert config

/-- A file that is not there is not one that the restore keeps. -/
theorem Between.remains (missing : left.config.networks.lookup name = none) :
    (if listed dir name then none else dir.config.networks.lookup name) = none := by
  split
  · rfl
  · next plain =>
    by_contra held
    have present := between.present name plain (Option.ne_none_iff_isSome.mp held)
    rw [missing] at present
    cases present

theorem networks_iff :
    (∀ name, (left.config.networks.lookup name).or (backup.first name) =
      (backup.last name).or (if listed dir name then none
        else dir.config.networks.lookup name)) ↔
      (∀ name file, left.config.networks.lookup name = some file →
        backup.last name = some file ∨ backup.last name = none ∧ ¬listed dir name) ∧
      ∀ name, left.config.networks.lookup name = none → backup.first name = backup.last name := by
  constructor
  · intro same
    refine ⟨fun name file held => ?_, fun name missing => ?_⟩
    · have same := same name
      rw [held] at same
      cases saved : backup.last name with
      | some net =>
        rw [saved] at same
        exact .inl same.symm
      | none =>
        refine .inr ⟨rfl, fun old => ?_⟩
        rw [saved, if_pos old] at same
        cases same
    · have same := same name
      rw [missing, between.remains missing, Option.or_none] at same
      exact same
  · rintro ⟨files, unsaved⟩ name
    cases held : left.config.networks.lookup name with
    | none => rw [Option.none_or, between.remains held, Option.or_none, unsaved name held]
    | some file =>
      rcases files name file held with saved | ⟨absent, plain⟩
      · rw [saved]
        rfl
      · rw [absent, if_neg plain, ← between.untouched name plain absent, held]
        rfl

end RestoredBackup

open RestoredBackup

/-- A restore that was interrupted any number of times, at any points, ends as the
uninterrupted one exactly if the identity was already there, or no attempt got as far as
installing it, or what the attempts left is harmless. The uninterrupted one leaves the
backup's certificate, and the backup's networks and no others. -/
theorem restore_retry_iff (done : backup.restore dir = (after, none)) :
    (∀ cuts, backup.restore (backup.attempts cuts dir) = (after, none) ↔
      backup.sameIdentity dir = true ∨ backup.sameIdentity (backup.attempts cuts dir) = false ∨
        backup.Harmless dir (backup.attempts cuts dir)) ∧
    (backup.sameIdentity dir = false → after.secretKey = some backup.secretKey ∧
      after.deviceCert = backup.deviceCert ∧
      ((∀ name file, dir.config.networks.lookup name = some file → file.name = name) →
        ∀ name, after.config.networks.lookup name = backup.last name)) := by
  cases same : backup.sameIdentity dir with
  | true =>
    refine ⟨fun cuts => iff_of_true ?_ (.inl rfl), fun other => (nomatch other)⟩
    rw [(attempts_keep same cuts).2, done]
  | false =>
    have run := done
    rw [restore, restoreSteps, if_neg (Bool.not_eq_true _ ▸ same), replace_done] at run
    obtain ⟨checked, valid, undestroyed, rfl⟩ := run
    refine ⟨fun cuts => ?_, fun _ => ⟨rfl, rfl, fun named name => ?_⟩⟩
    · rw [or_iff_right Bool.false_ne_true]
      rcases attempts_replace same cuts with unchanged | between
      · rw [unchanged]
        exact iff_of_true done (.inl same)
      · have installed := sameIdentity_of_between between
        generalize backup.attempts cuts dir = left at between installed ⊢
        have kept : ∀ net ∈ backup.networks, left.config.Undestroyed net := by
          rw [between.rest]
          exact undestroyed
        have unlike : ¬backup.sameIdentity left = false := Bool.not_eq_false _ ▸ installed
        rw [or_iff_right unlike, restore, restoreSteps,
          if_pos installed, keep_done checked kept, @eq_comm _ (backup.replaced dir),
          kept_eq_replaced_iff between, networks_iff between, certAfter_eq_iff]
        constructor
        · rintro ⟨readable, ⟨files, missing⟩, cert⟩
          exact ⟨files, missing, readable, cert⟩
        · rintro ⟨files, missing, readable, cert⟩
          exact ⟨readable, ⟨files, missing⟩, cert⟩
    · rw [lookup_replaced]
      split
      · exact Option.or_none
      · next plain =>
        have absent : dir.config.networks.lookup name = none := by
          by_contra held
          obtain ⟨file, held⟩ := Option.ne_none_iff_exists'.mp held
          exact plain ⟨file, (dir.config.mem_load).mpr ⟨name, held⟩, named name file held⟩
        rw [absent, Option.or_none]

end Retry

/-- The key of the other identity, and one of its networks. -/
def oldKey : SecretKey := ⟨1, 1⟩

def oldNetwork : NetworkFile Unit := ⟨"home".toList, some 7, none, ()⟩

def oldDir : DataDir Unit Unit Unit where
  secretKey := some oldKey
  deviceCert := none
  config :=
    { networks := Finmap.singleton "home".toList oldNetwork
      invites := ∅
      firewall := ⟨.deny, .allow, false, false, []⟩
      intent := none
      destroyed := ∅ }

/-- A backup of an identity with one network. -/
def newBackup : RestoredBackup (fun _ : SignedCert Unit => true) Unit where
  secretKey := ⟨2, 2⟩
  deviceCert := none
  networks := [⟨"work".toList, some 8, none, ()⟩]
  verified _ held := nomatch held
  bound _ held := nomatch held

/-- Interrupted after the old network was deleted: the next restore ends as it should. -/
theorem restore_retry_deleted : ∃ after, newBackup.restore oldDir = (after, none) ∧
    newBackup.restore (newBackup.attempts [3] oldDir) = (after, none) := by
  have ran : (newBackup.restore oldDir).2 = none := by decide +kernel
  have empty : (newBackup.attempts [3] oldDir).config.networks = ∅ := by decide +kernel
  refine ⟨_, Prod.ext rfl ran, ((restore_retry_iff (Prod.ext rfl ran)).1 [3]).mpr
    (.inr (.inr ⟨fun name file held => ?_, fun name _ => ?_, nofun, nofun⟩))⟩
  · rw [empty] at held
    cases held
  · simp only [RestoredBackup.first, RestoredBackup.last, RestoredBackup.files, newBackup,
      List.map_cons, valuesAt_cons]
    split
    · rfl
    · rfl

/-- Interrupted after the key was installed: the next restore keeps the old network. -/
theorem old_networks_stay : ∃ after, newBackup.restore oldDir = (after, none) ∧
    after.config.networks.lookup "home".toList = none ∧
    ∃ again, newBackup.restore (newBackup.attempts [1] oldDir) = (again, none) ∧
      again.secretKey = some newBackup.secretKey ∧
      again.config.networks.lookup "home".toList = some oldNetwork := by
  have first : (newBackup.restore oldDir).2 = none ∧
      (newBackup.restore oldDir).1.config.networks.lookup "home".toList = none := by
    decide +kernel
  have second : (newBackup.restore (newBackup.attempts [1] oldDir)).2 = none ∧
      (newBackup.restore (newBackup.attempts [1] oldDir)).1.secretKey = some newBackup.secretKey ∧
      (newBackup.restore (newBackup.attempts [1] oldDir)).1.config.networks.lookup "home".toList =
        some oldNetwork := by
    decide +kernel
  exact ⟨_, Prod.ext rfl first.1, first.2, _, Prod.ext rfl second.1, second.2⟩

end Rayfish
