import Rayfish.Firewall.Rules
import Rayfish.Lib.MapFold
import Rayfish.Lib.Steps
import Rayfish.Mesh.Group

/-!
# The config tree

The files a daemon keeps (`config.rs`): each network's config and invite ledger under the
network's local name, the firewall rules, a rename under way, and the proofs that a network
was destroyed. A network's config holds its name once more, and the two can differ while a
rename is under way: a network is listed under the name inside its file, and loaded,
updated and deleted under the name of the file.
-/

namespace Rayfish

open Lib

/-- A key pair. `publicKey` is what its bytes derive. -/
structure SecretKey where
  bytes : BitVec 256
  publicKey : EndpointId
  deriving DecidableEq

/-- The config of a network. `rest` stands for the fields that are only carried along. -/
structure NetworkFile (Rest : Type) where
  name : Name
  networkPublicKey : Option EndpointId
  networkSecretKey : Option SecretKey
  rest : Rest
  deriving DecidableEq

structure RenameIntent where
  source : Name
  target : Name

structure ConfigTree (Rest Ledger : Type) where
  networks : OrdMap Name (NetworkFile Rest)
  invites : OrdMap Name Ledger
  firewall : FirewallConfig
  intent : Option RenameIntent
  /-- The networks with a saved destruction proof. -/
  destroyed : Finset EndpointId

inductive ConfigError where
  | invalidName (name : Name)
  | networkDestroyed
  | mismatchedName (file inner : Name)
  | nameTaken (name : Name)
  | renameUnfinished (pending : RenameIntent)
  | networkWithoutKey
  | invalidCertificate

variable {Rest Ledger : Type}

/-- The key a network is known by. -/
def NetworkFile.key (net : NetworkFile Rest) : Option EndpointId :=
  net.networkPublicKey.or (net.networkSecretKey.map SecretKey.publicKey)

def isValidNetName (name : Name) : Bool :=
  !(name.isEmpty || name.length > 64 || !name.all fun c => c.isLower || c.isDigit || c == '-')

def validateNetName (name : Name) : Except ConfigError Unit :=
  if isValidNetName name then .ok () else .error (.invalidName name)

theorem validateNetName_return :
    (do validateNetName name; return x) = .ok y ↔ isValidNetName name = true ∧ y = x := by
  unfold validateNetName
  split
  · next valid =>
    rw [and_iff_right valid]
    exact ⟨fun ok => (Except.ok.inj ok).symm, fun same => congrArg Except.ok same.symm⟩
  · next invalid =>
    exact ⟨fun failed => (nomatch failed), fun ⟨valid, _⟩ => absurd valid invalid⟩

namespace ConfigTree

variable (tree : ConfigTree Rest Ledger)

/-- The saved networks, in the order of their names. The source sorts the paths, so that
`lab-2.toml` comes before `lab.toml`; nothing here depends on it. -/
def load : List (NetworkFile Rest) := (OrdMap.iter (· ≤ ·) tree.networks).map Prod.snd

def loadNetwork (name : Name) : Except ConfigError (Option (NetworkFile Rest)) := do
  validateNetName name
  return tree.networks.lookup name

def saveNetwork (net : NetworkFile Rest) : Except ConfigError (ConfigTree Rest Ledger) := do
  validateNetName net.name
  match net.key with
  | some key => if key ∈ tree.destroyed then .error .networkDestroyed
  | none => pure ()
  return { tree with networks := Finmap.insert net.name net tree.networks }

def deleteNetwork (name : Name) : Except ConfigError (ConfigTree Rest Ledger) := do
  validateNetName name
  return { tree with networks := Finmap.erase name tree.networks }

theorem loadNetwork_ok :
    tree.loadNetwork name = .ok found ↔
      isValidNetName name = true ∧ found = tree.networks.lookup name :=
  validateNetName_return

theorem deleteNetwork_ok :
    tree.deleteNetwork name = .ok after ↔ isValidNetName name = true ∧
      after = { tree with networks := Finmap.erase name tree.networks } :=
  validateNetName_return

/-- No proof is saved for the network. -/
def Undestroyed (net : NetworkFile Rest) : Prop := ∀ key ∈ net.key, key ∉ tree.destroyed

theorem saveNetwork_ok :
    tree.saveNetwork net = .ok after ↔ isValidNetName net.name = true ∧ tree.Undestroyed net ∧
      after = { tree with networks := Finmap.insert net.name net tree.networks } := by
  unfold saveNetwork validateNetName Undestroyed
  split
  · next valid =>
    rw [and_iff_right valid]
    cases net.key with
    | none =>
      refine ⟨fun ok => ⟨fun _ member => (nomatch member), (Except.ok.inj ok).symm⟩, ?_⟩
      rintro ⟨-, rfl⟩
      rfl
    | some key =>
      by_cases gone : key ∈ tree.destroyed
      · constructor
        · intro failed
          simp only [gone] at failed
          cases failed
        · rintro ⟨kept, -⟩
          exact absurd gone (kept key rfl)
      · constructor
        · intro ok
          simp only [gone] at ok
          refine ⟨?_, (Except.ok.inj ok).symm⟩
          rintro _ ⟨⟩
          exact gone
        · rintro ⟨-, rfl⟩
          simp only [gone]
          rfl
  · next invalid =>
    exact ⟨fun failed => (nomatch failed), fun ⟨valid, _⟩ => absurd valid invalid⟩

theorem mem_load : net ∈ tree.load ↔ ∃ file, tree.networks.lookup file = some net := by
  simp only [load, List.mem_map, Prod.exists, OrdMap.mem_iter, exists_eq_right]

end ConfigTree

end Rayfish
