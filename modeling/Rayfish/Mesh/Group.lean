import Mathlib.Data.Char
import Mathlib.Data.List.Lex
import Rayfish.ExitNode
import Rayfish.Lib.KeyedMap

/-!
# The group blob

What a network's coordinator signs (`membership.rs`): the members, the approved
joiners, the suggested firewall, the reusable join keys and the nullified devices.
`GroupCodec` is what the rest assumes of its encoding: a hash names at most one
blob, and the hash of a blob names that blob.
-/

namespace Rayfish

open Lib

abbrev Name := List Char

-- named once, so that every module compares and sorts names and keys by the same terms
instance Name.lawfulBEq : LawfulBEq Name := inferInstance

instance Name.total : Std.Total fun a b : Name => a ≤ b := inferInstance

instance Name.isTrans : IsTrans Name fun a b => a ≤ b := inferInstance

instance Name.antisymm : Std.Antisymm fun a b : Name => a ≤ b := inferInstance

instance EndpointId.total : Std.Total fun a b : EndpointId => a ≤ b := inferInstance

instance EndpointId.isTrans : IsTrans EndpointId fun a b => a ≤ b := inferInstance

instance EndpointId.antisymm : Std.Antisymm fun a b : EndpointId => a ≤ b := inferInstance

/-- A primary's signature over one of its devices. -/
structure DeviceCert where
  userIdentity : EndpointId
  deviceKey : EndpointId
  generation : Nat
  deriving DecidableEq

structure Member where
  identity : EndpointId
  isCoordinator : Bool
  hostname : Option Name
  userIdentity : Option EndpointId
  deviceCert : Option DeviceCert
  lastSeen : Option Nat
  exitNode : Bool
  exitFamilies : ExitFamilies
  deriving DecidableEq

abbrev MemberList := KeyedMap Member.identity

namespace MemberList

def isMember (members : MemberList) (id : EndpointId) : Bool := (members.get id).isSome

end MemberList

/-- Approved by a coordinator, not connected yet. -/
structure ApprovedEntry where
  identity : EndpointId
  hostname : Option Name
  userIdentity : Option EndpointId
  deviceCert : Option DeviceCert
  deriving DecidableEq

abbrev ApprovedList := KeyedMap ApprovedEntry.identity

namespace ApprovedList

def isApproved (approved : ApprovedList) (id : EndpointId) : Bool := (approved.get id).isSome

end ApprovedList

structure HostSuggestions where
  allows : OrdMap Name Name
  denies : OrdMap Name Name
  deriving DecidableEq

abbrev SuggestedFirewall := OrdMap Name HostSuggestions

/-- A join key, published under the hash of its secret. -/
structure ReusableKey where
  id : Name
  created : Nat
  expires : Nat
  revoked : Bool
  deriving DecidableEq

structure GroupBlob where
  members : MemberList
  approved : ApprovedList
  suggestedFirewall : SuggestedFirewall
  name : Option Name
  reusableKeys : OrdMap Name ReusableKey
  nullifiers : Finset EndpointId
  deriving DecidableEq

/-- The encoding and the hash of a blob, with what an unforgeable content hash
gives: `named` is the blob a hash's bytes decode to, whoever serves them. -/
structure GroupCodec (Hash : Type) where
  groupBlobHash : GroupBlob → Hash
  named : Hash → Option GroupBlob
  named_hash : ∀ group, named (groupBlobHash group) = some group

/-- This device's certificate is nullified by its own primary: a foreign network
that lists our key does not count. -/
def selfIsNullified (cert : DeviceCert) (members : MemberList) (nullifiers : Finset EndpointId) :
    Bool :=
  decide (cert.deviceKey ∈ nullifiers) &&
    members.any fun m => m.isCoordinator && m.identity == cert.userIdentity

/-- The blob lists us, as a member or as approved. -/
def GroupBlob.lists (data : GroupBlob) (id : EndpointId) : Bool :=
  data.members.isMember id || data.approved.isApproved id

/-- The certificate that `data` nullifies, if it is ours. -/
def GroupBlob.nullifiedCert (data : GroupBlob) (cert : Option DeviceCert) : Option DeviceCert :=
  cert.filter fun cert => selfIsNullified cert data.members data.nullifiers

/-- Applying `data` would take this node out of the network. -/
def blobRemovesUs (data : GroupBlob) (me : EndpointId) (cert : Option DeviceCert) : Bool :=
  !data.lists me || (data.nullifiedCert cert).isSome

end Rayfish
