import Mathlib.Logic.Function.Basic
import Rayfish.Lib.Run

/-!
# Direct connections

`ray connect` between two peers (`connect_service.rs`): one asks, the other approves, and
the approval mints a network for the two. When both ask and both approve, the peer with the
higher id is to mint. What each side remembers of this is in memory: a request it received,
the network it minted for one, and a request of its own that has not ended. The networks
themselves are saved, and are running again some time after a restart.

A request and its reply can be lost or late, `connect` and `approve` can be called again
while earlier calls are under way, and either daemon can restart.
-/

namespace Rayfish.Connect

open Lib

/-- The two peers, by the order of their endpoint ids. -/
inductive Side where
  | low
  | high
  deriving DecidableEq

def Side.other : Side → Side
  | .low => .high
  | .high => .low

inductive ConnectMsg where
  | approved (room : Nat)
  | pending
  | denied
  deriving DecidableEq

/-- A saved network that links the peers. -/
structure DirectNetwork where
  key : Nat
  /-- The network is marked as a direct one in its config. -/
  direct : Bool
  coordinator : Bool

inductive JoinResult where
  /-- With the network's key, as a coordinator of it, or without. -/
  | joined (coordinator : Bool)
  /-- The join waits for approval, in the background. -/
  | queued
  | failed
  deriving DecidableEq

/-- What the loop that asks again does. -/
inductive Retry where
  | off
  | sleeping
  | asking
  | joining (room : Nat)
  deriving DecidableEq

structure ConnectNode where
  /-- `pending_connects` holds the peer. -/
  pending : Bool
  approved : Option Nat
  outgoing : Bool
  rejected : Bool
  /-- The calls of `connect` that wait for a reply. -/
  calls : Nat
  retry : Retry
  /-- The networks that calls of `connect` are joining. -/
  joins : List Nat
  queued : List Nat
  /-- The calls of `approve` that mint a network, each with the key of the one it saved. -/
  approving : List (Option Nat)
  saved : List DirectNetwork
  running : List Nat

namespace ConnectNode

variable (node : ConnectNode)

def existingDirectNetworkWith : Option DirectNetwork :=
  node.saved.find? fun net => net.direct && node.running.contains net.key

def coordinatedDirectNetworkWith : Option Nat :=
  node.existingDirectNetworkWith.bind fun net => if net.coordinator then some net.key else none

/-- What a request of the peer is answered with. -/
def connectReply (admitted : Bool) : ConnectMsg × ConnectNode :=
  if admitted = false then (.denied, node)
  else if node.rejected then (.denied, node)
  else
    match node.approved.or node.coordinatedDirectNetworkWith with
    | some room => (.approved room, node)
    | none => (.pending, { node with pending := true })

/-- The loop that asks again, unless one runs. -/
def spawnConnectRetry : ConnectNode :=
  if node.retry = .off then { node with retry := .sleeping } else node

/-- A network of the peer that has been joined. It is marked as direct afterwards. -/
def joinedNetwork (room : Nat) (coordinator : Bool) : ConnectNode :=
  { node with saved := ⟨room, false, coordinator⟩ :: node.saved, running := room :: node.running }

/-- A new daemon: what is not saved is forgotten, and no network runs yet. -/
def restarted : ConnectNode :=
  { pending := false
    approved := none
    outgoing := false
    rejected := false
    calls := 0
    retry := .off
    joins := []
    queued := node.queued
    approving := []
    saved := node.saved
    running := [] }

end ConnectNode

inductive NodeAct where
  | connect
  | answer (msg : ConnectMsg)
  | lost
  | join (room : Nat) (result : JoinResult)
  | retryAsk
  | retryAnswer (msg : ConnectMsg)
  | retryLost
  | retryJoin (result : JoinResult)
  | finishQueued (room : Nat) (coordinator : Bool)
  | flag (key : Nat)
  | approve
  | mint (task : Nat)
  | install (task : Nat)
  | approveFailed (task : Nat)
  /-- The request is pushed out by others, or its sender is blocked. -/
  | evict
  | reject
  /-- A denial has been delivered. -/
  | forgetRejection
  | restart
  | restore (key : Nat)
  deriving DecidableEq

inductive ConnectOut where
  | quiet
  | asked
  | minted (key : Nat)
  deriving DecidableEq

section Step

variable (side : Side) (fresh : Nat) (node : ConnectNode)

/-- `approve_connection` up to the network it mints. -/
def approveConnection : Option ConnectNode :=
  if node.pending = false then none
  else if node.existingDirectNetworkWith.isSome then some { node with pending := false }
  else if node.outgoing ∧ side = .low then some { node with pending := false }
  else some { node with approving := node.approving ++ [none] }

/-- A step of one daemon. `fresh` is the key of a network it would mint. -/
def nodeStep : NodeAct → Option (ConnectOut × ConnectNode)
  | .connect =>
    if node.existingDirectNetworkWith.isSome then some (.quiet, node)
    else some (.asked, { node with outgoing := true, calls := node.calls + 1 })
  | .answer msg =>
    if node.calls = 0 then none
    else
      let ended := { node with calls := node.calls - 1 }
      match msg with
      | .approved room =>
        some (.quiet, { ended with outgoing := false, joins := room :: ended.joins })
      | .pending => some (.quiet, ended.spawnConnectRetry)
      | .denied => some (.quiet, { ended with outgoing := false })
  | .lost =>
    if node.calls = 0 then none
    else some (.quiet, { node with calls := node.calls - 1, outgoing := false })
  | .join room result =>
    if room ∈ node.joins then
      let ended := { node with joins := node.joins.erase room }
      match result with
      | .joined coordinator => some (.quiet, ended.joinedNetwork room coordinator)
      | .queued => some (.quiet, { ended with queued := room :: ended.queued })
      | .failed => some (.quiet, ended)
    else none
  | .retryAsk =>
    if node.retry = .sleeping then some (.asked, { node with retry := .asking }) else none
  | .retryAnswer msg =>
    if node.retry = .asking then
      match msg with
      | .approved room => some (.quiet, { node with retry := .joining room })
      | .pending => some (.quiet, { node with retry := .sleeping })
      | .denied => some (.quiet, { node with outgoing := false, retry := .off })
    else none
  | .retryLost =>
    if node.retry = .asking then some (.quiet, { node with retry := .sleeping }) else none
  | .retryJoin result =>
    match node.retry, result with
    | .joining room, .joined coordinator =>
      let ended := { node with outgoing := false, retry := .off }
      some (.quiet, ended.joinedNetwork room coordinator)
    | .joining room, .queued =>
      some (.quiet, { node with outgoing := false, retry := .off, queued := room :: node.queued })
    | .joining _, .failed => some (.quiet, { node with retry := .sleeping })
    | _, _ => none
  | .finishQueued room coordinator =>
    if room ∈ node.queued then
      let ended := { node with queued := node.queued.erase room }
      some (.quiet, ended.joinedNetwork room coordinator)
    else none
  | .flag key =>
    let marked := node.saved.map fun net =>
      if net.key = key then { net with direct := true } else net
    some (.quiet, { node with saved := marked })
  | .approve => (approveConnection side node).map (.quiet, ·)
  | .mint task =>
    if node.approving[task]? = some none then
      -- saved before it is published, and running only after that
      some (.minted fresh, { node with
        approving := node.approving.set task (some fresh)
        saved := ⟨fresh, true, true⟩ :: node.saved })
    else none
  | .install task =>
    match node.approving[task]? with
    | some (some key) =>
      some (.quiet, { node with
        approving := node.approving.eraseIdx task
        running := key :: node.running
        pending := false
        approved := some key })
    | _ => none
  | .approveFailed task =>
    if task < node.approving.length then
      some (.quiet, { node with approving := node.approving.eraseIdx task })
    else none
  | .evict => some (.quiet, { node with pending := false })
  | .reject => if node.pending then some (.quiet, { node with pending := false, rejected := true })
    else none
  | .forgetRejection => some (.quiet, { node with rejected := false })
  | .restart => some (.quiet, node.restarted)
  | .restore key =>
    if node.saved.any fun net => net.key = key then
      some (.quiet, { node with running := key :: node.running })
    else none

end Step

/-! ## Two daemons -/

inductive ConnectAct where
  | node (side : Side) (act : NodeAct)
  /-- A request of this side reaches the other. -/
  | handle (side : Side) (admitted : Bool)
  deriving DecidableEq

structure Peers where
  nodes : Side → ConnectNode
  /-- The requests of each side that have not arrived. -/
  requests : Side → Nat
  /-- The replies on their way to each side. -/
  replies : Side → List ConnectMsg
  nextKey : Nat

/-- The reply an act takes up. -/
def NodeAct.reply : NodeAct → Option ConnectMsg
  | .answer msg | .retryAnswer msg => some msg
  | _ => none

def connectStep (s : Peers) : ConnectAct → Option (ConnectOut × Peers)
  | .node side act =>
    if act.reply.all (· ∈ s.replies side) then
      (nodeStep side s.nextKey (s.nodes side) act).map fun (out, node) =>
        (out, { s with
          nodes := Function.update s.nodes side node
          requests := if out = .asked then Function.update s.requests side (s.requests side + 1)
            else s.requests
          nextKey := s.nextKey + 1 })
    else none
  | .handle side admitted =>
    if s.requests side = 0 then none
    else
      let (msg, node) := (s.nodes side.other).connectReply admitted
      some (.quiet, { s with
        nodes := Function.update s.nodes side.other node
        requests := Function.update s.requests side (s.requests side - 1)
        replies := Function.update s.replies side (msg :: s.replies side) })

end Rayfish.Connect
