import Mathlib.Data.Finset.Insert
import Rayfish.Lib.HashMap
import Rayfish.Mesh.Group

/-!
# The peer table

One peer's slot of the routing table (`peers.rs`): the connection selected for it, the
handles this end stamps on datagrams of each shared network, and the decode table the
peer announced. Every operation of the source takes the slot's lock once, so each is one
function here. Connections are known by the objects this end holds; `closed` are those
whose `close_reason` is set.
-/

namespace Rayfish

open Lib

/-- A `u16` tag of a datagram; 0 is never assigned. -/
abbrev Handle := Nat

/-- A connection object at one end. -/
structure Connection where
  stableId : Nat
  /-- Exported from the TLS session, so the same at both ends. -/
  selectionId : BitVec 256
  deriving DecidableEq

/-- The state that goes with the selected connection. -/
structure ActiveConnection where
  conn : Connection
  /-- Handle to network, as the peer announced it. -/
  inHandles : HashMap Handle Name

structure PeerEntry where
  endpointId : EndpointId
  /-- The networks shared with the peer, each with the tag we stamp for it. -/
  outHandles : HashMap Name Handle
  active : ActiveConnection

structure PeerSlot where
  entry : Option PeerEntry
  closed : Finset Connection

/-- The lowest handle that no network holds; the last one once all are taken. -/
def nextFreeHandle (used : HashMap Name Handle) : Handle :=
  ((List.range' 1 65535).find? fun handle => used.entries.all fun e => e.2 ≠ handle).getD 65535

/-- Give `network` a handle, unless it has one. -/
def assignHandle (used : HashMap Name Handle) (network : Name) : HashMap Name Handle :=
  if network ∈ used then used else used.insert network (nextFreeHandle used)

namespace ActiveConnection

def new (conn : Connection) : ActiveConnection := ⟨conn, ∅⟩

def «matches» (active : ActiveConnection) (conn : Connection) : Bool :=
  active.conn.stableId == conn.stableId

end ActiveConnection

namespace PeerEntry

def new (id : EndpointId) (conn : Connection) (network : Name) : PeerEntry :=
  ⟨id, AList.singleton network 1, .new conn⟩

/-- Select between the current connection and `conn`; also answers whether `conn` is new
and which of the two is closed. -/
def installConnection (e : PeerEntry) (closed : Finset Connection) (conn : Connection) :
    Bool × Option Connection × PeerEntry :=
  if e.active.matches conn then (false, none, e)
  else if e.active.conn ∉ closed ∧ e.active.conn.selectionId ≤ conn.selectionId then
    (false, some conn, e)
  else (true, some e.active.conn, { e with active := .new conn })

end PeerEntry

namespace PeerSlot

variable (s : PeerSlot) (conn : Connection)

/-- Register `conn` for `network`. -/
def add (id : EndpointId) (network : Name) : Bool × PeerSlot :=
  if conn ∈ s.closed then (false, s)
  else
    match s.entry with
    | some e =>
      let (changed, closes, e) := e.installConnection s.closed conn
      (changed,
        { entry := some { e with
            endpointId := id
            outHandles := assignHandle e.outHandles network }
          closed := closes.elim s.closed (insert · s.closed) })
    | none => (true, { s with entry := some (.new id conn network) })

/-- Change the entry, if `conn` is its current connection. -/
def updateCurrent (f : PeerEntry → PeerEntry) : PeerSlot :=
  { s with entry := s.entry.map fun e => if e.active.matches conn then f e else e }

/-- A disconnect report: the entry goes if it still is on that connection. Answers the
networks it shared. -/
def removeConnection (stableId : Option Nat) : Option (List Name) × PeerSlot :=
  match s.entry with
  | some e =>
    if stableId.all (· == e.active.conn.stableId) then
      (some e.outHandles.keys, { s with entry := none })
    else (none, s)
  | none => (none, s)

/-- Share `network` over the connection there is. -/
def attachNetwork (network : Name) : Option Handle × PeerSlot :=
  match s.entry with
  | some e =>
    if network ∈ e.outHandles then (none, s)
    else
      let handle := nextFreeHandle e.outHandles
      (some handle,
        { s with entry := some { e with outHandles := e.outHandles.insert network handle } })
  | none => (none, s)

/-- Stop sharing `network`; with the last one the entry goes, and its connection is the
caller's to close. -/
def removePeerFromNetwork (network : Name) : Option Connection × PeerSlot :=
  match s.entry with
  | some e =>
    let outHandles := e.outHandles.erase network
    if outHandles.entries.isEmpty then (some e.active.conn, { s with entry := none })
    else (none, { s with entry := some { e with outHandles := outHandles } })
  | none => (none, s)

/-- Replace the decode table with what `conn` announced. -/
def setInboundHandles (entries : List (Handle × Name)) : PeerSlot :=
  s.updateCurrent conn fun e =>
    { e with active := { e.active with
        inHandles := entries.foldl (fun table entry => table.insert entry.1 entry.2) ∅ } }

/-- Merge one mapping that `conn` announced into the decode table. -/
def addInboundHandle (handle : Handle) (network : Name) : PeerSlot :=
  s.updateCurrent conn fun e =>
    { e with active := { e.active with inHandles := e.active.inHandles.insert handle network } }

def outboundHandles : List (Name × Handle) :=
  s.entry.elim [] fun e => e.outHandles.entries.map fun entry => (entry.1, entry.2)

/-- The network of a datagram that arrived on `conn`: announced by the peer under this
handle, and shared with it by us. -/
def resolveInbound (handle : Handle) : Option Name :=
  s.entry.bind fun e =>
    if e.active.matches conn then
      (e.active.inHandles.lookup handle).filter fun network => network ∈ e.outHandles
    else none

/-- The selected connection. -/
def current : Option Connection := s.entry.map (·.active.conn)

end PeerSlot

end Rayfish
