import Rayfish.Lib.BigEndian
import Rayfish.Lib.Bitmap
import Rayfish.Lib.HashMap

/-!
# Mesh packet framing

Whole packets travel as `[handle:u16][IP packet]`, fragments as
`[handle:u16][0:u8][id:u64][total:u16][offset:u16][bytes]` (`forward/fragment.rs`).
`encode` splits a packet that does not fit a datagram, `Reassembler.accept` puts
it together again under a per-connection limit and a budget all connections share.
-/

namespace Rayfish

open Lib

def maxPacket : Nat := 1500

def tagLen : Nat := 2

/-- The bytes in front of a fragment's payload. -/
def fragmentHeaderLen : Nat := tagLen + 1 + 8 + 2 + 2

def maxFragments : Nat := 16

def maxPending : Nat := 64

/-- Five seconds, in nanoseconds. -/
def reassemblyTimeout : Nat := 5 * 1000000000

/-- The packet buffer, the coverage bitmap and an allowance for map metadata. -/
def assemblyCost : Nat := maxPacket + 512

inductive DropReason where
  | malformed
  | reassemblyTimeout
  | reassemblyLimit
  deriving DecidableEq, Repr

/-! ## Encoding -/

/-- `len.div_ceil(chunk)`. -/
def fragmentCount (len chunk : Nat) : Nat := (len + chunk - 1) / chunk

/-- The whole packet's send-buffer cost, every fragment header included. -/
def wireSize (len max : Nat) : Option Nat :=
  if len = 0 ∨ len > maxPacket then none
  else if len + tagLen ≤ max then some (len + tagLen)
  else if max ≤ fragmentHeaderLen then none
  else
    let count := fragmentCount len (max - fragmentHeaderLen)
    if count ≤ maxFragments then some (len + count * fragmentHeaderLen) else none

inductive Encoded where
  | whole (datagram : Bytes)
  | fragments (parts : List Bytes)

def Encoded.datagrams : Encoded → List Bytes
  | .whole datagram => [datagram]
  | .fragments parts => parts

def tagDatagram (handle : UInt16) (packet : Bytes) : Bytes := beBytes 2 handle.toNat ++ packet

/-- The datagram of one fragment. -/
def fragmentDatagram (handle : UInt16) (id : UInt64) (total offset : Nat) (payload : Bytes) :
    Bytes :=
  beBytes 2 handle.toNat ++ [0] ++ beBytes 8 id.toNat ++ beBytes 2 total ++ beBytes 2 offset ++
    payload

/-- `id` is the process-wide counter's value. -/
def encode (handle : UInt16) (packet : Bytes) (max : Nat) (id : UInt64) : Option Encoded :=
  (wireSize packet.length max).bind fun _ =>
    if handle = 0 then none
    else if packet.length + tagLen ≤ max then some (.whole (tagDatagram handle packet))
    else
      let chunk := max - fragmentHeaderLen
      some (.fragments ((List.range (fragmentCount packet.length chunk)).map fun index =>
        fragmentDatagram handle id packet.length (index * chunk)
          ((packet.drop (index * chunk)).take chunk)))

/-! ## Frames -/

structure AssemblyKey where
  handle : UInt16
  id : UInt64
  deriving DecidableEq, Repr

structure FragmentFrame where
  key : AssemblyKey
  total : Nat
  offset : Nat
  payload : Bytes
  deriving DecidableEq, Repr

inductive Frame where
  | malformed
  | whole (packet : Bytes)
  | fragment (frame : FragmentFrame)
  deriving DecidableEq, Repr

/-- The checks on a datagram before any assembly is looked up. -/
def readFrame (datagram : Bytes) : Frame :=
  if datagram.length ≤ tagLen ∨ datagram.length > maxPacket + tagLen then .malformed
  else
    let handle := be16 (byte datagram 0) (byte datagram 1)
    if handle = 0 then .malformed
    else if byte datagram tagLen >>> 4 = 4 ∨ byte datagram tagLen >>> 4 = 6 then
      .whole (datagram.drop tagLen)
    else if byte datagram tagLen ≠ 0 ∨ datagram.length ≤ fragmentHeaderLen then .malformed
    else
      .fragment
        { key := ⟨handle, UInt64.ofNat (beNat ((datagram.drop 3).take 8))⟩
          total := (be16 (byte datagram 11) (byte datagram 12)).toNat
          offset := (be16 (byte datagram 13) (byte datagram 14)).toNat
          payload := datagram.drop fragmentHeaderLen }

/-! ## Reassembly -/

structure Assembly where
  packet : Bytes
  covered : Bitmap
  received : Nat
  deadline : Nat

/-- `vec![0; total]`, nothing covered. -/
def Assembly.fresh (total now : Nat) : Assembly where
  packet := List.replicate total 0
  covered := .empty 24
  received := 0
  deadline := now + reassemblyTimeout

/-- The loop over a fragment's bytes; a byte that contradicts a covered one stops it. -/
def Assembly.copy (part : Assembly) (pos : Nat) : Bytes → Option Assembly
  | [] => some part
  | b :: rest =>
    if part.covered.test pos then
      if byte part.packet pos ≠ b then none else part.copy (pos + 1) rest
    else
      Assembly.copy
        { part with
          covered := part.covered.mark pos
          packet := part.packet.set pos b
          received := part.received + 1 }
        (pos + 1) rest

/-- One per connection. `available` is what is left of the budget that all
connections share; every pending assembly holds `assemblyCost` of it. -/
structure Reassembler where
  pending : HashMap AssemblyKey Assembly
  available : Nat
  evicted : Nat

namespace Reassembler

variable (r : Reassembler)

/-- The assembly under `key` dropped, and its share of the budget given back. -/
def remove (key : AssemblyKey) : Reassembler :=
  { r with
    pending := r.pending.erase key
    available := if (r.pending.lookup key).isSome then r.available + assemblyCost else r.available }

def expire (now : Nat) : Reassembler :=
  let kept := r.pending.retain fun _ part => decide (now < part.deadline)
  { r with
    pending := kept
    available := r.available + (r.pending.size - kept.size) * assemblyCost }

/-- A pending assembly with the least deadline. `tie` stands for the hash map's
order among several with that deadline. -/
def oldest (tie : Nat) : Option AssemblyKey :=
  ((r.pending.entries.map fun e => e.2.deadline).min?).bind fun least =>
    let ties := r.pending.entries.filter fun e => e.2.deadline == least
    (ties[tie % ties.length]?).map fun e => e.1

/-- Room for one more incomplete packet; at either limit the oldest one of this
connection gives up its room. -/
def reserve (tie : Nat) : Option Reassembler :=
  if r.pending.size < maxPending ∧ assemblyCost ≤ r.available then
    some { r with available := r.available - assemblyCost }
  else
    (r.oldest tie).map fun key =>
      { r with pending := r.pending.erase key, evicted := r.evicted + 1 }

/-- The assembly a fragment belongs to, opened when it is the first of its key. -/
def assembly (key : AssemblyKey) (total now tie : Nat) : Option (Reassembler × Assembly) :=
  match r.pending.lookup key with
  | some part => some (r, part)
  | none =>
    (r.reserve tie).map fun r =>
      let part := Assembly.fresh total now
      ({ r with pending := r.pending.insert key part }, part)

def acceptFragment (f : FragmentFrame) (now tie : Nat) :
    Except DropReason (Option Bytes) × Reassembler :=
  if f.total = 0 ∨ f.total > maxPacket ∨ f.offset + f.payload.length > f.total then
    (.error .malformed, r.remove f.key)
  else if (r.pending.lookup f.key).any fun part => decide (part.deadline ≤ now) then
    (.error .reassemblyTimeout, r.remove f.key)
  else
    match r.assembly f.key f.total now tie with
    | none => (.error .reassemblyLimit, r)
    | some (r, part) =>
      if part.packet.length ≠ f.total then (.error .malformed, r.remove f.key)
      else
        match part.copy f.offset f.payload with
        | none => (.error .malformed, r.remove f.key)
        | some part =>
          if part.received = f.total then (.ok (some part.packet), r.remove f.key)
          else (.ok none, { r with pending := r.pending.insert f.key part })

def accept (datagram : Bytes) (now tie : Nat) : Except DropReason (Option Bytes) × Reassembler :=
  match readFrame datagram with
  | .malformed => (.error .malformed, r)
  | .whole packet => (.ok (some packet), r)
  | .fragment f => r.acceptFragment f now tie

end Reassembler

end Rayfish
