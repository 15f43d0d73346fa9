import Mathlib.Data.Fintype.BigOperators
import Rayfish.Lib.ChunkStream
import Rayfish.Mesh.Group

/-!
# Control frames

Mesh control messages on a stream (`control.rs`): a 4-byte big-endian length and a
MessagePack body. The MessagePack library is a parameter, of which the development
assumes that decoding an encoded frame gives the frame back (`Rmp`); streams deliver
their bytes in arbitrary chunks.

`control_frame_received_iff` says when a frame that was sent is received: exactly if its
body has at most 65536 bytes. The receiver refuses longer frames, the sender does not
look, and rosters have no bound (`roster_not_received`). No read goes past the declared
length.
-/

namespace Rayfish.Control

open Lib

structure NetworkHandle where
  network : EndpointId
  handle : UInt16

inductive FileReply where
  | received
  | completed
  | declined (reason : Name)

inductive ControlMsg where
  | joinRequest (inviteSecret : Option Bytes) (hostname : Option Name)
      (deviceCert : Option DeviceCert)
  | joinPending
  | joinUnavailable (reason : Name)
  | joinApproved (members : MemberList)
  | joinDenied (reason : Name)
  | memberSync
  | signedRecord (packet : Bytes)
  | meshHello (identity : EndpointId) (hostname : Option Name) (deviceCert : Option DeviceCert)
  | memberApproved (identity : EndpointId) (hostname : Option Name)
      (deviceCert : Option DeviceCert)
  | welcome (members : MemberList) (approved : ApprovedList) (directKey : Option (BitVec 256))
      (directRecord : Option Bytes) (directRecordPublished : Bool)
  | blobUpdated
  | exitNodeOffer (enabled : Bool) (exitFamilies : ExitFamilies)
  | adminGrant (networkPubkey : EndpointId) (secretKey : BitVec 256)
  | adminGrantResult (networkPubkey : EndpointId) (error : Option Name)
  | fileOffer (offerId : BitVec 256) (sender : EndpointId) (filename : Name) (size : UInt64)
      (mimeType : Name) (blobHash : BitVec 256)
  | fileOfferReply (offerId : BitVec 256) (reply : FileReply)
  | fileDeclined (offerId : BitVec 256) (reason : Name)
  | fileCompleted (offerId : BitVec 256)
  | inviteShare (id : Name) (secretHash : Bytes) (expires : UInt64)
  | inviteUsed (secretHash : Bytes)
  | ping (nonce : UInt64)
  | pong (nonce : UInt64)
  | networkHandles (entries : List NetworkHandle) (features : UInt64) (receiveMtu : UInt16)
  | unpaired
  | pairingRevoked (generation : UInt64)
  | certRefresh (cert : DeviceCert)
  | leaveNetwork
  | requestUnpair
  | kickedFromNetwork
  | notSupported (msgKind : Name)

/-- A message and the network it is about. -/
structure ControlFrame (Msg : Type) where
  net : Option EndpointId
  msg : Msg

/-- What a body of a newer build shows of its message: a bare variant name, or a map with
the variant names as keys, in the order the map gives them. -/
inductive KindProbe where
  | unit (name : Name)
  | tagged (keys : List Name)

/-- The MessagePack library at the frames' types: `probe` decodes a body as a `FrameProbe`. -/
structure Rmp (Msg : Type) where
  toVec : ControlFrame Msg → Bytes
  fromSlice : Bytes → Option (ControlFrame Msg)
  probe : Bytes → Option KindProbe
  fromSlice_toVec : ∀ frame, fromSlice (toVec frame) = some frame

inductive FrameRead (Msg : Type) where
  | frame (frame : ControlFrame Msg)
  | unknown (msgKind : Name)

inductive FrameError where
  /-- "send control message" -/
  | send
  /-- "read message length" -/
  | length
  /-- "framed message too large" -/
  | tooLarge
  /-- "read message body" -/
  | body
  /-- "invalid control frame" -/
  | invalid
  /-- "control message map is empty" -/
  | emptyMap

/-- The longest body that is read. -/
def maxFrame : Nat := 65536

section

variable {Msg : Type} (rmp : Rmp Msg) (stream : ChunkStream UInt8) (net : Option EndpointId)

/-- The length is cast to 32 bits. -/
def encodeMsg (msg : Msg) : Bytes :=
  beBytes 4 (rmp.toVec ⟨net, msg⟩).length ++ rmp.toVec ⟨net, msg⟩

/-- `wrote`: the stream took all bytes. That it is finished afterwards is not checked. -/
def sendMsg (msg : Msg) (wrote : Bool) : Except FrameError Bytes :=
  if wrote then .ok (encodeMsg rmp net msg) else .error .send

def recvRaw : Except FrameError Bytes × ChunkStream UInt8 :=
  match readExact 4 stream with
  | (none, stream) => (.error .length, stream)
  | (some len, stream) =>
    if maxFrame < beNat len then (.error .tooLarge, stream)
    else
      match readExact (beNat len) stream with
      | (none, stream) => (.error .body, stream)
      | (some body, stream) => (.ok body, stream)

def decodeFrame (body : Bytes) : Except FrameError (FrameRead Msg) :=
  match rmp.fromSlice body with
  | some frame => .ok (.frame frame)
  | none =>
    match rmp.probe body with
    | none => .error .invalid
    | some (.unit name) => .ok (.unknown name)
    | some (.tagged []) => .error .emptyMap
    | some (.tagged (name :: _)) => .ok (.unknown name)

def recvFrame : Except FrameError (FrameRead Msg) × ChunkStream UInt8 :=
  match recvRaw stream with
  | (.error error, stream) => (.error error, stream)
  | (.ok body, stream) => (decodeFrame rmp body, stream)

end

/-! ## Reading -/

/-- A read takes at most the four bytes of the length and the length they declare. -/
def ReadsWithin (stream rest : ChunkStream UInt8) : Prop :=
  ∃ read, stream.flatten = read ++ rest.flatten ∧ read.length ≤ 4 + beNat (read.take 4)

theorem recvRaw_readsWithin (stream : ChunkStream UInt8) :
    ReadsWithin stream (recvRaw stream).2 := by
  obtain ⟨read, split, short, got⟩ := readExact_split 4 stream
  rw [recvRaw]
  generalize readExact 4 stream = head at split got ⊢
  rcases head with ⟨_ | len, rest⟩
  · exact ⟨read, split, Nat.le_add_right_of_le short⟩
  · obtain ⟨rfl, four⟩ := got len rfl
    dsimp only
    split
    · exact ⟨len, split, Nat.le_add_right_of_le short⟩
    · obtain ⟨body, split', within, _⟩ := readExact_split (beNat len) rest
      have reads : ReadsWithin stream (readExact (beNat len) rest).2 := by
        refine ⟨len ++ body, ?_, ?_⟩
        · rw [split, List.append_assoc, ← split']
        · rw [List.length_append, four, List.take_append_of_le_length four.ge,
            List.take_of_length_le four.le]
          exact Nat.add_le_add_left within 4
      generalize readExact (beNat len) rest = tail at reads ⊢
      rcases tail with ⟨_ | _, rest'⟩
      · exact reads
      · exact reads

section

variable {Msg : Type} {rmp : Rmp Msg}

theorem recvFrame_readsWithin (rmp : Rmp Msg) (stream : ChunkStream UInt8) :
    ReadsWithin stream (recvFrame rmp stream).2 := by
  have reads := recvRaw_readsWithin stream
  rw [recvFrame]
  generalize recvRaw stream = raw at reads ⊢
  rcases raw with ⟨_ | _, rest⟩
  · exact reads
  · exact reads

/-- What a receiver makes of a frame: the declared length counts. -/
theorem recvRaw_of_frame (arrives : stream.flatten = beBytes 4 body.length ++ body) :
    (maxFrame < body.length % 2 ^ 32 → (recvRaw stream).1 = .error .tooLarge) ∧
    (body.length % 2 ^ 32 ≤ maxFrame →
      (recvRaw stream).1 = .ok (body.take (body.length % 2 ^ 32)) ∧
        (recvRaw stream).2.flatten = body.drop (body.length % 2 ^ 32)) := by
  have declared : beNat (beBytes 4 body.length) = body.length % 2 ^ 32 := beNat_beBytes 4 _
  have enough : 4 ≤ stream.flatten.length := by
    rw [arrives, List.length_append]
    exact Nat.le_add_right 4 _
  have head := readExact_of_le enough
  rw [arrives] at head
  rw [recvRaw]
  generalize readExact 4 stream = first at head ⊢
  obtain ⟨len, rest⟩ := first
  obtain ⟨rfl, left⟩ : len = some (beBytes 4 body.length) ∧ rest.flatten = body := head
  dsimp only
  rw [declared]
  constructor
  · intro large
    rw [if_pos large]
  · intro small
    have inside : body.length % 2 ^ 32 ≤ rest.flatten.length := by
      rw [left]
      exact Nat.mod_le _ _
    obtain ⟨read, left'⟩ := readExact_of_le inside
    rw [if_neg (Nat.not_lt.mpr small)]
    rw [left] at read left'
    generalize readExact (body.length % 2 ^ 32) rest = second at read left' ⊢
    obtain ⟨got, rest'⟩ := second
    obtain rfl : got = some (body.take (body.length % 2 ^ 32)) := read
    exact ⟨rfl, left'⟩

/-- A frame is decoded from the part of its body that was read. -/
theorem recvFrame_of_frame (arrives : stream.flatten = encodeMsg rmp net msg)
    (small : (rmp.toVec ⟨net, msg⟩).length % 2 ^ 32 ≤ maxFrame) :
    let body := rmp.toVec ⟨net, msg⟩
    (recvFrame rmp stream).1 = decodeFrame rmp (body.take (body.length % 2 ^ 32)) ∧
      (recvFrame rmp stream).2.flatten = body.drop (body.length % 2 ^ 32) := by
  intro body
  have raw := (recvRaw_of_frame arrives).2 small
  rw [recvFrame]
  generalize recvRaw stream = result at raw ⊢
  obtain ⟨got, rest⟩ := result
  obtain ⟨rfl, left⟩ : got = .ok (body.take (body.length % 2 ^ 32)) ∧
    rest.flatten = body.drop (body.length % 2 ^ 32) := raw
  exact ⟨rfl, left⟩

theorem recvFrame_of_large (arrives : stream.flatten = encodeMsg rmp net msg)
    (large : maxFrame < (rmp.toVec ⟨net, msg⟩).length % 2 ^ 32) :
    (recvFrame rmp stream).1 = .error .tooLarge := by
  have raw := (recvRaw_of_frame arrives).1 large
  rw [recvFrame]
  generalize recvRaw stream = result at raw ⊢
  obtain ⟨got, rest⟩ := result
  obtain rfl : got = .error .tooLarge := raw
  rfl

theorem decodeFrame_toVec (frame : ControlFrame Msg) :
    decodeFrame rmp (rmp.toVec frame) = .ok (.frame frame) := by
  rw [decodeFrame, rmp.fromSlice_toVec]

/-- A frame that decodes was decoded by the library, not probed. -/
theorem fromSlice_of_decodeFrame (decoded : decodeFrame rmp body = .ok (.frame frame)) :
    rmp.fromSlice body = some frame := by
  rw [decodeFrame] at decoded
  generalize rmp.fromSlice body = whole at decoded ⊢
  cases whole with
  | some frame' =>
    cases decoded
    rfl
  | none =>
    generalize rmp.probe body = probe at decoded
    rcases probe with _ | name | _ | _
    all_goals cases decoded

/-- A sent frame is received, as the message it was and read to its end, exactly if its body
has at most 65536 bytes; a longer one whose length fits its field is refused. Whatever a
stream delivers, and in whatever chunks, no read goes past the declared length. -/
theorem control_frame_received_iff (net : Option EndpointId) (msg : Msg) (wrote : Bool)
    {sent : Bytes} (sends : sendMsg rmp net msg wrote = .ok sent) :
    (∀ stream : ChunkStream UInt8, stream.flatten = sent →
      ((recvFrame rmp stream).1 = .ok (.frame ⟨net, msg⟩) ∧
          (recvFrame rmp stream).2.flatten = [] ↔
        (rmp.toVec ⟨net, msg⟩).length ≤ maxFrame) ∧
      (maxFrame < (rmp.toVec ⟨net, msg⟩).length → (rmp.toVec ⟨net, msg⟩).length < 2 ^ 32 →
        (recvFrame rmp stream).1 = .error .tooLarge)) ∧
    ∀ stream : ChunkStream UInt8, ReadsWithin stream (recvFrame rmp stream).2 := by
  refine ⟨?_, recvFrame_readsWithin rmp⟩
  intro stream arrives
  obtain rfl : encodeMsg rmp net msg = sent := by
    cases wrote with
    | true => exact Except.ok.inj sends
    | false => cases sends
  constructor
  · constructor
    · rintro ⟨received, whole⟩
      rcases Nat.lt_or_ge maxFrame ((rmp.toVec ⟨net, msg⟩).length % 2 ^ 32) with large | small
      · cases (recvFrame_of_large arrives large).symm.trans received
      · -- nothing is left over, so the declared length is the whole length
        have left := (recvFrame_of_frame arrives small).2
        rw [whole] at left
        exact (List.drop_eq_nil_iff.mp left.symm).trans small
    · intro small
      have exact' : (rmp.toVec ⟨net, msg⟩).length % 2 ^ 32 = (rmp.toVec ⟨net, msg⟩).length :=
        Nat.mod_eq_of_lt (small.trans_lt (by decide))
      obtain ⟨read, left⟩ := recvFrame_of_frame arrives (exact'.le.trans small)
      rw [exact', List.take_length, decodeFrame_toVec] at read
      rw [exact', List.drop_length] at left
      exact ⟨read, left⟩
  · intro large fits
    exact recvFrame_of_large arrives (by rwa [Nat.mod_eq_of_lt fits])

end

/-- A library for bare bytes as messages. -/
def plainRmp : Rmp Bytes where
  toVec frame :=
    match frame.net with
    | none => 0 :: frame.msg
    | some key => 1 :: (beBytes 32 key.toNat ++ frame.msg)
  fromSlice
    | 0 :: msg => some ⟨none, msg⟩
    | 1 :: rest => some ⟨some (BitVec.ofNat 256 (beNat (rest.take 32))), rest.drop 32⟩
    | _ => none
  probe _ := none
  fromSlice_toVec := by
    rintro ⟨_ | key, msg⟩
    · rfl
    · have wide : (beBytes 32 key.toNat).length = 32 := beBytes_length 32 _
      have same : BitVec.ofNat 256 (beNat (beBytes 32 key.toNat)) = key := by
        rw [beNat_beBytes, show 256 ^ 32 = 2 ^ 256 by decide, Nat.mod_eq_of_lt key.isLt,
          BitVec.ofNat_toNat, BitVec.setWidth_eq]
      change some (ControlFrame.mk (some (BitVec.ofNat 256 (beNat
        ((beBytes 32 key.toNat ++ msg).take 32)))) ((beBytes 32 key.toNat ++ msg).drop 32)) = _
      rw [List.take_append_of_le_length wide.ge, List.take_of_length_le wide.le,
        List.drop_append_of_le_length wide.ge, List.drop_of_length_le wide.le, same]
      rfl

/-- A short message that arrives cut inside its length. -/
theorem control_frame_received_split :
    (recvFrame plainRmp [[0, 0], [], [0, 3, 0], [7, 8]]).1 = .ok (.frame ⟨none, [7, 8]⟩) ∧
      (recvFrame plainRmp [[0, 0], [], [0, 3, 0], [7, 8]]).2.flatten = [] :=
  (((control_frame_received_iff none [7, 8] true
    (rfl : sendMsg plainRmp none [7, 8] true = .ok [0, 0, 0, 3, 0, 7, 8])).1
    [[0, 0], [], [0, 3, 0], [7, 8]] rfl).1).mpr (by decide)

/-- A message of 65536 bytes is sent, and not received however it arrives. -/
theorem long_message_not_received :
    ∃ sent, sendMsg plainRmp none (List.replicate 65536 0) true = .ok sent ∧
      ∀ stream : ChunkStream UInt8, stream.flatten = sent →
        (recvFrame plainRmp stream).1 ≠ .ok (.frame ⟨none, List.replicate 65536 0⟩) := by
  have large : maxFrame <
      (plainRmp.toVec ⟨none, List.replicate 65536 0⟩).length % 2 ^ 32 := by
    rw [plainRmp, List.length_cons, List.length_replicate]
    decide
  refine ⟨_, rfl, fun stream arrives got => ?_⟩
  cases (recvFrame_of_large arrives large).symm.trans got

/-! ## Rosters have no bound -/

/-- A member paired with a user. -/
def pairedMember (identity user : EndpointId) : Member :=
  ⟨identity, false, none, some user, none, none, false, .unknown⟩

/-- Members `0` to `n - 1`, each with its user. -/
def pairedRoster (users : Nat → EndpointId) : Nat → MemberList
  | 0 => .empty
  | n + 1 => (pairedRoster users n).insert (pairedMember (BitVec.ofNat 256 n) (users n))

theorem get_pairedRoster (inside : i < n) (small : n ≤ 2 ^ 256) :
    (pairedRoster users n).get (BitVec.ofNat 256 i) =
      some (pairedMember (BitVec.ofNat 256 i) (users i)) := by
  induction n with
  | zero => exact absurd inside (Nat.not_lt_zero i)
  | succ n ih =>
    rcases Nat.lt_succ_iff_lt_or_eq.mp inside with before | rfl
    · have apart : BitVec.ofNat 256 i ≠ BitVec.ofNat 256 n := by
        intro same
        have numbers := congrArg BitVec.toNat same
        rw [BitVec.toNat_ofNat, BitVec.toNat_ofNat, Nat.mod_eq_of_lt (before.trans small),
          Nat.mod_eq_of_lt small] at numbers
        exact before.ne numbers
      rw [pairedRoster, KeyedMap.get_insert, ih before (Nat.le_of_lt small)]
      exact if_neg apart
    · exact KeyedMap.get_insert_self _ _

/-- How many members make too many rosters for 65536 bytes. -/
def crowd : Nat := 2400

def rosterOf (users : Fin crowd → Fin (2 ^ 256)) : MemberList :=
  pairedRoster (fun i => if inside : i < crowd then BitVec.ofFin (users ⟨i, inside⟩) else 0) crowd

theorem rosterOf_injective : Function.Injective rosterOf := by
  intro users users' same
  funext i
  have at' := congrArg (fun roster : MemberList => roster.get (BitVec.ofNat 256 i)) same
  have small : crowd ≤ 2 ^ 256 := by decide
  dsimp only [rosterOf] at at'
  rw [get_pairedRoster i.isLt small, get_pairedRoster i.isLt small, dif_pos i.isLt,
    dif_pos i.isLt] at at'
  have user := congrArg Member.userIdentity (Option.some.inj at')
  exact BitVec.ofFin.inj (Option.some.inj user)

/-- A short string of bytes as a function of the position. -/
theorem getElem?_injective {l l' : Bytes} (short : l.length ≤ maxFrame)
    (short' : l'.length ≤ maxFrame)
    (same : ∀ i : Fin maxFrame, l[i.val]?.map UInt8.toFin = l'[i.val]?.map UInt8.toFin) :
    l = l' := by
  apply List.ext_getElem?
  intro i
  by_cases inside : i < maxFrame
  · have here := same ⟨i, inside⟩
    exact Option.map_injective (fun _ _ => UInt8.toFin_inj.mp) here
  · rw [List.getElem?_eq_none (short.trans (Nat.not_lt.mp inside)),
      List.getElem?_eq_none (short'.trans (Nat.not_lt.mp inside))]

/-- There are more rosters than strings of 65536 bytes. -/
theorem card_strings_lt :
    Fintype.card (Fin maxFrame → Option (Fin 256)) < Fintype.card (Fin crowd → Fin (2 ^ 256)) := by
  have lower : 257 < 2 ^ 9 := by decide
  calc Fintype.card (Fin maxFrame → Option (Fin 256)) = 257 ^ maxFrame := by
        rw [Fintype.card_pi_const, Fintype.card_option, Fintype.card_fin]
    _ < (2 ^ 9) ^ maxFrame := Nat.pow_lt_pow_left lower (by decide)
    _ = 2 ^ (9 * maxFrame) := (pow_mul 2 9 maxFrame).symm
    _ ≤ 2 ^ (256 * crowd) := Nat.pow_le_pow_right (by decide) (by decide)
    _ = (2 ^ 256) ^ crowd := pow_mul 2 256 crowd
    _ = Fintype.card (Fin crowd → Fin (2 ^ 256)) := by
        rw [Fintype.card_pi_const, Fintype.card_fin]

/-- Whatever the encoding, the welcome for some roster of 2400 members is sent and then not
received: accepted bodies have at most 65536 bytes, and there are too few of those. -/
theorem roster_not_received (rmp : Rmp ControlMsg) (net : Option EndpointId) :
    ∃ users, ∃ sent, sendMsg rmp net (.welcome (rosterOf users) .empty none none false) true =
      .ok sent ∧ ∀ stream : ChunkStream UInt8, stream.flatten = sent →
        (recvFrame rmp stream).1 ≠
          .ok (.frame ⟨net, .welcome (rosterOf users) .empty none none false⟩) := by
  by_contra received
  push Not at received
  -- the bytes each roster's welcome is decoded from
  have read : ∀ users, ∃ body : Bytes, body.length ≤ maxFrame ∧
      rmp.fromSlice body = some ⟨net, .welcome (rosterOf users) .empty none none false⟩ := by
    intro users
    obtain ⟨stream, arrives, got⟩ := received users _ rfl
    rcases Nat.lt_or_ge maxFrame ((rmp.toVec ⟨net,
      .welcome (rosterOf users) .empty none none false⟩).length % 2 ^ 32) with large | small
    · cases (recvFrame_of_large arrives large).symm.trans got
    · rw [(recvFrame_of_frame arrives small).1] at got
      exact ⟨_, (List.length_take_le _ _).trans small, fromSlice_of_decodeFrame got⟩
  choose body short decoded using read
  have injective : Function.Injective fun users (i : Fin maxFrame) =>
      (body users)[i.val]?.map UInt8.toFin := by
    intro users users' same
    have equal := getElem?_injective (short users) (short users') fun i => congrFun same i
    have frames := decoded users
    rw [equal, decoded users'] at frames
    have messages := congrArg ControlFrame.msg (Option.some.inj frames)
    obtain ⟨rosters, _⟩ := ControlMsg.welcome.inj messages
    exact (rosterOf_injective rosters).symm
  exact absurd (Fintype.card_le_of_injective _ injective) (Nat.not_le.mpr card_strings_lt)

end Rayfish.Control
