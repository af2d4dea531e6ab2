import ClambHook.Basic
import ClambHook.Lib.Window

/-!
# The OpenVPN control channel

The control channel carries a TLS session over UDP.  Each side numbers its control packets; the
receiver acknowledges the numbers it has seen, keeps packets that are ahead of the next expected
number in a reorder list, and hands the payloads to TLS in the order of their numbers.  The sender
keeps a packet for retransmission until its number is acknowledged, and forgets it then.

This is the control part of `protocol_openvpn.c`.  Packet numbers are natural numbers below
`2 ^ 32`.  The socket is the list of the datagrams handed to `send`, and the outcome of every
allocation and of every `send` is an input.
-/

namespace ClambHook.OpenVpn

open CString Window

/-- The opcodes that the control channel knows. -/
inductive Opcode where
  | controlV1
  | ackV1
  | hardResetClientV2
  | hardResetServerV2
deriving DecidableEq, Repr

/-- The upper five bits of a packet's first byte. -/
def Opcode.code : Opcode → Nat
  | controlV1 => 4
  | ackV1 => 5
  | hardResetClientV2 => 7
  | hardResetServerV2 => 8

def Opcode.ofCode? : Nat → Option Opcode
  | 4 => some controlV1
  | 5 => some ackV1
  | 7 => some hardResetClientV2
  | 8 => some hardResetServerV2
  | _ => none

/-- `ch_ovpn_write_u32`. -/
def writeU32 (n : Nat) : Bytes :=
  [(n / 2 ^ 24).toUInt8, (n / 2 ^ 16).toUInt8, (n / 2 ^ 8).toUInt8, n.toUInt8]

/-- `ch_ovpn_read_u32`, at the front of a string of at least four bytes. -/
def readU32 : Bytes → Nat
  | a :: b :: c :: d :: _ => a.toNat * 2 ^ 24 + b.toNat * 2 ^ 16 + c.toNat * 2 ^ 8 + d.toNat
  | _ => 0

/-- Four-byte numbers up to the end of a string. -/
def readAcks : Nat → Bytes → List Nat
  | 0, _ => []
  | n + 1, bs => readU32 bs :: readAcks n (bs.drop 4)

/-! ## The byte stream to TLS -/

/-- `control_stream`: the bytes waiting for TLS are `length` bytes of the buffer from `offset` on.
The buffer starts over once it has been read. -/
structure Stream where
  buffer : Bytes
  offset : Nat
  length : Nat
  fits : offset + length ≤ buffer.length
  rewound : length = 0 → offset = 0
deriving DecidableEq

def Stream.empty : Stream := ⟨[], 0, 0, by simp, fun _ ↦ rfl⟩

/-- The bytes waiting for TLS. -/
def Stream.content (s : Stream) : Bytes :=
  window s.buffer s.offset s.length

/-- `ch_ovpn_stream_append` of a payload that is not empty, when `realloc` succeeds.  What is
waiting moves to the front of the buffer if something has been read off it, the buffer is resized
to fit, and the payload is copied in behind. -/
def Stream.append (s : Stream) (bs : Bytes) (hbs : bs ≠ []) : Stream where
  buffer :=
    (if s.offset > 0 ∧ s.length > 0 then moveToFront s.buffer s.offset s.length
      else s.buffer).take s.length ++ bs
  offset := if s.offset > 0 ∧ s.length > 0 then 0 else s.offset
  length := s.length + bs.length
  fits := by
    have hs := s.fits
    split
    · rename_i h
      rw [List.length_append, List.length_take, length_moveToFront]
      omega
    · rename_i h
      have h0 : s.offset = 0 := by
        by_contra h0
        exact h0 (s.rewound (by omega))
      rw [List.length_append, List.length_take]
      omega
  rewound := fun h ↦ by
    have : bs.length ≠ 0 := fun h' ↦ hbs (List.length_eq_zero_iff.1 h')
    omega

/-- The second half of `ch_ovpn_bio_read`, for a stream that holds something: at most `capacity`
bytes go to TLS, and the buffer is freed once it is empty. -/
def Stream.read (s : Stream) (capacity : Nat) : Bytes × Stream :=
  let amount := min s.length capacity
  (window s.buffer s.offset amount,
    if h : s.length - amount = 0 then .empty
    else
      ⟨s.buffer, s.offset + amount, s.length - amount, by have := s.fits; omega,
        fun h' ↦ absurd h' h⟩)

/-! ## Sessions -/

/-- A control packet as `ch_ovpn_control_encode` lays it out.  An ACK packet has no body; every
other packet has a number and a payload. -/
structure Datagram where
  opcode : Opcode
  keyId : Nat
  localSession : Bytes
  acks : List Nat
  remoteSession : Bytes
  body : Option (Nat × Bytes)
deriving DecidableEq, Repr

/-- The bytes on the wire.  The receiver's session follows the acknowledgements, if there are
any. -/
def Datagram.toBytes (d : Datagram) : Bytes :=
  (d.opcode.code * 8 + d.keyId % 8).toUInt8 :: d.localSession ++ [d.acks.length.toUInt8]
    ++ d.acks.flatMap writeU32 ++ (if d.acks = [] then [] else d.remoteSession)
    ++ (match d.body with
      | none => []
      | some (id, payload) => writeU32 id ++ payload)

/-- `ch_ovpn_outstanding`: a packet kept for retransmission. -/
structure Outstanding where
  id : Nat
  datagram : Datagram
  sentAt : Nat
  retries : Nat
deriving DecidableEq, Repr

/-- `ch_ovpn_reorder`: a packet that waits for its turn. -/
structure Reorder where
  id : Nat
  opcode : Opcode
  payload : Bytes
deriving DecidableEq, Repr

/-- The control part of `ch_ovpn_session`.  Lists that the source links at the front have their
newest entry first. -/
structure Session where
  localSession : Bytes
  remoteSession : Bytes := List.replicate 8 0
  haveRemoteSession : Bool := false
  keyId : Nat := 0
  nextControlId : Nat := 0
  nextExpectedId : Nat := 0
  outstanding : List Outstanding := []
  pendingAcks : List Nat := []
  reorder : List Reorder := []
  stream : Stream := .empty
  sawServerReset : Bool := false
  /-- What has been handed to `send`, the latest last. -/
  socket : List Datagram := []
deriving DecidableEq

/-! ## Sending -/

/-- Whether the allocations of `ch_ovpn_control_encode` succeed, and the `send` behind it. -/
structure SendFate where
  bytes : Bool := true
  tracked : Bool := true
  sent : Bool := true
deriving DecidableEq, Repr

/-- `ch_ovpn_control_encode`.  At most four acknowledgements travel in one packet. -/
def controlEncode (s : Session) (opcode : Opcode) (payload : Bytes) (track : Bool) (now : Nat)
    (fate : SendFate) : Session × Option Datagram :=
  if !fate.bytes then (s, none)
  else
    let d : Datagram := ⟨opcode, s.keyId, s.localSession, s.pendingAcks.take 4, s.remoteSession,
      none⟩
    let s := { s with pendingAcks := s.pendingAcks.drop 4 }
    if opcode = .ackV1 then (s, some d)
    else
      let id := s.nextControlId
      let d := { d with body := some (id, payload) }
      let s := { s with nextControlId := (id + 1) % 2 ^ 32 }
      if !track then (s, some d)
      else if !fate.tracked then (s, none)
      else ({ s with outstanding := ⟨id, d, now, 0⟩ :: s.outstanding }, some d)

/-- `ch_ovpn_send_raw`. -/
def Session.sendRaw (s : Session) (d : Datagram) : Session :=
  { s with socket := s.socket ++ [d] }

/-- `ch_ovpn_send_control`. -/
def sendControl (s : Session) (opcode : Opcode) (payload : Bytes) (now : Nat) (fate : SendFate) :
    Session × Bool :=
  match controlEncode s opcode payload true now fate with
  | (s, none) => (s, false)
  | (s, some d) => (s.sendRaw d, fate.sent)

/-- `ch_ovpn_send_ack`. -/
def sendAck (s : Session) (fate : SendFate) : Session × Bool :=
  if !s.haveRemoteSession || s.pendingAcks.isEmpty then (s, true)
  else
    match controlEncode s .ackV1 [] false 0 fate with
    | (s, none) => (s, false)
    | (s, some d) => (s.sendRaw d, fate.sent)

/-- The loop of `ch_ovpn_retransmit`: what becomes of the list, what is sent, and the result.
`sent` tells for each packet whether `send` succeeds. -/
def retransmitLoop (now : Nat) (sent : Nat → Bool) :
    List Outstanding → List Outstanding × List Datagram × Bool
  | [] => ([], [], true)
  | o :: os =>
    if (now + 2 ^ 64 - o.sentAt) % 2 ^ 64 < min (1000 * 2 ^ o.retries) 16000 then
      let r := retransmitLoop now sent os
      (o :: r.1, r.2)
    else if o.retries ≥ 10 then (o :: os, [], false)
    else if !sent o.id then (o :: os, [o.datagram], false)
    else
      let r := retransmitLoop now sent os
      ({ o with sentAt := now, retries := o.retries + 1 } :: r.1, o.datagram :: r.2.1, r.2.2)

/-- `ch_ovpn_retransmit`. -/
def retransmit (s : Session) (now : Nat) (sent : Nat → Bool) : Session × Bool :=
  let r := retransmitLoop now sent s.outstanding
  ({ s with outstanding := r.1, socket := s.socket ++ r.2.1 }, r.2.2)

/-! ## Receiving -/

/-- What `ch_ovpn_handle_control` reads in front of a packet's number. -/
structure Header where
  opcode : Opcode
  remoteSession : Bytes
  acks : List Nat
  /-- The bytes behind the header. -/
  rest : Bytes
deriving DecidableEq, Repr

/-- The checks of `ch_ovpn_handle_control` that come before its first write to the session. -/
def parseHeader (s : Session) (bytes : Bytes) : Option Header :=
  match bytes with
  | [] => none
  | first :: tail =>
    if bytes.length < 10 then none
    else
      match Opcode.ofCode? (first.toNat / 8) with
      | none => none
      | some opcode =>
        let remote := tail.take 8
        let ackCount := ((tail.drop 8).headD 0).toNat
        let tail := tail.drop 9
        let rest := tail.drop (4 * ackCount)
        if first.toNat % 8 ≠ s.keyId then none
        else if ackCount > tail.length / 4 then none
        else if s.haveRemoteSession ∧ s.remoteSession ≠ remote then none
        else if ackCount = 0 then some ⟨opcode, remote, [], rest⟩
        else if rest.length < 8 then none
        else if rest.take 8 ≠ s.localSession then none
        else some ⟨opcode, remote, readAcks ackCount tail, rest.drop 8⟩

/-- `ch_ovpn_remove_outstanding`. -/
def removeOutstanding (os : List Outstanding) (id : Nat) : List Outstanding :=
  os.eraseP fun o ↦ o.id = id

/-- The header's effect: the first packet fixes the peer's session, and acknowledged packets are
forgotten. -/
def Session.acceptHeader (s : Session) (h : Header) : Session :=
  { s with
    remoteSession := if s.haveRemoteSession then s.remoteSession else h.remoteSession
    haveRemoteSession := true
    outstanding := h.acks.foldl removeOutstanding s.outstanding }

/-- Which allocations and which `send` succeed while a packet is handled; `append` answers for the
payload of each packet number. -/
structure Fate where
  packet : Bool := true
  payload : Bool := true
  append : Nat → Bool := fun _ ↦ true
  ack : SendFate := {}

/-- One packet that is next in order goes to the stream; `none` when there is no memory for it. -/
def Session.accept (s : Session) (e : Reorder) (append : Nat → Bool) : Option Session :=
  if e.opcode = .hardResetServerV2 then some { s with sawServerReset := true }
  else if h : e.opcode = .controlV1 ∧ e.payload ≠ [] then
    if append e.id then some { s with stream := s.stream.append e.payload h.2 } else none
  else some s

/-- The delivery loop of `ch_ovpn_handle_control`.  Every round takes a packet off the reorder list,
so that a bound above the length of the list is never reached. -/
def deliver (append : Nat → Bool) : Nat → Session → Session × Bool
  | 0, s => (s, true)
  | n + 1, s =>
    match s.reorder.find? fun e ↦ e.id = s.nextExpectedId with
    | none => (s, true)
    | some e =>
      let s := { s with reorder := s.reorder.eraseP fun e ↦ e.id = s.nextExpectedId }
      match s.accept e append with
      | none => (s, false)
      | some s => deliver append n { s with nextExpectedId := (s.nextExpectedId + 1) % 2 ^ 32 }

/-- `ch_ovpn_handle_control` from the packet's number on.  The number is queued for acknowledgement
first; then a packet that is old, too far ahead or a duplicate is dropped. -/
def receivePacket (s : Session) (opcode : Opcode) (id : Nat) (payload : Bytes) (fate : Fate) :
    Session × Bool :=
  let s := if s.pendingAcks.length < 256 then { s with pendingAcks := s.pendingAcks ++ [id] } else s
  if id < s.nextExpectedId ∨ id - s.nextExpectedId ≥ 64 ∨ s.reorder.any fun e ↦ e.id = id then
    ((sendAck s fate.ack).1, true)
  else if !fate.packet then (s, false)
  else if payload ≠ [] ∧ !fate.payload then (s, false)
  else
    let s := { s with reorder := ⟨id, opcode, payload⟩ :: s.reorder }
    match deliver fate.append (s.reorder.length + 1) s with
    | (s, false) => (s, false)
    | (s, true) => sendAck s fate.ack

/-- `ch_ovpn_handle_control`. -/
def handleControl (s : Session) (bytes : Bytes) (fate : Fate) : Session × Bool :=
  match parseHeader s bytes with
  | none => (s, false)
  | some h =>
    let s := s.acceptHeader h
    if h.opcode = .ackV1 then (s, h.rest.isEmpty)
    else if h.rest.length < 4 then (s, false)
    else receivePacket s h.opcode (readU32 h.rest) (h.rest.drop 4) fate

/-! ## Runs -/

/-- A session together with the bytes that have left its stream at the front. -/
structure System where
  session : Session
  consumed : Bytes := []
deriving DecidableEq

/-- What happens to a session. -/
inductive Event where
  /-- A datagram arrives. -/
  | receive (bytes : Bytes) (fate : Fate)
  /-- A control packet is sent. -/
  | send (opcode : Opcode) (payload : Bytes) (now : Nat) (fate : SendFate)
  /-- The retransmission timer ticks. -/
  | retransmit (now : Nat) (sent : Nat → Bool)
  /-- TLS reads from the stream. -/
  | read (capacity : Nat)
  /-- The handshake is over, and the stream is freed. -/
  | discard

def step (s : System) : Event → System
  | .receive bytes fate => { s with session := (handleControl s.session bytes fate).1 }
  | .send opcode payload now fate =>
    { s with session := (sendControl s.session opcode payload now fate).1 }
  | .retransmit now sent => { s with session := (retransmit s.session now sent).1 }
  | .read capacity =>
    let r := s.session.stream.read capacity
    { session := { s.session with stream := r.2 }, consumed := s.consumed ++ r.1 }
  | .discard =>
    { session := { s.session with stream := .empty }
      consumed := s.consumed ++ s.session.stream.content }

end ClambHook.OpenVpn
