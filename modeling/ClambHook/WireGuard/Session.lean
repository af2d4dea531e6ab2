import ClambHook.WireGuard.Keypair

/-!
# The WireGuard data path

`protocol_wireguard.c` moves inner packets through the keypairs of its peers: it encrypts and sends
them, queues them while there is no key, and authenticates, checks and hands on what comes in.

The cryptography is a parameter: `Aead` is ChaCha20-Poly1305 with the packet counter as nonce and no
additional data.  The clock stands still within one call, and the outcome of every allocation and
`sendto` is an input (`Fate`).  The three handshake messages are parameters too (`Handshakes`).
-/

namespace ClambHook.WireGuard

open CString

/-- `wireguard_aead_encrypt` and `wireguard_aead_decrypt` with a key and a counter; a tag that does
not verify gives `none`. -/
structure Aead where
  encrypt : Bytes → UInt64 → Bytes → Bytes
  decrypt : Bytes → UInt64 → Bytes → Option Bytes

/-- The address families. -/
inductive Family where
  | inet
  | inet6
deriving DecidableEq, Repr

/-- `ch_wg_prefix`. -/
structure Prefix where
  family : Family
  address : Bytes
  length : Nat
deriving DecidableEq, Repr

/-- A `struct sockaddr_storage` with its length. -/
structure Endpoint where
  family : Family
  address : Bytes
  port : Nat
  length : Nat
deriving DecidableEq, Repr

/-- `ch_wg_peer`.  The protocol library's peer is the slot `protocol` of the device. -/
structure Peer where
  protocol : Nat
  endpoint : Endpoint
  allowed : List Prefix := []
  pending : List Bytes := []
  pendingCount : Nat := 0
  pendingBytes : Nat := 0
deriving DecidableEq, Repr

/-- The part of `ch_wg_session` that the data path uses. -/
structure Session where
  device : List Protocol
  peers : List Peer
  ipv4Socket : Bool := true
  ipv6Socket : Bool := true
  stopping : Bool := false
  /-- What has been handed to `sendto`, the latest last. -/
  sent : List (Endpoint × Bytes) := []
deriving DecidableEq, Repr

/-- The clock, and which allocations and sends of a call succeed: the buffer for the plain text,
and the buffer and the `sendto` of the packets sent on the way, by their position. -/
structure Fate where
  now : UInt32
  plain : Bool := true
  outer : Nat → Bool := fun _ ↦ true
  sent : Nat → Bool := fun _ ↦ true

/-! ## Numbers in packets -/

/-- `U8TO32_LITTLE` and `U8TO64_LITTLE`: the value of the first bytes, the lowest one first. -/
def littleEndian : Bytes → Nat
  | [] => 0
  | b :: bs => b.toNat + 256 * littleEndian bs

/-- `U32TO8_LITTLE` and `U64TO8_LITTLE`, in `n` bytes. -/
def toLittleEndian : Nat → Nat → Bytes
  | 0, _ => []
  | n + 1, x => x.toUInt8 :: toLittleEndian n (x / 256)

/-- The receiver's index and the counter of a transport-data packet. -/
def receiverOf (packet : Bytes) : UInt32 := .ofNat (littleEndian ((packet.drop 4).take 4))
def counterOf (packet : Bytes) : UInt64 := .ofNat (littleEndian ((packet.drop 8).take 8))

/-- The message types. -/
inductive MessageType where
  | handshakeInitiation
  | handshakeResponse
  | cookieReply
  | transportData
deriving DecidableEq, Repr

/-- `wireguard_get_message_type`; `none` is `MESSAGE_INVALID`. -/
def getMessageType : Bytes → Option MessageType
  | type :: 0 :: 0 :: 0 :: rest =>
    let length := rest.length + 4
    if type = 1 ∧ length = 148 then some .handshakeInitiation
    else if type = 2 ∧ length = 92 then some .handshakeResponse
    else if type = 3 ∧ length = 64 then some .cookieReply
    else if type = 4 ∧ length ≥ 32 then some .transportData
    else none
  | _ => none

/-! ## Inner packets -/

/-- `ch_wg_inner_addresses`: the family, the source address and the length of an IP packet. -/
def innerAddresses (packet : Bytes) : Option (Family × Bytes × Nat) :=
  if packet.length < 20 then none
  else
    let byte (i : Nat) := (packet.getD i 0).toNat
    if byte 0 / 16 = 4 then
      let header := byte 0 % 16 * 4
      let total := byte 2 * 256 + byte 3
      if header < 20 ∨ total < header ∨ total > packet.length then none
      else some (.inet, (packet.drop 12).take 4, total)
    else if byte 0 / 16 = 6 ∧ packet.length ≥ 40 then
      let total := 40 + (byte 4 * 256 + byte 5)
      if total > packet.length then none else some (.inet6, (packet.drop 8).take 16, total)
    else none

/-- `ch_wg_prefix_matches`: whole bytes first, then the bits of the byte that the prefix ends in. -/
def Prefix.matches (p : Prefix) (family : Family) (address : Bytes) : Bool :=
  let full := p.length / 8
  let rest := p.length % 8
  let mask : UInt8 := 0xff <<< (8 - rest).toUInt8
  p.family == family && p.address.take full == address.take full &&
    (rest == 0 || p.address.getD full 0 &&& mask == address.getD full 0 &&& mask)

/-- `ch_wg_source_allowed`. -/
def Peer.sourceAllowed (p : Peer) (family : Family) (source : Bytes) : Bool :=
  p.allowed.any fun a ↦ a.matches family source

/-- `ch_wg_update_endpoint`: a `struct sockaddr_storage` has 128 bytes. -/
def Peer.updateEndpoint (p : Peer) (endpoint : Endpoint) : Peer :=
  if endpoint.length ≤ 128 then { p with endpoint := endpoint } else p

/-! ## Sending -/

def Session.modifyProtocol (s : Session) (slot : Nat) (f : Protocol → Protocol) : Session :=
  { s with device := s.device.modify slot f }

def Session.modifyPeer (s : Session) (i : Nat) (f : Peer → Peer) : Session :=
  { s with peers := s.peers.modify i f }

/-- `ch_wg_sending_key`: the current keypair, or the previous one while we are the responder and
nothing has come in under the current one. -/
def Protocol.sendingKey (p : Protocol) (now : UInt32) : Option KeySlot :=
  let slot :=
    if p.curr.valid && !p.curr.initiator && p.curr.lastRx == 0 then KeySlot.prev else .curr
  let k := p.keypair slot
  if !k.valid || (!k.initiator && k.lastRx == 0) || expired now k.keypairMillis rejectAfterTime ||
      k.sendingCounter ≥ rejectAfterMessages then none
  else some slot

/-- `ch_wg_send_transport_locked`, as the `n`-th packet that a call sends. -/
def sendTransport (aead : Aead) (fate : Fate) (n : Nat) (s : Session) (i : Nat) (packet : Bytes) :
    Session × Bool :=
  match s.peers[i]? with
  | none => (s, false)
  | some peer =>
    match s.device[peer.protocol]? with
    | none => (s, false)
    | some protocol =>
      match protocol.sendingKey fate.now with
      | none => (s, false)
      | some slot =>
        let k := protocol.keypair slot
        let padded := (packet.length + 15) / 16 * 16
        if packet.length > 65535 ∨ padded > 65535 - 32 ∨ !fate.outer n then (s, false)
        else
          let plain := packet ++ List.replicate (padded - packet.length) 0
          let outer := [4, 0, 0, 0] ++ toLittleEndian 4 k.remoteIndex.toNat ++
            toLittleEndian 8 k.sendingCounter.toNat ++
              aead.encrypt plain k.sendingCounter k.sendingKey
          let k := { k with sendingCounter := k.sendingCounter + 1 }
          -- Without a socket of the endpoint's family `sendto` is not reached.
          let socket := if peer.endpoint.family = .inet6 then s.ipv6Socket else s.ipv4Socket
          let sent := socket && fate.sent n
          let k := if sent then { k with lastTx := fate.now } else k
          let rekey := k.sendingCounter ≥ rekeyAfterMessages ||
            (k.initiator && expired fate.now k.keypairMillis rekeyAfterTime)
          let protocol := protocol.setKeypair slot k
          let protocol :=
            { protocol with
              lastTx := if sent then fate.now else protocol.lastTx
              sendHandshake := protocol.sendHandshake || rekey }
          let s := s.modifyProtocol peer.protocol fun _ ↦ protocol
          ({ s with sent := if socket then s.sent ++ [(peer.endpoint, outer)] else s.sent }, sent)

/-- `ch_wg_flush_pending_locked`, over what is queued: a packet that is sent leaves the queue, and
the first one that is not ends the loop. -/
def flushPending (aead : Aead) (fate : Fate) (i : Nat) : Nat → List Bytes → Session → Session
  | _, [], s => s
  | n, packet :: rest, s =>
    match sendTransport aead fate n s i packet with
    | (s, false) => s
    | (s, true) =>
      flushPending aead fate i (n + 1) rest <| s.modifyPeer i fun p ↦
        { p with
          pending := rest
          pendingCount := p.pendingCount - 1
          pendingBytes := p.pendingBytes - packet.length }

/-! ## Receiving -/

/-- `ch_wg_peer_for_protocol`. -/
def peerForProtocol (s : Session) (slot : Nat) : Option Nat :=
  s.peers.findIdx? fun p ↦ p.protocol = slot

/-- The peer, the device slot and the keypair that a transport-data packet names. -/
structure Named where
  peer : Nat
  slot : Nat
  protocol : Protocol
  key : KeySlot
deriving DecidableEq, Repr

/-- The lookups at the start of `ch_wg_process_data_locked`. -/
def Session.named (s : Session) (packet : Bytes) : Option Named := do
  let slot ← peerLookupByReceiver s.device (receiverOf packet)
  let peer ← peerForProtocol s slot
  let protocol ← s.device[slot]?
  let key ← protocol.keypairForIdx (receiverOf packet)
  return ⟨peer, slot, protocol, key⟩

/-- The limits that `ch_wg_process_data_locked` checks before it authenticates a packet. -/
def withinLimits (k : Keypair) (counter : UInt64) (now : UInt32) : Bool :=
  k.receivingValid && !expired now k.keypairMillis rejectAfterTime && counter < rejectAfterMessages

/-- The effects of an authentic packet, in the order of the source: endpoint, times, the rotation of
the keys, a new handshake near the end of a session, and what was queued. -/
def acceptData (aead : Aead) (fate : Fate) (source : Endpoint) (s : Session) (n : Named)
    (k : Keypair) : Session :=
  let s := s.modifyPeer n.peer fun p ↦ p.updateEndpoint source
  let protocol := n.protocol.setKeypair n.key { k with lastRx := fate.now }
  let protocol := { protocol with lastRx := fate.now }.keypairUpdate n.key
  let renew := k.initiator && expired fate.now k.keypairMillis (rejectAfterTime - rekeyTimeout)
  let protocol := { protocol with sendHandshake := protocol.sendHandshake || renew }
  let s := s.modifyProtocol n.slot fun _ ↦ protocol
  flushPending aead fate n.peer 0 ((s.peers[n.peer]?.map (·.pending)).getD []) s

/-- `ch_wg_process_data_locked`: the session, and the inner packet if there is one to hand on.  A
packet that fails the limits takes its keypair with it. -/
def processData (aead : Aead) (fate : Fate) (source : Endpoint) (s : Session) (packet : Bytes) :
    Session × Option Bytes :=
  if packet.length < 32 then (s, none)
  else
    match s.named packet with
    | none => (s, none)
    | some n =>
      let k := n.protocol.keypair n.key
      let counter := counterOf packet
      if !withinLimits k counter fate.now then
        (s.modifyProtocol n.slot fun p ↦ p.setKeypair n.key .destroyed, none)
      else if packet.length > 32 ∧ !fate.plain then (s, none)
      else
        match aead.decrypt (packet.drop 16) counter k.receivingKey with
        | none => (s, none)
        | some plain =>
          match checkReplay k counter with
          | (_, false) => (s, none)
          | (k, true) =>
            -- The replay window is written even if the inner packet is refused below.
            let checked := s.modifyProtocol n.slot fun p ↦ p.setKeypair n.key k
            if packet.length = 32 then (acceptData aead fate source s n k, none)
            else
              match innerAddresses plain, s.peers[n.peer]? with
              | some (family, address, length), some peer =>
                if peer.sourceAllowed family address then
                  (acceptData aead fate source s n k, some (plain.take length))
                else (checked, none)
              | _, _ => (checked, none)

/-- The handlers of the three handshake messages. -/
structure Handshakes where
  initiation : Fate → Endpoint → Session → Bytes → Session
  response : Fate → Endpoint → Session → Bytes → Session
  cookie : Fate → Endpoint → Session → Bytes → Session

/-- `ch_wg_process_outer`: the session, and the packets injected into the tunnel. -/
def processOuter (aead : Aead) (handshakes : Handshakes) (fate : Fate) (source : Endpoint)
    (s : Session) (packet : Bytes) : Session × List Bytes :=
  if s.stopping then (s, [])
  else
    match getMessageType packet with
    | none => (s, [])
    | some .handshakeInitiation => (handshakes.initiation fate source s packet, [])
    | some .handshakeResponse => (handshakes.response fate source s packet, [])
    | some .cookieReply => (handshakes.cookie fate source s packet, [])
    | some .transportData =>
      let r := processData aead fate source s packet
      (r.1, r.2.toList.filter fun inner ↦ !inner.isEmpty)

/-! ## A peer and its address -/

def somewhere : Endpoint := ⟨.inet, [192, 0, 2, 1], 51820, 16⟩

/-- A peer of the library with a young current keypair that answers to the index 7. -/
def youngProtocol : Protocol where
  valid := true
  curr := { Keypair.destroyed with
    valid := true, initiator := true, sendingValid := true, receivingValid := true,
    keypairMillis := 1000, localIndex := 7, remoteIndex := 9 }
  prev := .destroyed
  next := .destroyed

end ClambHook.WireGuard
