import ClambHook.Basic
import ClambHook.Lib.InternetChecksum

/-!
# Address translation for TCP

The TUN stack of `ip_stack.c` hands the TCP connections of its clients to lwIP, which listens on the
address of the interface.  A packet of a client is rewritten on its way in: its destination becomes
the interface, and a port that belongs to the flow.  A packet of lwIP is rewritten on its way out:
its source becomes the destination that the client asked for.

A packet is the list of its bytes, at most 65535 of them.  What lwIP does is not modelled: the
outcomes of its calls are inputs, and it may emit any packet.
-/

namespace ClambHook.TcpNat

open CString ByteRange InternetChecksum

/-! ## Packets -/

/-- `ch_ip_stack_read_u16`. -/
def readU16 (offset : Nat) (packet : Bytes) : Nat :=
  256 * (packet.getD offset 0).toNat + (packet.getD (offset + 1) 0).toNat

/-- `ch_ip_stack_write_u16`. -/
def writeU16 (offset value : Nat) (packet : Bytes) : Bytes :=
  splice offset (wordBytes value) packet

/-- `ch_ip_stack_checksum_add`, with a sum of 32 bits. -/
def checksumAdd (bytes : Bytes) (sum : Nat) : Nat :=
  (sum + wordSum bytes) % 2 ^ 32

/-- `ch_ip_stack_checksum`. -/
def checksum (bytes : Bytes) : Nat :=
  finish (checksumAdd bytes 0)

/-- The version in the first byte. -/
def version (packet : Bytes) : Nat :=
  (packet.getD 0 0).toNat / 16

/-- The length of an IPv4 header. -/
def headerLength (packet : Bytes) : Nat :=
  (packet.getD 0 0).toNat % 16 * 4

/-- The checksum of a TCP segment, over the addresses and the rest of the pseudo header in front of
it. -/
def tcpChecksum (addressOffset addressLength : Nat) (pseudo : Bytes) (tcpOffset : Nat)
    (packet : Bytes) : Nat :=
  finish <| checksumAdd (packet.drop tcpOffset) <| checksumAdd pseudo <|
    checksumAdd (slice addressOffset addressLength packet) 0

/-- The part of both checksum functions that is about the TCP segment. -/
def writeTcpChecksum (addressOffset addressLength : Nat) (pseudo : Bytes) (tcpOffset : Nat)
    (packet : Bytes) : Bytes :=
  let packet := splice (tcpOffset + 16) (wordBytes 0) packet
  writeU16 (tcpOffset + 16) (tcpChecksum addressOffset addressLength pseudo tcpOffset packet) packet

/-- What stands behind the addresses in the pseudo header of IPv4. -/
def pseudoIpv4 (tcpLength : Nat) : Bytes :=
  [0, 6, (tcpLength / 256).toUInt8, tcpLength.toUInt8]

/-- What stands behind the addresses in the pseudo header of IPv6. -/
def pseudoIpv6 (tcpLength : Nat) : Bytes :=
  [(tcpLength / 2 ^ 24).toUInt8, (tcpLength / 2 ^ 16).toUInt8, (tcpLength / 2 ^ 8).toUInt8,
    tcpLength.toUInt8, 0, 0, 0, 6]

/-- The part of `ch_ip_stack_ipv4_checksums` that is about the header. -/
def writeHeaderChecksum (header : Nat) (packet : Bytes) : Bytes :=
  let packet := splice 10 (wordBytes 0) packet
  writeU16 10 (checksum (packet.take header)) packet

/-- `ch_ip_stack_ipv4_checksums`. -/
def ipv4Checksums (packet : Bytes) : Bytes :=
  let header := headerLength packet
  if header < 20 ∨ header > packet.length then packet
  else
    let packet := writeHeaderChecksum header packet
    if packet.getD 9 0 ≠ 6 ∨ packet.length < header + 20 then packet
    else writeTcpChecksum 12 8 (pseudoIpv4 (packet.length - header)) header packet

/-- Hop-by-hop options, routing, destination options and authentication. -/
def isExtension (protocol : UInt8) : Bool :=
  protocol == 0 || protocol == 43 || protocol == 60 || protocol == 51

/-- The length of an extension header, from its second byte. -/
def extensionLength (protocol second : UInt8) : Nat :=
  if protocol = 51 then (second.toNat + 2) * 4 else (second.toNat + 1) * 8

/-- The loop over the extension headers of an IPv6 packet, with the number that may still come. -/
def transportLoop (packet : Bytes) : Nat → UInt8 → Nat → Option (UInt8 × Nat)
  | 0, protocol, offset => if isExtension protocol then none else some (protocol, offset)
  | left + 1, protocol, offset =>
    if isExtension protocol then
      if offset + 2 > packet.length then none
      else
        let extension := extensionLength protocol (packet.getD (offset + 1) 0)
        if extension < 8 ∨ offset + extension > packet.length ∨ offset + extension > 512 then none
        else transportLoop packet left (packet.getD offset 0) (offset + extension)
    else some (protocol, offset)

/-- `ch_ip_stack_ipv6_transport`: the protocol behind the extension headers, and its offset. -/
def ipv6Transport (packet : Bytes) : Option (UInt8 × Nat) :=
  if packet.length < 40 ∨ version packet ≠ 6 ∨ readU16 4 packet ≠ packet.length - 40 then none
  else (transportLoop packet 16 (packet.getD 6 0) 40).filter fun found ↦ found.1 ≠ 44

/-- `ch_ip_stack_ipv6_tcp_checksum`. -/
def ipv6TcpChecksum (packet : Bytes) : Bytes :=
  match ipv6Transport packet with
  | none => packet
  | some (protocol, tcpOffset) =>
    if protocol ≠ 6 ∨ packet.length < tcpOffset + 20 then packet
    else writeTcpChecksum 8 32 (pseudoIpv6 (packet.length - tcpOffset)) tcpOffset packet

/-! ## Flows -/

inductive Family where
  | inet
  | inet6
deriving DecidableEq, Repr

/-- The part of a `ch_ip_stack_tcp_flow` that is about addresses. -/
structure Flow where
  family : Family
  source : Bytes
  sourcePort : Nat
  target : Bytes
  targetPort : Nat
  internalPort : Nat
  dead : Bool
deriving DecidableEq, Repr

/-- The part of a `ch_ip_stack` that is about TCP flows, with the addresses of its interface. -/
structure Stack where
  ipv4 : Bytes
  ipv6 : Bytes
  flows : List Flow
  nextTcpPort : Nat
  tcpDialer : Bool

/-- `ch_ip_stack_tcp_flow_for_input`. -/
def flowForInput (stack : Stack) (family : Family) (source : Bytes) (sourcePort : Nat)
    (target : Bytes) (targetPort : Nat) : Option Flow :=
  stack.flows.find? fun flow ↦
    !flow.dead && flow.family == family && flow.sourcePort == sourcePort &&
      flow.targetPort == targetPort && flow.source == source && flow.target == target

/-- `ch_ip_stack_tcp_flow_for_output`. -/
def flowForOutput (stack : Stack) (family : Family) (client : Bytes)
    (clientPort internalPort : Nat) :
    Option Flow :=
  stack.flows.find? fun flow ↦
    !flow.dead && flow.family == family && flow.sourcePort == clientPort &&
      flow.internalPort == internalPort && flow.source == client

/-- `ch_ip_stack_tcp_port_in_use`. -/
def portInUse (stack : Stack) (port : Nat) : Bool :=
  stack.flows.any fun flow ↦ !flow.dead && flow.internalPort == port

/-- The outcome of a call into lwIP: `ERR_MEM` is told apart from the other errors. -/
inductive Outcome where
  | ok
  | failed
  | noMemory
deriving DecidableEq, Repr

/-- The outcomes of the calls into lwIP for a new flow: `tcp_new_ip_type` and `tcp_bind` in each
attempt, and `tcp_listen_with_backlog_and_err`. -/
structure Lwip where
  bind : Nat → Outcome
  listen : Outcome

/-- The loop over the ports from 20000 to 59999: a port that could be bound or the status of the
error, and the port to begin with the next time. -/
def portLoop (stack : Stack) (bind : Nat → Outcome) : Nat → Nat → Nat → Except Status Nat × Nat
  | 0, _, port => (.error .invalidState, port)
  | left + 1, attempt, port =>
    let next := if port + 1 > 59999 then 20000 else port + 1
    if portInUse stack port then portLoop stack bind left (attempt + 1) next
    else
      match bind attempt with
      | .noMemory => (.error .outOfMemory, next)
      | .ok => (.ok port, next)
      | .failed => portLoop stack bind left (attempt + 1) next

/-- `ch_ip_stack_tcp_flow_create`. -/
def flowCreate (lwip : Lwip) (family : Family) (source : Bytes) (sourcePort : Nat) (target : Bytes)
    (targetPort : Nat) (stack : Stack) : Except Error Flow × Stack :=
  if stack.flows.length ≥ 512 then
    (.error <| .set .invalidState (bytes "native TCP TUN flow limit reached"), stack)
  else
    let (port, next) := portLoop stack lwip.bind 40000 0 stack.nextTcpPort
    let stack := { stack with nextTcpPort := next }
    match port, lwip.listen with
    | .error status, _ =>
      (.error <| .set status (bytes "allocate internal TCP TUN listener"), stack)
    | .ok _, .noMemory =>
      (.error <| .set .outOfMemory (bytes "listen for internal TCP TUN flow"), stack)
    | .ok _, .failed =>
      (.error <| .set .internal (bytes "listen for internal TCP TUN flow"), stack)
    | .ok port, .ok =>
      let flow : Flow := ⟨family, source, sourcePort, target, targetPort, port, false⟩
      (.ok flow, { stack with flows := flow :: stack.flows })

/-- The flow for a packet of a client: one that is there, or a new one for the first packet of a
connection.  A packet that belongs to no connection has none. -/
def flowFor (lwip : Lwip) (family : Family) (source : Bytes) (sourcePort : Nat) (target : Bytes)
    (targetPort : Nat) (flags : UInt8) (stack : Stack) : Except Error (Option Flow) × Stack :=
  match flowForInput stack family source sourcePort target targetPort with
  | some flow => (.ok (some flow), stack)
  | none =>
    if flags &&& 0x02 = 0 ∨ flags &&& 0x10 ≠ 0 then (.ok none, stack)
    else
      let (flow, stack) := flowCreate lwip family source sourcePort target targetPort stack
      (flow.map some, stack)

/-! ## Packets of a client -/

def parseError (message : String) : Error := .set .parse (bytes message)

def unsupported (message : String) : Error := .set .unsupported (bytes message)

/-- `ch_ip_stack_prepare_ipv4_tcp_input`: the packet for lwIP. -/
def prepareIpv4TcpInput (lwip : Lwip) (packet : Bytes) (stack : Stack) :
    Except Error Bytes × Stack :=
  let header := headerLength packet
  let total := readU16 2 packet
  if header < 20 ∨ header > packet.length ∨ total < header ∨ total ≠ packet.length then
    (.error (parseError "invalid IPv4 packet length"), stack)
  else if packet.getD 9 0 ≠ 6 ∨ slice 16 4 packet = stack.ipv4 then (.ok packet, stack)
  else if !stack.tcpDialer then
    (.error (unsupported "IPv4 TCP forwarding has no route dialer"), stack)
  else if readU16 6 packet % 0x4000 ≠ 0 then
    (.error (unsupported "fragmented IPv4 TCP forwarding is not implemented"), stack)
  else if packet.length < header + 20 then
    (.error (parseError "truncated IPv4 TCP packet"), stack)
  else
    let tcpHeader := (packet.getD (header + 12) 0).toNat / 16 * 4
    if tcpHeader < 20 ∨ header + tcpHeader > packet.length then
      (.error (parseError "invalid IPv4 TCP header"), stack)
    else
      match flowFor lwip .inet (slice 12 4 packet) (readU16 header packet) (slice 16 4 packet)
        (readU16 (header + 2) packet) (packet.getD (header + 13) 0) stack with
      | (.error e, stack) => (.error e, stack)
      | (.ok none, stack) => (.ok packet, stack)
      | (.ok (some flow), stack) =>
        (.ok (ipv4Checksums (writeU16 (header + 2) flow.internalPort
          (splice 16 stack.ipv4 packet))), stack)

/-- `ch_ip_stack_prepare_ipv6_tcp_input`: the packet for lwIP. -/
def prepareIpv6TcpInput (lwip : Lwip) (packet : Bytes) (stack : Stack) :
    Except Error Bytes × Stack :=
  if packet.length < 40 ∨ readU16 4 packet ≠ packet.length - 40 then
    (.error (parseError "invalid IPv6 packet length"), stack)
  else
    match ipv6Transport packet with
    | none => (.error (parseError "invalid IPv6 extension header chain"), stack)
    | some (protocol, tcpOffset) =>
      if protocol ≠ 6 ∨ slice 24 16 packet = stack.ipv6 then (.ok packet, stack)
      else if !stack.tcpDialer then
        (.error (unsupported "IPv6 TCP forwarding has no route dialer"), stack)
      else if packet.length < tcpOffset + 20 then
        (.error (parseError "truncated IPv6 TCP packet"), stack)
      else
        let tcpHeader := (packet.getD (tcpOffset + 12) 0).toNat / 16 * 4
        if tcpHeader < 20 ∨ tcpOffset + tcpHeader > packet.length then
          (.error (parseError "invalid IPv6 TCP header"), stack)
        else
          match flowFor lwip .inet6 (slice 8 16 packet) (readU16 tcpOffset packet)
            (slice 24 16 packet) (readU16 (tcpOffset + 2) packet) (packet.getD (tcpOffset + 13) 0)
            stack with
          | (.error e, stack) => (.error e, stack)
          | (.ok none, stack) => (.ok packet, stack)
          | (.ok (some flow), stack) =>
            (.ok (ipv6TcpChecksum
              (writeU16 (tcpOffset + 2) flow.internalPort (splice 24 stack.ipv6 packet))), stack)

/-- `ch_ip_stack_prepare_tcp_input`. -/
def prepareTcpInput (lwip : Lwip) (packet : Bytes) (stack : Stack) : Except Error Bytes × Stack :=
  if version packet = 4 then prepareIpv4TcpInput lwip packet stack
  else if version packet = 6 then prepareIpv6TcpInput lwip packet stack
  else (.ok packet, stack)

/-! ## Packets of lwIP -/

/-- `ch_ip_stack_rewrite_tcp_output`. -/
def rewriteTcpOutput (stack : Stack) (packet : Bytes) : Bytes :=
  if version packet = 6 then
    match ipv6Transport packet with
    | none => packet
    | some (protocol, tcpOffset) =>
      if protocol ≠ 6 ∨ packet.length < tcpOffset + 20 then packet
      else
        match flowForOutput stack .inet6 (slice 24 16 packet) (readU16 (tcpOffset + 2) packet)
          (readU16 tcpOffset packet) with
        | none => packet
        | some flow =>
          ipv6TcpChecksum (writeU16 tcpOffset flow.targetPort (splice 8 flow.target packet))
  else if packet.length < 40 ∨ version packet ≠ 4 ∨ packet.getD 9 0 ≠ 6 then packet
  else
    let header := headerLength packet
    if header < 20 ∨ packet.length < header + 20 then packet
    else
      match flowForOutput stack .inet (slice 16 4 packet) (readU16 (header + 2) packet)
        (readU16 header packet) with
      | none => packet
      | some flow =>
        ipv4Checksums (writeU16 header flow.targetPort (splice 12 flow.target packet))

/-! ## The end of a flow -/

/-- The flow at a place of the list is marked as dead. -/
def markDead (index : Nat) (stack : Stack) : Stack :=
  { stack with flows := stack.flows.modify index fun flow ↦ { flow with dead := true } }

/-- `ch_ip_stack_tcp_sweep`. -/
def sweep (stack : Stack) : Stack :=
  { stack with flows := stack.flows.filter fun flow ↦ !flow.dead }

/-- The end of `ch_ip_stack_tcp_accept` when the dialer fails: the flow is marked as dead, and then
`tcp_abort` emits a reset for the client. -/
def acceptFailed (index : Nat) (reset : Bytes) (stack : Stack) : Bytes × Stack :=
  let stack := markDead index stack
  (rewriteTcpOutput stack reset, stack)

/-- `ch_ip_stack_tcp_flow_abort`: `tcp_abort` emits a reset for the client, and then the flow is
marked as dead. -/
def flowAbort (index : Nat) (reset : Bytes) (stack : Stack) : Bytes × Stack :=
  (rewriteTcpOutput stack reset, markDead index stack)

end ClambHook.TcpNat
