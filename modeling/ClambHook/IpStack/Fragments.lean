import ClambHook.Lib.Pieces
import ClambHook.TcpNat.Packet
import Mathlib.Logic.Function.Basic

/-!
# Fragments of IP packets

The TUN stack of `ip_stack.c` puts fragmented packets together before it looks at them.  A fragment
belongs to a flow, by its addresses, identifier and protocol.  A flow has a buffer for the payload,
a bitmap of the bytes that have come, and the number of them; the first fragment gives the header,
the last one the length.  A flow that fails, completes or waits for too long is dead, and is swept
at once.

The buffer comes from `malloc`.  What is in it then is an input.
-/

namespace ClambHook.IpStack.Reassembly

open CString ByteRange InternetChecksum TcpNat Pieces

/-! ## Flows -/

/-- What a fragment has in common with the others of its datagram. -/
structure FragmentKey where
  family : Family
  source : Bytes
  target : Bytes
  identifier : Nat
  protocol : UInt8
deriving DecidableEq

/-- A fragment as it is given to `ch_ip_stack_fragment_store`, with the header in front of it. -/
structure Fragment extends Piece UInt8 where
  key : FragmentKey
  header : Bytes
  nextHeaderOffset : Nat
  more : Bool
deriving DecidableEq

/-- A `ch_ip_stack_fragment_flow`; the length of the payload is there when it is known. -/
structure FragmentFlow where
  key : FragmentKey
  header : Bytes := []
  data : Nat → UInt8
  coverage : Nat → UInt8 := fun _ ↦ 0
  nextHeaderOffset : Nat := 0
  totalPayloadLength : Option Nat := none
  coveredLength : Nat := 0
  haveFirst : Bool := false
  lastActivity : UInt32

/-- `CH_IP_STACK_FRAGMENT_FLOW_LIMIT`. -/
def fragmentFlowLimit : Nat := 64

/-- `CH_IP_STACK_FRAGMENT_DATA_CAPACITY`. -/
def fragmentDataCapacity : Nat := 65535

/-- `CH_IP_STACK_EXTENSION_HEADER_LIMIT`. -/
def extensionHeaderLimit : Nat := 512

/-- `CH_IP_STACK_MAX_PACKET`. -/
def maxPacket : Nat := 65535

/-- The bit of an offset in its byte of the bitmap. -/
def coverageBit (offset : Nat) : UInt8 :=
  1 <<< (offset % 8).toUInt8

/-- `ch_ip_stack_fragment_covered`. -/
def fragmentCovered (coverage : Nat → UInt8) (offset : Nat) : Bool :=
  coverage (offset / 8) &&& coverageBit offset != 0

/-- `ch_ip_stack_fragment_mark`. -/
def fragmentMark (coverage : Nat → UInt8) (offset : Nat) : Nat → UInt8 :=
  Function.update coverage (offset / 8) (coverage (offset / 8) ||| coverageBit offset)

/-- The loop that marks the bytes of a fragment. -/
def markRange (coverage : Nat → UInt8) (offset : Nat) : Nat → Nat → UInt8
  | 0 => coverage
  | count + 1 => markRange (fragmentMark coverage offset) (offset + 1) count

/-- The buffer behind the `memcpy` of a fragment. -/
def copyIn (data : Nat → UInt8) (g : Fragment) (i : Nat) : UInt8 :=
  if g.Covers i then (g.at? i).getD 0 else data i

/-- The packet of a flow that is complete. -/
def FragmentFlow.packet (f : FragmentFlow) (total : Nat) : Except Error Bytes :=
  let packet := f.header ++ (List.range total).map f.data
  match f.key.family with
  | .inet =>
    let packet := writeU16 2 packet.length packet
    let packet := writeU16 6 (readU16 6 packet &&& 0x4000) packet
    .ok (writeHeaderChecksum f.header.length packet)
  | .inet6 =>
    if f.header.length ≤ f.nextHeaderOffset then
      .error (.set .internal (bytes "invalid saved IPv6 extension chain"))
    else .ok (writeU16 4 (packet.length - 40) (splice f.nextHeaderOffset [f.key.protocol] packet))

/-- What becomes of a flow with a fragment more. -/
inductive Taken where
  | held (f : FragmentFlow)
  | complete (packet : Bytes)

/-- The flow with the fragment in it. -/
def FragmentFlow.write (f : FragmentFlow) (now : UInt32) (g : Fragment) : FragmentFlow :=
  { f with
    data := copyIn f.data g
    coverage := markRange f.coverage g.offset g.content.length
    coveredLength := f.coveredLength + g.content.length
    lastActivity := now
    header := if g.offset = 0 then g.header else f.header
    nextHeaderOffset := if g.offset = 0 then g.nextHeaderOffset else f.nextHeaderOffset
    haveFirst := f.haveFirst || g.offset == 0
    totalPayloadLength := if g.more then f.totalPayloadLength else some g.stop }

/-- The end of `ch_ip_stack_fragment_store`: a flow that is complete becomes a packet. -/
def FragmentFlow.settle (f : FragmentFlow) : Except Error Taken :=
  match f.totalPayloadLength with
  | none => .ok (.held f)
  | some total =>
    if !f.haveFirst || f.coveredLength != total then .ok (.held f)
    else if maxPacket < f.header.length + total then
      .error (parseError "reassembled IP packet is too large")
    else (f.packet total).map .complete

/-- The part of `ch_ip_stack_fragment_store` behind the choice of the flow.  The flow is dead when
it fails, and when it is complete. -/
def FragmentFlow.take (f : FragmentFlow) (now : UInt32) (g : Fragment) : Except Error Taken :=
  if f.totalPayloadLength.any fun total ↦ total < g.stop || (!g.more && g.stop != total) then
    .error (parseError "inconsistent IP fragment total length")
  else if (List.range g.content.length).any fun i ↦ fragmentCovered f.coverage (g.offset + i) then
    .error (parseError "overlapping IP fragments are rejected")
  else if g.offset = 0 ∧ extensionHeaderLimit < g.header.length then
    .error (parseError "IP fragment header is too large")
  else if !g.more && g.stop < f.coveredLength + g.content.length then
    .error (parseError "IP fragments extend beyond final fragment")
  else (f.write now g).settle

/-- The flow of a fragment becomes another, or none. -/
def replaceFlow (key : FragmentKey) (f : Option FragmentFlow) :
    List FragmentFlow → List FragmentFlow
  | [] => []
  | e :: rest => if e.key = key then f.toList ++ rest else e :: replaceFlow key f rest

/-- The flows behind a fragment, and what `ch_ip_stack_fragment_store` returns. -/
def sweepTaken (key : FragmentKey) (flows : List FragmentFlow) :
    Except Error Taken → Except Error (Option Bytes) × List FragmentFlow
  | .error e => (.error e, replaceFlow key none flows)
  | .ok (.held f) => (.ok none, replaceFlow key (some f) flows)
  | .ok (.complete packet) => (.ok (some packet), replaceFlow key none flows)

/-- `ch_ip_stack_fragment_store`; `memory` is what `malloc` returns for the buffer of a new flow. -/
def fragmentStore (flows : List FragmentFlow) (now : UInt32) (memory : Nat → UInt8) (g : Fragment) :
    Except Error (Option Bytes) × List FragmentFlow :=
  if fragmentDataCapacity < g.stop ∨ (g.more ∧ (g.content = [] ∨ g.content.length % 8 ≠ 0)) then
    (.error (parseError "invalid IP fragment offset or length"), flows)
  else
    let present := flows.find? (·.key = g.key)
    if present.isNone ∧ fragmentFlowLimit ≤ flows.length then
      (.error (.set .invalidState (bytes "native IP fragment flow limit reached")), flows)
    else
      let f := present.getD { key := g.key, data := memory, lastActivity := now }
      let flows := if present.isSome then flows else f :: flows
      sweepTaken g.key flows (f.take now g)

/-- The part of `ch_ip_stack_tick` that is about fragments. -/
def fragmentTick (flows : List FragmentFlow) (now : UInt32) : List FragmentFlow :=
  flows.filter fun f ↦ now - f.lastActivity < 30000

/-! ## Packets -/

/-- A packet of a client is whole, or a fragment. -/
inductive Input where
  | whole (packet : Bytes)
  | fragment (g : Fragment)

/-- The key of an IPv4 packet. -/
def ipv4Key (packet : Bytes) : FragmentKey where
  family := .inet
  source := slice 12 4 packet
  target := slice 16 4 packet
  identifier := readU16 4 packet
  protocol := packet.getD 9 0

/-- The IPv4 part of `ch_ip_stack_prepare_input_packet`. -/
def splitIpv4 (packet : Bytes) : Except Error Input :=
  let header := headerLength packet
  if header < 20 ∨ packet.length < header ∨ readU16 2 packet ≠ packet.length ∨
      checksum (packet.take header) ≠ 0 then
    .error (parseError "invalid IPv4 packet header")
  else
    let field := readU16 6 packet
    let offset := (field &&& 0x1fff) * 8
    let more := field &&& 0x2000 != 0
    if offset = 0 ∧ !more then .ok (.whole packet)
    else
      .ok (.fragment {
        offset := offset
        content := packet.drop header
        key := ipv4Key packet
        header := packet.take header
        nextHeaderOffset := 0
        more := more })

/-- The loop over the extension headers in front of a fragment header, with the number that may
still come: the next header, where its number stands, and where it starts. -/
def fragmentHeaderLoop (packet : Bytes) :
    Nat → (next : UInt8) → (nextOffset cursor : Nat) → Except Error (UInt8 × Nat × Nat)
  | left, next, nextOffset, cursor =>
    if !isExtension next then .ok (next, nextOffset, cursor)
    else
      match left with
      | 0 => .error (parseError "invalid IPv6 extension header chain")
      | left + 1 =>
        if packet.length < cursor + 2 then
          .error (parseError "invalid IPv6 extension header chain")
        else
          let extension := extensionLength next (packet.getD (cursor + 1) 0)
          if extension < 8 ∨ packet.length < cursor + extension ∨
              extensionHeaderLimit < cursor + extension then
            .error (parseError "invalid or excessive IPv6 extension header")
          else fragmentHeaderLoop packet left (packet.getD cursor 0) cursor (cursor + extension)

/-- The IPv6 part of `ch_ip_stack_prepare_input_packet`. -/
def splitIpv6 (packet : Bytes) : Except Error Input :=
  if packet.length < 40 ∨ readU16 4 packet ≠ packet.length - 40 then
    .error (parseError "invalid IPv6 packet length")
  else do
    let (next, nextOffset, cursor) ← fragmentHeaderLoop packet 16 (packet.getD 6 0) 6 40
    if next ≠ 44 then return .whole packet
    else if packet.length < cursor + 8 ∨ packet.getD (cursor + 1) 0 ≠ 0 then
      throw (parseError "invalid IPv6 fragment header")
    else
      let field := readU16 (cursor + 2) packet
      if field &&& 0x0006 ≠ 0 then throw (parseError "invalid IPv6 fragment reserved bits")
      else
        return .fragment {
          offset := field &&& 0xfff8
          content := packet.drop (cursor + 8)
          key :=
            { family := .inet6, source := slice 8 16 packet, target := slice 24 16 packet
              identifier := 65536 * readU16 (cursor + 4) packet + readU16 (cursor + 6) packet
              protocol := packet.getD cursor 0 }
          header := packet.take cursor
          nextHeaderOffset := nextOffset
          more := field &&& 1 != 0 }

/-- What a packet is. -/
def splitInput (packet : Bytes) : Except Error Input :=
  if version packet = 4 then splitIpv4 packet else splitIpv6 packet

/-- `ch_ip_stack_prepare_input_packet`: a packet that is complete, if there is one. -/
def prepareInputPacket (flows : List FragmentFlow) (now : UInt32) (memory : Nat → UInt8)
    (packet : Bytes) : Except Error (Option Bytes) × List FragmentFlow :=
  match splitInput packet with
  | .error e => (.error e, flows)
  | .ok (.whole packet) => (.ok (some packet), flows)
  | .ok (.fragment g) => fragmentStore flows now memory g

end ClambHook.IpStack.Reassembly
