import ClambHook.Config.Rules

/-!
# Packets over a chain

Three functions say whether a chain of servers carries UDP.  `server_chain_capabilities` is what the
API reports, `ch_protocol_chain_supports_packet` is what a policy group goes by, and
`ch_protocol_chain_dial_packet` dials.

A chain carries packets in one of two ways: its last server takes datagrams, and then it must be the
only one; or its last server takes packets over a stream, which the servers in front of it carry.

What the protocols themselves do with the network is the `Network`.  Its answers are arbitrary; the
ciphers of Shadowsocks are looked up here, for `ch_protocol_chain_dial_packet` does so itself.  The
memory that the source allocates is always there.
-/

namespace ClambHook.Protocol

open CString Config

/-! ## What the API reports -/

inductive UdpMode where
  | stream
  | native
  | unsupported
deriving DecidableEq, Repr

structure Capabilities where
  tcp : Bool
  udp : Bool
  udpMode : UdpMode
  udpReason : Bytes
deriving DecidableEq, Repr

/-- The protocols that carry packets over a stream, as the API spells them. -/
def apiStreamProtocols : List Bytes :=
  [bytes "trojan", bytes "clambback", bytes "vmess", bytes "shadowtls"]

def serverProtocolCapabilities (protocol : Bytes) : Capabilities :=
  if protocol ∈ apiStreamProtocols then ⟨true, true, .stream, []⟩
  else if protocol = bytes "shadowsocks" then
    ⟨true, true, .native, bytes "UDP over a chained stream is not supported"⟩
  else if protocol = bytes "wireguard" then
    ⟨true, true, .native, bytes "WireGuard must be used as a single-hop chain"⟩
  else if protocol = bytes "openvpn" then
    ⟨true, true, .native, bytes "OpenVPN must be used as a single-hop chain"⟩
  else if protocol = bytes "tor" then ⟨true, false, .unsupported, bytes "Tor does not carry UDP"⟩
  else ⟨true, false, .unsupported, bytes "UDP support is unknown for this protocol"⟩

/-- `ch_config_array_get_table`. -/
def asTable : Value → Option Table
  | .table entries => some entries
  | _ => none

/-- The text of a server, if it has one. -/
def optionalString (server : Option Table) (key : String) : Option Bytes :=
  server.bind fun entries ↦ tableString entries key

/-- The servers of a chain. -/
def chainServers (chain : Table) : List Value :=
  (arrayIn chain "server").getD []

/-- The last server, if it is a table. -/
def lastServer (servers : List Value) : Option Table :=
  servers.getLast?.bind asTable

def serverChainCapabilities (servers : List Value) : Capabilities :=
  if servers.length = 0 then ⟨false, false, .unsupported, bytes "chain has no servers"⟩
  else
    let last :=
      serverProtocolCapabilities ((optionalString (lastServer servers) "protocol").getD [])
    if servers.length = 1 then last
    else if !last.udp || last.udpMode ≠ .stream then
      let reason :=
        if last.udpReason = [] then
          if last.udp then bytes "final protocol cannot carry UDP through an upstream chain"
          else bytes "protocol does not support UDP"
        else last.udpReason
      ⟨true, false, .unsupported, reason⟩
    else ⟨true, true, .stream, []⟩

/-! ## What a policy group goes by -/

/-- The protocols that carry packets over a stream. -/
def streamProtocols : List Bytes :=
  [bytes "trojan", bytes "clambback", bytes "vmess"]

/-- The protocols that carry datagrams. -/
def datagramProtocols : List Bytes :=
  [bytes "direct", bytes "shadowsocks", bytes "wireguard", bytes "openvpn"]

/-- Is the protocol one of these, in any spelling? -/
def isOneOf (protocol : Bytes) (protocols : List Bytes) : Bool :=
  protocols.any fun known ↦ strcaseeq protocol known

def notPorted (kind : String) (protocol : Bytes) : Error :=
  .set .unsupported (bytes "native packet " ++ bytes kind ++ bytes " " ++ protocol ++
    bytes " is not ported yet")

def oneServerOnly : Error :=
  .set .unsupported (bytes "native datagram packet chains currently require one server")

def chainSupportsPacket (chain : Table) : Except Error Unit :=
  let servers := chainServers chain
  if servers.length = 0 then
    .error (.set .invalidArgument (bytes "native packet chain requires one server"))
  else
    match optionalString (lastServer servers) "protocol" with
    | none => .error (.set .invalidArgument (bytes "packet chain protocol is required"))
    | some protocol =>
      let supported := isOneOf protocol (streamProtocols ++ datagramProtocols)
      let carrierSupported := servers.length = 1 || isOneOf protocol streamProtocols
      if !supported then .error (notPorted "protocol" protocol)
      else if !carrierSupported then .error oneServerOnly
      else .ok ()

/-! ## Dialing -/

/-- A `ch_packet_kind`. -/
inductive PacketKind where
  | direct
  | shadowsocks
  | trojan
  | vmess
  | tunnel
deriving DecidableEq, Repr

def packetKind (protocol : Bytes) : Option PacketKind :=
  if strcaseeq protocol (bytes "direct") then some .direct
  else if strcaseeq protocol (bytes "shadowsocks") then some .shadowsocks
  else if strcaseeq protocol (bytes "trojan") || strcaseeq protocol (bytes "clambback") then
    some .trojan
  else if strcaseeq protocol (bytes "vmess") then some .vmess
  else if strcaseeq protocol (bytes "wireguard") then some .tunnel
  else if strcaseeq protocol (bytes "openvpn") then some .tunnel
  else none

/-- The protocols that can be dialed for a stream in front of the last server. -/
inductive Carrier where
  | trojan
  | shadowsocks
  | shadowtls
  | tor
  | vmess
deriving DecidableEq, Repr

def carrier (protocol : Bytes) : Option Carrier :=
  if strcaseeq protocol (bytes "trojan") || strcaseeq protocol (bytes "clambback") then some .trojan
  else if strcaseeq protocol (bytes "shadowsocks") then some .shadowsocks
  else if strcaseeq protocol (bytes "shadowtls") then some .shadowtls
  else if strcaseeq protocol (bytes "tor") then some .tor
  else if strcaseeq protocol (bytes "vmess") then some .vmess
  else none

/-- A `ch_ss_method`. -/
inductive Cipher where
  | aes128Gcm
  | aes256Gcm
  | chacha20IetfPoly1305
deriving DecidableEq, Repr

/-- What the protocols answer when they are asked to dial.  A descriptor is a number; a server
without one in front of it dials itself. -/
structure Network where
  /-- Is there hardware for AES? -/
  aes256GcmAvailable : Bool
  connectTcp : (address : Bytes) → Except Error Nat
  dial : Carrier → (server : Table) → (descriptor : Option Nat) → (target : Bytes) →
    Except Error Nat
  trojanPacketStream : (server : Table) → (descriptor : Option Nat) → Except Error Nat
  vmessPacketStream : (server : Table) → (descriptor : Option Nat) → (target : Bytes) →
    Except Error Nat
  /-- The key, the salt and the socket of Shadowsocks. -/
  shadowsocksPacket : Cipher → (password address saltText : Bytes) → Except Error Unit
  wireguardOpenPacket : (server : Table) → Except Error Unit
  openvpnOpenPacket : (server : Table) → Except Error Unit

def legacyCiphers : List Bytes :=
  [bytes "rc4-md5", bytes "aes-128-cfb", bytes "aes-192-cfb", bytes "aes-256-cfb",
    bytes "aes-128-ctr", bytes "aes-192-ctr", bytes "aes-256-ctr", bytes "chacha20",
    bytes "chacha20-ietf", bytes "salsa20", bytes "camellia-128-cfb", bytes "camellia-192-cfb",
    bytes "camellia-256-cfb", bytes "bf-cfb"]

def cipherFromName (net : Network) (name : Bytes) : Except Error Cipher :=
  if name = bytes "aes-128-gcm" then .ok .aes128Gcm
  else if name = bytes "aes-256-gcm" then
    if net.aes256GcmAvailable then .ok .aes256Gcm
    else .error (.set .unsupported (bytes "shadowsocks: aes-256-gcm requires hardware AES; " ++
      bytes "use chacha20-ietf-poly1305 instead"))
  else if name = bytes "chacha20-ietf-poly1305" then .ok .chacha20IetfPoly1305
  else if name ∈ legacyCiphers then
    .error (.set .unsupported (bytes "shadowsocks: legacy stream cipher " ++ name ++
      bytes " is insecure and not supported"))
  else .error (.set .unsupported (bytes "shadowsocks: unknown method " ++ name))

/-- The settings of a Shadowsocks server for packets, each with its fallback: method, password,
address and salt. -/
def shadowsocksSettings (server : Option Table) : Except Error (Bytes × Bytes × Bytes × Bytes) :=
  let settings := server.bind fun entries ↦ getTable entries (bytes "settings")
  let setting := fun (key : String) (fallback : Option Bytes) ↦
    (optionalString settings key).or fallback
  match setting "udp_method" (optionalString settings "method"),
      setting "udp_password" (optionalString settings "password"),
      setting "udp_address" (optionalString server "address") with
  | some method, some password, some address =>
    if password = [] ∨ address = [] then
      .error (.set .invalidArgument
        (bytes "Shadowsocks packet method, password, and address are required"))
    else
      .ok (method, password, address,
        (setting "udp_prefix_base64" (optionalString settings "prefix_base64")).getD [])
  | _, _, _ =>
    .error (.set .invalidArgument
      (bytes "Shadowsocks packet method, password, and address are required"))

/-- The stream through one server to the next one. -/
def carrierHop (net : Network) (server next : Option Table) (descriptor : Option Nat) :
    Except Error Nat :=
  let protocol := (optionalString server "protocol").getD []
  let nextAddress := (optionalString next "address").getD []
  if optionalString server "protocol" = none ∨ nextAddress = [] then
    .error (.set .invalidArgument (bytes "packet carrier and next address are required"))
  else if strcaseeq protocol (bytes "direct") && descriptor.isNone then net.connectTcp nextAddress
  else
    match carrier protocol with
    | some carrier => net.dial carrier (server.getD []) descriptor nextAddress
    | none => .error (notPorted "carrier" protocol)

/-- `ch_protocol_chain_packet_prefix`: the stream through all servers but the last. -/
def chainPacketCarriers (net : Network) : List Value → Option Nat → Except Error (Option Nat)
  | server :: next :: rest, descriptor => do
    let reached ← carrierHop net (asTable server) (asTable next) descriptor
    chainPacketCarriers net (next :: rest) (some reached)
  | _, descriptor => .ok descriptor

/-- A stream of packets behind the carriers.  The source has this function twice, with the protocols
that the last server may have, the message for others, and how the last server is dialed. -/
def chainPacketStream (net : Network) (chain : Table) (protocols : List Bytes) (message : String)
    (dial : Table → Option Nat → Except Error Nat) : Except Error Nat := do
  let servers := chainServers chain
  if servers.length = 0 then
    .error (.set .invalidArgument (bytes "native packet chain requires a server"))
  else
    let descriptor ← chainPacketCarriers net servers none
    if isOneOf ((optionalString (lastServer servers) "protocol").getD []) protocols then
      dial ((lastServer servers).getD []) descriptor
    else .error (.set .unsupported (bytes message))

def chainTrojanPacketStream (net : Network) (chain : Table) : Except Error Nat :=
  chainPacketStream net chain [bytes "trojan", bytes "clambback"]
    "packet stream chain must end in Trojan or clambback" net.trojanPacketStream

def chainVmessPacketStream (net : Network) (chain : Table) (target : Bytes) : Except Error Nat :=
  chainPacketStream net chain [bytes "vmess"] "VMESS packet stream chain must end in VMESS"
    fun server descriptor ↦ net.vmessPacketStream server descriptor target

/-- The part of `ch_protocol_chain_dial_packet` behind the choice of the kind. -/
def dialKind (net : Network) (chain : Table) (target : Bytes) (kind : PacketKind) :
    Except Error Unit := do
  let server := lastServer (chainServers chain)
  match kind with
  | .direct => .ok ()
  | .shadowsocks =>
    let (method, password, address, saltText) ← shadowsocksSettings server
    let cipher ← cipherFromName net method
    net.shadowsocksPacket cipher password address saltText
  | .trojan => (chainTrojanPacketStream net chain).map fun _ ↦ ()
  | .vmess => (chainVmessPacketStream net chain target).map fun _ ↦ ()
  | .tunnel =>
    if (optionalString server "protocol").any fun protocol ↦
        strcaseeq protocol (bytes "openvpn") then
      net.openvpnOpenPacket (server.getD [])
    else net.wireguardOpenPacket (server.getD [])

def chainDialPacket (net : Network) (chain : Table) (target : Bytes) : Except Error Unit :=
  let servers := chainServers chain
  if servers.length = 0 then
    .error (.set .invalidArgument (bytes "native packet chain requires one server"))
  else
    match optionalString (lastServer servers) "protocol" with
    | none => .error (.set .invalidArgument (bytes "packet chain protocol is required"))
    | some protocol =>
      match packetKind protocol with
      | none => .error (notPorted "protocol" protocol)
      | some kind =>
        if servers.length ≠ 1 ∧ kind ≠ .trojan ∧ kind ≠ .vmess then .error oneServerOnly
        else dialKind net chain target kind

end ClambHook.Protocol
