import ClambHook.Protocol.Packet

/-!
# One answer about UDP

A policy group and the dialing of packets classify the protocol of the last server in the same way:
what the group refuses, the dialing refuses as unsupported (`isUnsupported_chainDialPacket_iff`).
What the group accepts can still be refused behind it, by a server in front of the last that is no
carrier for packets, or by a protocol that does not support its own settings (`Refused`).

The API has a list of its own.  It compares in one spelling only, it has ShadowTLS, which cannot be
the last server, and it does not have direct chains.  `oneAnswer_iff` says for which chains all
three agree.
-/

namespace ClambHook.Protocol

open CString Config List

/-- The call fails with the unsupported error. -/
def IsUnsupported {α : Type} (result : Except Error α) : Prop :=
  ∃ error, result = .error error ∧ error.code = .unsupported

/-- The protocol of the last server. -/
def lastProtocol (chain : Table) : Bytes :=
  (optionalString (lastServer (chainServers chain)) "protocol").getD []

/-- The last server takes packets over a stream, or datagrams and is alone. -/
def Eligible (chain : Table) : Prop :=
  lower (lastProtocol chain) ∈ streamProtocols ∨
    (chainServers chain).length = 1 ∧ lower (lastProtocol chain) ∈ datagramProtocols

/-! ## Answers of single steps -/

section

variable {α β : Type}

theorem not_isUnsupported_ok (a : α) : ¬ IsUnsupported (.ok a : Except Error α) := by
  rintro ⟨error, h, -⟩
  cases h

theorem isUnsupported_error_iff {error : Error} :
    IsUnsupported (.error error : Except Error α) ↔ error.code = .unsupported := by
  constructor
  · rintro ⟨error', h, hcode⟩
    cases h
    exact hcode
  · exact fun hcode ↦ ⟨error, rfl, hcode⟩

theorem isUnsupported_bind_iff {x : Except Error α} {f : α → Except Error β} :
    IsUnsupported (x >>= f) ↔ IsUnsupported x ∨ ∃ a, x = .ok a ∧ IsUnsupported (f a) := by
  cases x with
  | error error =>
    constructor
    · exact fun h ↦ .inl (isUnsupported_error_iff.2 (isUnsupported_error_iff.1 h))
    · rintro (h | ⟨a, h, -⟩)
      · exact isUnsupported_error_iff.2 (isUnsupported_error_iff.1 h)
      · cases h
  | ok a =>
    constructor
    · exact fun h ↦ .inr ⟨a, rfl, h⟩
    rintro (h | ⟨a', h, hf⟩)
    · exact absurd h (not_isUnsupported_ok a)
    · cases h
      exact hf

theorem isUnsupported_map_iff {x : Except Error α} {f : α → β} :
    IsUnsupported (x.map f) ↔ IsUnsupported x := by
  cases x with
  | error error => exact isUnsupported_error_iff.trans isUnsupported_error_iff.symm
  | ok a => exact iff_of_false (not_isUnsupported_ok _) (not_isUnsupported_ok _)

end

/-- A server that is reached refuses to carry the stream on to the next one: its protocol is no
carrier, or answers that it does not support what it is asked for. -/
def CarrierRefuses (net : Network) (server next : Option Table) (descriptor : Option Nat) : Prop :=
  let protocol := (optionalString server "protocol").getD []
  let nextAddress := (optionalString next "address").getD []
  ¬(optionalString server "protocol" = none ∨ nextAddress = []) ∧
    if strcaseeq protocol (bytes "direct") && descriptor.isNone then
      IsUnsupported (net.connectTcp nextAddress)
    else
      ∀ known, carrier protocol = some known →
        IsUnsupported (net.dial known (server.getD []) descriptor nextAddress)

variable {net : Network} {descriptor : Option Nat}

theorem isUnsupported_carrierHop_iff {server next : Option Table} :
    IsUnsupported (carrierHop net server next descriptor) ↔
      CarrierRefuses net server next descriptor := by
  rw [carrierHop, CarrierRefuses]
  by_cases hmissing : optionalString server "protocol" = none ∨
      (optionalString next "address").getD [] = []
  · simp only [hmissing, if_true, not_true, false_and, iff_false]
    exact fun h ↦ absurd (isUnsupported_error_iff.1 h) (by decide)
  simp only [hmissing, if_false, not_false_eq_true, true_and]
  split
  · exact Iff.rfl
  cases hcarrier : carrier ((optionalString server "protocol").getD []) with
  | none =>
    refine iff_of_true (isUnsupported_error_iff.2 rfl) fun known h ↦ ?_
    cases h
  | some known =>
    refine ⟨fun h known' heq ↦ ?_, fun h ↦ h known rfl⟩
    cases heq
    exact h

/-- The stream comes to a server that refuses to carry it on. -/
def CarriersRefuse (net : Network) (servers : List Value) (descriptor : Option Nat) : Prop :=
  ∃ front server next rest reached, servers = front ++ server :: next :: rest ∧
    chainPacketCarriers net (front ++ [server]) descriptor = .ok reached ∧
    CarrierRefuses net (asTable server) (asTable next) reached

theorem chainPacketCarriers_cons (net : Network) (server next : Value) (rest : List Value)
    (descriptor : Option Nat) :
    chainPacketCarriers net (server :: next :: rest) descriptor =
      carrierHop net (asTable server) (asTable next) descriptor >>= fun reached ↦
        chainPacketCarriers net (next :: rest) (some reached) := rfl

theorem exists_append_singleton {front rest rest' : List Value} {next server next' : Value}
    (h : next :: rest = front ++ server :: next' :: rest') :
    ∃ tail, front ++ [server] = next :: tail := by
  cases front with
  | nil => exact ⟨[], by rw [(List.cons.inj h).1, nil_append]⟩
  | cons first front => exact ⟨front ++ [server], by rw [(List.cons.inj h).1, cons_append]⟩

/-- A stream of servers refuses at its first server, or behind it. -/
theorem carriersRefuse_cons_iff {server next : Value} {rest : List Value} :
    CarriersRefuse net (server :: next :: rest) descriptor ↔
      CarrierRefuses net (asTable server) (asTable next) descriptor ∨
        ∃ reached, carrierHop net (asTable server) (asTable next) descriptor = .ok reached ∧
          CarriersRefuse net (next :: rest) (some reached) := by
  constructor
  · rintro ⟨front, server', next', rest', reached, heq, hreached, hrefuses⟩
    cases front with
    | nil =>
      cases heq
      cases hreached
      exact .inl hrefuses
    | cons first front =>
      rw [cons_append, List.cons.injEq] at heq
      obtain ⟨rfl, heq⟩ := heq
      obtain ⟨tail, htail⟩ := exists_append_singleton heq
      rw [cons_append, htail, chainPacketCarriers_cons, bind_eq_ok_iff] at hreached
      obtain ⟨hop, hhop, hrest⟩ := hreached
      exact .inr ⟨hop, hhop, front, server', next', rest', reached, heq, htail ▸ hrest, hrefuses⟩
  · rintro (hrefuses | ⟨hop, hhop, front, server', next', rest', reached, heq, hreached, hrefuses⟩)
    · exact ⟨[], server, next, rest, descriptor, rfl, rfl, hrefuses⟩
    refine ⟨server :: front, server', next', rest', reached, ?_, ?_, hrefuses⟩
    · rw [heq, cons_append]
    obtain ⟨tail, htail⟩ := exists_append_singleton heq
    rw [htail] at hreached
    rw [cons_append, htail, chainPacketCarriers_cons, hhop, ok_bind]
    exact hreached

theorem isUnsupported_chainPacketCarriers_iff {servers : List Value} :
    IsUnsupported (chainPacketCarriers net servers descriptor) ↔
      CarriersRefuse net servers descriptor := by
  have hshort : ∀ (servers : List Value) descriptor, servers.length < 2 →
      ¬ CarriersRefuse net servers descriptor := by
    rintro servers descriptor hlength ⟨front, server, next, rest, reached, rfl, -⟩
    simp only [length_append, length_cons] at hlength
    omega
  induction servers generalizing descriptor with
  | nil => exact iff_of_false (not_isUnsupported_ok _) (hshort [] _ (by decide))
  | cons server servers ih =>
    cases servers with
    | nil => exact iff_of_false (not_isUnsupported_ok _) (hshort [server] _ (by simp))
    | cons next rest =>
      rw [chainPacketCarriers_cons, isUnsupported_bind_iff, isUnsupported_carrierHop_iff,
        carriersRefuse_cons_iff]
      refine or_congr Iff.rfl (exists_congr fun reached ↦ and_congr_right fun _ ↦ ih)

/-! ## The whole chain -/

/-- The method is one that Shadowsocks packets can be sealed with. -/
def CipherSupported (net : Network) (method : Bytes) : Prop :=
  method = bytes "aes-128-gcm" ∨ method = bytes "aes-256-gcm" ∧ net.aes256GcmAvailable = true ∨
    method = bytes "chacha20-ietf-poly1305"

theorem isUnsupported_cipherFromName_iff {method : Bytes} :
    IsUnsupported (cipherFromName net method) ↔ ¬ CipherSupported net method := by
  rw [cipherFromName, CipherSupported]
  split
  · next h128 => exact iff_of_false (not_isUnsupported_ok _) (not_not_intro (.inl h128))
  next h128 =>
  split
  · next h256 =>
    have hchacha : method ≠ bytes "chacha20-ietf-poly1305" := by rw [h256]; decide
    split
    · next haes =>
      exact iff_of_false (not_isUnsupported_ok _) (not_not_intro (.inr (.inl ⟨h256, haes⟩)))
    · next haes =>
      exact iff_of_true (isUnsupported_error_iff.2 rfl)
        (not_or.2 ⟨h128, not_or.2 ⟨fun h ↦ haes h.2, hchacha⟩⟩)
  next h256 =>
  split
  · next hchacha =>
    exact iff_of_false (not_isUnsupported_ok _) (not_not_intro (.inr (.inr hchacha)))
  next hchacha =>
  refine iff_of_true ?_ (not_or.2 ⟨h128, not_or.2 ⟨fun h ↦ h256 h.1, hchacha⟩⟩)
  split <;> exact isUnsupported_error_iff.2 rfl

/-- A server refuses to carry a stream of packets: one in front of the last, or the last, which the
stream has come to. -/
def StreamRefused (net : Network) (servers : List Value)
    (dial : Table → Option Nat → Except Error Nat) : Prop :=
  CarriersRefuse net servers none ∨
    ∃ descriptor, chainPacketCarriers net servers none = .ok descriptor ∧
      IsUnsupported (dial ((lastServer servers).getD []) descriptor)

/-- The method of Shadowsocks does not seal packets, or what comes behind it is refused. -/
def ShadowsocksRefused (net : Network) (server : Option Table) : Prop :=
  ∃ method password address saltText,
    shadowsocksSettings server = .ok (method, password, address, saltText) ∧
      (¬ CipherSupported net method ∨
        ∃ cipher, cipherFromName net method = .ok cipher ∧
          IsUnsupported (net.shadowsocksPacket cipher password address saltText))

/-- A server of a chain refuses what a kind of packets asks it for. -/
def Refused (net : Network) (chain : Table) (target : Bytes) : PacketKind → Prop
  | .direct => False
  | .shadowsocks => ShadowsocksRefused net (lastServer (chainServers chain))
  | .trojan => StreamRefused net (chainServers chain) net.trojanPacketStream
  | .vmess =>
    StreamRefused net (chainServers chain) fun server descriptor ↦
      net.vmessPacketStream server descriptor target
  | .tunnel =>
    if lower (lastProtocol chain) = bytes "openvpn" then
      IsUnsupported (net.openvpnOpenPacket ((lastServer (chainServers chain)).getD []))
    else IsUnsupported (net.wireguardOpenPacket ((lastServer (chainServers chain)).getD []))

/-- What the spelling of a protocol can be. -/
inductive Kinds (protocol : Bytes) : Option PacketKind → Prop
  | direct (h : lower protocol = bytes "direct") : Kinds protocol (some .direct)
  | shadowsocks (h : lower protocol = bytes "shadowsocks") : Kinds protocol (some .shadowsocks)
  | trojan (h : lower protocol ∈ [bytes "trojan", bytes "clambback"]) :
      Kinds protocol (some .trojan)
  | vmess (h : lower protocol = bytes "vmess") : Kinds protocol (some .vmess)
  | wireguard (h : lower protocol = bytes "wireguard") : Kinds protocol (some .tunnel)
  | openvpn (h : lower protocol = bytes "openvpn") : Kinds protocol (some .tunnel)
  | unknown (h : lower protocol ∉ streamProtocols ++ datagramProtocols) : Kinds protocol none

theorem kinds_packetKind (protocol : Bytes) : Kinds protocol (packetKind protocol) := by
  have hlower : ∀ known ∈ streamProtocols ++ datagramProtocols, lower known = known := by decide
  simp only [streamProtocols, datagramProtocols, cons_append, nil_append,
    forall_mem_cons] at hlower
  obtain ⟨htrojan, hclambback, hvmess, hdirect, hshadowsocks, hwireguard, hopenvpn, -⟩ := hlower
  simp only [packetKind, strcaseeq, beq_iff_eq, Bool.or_eq_true, htrojan, hclambback, hvmess,
    hdirect, hshadowsocks, hwireguard, hopenvpn]
  split
  · exact .direct ‹_›
  split
  · exact .shadowsocks ‹_›
  split
  · next h =>
    refine .trojan ?_
    rw [mem_cons, mem_singleton]
    exact h
  split
  · exact .vmess ‹_›
  split
  · exact .wireguard ‹_›
  split
  · exact .openvpn ‹_›
  next hdirect hshadowsocks htrojan hvmess hwireguard hopenvpn =>
  refine .unknown ?_
  simp only [streamProtocols, datagramProtocols, cons_append, nil_append, mem_cons,
    not_mem_nil, or_false, not_or] at htrojan ⊢
  exact ⟨htrojan.1, htrojan.2, hvmess, hdirect, hshadowsocks, hwireguard, hopenvpn⟩

theorem isOneOf_iff {protocol : Bytes} {protocols : List Bytes}
    (h : ∀ known ∈ protocols, lower known = known) :
    isOneOf protocol protocols = true ↔ lower protocol ∈ protocols := by
  rw [isOneOf, any_eq_true]
  constructor
  · rintro ⟨known, hknown, heq⟩
    rw [strcaseeq, beq_iff_eq, h known hknown] at heq
    rwa [heq]
  · intro hmem
    refine ⟨_, hmem, ?_⟩
    rw [strcaseeq, beq_iff_eq, h _ hmem]

section

variable {chain : Table} {target : Bytes}
  (hservers : (chainServers chain).length ≠ 0)
  (hprotocol : optionalString (lastServer (chainServers chain)) "protocol" =
    some (lastProtocol chain))

include hservers in
theorem isUnsupported_chainPacketStream_iff {protocols : List Bytes} {message : String}
    {dial : Table → Option Nat → Except Error Nat}
    (hlower : ∀ known ∈ protocols, lower known = known)
    (hlast : lower (lastProtocol chain) ∈ protocols) :
    IsUnsupported (chainPacketStream net chain protocols message dial) ↔
      StreamRefused net (chainServers chain) dial := by
  rw [chainPacketStream, if_neg hservers, isUnsupported_bind_iff,
    isUnsupported_chainPacketCarriers_iff]
  refine or_congr Iff.rfl (exists_congr fun descriptor ↦ and_congr_right fun _ ↦ ?_)
  have hone : isOneOf ((optionalString (lastServer (chainServers chain)) "protocol").getD [])
      protocols = true := (isOneOf_iff hlower).2 hlast
  rw [if_pos hone]

theorem isUnsupported_shadowsocks_iff :
    IsUnsupported (dialKind net chain target .shadowsocks) ↔
      ShadowsocksRefused net (lastServer (chainServers chain)) := by
  rw [dialKind, isUnsupported_bind_iff, ShadowsocksRefused]
  have hinvalid : ¬ IsUnsupported (shadowsocksSettings (lastServer (chainServers chain))) := by
    rintro ⟨error, herror, hcode⟩
    rw [shadowsocksSettings] at herror
    dsimp only at herror
    split at herror
    · split at herror
      · cases herror
        cases hcode
      · cases herror
    · cases herror
      cases hcode
  constructor
  · rintro (h | ⟨⟨method, password, address, saltText⟩, hsettings, h⟩)
    · exact absurd h hinvalid
    · rw [isUnsupported_bind_iff, isUnsupported_cipherFromName_iff] at h
      exact ⟨method, password, address, saltText, hsettings, h⟩
  · rintro ⟨method, password, address, saltText, hsettings, h⟩
    refine .inr ⟨_, hsettings, ?_⟩
    rw [isUnsupported_bind_iff, isUnsupported_cipherFromName_iff]
    exact h

include hservers hprotocol in
/-- What the dialing of a chain refuses behind the choice of the kind is refused by a server. -/
theorem isUnsupported_dialKind_iff {kind : PacketKind}
    (hkind : Kinds (lastProtocol chain) (some kind)) :
    IsUnsupported (dialKind net chain target kind) ↔ Refused net chain target kind := by
  have hopenvpn : lower (bytes "openvpn") = bytes "openvpn" := by decide
  cases hkind with
  | direct h => exact iff_of_false (not_isUnsupported_ok _) id
  | shadowsocks h => exact isUnsupported_shadowsocks_iff
  | trojan h =>
    rw [dialKind, isUnsupported_map_iff]
    exact isUnsupported_chainPacketStream_iff hservers (by decide) h
  | vmess h =>
    rw [dialKind, isUnsupported_map_iff]
    exact isUnsupported_chainPacketStream_iff hservers (by decide) (mem_singleton.2 h)
  | wireguard | openvpn =>
    simp only [dialKind, Refused, hprotocol, Option.any_some, strcaseeq, hopenvpn, beq_iff_eq]
    split <;> exact Iff.rfl

theorem optionalString_of_validateServer {server : Value} (h : validateServer server = .ok ()) :
    ∃ protocol, optionalString (asTable server) "protocol" = some protocol := by
  cases server with
  | table entries =>
    rw [validateServer] at h
    split at h
    · next hany =>
      cases hprotocol : tableString entries "protocol" with
      | none =>
        rw [hprotocol] at hany
        cases hany
      | some protocol => exact ⟨protocol, hprotocol⟩
    · cases h
  | _ => cases h

/-- A chain that the validator accepts has a last server with a protocol. -/
theorem lastProtocol_of_validateChain {prior : List Value}
    (h : validateChain prior (.table chain) = .ok ()) :
    (chainServers chain).length ≠ 0 ∧
      optionalString (lastServer (chainServers chain)) "protocol" = some (lastProtocol chain) := by
  rw [validateChain] at h
  split at h
  · cases h
  split at h
  · cases h
  split at h
  · cases h
  split at h
  · cases h
  next hservers =>
  refine ⟨mt length_eq_zero_iff.1 hservers, ?_⟩
  have hlast := getLast?_eq_some_getLast hservers
  have hserver := forM_eq_ok_iff.1 h _ (getLast_mem hservers)
  obtain ⟨protocol, hprotocol⟩ := optionalString_of_validateServer hserver
  rw [lastProtocol, lastServer, chainServers, hlast, Option.bind_some, hprotocol]
  rfl

include hservers hprotocol in
theorem chainSupportsPacket_eq_ok_iff :
    chainSupportsPacket chain = .ok () ↔ Eligible chain := by
  have hstream := @isOneOf_iff (lastProtocol chain) streamProtocols (by decide)
  have hall := @isOneOf_iff (lastProtocol chain) (streamProtocols ++ datagramProtocols) (by decide)
  rw [mem_append] at hall
  simp only [chainSupportsPacket, if_neg hservers, hprotocol, Eligible]
  by_cases hsupported : isOneOf (lastProtocol chain) (streamProtocols ++ datagramProtocols) = true
  · rw [hsupported, Bool.not_true, if_neg Bool.false_ne_true]
    by_cases hcarrier : ((chainServers chain).length = 1 || isOneOf (lastProtocol chain)
        streamProtocols) = true
    · rw [hcarrier, Bool.not_true, if_neg Bool.false_ne_true]
      rw [Bool.or_eq_true, decide_eq_true_iff, hstream] at hcarrier
      refine iff_of_true rfl ?_
      rcases hall.1 hsupported with hmem | hmem
      · exact .inl hmem
      · exact hcarrier.symm.imp_right fun hone ↦ ⟨hone, hmem⟩
    · rw [Bool.eq_false_iff.2 hcarrier, Bool.not_false, if_pos rfl]
      rw [Bool.or_eq_true, decide_eq_true_iff, hstream, not_or] at hcarrier
      refine iff_of_false (fun h ↦ ?_) fun h ↦ ?_
      · cases h
      · exact h.elim hcarrier.2 fun h ↦ hcarrier.1 h.1
  · rw [Bool.eq_false_iff.2 hsupported, Bool.not_false, if_pos rfl]
    rw [hall, not_or] at hsupported
    refine iff_of_false (fun h ↦ ?_) fun h ↦ ?_
    · cases h
    · exact h.elim hsupported.1 fun h ↦ hsupported.2 h.2

/-- The kinds that need the whole chain for themselves are those of datagrams. -/
theorem eligible_iff_of_kinds {kind : PacketKind} (hkind : Kinds (lastProtocol chain) (some kind)) :
    Eligible chain ↔ ¬ ((chainServers chain).length ≠ 1 ∧ kind ≠ .trojan ∧ kind ≠ .vmess) := by
  have hstream : lower (lastProtocol chain) ∈ streamProtocols → Eligible chain := .inl
  have hdatagram : lower (lastProtocol chain) ∉ streamProtocols →
      lower (lastProtocol chain) ∈ datagramProtocols →
      (Eligible chain ↔ (chainServers chain).length = 1) := fun hnot hmem ↦
    ⟨fun h ↦ h.elim (fun h ↦ absurd h hnot) And.left, fun h ↦ .inr ⟨h, hmem⟩⟩
  cases hkind with
  | trojan h =>
    refine iff_of_true (hstream ?_) fun hnot ↦ hnot.2.1 rfl
    exact mem_append_left [bytes "vmess"] h
  | vmess h => exact iff_of_true (hstream (by rw [h]; decide)) fun hnot ↦ hnot.2.2 rfl
  | direct h | shadowsocks h | wireguard h | openvpn h =>
    rw [hdatagram (by rw [h]; decide) (by rw [h]; decide)]
    simp

include hservers hprotocol in
/-- **The dialing refuses what the policy groups refuse**, and what a server of the chain
refuses. -/
theorem isUnsupported_chainDialPacket_iff :
    IsUnsupported (chainDialPacket net chain target) ↔
      ¬ Eligible chain ∨
        ∃ kind, packetKind (lastProtocol chain) = some kind ∧ Refused net chain target kind := by
  have hkinds := kinds_packetKind (lastProtocol chain)
  simp only [chainDialPacket, if_neg hservers, hprotocol]
  cases hkind : packetKind (lastProtocol chain) with
  | none =>
    rw [hkind] at hkinds
    cases hkinds with
    | unknown h =>
      rw [mem_append, not_or] at h
      exact iff_of_true (isUnsupported_error_iff.2 rfl)
        (.inl fun heligible ↦ heligible.elim h.1 fun hone ↦ h.2 hone.2)
  | some kind =>
    rw [hkind] at hkinds
    have heligible := eligible_iff_of_kinds hkinds
    by_cases halone : (chainServers chain).length ≠ 1 ∧ kind ≠ .trojan ∧ kind ≠ .vmess
    · simp only [if_pos halone]
      exact iff_of_true (isUnsupported_error_iff.2 rfl)
        (.inl fun h ↦ absurd halone (heligible.1 h))
    · simp only [if_neg halone]
      rw [isUnsupported_dialKind_iff hservers hprotocol hkinds]
      constructor
      · exact fun h ↦ .inr ⟨kind, rfl, h⟩
      rintro (h | ⟨kind', hkind', h⟩)
      · exact absurd (heligible.2 halone) h
      · cases hkind'
        exact h

/-! ## The list of the API -/

/-- The protocols that the API has for datagrams. -/
def apiNativeProtocols : List Bytes :=
  [bytes "shadowsocks", bytes "wireguard", bytes "openvpn"]

/-- What the API says about a protocol. -/
theorem serverProtocolCapabilities_cases (protocol : Bytes) :
    (protocol ∈ apiStreamProtocols ∧
        serverProtocolCapabilities protocol = ⟨true, true, .stream, []⟩) ∨
      protocol ∉ apiStreamProtocols ∧
        (serverProtocolCapabilities protocol).udpMode ≠ .stream ∧
        ((serverProtocolCapabilities protocol).udp = true ↔ protocol ∈ apiNativeProtocols) := by
  rw [serverProtocolCapabilities]
  by_cases hstream : protocol ∈ apiStreamProtocols
  · exact .inl ⟨hstream, if_pos hstream⟩
  refine .inr ⟨hstream, ?_⟩
  rw [if_neg hstream]
  simp only [apiNativeProtocols, mem_cons, not_mem_nil, or_false]
  split
  · next h => exact ⟨by decide, iff_of_true rfl (.inl h)⟩
  split
  · next h => exact ⟨by decide, iff_of_true rfl (.inr (.inl h))⟩
  split
  · next h => exact ⟨by decide, iff_of_true rfl (.inr (.inr h))⟩
  next hshadowsocks hwireguard hopenvpn =>
  have hnone := not_or.2 ⟨hshadowsocks, not_or.2 ⟨hwireguard, hopenvpn⟩⟩
  split
  all_goals exact ⟨by decide, iff_of_false Bool.false_ne_true hnone⟩

include hservers in
theorem udp_serverChainCapabilities_iff :
    (serverChainCapabilities (chainServers chain)).udp = true ↔
      lastProtocol chain ∈ apiStreamProtocols ∨
        (chainServers chain).length = 1 ∧ lastProtocol chain ∈ apiNativeProtocols := by
  have hlast : serverProtocolCapabilities
      ((optionalString (lastServer (chainServers chain)) "protocol").getD []) =
        serverProtocolCapabilities (lastProtocol chain) := rfl
  simp only [serverChainCapabilities, if_neg hservers, hlast]
  rcases serverProtocolCapabilities_cases (lastProtocol chain) with
    ⟨hstream, hcapabilities⟩ | ⟨hstream, hmode, hudp⟩
  · refine iff_of_true ?_ (.inl hstream)
    rw [hcapabilities]
    split
    · rfl
    · rfl
  · by_cases hone : (chainServers chain).length = 1
    · rw [if_pos hone, hudp]
      exact ⟨fun h ↦ .inr ⟨hone, h⟩, fun h ↦ h.elim (fun h ↦ absurd h hstream) And.right⟩
    rw [if_neg hone, if_pos (by rw [decide_eq_true hmode, Bool.or_true])]
    refine iff_of_false Bool.false_ne_true ?_
    rintro (h | ⟨h, -⟩)
    · exact hstream h
    · exact hone h

/-- The protocols of the API are spelled in lower case, and none of them is direct. -/
theorem api_lower {protocol : Bytes} (h : protocol ∈ apiStreamProtocols ++ apiNativeProtocols) :
    lower protocol = protocol ∧ protocol ≠ bytes "direct" := by
  have hall : ∀ protocol ∈ apiStreamProtocols ++ apiNativeProtocols,
      lower protocol = protocol ∧ protocol ≠ bytes "direct" := by decide
  exact hall protocol h

include hservers in
/-- The API agrees with the policy groups about what is spelled in lower case, with two
exceptions. -/
theorem udp_iff_eligible_iff :
    ((serverChainCapabilities (chainServers chain)).udp = true ↔ Eligible chain) ↔
      lastProtocol chain ≠ bytes "shadowtls" ∧
        (Eligible chain →
          lower (lastProtocol chain) = lastProtocol chain ∧
            lastProtocol chain ≠ bytes "direct") := by
  rw [udp_serverChainCapabilities_iff hservers]
  constructor
  · intro h
    refine ⟨fun hshadowtls ↦ ?_, fun heligible ↦ api_lower ?_⟩
    · have heligible := h.1 (.inl (by rw [hshadowtls]; decide))
      rw [Eligible, hshadowtls] at heligible
      exact heligible.elim (by decide) fun hone ↦ absurd hone.2 (by decide)
    · rw [mem_append]
      exact (h.2 heligible).imp_right And.right
  · rintro ⟨hshadowtls, hspelled⟩
    have hstream : lastProtocol chain ∈ apiStreamProtocols ↔
        lastProtocol chain ∈ streamProtocols := by
      have happend : apiStreamProtocols = streamProtocols ++ [bytes "shadowtls"] := rfl
      rw [happend, mem_append, mem_singleton]
      exact or_iff_left hshadowtls
    rw [hstream]
    constructor
    · intro hudp
      have hlower : lower (lastProtocol chain) = lastProtocol chain := by
        refine (api_lower ?_).1
        rw [mem_append, hstream]
        exact hudp.imp_right And.right
      rw [Eligible, hlower]
      exact hudp.imp_right fun hone ↦ ⟨hone.1, mem_cons_of_mem _ hone.2⟩
    · intro heligible
      obtain ⟨hlower, hdirect⟩ := hspelled heligible
      rw [Eligible, hlower] at heligible
      exact heligible.imp_right fun hone ↦ ⟨hone.1, (mem_cons.1 hone.2).resolve_left hdirect⟩

end

/-- **The three answers about UDP agree** for exactly the chains whose last protocol is spelled in
lower case and is neither direct nor ShadowTLS, in so far as it is supported, and of which no server
refuses. -/
theorem oneAnswer_iff (net : Network) (target : Bytes) {prior : List Value} {chain : Table}
    (h : validateChain prior (.table chain) = .ok ()) :
    (((serverChainCapabilities (chainServers chain)).udp = true ↔
          ¬ IsUnsupported (chainDialPacket net chain target)) ∧
        (chainSupportsPacket chain = .ok () ↔
          ¬ IsUnsupported (chainDialPacket net chain target))) ↔
      lastProtocol chain ≠ bytes "shadowtls" ∧
        (Eligible chain →
          lower (lastProtocol chain) = lastProtocol chain ∧ lastProtocol chain ≠ bytes "direct" ∧
            ∀ kind, packetKind (lastProtocol chain) = some kind →
              ¬ Refused net chain target kind) := by
  obtain ⟨hservers, hprotocol⟩ := lastProtocol_of_validateChain h
  have hapi := udp_iff_eligible_iff hservers
  have hdial := @isUnsupported_chainDialPacket_iff net chain target hservers hprotocol
  rw [chainSupportsPacket_eq_ok_iff hservers hprotocol]
  constructor
  · rintro ⟨hudp, hsupports⟩
    obtain ⟨hshadowtls, hspelled⟩ := hapi.1 (hudp.trans hsupports.symm)
    refine ⟨hshadowtls, fun heligible ↦ ?_⟩
    obtain ⟨hlower, hdirect⟩ := hspelled heligible
    refine ⟨hlower, hdirect, fun kind hkind hrefused ↦ ?_⟩
    exact hsupports.1 heligible (hdial.2 (.inr ⟨kind, hkind, hrefused⟩))
  · rintro ⟨hshadowtls, hcondition⟩
    have hsupports : Eligible chain ↔ ¬ IsUnsupported (chainDialPacket net chain target) := by
      rw [hdial, not_or, not_not]
      refine ⟨fun heligible ↦ ⟨heligible, ?_⟩, And.left⟩
      rintro ⟨kind, hkind, hrefused⟩
      exact (hcondition heligible).2.2 kind hkind hrefused
    refine ⟨Iff.trans (hapi.2 ⟨hshadowtls, fun heligible ↦ ?_⟩) hsupports, hsupports⟩
    exact ⟨(hcondition heligible).1, (hcondition heligible).2.1⟩

/-! ## Chains of two servers, and of one -/

/-- A network in which everything is reached. -/
def openNetwork : Network where
  aes256GcmAvailable := true
  connectTcp _ := .ok 0
  dial _ _ _ _ := .ok 0
  trojanPacketStream _ _ := .ok 0
  vmessPacketStream _ _ _ := .ok 0
  shadowsocksPacket _ _ _ _ := .ok ()
  wireguardOpenPacket _ := .ok ()
  openvpnOpenPacket _ := .ok ()

def serverOf (protocol : String) : Value :=
  .table [(bytes "protocol", .string (bytes protocol)),
    (bytes "address", .string (bytes "192.0.2.1:443"))]

/-- A chain of servers with these protocols. -/
def chainOf (protocols : List String) : Table :=
  [(bytes "name", .string (bytes "chain")), (bytes "server", .array (protocols.map serverOf))]

/-- A Trojan server behind Tor is reported, eligible and dialed. -/
theorem oneAnswer_trojan :
    validateChain [] (.table (chainOf ["tor", "trojan"])) = .ok () ∧
      ((serverChainCapabilities (chainServers (chainOf ["tor", "trojan"]))).udp = true ↔
        ¬ IsUnsupported (chainDialPacket openNetwork (chainOf ["tor", "trojan"]) [])) ∧
      (chainSupportsPacket (chainOf ["tor", "trojan"]) = .ok () ↔
        ¬ IsUnsupported (chainDialPacket openNetwork (chainOf ["tor", "trojan"]) [])) := by
  have hvalid : validateChain [] (.table (chainOf ["tor", "trojan"])) = .ok () := by decide +kernel
  refine ⟨hvalid, (oneAnswer_iff openNetwork [] hvalid).2 ⟨by decide +kernel, fun _ ↦
    ⟨by decide +kernel, by decide +kernel, fun kind hkind ↦ ?_⟩⟩⟩
  have htrojan : packetKind (lastProtocol (chainOf ["tor", "trojan"])) = some .trojan := by
    decide +kernel
  cases htrojan.symm.trans hkind
  have hreached : chainPacketCarriers openNetwork (chainServers (chainOf ["tor", "trojan"])) none =
      .ok (some 0) := by decide +kernel
  rintro (hcarriers | ⟨descriptor, -, hlast⟩)
  · rw [← isUnsupported_chainPacketCarriers_iff, hreached] at hcarriers
    exact not_isUnsupported_ok _ hcarriers
  · exact not_isUnsupported_ok _ hlast

/-- ShadowTLS is reported and cannot be dialed; Trojan in another spelling is dialed and not
reported; and a chain through WireGuard is reported and eligible, and cannot be dialed. -/
theorem shadowtls_reported :
    validateChain [] (.table (chainOf ["shadowtls"])) = .ok () ∧
      (serverChainCapabilities (chainServers (chainOf ["shadowtls"]))).udp = true ∧
      chainDialPacket openNetwork (chainOf ["shadowtls"]) [] =
        .error (notPorted "protocol" (bytes "shadowtls")) ∧
      validateChain [] (.table (chainOf ["Trojan"])) = .ok () ∧
      (serverChainCapabilities (chainServers (chainOf ["Trojan"]))).udp = false ∧
      chainDialPacket openNetwork (chainOf ["Trojan"]) [] = .ok () ∧
      validateChain [] (.table (chainOf ["wireguard", "trojan"])) = .ok () ∧
      (serverChainCapabilities (chainServers (chainOf ["wireguard", "trojan"]))).udp = true ∧
      chainSupportsPacket (chainOf ["wireguard", "trojan"]) = .ok () ∧
      chainDialPacket openNetwork (chainOf ["wireguard", "trojan"]) [] =
        .error (notPorted "carrier" (bytes "wireguard")) := by
  decide +kernel

end ClambHook.Protocol
