import ClambHook.WireGuard.Session
import ClambHook.Lib.InetPrefix
import ClambHook.Lib.ArgMax

/-!
# Cryptokey routing

The allowed prefixes of the peers say two things: to which peer a packet for an address goes
(`routePeer`, the longest matching prefix of all peers), and from which peer a packet with a source
address is taken (`Peer.sourceAllowed`).  The two are meant to be one table, so that the answer to
a packet goes to the peer it came from.

The check of the source looks at the prefixes of one peer only.  So a packet is taken from a peer
whose prefix covers its source even if the address belongs to another peer by a longer prefix, and
the answer goes to that other peer: for one packet the two agree exactly if no other peer shadows
the sender at its source (`Shadowed`).  A configuration gives one table exactly if no two prefixes
of different peers overlap (`Exclusive`).
-/

namespace ClambHook.WireGuard

open CString Inet List

/-! ## Configured prefixes -/

/-- The bits of an address behind the first `length` cleared. -/
def maskAddress (address : Bytes) (length : Nat) : Bytes :=
  let full := length / 8
  let rest := length % 8
  let mask : UInt8 := 0xff <<< (8 - rest).toUInt8
  if rest ≠ 0 ∧ full < address.length then
    address.take full ++ (address.getD full 0 &&& mask) ::
      List.replicate (address.length - (full + 1)) 0
  else address.take full ++ List.replicate (address.length - full) 0

/-- `ch_wg_parse_prefix`.  An address with its terminating NUL has to fit in 46 bytes. -/
def parsePrefix (value : Bytes) : Option Prefix :=
  match splitFirst 47 value with
  | none => none
  | some (address, digits) =>
    if address = [] ∨ digits = [] ∨ address.length ≥ 46 then none
    else
      let family := if 58 ∈ address then Family.inet6 else .inet
      match if family = .inet then pton4 address else pton6 address with
      | none => none
      | some bytes =>
        let parsed := strtoul digits
        let maximum := if family = .inet then 32 else 128
        if parsed.erange ∨ parsed.rest = digits ∨ parsed.rest ≠ [] ∨ maximum < parsed.value then
          none
        else some ⟨family, maskAddress bytes parsed.value, parsed.value⟩

/-- The bytes of an address. -/
def Family.size : Family → Nat
  | .inet => 4
  | .inet6 => 16

/-- A prefix of an address, no longer than the address. -/
structure Prefix.Valid (p : Prefix) : Prop where
  address : p.address.length = p.family.size
  length : p.length ≤ 8 * p.family.size

theorem length_maskAddress {address : Bytes} {n : Nat} (h : n ≤ 8 * address.length) :
    (maskAddress address n).length = address.length := by
  simp only [maskAddress]
  split
  · simp only [length_append, length_take, length_cons, length_replicate]
    omega
  · simp only [length_append, length_take, length_replicate]
    omega

theorem valid_maskAddress {family : Family} {address : Bytes} {n : Nat}
    (haddress : address.length = family.size) (hn : n ≤ 8 * family.size) :
    Prefix.Valid ⟨family, maskAddress address n, n⟩ :=
  ⟨(length_maskAddress (haddress ▸ hn)).trans haddress, hn⟩

theorem valid_of_parsePrefix {value : Bytes} {p : Prefix} (h : parsePrefix value = some p) :
    p.Valid := by
  rw [parsePrefix] at h
  split at h
  · cases h
  rename_i address digits hsplit
  split at h
  · cases h
  by_cases hcolon : 58 ∈ address <;>
    simp only [hcolon, if_true, if_false, reduceCtorEq] at h <;> split at h
  · cases h
  · rename_i octets haddress
    split at h
    · cases h
    · rename_i hbits
      cases h
      simp only [not_or, not_lt] at hbits
      exact valid_maskAddress (length_pton6 haddress) hbits.2.2.2
  · cases h
  · rename_i octets haddress
    split at h
    · cases h
    · rename_i hbits
      cases h
      simp only [not_or, not_lt] at hbits
      exact valid_maskAddress (length_pton4 haddress) hbits.2.2.2

variable {family : Family} {address : Bytes}

/-- A prefix covers the addresses of its family that have its leading bits. -/
theorem Prefix.Valid.matches_iff {p : Prefix} (hp : p.Valid)
    (haddress : address.length = family.size) :
    p.matches family address = true ↔ p.family = family ∧ AgreeOn p.length p.address address := by
  have hmask : ∀ r < 8, r ≠ 0 → (0xff : UInt8) <<< (8 - r).toUInt8 = leadingMask r := by decide
  have hzero : leadingMask 0 = 0 := by decide
  simp only [Prefix.matches, Bool.and_eq_true, Bool.or_eq_true, beq_iff_eq, and_assoc]
  refine and_congr_right fun hfamily ↦ ?_
  have hlength := hp.length
  have hown := hp.address
  rw [hfamily] at hlength hown
  rw [agreeOn_iff (by omega) (by omega)]
  refine and_congr_right fun _ ↦ ?_
  by_cases hrest : p.length % 8 = 0
  · simp [hrest, hzero]
  · rw [hmask _ (by omega) hrest, or_iff_right hrest]

/-- The prefixes have addresses in common. -/
def Prefix.Overlaps (p q : Prefix) : Prop :=
  p.family = q.family ∧ AgreeOn (min p.length q.length) p.address q.address

instance (p q : Prefix) : Decidable (p.Overlaps q) :=
  inferInstanceAs (Decidable (p.family = q.family ∧
    ∀ i < min p.length q.length, addressBit p.address i = addressBit q.address i))

theorem Prefix.Overlaps.symm {p q : Prefix} (h : p.Overlaps q) : q.Overlaps p :=
  ⟨h.1.symm, fun i hi ↦ (h.2 i (min_comm q.length p.length ▸ hi)).symm⟩

theorem overlaps_of_matches {p q : Prefix} (hp : p.Valid) (hq : q.Valid)
    (haddress : address.length = family.size) (h : p.matches family address = true)
    (h' : q.matches family address = true) : p.Overlaps q := by
  obtain ⟨rfl, hpa⟩ := (hp.matches_iff haddress).1 h
  obtain ⟨hfamily, hqa⟩ := (hq.matches_iff haddress).1 h'
  exact ⟨hfamily.symm, fun i hi ↦ (hpa i (by omega)).trans (hqa i (by omega)).symm⟩

/-- Prefixes that overlap cover an address together: that of the longer one. -/
theorem Prefix.Overlaps.exists_address {p q : Prefix} (h : p.Overlaps q) (hp : p.Valid)
    (hq : q.Valid) :
    ∃ address, address.length = p.family.size ∧ p.matches p.family address = true ∧
      q.matches p.family address = true := by
  obtain ⟨hfamily, hagree⟩ := h
  have hsize : q.address.length = p.family.size := hfamily ▸ hq.address
  rcases Nat.le_total p.length q.length with hle | hle
  · rw [min_eq_left hle] at hagree
    exact ⟨q.address, hsize, (hp.matches_iff hsize).2 ⟨rfl, hagree⟩,
      (hq.matches_iff hsize).2 ⟨hfamily.symm, fun _ _ ↦ rfl⟩⟩
  · rw [min_eq_right hle] at hagree
    exact ⟨p.address, hp.address, (hp.matches_iff hp.address).2 ⟨rfl, fun _ _ ↦ rfl⟩,
      (hq.matches_iff hp.address).2 ⟨hfamily.symm, fun i hi ↦ (hagree i hi).symm⟩⟩

/-! ## Routing -/

/-- The inner loop of `ch_wg_route_peer`: the allowed prefixes of the peer `i`, with the peer
selected so far and the length of its prefix. -/
def Peer.route (family : Family) (destination : Bytes) (i : Nat) (p : Peer)
    (selected : Option (Nat × Nat)) : Option (Nat × Nat) :=
  p.allowed.foldl (fun selected q ↦
    if q.matches family destination ∧ ∀ found ∈ selected, found.2 < q.length then some (i, q.length)
    else selected) selected

/-- `ch_wg_route_peer`: the position of the selected peer. -/
def routePeer (peers : List Peer) (family : Family) (destination : Bytes) : Option Nat :=
  (peers.zipIdx.foldl (fun selected p ↦ p.1.route family destination p.2 selected) none).map
    Prod.fst

/-- The destination that `ch_wg_inner_addresses` finds, with the family and the length. -/
def innerDestination (packet : Bytes) : Option (Family × Bytes × Nat) :=
  (innerAddresses packet).map fun a ↦
    match a.1 with
    | .inet => (.inet, (packet.drop 16).take 4, a.2.2)
    | .inet6 => (.inet6, (packet.drop 24).take 16, a.2.2)

/-- The peer that a packet of the tunnel is routed to. -/
def Session.routed (s : Session) (packet : Bytes) : Option Nat := do
  let (family, destination, _) ← innerDestination packet
  routePeer s.peers family destination

/-! ## The longest match -/

section LongestMatch

variable (family : Family) (address : Bytes)

/-- The prefixes of a peer that cover an address, as pairs of the peer's position and the prefix
length. -/
def Peer.covering (i : Nat) (p : Peer) : List (Nat × Nat) :=
  (p.allowed.filter fun q ↦ q.matches family address).map fun q ↦ (i, q.length)

/-- The covering prefixes of all peers, in the order in which they are looked at. -/
def covering (peers : List Peer) : List (Nat × Nat) :=
  peers.zipIdx.flatMap fun p ↦ p.1.covering family address p.2

/-- The inner loop keeps the first longest prefix, as `List.argmax` does. -/
theorem Peer.route_eq_argAux (i : Nat) (p : Peer) (selected : Option (Nat × Nat)) :
    p.route family address i selected =
      (p.covering family address i).foldl (List.argAux fun b c ↦ c.2 < b.2) selected := by
  rw [Peer.route, Peer.covering]
  induction p.allowed generalizing selected with
  | nil => rfl
  | cons q allowed ih =>
    rw [foldl_cons, ih]
    by_cases hq : q.matches family address = true
    · rw [filter_cons, if_pos hq, map_cons, foldl_cons]
      congr 1
      cases selected <;> simp [List.argAux, hq]
    · rw [filter_cons, if_neg hq, if_neg fun h ↦ hq h.1]

theorem routePeer_eq_argmax (peers : List Peer) :
    routePeer peers family address =
      ((covering family address peers).argmax Prod.snd).map Prod.fst := by
  rw [routePeer, covering, List.argmax, foldl_flatMap]
  simp only [Peer.route_eq_argAux]

variable {family address}

variable {peers : List Peer}

theorem mem_covering {i length : Nat} :
    (i, length) ∈ covering family address peers ↔
      ∃ p q, peers[i]? = some p ∧ q ∈ p.allowed ∧ q.matches family address = true ∧
        q.length = length := by
  simp only [covering, Peer.covering, mem_flatMap, mem_map, mem_filter, Prod.exists,
    mem_zipIdx_iff_getElem?, Prod.mk.injEq]
  constructor
  · rintro ⟨p, j, hp, q, ⟨hq, hmatch⟩, rfl, rfl⟩
    exact ⟨p, q, hp, hq, hmatch, rfl⟩
  · rintro ⟨p, q, hp, hq, hmatch, rfl⟩
    exact ⟨p, i, hp, q, ⟨hq, hmatch⟩, rfl, rfl⟩

/-- The peers are looked at in the order of their positions. -/
theorem pairwise_covering (peers : List Peer) :
    (covering family address peers).Pairwise fun a b ↦ a.1 ≤ b.1 := by
  rw [covering, pairwise_flatMap]
  constructor
  · rintro ⟨p, i⟩ -
    rw [Peer.covering, pairwise_map]
    exact pairwise_of_forall fun _ _ ↦ le_rfl
  · have hlt : peers.zipIdx.Pairwise fun a b ↦ a.2 < b.2 := by
      rw [← pairwise_map, zipIdx_map_snd]
      exact pairwise_lt_range'
    refine hlt.imp fun {a b} hab c hc d hd ↦ ?_
    obtain ⟨q, -, rfl⟩ := mem_map.1 hc
    obtain ⟨r, -, rfl⟩ := mem_map.1 hd
    exact hab.le

/-- Another peer owns the address: it has a covering prefix that is longer than every covering
prefix of the peer `i`, or as long and configured earlier. -/
def Shadowed (peers : List Peer) (i : Nat) (family : Family) (address : Bytes) : Prop :=
  ∃ m ∈ covering family address peers, m.1 ≠ i ∧
    ∀ n ∈ covering family address peers, n.1 = i → n.2 < m.2 ∨ n.2 = m.2 ∧ m.1 < i

theorem le_of_argmax_covering {m n : Nat × Nat}
    (hm : m ∈ (covering family address peers).argmax Prod.snd)
    (hn : n ∈ covering family address peers) : n.2 < m.2 ∨ n.2 = m.2 ∧ m.1 ≤ n.1 :=
  ArgMax.lt_or_of_mem_argmax (R := fun a b ↦ a.1 ≤ b.1) (fun a ↦ le_refl a.1)
    (pairwise_covering peers) hm hn

/-- **Longest prefix**: an address that a prefix of the peer `i` covers is routed to `i` iff no
other peer shadows `i` there. -/
theorem routePeer_eq_some_iff {i length : Nat}
    (hi : (i, length) ∈ covering family address peers) :
    routePeer peers family address = some i ↔ ¬ Shadowed peers i family address := by
  rw [routePeer_eq_argmax]
  cases hmax : (covering family address peers).argmax Prod.snd with
  | none =>
    rw [argmax_eq_none.1 hmax] at hi
    cases hi
  | some m =>
    have hmem := argmax_mem hmax
    rw [Option.map_some, Option.some.injEq]
    constructor
    · rintro rfl ⟨n, hn, hne, hshadow⟩
      rcases le_of_argmax_covering hmax hn, hshadow m hmem rfl with ⟨h | h, h' | h'⟩ <;> omega
    intro hshadow
    by_contra hne
    refine hshadow ⟨m, hmem, hne, fun n hn hni ↦ ?_⟩
    have := le_of_argmax_covering hmax hn
    omega

end LongestMatch

/-! ## The allowed prefixes are never written -/

/-- Two sessions whose peers have the same allowed prefixes. -/
def SameAllowed (s t : Session) : Prop :=
  s.peers.map Peer.allowed = t.peers.map Peer.allowed

theorem sameAllowed_modifyPeer (s : Session) (i : Nat) {f : Peer → Peer}
    (hf : ∀ p, (f p).allowed = p.allowed) : SameAllowed (s.modifyPeer i f) s := by
  refine ext_getElem? fun j ↦ ?_
  simp only [Session.modifyPeer, getElem?_map, getElem?_modify]
  split
  · cases s.peers[j]? with
    | none => rfl
    | some p => exact congrArg some (hf p)
  · rw [Option.map_eq_map, Option.map_id']

variable (aead : Aead) (fate : Fate)

theorem sameAllowed_sendTransport (n : Nat) (s : Session) (i : Nat) (packet : Bytes) :
    SameAllowed (sendTransport aead fate n s i packet).1 s := by
  rw [sendTransport]
  split
  · rfl
  split
  · rfl
  split
  · rfl
  · dsimp only
    split <;> rfl

theorem sameAllowed_flushPending (i n : Nat) (queue : List Bytes) (s : Session) :
    SameAllowed (flushPending aead fate i n queue s) s := by
  induction queue generalizing n s with
  | nil => rfl
  | cons packet rest ih =>
    have hsend := sameAllowed_sendTransport aead fate n s i packet
    rw [flushPending]
    split
    · rename_i t hsent
      rw [hsent] at hsend
      exact hsend
    · rename_i t hsent
      rw [hsent] at hsend
      refine (ih _ _).trans ?_
      exact (sameAllowed_modifyPeer t i fun p ↦ by rfl).trans hsend

theorem sameAllowed_acceptData (source : Endpoint) (s : Session) (n : Named) (k : Keypair) :
    SameAllowed (acceptData aead fate source s n k) s := by
  rw [acceptData]
  refine (sameAllowed_flushPending ..).trans ?_
  refine sameAllowed_modifyPeer s n.peer fun p ↦ ?_
  rw [Peer.updateEndpoint]
  split <;> rfl

theorem covering_congr {s t : Session} (h : SameAllowed s t) (family : Family) (address : Bytes) :
    covering family address s.peers = covering family address t.peers := by
  have hmap : ∀ peers : List Peer, covering family address peers =
      (peers.map Peer.allowed).zipIdx.flatMap fun p ↦
        (p.1.filter fun q ↦ q.matches family address).map fun q ↦ (p.2, q.length) := by
    intro peers
    rw [covering, zipIdx_map, flatMap_map]
    rfl
  rw [hmap, hmap, h]

/-! ## Accepted packets -/

/-- A packet that is cut off behind its own length has the same addresses. -/
theorem innerAddresses_take {packet address : Bytes} {family : Family} {length : Nat}
    (h : innerAddresses packet = some (family, address, length)) :
    innerAddresses (packet.take length) = some (family, address, length) := by
  have hbyte : ∀ i < length, (packet.take length).getD i 0 = packet.getD i 0 := by
    intro i hi
    rw [getD_eq_getElem?_getD, getD_eq_getElem?_getD, getElem?_take_of_lt hi]
  have hdrop : ∀ i n, i + n ≤ length →
      ((packet.take length).drop i).take n = (packet.drop i).take n := by
    intro i n hn
    rw [drop_take, take_take, min_eq_left (by omega)]
  unfold innerAddresses at h
  dsimp only at h
  split_ifs at h with h20 h4 htotal h6 htotal
  · obtain ⟨rfl, rfl, hlength⟩ : Family.inet = family ∧ _ = address ∧ _ = length := by
      simpa only [Option.some.injEq, Prod.mk.injEq] using h
    have hle : length ≤ packet.length := by omega
    simp only [innerAddresses, hbyte 0 (by omega), hbyte 2 (by omega), hbyte 3 (by omega),
      length_take_of_le hle, hdrop 12 4 (by omega), hlength]
    rw [if_neg (by omega), if_pos h4, if_neg (by omega)]
  · obtain ⟨rfl, rfl, hlength⟩ : Family.inet6 = family ∧ _ = address ∧ _ = length := by
      simpa only [Option.some.injEq, Prod.mk.injEq] using h
    have hle : length ≤ packet.length := by omega
    simp only [innerAddresses, hbyte 0 (by omega), hbyte 4 (by omega), hbyte 5 (by omega),
      length_take_of_le hle, hdrop 8 16 (by omega), hlength]
    rw [if_neg (by omega), if_neg h4, if_pos (by omega), if_neg (by omega)]

/-- What `processData` hands on has passed the check of its source. -/
theorem processData_eq_some {aead : Aead} {fate : Fate} {source : Endpoint} {s t : Session}
    {packet inner : Bytes} (h : processData aead fate source s packet = (t, some inner)) :
    ∃ n peer family address length, s.named packet = some n ∧ s.peers[n.peer]? = some peer ∧
      innerAddresses inner = some (family, address, length) ∧
      peer.sourceAllowed family address = true ∧ SameAllowed t s := by
  unfold processData at h
  split at h
  · cases h
  cases hn : s.named packet with
  | none =>
    rw [hn] at h
    cases h
  | some n =>
    rw [hn] at h
    dsimp only at h
    split at h
    · cases h
    split at h
    · cases h
    split at h
    · cases h
    split at h
    · cases h
    split at h
    · cases h
    split at h
    · rename_i family address length peer hinner hpeer
      split at h
      · rename_i hallowed
        cases h
        exact ⟨n, peer, family, address, length, rfl, hpeer, innerAddresses_take hinner, hallowed,
          sameAllowed_acceptData ..⟩
      · cases h
    · cases h

/-- An accepted packet has its source in a prefix of the peer that it came from. -/
theorem covering_of_accepted {aead : Aead} {fate : Fate} {source : Endpoint} {s t : Session}
    {packet inner address : Bytes} {family : Family} {length : Nat}
    (haccept : processData aead fate source s packet = (t, some inner))
    (hsource : innerAddresses inner = some (family, address, length)) :
    ∃ n bits, s.named packet = some n ∧ (n.peer, bits) ∈ covering family address s.peers ∧
      SameAllowed t s := by
  obtain ⟨n, peer, _, _, _, hn, hpeer, hinner, hallowed, hsame⟩ := processData_eq_some haccept
  rw [hsource] at hinner
  cases hinner
  obtain ⟨q, hq, hmatch⟩ := any_eq_true.1 hallowed
  exact ⟨n, q.length, hn, mem_covering.2 ⟨peer, q, hpeer, hq, hmatch, rfl⟩, hsame⟩

theorem routed_of_sameAllowed {s t : Session} (h : SameAllowed t s) {reply address : Bytes}
    {family : Family} {length : Nat}
    (hreply : innerDestination reply = some (family, address, length)) :
    t.routed reply = routePeer s.peers family address := by
  rw [Session.routed, hreply, routePeer_eq_argmax, ← covering_congr h, ← routePeer_eq_argmax]
  rfl

/-! ## Configurations -/

/-- Every prefix was read from a text. -/
def Configured (allowed : List (List Prefix)) : Prop :=
  ∀ ps ∈ allowed, ∀ p ∈ ps, ∃ text, parsePrefix text = some p

theorem Configured.valid {allowed : List (List Prefix)} (h : Configured allowed) {i : Nat}
    {ps : List Prefix} (hps : allowed[i]? = some ps) {p : Prefix} (hp : p ∈ ps) : p.Valid := by
  obtain ⟨text, htext⟩ := h ps (mem_of_getElem? hps) p hp
  exact valid_of_parsePrefix htext

/-- Prefixes of different peers do not overlap. -/
def Exclusive (allowed : List (List Prefix)) : Prop :=
  allowed.Pairwise fun ps qs ↦ ∀ p ∈ ps, ∀ q ∈ qs, ¬ p.Overlaps q

instance (allowed : List (List Prefix)) : Decidable (Exclusive allowed) :=
  inferInstanceAs (Decidable (allowed.Pairwise _))

theorem exclusive_iff {allowed : List (List Prefix)} :
    Exclusive allowed ↔ ∀ (i j : Nat) (ps qs : List Prefix), allowed[i]? = some ps →
      allowed[j]? = some qs → i ≠ j → ∀ p ∈ ps, ∀ q ∈ qs, ¬ p.Overlaps q := by
  rw [Exclusive, List.pairwise_iff_getElem]
  constructor
  · intro h i j ps qs hps hqs hne p hp q hq hoverlaps
    obtain ⟨hi, rfl⟩ := List.getElem?_eq_some_iff.1 hps
    obtain ⟨hj, rfl⟩ := List.getElem?_eq_some_iff.1 hqs
    rcases Nat.lt_or_gt_of_ne hne with hlt | hlt
    · exact h i j hi hj hlt p hp q hq hoverlaps
    · exact h j i hj hi hlt q hq p hp hoverlaps.symm
  · intro h i j hi hj hlt
    exact h i j _ _ (getElem?_eq_getElem hi) (getElem?_eq_getElem hj) hlt.ne

/-- In every session with these prefixes, whatever keys and queues its peers have, the reply to
every packet that is accepted from a peer is routed to that peer. -/
def RoutesBack (allowed : List (List Prefix)) : Prop :=
  ∀ (aead : Aead) (fate : Fate) (source : Endpoint) (s t : Session) (packet inner reply : Bytes)
    (family : Family) (address : Bytes) (length length' : Nat) (n : Named),
    s.peers.map Peer.allowed = allowed → s.named packet = some n →
    processData aead fate source s packet = (t, some inner) →
    innerAddresses inner = some (family, address, length) →
    innerDestination reply = some (family, address, length') → t.routed reply = some n.peer

theorem length_innerAddresses {packet address : Bytes} {family : Family} {length : Nat}
    (h : innerAddresses packet = some (family, address, length)) :
    address.length = family.size := by
  unfold innerAddresses at h
  dsimp only at h
  split_ifs at h with h20 h4 htotal h6 htotal
  · cases h
    simp only [length_take, length_drop, Family.size]
    omega
  · cases h
    simp only [length_take, length_drop, Family.size]
    omega

theorem not_shadowed_of_exclusive {allowed : List (List Prefix)} (hconfigured : Configured allowed)
    (hexclusive : Exclusive allowed) {peers : List Peer} (hpeers : peers.map Peer.allowed = allowed)
    {family : Family} {address : Bytes} (haddress : address.length = family.size) {i bits : Nat}
    (hi : (i, bits) ∈ covering family address peers) : ¬ Shadowed peers i family address := by
  rintro ⟨⟨j, bits'⟩, hj, hne, -⟩
  obtain ⟨P, p, hP, hp, hpmatch, -⟩ := mem_covering.1 hi
  obtain ⟨Q, q, hQ, hq, hqmatch, -⟩ := mem_covering.1 hj
  have hget : ∀ {k : Nat} {R : Peer}, peers[k]? = some R → allowed[k]? = some R.allowed := by
    intro k R hR
    rw [← hpeers, getElem?_map, hR, Option.map_some]
  exact exclusive_iff.1 hexclusive i j _ _ (hget hP) (hget hQ) (Ne.symm hne) p hp q hq
    (overlaps_of_matches (hconfigured.valid (hget hP) hp) (hconfigured.valid (hget hQ) hq) haddress
      hpmatch hqmatch)

/-- A cipher whose text is the plain text with a tag of 16 bytes behind it. -/
def transparent : Aead :=
  ⟨fun plain _ _ ↦ plain ++ List.replicate 16 0, fun c _ _ ↦ some (c.take (c.length - 16))⟩

/-- A session in which the peer `i` has a keypair, and the others have none. -/
def sessionOf (allowed : List (List Prefix)) (i : Nat) : Session where
  device := [youngProtocol]
  peers := allowed.mapIdx fun k ps ↦
    { protocol := if k = i then 0 else 1, endpoint := somewhere, allowed := ps }

/-- A header without payload. -/
def header : Family → Bytes → Bytes → Bytes
  | .inet, source, destination =>
    [0x45, 0, 0, 20, 0, 0, 0, 0, 64, 17, 0, 0] ++ source ++ destination
  | .inet6, source, destination => [0x60, 0, 0, 0, 0, 0, 59, 64] ++ source ++ destination

/-- A transport-data packet for the index 7. -/
def dataPacket (inner : Bytes) : Bytes :=
  [4, 0, 0, 0] ++ toLittleEndian 4 7 ++ toLittleEndian 8 5 ++ inner ++ List.replicate 16 0

section

variable {family : Family} {source destination : Bytes}

theorem addresses_header (hsource : source.length = family.size)
    (hdestination : destination.length = family.size) :
    innerAddresses (header family source destination) =
        some (family, source, (header family source destination).length) ∧
      innerDestination (header family source destination) =
        some (family, destination, (header family source destination).length) := by
  have haddresses : innerAddresses (header family source destination) =
      some (family, source, (header family source destination).length) := by
    cases family with
    | inet => simp [innerAddresses, header, hsource, hdestination, Family.size]
    | inet6 => simp [innerAddresses, header, hsource, hdestination, Family.size]
  refine ⟨haddresses, ?_⟩
  have htake : destination.take family.size = destination := take_of_length_le hdestination.le
  rw [innerDestination, haddresses]
  cases family with
  | inet => simpa [header, hsource, Family.size] using htake
  | inet6 => simpa [header, hsource, Family.size] using htake

end

variable {allowed : List (List Prefix)} {i : Nat} {ps : List Prefix}

theorem map_sessionOf (allowed : List (List Prefix)) (i : Nat) :
    (sessionOf allowed i).peers.map Peer.allowed = allowed := by
  refine ext_getElem? fun k ↦ ?_
  simp [sessionOf, List.getElem?_mapIdx, Function.comp_def]

theorem named_sessionOf (hps : allowed[i]? = some ps) (inner : Bytes) :
    (sessionOf allowed i).named (dataPacket inner) = some ⟨i, 0, youngProtocol, .curr⟩ := by
  obtain ⟨hi, -⟩ := List.getElem?_eq_some_iff.1 hps
  have hpeer : peerForProtocol (sessionOf allowed i) 0 = some i := by
    rw [peerForProtocol, List.findIdx?_eq_some_iff_getElem]
    refine ⟨by simpa [sessionOf] using hi, by simp [sessionOf], fun j hj ↦ ?_⟩
    simp [sessionOf, hj.ne]
  have hreceiver : receiverOf (dataPacket inner) = 7 := rfl
  rw [Session.named, hreceiver]
  have hlookup : peerLookupByReceiver (sessionOf allowed i).device 7 = some 0 := rfl
  rw [hlookup, Option.bind_eq_bind, Option.bind_some, hpeer]
  rfl

/-- The peer with a keypair gets a packet accepted from every address that its prefixes cover. -/
theorem exists_accepted (hps : allowed[i]? = some ps) {p : Prefix} (hp : p ∈ ps) {family : Family}
    {address destination : Bytes} (hmatch : p.matches family address = true)
    (haddress : address.length = family.size) (hdestination : destination.length = family.size) :
    ∃ t, processData transparent { now := 2000 } somewhere (sessionOf allowed i)
      (dataPacket (header family address destination)) =
        (t, some (header family address destination)) := by
  have hinner := (addresses_header haddress hdestination).1
  have hpos : 0 < (header family address destination).length := by
    cases family <;> simp [header]
  generalize header family address destination = inner at hinner hpos
  have hlength : (dataPacket inner).length = inner.length + 32 := by
    simp [dataPacket, toLittleEndian]
  have hcounter : counterOf (dataPacket inner) = 5 := by
    have htaken : ((dataPacket inner).drop 8).take 8 = toLittleEndian 8 5 := rfl
    rw [counterOf, htaken]
    rfl
  have hplain : (dataPacket inner).drop 16 = inner ++ List.replicate 16 0 := rfl
  have hdecrypt : transparent.decrypt ((dataPacket inner).drop 16) 5
      youngProtocol.curr.receivingKey = some inner := by
    simp [transparent, hplain]
  obtain ⟨k, hreplay⟩ : ∃ k, checkReplay youngProtocol.curr 5 = (k, true) := ⟨_, rfl⟩
  have hpeer : (sessionOf allowed i).peers[i]? =
      some { protocol := 0, endpoint := somewhere, allowed := ps } := by
    simp [sessionOf, getElem?_mapIdx, hps]
  have hallowed : Peer.sourceAllowed { protocol := 0, endpoint := somewhere, allowed := ps } family
      address = true := any_eq_true.2 ⟨p, hp, hmatch⟩
  have hlimits : withinLimits youngProtocol.curr 5 2000 = true := by decide
  simp only [processData, named_sessionOf hps, hcounter, Protocol.keypair, hlimits, hdecrypt,
    hreplay, hinner, hpeer, hallowed, hlength]
  rw [if_neg (by omega), if_neg (by simp), if_neg (by simp), if_neg (by omega), if_pos trivial,
    take_length]
  exact ⟨_, rfl⟩

/-- **Cryptokey routing is one table exactly for exclusive prefixes**: the replies to all packets
that are accepted go back to the peers the packets came from iff no prefixes of different peers
overlap. -/
theorem routesBack_iff_exclusive (hconfigured : Configured allowed) :
    RoutesBack allowed ↔ Exclusive allowed := by
  constructor
  · intro h
    refine exclusive_iff.2 fun i j ps qs hps hqs hne p hp q hq hoverlaps ↦ ?_
    obtain ⟨address, haddress, hpmatch, hqmatch⟩ :=
      hoverlaps.exists_address (hconfigured.valid hps hp) (hconfigured.valid hqs hq)
    obtain ⟨hsource, hreply⟩ := addresses_header haddress haddress
    -- Both peers get a packet from the address accepted, and the reply is one packet.
    have hback : ∀ {k : Nat} {rs : List Prefix} {r}, allowed[k]? = some rs → r ∈ rs →
        r.matches p.family address = true →
          routePeer (sessionOf allowed k).peers p.family address = some k := by
      intro k rs r hrs hr hmatch
      obtain ⟨t, ht⟩ := exists_accepted hrs hr hmatch haddress haddress
      obtain ⟨_, _, _, _, hsame⟩ := covering_of_accepted ht hsource
      rw [← routed_of_sameAllowed hsame hreply]
      exact h _ _ _ _ _ _ _ _ _ _ _ _ _ (map_sessionOf _ _) (named_sessionOf hrs _) ht hsource
        hreply
    have hsame : SameAllowed (sessionOf allowed i) (sessionOf allowed j) :=
      (map_sessionOf _ _).trans (map_sessionOf _ _).symm
    have hi := hback hps hp hpmatch
    rw [routePeer_eq_argmax, covering_congr hsame, ← routePeer_eq_argmax,
      hback hqs hq hqmatch] at hi
    exact hne (Option.some.inj hi).symm
  · intro hexclusive aead fate source s t packet inner reply family address length length' n
      hallowed hn haccept hsource hreply
    obtain ⟨n', bits, hn', hcovering, hsame⟩ := covering_of_accepted haccept hsource
    rw [hn] at hn'
    cases hn'
    rw [routed_of_sameAllowed hsame hreply, routePeer_eq_some_iff hcovering]
    exact not_shadowed_of_exclusive hconfigured hexclusive hallowed (length_innerAddresses hsource)
      hcovering

/-- Neighbouring prefixes of two peers do not overlap. -/
theorem neighbours_routesBack :
    RoutesBack [[⟨.inet, [10, 0, 0, 0], 24⟩], [⟨.inet, [10, 0, 1, 0], 24⟩]] := by
  refine (routesBack_iff_exclusive fun ps hps p hp ↦ ?_).2 (by decide)
  rcases mem_pair.1 hps with rfl | rfl
  · exact ⟨bytes "10.0.0.0/24", mem_singleton.1 hp ▸ by decide⟩
  · exact ⟨bytes "10.0.1.0/24", mem_singleton.1 hp ▸ by decide⟩

/-- The outer of two nested prefixes gets a packet accepted, and the reply goes to the other
peer. -/
theorem outer_prefix_reply_misrouted :
    let allowed := [[⟨.inet, [10, 0, 0, 0], 8⟩], [⟨.inet, [10, 0, 0, 0], 24⟩]]
    let packet := dataPacket (header .inet [10, 0, 0, 5] [10, 0, 0, 1])
    let accepted := processData transparent { now := 2000 } somewhere (sessionOf allowed 0) packet
    accepted.2 = some (header .inet [10, 0, 0, 5] [10, 0, 0, 1]) ∧
      ((sessionOf allowed 0).named packet).map Named.peer = some 0 ∧
      accepted.1.routed (header .inet [10, 0, 0, 1] [10, 0, 0, 5]) = some 1 := by
  decide

end ClambHook.WireGuard
