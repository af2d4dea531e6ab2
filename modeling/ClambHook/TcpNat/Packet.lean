import ClambHook.TcpNat.Stack

/-!
# TCP packets

What a packet says: its family, where its TCP header begins, and its two endpoints.  A rewriting of
the stack changes one endpoint and the checksums (`Readdressed`), which is shown here for every
packet and both families; the flow table plays no part yet.

A rewriting is a sequence of splices at disjoint ranges.  The header of a packet is found from bytes
that none of them touches (`locate_congr`), and everything else is read off the splices.
-/

namespace ClambHook.TcpNat

open CString ByteRange InternetChecksum List

/-! ## What a packet says -/

namespace Family

def addressLength : Family → Nat
  | inet => 4
  | inet6 => 16

def sourceOffset : Family → Nat
  | inet => 12
  | inet6 => 8

def destinationOffset : Family → Nat
  | inet => 16
  | inet6 => 24

/-- The end of the fixed part of a header, which is the end of its addresses. -/
def headerEnd : Family → Nat
  | inet => 20
  | inet6 => 40

/-- The number of bytes at the front of a packet that are never rewritten. -/
def kept : Family → Nat
  | inet => 10
  | inet6 => 8

end Family

/-- The family of a TCP packet and the offset of its TCP header. -/
def locate (packet : Bytes) : Option (Family × Nat) :=
  if version packet = 4 then
    if 20 ≤ headerLength packet ∧ readU16 2 packet = packet.length ∧ packet.getD 9 0 = 6 ∧
        headerLength packet + 20 ≤ packet.length then
      some (.inet, headerLength packet)
    else none
  else
    (ipv6Transport packet).bind fun (protocol, offset) ↦
      if protocol = 6 ∧ offset + 20 ≤ packet.length then some (.inet6, offset) else none

structure Endpoint where
  address : Bytes
  port : Nat
deriving DecidableEq, Repr

/-- The reading of a TCP packet. -/
structure View where
  family : Family
  tcpOffset : Nat
  source : Endpoint
  destination : Endpoint
deriving DecidableEq, Repr

def sourceOf (family : Family) (offset : Nat) (packet : Bytes) : Endpoint :=
  ⟨slice family.sourceOffset family.addressLength packet, readU16 offset packet⟩

def destinationOf (family : Family) (offset : Nat) (packet : Bytes) : Endpoint :=
  ⟨slice family.destinationOffset family.addressLength packet, readU16 (offset + 2) packet⟩

def view (packet : Bytes) : Option View :=
  (locate packet).map fun (family, offset) ↦
    ⟨family, offset, sourceOf family offset packet, destinationOf family offset packet⟩

/-- The sum over a TCP segment and its pseudo header. -/
def tcpSum (addressOffset addressLength : Nat) (pseudo : Bytes) (offset : Nat) (packet : Bytes) :
    Nat :=
  wordSum (slice addressOffset addressLength packet) + wordSum pseudo + wordSum (packet.drop offset)

/-- The IP and TCP checksums of a packet are right.  An IPv6 header has none. -/
def ChecksumsValid : Family → Nat → Bytes → Prop
  | .inet, offset, packet =>
    finish (wordSum (packet.take offset)) = 0 ∧
      finish (tcpSum 12 8 (pseudoIpv4 (packet.length - offset)) offset packet) = 0
  | .inet6, offset, packet =>
    finish (tcpSum 8 32 (pseudoIpv6 (packet.length - offset)) offset packet) = 0

/-- A packet is `packet` with other endpoints: the sequence and acknowledgement numbers, flags and
window are the same, and so is all that follows the TCP checksum. -/
structure Readdressed (packet result : Bytes) (v : View) : Prop where
  view_eq : view result = some v
  length_eq : result.length = packet.length
  header_eq : slice (v.tcpOffset + 4) 12 result = slice (v.tcpOffset + 4) 12 packet
  rest_eq : result.drop (v.tcpOffset + 18) = packet.drop (v.tcpOffset + 18)
  checksums : ChecksumsValid v.family v.tcpOffset result

/-! ## Reads -/

variable {packet result : Bytes} {offset : Nat}

theorem readU16_congr (h : ∀ i, offset ≤ i → i < offset + 2 → result[i]? = packet[i]?) :
    readU16 offset result = readU16 offset packet := by
  simp only [readU16, getD_eq_getElem?_getD]
  rw [h offset (by omega) (by omega), h (offset + 1) (by omega) (by omega)]

theorem readU16_writeU16 {value : Nat} (h : offset + 2 ≤ packet.length)
    (hvalue : value < 65536) : readU16 offset (writeU16 offset value packet) = value := by
  have hlength : offset + (wordBytes value).length ≤ packet.length := h
  simp only [readU16, writeU16, getD_eq_getElem?_getD]
  rw [getElem?_splice hlength, getElem?_splice hlength, if_pos (by simp), if_pos (by simp)]
  simp only [wordBytes, Nat.sub_self, Nat.add_sub_cancel_left, getElem?_cons_zero,
    getElem?_cons_succ, Option.getD_some, UInt8.toNat_ofNat']
  omega

theorem readU16_lt (offset : Nat) (packet : Bytes) : readU16 offset packet < 65536 := by
  have hhigh := (packet.getD offset 0).toNat_lt
  have hlow := (packet.getD (offset + 1) 0).toNat_lt
  rw [readU16]
  omega

/-! ## Finding the TCP header -/

variable {protocol : UInt8}

/-- The walk over the extension headers reads nothing from the transport header on. -/
theorem transportLoop_eq_some {left found : Nat} {last : UInt8}
    (h : transportLoop packet left protocol offset = some (last, found)) :
    offset ≤ found ∧ ∀ result : Bytes, result.length = packet.length →
      (∀ i, offset ≤ i → i < found → result[i]? = packet[i]?) →
        transportLoop result left protocol offset = some (last, found) := by
  induction left generalizing protocol offset with
  | zero =>
    unfold transportLoop at h ⊢
    split at h <;> cases h
    next hlast => exact ⟨le_rfl, fun _ _ _ ↦ if_neg hlast⟩
  | succ left ih =>
    simp only [transportLoop] at h ⊢
    split at h
    · next hextension =>
      split at h
      · cases h
      next htwo =>
      split at h
      · cases h
      next hfits =>
      obtain ⟨hfound, hcongr⟩ := ih h
      refine ⟨by omega, fun result hlength hagree ↦ ?_⟩
      have hread : ∀ i, offset ≤ i → i < offset + 2 → result.getD i 0 = packet.getD i 0 := by
        intro i hlo hhi
        rw [getD_eq_getElem?_getD, getD_eq_getElem?_getD, hagree i hlo (by omega)]
      rw [if_pos hextension, hlength, if_neg htwo, hread (offset + 1) (by omega) (by omega),
        if_neg hfits, hread offset (by omega) (by omega)]
      exact hcongr result hlength fun i hlo hhi ↦ hagree i (by omega) hhi
    · next hlast =>
      cases h
      exact ⟨le_rfl, fun _ _ _ ↦ if_neg hlast⟩

theorem ipv6Transport_eq_some (h : ipv6Transport packet = some (protocol, offset)) :
    40 ≤ packet.length ∧ version packet = 6 ∧ readU16 4 packet = packet.length - 40 ∧
      transportLoop packet 16 (packet.getD 6 0) 40 = some (protocol, offset) ∧ protocol ≠ 44 := by
  simp only [ipv6Transport] at h
  split at h
  · cases h
  next hfits =>
  simp only [not_or, not_not, not_lt] at hfits
  rw [Option.filter_eq_some_iff] at h
  exact ⟨hfits.1, hfits.2.1, hfits.2.2, h.1, by simpa using h.2⟩

variable {family : Family}

/-- Where the header of a packet is, with what the code has checked. -/
theorem locate_iff :
    locate packet = some (family, offset) ↔ offset + 20 ≤ packet.length ∧
      ((family = .inet ∧ version packet = 4 ∧ headerLength packet = offset ∧ 20 ≤ offset ∧
          readU16 2 packet = packet.length ∧ packet.getD 9 0 = 6) ∨
        (family = .inet6 ∧ ipv6Transport packet = some (6, offset))) := by
  constructor
  · intro h
    simp only [locate] at h
    split_ifs at h with hversion hvalid
    · cases h
      exact ⟨hvalid.2.2.2, .inl ⟨rfl, hversion, rfl, hvalid.1, hvalid.2.1, hvalid.2.2.1⟩⟩
    · obtain ⟨⟨protocol, found⟩, htransport, hfound⟩ := Option.bind_eq_some_iff.1 h
      obtain ⟨⟨rfl, hlength⟩, hfound⟩ := Option.ite_none_right_eq_some.1 hfound
      cases hfound
      exact ⟨hlength, .inr ⟨rfl, htransport⟩⟩
  · rintro ⟨hlength, ⟨rfl, hversion, rfl, hheader, htotal, hprotocol⟩ | ⟨rfl, htransport⟩⟩
    · rw [locate, if_pos hversion, if_pos ⟨hheader, htotal, hprotocol, hlength⟩]
    · have hversion := (ipv6Transport_eq_some htransport).2.1
      rw [locate, if_neg (by omega), htransport, Option.bind_some]
      exact if_pos ⟨rfl, hlength⟩

/-- The TCP header stands behind the addresses, and a packet has room for it.  The largest packet is
one of IPv6 with 65535 bytes behind its first header. -/
theorem locate_bounds (h : locate packet = some (family, offset)) :
    family.headerEnd ≤ offset ∧ offset + 20 ≤ packet.length ∧ packet.length ≤ 65575 := by
  obtain ⟨hlength, ⟨rfl, -, -, hheader, htotal, -⟩ | ⟨rfl, htransport⟩⟩ := locate_iff.1 h
  · have := readU16_lt 2 packet
    exact ⟨hheader, hlength, by omega⟩
  · obtain ⟨-, -, hpayload, hloop, -⟩ := ipv6Transport_eq_some htransport
    have := readU16_lt 4 packet
    exact ⟨(transportLoop_eq_some hloop).1, hlength, by omega⟩

/-- A packet that agrees with another in the bytes that are never rewritten has its header at the
same place. -/
theorem locate_congr
    (h : locate packet = some (family, offset)) (hlength : result.length = packet.length)
    (hkept : ∀ i < family.kept, result[i]? = packet[i]?)
    (hagree : ∀ i, family.headerEnd ≤ i → i < offset → result[i]? = packet[i]?) :
    locate result = some (family, offset) := by
  have hread : ∀ i < family.kept, result.getD i 0 = packet.getD i 0 := by
    intro i hi
    rw [getD_eq_getElem?_getD, getD_eq_getElem?_getD, hkept i hi]
  obtain ⟨hfits, ⟨rfl, hversion, hoffset, hheader, htotal, hprotocol⟩ | ⟨rfl, htransport⟩⟩ :=
    locate_iff.1 h
  · refine locate_iff.2 ⟨hlength ▸ hfits, .inl ⟨rfl, ?_, ?_, hheader, ?_, ?_⟩⟩
    · rw [version, hread 0 (by decide)]
      exact hversion
    · rw [headerLength, hread 0 (by decide)]
      exact hoffset
    · rw [readU16_congr fun i hlo hhi ↦ hkept i (by simp only [Family.kept]; omega), hlength]
      exact htotal
    · rw [hread 9 (by decide)]
      exact hprotocol
  · obtain ⟨hforty, hversion, hpayload, hloop, hprotocol⟩ := ipv6Transport_eq_some htransport
    refine locate_iff.2 ⟨hlength ▸ hfits, .inr ⟨rfl, ?_⟩⟩
    have hversion' : version result = 6 := by
      rw [version, hread 0 (by decide)]
      exact hversion
    have hpayload' : readU16 4 result = packet.length - 40 := by
      rw [readU16_congr fun i hlo hhi ↦ hkept i (by simp only [Family.kept]; omega)]
      exact hpayload
    rw [ipv6Transport, hlength, hpayload', hversion', hread 6 (by decide), if_neg (by omega),
      (transportLoop_eq_some hloop).2 result hlength hagree]
    simp

variable {v : View}

theorem view_eq_some (h : view packet = some v) :
    locate packet = some (v.family, v.tcpOffset) ∧
      v.source = sourceOf v.family v.tcpOffset packet ∧
      v.destination = destinationOf v.family v.tcpOffset packet := by
  obtain ⟨⟨family, offset⟩, hlocate, rfl⟩ := Option.map_eq_some_iff.1 h
  exact ⟨hlocate, rfl, rfl⟩

theorem view_of_locate (h : locate packet = some (family, offset)) :
    view packet =
      some ⟨family, offset, sourceOf family offset packet, destinationOf family offset packet⟩ := by
  rw [view, h, Option.map_some]

/-! ## Checksums -/

theorem checksumAdd_of_lt {bytes : Bytes} {sum : Nat} (h : sum + wordSum bytes < 2 ^ 32) :
    checksumAdd bytes sum = sum + wordSum bytes :=
  Nat.mod_eq_of_lt h

variable {addressOffset addressLength : Nat} {pseudo : Bytes}

/-- The sum over a packet does not wrap around. -/
theorem tcpChecksum_eq (haddress : addressLength ≤ 32) (hpseudo : pseudo.length ≤ 8)
    (hlength : packet.length ≤ 65575) :
    tcpChecksum addressOffset addressLength pseudo offset packet =
      finish (tcpSum addressOffset addressLength pseudo offset packet) := by
  have hslice := wordSum_le (slice addressOffset addressLength packet)
  have hslice' : (slice addressOffset addressLength packet).length ≤ addressLength :=
    length_take_le _ _
  have hpseudo' := wordSum_le pseudo
  have hsegment := wordSum_le (packet.drop offset)
  have hsegment' : (packet.drop offset).length = packet.length - offset := length_drop
  have hzero : checksumAdd (slice addressOffset addressLength packet) 0 =
      wordSum (slice addressOffset addressLength packet) := by
    rw [checksumAdd_of_lt (by omega), Nat.zero_add]
  have hadd : checksumAdd pseudo (wordSum (slice addressOffset addressLength packet)) =
      wordSum (slice addressOffset addressLength packet) + wordSum pseudo :=
    checksumAdd_of_lt (by omega)
  rw [tcpChecksum, hzero, hadd, checksumAdd_of_lt (by omega), tcpSum]

section

variable (h : offset + 20 ≤ packet.length)

include h

theorem tcpWord_fits (word : Nat) : offset + 16 + (wordBytes word).length ≤ packet.length := by
  rw [length_wordBytes]
  omega

theorem writeTcpChecksum_eq :
    writeTcpChecksum addressOffset addressLength pseudo offset packet =
      splice (offset + 16)
        (wordBytes (tcpChecksum addressOffset addressLength pseudo offset
          (splice (offset + 16) (wordBytes 0) packet))) packet := by
  rw [writeTcpChecksum, writeU16,
    splice_splice_self (tcpWord_fits h 0) (by simp only [length_wordBytes])]

theorem length_writeTcpChecksum :
    (writeTcpChecksum addressOffset addressLength pseudo offset packet).length = packet.length := by
  rw [writeTcpChecksum_eq h, length_splice (tcpWord_fits h _)]

theorem getElem?_writeTcpChecksum {i : Nat} (hi : i < offset + 16 ∨ offset + 18 ≤ i) :
    (writeTcpChecksum addressOffset addressLength pseudo offset packet)[i]? = packet[i]? := by
  rw [writeTcpChecksum_eq h, getElem?_splice_of_disjoint (tcpWord_fits h _)]
  simpa only [length_wordBytes] using hi

variable (haddress : addressOffset + addressLength ≤ offset)

include haddress

/-- A word in the checksum field adds to the sum over a segment. -/
theorem tcpSum_splice {word : Nat} (hword : word < 65536) :
    tcpSum addressOffset addressLength pseudo offset
        (splice (offset + 16) (wordBytes word) packet) =
      tcpSum addressOffset addressLength pseudo offset
        (splice (offset + 16) (wordBytes 0) packet) + word := by
  have hfits := tcpWord_fits h
  have hdrop : 16 + 2 ≤ (packet.drop offset).length := by
    rw [length_drop]
    omega
  simp only [tcpSum]
  rw [slice_splice_of_disjoint (hfits word) (by omega),
    slice_splice_of_disjoint (hfits 0) (by omega),
    drop_splice (hfits word) (by omega), drop_splice (hfits 0) (by omega), Nat.add_sub_cancel_left,
    wordSum_splice (by decide) hdrop hword]
  omega

/-- **The TCP checksum that is written is right.** -/
theorem tcpSum_writeTcpChecksum (hsize : addressLength ≤ 32) (hpseudo : pseudo.length ≤ 8)
    (hlength : packet.length ≤ 65575) :
    finish (tcpSum addressOffset addressLength pseudo offset
      (writeTcpChecksum addressOffset addressLength pseudo offset packet)) = 0 := by
  have hzeros := length_splice (tcpWord_fits h 0)
  rw [writeTcpChecksum_eq h, tcpChecksum_eq hsize hpseudo (hzeros.trans_le hlength),
    tcpSum_splice h haddress (finish_lt _)]
  exact finish_add_finish _

end

section

variable (h : 20 ≤ packet.length)

include h

theorem headerWord_fits (word : Nat) : 10 + (wordBytes word).length ≤ packet.length := by
  rw [length_wordBytes]
  omega

theorem writeHeaderChecksum_eq :
    writeHeaderChecksum offset packet =
      splice 10 (wordBytes (checksum ((splice 10 (wordBytes 0) packet).take offset))) packet := by
  rw [writeHeaderChecksum, writeU16,
    splice_splice_self (headerWord_fits h 0) (by simp only [length_wordBytes])]

theorem length_writeHeaderChecksum (offset : Nat) :
    (writeHeaderChecksum offset packet).length = packet.length := by
  rw [writeHeaderChecksum_eq h, length_splice (headerWord_fits h _)]

theorem getElem?_writeHeaderChecksum {i : Nat} (hi : i < 10 ∨ 12 ≤ i) :
    (writeHeaderChecksum offset packet)[i]? = packet[i]? := by
  rw [writeHeaderChecksum_eq h, getElem?_splice_of_disjoint (headerWord_fits h _)]
  simpa only [length_wordBytes] using hi

end

/-- **The header checksum that is written is right.** -/
theorem wordSum_writeHeaderChecksum (hheader : 20 ≤ offset)
    (hlength : offset ≤ packet.length) (hsize : packet.length ≤ 65575) :
    finish (wordSum ((writeHeaderChecksum offset packet).take offset)) = 0 := by
  have hfits := headerWord_fits (hheader.trans hlength)
  have htake : 10 + 2 ≤ (packet.take offset).length := by
    rw [length_take]
    omega
  have hsum := wordSum_le (splice 10 (wordBytes 0) (packet.take offset))
  rw [length_splice htake, length_take] at hsum
  rw [writeHeaderChecksum_eq (by omega), take_splice (hfits 0) (by rw [length_wordBytes]; omega),
    take_splice (hfits _) (by rw [length_wordBytes]; omega), checksum,
    checksumAdd_of_lt (by omega), Nat.zero_add,
    wordSum_splice (by decide) htake (finish_lt _)]
  exact finish_add_finish _

/-! ## Rewriting -/

/-- What both families do after they have changed an endpoint. -/
def checksums : Family → Bytes → Bytes
  | .inet => ipv4Checksums
  | .inet6 => ipv6TcpChecksum

/-- The addresses stand one behind the other, in front of the TCP header. -/
theorem Family.addresses (family : Family) :
    family.kept ≤ family.sourceOffset ∧
      family.sourceOffset + family.addressLength = family.destinationOffset ∧
      family.destinationOffset + family.addressLength = family.headerEnd := by
  cases family <;> decide

/-- A packet that differs from another only in its checksums, and has the right ones. -/
theorem readdressed_of_agree (h : view packet = some v)
    (hlength : result.length = packet.length)
    (hagree : ∀ i, i < v.family.kept ∨ v.family.sourceOffset ≤ i →
      i < v.tcpOffset + 16 ∨ v.tcpOffset + 18 ≤ i → result[i]? = packet[i]?)
    (hchecksums : ChecksumsValid v.family v.tcpOffset result) : Readdressed packet result v := by
  obtain ⟨hlocate, hsource, hdestination⟩ := view_eq_some h
  obtain ⟨hheader, hfits, -⟩ := locate_bounds hlocate
  have horder := v.family.addresses
  have hview : view result = some v := by
    rw [view_of_locate (locate_congr hlocate hlength (fun i hi ↦ hagree i (by omega) (by omega))
      fun i hlo hhi ↦ hagree i (by omega) (by omega))]
    have hsource' : sourceOf v.family v.tcpOffset result = v.source := by
      rw [hsource, sourceOf, sourceOf,
        slice_congr fun i hlo hhi ↦ hagree i (by omega) (by omega),
        readU16_congr fun i hlo hhi ↦ hagree i (by omega) (by omega)]
    have hdestination' : destinationOf v.family v.tcpOffset result = v.destination := by
      rw [hdestination, destinationOf, destinationOf,
        slice_congr fun i hlo hhi ↦ hagree i (by omega) (by omega),
        readU16_congr fun i hlo hhi ↦ hagree i (by omega) (by omega)]
    rw [hsource', hdestination']
  refine ⟨hview, hlength, slice_congr fun i hlo hhi ↦ hagree i (by omega) (by omega), ?_,
    hchecksums⟩
  refine ext_getElem? fun i ↦ ?_
  rw [getElem?_drop, getElem?_drop, hagree _ (by omega) (by omega)]

theorem ipv4Checksums_eq (h : locate packet = some (.inet, offset)) :
    ipv4Checksums packet =
      writeTcpChecksum 12 8 (pseudoIpv4 (packet.length - offset)) offset
        (writeHeaderChecksum offset packet) := by
  obtain ⟨hfits, ⟨-, -, rfl, hheader, -, hprotocol⟩ | ⟨hfamily, -⟩⟩ := locate_iff.1 h
  · have hprotocol' : (writeHeaderChecksum (headerLength packet) packet).getD 9 0 = 6 := by
      rw [getD_eq_getElem?_getD, getElem?_writeHeaderChecksum (by omega) (by omega),
        ← getD_eq_getElem?_getD, hprotocol]
    have hlength := length_writeHeaderChecksum (show 20 ≤ packet.length by omega)
      (headerLength packet)
    simp only [ipv4Checksums, hlength, hprotocol']
    rw [if_neg (by omega), if_neg (by simpa using hfits)]
  · cases hfamily

theorem ipv6TcpChecksum_eq (h : locate packet = some (.inet6, offset)) :
    ipv6TcpChecksum packet =
      writeTcpChecksum 8 32 (pseudoIpv6 (packet.length - offset)) offset packet := by
  obtain ⟨hfits, ⟨hfamily, -⟩ | ⟨-, htransport⟩⟩ := locate_iff.1 h
  · cases hfamily
  · simp only [ipv6TcpChecksum, htransport]
    rw [if_neg (by simpa using hfits)]

/-- **Checksums**: they are right, and nothing else in a packet changes. -/
theorem checksums_readdressed (h : view packet = some v) :
    Readdressed packet (checksums v.family packet) v := by
  have hlocate := (view_eq_some h).1
  obtain ⟨hheader, hfits, hsize⟩ := locate_bounds hlocate
  obtain ⟨family, offset, source, destination⟩ := v
  cases family with
  | inet =>
    simp only [Family.headerEnd] at hlocate hheader hfits
    have hlength := length_writeHeaderChecksum (show 20 ≤ packet.length by omega) offset
    have hfits' : offset + 20 ≤ (writeHeaderChecksum offset packet).length := by omega
    have hresult : checksums .inet packet = _ := ipv4Checksums_eq hlocate
    have hlength' : (checksums .inet packet).length = packet.length := by
      rw [hresult, length_writeTcpChecksum hfits', hlength]
    refine readdressed_of_agree h hlength' (fun i hkept htcp ↦ ?_) ⟨?_, ?_⟩
    · rw [hresult, getElem?_writeTcpChecksum hfits' htcp,
        getElem?_writeHeaderChecksum (by omega) hkept]
    · have htake : (checksums .inet packet).take offset =
          (writeHeaderChecksum offset packet).take offset := by
        refine ext_getElem? fun i ↦ ?_
        rw [getElem?_take, getElem?_take]
        split
        · rw [hresult, getElem?_writeTcpChecksum hfits' (by omega)]
        · rfl
      rw [htake]
      exact wordSum_writeHeaderChecksum hheader (by omega) hsize
    · rw [hlength', hresult]
      exact tcpSum_writeTcpChecksum hfits' (by omega) (by decide) (Nat.le_add_right 4 4)
        (hlength.trans_le hsize)
  | inet6 =>
    simp only [Family.headerEnd] at hlocate hheader hfits
    have hresult : checksums .inet6 packet = _ := ipv6TcpChecksum_eq hlocate
    have hlength : (checksums .inet6 packet).length = packet.length := by
      rw [hresult, length_writeTcpChecksum hfits]
    refine readdressed_of_agree h hlength (fun i _ htcp ↦ ?_) ?_
    · rw [hresult, getElem?_writeTcpChecksum hfits htcp]
    · rw [ChecksumsValid, hlength, hresult]
      exact tcpSum_writeTcpChecksum hfits (by omega) (by decide) le_rfl hsize

/-- The part of a rewriting that changes an endpoint: the address at one place of the packet and the
port at another. -/
def setEndpoint (addressOffset portOffset : Nat) (endpoint : Endpoint) (packet : Bytes) : Bytes :=
  writeU16 portOffset endpoint.port (splice addressOffset endpoint.address packet)

section

variable {portOffset : Nat} {endpoint : Endpoint}

variable (hport : portOffset + 2 ≤ packet.length)

include hport

theorem slice_setEndpoint (haddress : addressOffset + endpoint.address.length ≤ portOffset) :
    slice addressOffset endpoint.address.length
      (setEndpoint addressOffset portOffset endpoint packet) = endpoint.address := by
  have hlength := length_splice (haddress.trans (by omega : portOffset ≤ packet.length))
  rw [setEndpoint, writeU16,
    slice_splice_of_disjoint (by rw [length_wordBytes, hlength]; exact hport) (.inl haddress),
    slice_splice_self (by omega)]

variable (haddress : addressOffset + endpoint.address.length ≤ packet.length)

include haddress

theorem length_setEndpoint :
    (setEndpoint addressOffset portOffset endpoint packet).length = packet.length := by
  have hlength := length_splice haddress
  rw [setEndpoint, writeU16, length_splice (by rw [length_wordBytes, hlength]; exact hport),
    hlength]

theorem getElem?_setEndpoint {i : Nat}
    (hi : i < addressOffset ∨ addressOffset + endpoint.address.length ≤ i)
    (hi' : i < portOffset ∨ portOffset + 2 ≤ i) :
    (setEndpoint addressOffset portOffset endpoint packet)[i]? = packet[i]? := by
  have hport' : portOffset + (wordBytes endpoint.port).length ≤
      (splice addressOffset endpoint.address packet).length := by
    rw [length_wordBytes, length_splice haddress]
    exact hport
  rw [setEndpoint, writeU16, getElem?_splice_of_disjoint hport' hi',
    getElem?_splice_of_disjoint haddress hi]

theorem readU16_setEndpoint (hvalue : endpoint.port < 65536) :
    readU16 portOffset (setEndpoint addressOffset portOffset endpoint packet) = endpoint.port :=
  readU16_writeU16 (by rw [length_splice haddress]; exact hport) hvalue

end

variable {endpoint : Endpoint}

/-- The steps before the checksums, for one endpoint or the other. -/
theorem readdressed_setEndpoint {w : View} {portOffset : Nat}
    (h : view packet = some v)
    (hfamily : w.family = v.family) (hoffset : w.tcpOffset = v.tcpOffset)
    (haddress : v.family.sourceOffset ≤ addressOffset)
    (hend : addressOffset + endpoint.address.length ≤ v.family.headerEnd)
    (hport : v.tcpOffset ≤ portOffset) (hportEnd : portOffset + 2 ≤ v.tcpOffset + 4)
    (hsource : sourceOf v.family v.tcpOffset
      (setEndpoint addressOffset portOffset endpoint packet) = w.source)
    (hdestination : destinationOf v.family v.tcpOffset
      (setEndpoint addressOffset portOffset endpoint packet) = w.destination) :
    Readdressed packet
      (checksums v.family (setEndpoint addressOffset portOffset endpoint packet)) w := by
  obtain ⟨hlocate, -, -⟩ := view_eq_some h
  obtain ⟨hheader, hfits, -⟩ := locate_bounds hlocate
  have hkept := v.family.addresses.1
  generalize hset : setEndpoint addressOffset portOffset endpoint packet = set
    at hsource hdestination ⊢
  have hlength : set.length = packet.length := by
    rw [← hset, length_setEndpoint (by omega) (by omega)]
  have hagree : ∀ i, i < addressOffset ∨ addressOffset + endpoint.address.length ≤ i →
      i < portOffset ∨ portOffset + 2 ≤ i → set[i]? = packet[i]? := by
    intro i hi hi'
    rw [← hset, getElem?_setEndpoint (by omega) (by omega) hi hi']
  have hview : view set = some w := by
    rw [view_of_locate (locate_congr hlocate hlength (fun i hi ↦ hagree i (by omega) (by omega))
      fun i hlo hhi ↦ hagree i (by omega) (by omega)), hsource, hdestination, ← hfamily, ← hoffset]
  obtain ⟨hresult, hlength', hsame, hrest, hchecksums⟩ := checksums_readdressed hview
  rw [hfamily] at hresult hlength' hsame hrest
  refine ⟨hresult, hlength'.trans hlength, hsame.trans (slice_congr fun i hlo hhi ↦ ?_),
    hrest.trans (ext_getElem? fun i ↦ ?_), hfamily ▸ hchecksums⟩
  · exact hagree i (by omega) (by omega)
  · rw [getElem?_drop, getElem?_drop, hagree _ (by omega) (by omega)]

variable (h : view packet = some v) (haddress : endpoint.address.length = v.family.addressLength)
  (hport : endpoint.port < 65536)

include h haddress hport

/-- **A new destination**, for a packet on its way in. -/
theorem readdressed_destination :
    Readdressed packet
      (checksums v.family
        (setEndpoint v.family.destinationOffset (v.tcpOffset + 2) endpoint packet))
      { v with destination := endpoint } := by
  obtain ⟨hlocate, hsource, -⟩ := view_eq_some h
  obtain ⟨hheader, hfits, -⟩ := locate_bounds hlocate
  have horder := v.family.addresses
  refine readdressed_setEndpoint h rfl rfl (by omega) (by omega) (by omega) (by omega) ?_ ?_
  · rw [hsource, sourceOf, sourceOf,
      slice_congr fun i hlo hhi ↦ getElem?_setEndpoint (by omega) (by omega) (by omega) (by omega),
      readU16_congr fun i hlo hhi ↦ getElem?_setEndpoint (by omega) (by omega) (by omega)
        (by omega)]
  · rw [destinationOf, ← haddress, slice_setEndpoint (by omega) (by omega),
      readU16_setEndpoint (by omega) (by omega) hport]

/-- **A new source**, for a packet on its way out. -/
theorem readdressed_source :
    Readdressed packet
      (checksums v.family (setEndpoint v.family.sourceOffset v.tcpOffset endpoint packet))
      { v with source := endpoint } := by
  obtain ⟨hlocate, -, hdestination⟩ := view_eq_some h
  obtain ⟨hheader, hfits, -⟩ := locate_bounds hlocate
  have horder := v.family.addresses
  refine readdressed_setEndpoint h rfl rfl (by omega) (by omega) (by omega) (by omega) ?_ ?_
  · rw [sourceOf, ← haddress, slice_setEndpoint (by omega) (by omega),
      readU16_setEndpoint (by omega) (by omega) hport]
  · rw [hdestination, destinationOf, destinationOf,
      slice_congr fun i hlo hhi ↦ getElem?_setEndpoint (by omega) (by omega) (by omega) (by omega),
      readU16_congr fun i hlo hhi ↦ getElem?_setEndpoint (by omega) (by omega) (by omega)
        (by omega)]

end ClambHook.TcpNat
