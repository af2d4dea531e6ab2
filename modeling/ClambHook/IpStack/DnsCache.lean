import ClambHook.Lib.Machine
import ClambHook.Lib.WrappingClock
import ClambHook.TcpNat.Packet
import ClambHook.Lib.CStringLemmas
import Mathlib.Data.FinEnum
import Mathlib.Data.List.MinMax

/-!
# The DNS hints of the TUN stack

The TUN stack of `ip_stack.c` reads the DNS answers that it passes on, and remembers which name an
address was asked for.  The memory is a list of slots.  A store scans the slots: for the address
itself, else for a slot that has run out, else for the slot that was used longest ago.  Only when
the scan finds nothing is a slot added.

Names and addresses carry their bounds: a name is what `ch_ip_stack_dns_read_name` leaves in a
buffer of 256 bytes, an address has the length of its family.
-/

namespace ClambHook.IpStack.Dns

open CString ByteRange WrappingClock TcpNat List

/-! ## Names and addresses -/

/-- A name in a buffer of `CH_IP_STACK_DNS_NAME_CAPACITY` bytes. -/
structure DnsName where
  text : Bytes
  length_lt : text.length < 256
  zero : 0 ∉ text
deriving DecidableEq

/-- An address with its family. -/
structure Address where
  family : Family
  octets : Bytes
  length_eq : octets.length = family.addressLength
deriving DecidableEq

/-- An answer as it is stored. -/
structure Mapping where
  address : Address
  domain : DnsName
  ttlSeconds : UInt32
deriving DecidableEq

/-! ## Answers -/

/-- The loop of `ch_ip_stack_dns_read_name`: the name, with the NUL characters that its labels may
have, and where it ends. -/
def dnsReadNameLoop (message : Bytes) :
    (steps cursor next : Nat) → (written : Bytes) → (jumped : Bool) → Option (Bytes × Nat)
  | 0, _, _, _, _ => none
  | steps + 1, cursor, next, written, jumped =>
    match message[cursor]? with
    | none => none
    | some labelLength =>
      let keep := fun position ↦ if jumped then next else position
      if labelLength &&& 0xc0 = 0xc0 then
        match message[cursor + 1]? with
        | none => none
        | some low =>
          let pointer := (labelLength &&& 0x3f).toNat * 256 + low.toNat
          if message.length ≤ pointer then none
          else dnsReadNameLoop message steps pointer (keep (cursor + 2)) written true
      else if labelLength &&& 0xc0 ≠ 0 ∨ 63 < labelLength then none
      else if labelLength = 0 then
        if written = [] then none else some (written, keep (cursor + 1))
      else
        let separator := if written = [] then [] else bytes "."
        let past := cursor + 1 + labelLength.toNat
        if message.length < past ∨ 256 ≤ written.length + separator.length + labelLength.toNat then
          none
        else
          let label := (slice (cursor + 1) labelLength.toNat message).map tolower
          dnsReadNameLoop message steps past (keep past) (written ++ separator ++ label) jumped

/-- The name of RFC 1035 at an offset, in at most some steps: its labels, and where it ends as it
stands there.  The leading bits of a length are clear, those of a pointer are set. -/
def decodeName (message : Bytes) : (steps offset : Nat) → Option (List Bytes × Nat)
  | 0, _ => none
  | steps + 1, offset => do
    let length ← message[offset]?
    if 192 ≤ length.toNat then
      let low ← message[offset + 1]?
      let (labels, _) ← decodeName message steps (length.toNat % 64 * 256 + low.toNat)
      return (labels, offset + 2)
    else if length = 0 then return ([], offset + 1)
    else if length.toNat < 64 ∧ offset + 1 + length.toNat ≤ message.length then
      let (labels, next) ← decodeName message steps (offset + 1 + length.toNat)
      return (slice (offset + 1) length.toNat message :: labels, next)
    else none

theorem leadingBits : ∀ c : UInt8, (c &&& 0xc0 = 0xc0 ↔ 192 ≤ c.toNat) ∧
    (c &&& 0xc0 ≠ 0 ∨ 63 < c ↔ 64 ≤ c.toNat) ∧ (c &&& 0x3f).toNat = c.toNat % 64 := by
  decide +kernel

theorem decodeName_eq_none {message : Bytes} {steps offset : Nat} (h : message.length ≤ offset) :
    decodeName message steps offset = none := by
  cases steps with
  | zero => rfl
  | succ steps => rw [decodeName, List.getElem?_eq_none h]; rfl

/-- The text so far with a label behind it. -/
def addLabel (written label : Bytes) : Bytes :=
  written ++ (if written = [] then [] else bytes ".") ++ lower label

/-- The text so far with more labels behind it. -/
def joinLabels (written : Bytes) (labels : List Bytes) : Bytes :=
  (bytes ".").intercalate ((if written = [] then [] else [written]) ++ labels.map lower)

/-- The labels behind a text, unless there are none at all or they do not fit. -/
def fitted (written : Bytes) (name : List Bytes × Nat) : Option (Bytes × Nat) :=
  if (written = [] ∧ name.1 = []) ∨ 256 ≤ (joinLabels written name.1).length then none
  else some (joinLabels written name.1, name.2)

theorem fitted_eq_some_iff {written : Bytes} {p : List Bytes × Nat} {name : Bytes × Nat} :
    fitted written p = some name ↔ (written = [] → p.1 ≠ []) ∧
      (joinLabels written p.1).length < 256 ∧ (joinLabels written p.1, p.2) = name := by
  rw [fitted, Option.ite_none_left_eq_some, not_or, not_and, not_le, Option.some.injEq, and_assoc]

theorem fitted_cons {written label : Bytes} (hlabel : label ≠ []) (labels : List Bytes) (n : Nat) :
    fitted written (label :: labels, n) = if 256 ≤ (addLabel written label).length then none
      else fitted (addLabel written label) (labels, n) := by
  have hne : addLabel written label ≠ [] :=
    append_ne_nil_of_right_ne_nil _ (mt map_eq_nil_iff.1 hlabel)
  have hjoin : joinLabels written (label :: labels) =
      joinLabels (addLabel written label) labels := by
    rw [joinLabels, joinLabels, if_neg hne, addLabel]
    by_cases hnil : written = []
    · rw [hnil]
      rfl
    · simp [hnil, intercalate_eq_flatMap]
  have hlength : (addLabel written label).length ≤
      (joinLabels (addLabel written label) labels).length := by
    rw [joinLabels, if_neg hne, singleton_append, intercalate_eq_flatMap, length_append]
    exact Nat.le_add_right _ _
  rw [fitted, fitted, hjoin]
  simp only [hne, false_and, false_or, reduceCtorEq, and_false]
  split
  · next hlong => rw [ite_self]
  · next hlong => rw [if_neg fun h ↦ hlong (h.trans hlength)]

section

variable {message written : Bytes} {steps cursor next : Nat} {jumped : Bool}
  (hwritten : written.length < 256)

include hwritten

/-- **The loop reads names**, behind a text that it has written already. -/
theorem dnsReadNameLoop_eq :
    dnsReadNameLoop message steps cursor next written jumped =
      (decodeName message steps cursor).bind fun name ↦
        fitted written (name.1, if jumped then next else name.2) := by
  induction steps generalizing cursor next written jumped with
  | zero => rfl
  | succ steps ih =>
    rw [dnsReadNameLoop, decodeName]
    cases message[cursor]? with
    | none => rfl
    | some c =>
      obtain ⟨hpointer, hplain, hbits⟩ := leadingBits c
      simp only [hpointer, hplain, hbits, Option.bind_eq_bind, Option.bind_some]
      split
      · cases message[cursor + 1]? with
        | none => rfl
        | some low =>
          simp only [Option.bind_some]
          split
          · next hout => rw [decodeName_eq_none hout]; rfl
          · rw [ih hwritten]
            cases decodeName message steps (c.toNat % 64 * 256 + low.toNat) <;> rfl
      next hset =>
      by_cases hzero : c = 0
      · subst hzero
        by_cases hnil : written = []
        · simp [hnil, fitted]
        · simp [hnil, fitted, joinLabels, hwritten]
      simp only [if_neg hzero]
      by_cases hinside : c.toNat < 64 ∧ cursor + 1 + c.toNat ≤ message.length
      · have hlength := length_slice hinside.2
        have hlabel : slice (cursor + 1) c.toNat message ≠ [] := by
          refine ne_nil_of_length_pos ?_
          rw [hlength]
          exact Nat.pos_of_ne_zero fun h ↦ hzero (UInt8.toNat_inj.1 h)
        have hadd : (addLabel written (slice (cursor + 1) c.toNat message)).length =
            written.length + (if written = [] then [] else bytes ".").length + c.toNat := by
          rw [addLabel, length_append, length_append, lower, length_map, hlength]
        have hcons := @fitted_cons written _ hlabel
        rw [if_neg (not_le.2 hinside.1), if_pos hinside,
          if_congr (or_iff_right (not_lt.2 hinside.2)) rfl rfl, ← hadd]
        by_cases hroom : 256 ≤ (addLabel written (slice (cursor + 1) c.toNat message)).length
        · rw [if_pos hroom]
          cases decodeName message steps (cursor + 1 + c.toNat) with
          | none => rfl
          | some name => exact ((hcons _ _).trans (if_pos hroom)).symm
        · rw [if_neg hroom]
          refine (ih (not_le.1 hroom)).trans ?_
          cases decodeName message steps (cursor + 1 + c.toNat) with
          | none => rfl
          | some name => cases jumped <;> exact ((hcons _ _).trans (if_neg hroom)).symm
      · rw [if_neg hinside]
        split
        · rfl
        rw [if_pos (.inl (by omega))]
        rfl

end

/-- **Names**: what the loop of `ch_ip_stack_dns_read_name` leaves in the buffer, and where it says
that the message goes on.  It succeeds exactly if 128 steps find a name other than the root that
fits. -/
theorem dnsReadNameLoop_eq_some_iff (message : Bytes) (offset : Nat) (name : Bytes) (next : Nat) :
    dnsReadNameLoop message 128 offset offset [] false = some (name, next) ↔
      ∃ labels, decodeName message 128 offset = some (labels, next) ∧ labels ≠ [] ∧
        name = (bytes ".").intercalate (labels.map lower) ∧ name.length < 256 := by
  rw [dnsReadNameLoop_eq (by decide), Option.bind_eq_some_iff]
  constructor
  · rintro ⟨⟨labels, after⟩, hdecode, h⟩
    obtain ⟨hne, hlength, heq⟩ := fitted_eq_some_iff.1 h
    cases heq
    exact ⟨labels, hdecode, hne rfl, rfl, hlength⟩
  · rintro ⟨labels, hdecode, hne, rfl, hlength⟩
    exact ⟨_, hdecode, fitted_eq_some_iff.2 ⟨fun _ ↦ hne, hlength, rfl⟩⟩

/-! ## The cache -/

/-- A `ch_ip_stack_dns_entry`. -/
structure DnsEntry where
  address : Address
  domain : DnsName
  expiresAt : UInt32
  sequence : UInt64
deriving DecidableEq

/-- The part of a `ch_ip_stack` that is about DNS hints. -/
structure DnsCache where
  entries : List DnsEntry := []
  sequence : UInt64 := 0
deriving DecidableEq

/-- `CH_IP_STACK_DNS_CACHE_LIMIT`. -/
def dnsCacheLimit : Nat := 1024

/-- `ch_ip_stack_dns_entry_alive`. -/
def DnsEntry.alive (e : DnsEntry) (now : UInt32) : Bool :=
  ahead e.expiresAt now

/-- How long a mapping is kept, in milliseconds. -/
def ttlMilliseconds (ttlSeconds : UInt32) : Nat :=
  let ttl := if ttlSeconds.toNat * 1000 = 0 then 1000 else ttlSeconds.toNat * 1000
  if 86400000 < ttl then 86400000 else ttl

/-- The scan of `ch_ip_stack_dns_cache_store`: the address itself ends it; a slot that is not alive
is preferred to all that are. -/
def scanSlots (now : UInt32) (address : Address) :
    List DnsEntry → (index selected : Nat) → (oldest : UInt64) → Nat
  | [], _, selected, _ => selected
  | e :: rest, index, selected, oldest =>
    if e.address = address then index
    else if !e.alive now then scanSlots now address rest (index + 1) index 0
    else if oldest ≠ 0 ∧ e.sequence < oldest then
      scanSlots now address rest (index + 1) index e.sequence
    else scanSlots now address rest (index + 1) selected oldest

/-- The slot that was used longest ago, from a candidate on. -/
def oldestSlot : List DnsEntry → (index selected : Nat) → (oldest : UInt64) → Nat
  | [], _, selected, _ => selected
  | e :: rest, index, selected, oldest =>
    if e.sequence < oldest then oldestSlot rest (index + 1) index e.sequence
    else oldestSlot rest (index + 1) selected oldest

/-- The slot that a store takes, or that it adds. -/
def DnsCache.slotFor (c : DnsCache) (now : UInt32) (address : Address) : Nat :=
  let selected := scanSlots now address c.entries 0 c.entries.length (2 ^ 64 - 1).toUInt64
  if selected = c.entries.length then
    match c.entries with
    | e :: rest =>
      if c.entries.length < dnsCacheLimit then selected else oldestSlot rest 1 0 e.sequence
    | [] => selected
  else selected

/-- `ch_ip_stack_dns_cache_store`. -/
def DnsCache.store (c : DnsCache) (now : UInt32) (m : Mapping) : DnsCache :=
  let entry :=
    { address := m.address, domain := m.domain
      expiresAt := now + UInt32.ofNat (ttlMilliseconds m.ttlSeconds), sequence := c.sequence + 1 }
  let selected := c.slotFor now m.address
  { entries :=
      if selected = c.entries.length then c.entries ++ [entry] else c.entries.set selected entry
    sequence := c.sequence + 1 }

/-- The loop of `ch_ip_stack_dns_cache_lookup`; a slot that is found is the newest. -/
def lookupSlots (now : UInt32) (address : Address) (sequence : UInt64) :
    List DnsEntry → Option (DnsName × List DnsEntry)
  | [] => none
  | e :: rest =>
    if e.address = address ∧ e.alive now then
      some (e.domain, { e with sequence := sequence } :: rest)
    else (lookupSlots now address sequence rest).map fun found ↦ (found.1, e :: found.2)

/-- `ch_ip_stack_dns_cache_lookup`. -/
def DnsCache.lookup (c : DnsCache) (now : UInt32) (address : Address) : Option DnsName × DnsCache :=
  match lookupSlots now address (c.sequence + 1) c.entries with
  | none => (none, c)
  | some (domain, entries) => (some domain, ⟨entries, c.sequence + 1⟩)

/-- `ch_ip_stack_domain_hint`: the name with the port, or nothing. -/
def domainHint (c : DnsCache) (now : UInt32) (address : Address) (port : UInt16) :
    Bytes × DnsCache :=
  let (domain, c) := c.lookup now address
  let hint := (domain.map fun domain ↦ domain.text ++ bytes ":" ++ decimal port.toNat).getD []
  (if 264 ≤ hint.length then [] else hint, c)

end ClambHook.IpStack.Dns
