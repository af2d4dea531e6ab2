import ClambHook.IpStack.Reassembly

/-!
# Datagrams from fragments

A datagram may come in fragments that do not overlap, in any order and among the fragments of
others.  When the last of them arrives the stack has the datagram again, byte for byte: its payload
comes out of the buffer, and its header is that of the first fragment with the length, the flags and
the checksum of the whole.

`reassembly` has this beside the theorem about runs of `IpStack.Reassembly`.  What a host sends is
`IsDatagram`, what a router makes of it `FragmentOf`.  The stack keeps 64 flows, and gives up those
that have waited for half a minute: `Assembly.Undisturbed`.
-/

namespace ClambHook.IpStack.Reassembly

open CString ByteRange InternetChecksum TcpNat Pieces Machine List

/-! ## Datagrams -/

/-- An IPv4 datagram as a host sends it, before it is cut. -/
structure IsDatagram (d : Bytes) : Prop where
  header : 20 ≤ headerLength d ∧ headerLength d ≤ d.length
  length : readU16 2 d = d.length
  flags : readU16 6 d &&& 0x4000 = readU16 6 d
  checksum : writeHeaderChecksum (headerLength d) d = d

/-- A fragment of a datagram.  The header of the first one differs from that of the datagram in its
length, in its flags and in its checksum; those of the others need not have all its options. -/
structure FragmentOf (d : Bytes) (g : Fragment) : Prop where
  key : g.key = ipv4Key d
  usable : Usable g
  cut : ¬(g.offset = 0 ∧ g.more = false)
  content : ∀ i, g.Covers i → g.at? i = d[headerLength d + i]?
  stop : headerLength d + g.stop ≤ d.length
  last : g.more = false → headerLength d + g.stop = d.length
  header : g.offset = 0 → g.header.length = headerLength d ∧
    readU16 6 g.header &&& 0x4000 = readU16 6 d ∧
    ∀ i < headerLength d, i ∉ [2, 3, 6, 7, 10, 11] → g.header[i]? = d[i]?

/-- Fragments of a datagram that do not overlap and have all of it. -/
structure CompleteSet (d : Bytes) (l : List Fragment) : Prop where
  fragment : ∀ g ∈ l, FragmentOf d g
  apart : (pieces l).Pairwise Piece.Apart
  covers : ∀ i, headerLength d + i < d.length → ∃ g ∈ l, g.Covers i
  last : l.countP (fun g ↦ !g.more) = 1

theorem headerLength_le (d : Bytes) : headerLength d ≤ 60 := by
  rw [headerLength]
  omega

section

variable {d : Bytes} {l front back : List Fragment} {g : Fragment}

theorem CompleteSet.totalLength_eq (h : CompleteSet d l) :
    totalLength l = d.length - headerLength d := by
  refine (forall_covers_iff h.apart fun p hp ↦ ?_).1 fun i hi ↦ ?_
  · obtain ⟨g, hg, rfl⟩ := mem_map.1 hp
    have hstop := (h.fragment g hg).stop
    omega
  · obtain ⟨g, hg, hcovers⟩ := h.covers i (by omega)
    exact ⟨g.toPiece, mem_map_of_mem hg, hcovers⟩

theorem totalLength_append (l l' : List Fragment) :
    totalLength (l ++ l') = totalLength l + totalLength l' := by
  rw [totalLength, pieces, map_append, total_append]
  rfl

theorem CompleteSet.stop_of_last (h : CompleteSet d l) (hg : g ∈ l) (hlast : g.more = false) :
    g.stop = totalLength l := by
  have hstop := (h.fragment g hg).last hlast
  rw [h.totalLength_eq]
  omega

/-- The fragments are accepted, in any order. -/
theorem CompleteSet.accepts (h : CompleteSet d (front ++ g :: back)) : Accepts front g where
  total := by
    intro q hq hlast
    have hq' : q ∈ front ++ g :: back := mem_append_left _ hq
    have hg : g ∈ front ++ g :: back := mem_append_right _ mem_cons_self
    have hqstop := (h.fragment q hq').last hlast
    have hgstop := (h.fragment g hg).stop
    refine ⟨by omega, fun hglast ↦ ?_⟩
    rw [h.stop_of_last hg hglast, h.stop_of_last hq' hlast]
  apart := by
    intro q hq
    have happart := h.apart
    rw [pieces, map_append, map_cons, pairwise_append] at happart
    exact happart.2.2 q.toPiece (mem_map_of_mem hq) g.toPiece mem_cons_self
  header := by
    intro hoffset
    have hg := h.fragment g (mem_append_right _ mem_cons_self)
    rw [(hg.header hoffset).1, extensionHeaderLimit]
    exact (headerLength_le d).trans (by decide)
  final := by
    intro hlast
    have hsplit : front ++ g :: back = (front ++ [g]) ++ back := by
      rw [append_assoc, singleton_append]
    rw [h.stop_of_last (mem_append_right _ mem_cons_self) hlast, hsplit,
      totalLength_append (front ++ [g])]
    exact Nat.le_add_right _ _

variable (h : CompleteSet d l)

include h

theorem CompleteSet.exists_last : ∃ g ∈ l, g.more = false := by
  have hpos : 0 < l.countP fun g ↦ !g.more := by
    rw [h.last]
    decide
  obtain ⟨g, hg, hlast⟩ := countP_pos_iff.1 hpos
  exact ⟨g, hg, (Bool.not_eq_true' _).mp hlast⟩

/-- The payload is not empty, as it has been cut. -/
theorem CompleteSet.totalLength_pos : 0 < totalLength l := by
  obtain ⟨g, hg, hlast⟩ := h.exists_last
  have hstop := h.stop_of_last hg hlast
  have hcut := (h.fragment g hg).cut
  by_contra hzero
  refine hcut ⟨?_, hlast⟩
  rw [Piece.stop] at hstop
  omega

theorem CompleteSet.exists_first : ∃ g, g ∈ firstOf l := by
  have hpos := h.totalLength_pos
  rw [h.totalLength_eq] at hpos
  obtain ⟨g, hg, hcovers⟩ := h.covers 0 (by omega)
  have hsome : (firstOf l).isSome :=
    find?_isSome.2 ⟨g, mem_reverse.2 hg, decide_eq_true (Nat.le_zero.1 hcovers.1)⟩
  exact Option.isSome_iff_exists.1 hsome

theorem CompleteSet.addsUp (hd : IsDatagram d) : AddsUp l := by
  obtain ⟨last, hlast, hmore⟩ := h.exists_last
  obtain ⟨first, hfirst⟩ := h.exists_first
  refine ⟨⟨last, hlast, hmore, h.stop_of_last hlast hmore⟩, first, hfirst, ?_⟩
  obtain ⟨hmem, hoffset⟩ := mem_of_mem_firstOf hfirst
  have hlength := hd.length ▸ readU16_lt 2 d
  have hheader := hd.header
  rw [((h.fragment first hmem).header hoffset).1, h.totalLength_eq, maxPacket]
  omega

omit h

/-- A part of the fragments does not add up. -/
theorem CompleteSet.not_addsUp (h : CompleteSet d (front ++ g :: back)) : ¬AddsUp front := by
  rintro ⟨⟨q, hq, hlast, hstop⟩, -⟩
  have hq' : q ∈ front ++ g :: back := mem_append_left _ hq
  have htotal := h.stop_of_last hq' hlast
  rw [hstop, totalLength_append, ← singleton_append, totalLength_append] at htotal
  have hempty : totalLength [g] = 0 := by omega
  have hg := h.fragment g (mem_append_right _ mem_cons_self)
  have hcontent : g.content = [] := by
    rw [totalLength, pieces, map_singleton, total_cons, total_nil] at hempty
    exact length_eq_zero_iff.1 (by omega)
  have hglast : g.more = false := by
    by_contra hmore
    exact (hg.usable.2 (Bool.not_eq_false _ ▸ hmore)).1 hcontent
  -- two fragments would be the last one
  have hcount := h.last
  rw [countP_append, countP_cons_of_pos (by simp [hglast])] at hcount
  have hfront : 0 < front.countP fun g ↦ !g.more := countP_pos_iff.2 ⟨q, hq, by simp [hlast]⟩
  omega

theorem CompleteSet.not_tooLarge (h : CompleteSet d (front ++ back)) (hd : IsDatagram d) :
    ¬TooLarge front := by
  rintro ⟨q, hq, hlarge⟩
  have hmem := mem_of_mem_firstOf hq
  have hheader := ((h.fragment q (mem_append_left _ hmem.1)).header hmem.2).1
  have htotal := h.totalLength_eq
  rw [totalLength_append] at htotal
  have hlength := hd.length ▸ readU16_lt 2 d
  have hd' := hd.header
  rw [maxPacket, hheader] at hlarge
  omega

end

/-! ## The packet -/

variable {d : Bytes}

theorem getElem?_wordBytes_readU16 {offset i : Nat} (h : offset + 2 ≤ d.length)
    (hi : offset ≤ i ∧ i < offset + 2) : (wordBytes (readU16 offset d))[i - offset]? = d[i]? := by
  have hget : ∀ k < d.length, d[k]? = some (d.getD k 0) := fun k hk ↦ by
    rw [getD_eq_getElem d 0 hk, getElem?_eq_getElem hk]
  have hlt := (d.getD (offset + 1) 0).toNat_lt
  rw [readU16, wordBytes]
  rcases (by omega : i = offset ∨ i = offset + 1) with rfl | rfl
  · rw [Nat.sub_self, getElem?_cons_zero, hget i (by omega), Option.some.injEq,
      Nat.mul_add_div (by decide), Nat.div_eq_of_lt hlt, Nat.add_zero]
    exact UInt8.ofNat_toNat
  · rw [Nat.add_sub_cancel_left, getElem?_cons_succ, getElem?_cons_zero,
      hget _ (by omega), Option.some.injEq, ← UInt8.toNat_inj, UInt8.toNat_ofNat']
    omega

theorem writeHeaderChecksum_congr {header : Nat} {p q : Bytes} (hlength : p.length = q.length)
    (hq : 20 ≤ q.length) (h : ∀ i, ¬(10 ≤ i ∧ i < 12) → p[i]? = q[i]?) :
    writeHeaderChecksum header p = writeHeaderChecksum header q := by
  have hzero : splice 10 (wordBytes 0) p = splice 10 (wordBytes 0) q := by
    refine ext_getElem? fun i ↦ ?_
    rw [getElem?_splice (show 10 + 2 ≤ p.length by omega),
      getElem?_splice (show 10 + 2 ≤ q.length by omega), length_wordBytes]
    split
    · rfl
    · rename_i hi
      exact h i hi
  rw [writeHeaderChecksum, writeHeaderChecksum, hzero]

/-- Putting the first header in front of the payload gives the datagram. -/
theorem writeHeaderChecksum_relabel {header : Bytes} (hd : IsDatagram d)
    (hlength : header.length = headerLength d) (hflags : readU16 6 header &&& 0x4000 = readU16 6 d)
    (hsame : ∀ i < headerLength d, i ∉ [2, 3, 6, 7, 10, 11] → header[i]? = d[i]?) :
    writeHeaderChecksum header.length (relabel (header ++ d.drop (headerLength d))) = d := by
  have hheader := hd.header
  generalize hdef : header ++ d.drop (headerLength d) = packet
  have hpacket : packet.length = d.length := by
    rw [← hdef, length_append, length_drop, hlength]
    omega
  have hrelabel : (relabel packet).length = d.length := by
    rw [(relabel_spec (by omega)).1, hpacket]
  have hwrite : (writeU16 2 packet.length packet).length = d.length := by
    rw [length_writeU16 (by omega), hpacket]
  have hfield : readU16 6 (writeU16 2 packet.length packet) = readU16 6 header := by
    refine readU16_congr fun i hlo hhi ↦ ?_
    rw [getElem?_writeU16 (by omega), if_neg (by omega), ← hdef,
      getElem?_append_left (by omega)]
  have hagree : ∀ i, ¬(10 ≤ i ∧ i < 12) → (relabel packet)[i]? = d[i]? := by
    intro i hi
    rw [relabel, getElem?_writeU16 (by omega), hfield, hflags]
    split
    · rename_i hflag
      exact getElem?_wordBytes_readU16 (by omega) hflag
    rename_i hflag
    rw [getElem?_writeU16 (by omega), hpacket]
    split
    · rename_i hword
      have hbytes := getElem?_wordBytes_readU16 (show 2 + 2 ≤ d.length by omega) hword
      rw [hd.length] at hbytes
      exact hbytes
    · rename_i hword
      rw [← hdef]
      by_cases hlt : i < headerLength d
      · rw [getElem?_append_left (by omega), hsame i hlt]
        simp only [mem_cons, not_mem_nil, or_false]
        omega
      · rw [getElem?_append_right (by omega), getElem?_drop, hlength]
        congr 1
        omega
  rw [writeHeaderChecksum_congr hrelabel (by omega) hagree, hlength, hd.checksum]

/-- A flow that holds all fragments gives the datagram. -/
theorem packet_of_completeSet {l : List Fragment} {f : FragmentFlow} (hd : IsDatagram d)
    (hl : CompleteSet d l) (hf : Holds f l) (hfamily : f.key.family = .inet) :
    f.packet (totalLength l) = .ok d := by
  obtain ⟨first, hfirst⟩ := hl.exists_first
  obtain ⟨hmem, hoffset⟩ := mem_of_mem_firstOf hfirst
  obtain ⟨hlength, hflags, hsame⟩ := (hl.fragment first hmem).header hoffset
  have hpayload : (List.range (totalLength l)).map f.data = d.drop (headerLength d) := by
    refine ext_getElem? fun i ↦ ?_
    rw [getElem?_map, getElem?_drop, hl.totalLength_eq]
    by_cases hi : headerLength d + i < d.length
    · obtain ⟨g, hg, hcovers⟩ := hl.covers i hi
      rw [getElem?_range (by omega), Option.map_some, ← hf.data g hg i hcovers,
        (hl.fragment g hg).content i hcovers]
    · rw [getElem?_eq_none (by rw [length_range]; omega), getElem?_eq_none (by omega),
        Option.map_none]
  rw [packet_inet hfamily, hpayload, (hf.header first hfirst).1,
    writeHeaderChecksum_relabel hd hlength hflags hsame]

/-! ## Runs -/

namespace Assembly

/-- What the stack gives for a packet. -/
def outcome (a : Assembly) : Arrival → Except Error (Option Bytes)
  | .input now memory packet => (prepareInputPacket a.flows now memory packet).1
  | .tick _ => .ok none

/-- A fragment of the key has a flow or there is room for one, and the flow is not given up. -/
def Undisturbed (key : FragmentKey) (a : Assembly) : Arrival → Prop
  | .input _ _ packet => ∀ g, fragmentOf packet = some g → g.key = key →
      a.flows.find? (·.key = key) = none → a.flows.length < fragmentFlowLimit
  | .tick now => ∀ f ∈ a.flows, f.key = key → now - f.lastActivity < 30000

end Assembly

/-- The fragments of a key that come with an arrival. -/
def arrivedFor (key : FragmentKey) : Arrival → List Fragment
  | .input _ _ packet => (fragmentOf packet).toList.filter (·.key = key)
  | .tick _ => []

variable {memory : Nat → UInt8} {g : Fragment}

theorem arrivedFor_eq_singleton {key : FragmentKey} {now : UInt32}
    {packet : Bytes} (hg : fragmentOf packet = some g) (hkey : g.key = key) :
    arrivedFor key (.input now memory packet) = [g] := by
  rw [arrivedFor, hg, Option.toList_some]
  simp [hkey]

theorem arrivedFor_eq_nil {key : FragmentKey} {now : UInt32} {packet : Bytes}
    (h : ∀ g, fragmentOf packet = some g → g.key ≠ key) :
    arrivedFor key (.input now memory packet) = [] := by
  rw [arrivedFor]
  refine filter_eq_nil_iff.2 fun g hg ↦ ?_
  rw [decide_eq_true_iff]
  exact h g (Option.mem_toList.1 hg)

/-- An arrival brings one fragment of a key, or none. -/
theorem arrivedFor_cases (key : FragmentKey) (e : Arrival) :
    arrivedFor key e = [] ∨ ∃ now memory packet g, e = .input now memory packet ∧
      fragmentOf packet = some g ∧ g.key = key ∧ arrivedFor key e = [g] := by
  cases e with
  | tick now => exact .inl rfl
  | input now memory packet =>
    by_cases h : ∃ g, fragmentOf packet = some g ∧ g.key = key
    · obtain ⟨g, hg, hkey⟩ := h
      exact .inr ⟨now, memory, packet, g, rfl, hg, hkey, arrivedFor_eq_singleton hg hkey⟩
    · exact .inl (arrivedFor_eq_nil fun g hg hkey ↦ h ⟨g, hg, hkey⟩)

namespace Assembly

variable {a : Assembly} {key : FragmentKey}

variable {now : UInt32}

theorem find?_tick (ha : a.Inv) (he : a.Undisturbed key (.tick now)) :
    (fragmentTick a.flows now).find? (·.key = key) = a.flows.find? (·.key = key) := by
  have hsub : (fragmentTick a.flows now).Sublist a.flows := filter_sublist
  cases hfind : a.flows.find? (·.key = key) with
  | none =>
    rw [find?_eq_none_iff] at hfind ⊢
    exact fun hmem ↦ hfind ((hsub.map FragmentFlow.key).mem hmem)
  | some f =>
    have hkey := key_of_find? hfind
    have hf := mem_of_find?_eq_some hfind
    have hactive : f ∈ fragmentTick a.flows now :=
      mem_filter.2 ⟨hf, decide_eq_true (he f hf hkey)⟩
    rw [← hkey]
    exact find?_eq_some_of_mem ((hsub.map _).nodup ha.nodup) hactive

variable {packet : Bytes}

theorem find?_input (ha : a.Inv)
    (h : ∀ g, fragmentOf packet = some g → g.key ≠ key) :
    (prepareInputPacket a.flows now memory packet).2.find? (·.key = key) =
      a.flows.find? (·.key = key) := by
  rw [prepareInputPacket]
  cases hsplit : splitInput packet with
  | error e => rfl
  | ok input =>
    cases input with
    | whole packet => rfl
    | fragment g =>
      have hg : fragmentOf packet = some g := by rw [fragmentOf, hsplit]
      exact (storeOutcome_fragmentStore ha.nodup g (ha.none g.key) (ha.some g.key) now memory).2.1 _
        (h g hg).symm

variable {e : Arrival}

/-- A key for which nothing comes keeps what it has. -/
theorem received_step_of_nil (ha : a.Inv) (he : a.Undisturbed key e)
    (hnone : arrivedFor key e = []) : (a.step e).received key = a.received key := by
  have hkept : ∀ flows : List FragmentFlow, ∀ taken : List Fragment,
      flows.find? (·.key = key) = a.flows.find? (·.key = key) →
      taken.filter (·.key = key) = [] → a.receivedBehind flows taken key = a.received key := by
    intro flows taken hflows htaken
    cases hfind : a.flows.find? (·.key = key) with
    | none => rw [receivedBehind_of_none (hflows.trans hfind), ha.none key hfind]
    | some f => rw [receivedBehind_of_some (hflows.trans hfind), htaken, append_nil]
  cases e with
  | tick now => exact hkept _ [] (find?_tick ha he) rfl
  | input now memory packet =>
    have hother : ∀ g, fragmentOf packet = some g → g.key ≠ key := by
      intro g hg hkey
      rw [arrivedFor_eq_singleton hg hkey] at hnone
      cases hnone
    have htaken : ∀ taken : Bool,
        (if taken then (fragmentOf packet).toList else []).filter (·.key = key) = [] := by
      intro taken
      cases taken with
      | true => exact hnone
      | false => rfl
    exact hkept _ _ (find?_input ha hother) (htaken _)

/-- A fragment of a datagram is received. -/
theorem storeOutcome_input (ha : a.Inv)
    (hg : fragmentOf packet = some g) (now : UInt32) (memory : Nat → UInt8) :
    StoreOutcome a.flows (a.received g.key) g (a.outcome (.input now memory packet))
      (a.step (.input now memory packet)).flows := by
  rw [outcome, step, prepareInputPacket_of_fragment hg]
  exact (storeOutcome_fragmentStore ha.nodup g (ha.none g.key) (ha.some g.key) now memory).1

theorem received_step_of_held (hg : fragmentOf packet = some g) {f : FragmentFlow}
    (hout : a.outcome (.input now memory packet) = .ok none)
    (hfind : (a.step (.input now memory packet)).flows.find? (·.key = g.key) = some f) :
    (a.step (.input now memory packet)).received g.key = a.received g.key ++ [g] := by
  rw [outcome] at hout
  rw [step] at hfind ⊢
  simp only at hfind ⊢
  rw [receivedBehind_of_some hfind, hout, hg]
  simp [Except.isOk, Except.toBool]

/-- One step: a fragment of a datagram is kept, and the last one brings the datagram. -/
theorem step_of_completeSet {front back : List Fragment} (ha : a.Inv) (hd : IsDatagram d)
    (he : a.Undisturbed (ipv4Key d) e) (hfront : a.received (ipv4Key d) = front)
    (h : CompleteSet d (front ++ arrivedFor (ipv4Key d) e ++ back)) :
    (back ≠ [] → (a.step e).received (ipv4Key d) = front ++ arrivedFor (ipv4Key d) e) ∧
      (back = [] → arrivedFor (ipv4Key d) e ≠ [] → a.outcome e = .ok (some d)) := by
  rcases arrivedFor_cases (ipv4Key d) e with hnil | ⟨now, memory, packet, g, rfl, hg, hkey, hone⟩
  · rw [received_step_of_nil ha he hnil, hnil, hfront, append_nil]
    exact ⟨fun _ ↦ rfl, fun _ hne ↦ absurd rfl hne⟩
  rw [hone] at h ⊢
  have haccepts : Accepts front g := by
    rw [append_assoc, singleton_append] at h
    exact h.accepts
  have hfragment := h.fragment g
    (mem_append_left _ (mem_append_right _ (mem_singleton_self g)))
  have houtcome := storeOutcome_input ha hg now memory
  rw [hkey, hfront] at houtcome
  rw [← hfront, ← hkey]
  generalize hout : a.outcome (.input now memory packet) = out at houtcome ⊢
  generalize hflows : (a.step (.input now memory packet)).flows = flows at houtcome
  cases houtcome with
  | refused hrefused =>
    rcases hrefused with hnot | ⟨hnone, hfull⟩
    · exact absurd hfragment.usable hnot
    · exact absurd (he g hg hkey (hkey ▸ hnone)) (not_lt.2 hfull)
  | dropped hdropped hgone =>
    rcases hdropped with hnot | hlarge | hfamily
    · exact absurd haccepts hnot
    · exact absurd hlarge (h.not_tooLarge hd)
    · rw [hkey] at hfamily
      cases hfamily
  | held hg' hl hf hfind =>
    refine ⟨fun _ ↦ received_step_of_held hg hout (hflows ▸ hfind), ?_⟩
    rintro rfl
    exact absurd ((append_nil (front ++ [g]) ▸ h).addsUp hd) hl
  | complete husable hg' hl hf hkey' hpacket hgone =>
    cases back with
    | cons q back => exact absurd hl h.not_addsUp
    | nil =>
      rw [append_nil] at h
      have hfamily : (ipv4Key d).family = .inet := rfl
      rw [packet_of_completeSet hd h hf (by rw [hkey', hkey, hfamily])] at hpacket
      exact ⟨fun hne ↦ absurd rfl hne, fun _ _ ↦ by rw [Except.ok.inj hpacket]⟩

/-- A run, with a part of the fragments. -/
theorem received_run {back : List Fragment} {q : Fragment} (ha : a.Inv) (hd : IsDatagram d)
    (hstart : a.received (ipv4Key d) = []) (arrivals : List Arrival)
    (hrun : Along step (Undisturbed (ipv4Key d)) a arrivals)
    (h : CompleteSet d (arrivals.flatMap (arrivedFor (ipv4Key d)) ++ q :: back)) :
    (run step a arrivals).received (ipv4Key d) = arrivals.flatMap (arrivedFor (ipv4Key d)) := by
  induction arrivals using List.reverseRecOn generalizing q back with
  | nil => exact hstart
  | append_singleton arrivals e ih =>
    rw [along_append, along_cons] at hrun
    rw [flatMap_append, flatMap_singleton] at h ⊢
    rw [run_concat]
    have hinv : (run step a arrivals).Inv := run_inv_all (fun _ e ha ↦ ha.step e) arrivals ha
    refine (step_of_completeSet hinv hd hrun.2.1 ?_ h).1 (cons_ne_nil q back)
    rcases arrivedFor_cases (ipv4Key d) e with hnil | ⟨-, -, -, g, -, -, -, hone⟩
    · rw [hnil, append_nil] at h
      exact ih hrun.1 h
    · rw [hone, append_assoc, singleton_append] at h
      exact ih hrun.1 h

end Assembly

/-- **Reassembly.**  In a run, every packet that is put together is made of what has been received
exactly if no flow adds up while it holds a fragment behind the end of the last one.  And the
fragments of a datagram, in any order and among those of others, give the datagram. -/
theorem reassembly (before : List Arrival) :
    (Along Assembly.step Assembly.Sound {} before ↔ Along Assembly.step Assembly.Fits {} before) ∧
    ∀ (d : Bytes) (arrivals : List Arrival) (last : Arrival), IsDatagram d →
      (run Assembly.step {} before).flows.find? (·.key = ipv4Key d) = none →
      Along Assembly.step (Assembly.Undisturbed (ipv4Key d)) (run Assembly.step {} before)
        (arrivals ++ [last]) →
      CompleteSet d ((arrivals ++ [last]).flatMap (arrivedFor (ipv4Key d))) →
      arrivedFor (ipv4Key d) last ≠ [] →
      (run Assembly.step (run Assembly.step {} before) arrivals).outcome last = .ok (some d) := by
  have hstep : ∀ (a : Assembly) (e : Arrival), a.Inv → (a.step e).Inv := fun _ e ha ↦ ha.step e
  refine ⟨along_congr hstep (fun _ e ha ↦ Assembly.sound_iff ha e) before Assembly.inv_start, ?_⟩
  intro d arrivals last hd hfind hrun hset hlast
  have hinv := run_inv_all hstep before Assembly.inv_start
  rw [along_append, along_cons] at hrun
  rw [flatMap_append, flatMap_singleton] at hset
  rw [← append_nil (_ ++ _)] at hset
  refine (Assembly.step_of_completeSet (run_inv_all hstep arrivals hinv) hd hrun.2.1 ?_ hset).2 rfl
    hlast
  rw [append_nil] at hset
  obtain ⟨g, rest, hg⟩ := exists_cons_of_ne_nil hlast
  rw [hg] at hset
  exact Assembly.received_run hinv hd (hinv.none _ hfind) arrivals hrun.1 hset

/-! ## A gap, and two halves -/

/-- A UDP packet of a host, with its flags and its place in a datagram. -/
def udpPacket (field : Nat) (content : Bytes) : Bytes :=
  writeHeaderChecksum 20 ([0x45, 0] ++ wordBytes (20 + content.length) ++ [0x12, 0x34] ++
    wordBytes field ++ [64, 17, 0, 0, 10, 0, 0, 2, 10, 0, 0, 1] ++ content)

/-- A buffer that was something else before. -/
def usedMemory : Nat → UInt8 := fun _ ↦ 0xaa

/-- The first eight bytes, and eight bytes from 24 on. -/
def gappedArrivals : List Arrival :=
  [.input 0 usedMemory (udpPacket 0x2000 [1, 2, 3, 4, 5, 6, 7, 8]),
    .input 0 usedMemory (udpPacket 0x2003 [25, 26, 27, 28, 29, 30, 31, 32])]

/-- The last fragment ends at 24. -/
def gappedLast : Bytes :=
  udpPacket 2 [17, 18, 19, 20, 21, 22, 23, 24]

/-- A packet that was never sent. -/
def gappedPacket : Bytes :=
  udpPacket 0 [1, 2, 3, 4, 5, 6, 7, 8, 0xaa, 0xaa, 0xaa, 0xaa, 0xaa, 0xaa, 0xaa, 0xaa,
    17, 18, 19, 20, 21, 22, 23, 24]

/-- Eight bytes that nobody sent come out, as eight bytes behind the end have been counted. -/
theorem gap_comes_out :
    (run Assembly.step {} gappedArrivals).outcome (.input 0 usedMemory gappedLast) =
        .ok (some gappedPacket) ∧
      ¬Along Assembly.step Assembly.Sound {}
        (gappedArrivals ++ [.input 0 usedMemory gappedLast]) := by
  have hout : (run Assembly.step {} gappedArrivals).outcome (.input 0 usedMemory gappedLast) =
      .ok (some gappedPacket) := by decide
  refine ⟨hout, fun h ↦ ?_⟩
  rw [along_append, along_cons] at h
  obtain ⟨g, hg⟩ : ∃ g, fragmentOf gappedLast = some g := Option.isSome_iff_exists.1 (by decide)
  have hparts : ∀ g, fragmentOf gappedLast = some g → g.key = ipv4Key gappedLast ∧ g.stop = 24 := by
    decide
  have hreceived : (∀ q ∈ (run Assembly.step {} gappedArrivals).received (ipv4Key gappedLast),
        q.more = true) ∧
      ∃ q ∈ (run Assembly.step {} gappedArrivals).received (ipv4Key gappedLast), q.stop = 32 := by
    decide
  obtain ⟨hkey, hend⟩ := hparts g hg
  obtain ⟨-, -, last, hlast, -, hmore, -, -, hstop⟩ := h.2.1 g hg (by rw [hkey]; rfl) _ hout
  rw [hkey] at hlast hstop
  obtain ⟨q, hq, hqstop⟩ := hreceived.2
  have hle := hstop q (mem_append_left _ hq)
  rcases mem_append.1 hlast with hlast | hlast
  · rw [hreceived.1 last hlast] at hmore
    cases hmore
  · rw [mem_singleton.1 hlast, hqstop, hend] at hle
    exact absurd hle (by decide)

def sixteenBytes : Bytes :=
  [1, 2, 3, 4, 5, 6, 7, 8, 9, 10, 11, 12, 13, 14, 15, 16]

/-- A datagram of sixteen bytes in two halves. -/
def firstHalf : Bytes :=
  udpPacket 0x2000 (sixteenBytes.take 8)

def secondHalf : Bytes :=
  udpPacket 1 (sixteenBytes.drop 8)

def halves : List Fragment :=
  (fragmentOf secondHalf).toList ++ (fragmentOf firstHalf).toList

theorem isDatagram_sixteen : IsDatagram (udpPacket 0 sixteenBytes) :=
  ⟨by decide, by decide, by decide, by decide⟩

theorem length_sixteen :
    headerLength (udpPacket 0 sixteenBytes) = 20 ∧ (udpPacket 0 sixteenBytes).length = 36 := by
  decide

theorem fragmentOf_halves (hg : g ∈ halves) : FragmentOf (udpPacket 0 sixteenBytes) g := by
  have hsize := length_sixteen
  have hlengths : ∀ g ∈ halves, g.key = ipv4Key (udpPacket 0 sixteenBytes) ∧
      g.content.length = 8 ∧ g.stop ≤ 16 ∧
      ¬(g.offset = 0 ∧ g.more = false) ∧ (g.more = false → g.stop = 16) := by decide
  have hcontent : ∀ g ∈ halves, ∀ i < 16, g.Covers i →
      g.at? i = (udpPacket 0 sixteenBytes)[20 + i]? := by decide
  have hheader : ∀ g ∈ halves, g.offset = 0 → g.header.length = 20 ∧
      readU16 6 g.header &&& 0x4000 = readU16 6 (udpPacket 0 sixteenBytes) ∧
      ∀ i < 20, i ∉ [2, 3, 6, 7, 10, 11] → g.header[i]? = (udpPacket 0 sixteenBytes)[i]? := by
    decide
  obtain ⟨hkey, hlength, hstop, hcut, hlast⟩ := hlengths g hg
  refine ⟨hkey, ⟨hstop.trans (by decide), fun _ ↦ ⟨?_, by rw [hlength]⟩⟩, hcut, fun i hi ↦ ?_, ?_,
    fun hmore ↦ ?_, ?_⟩
  · rintro hnil
    rw [hnil] at hlength
    cases hlength
  · rw [hsize.1]
    exact hcontent g hg i (hi.2.trans_le hstop) hi
  · omega
  · have hend := hlast hmore
    omega
  · rw [hsize.1]
    exact hheader g hg

/-- The halves have all of the datagram. -/
theorem completeSet_halves : CompleteSet (udpPacket 0 sixteenBytes) halves := by
  refine ⟨fun g hg ↦ fragmentOf_halves hg, ?_, fun i hi ↦ ?_, by decide⟩
  · have hpieces : pieces halves = [⟨8, sixteenBytes.drop 8⟩, ⟨0, sixteenBytes.take 8⟩] := by decide
    rw [hpieces]
    refine pairwise_pair.2 fun i hsecond hfirst ↦ ?_
    exact absurd (hsecond.1.trans_lt hfirst.2) (by decide)
  · have hsize := length_sixteen
    have hcovers : ∀ i < 16, ∃ g ∈ halves, g.Covers i := by decide
    exact hcovers i (by omega)

/-- The halves in the other order give the datagram. -/
theorem halves_give_datagram :
    (run Assembly.step {} [.input 0 usedMemory secondHalf]).outcome
      (.input 0 usedMemory firstHalf) = .ok (some (udpPacket 0 sixteenBytes)) := by
  have hroom : ((run Assembly.step {} []).flows.length < fragmentFlowLimit) ∧
      ((run Assembly.step {} [.input 0 usedMemory secondHalf]).flows.length <
        fragmentFlowLimit) := by
    decide
  have harrived : ([.input 0 usedMemory secondHalf] ++ [.input 0 usedMemory firstHalf] :
      List Arrival).flatMap (arrivedFor (ipv4Key (udpPacket 0 sixteenBytes))) = halves := by decide
  exact (reassembly []).2 (udpPacket 0 sixteenBytes) [.input 0 usedMemory secondHalf]
    (.input 0 usedMemory firstHalf) isDatagram_sixteen rfl
    ⟨fun _ _ _ _ ↦ hroom.1, fun _ _ _ _ ↦ hroom.2, trivial⟩
    (harrived ▸ completeSet_halves) (by decide)

end ClambHook.IpStack.Reassembly
