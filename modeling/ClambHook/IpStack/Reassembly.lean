import ClambHook.IpStack.Fragments
import ClambHook.Lib.Machine
import Mathlib.Data.FinEnum
import Mathlib.Data.List.Nodup

/-!
# Putting fragments together

A flow of `IpStack.Fragments` is compared with the fragments that it has taken.  `Holds` says what
the two have to do with each other: the bitmap is the set of the bytes that have come, the buffer
has them, and the number that the flow counts is the sum of their lengths.
`storeOutcome_fragmentStore` says what a store does, in terms of these fragments.

A flow gives a packet when the lengths add up to the end of the last fragment.  If all fragments end
there or in front of it then nothing is missing (`Pieces.forall_covers_iff`).  The flow does not
look whether they do: bytes that came before the last fragment and lie behind its end are counted,
and as many may be missing.  `Assembly.sound_iff` makes this exact, for one packet; what has been
received is kept beside the flows, as the code has no record of it.
-/

namespace ClambHook.IpStack.Reassembly

open CString ByteRange InternetChecksum TcpNat Pieces Machine List FragmentFlow

/-! ## The bitmap -/

theorem coverageBit_and : ∀ i < 8, ∀ j < 8, (coverageBit j &&& coverageBit i ≠ 0 ↔ i = j) := by
  decide +kernel

/-- A bit that is set in a byte. -/
theorem coverageBit_mark (byte : UInt8) {i j : Nat} (hi : i < 8) (hj : j < 8) :
    (byte ||| coverageBit j) &&& coverageBit i ≠ 0 ↔ byte &&& coverageBit i ≠ 0 ∨ i = j := by
  have hdistrib : (byte ||| coverageBit j) &&& coverageBit i =
      byte &&& coverageBit i ||| coverageBit j &&& coverageBit i :=
    UInt8.toNat_inj.1 (Nat.and_or_distrib_right _ _ _)
  rw [hdistrib, ← coverageBit_and i hi j hj, ne_eq, UInt8.or_eq_zero_iff, not_and_or]

variable {i : Nat}

/-- Marking a byte adds it, and no other. -/
theorem fragmentCovered_mark {coverage : Nat → UInt8} {o : Nat} :
    fragmentCovered (fragmentMark coverage o) i = true ↔
      fragmentCovered coverage i = true ∨ i = o := by
  rw [fragmentCovered, fragmentCovered, fragmentMark, bne_iff_ne, bne_iff_ne]
  by_cases hbyte : i / 8 = o / 8
  · have hmark := coverageBit_mark (coverage (o / 8)) (Nat.mod_lt i (by decide))
      (Nat.mod_lt o (by decide))
    rw [hbyte, Function.update_self]
    simp only [coverageBit, Nat.mod_mod] at hmark ⊢
    rw [hmark]
    exact or_congr Iff.rfl (by omega)
  · rw [Function.update_of_ne hbyte]
    exact ⟨.inl, fun h ↦ h.resolve_right fun h ↦ hbyte (h ▸ rfl)⟩

variable {offset : Nat}

theorem fragmentCovered_markRange {coverage : Nat → UInt8} {count : Nat} :
    fragmentCovered (markRange coverage offset count) i = true ↔
      fragmentCovered coverage i = true ∨ (offset ≤ i ∧ i < offset + count) := by
  induction count generalizing coverage offset with
  | zero =>
    rw [markRange]
    exact ⟨.inl, fun h ↦ h.resolve_right fun h ↦ by omega⟩
  | succ count ih =>
    rw [markRange, ih, fragmentCovered_mark, or_assoc]
    refine or_congr Iff.rfl ?_
    omega

/-! ## What a flow holds -/

/-- The pieces of fragments. -/
def pieces (l : List Fragment) : List (Piece UInt8) :=
  l.map Fragment.toPiece

/-- The number of bytes in fragments. -/
def totalLength (l : List Fragment) : Nat :=
  total (pieces l)

/-- The header of the latest fragment at the front. -/
def firstOf (l : List Fragment) : Option Fragment :=
  l.reverse.find? (·.offset = 0)

/-- The flow holds the fragments, in the order in which they came. -/
structure Holds (f : FragmentFlow) (l : List Fragment) : Prop where
  key : ∀ g ∈ l, g.key = f.key
  covered : ∀ i, fragmentCovered f.coverage i = true ↔ ∃ g ∈ l, g.Covers i
  data : ∀ g ∈ l, ∀ i, g.Covers i → g.at? i = some (f.data i)
  length : f.coveredLength = totalLength l
  apart : (pieces l).Pairwise Piece.Apart
  first : f.haveFirst = (firstOf l).isSome
  header : ∀ g ∈ firstOf l, f.header = g.header ∧ f.nextHeaderOffset = g.nextHeaderOffset
  total : ∀ n, f.totalPayloadLength = some n → ∃ g ∈ l, g.more = false ∧ g.stop = n
  final : ∀ g ∈ l, g.more = false → f.totalPayloadLength = some g.stop

theorem holds_new (key : FragmentKey) (memory : Nat → UInt8) (now : UInt32) :
    Holds { key := key, data := memory, lastActivity := now } [] where
  key := fun g hg ↦ absurd hg not_mem_nil
  covered := fun i ↦ by
    rw [fragmentCovered, bne_iff_ne]
    refine iff_of_false (fun h ↦ h UInt8.zero_and) ?_
    rintro ⟨g, hg, -⟩
    exact absurd hg not_mem_nil
  data := fun g hg ↦ absurd hg not_mem_nil
  length := rfl
  apart := Pairwise.nil
  first := rfl
  header := fun g hg ↦ absurd hg (Option.not_mem_none g)
  total := fun n h ↦ by cases h
  final := fun g hg ↦ absurd hg not_mem_nil

/-- What a flow takes: a fragment that agrees with the length, if it is known, that does not
overlap, whose header has room, and that is long enough to be the last one, if it says so. -/
structure Accepts (l : List Fragment) (g : Fragment) : Prop where
  total : ∀ q ∈ l, q.more = false → g.stop ≤ q.stop ∧ (g.more = false → g.stop = q.stop)
  apart : ∀ q ∈ l, q.Apart g.toPiece
  header : g.offset = 0 → g.header.length ≤ extensionHeaderLimit
  final : g.more = false → totalLength (l ++ [g]) ≤ g.stop

theorem totalLength_concat (l : List Fragment) (g : Fragment) :
    totalLength (l ++ [g]) = totalLength l + g.content.length := by
  rw [totalLength, pieces, map_append, total_append, map_singleton, total_cons, total_nil,
    Nat.add_zero, totalLength, pieces]

theorem firstOf_concat (l : List Fragment) (g : Fragment) :
    firstOf (l ++ [g]) = if g.offset = 0 then some g else firstOf l := by
  rw [firstOf, reverse_append, reverse_singleton, singleton_append]
  by_cases h : g.offset = 0
  · rw [find?_cons, decide_eq_true h, if_pos h]
  · rw [find?_cons, decide_eq_false h, if_neg h, firstOf]

variable {g : Fragment}

theorem at?_eq_some (h : g.Covers i) : g.at? i = some ((g.at? i).getD 0) := by
  have hlt : i - g.offset < g.content.length := by
    have hcovers := h
    rw [Piece.Covers, Piece.stop] at hcovers
    omega
  rw [Piece.at?, getElem?_eq_getElem hlt]
  rfl

variable {f : FragmentFlow} {l : List Fragment}

theorem Holds.write (h : Holds f l)
    (hkey : g.key = f.key) (hg : Accepts l g) (now : UInt32) :
    Holds (f.write now g) (l ++ [g]) where
  key := by
    intro q hq
    rcases mem_append.1 hq with hq | hq
    · exact h.key q hq
    · rw [mem_singleton.1 hq]
      exact hkey
  covered := by
    intro i
    rw [FragmentFlow.write, fragmentCovered_markRange, h.covered]
    simp only [mem_append, mem_singleton, or_and_right, exists_or, exists_eq_left]
    rfl
  data := by
    intro q hq i hi
    have hdata : (f.write now g).data i = if g.Covers i then (g.at? i).getD 0 else f.data i := rfl
    rw [hdata]
    rcases mem_append.1 hq with hq | hq
    · rw [if_neg (hg.apart q hq i hi)]
      exact h.data q hq i hi
    · rw [mem_singleton.1 hq] at hi ⊢
      rw [if_pos hi]
      exact at?_eq_some hi
  length := by
    rw [totalLength_concat, ← h.length]
    rfl
  apart := by
    rw [pieces, map_append, map_singleton, pairwise_append]
    refine ⟨h.apart, pairwise_singleton _ _, fun p hp q hq ↦ ?_⟩
    obtain ⟨g', hg', rfl⟩ := mem_map.1 hp
    rw [mem_singleton.1 hq]
    exact hg.apart g' hg'
  first := by
    rw [firstOf_concat, FragmentFlow.write, h.first]
    by_cases hoffset : g.offset = 0
    · simp [hoffset]
    · simp [hoffset]
  header := by
    intro q hq
    rw [firstOf_concat] at hq
    rw [FragmentFlow.write]
    by_cases hoffset : g.offset = 0
    · rw [if_pos hoffset, Option.mem_def, Option.some.injEq] at hq
      subst hq
      simp only [if_pos hoffset, and_self]
    · rw [if_neg hoffset] at hq
      simp only [if_neg hoffset]
      exact h.header q hq
  total := by
    intro n hn
    rw [FragmentFlow.write] at hn
    cases hmore : g.more with
    | true =>
      simp only [hmore, if_true] at hn
      obtain ⟨q, hq, hlast⟩ := h.total n hn
      exact ⟨q, mem_append_left _ hq, hlast⟩
    | false =>
      simp only [hmore, Bool.false_eq_true, if_false, Option.some.injEq] at hn
      exact ⟨g, mem_append_right _ (mem_singleton_self g), hmore, hn⟩
  final := by
    intro q hq hlast
    rw [FragmentFlow.write]
    cases hmore : g.more with
    | true =>
      rw [if_pos rfl]
      rcases mem_append.1 hq with hq | hq
      · exact h.final q hq hlast
      · rw [mem_singleton.1 hq, hmore] at hlast
        cases hlast
    | false =>
      simp only [Bool.false_eq_true, if_false, Option.some.injEq]
      rcases mem_append.1 hq with hq | hq
      · exact (hg.total q hq hlast).2 hmore
      · rw [mem_singleton.1 hq]

/-! ## Taking a fragment -/

section

variable (h : Holds f l)

include h

theorem Holds.total_eq_some_iff {n : Nat} :
    f.totalPayloadLength = some n ↔ ∃ q ∈ l, q.more = false ∧ q.stop = n := by
  constructor
  · exact h.total n
  · rintro ⟨q, hq, hlast, rfl⟩
    exact h.final q hq hlast

theorem Holds.any_total_iff :
    (f.totalPayloadLength.any fun total ↦ total < g.stop || (!g.more && g.stop != total)) = true ↔
      ¬∀ q ∈ l, q.more = false → g.stop ≤ q.stop ∧ (g.more = false → g.stop = q.stop) := by
  have hcheck : ∀ n, (decide (n < g.stop) || (!g.more && g.stop != n)) = true ↔
      ¬(g.stop ≤ n ∧ (g.more = false → g.stop = n)) := by
    intro n
    rw [Bool.or_eq_true, decide_eq_true_iff, Bool.and_eq_true, Bool.not_eq_true', bne_iff_ne,
      not_and_or, not_le, Classical.not_imp]
  cases htotal : f.totalPayloadLength with
  | none =>
    refine iff_of_false (fun hany ↦ by cases hany) fun hnot ↦ hnot fun q hq hlast ↦ ?_
    cases htotal.symm.trans (h.final q hq hlast)
  | some n =>
    rw [Option.any_some, hcheck]
    obtain ⟨q, hq, hlast, hstop⟩ := h.total n htotal
    refine not_congr ⟨fun hn q' hq' hlast' ↦ ?_, fun hall ↦ hstop ▸ hall q hq hlast⟩
    cases htotal.symm.trans (h.final q' hq' hlast')
    exact hn

theorem Holds.any_covered_iff :
    ((List.range g.content.length).any fun i ↦ fragmentCovered f.coverage (g.offset + i)) = true ↔
      ¬∀ q ∈ l, q.Apart g.toPiece := by
  rw [any_eq_true]
  constructor
  · rintro ⟨i, hi, hcovered⟩ hapart
    obtain ⟨q, hq, hcovers⟩ := (h.covered _).1 hcovered
    exact hapart q hq _ hcovers
      ⟨Nat.le_add_right _ _, Nat.add_lt_add_left (mem_range.1 hi) _⟩
  · intro hnot
    push Not at hnot
    obtain ⟨q, hq, hnot⟩ := hnot
    rw [Piece.Apart] at hnot
    push Not at hnot
    obtain ⟨i, hi, hgi⟩ := hnot
    have hi' := hgi
    rw [Piece.Covers, Piece.stop] at hi'
    refine ⟨i - g.offset, mem_range.2 (by omega), (h.covered _).2 ⟨q, hq, ?_⟩⟩
    rw [Nat.add_sub_cancel' hi'.1]
    exact hi

/-- **Taking a fragment**, when it is accepted. -/
theorem Holds.take_of_accepts (hg : Accepts l g) (now : UInt32) :
    f.take now g = (f.write now g).settle := by
  have hheader : ¬(g.offset = 0 ∧ extensionHeaderLimit < g.header.length) := fun hlong ↦
    absurd (hg.header hlong.1) (not_le.2 hlong.2)
  have hfinal : ¬(!g.more && decide (g.stop < f.coveredLength + g.content.length)) = true := by
    rw [Bool.and_eq_true, Bool.not_eq_true', decide_eq_true_iff, h.length, ← totalLength_concat]
    exact fun hlast ↦ absurd (hg.final hlast.1) (not_le.2 hlast.2)
  rw [FragmentFlow.take, if_neg (mt h.any_total_iff.1 (not_not.2 hg.total)),
    if_neg (mt h.any_covered_iff.1 (not_not.2 hg.apart)), if_neg hheader, if_neg hfinal]

/-- A fragment that is not accepted ends the flow. -/
theorem Holds.take_of_not_accepts (hg : ¬Accepts l g) (now : UInt32) :
    ∃ e, f.take now g = .error e := by
  rw [FragmentFlow.take]
  split
  · exact ⟨_, rfl⟩
  split
  · exact ⟨_, rfl⟩
  split
  · exact ⟨_, rfl⟩
  split
  · exact ⟨_, rfl⟩
  rename_i htotal hcovered hheader hfinal
  refine absurd ⟨?_, ?_, ?_, ?_⟩ hg
  · exact not_not.1 (mt h.any_total_iff.2 htotal)
  · exact not_not.1 (mt h.any_covered_iff.2 hcovered)
  · exact fun hoffset ↦ not_lt.1 fun hlong ↦ hheader ⟨hoffset, hlong⟩
  intro hlast
  rw [totalLength_concat, ← h.length]
  rw [hlast, Bool.not_false, Bool.true_and, decide_eq_true_iff] at hfinal
  exact not_lt.1 hfinal

omit h

/-- The fragments look complete: one of them is at the front, one is the last, their lengths add up
to where the last one ends, and the packet is not too large. -/
structure AddsUp (l : List Fragment) : Prop where
  final : ∃ q ∈ l, q.more = false ∧ q.stop = totalLength l
  first : ∃ q ∈ firstOf l, q.header.length + totalLength l ≤ maxPacket

/-- The packet would be too large. -/
def TooLarge (l : List Fragment) : Prop :=
  ∃ q ∈ firstOf l, maxPacket < q.header.length + totalLength l

theorem AddsUp.not_tooLarge (h : AddsUp l) : ¬TooLarge l := by
  rintro ⟨q, hq, hlarge⟩
  obtain ⟨p, hp, hsize⟩ := h.first
  cases (Option.mem_def.1 hq).symm.trans (Option.mem_def.1 hp)
  omega

include h

/-- A flow that looks complete becomes a packet. -/
theorem Holds.settle_of_addsUp (hl : AddsUp l) :
    f.settle = (f.packet (totalLength l)).map .complete := by
  have htotal := h.total_eq_some_iff.2 hl.final
  obtain ⟨q, hq, hsize⟩ := hl.first
  have hfirst : f.haveFirst = true := by
    rw [h.first, Option.mem_def.1 hq]
    rfl
  rw [settle, htotal]
  simp only
  rw [hfirst, h.length, (h.header q hq).1, bne_self_eq_false, if_neg (by decide),
    if_neg (not_lt.2 hsize)]

/-- Another flow stays as it is, or is too large. -/
theorem Holds.settle_of_not_addsUp (hl : ¬AddsUp l) :
    f.settle = .ok (.held f) ∨ (TooLarge l ∧ ∃ e, f.settle = .error e) := by
  rw [settle]
  cases htotal : f.totalPayloadLength with
  | none => exact .inl rfl
  | some n =>
    simp only
    split
    · exact .inl rfl
    rename_i hcomplete
    rw [Bool.or_eq_true, Bool.not_eq_true', bne_iff_ne, not_or, Bool.not_eq_false, not_not,
      h.length] at hcomplete
    have hfirst := hcomplete.1
    rw [h.first, Option.isSome_iff_exists] at hfirst
    obtain ⟨q, hq⟩ := hfirst
    rw [(h.header q hq).1, ← hcomplete.2]
    have hlarge : maxPacket < q.header.length + totalLength l := by
      by_contra hsize
      exact hl ⟨h.total_eq_some_iff.1 (hcomplete.2 ▸ htotal), q, hq, not_lt.1 hsize⟩
    rw [if_pos hlarge]
    exact .inr ⟨⟨q, hq, hlarge⟩, _, rfl⟩

end

/-! ## The packet -/

variable {packet : Bytes}

/-- A write of two bytes shows where it is, and nowhere else. -/
theorem length_writeU16 {value : Nat} (h : offset + 2 ≤ packet.length) :
    (writeU16 offset value packet).length = packet.length :=
  length_splice h

theorem getElem?_writeU16 {value : Nat} (h : offset + 2 ≤ packet.length) :
    (writeU16 offset value packet)[i]? =
      if offset ≤ i ∧ i < offset + 2 then (wordBytes value)[i - offset]? else packet[i]? :=
  getElem?_splice h i

/-- The length and the flags of a packet that is put together. -/
def relabel (packet : Bytes) : Bytes :=
  let packet := writeU16 2 packet.length packet
  writeU16 6 (readU16 6 packet &&& 0x4000) packet

theorem relabel_spec (h : 20 ≤ packet.length) :
    (relabel packet).length = packet.length ∧ ∀ i ≥ 8, (relabel packet)[i]? = packet[i]? := by
  have hlength : (writeU16 2 packet.length packet).length = packet.length :=
    length_writeU16 (by omega)
  refine ⟨by rw [relabel, length_writeU16 (by omega), hlength], fun i hi ↦ ?_⟩
  rw [relabel, getElem?_writeU16 (by omega), if_neg (by omega), getElem?_writeU16 (by omega),
    if_neg (by omega)]

theorem packet_inet (hfamily : f.key.family = .inet) (n : Nat) :
    f.packet n =
      .ok (writeHeaderChecksum f.header.length
        (relabel (f.header ++ (List.range n).map f.data))) := by
  rw [packet, hfamily]
  rfl

/-- An IPv4 packet is a header, then the payload. -/
theorem payload_packet (hheader : 20 ≤ f.header.length) (n : Nat) :
    (writeHeaderChecksum f.header.length
        (relabel (f.header ++ (List.range n).map f.data))).length = f.header.length + n ∧
      ∀ i < n, (writeHeaderChecksum f.header.length
        (relabel (f.header ++ (List.range n).map f.data)))[f.header.length + i]? =
          some (f.data i) := by
  have hlength : (f.header ++ (List.range n).map f.data).length = f.header.length + n := by
    rw [length_append, length_map, length_range]
  obtain ⟨hrelabel, hbehind⟩ := @relabel_spec (f.header ++ (List.range n).map f.data) (by omega)
  refine ⟨by rw [length_writeHeaderChecksum (by omega), hrelabel, hlength], fun i hi ↦ ?_⟩
  rw [getElem?_writeHeaderChecksum (by omega) (by omega), hbehind _ (by omega),
    getElem?_append_right (Nat.le_add_right _ _), Nat.add_sub_cancel_left, getElem?_map,
    getElem?_range hi, Option.map_some]

/-! ## Flows -/

variable {key : FragmentKey}

variable {flows : List FragmentFlow}

theorem find?_eq_none_iff :
    flows.find? (·.key = key) = none ↔ key ∉ flows.map FragmentFlow.key := by
  rw [find?_eq_none, mem_map, not_exists]
  refine forall_congr' fun f ↦ ?_
  rw [not_and, decide_eq_true_iff]

/-- The flows of other keys are the same, and no two flows have the same key. -/
def Framed (key : FragmentKey) (flows flows' : List FragmentFlow) : Prop :=
  (∀ key' ≠ key, flows'.find? (·.key = key') = flows.find? (·.key = key')) ∧
    (flows'.map FragmentFlow.key).Nodup

/-- The flow of the key is replaced, and no other. -/
theorem replaceFlow_spec {f : Option FragmentFlow} (hnodup : (flows.map FragmentFlow.key).Nodup)
    (hmem : key ∈ flows.map FragmentFlow.key) (hf : ∀ e ∈ f, e.key = key) :
    (replaceFlow key f flows).find? (·.key = key) = f ∧
      Framed key flows (replaceFlow key f flows) := by
  induction flows with
  | nil => exact absurd hmem not_mem_nil
  | cons e rest ih =>
    rw [map_cons, nodup_cons] at hnodup
    rw [replaceFlow]
    by_cases hkey : e.key = key
    · subst hkey
      rw [if_pos rfl]
      cases f with
      | none =>
        refine ⟨find?_eq_none_iff.2 hnodup.1, fun key' h ↦ ?_, hnodup.2⟩
        rw [find?_cons, decide_eq_false h.symm]
        rfl
      | some d =>
        have hd : d.key = e.key := hf d rfl
        rw [Option.toList_some, singleton_append, Framed, map_cons, hd]
        refine ⟨by rw [find?_cons, decide_eq_true hd], fun key' h ↦ ?_, nodup_cons.2 hnodup⟩
        rw [find?_cons, find?_cons, hd, decide_eq_false h.symm]
    · obtain ⟨hfind, hother, hkeys⟩ := ih hnodup.2 ((mem_cons.1 hmem).resolve_left (Ne.symm hkey))
      rw [if_neg hkey, find?_cons, decide_eq_false hkey, Framed, map_cons, nodup_cons]
      refine ⟨hfind, fun key' h ↦ ?_, find?_eq_none_iff.1 ?_, hkeys⟩
      · rw [find?_cons, find?_cons, hother key' h]
      · rw [hother _ hkey, find?_eq_none_iff]
        exact hnodup.1

/-- The lengths of a fragment are in order. -/
def Usable (g : Fragment) : Prop :=
  g.stop ≤ fragmentDataCapacity ∧ (g.more = true → g.content ≠ [] ∧ g.content.length % 8 = 0)

theorem not_usable_iff :
    ¬Usable g ↔ fragmentDataCapacity < g.stop ∨
      (g.more = true ∧ (g.content = [] ∨ g.content.length % 8 ≠ 0)) := by
  rw [Usable, not_and_or, not_le, Classical.not_imp, not_and_or, not_not]

/-- What a store can do to flows that hold `l` for the key of the fragment. -/
inductive StoreOutcome (flows : List FragmentFlow) (l : List Fragment) (g : Fragment) :
    Except Error (Option Bytes) → List FragmentFlow → Prop
  /-- The fragment is not looked at: its lengths are wrong, or there are too many flows. -/
  | refused {e : Error} (h : ¬Usable g ∨
      (flows.find? (·.key = g.key) = none ∧ fragmentFlowLimit ≤ flows.length)) :
      StoreOutcome flows l g (.error e) flows
  /-- The flow ends without a packet. -/
  | dropped {e : Error} {flows' : List FragmentFlow}
      (h : ¬Accepts l g ∨ TooLarge (l ++ [g]) ∨ g.key.family = .inet6)
      (hgone : flows'.find? (·.key = g.key) = none) : StoreOutcome flows l g (.error e) flows'
  /-- The flow waits for more. -/
  | held {f : FragmentFlow} {flows' : List FragmentFlow} (hg : Accepts l g)
      (hl : ¬AddsUp (l ++ [g])) (hf : Holds f (l ++ [g]))
      (hfind : flows'.find? (·.key = g.key) = some f) : StoreOutcome flows l g (.ok none) flows'
  /-- The flow ends with a packet. -/
  | complete {f : FragmentFlow} {packet : Bytes} {flows' : List FragmentFlow} (husable : Usable g)
      (hg : Accepts l g) (hl : AddsUp (l ++ [g])) (hf : Holds f (l ++ [g])) (hkey : f.key = g.key)
      (hpacket : f.packet (totalLength (l ++ [g])) = .ok packet)
      (hgone : flows'.find? (·.key = g.key) = none) :
      StoreOutcome flows l g (.ok (some packet)) flows'

/-- What becomes of the flow of a fragment. -/
theorem storeOutcome_sweepTaken {flows' : List FragmentFlow}
    (hf : Holds f l) (hkey : f.key = g.key) (husable : Usable g)
    (hnodup : (flows'.map FragmentFlow.key).Nodup) (hmem : g.key ∈ flows'.map FragmentFlow.key)
    (now : UInt32) :
    StoreOutcome flows l g (sweepTaken g.key flows' (f.take now g)).1
        (sweepTaken g.key flows' (f.take now g)).2 ∧
      Framed g.key flows' (sweepTaken g.key flows' (f.take now g)).2 := by
  obtain ⟨hgone, hframe⟩ := replaceFlow_spec (f := none) hnodup hmem (by simp)
  by_cases hg : Accepts l g
  · have hwrite := hf.write hkey.symm hg now
    have hwritten : (f.write now g).key = g.key := hkey
    rw [hf.take_of_accepts hg]
    by_cases hl : AddsUp (l ++ [g])
    · rw [hwrite.settle_of_addsUp hl]
      cases hpacket : (f.write now g).packet (totalLength (l ++ [g])) with
      | error e =>
        refine ⟨.dropped (.inr (.inr ?_)) hgone, hframe⟩
        cases hfamily : g.key.family with
        | inet6 => rfl
        | inet =>
          rw [packet_inet (by rw [hwritten, hfamily])] at hpacket
          cases hpacket
      | ok packet => exact ⟨.complete husable hg hl hwrite hwritten hpacket hgone, hframe⟩
    · rcases hwrite.settle_of_not_addsUp hl with hsettle | ⟨hlarge, e, hsettle⟩
      · rw [hsettle]
        exact (replaceFlow_spec hnodup hmem (by simpa using hwritten)).imp_left (.held hg hl hwrite)
      · rw [hsettle]
        exact ⟨.dropped (.inr (.inl hlarge)) hgone, hframe⟩
  · obtain ⟨e, he⟩ := hf.take_of_not_accepts hg now
    rw [he]
    exact ⟨.dropped (.inl hg) hgone, hframe⟩

/-- The flow of a fragment, which may be a new one, and the flows with it. -/
def fragmentFlowFor (flows : List FragmentFlow) (now : UInt32) (memory : Nat → UInt8)
    (g : Fragment) :
    FragmentFlow × List FragmentFlow :=
  let present := flows.find? (·.key = g.key)
  let f := present.getD { key := g.key, data := memory, lastActivity := now }
  (f, if present.isSome then flows else f :: flows)

/-- A store leaves the flows as they are, or sweeps those with the flow of the fragment. -/
theorem fragmentStore_cases (flows : List FragmentFlow) (now : UInt32) (memory : Nat → UInt8)
    (g : Fragment) :
    ((¬Usable g ∨ (flows.find? (·.key = g.key) = none ∧ fragmentFlowLimit ≤ flows.length)) ∧
        ∃ e, fragmentStore flows now memory g = (.error e, flows)) ∨
      (Usable g ∧ fragmentStore flows now memory g =
        sweepTaken g.key (fragmentFlowFor flows now memory g).2
          ((fragmentFlowFor flows now memory g).1.take now g)) := by
  rw [fragmentStore]
  split
  · next husable => exact .inl ⟨.inl (not_usable_iff.2 husable), _, rfl⟩
  · next husable =>
    simp only
    split
    · next hroom => exact .inl ⟨.inr ⟨Option.isNone_iff_eq_none.1 hroom.1, hroom.2⟩, _, rfl⟩
    · exact .inr ⟨not_not.1 (mt not_usable_iff.1 husable), rfl⟩

theorem key_of_find? (h : flows.find? (·.key = key) = some f) : f.key = key :=
  of_decide_eq_true (find?_some h :)

variable (h : (flows.map FragmentFlow.key).Nodup)

include h

theorem find?_eq_some_of_mem (hf : f ∈ flows) :
    flows.find? (·.key = f.key) = some f := by
  have hsome : (flows.find? (·.key = f.key)).isSome :=
    find?_isSome.2 ⟨f, hf, decide_eq_true rfl⟩
  obtain ⟨e, he⟩ := Option.isSome_iff_exists.1 hsome
  rw [he, inj_on_of_nodup_map h (mem_of_find?_eq_some he) hf (key_of_find? he)]

theorem framed_fragmentFlowFor (now : UInt32) (memory : Nat → UInt8) (g : Fragment) :
    (fragmentFlowFor flows now memory g).1.key = g.key ∧
      Framed g.key flows (fragmentFlowFor flows now memory g).2 ∧
      g.key ∈ (fragmentFlowFor flows now memory g).2.map FragmentFlow.key := by
  rw [fragmentFlowFor]
  cases hfind : flows.find? (·.key = g.key) with
  | none =>
    refine ⟨rfl, ⟨fun key hne ↦ ?_, nodup_cons.2 ⟨find?_eq_none_iff.1 hfind, h⟩⟩, mem_cons_self⟩
    simp [hne.symm]
  | some f =>
    exact ⟨key_of_find? hfind, ⟨fun _ _ ↦ rfl, h⟩,
      mem_map.2 ⟨f, mem_of_find?_eq_some hfind, key_of_find? hfind⟩⟩

/-- **Storing a fragment** leaves the flows of other keys alone. -/
theorem storeOutcome_fragmentStore (g : Fragment)
    (hnone : flows.find? (·.key = g.key) = none → l = [])
    (hsome : ∀ f, flows.find? (·.key = g.key) = some f → Holds f l) (now : UInt32)
    (memory : Nat → UInt8) :
    StoreOutcome flows l g (fragmentStore flows now memory g).1
        (fragmentStore flows now memory g).2 ∧
      Framed g.key flows (fragmentStore flows now memory g).2 := by
  rcases fragmentStore_cases flows now memory g with ⟨hrefused, e, hstore⟩ | ⟨husable, hstore⟩
  · rw [hstore]
    exact ⟨.refused hrefused, fun _ _ ↦ rfl, h⟩
  obtain ⟨hkey, hframe, hmem⟩ := framed_fragmentFlowFor h now memory g
  have hholds : Holds (fragmentFlowFor flows now memory g).1 l := by
    rw [fragmentFlowFor]
    cases hfind : flows.find? (·.key = g.key) with
    | none =>
      rw [hnone hfind]
      exact holds_new g.key memory now
    | some f => exact hsome f hfind
  obtain ⟨houtcome, hother, hkeys⟩ := storeOutcome_sweepTaken hholds hkey husable hframe.2 hmem now
  rw [hstore]
  exact ⟨houtcome, fun key hne ↦ (hother key hne).trans (hframe.1 key hne), hkeys⟩

omit h

/-! ## What has been received -/

/-- The flows, and for each key the fragments that have been taken since its flow began. -/
structure Assembly where
  flows : List FragmentFlow := []
  received : FragmentKey → List Fragment := fun _ ↦ []

/-- A packet of a client comes, or time passes. -/
inductive Arrival where
  | input (now : UInt32) (memory : Nat → UInt8) (packet : Bytes)
  | tick (now : UInt32)

/-- The fragment in a packet. -/
def fragmentOf (packet : Bytes) : Option Fragment :=
  match splitInput packet with
  | .ok (.fragment g) => some g
  | _ => none

namespace Assembly

/-- What is received for a key, behind flows that have taken some fragments. -/
def receivedBehind (a : Assembly) (flows : List FragmentFlow) (taken : List Fragment)
    (key : FragmentKey) : List Fragment :=
  if (flows.find? (·.key = key)).isSome then
    a.received key ++ taken.filter (·.key = key)
  else []

/-- A fragment is received if there is no error.  A key without a flow starts anew. -/
def step (a : Assembly) : Arrival → Assembly
  | .input now memory packet =>
    let (result, flows) := prepareInputPacket a.flows now memory packet
    let taken := if result.isOk then (fragmentOf packet).toList else []
    ⟨flows, a.receivedBehind flows taken⟩
  | .tick now =>
    let flows := fragmentTick a.flows now
    ⟨flows, a.receivedBehind flows []⟩

/-- The flows hold what has been received. -/
structure Inv (a : Assembly) : Prop where
  nodup : (a.flows.map FragmentFlow.key).Nodup
  none : ∀ key, a.flows.find? (·.key = key) = none → a.received key = []
  some : ∀ key f, a.flows.find? (·.key = key) = some f → Holds f (a.received key)
  header : ∀ key, ∀ g ∈ a.received key, g.key.family = .inet → 20 ≤ g.header.length

end Assembly

theorem splitInput_of_fragmentOf (h : fragmentOf packet = some g) :
    splitInput packet = .ok (.fragment g) := by
  rw [fragmentOf] at h
  split at h
  · cases h
    assumption
  · cases h

/-- The header of an IPv4 fragment is one, and a packet that is all there is no fragment. -/
theorem fragmentOf_inet (h : fragmentOf packet = some g)
    (hfamily : g.key.family = .inet) : 20 ≤ g.header.length ∧ ¬(g.offset = 0 ∧ g.more = false) := by
  have hsplit := splitInput_of_fragmentOf h
  rw [splitInput] at hsplit
  split at hsplit
  · rw [splitIpv4] at hsplit
    simp only at hsplit
    split at hsplit
    · cases hsplit
    split at hsplit
    · cases hsplit
    rename_i hheader hwhole
    rw [not_or, not_or, not_lt, not_lt] at hheader
    cases hsplit
    refine ⟨?_, fun hboth ↦ hwhole ⟨hboth.1, (Bool.not_eq_true' _).mpr hboth.2⟩⟩
    rw [length_take, Nat.min_eq_left hheader.2.1]
    exact hheader.1
  · rw [splitIpv6] at hsplit
    split at hsplit
    · cases hsplit
    obtain ⟨⟨next, nextOffset, cursor⟩, -, hrest⟩ := bind_eq_ok_iff.1 hsplit
    simp only at hrest
    split at hrest
    · cases hrest
    split at hrest
    · cases hrest
    split at hrest
    · cases hrest
    cases hrest
    cases hfamily

namespace Assembly

theorem inv_start : Inv {} where
  nodup := nodup_nil
  none := fun _ _ ↦ rfl
  some := fun _ _ h ↦ by cases h
  header := fun _ _ h ↦ absurd h not_mem_nil

variable {a : Assembly}

variable {taken : List Fragment}

theorem receivedBehind_of_none (h : flows.find? (·.key = key) = none) :
    a.receivedBehind flows taken key = [] := by
  rw [receivedBehind, h]
  rfl

theorem receivedBehind_of_some (h : flows.find? (·.key = key) = some f) :
    a.receivedBehind flows taken key = a.received key ++ taken.filter (·.key = key) := by
  rw [receivedBehind, h]
  rfl

variable (ha : a.Inv)

include ha

/-- The invariant, key by key. -/
theorem inv_behind (hnodup : (flows.map FragmentFlow.key).Nodup)
    (htaken : ∀ g ∈ taken, g.key.family = .inet → 20 ≤ g.header.length)
    (hsome : ∀ key f, flows.find? (·.key = key) = some f →
      Holds f (a.received key ++ taken.filter (·.key = key))) :
    Inv ⟨flows, a.receivedBehind flows taken⟩ where
  nodup := hnodup
  none := fun _ h ↦ receivedBehind_of_none h
  some := fun key f h ↦ by
    show Holds f (a.receivedBehind flows taken key)
    rw [receivedBehind_of_some h]
    exact hsome key f h
  header := fun key g (hg : g ∈ a.receivedBehind flows taken key) ↦ by
    cases hfind : flows.find? (·.key = key) with
    | none =>
      rw [receivedBehind_of_none hfind] at hg
      exact absurd hg not_mem_nil
    | some f =>
      rw [receivedBehind_of_some hfind] at hg
      rcases mem_append.1 hg with hg | hg
      · exact ha.header key g hg
      · exact htaken g (mem_of_mem_filter hg)

/-- Flows that stay, with nothing taken. -/
theorem inv_unchanged : Inv ⟨a.flows, a.receivedBehind a.flows []⟩ :=
  inv_behind ha ha.nodup (fun _ hg ↦ absurd hg not_mem_nil) fun key f hfind ↦ by
    rw [filter_nil, append_nil]
    exact ha.some key f hfind

theorem inv_tick (now : UInt32) : (a.step (.tick now)).Inv := by
  have hsub : (fragmentTick a.flows now).Sublist a.flows := filter_sublist
  refine inv_behind ha ((hsub.map _).nodup ha.nodup) (fun _ hg ↦ absurd hg not_mem_nil)
    fun key f hfind ↦ ?_
  rw [filter_nil, append_nil]
  refine ha.some key f ?_
  rw [← key_of_find? hfind]
  exact find?_eq_some_of_mem ha.nodup (hsub.mem (mem_of_find?_eq_some hfind))

theorem inv_input (now : UInt32) (memory : Nat → UInt8) (packet : Bytes) :
    (a.step (.input now memory packet)).Inv := by
  rw [step, prepareInputPacket, fragmentOf]
  cases hsplit : splitInput packet with
  | error e => exact inv_unchanged ha
  | ok input =>
    cases input with
    | whole packet => exact inv_unchanged ha
    | fragment g =>
      have hoffered : fragmentOf packet = some g := by rw [fragmentOf, hsplit]
      obtain ⟨houtcome, hother, hnodup⟩ :=
        storeOutcome_fragmentStore ha.nodup g (ha.none g.key) (ha.some g.key) now memory
      simp only
      generalize fragmentStore a.flows now memory g = out at houtcome hother hnodup
      obtain ⟨result, flows⟩ := out
      simp only at houtcome hother hnodup ⊢
      have hothers : ∀ taken : List Fragment, (∀ q ∈ taken, q = g) →
          (∀ f, flows.find? (·.key = g.key) = some f →
            Holds f (a.received g.key ++ taken.filter (·.key = g.key))) →
          Inv ⟨flows, a.receivedBehind flows taken⟩ := by
        intro taken htaken hown
        refine inv_behind ha hnodup (fun q hq ↦ ?_) fun key f hf ↦ ?_
        · rw [htaken q hq]
          exact fun hfamily ↦ (fragmentOf_inet hoffered hfamily).1
        by_cases hkey : key = g.key
        · subst hkey
          exact hown f hf
        have hnone : taken.filter (·.key = key) = [] := by
          refine filter_eq_nil_iff.2 fun q hq ↦ ?_
          rw [htaken q hq, decide_eq_true_iff]
          exact Ne.symm hkey
        rw [hnone, append_nil]
        exact ha.some key f (hother key hkey ▸ hf)
      cases houtcome with
      | refused h => exact inv_unchanged ha
      | dropped h hgone =>
        exact hothers [] (fun q hq ↦ absurd hq not_mem_nil) fun f hf ↦ by
          cases hgone.symm.trans hf
      | held hg hl hf hfind =>
        refine hothers [g] (fun q hq ↦ mem_singleton.1 hq) fun f' hf' ↦ ?_
        cases hfind.symm.trans hf'
        have hown : [g].filter (·.key = g.key) = [g] := by simp
        rw [hown]
        exact hf
      | complete husable hg hl hf hkey hpacket hgone =>
        exact hothers [g] (fun q hq ↦ mem_singleton.1 hq) fun f' hf' ↦ by
          cases hgone.symm.trans hf'

theorem Inv.step (e : Arrival) : (a.step e).Inv := by
  cases e with
  | input now memory packet => exact inv_input ha now memory packet
  | tick now => exact inv_tick ha now

/-! ## Sound packets -/

end Assembly

/-- **The flows are exact**, in every run: no two have a key in common, and each holds the fragments
that were received for it. -/
theorem flows_exact (arrivals : List Arrival) :
    let a := run Assembly.step {} arrivals
    (a.flows.map FragmentFlow.key).Nodup ∧ ∀ f ∈ a.flows, Holds f (a.received f.key) := by
  intro a
  have ha : a.Inv :=
    run_inv_all (I := Assembly.Inv) (fun _ e ha ↦ ha.step e) arrivals Assembly.inv_start
  exact ⟨ha.nodup, fun f hf ↦ ha.some f.key f (find?_eq_some_of_mem ha.nodup hf)⟩

/-- A packet that is made of fragments: every byte of the payload is the one that was received
there, and nothing has been received behind the end. -/
def Reassembled (l : List Fragment) (packet : Bytes) : Prop :=
  ∃ first ∈ l, ∃ last ∈ l, first.offset = 0 ∧ last.more = false ∧
    packet.length = first.header.length + last.stop ∧
    (∀ i < last.stop, ∃ g ∈ l, g.Covers i ∧ packet[first.header.length + i]? = g.at? i) ∧
    ∀ g ∈ l, g.stop ≤ last.stop

/-- A fragment ends a flow that holds `l`, by what the flow counts. -/
structure Completes (l : List Fragment) (g : Fragment) : Prop where
  usable : Usable g
  accepts : Accepts l g
  addsUp : AddsUp (l ++ [g])

theorem mem_of_mem_firstOf (h : g ∈ firstOf l) :
    g ∈ l ∧ g.offset = 0 :=
  ⟨mem_reverse.1 (mem_of_find?_eq_some h), of_decide_eq_true (find?_some h :)⟩

theorem Holds.stop_eq (h : Holds f l) {p q : Fragment}
    (hp : p ∈ l) (hq : q ∈ l) (hplast : p.more = false) (hqlast : q.more = false) :
    p.stop = q.stop :=
  Option.some.inj ((h.final p hp hplast).symm.trans (h.final q hq hqlast))

/-- Fragments that add up and end in front of the last one are all there. -/
theorem Holds.reassembled (h : Holds f l)
    (hfamily : f.key.family = .inet) (hheader : ∀ g ∈ l, 20 ≤ g.header.length) (hl : AddsUp l)
    (hstop : ∀ g ∈ l, g.stop ≤ totalLength l)
    (hpacket : f.packet (totalLength l) = .ok packet) : Reassembled l packet := by
  obtain ⟨last, hlast, hmore, hend⟩ := hl.final
  obtain ⟨first, hfirst, -⟩ := hl.first
  have hmem := mem_of_mem_firstOf hfirst
  have hcovers : ∀ i < totalLength l, ∃ p ∈ pieces l, p.Covers i := by
    refine (forall_covers_iff h.apart fun p hp ↦ ?_).2 rfl
    obtain ⟨g, hg, rfl⟩ := mem_map.1 hp
    exact hstop g hg
  have hsame := (h.header first hfirst).1
  have hpayload := payload_packet (hsame ▸ hheader first hmem.1) last.stop
  rw [← hend] at hcovers hstop hpacket
  rw [packet_inet hfamily] at hpacket
  cases hpacket
  rw [hsame] at hpayload ⊢
  refine ⟨first, hmem.1, last, hlast, hmem.2, hmore, hpayload.1, fun i hi ↦ ?_, hstop⟩
  obtain ⟨p, hp, hcover⟩ := hcovers i hi
  obtain ⟨g, hg, rfl⟩ := mem_map.1 hp
  exact ⟨g, hg, hcover, (hpayload.2 i hi).trans (h.data g hg i hcover).symm⟩

namespace Assembly

/-- A packet that is put together from IPv4 fragments is made of what has been received. -/
def Sound (a : Assembly) : Arrival → Prop
  | .input now memory packet =>
    ∀ g, fragmentOf packet = some g → g.key.family = .inet → ∀ out,
      (prepareInputPacket a.flows now memory packet).1 = .ok (some out) →
        Reassembled (a.received g.key ++ [g]) out
  | .tick _ => True

/-- When an IPv4 fragment ends a flow, by what the flow counts, then none of the fragments ends
behind the last one. -/
def Fits (a : Assembly) : Arrival → Prop
  | .input _ _ packet =>
    ∀ g, fragmentOf packet = some g → g.key.family = .inet → Completes (a.received g.key) g →
      ∀ last ∈ a.received g.key ++ [g], last.more = false →
        ∀ q ∈ a.received g.key ++ [g], q.stop ≤ last.stop
  | .tick _ => True

theorem prepareInputPacket_of_fragment {packet : Bytes} {g : Fragment}
    (h : fragmentOf packet = some g) (flows : List FragmentFlow) (now : UInt32)
    (memory : Nat → UInt8) :
    prepareInputPacket flows now memory packet = fragmentStore flows now memory g := by
  rw [prepareInputPacket, splitInput_of_fragmentOf h]

variable {a : Assembly}

theorem sound_iff (ha : a.Inv) (e : Arrival) : a.Sound e ↔ a.Fits e := by
  cases e with
  | tick now => exact Iff.rfl
  | input now memory packet =>
    refine forall_congr' fun g ↦ forall_congr' fun hg ↦ forall_congr' fun hfamily ↦ ?_
    have houtcome :=
      (storeOutcome_fragmentStore ha.nodup g (ha.none g.key) (ha.some g.key) now memory).1
    rw [← prepareInputPacket_of_fragment hg] at houtcome
    generalize prepareInputPacket a.flows now memory packet = out at houtcome
    obtain ⟨result, flows⟩ := out
    simp only at houtcome ⊢
    cases houtcome with
    | refused hrefused =>
      refine iff_of_true (fun out hout ↦ by cases hout) fun hends ↦ ?_
      obtain ⟨hnone, -⟩ := hrefused.resolve_left (not_not.2 hends.usable)
      -- a fragment alone does not add up
      have hfinal := hends.addsUp.final
      rw [ha.none g.key hnone] at hfinal
      obtain ⟨q, hq, hlast, hend⟩ := hfinal
      rw [nil_append, mem_singleton] at hq
      subst hq
      rw [totalLength_concat, Piece.stop, Nat.add_right_cancel_iff] at hend
      exact absurd ⟨hend, hlast⟩ (fragmentOf_inet hg hfamily).2
    | dropped hdropped hgone =>
      refine iff_of_true (fun out hout ↦ by cases hout) fun hends ↦ ?_
      rcases hdropped with hnot | hnot | hnot
      · exact absurd hends.accepts hnot
      · exact absurd hnot hends.addsUp.not_tooLarge
      · cases hfamily.symm.trans hnot
    | held hg hl hf hfind =>
      exact iff_of_true (fun out hout ↦ by cases hout) fun hends ↦ absurd hends.addsUp hl
    | @complete f packet _ husable haccepts hl hf hkey hpacket hgone =>
      constructor
      · intro hsound _ last hlast hmore q hq
        obtain ⟨_, _, last', hlast', -, hmore', -, -, hstop⟩ := hsound packet rfl
        rw [hf.stop_eq hlast hlast' hmore hmore']
        exact hstop q hq
      · intro hfits out hout
        cases hout
        obtain ⟨last, hlast, hmore, hend⟩ := hl.final
        have hstop := hfits ⟨husable, haccepts, hl⟩ last hlast hmore
        refine hf.reassembled (by rw [hkey, hfamily]) (fun q hq ↦ ?_) hl
          (fun q hq ↦ hend ▸ hstop q hq) hpacket
        have hqfamily : q.key.family = .inet := by rw [hf.key q hq, hkey, hfamily]
        rcases mem_append.1 hq with hq | hq
        · exact ha.header g.key q hq hqfamily
        · rw [mem_singleton.1 hq]
          exact (fragmentOf_inet hg hfamily).1

end Assembly

end ClambHook.IpStack.Reassembly
