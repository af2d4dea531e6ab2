import ClambHook.IpStack.DnsCache
import Mathlib.Data.List.Nodup

/-!
# The DNS hints as a map

What the cache is for is a map from addresses to names whose mappings run out: `World.mapping` says
what it should hold, from everything that has been stored and at the times at which it was.  The
times do not wrap; the clock that the cache looks at does.

A store should not make the mapping of another address disappear while there is room, and a lookup
should find what `World.mapping` says.  `lawful_iff_fits` says of which stores and lookups this is
so.  A store takes the slot that was used longest ago also where there is room for another one
(`SlotChoice.oldest`).
-/

namespace ClambHook.IpStack.Dns

open CString WrappingClock Machine List

/-! ## Choosing a slot -/

/-- What a store does with the slots. -/
inductive SlotChoice (entries : List DnsEntry) (now : UInt32) (address : Address) : Nat → Prop
  /-- The slot of the address. -/
  | own {i : Nat} {e : DnsEntry} (he : entries[i]? = some e) (haddress : e.address = address) :
      SlotChoice entries now address i
  /-- A slot that has run out. -/
  | ranOut {i : Nat} {e : DnsEntry} (hother : ∀ e ∈ entries, e.address ≠ address)
      (he : entries[i]? = some e) (halive : e.alive now = false) : SlotChoice entries now address i
  /-- The slot that was used longest ago. -/
  | oldest {i : Nat} {e : DnsEntry} (hother : ∀ e ∈ entries, e.address ≠ address)
      (halive : ∀ e ∈ entries, e.alive now = true) (he : entries[i]? = some e)
      (holdest : e ∈ entries.argmin fun e ↦ e.sequence.toNat)
      (hless : e.sequence.toNat < 2 ^ 64 - 1 ∨ dnsCacheLimit ≤ entries.length) :
      SlotChoice entries now address i
  /-- A slot more. -/
  | added (hother : ∀ e ∈ entries, e.address ≠ address) (halive : ∀ e ∈ entries, e.alive now = true)
      (hnone : ∀ e ∈ entries, e.sequence.toNat = 2 ^ 64 - 1)
      (hlength : entries.length < dnsCacheLimit) :
      SlotChoice entries now address entries.length

variable {now : UInt32} {address : Address}

variable {l : List DnsEntry}

theorem exists_of_index {P : DnsEntry → Prop} {e : DnsEntry} {index slot : Nat}
    (h : ∃ i d, l[i]? = some d ∧ P d ∧ slot = index + 1 + i) :
    ∃ i d, (e :: l)[i]? = some d ∧ P d ∧ slot = index + i := by
  obtain ⟨i, d, hd, hP, rfl⟩ := h
  exact ⟨i + 1, d, hd, hP, by omega⟩

theorem mem_argmin_cons {e : DnsEntry} {rest : List DnsEntry}
    (h : ∀ d ∈ rest, e.sequence.toNat ≤ d.sequence.toNat) :
    e ∈ ((e :: rest).argmin fun e ↦ e.sequence.toNat) := by
  rw [argmin_cons, Option.mem_def]
  cases hrest : rest.argmin fun e ↦ e.sequence.toNat with
  | none => rfl
  | some d => exact if_neg (h d (argmin_mem hrest)).not_gt

/-- The first of the slots with the least number, if it is less than that of the candidate. -/
theorem oldestSlot_cases (l : List DnsEntry) (index selected : Nat) (oldest : UInt64) :
    (oldestSlot l index selected oldest = selected ∧
      ∀ e ∈ l, oldest.toNat ≤ e.sequence.toNat) ∨
    ∃ i e, l[i]? = some e ∧
      (e ∈ (l.argmin fun e ↦ e.sequence.toNat) ∧ e.sequence.toNat < oldest.toNat) ∧
      oldestSlot l index selected oldest = index + i := by
  induction l generalizing index selected oldest with
  | nil => exact .inl ⟨rfl, fun e he ↦ absurd he not_mem_nil⟩
  | cons e rest ih =>
    have hmin : ∀ {d : DnsEntry}, d ∈ (rest.argmin fun e ↦ e.sequence.toNat) →
        d.sequence.toNat < e.sequence.toNat →
        d ∈ ((e :: rest).argmin fun e ↦ e.sequence.toNat) := by
      intro d hd hless
      rw [argmin_cons, Option.mem_def.1 hd, Option.mem_def]
      exact if_pos hless
    rw [oldestSlot]
    by_cases hless : e.sequence < oldest
    · rw [if_pos hless]
      rw [UInt64.lt_iff_toNat_lt] at hless
      right
      rcases ih (index + 1) index e.sequence with ⟨hslot, hle⟩ | ⟨i, d, hd, ⟨hdmin, hdless⟩, hslot⟩
      · exact ⟨0, e, rfl, ⟨mem_argmin_cons hle, hless⟩, hslot⟩
      · exact exists_of_index ⟨i, d, hd, ⟨hmin hdmin hdless, hdless.trans hless⟩, hslot⟩
    · rw [if_neg hless]
      rw [UInt64.lt_iff_toNat_lt, not_lt] at hless
      rcases ih (index + 1) selected oldest with ⟨hslot, hle⟩ | ⟨i, d, hd, ⟨hdmin, hdless⟩, hslot⟩
      · refine .inl ⟨hslot, fun d hd ↦ ?_⟩
        rcases mem_cons.1 hd with rfl | hd
        · exact hless
        · exact hle d hd
      · exact .inr (exists_of_index
          ⟨i, d, hd, ⟨hmin hdmin (hdless.trans_le hless), hdless⟩, hslot⟩)

/-- What a scan finds: the address, a slot that has run out, or the slot `last`. -/
def Scanned (now : UInt32) (address : Address) (l : List DnsEntry) (index slot last : Nat) : Prop :=
  (∃ i e, l[i]? = some e ∧ e.address = address ∧ slot = index + i) ∨
    (∀ e ∈ l, e.address ≠ address) ∧
      ((∃ i e, l[i]? = some e ∧ e.alive now = false ∧ slot = index + i) ∨
        (∀ e ∈ l, e.alive now = true) ∧ slot = last)

theorem Scanned.cons {e : DnsEntry} {index slot last last' : Nat}
    (h : Scanned now address l (index + 1) slot last') (haddress : e.address ≠ address)
    (hdead : e.alive now = false → last' = index) (hlive : e.alive now = true → last' = last) :
    Scanned now address (e :: l) index slot last := by
  rcases h with hown | ⟨hother, hrest⟩
  · exact .inl (exists_of_index hown)
  refine .inr ⟨forall_mem_cons.2 ⟨haddress, hother⟩, ?_⟩
  rcases hrest with hrest | ⟨hrest, hslot⟩
  · exact .inl (exists_of_index hrest)
  cases halive : e.alive now with
  | false => exact .inl ⟨0, e, rfl, halive, hslot.trans (hdead halive)⟩
  | true => exact .inr ⟨forall_mem_cons.2 ⟨halive, hrest⟩, hslot.trans (hlive halive)⟩

theorem scanned_scanSlots (l : List DnsEntry) (index selected : Nat) (oldest : UInt64) :
    Scanned now address l index (scanSlots now address l index selected oldest)
      (oldestSlot l index selected oldest) := by
  induction l generalizing index selected oldest with
  | nil =>
    have hnil : ∀ {P : DnsEntry → Prop}, ∀ e ∈ [], P e := fun e he ↦ absurd he not_mem_nil
    exact .inr ⟨hnil, .inr ⟨hnil, rfl⟩⟩
  | cons e rest ih =>
    rw [scanSlots]
    split
    · next haddress => exact .inl ⟨0, e, rfl, haddress, rfl⟩
    next haddress =>
    cases halive : e.alive now with
    | false =>
      -- behind a slot that has run out no number is less
      refine (ih (index + 1) index 0).cons haddress (fun _ ↦ ?_) fun h ↦ by simp [halive] at h
      rcases oldestSlot_cases rest (index + 1) index 0 with ⟨hslot, -⟩ | ⟨_, _, -, ⟨-, hless⟩, -⟩
      · exact hslot
      · exact absurd hless (Nat.not_lt_zero _)
    | true =>
      have hless : oldest ≠ 0 ∧ e.sequence < oldest ↔ e.sequence < oldest := by
        refine and_iff_right_of_imp ?_
        rintro hless rfl
        exact Nat.not_lt_zero _ (UInt64.lt_iff_toNat_lt.1 hless)
      simp only [hless, oldestSlot, Bool.not_true, Bool.false_eq_true, if_false]
      split
      all_goals exact (ih _ _ _).cons haddress (fun h ↦ by simp [halive] at h) fun _ ↦ rfl

variable (c : DnsCache)

/-- **The slots of a store.** -/
theorem slotChoice_slotFor (now : UInt32) (address : Address) :
    SlotChoice c.entries now address (c.slotFor now address) := by
  obtain ⟨entries, sequence⟩ := c
  generalize hmax : (2 ^ 64 - 1).toUInt64 = oldest
  have hscan : ∀ {i : Nat} {e : DnsEntry}, entries[i]? = some e →
      scanSlots now address entries 0 entries.length oldest = 0 + i →
      DnsCache.slotFor ⟨entries, sequence⟩ now address = i := by
    intro i e he hslot
    rw [Nat.zero_add] at hslot
    rw [DnsCache.slotFor, hmax, hslot, if_neg (List.getElem?_eq_some_iff.1 he).1.ne]
  rcases scanned_scanSlots entries 0 entries.length oldest with
    ⟨i, e, he, haddress, hslot⟩ | ⟨hother, ⟨i, e, he, halive, hslot⟩ | ⟨halive, halike⟩⟩
  · rw [hscan he hslot]
    exact .own he haddress
  · rw [hscan he hslot]
    exact .ranOut hother he halive
  rcases oldestSlot_cases entries 0 entries.length oldest with
    ⟨hslot, hle⟩ | ⟨i, e, he, ⟨hmin, hless⟩, hslot⟩
  · -- all slots are as new as can be
    have hnone : ∀ e ∈ entries, e.sequence.toNat = 2 ^ 64 - 1 := by
      intro e he
      have hge := hle e he
      have hlt := e.sequence.toNat_lt
      rw [← hmax] at hge
      exact Nat.le_antisymm (Nat.le_sub_one_of_lt hlt) hge
    rw [DnsCache.slotFor, hmax, halike, hslot, if_pos rfl]
    cases entries with
    | nil => exact .added hother halive hnone (Nat.zero_lt_succ 1023)
    | cons e rest =>
      by_cases hroom : (e :: rest).length < dnsCacheLimit
      · simp only [if_pos hroom]
        exact .added hother halive hnone hroom
      simp only [if_neg hroom]
      rcases oldestSlot_cases rest 1 0 e.sequence with
        ⟨hfirst, hrest⟩ | ⟨i, d, hd, ⟨-, hless⟩, -⟩
      · rw [hfirst]
        exact .oldest hother halive rfl (mem_argmin_cons hrest) (.inr (not_lt.1 hroom))
      · have hboth := (hnone d (mem_cons_of_mem e (mem_of_getElem? hd))).trans
          (hnone e mem_cons_self).symm
        exact absurd hboth hless.ne
  · rw [hscan he (halike.trans hslot)]
    refine .oldest hother halive he hmin (.inl ?_)
    rw [← hmax] at hless
    exact hless

/-- The address has its slot, or it has none. -/
theorem SlotChoice.own_or_other {i : Nat} (h : SlotChoice l now address i) :
    (∃ e, l[i]? = some e ∧ e.address = address) ∨ ∀ e ∈ l, e.address ≠ address := by
  rcases h with ⟨he, haddress⟩ | hother | hother | hother
  · exact .inl ⟨_, he, haddress⟩
  all_goals exact .inr hother

/-! ## The map -/

/-- A mapping with the time at which it was stored. -/
structure Stored where
  time : Nat
  mapping : Mapping

/-- When a mapping runs out. -/
def Stored.deadline (s : Stored) : Nat :=
  s.time + ttlMilliseconds s.mapping.ttlSeconds

/-- The cache, the time, and everything that has been stored, the latest first. -/
structure World where
  now : Nat
  cache : DnsCache := {}
  stores : List Stored := []

/-- A store or a lookup, some milliseconds behind the one before it. -/
inductive Event where
  | store (wait : Nat) (m : Mapping)
  | lookup (wait : Nat) (address : Address)

namespace World

def step (w : World) : Event → World
  | .store wait m =>
    { now := w.now + wait
      cache := w.cache.store (stamp (w.now + wait)) m
      stores := ⟨w.now + wait, m⟩ :: w.stores }
  | .lookup wait address =>
    { w with
      now := w.now + wait
      cache := (w.cache.lookup (stamp (w.now + wait)) address).2 }

/-- The most recent mapping that was stored for an address. -/
def lastStore (w : World) (address : Address) : Option Stored :=
  w.stores.find? (·.mapping.address = address)

/-- Has the address a slot? -/
def present (w : World) (address : Address) : Bool :=
  w.cache.entries.any (·.address = address)

/-- The name of an address at a time: that of its most recent mapping, if it is still present and
has not run out. -/
def mapping (w : World) (t : Nat) (address : Address) : Option DnsName :=
  if w.present address then
    ((w.lastStore address).filter (t < ·.deadline)).map (·.mapping.domain)
  else none

/-- The number of addresses with a mapping at a time. -/
def unexpired (w : World) (t : Nat) : Nat :=
  w.cache.entries.countP fun e ↦ (w.mapping t e.address).isSome

/-- A store leaves the mappings of other addresses alone while there is room; a lookup finds the
name of the address. -/
def Lawful (w : World) : Event → Prop
  | .store wait m =>
    w.unexpired (w.now + wait) < dnsCacheLimit →
      ∀ address ≠ m.address, ∀ domain, w.mapping (w.now + wait) address = some domain →
        (w.step (.store wait m)).mapping (w.now + wait) address = some domain
  | .lookup wait address =>
    (w.cache.lookup (stamp (w.now + wait)) address).1 = w.mapping (w.now + wait) address

/-- A store finds a slot that it may take: that of its address, one that has run out by the clock,
or one that was used longest ago and has run out; or it finds the cache full, or no slot that it
could take.  A lookup does not come more than half a turn of the clock behind the end of the
mapping. -/
def Fits (w : World) : Event → Prop
  | .store wait m =>
    w.present m.address = true ∨
    (∃ e ∈ w.cache.entries, e.alive (stamp (w.now + wait)) = false) ∨
    (∀ e ∈ w.cache.entries.argmin fun e ↦ e.sequence.toNat,
      (e.sequence.toNat = 2 ^ 64 - 1 ∧ w.cache.entries.length < dnsCacheLimit) ∨
        w.mapping (w.now + wait) e.address = none) ∨
    dnsCacheLimit ≤ w.unexpired (w.now + wait)
  | .lookup wait address =>
    ∀ s ∈ w.lastStore address, w.present address = true → s.deadline ≤ w.now + wait →
      (w.now + wait - s.deadline) % 2 ^ 32 ≤ 2 ^ 31

/-- Every slot has the most recent mapping of its address, and no address has two. -/
structure Inv (w : World) : Prop where
  nodup : (w.cache.entries.map DnsEntry.address).Nodup
  slot : ∀ e ∈ w.cache.entries, ∃ s ∈ w.lastStore e.address, s.time ≤ w.now ∧
    e.domain = s.mapping.domain ∧ e.expiresAt = stamp s.deadline

end World

theorem ttlMilliseconds_bounds (ttl : UInt32) :
    1000 ≤ ttlMilliseconds ttl ∧ ttlMilliseconds ttl ≤ 86400000 := by
  rw [ttlMilliseconds]
  split <;> split <;> omega

namespace World

variable {w : World}

theorem present_iff :
    w.present address = true ↔ ∃ e ∈ w.cache.entries, e.address = address := by
  simp [present]

variable {e : DnsEntry}

theorem present_of_mem (he : e ∈ w.cache.entries) : w.present e.address = true :=
  present_iff.2 ⟨e, he, rfl⟩

variable {t : Nat}

theorem mapping_of_present {s : Stored}
    (h : w.present address = true) (hs : s ∈ w.lastStore address) :
    w.mapping t address = if t < s.deadline then some s.mapping.domain else none := by
  rw [mapping, if_pos h, Option.mem_def.1 hs, Option.filter_some]
  by_cases ht : t < s.deadline
  · rw [if_pos (decide_eq_true ht), if_pos ht]
    rfl
  · rw [if_neg (mt of_decide_eq_true ht), if_neg ht]
    rfl

/-- A mapping that has not run out is alive by the clock. -/
theorem alive_of_lt (ht : w.now ≤ t) {s : Stored}
    (hs : s.time ≤ w.now ∧ e.expiresAt = stamp s.deadline) (hlt : t < s.deadline) :
    e.alive (stamp t) = true := by
  have hbounds := ttlMilliseconds_bounds s.mapping.ttlSeconds
  have hnear : s.deadline < t + 2 ^ 31 := by
    rw [Stored.deadline]
    omega
  rw [DnsEntry.alive, hs.2, ahead_stamp_of_lt hlt hnear]

/-- A slot that has run out by the clock has run out. -/
theorem mapping_eq_none_of_not_alive (hw : w.Inv) (ht : w.now ≤ t)
    (he : e ∈ w.cache.entries) (halive : e.alive (stamp t) = false) :
    w.mapping t e.address = none := by
  obtain ⟨s, hs, htime, -, hexpires⟩ := hw.slot e he
  rw [mapping_of_present (present_of_mem he) hs, if_neg]
  intro hlt
  rw [alive_of_lt ht ⟨htime, hexpires⟩ hlt] at halive
  cases halive

/-! ## Stores -/

/-- The slot that a store writes. -/
def entryFor (c : DnsCache) (now : UInt32) (m : Mapping) : DnsEntry where
  address := m.address
  domain := m.domain
  expiresAt := now + UInt32.ofNat (ttlMilliseconds m.ttlSeconds)
  sequence := c.sequence + 1

/-- The slots behind a store. -/
theorem entries_store (now : UInt32) (m : Mapping) :
    (c.store now m).entries = if c.slotFor now m.address = c.entries.length
      then c.entries ++ [entryFor c now m]
      else c.entries.set (c.slotFor now m.address) (entryFor c now m) :=
  rfl

variable {m : Mapping} {j : Nat}

/-- Slots other than the one that is taken stay. -/
theorem mem_entries_store {c : DnsCache}
    (he : c.entries[j]? = some e) (hj : j ≠ c.slotFor now m.address) :
    e ∈ (c.store now m).entries := by
  rw [entries_store]
  split
  · exact mem_append_left _ (mem_of_getElem? he)
  · refine mem_of_getElem? (i := j) ?_
    rw [getElem?_set_ne hj.symm, he]

theorem mem_of_mem_entries_store {c : DnsCache}
    (he : e ∈ (c.store now m).entries) :
    e = entryFor c now m ∨ ∃ j, c.entries[j]? = some e ∧ j ≠ c.slotFor now m.address := by
  rw [entries_store] at he
  obtain ⟨j, hj⟩ := getElem?_of_mem he
  split at hj
  · rename_i hslot
    rw [getElem?_append] at hj
    split at hj
    · rename_i hlt
      exact .inr ⟨j, hj, by omega⟩
    rw [getElem?_singleton] at hj
    split at hj
    · cases hj
      exact .inl rfl
    · cases hj
  · rw [getElem?_set] at hj
    split at hj
    · split at hj
      · cases hj
        exact .inl rfl
      · cases hj
    · rename_i hslot
      exact .inr ⟨j, hj, Ne.symm hslot⟩

variable {wait : Nat}

theorem lastStore_store (h : address ≠ m.address) :
    (w.step (.store wait m)).lastStore address = w.lastStore address := by
  rw [lastStore, step, find?_cons_of_neg (by simpa using h.symm), lastStore]

/-- A slot that stays keeps its mapping. -/
theorem mapping_store_of_ne (hm : e.address ≠ m.address) (he : w.cache.entries[j]? = some e)
    (hj : j ≠ w.cache.slotFor (stamp (w.now + wait)) m.address) :
    (w.step (.store wait m)).mapping t e.address = w.mapping t e.address := by
  have hpresent : (w.step (.store wait m)).present e.address = true :=
    present_iff.2 ⟨e, mem_entries_store he hj, rfl⟩
  rw [mapping, mapping, lastStore_store hm, hpresent, present_of_mem (mem_of_getElem? he)]

variable (hw : w.Inv)

include hw

theorem eq_of_getElem?_address {i : Nat} {d : DnsEntry} (hd : w.cache.entries[i]? = some d)
    (he : w.cache.entries[j]? = some e) (h : d.address = e.address) : i = j := by
  refine (List.getElem?_inj ?_ hw.nodup).1 ?_
  · rw [length_map]
    exact (List.getElem?_eq_some_iff.1 hd).1
  · rw [List.getElem?_map, List.getElem?_map, hd, he, Option.map_some, Option.map_some, h]

/-- A slot that is taken loses its mapping. -/
theorem mapping_store_of_eq (hm : e.address ≠ m.address)
    (he : w.cache.entries[w.cache.slotFor (stamp (w.now + wait)) m.address]? = some e) :
    (w.step (.store wait m)).mapping t e.address = none := by
  rw [mapping, if_neg]
  intro hpresent
  obtain ⟨d, hd, haddress⟩ := present_iff.1 hpresent
  rcases mem_of_mem_entries_store hd with rfl | ⟨j, hj, hne⟩
  · exact hm haddress.symm
  · exact hne (eq_of_getElem?_address hw hj he haddress)

theorem lawful_store_iff (wait : Nat) (m : Mapping) :
    w.Lawful (.store wait m) ↔ w.Fits (.store wait m) := by
  have hle : w.now ≤ w.now + wait := Nat.le_add_right _ _
  have hchoice := slotChoice_slotFor w.cache (stamp (w.now + wait)) m.address
  constructor
  · intro hlawful
    generalize hslot : w.cache.slotFor (stamp (w.now + wait)) m.address = i at hchoice
    cases hchoice with
    | own he haddress => exact .inl (present_iff.2 ⟨_, mem_of_getElem? he, haddress⟩)
    | ranOut hother he halive => exact .inr (.inl ⟨_, mem_of_getElem? he, halive⟩)
    | added hother halive hnone hlength =>
      exact .inr (.inr (.inl fun e he ↦ .inl ⟨hnone e (argmin_mem he), hlength⟩))
    | @oldest i e hother halive he holdest hless =>
      by_cases hroom : w.unexpired (w.now + wait) < dnsCacheLimit
      · refine .inr (.inr (.inl fun d hd ↦ .inr ?_))
        obtain rfl := Option.some.inj ((Option.mem_def.1 holdest).symm.trans (Option.mem_def.1 hd))
        have hm := hother e (mem_of_getElem? he)
        by_contra hsome
        obtain ⟨domain, hdomain⟩ := Option.ne_none_iff_exists'.1 hsome
        have hkept := hlawful hroom e.address hm domain hdomain
        rw [mapping_store_of_eq hw hm (hslot ▸ he)] at hkept
        cases hkept
      · exact .inr (.inr (.inr (not_lt.1 hroom)))
  · intro hfits hroom address hm domain hdomain
    have hpresent : w.present address = true := by
      rw [mapping] at hdomain
      split at hdomain
      · assumption
      · cases hdomain
    obtain ⟨e, he, rfl⟩ := present_iff.1 hpresent
    obtain ⟨j, hj⟩ := getElem?_of_mem he
    rw [← hdomain]
    refine mapping_store_of_ne hm hj fun hslot ↦ ?_
    rw [← hslot] at hchoice
    cases hchoice with
    | own hd haddress =>
      cases hj.symm.trans hd
      exact hm haddress
    | ranOut hother hd halive =>
      cases hj.symm.trans hd
      rw [mapping_eq_none_of_not_alive hw hle he halive] at hdomain
      cases hdomain
    | added hother halive hnone hlength =>
      exact absurd (List.getElem?_eq_some_iff.1 hj).1 (lt_irrefl _)
    | oldest hother halive hd holdest hless =>
      cases hj.symm.trans hd
      rcases hfits with hown | ⟨d, hd, hdead⟩ | hfree | hfull
      · obtain ⟨d, hd, haddress⟩ := present_iff.1 hown
        exact hother d hd haddress
      · rw [halive d hd] at hdead
        cases hdead
      · rcases hfree e holdest with ⟨hmax, hlength⟩ | hnone
        · omega
        · rw [hnone] at hdomain
          cases hdomain
      · omega

omit hw

/-! ## Lookups -/

/-- A slot without its number. -/
def content (e : DnsEntry) : Address × DnsName × UInt32 :=
  (e.address, e.domain, e.expiresAt)

/-- The slots that a lookup looks for. -/
def answers (now : UInt32) (address : Address) (e : DnsEntry) : Bool :=
  e.address = address ∧ e.alive now

theorem answers_iff :
    answers now address e = true ↔ e.address = address ∧ e.alive now = true :=
  decide_eq_true_iff

/-- A lookup finds the first slot of the address that is alive. -/
theorem lookupSlots_eq (now : UInt32) (address : Address) (sequence : UInt64) (l : List DnsEntry) :
    (lookupSlots now address sequence l).map Prod.fst =
      (l.find? (answers now address)).map DnsEntry.domain := by
  induction l with
  | nil => rfl
  | cons e rest ih =>
    rw [lookupSlots]
    by_cases h : e.address = address ∧ e.alive now = true
    · rw [if_pos h, find?_cons_of_pos (answers_iff.2 h)]
      rfl
    · rw [if_neg h, find?_cons_of_neg (mt answers_iff.1 h), Option.map_map, ← ih]
      rfl

theorem lookup_fst (now : UInt32) (address : Address) :
    (c.lookup now address).1 =
      (c.entries.find? (answers now address)).map DnsEntry.domain := by
  rw [← lookupSlots_eq now address (c.sequence + 1), DnsCache.lookup]
  cases lookupSlots now address (c.sequence + 1) c.entries <;> rfl

/-- A lookup changes nothing but numbers. -/
theorem map_content_lookupSlots {sequence : UInt64}
    {l : List DnsEntry} {found : DnsName × List DnsEntry}
    (h : lookupSlots now address sequence l = some found) :
    found.2.map content = l.map content := by
  induction l generalizing found with
  | nil => cases h
  | cons e rest ih =>
    rw [lookupSlots] at h
    split at h
    · cases h
      rfl
    · obtain ⟨found', hfound, rfl⟩ := Option.map_eq_some_iff.1 h
      rw [map_cons, map_cons, ih hfound]

theorem map_content_lookup (now : UInt32) (address : Address) :
    (c.lookup now address).2.entries.map content = c.entries.map content := by
  rw [DnsCache.lookup]
  cases h : lookupSlots now address (c.sequence + 1) c.entries with
  | none => rfl
  | some found => exact map_content_lookupSlots h

include hw

theorem eq_of_address_eq {d : DnsEntry} (hd : d ∈ w.cache.entries) (he : e ∈ w.cache.entries)
    (h : d.address = e.address) : d = e :=
  inj_on_of_nodup_map hw.nodup hd he h

/-- The slot of an address is the one that a lookup looks at. -/
theorem lookup_of_mem (he : e ∈ w.cache.entries) (now : UInt32) :
    (w.cache.lookup now e.address).1 = if e.alive now then some e.domain else none := by
  rw [lookup_fst]
  by_cases halive : e.alive now = true
  · rw [if_pos halive]
    obtain ⟨d, hd⟩ := Option.isSome_iff_exists.1 (find?_isSome.2
      ⟨e, he, answers_iff.2 ⟨rfl, halive⟩⟩)
    have haddress := (answers_iff.1 (find?_some hd)).1
    rw [hd, Option.map_some, eq_of_address_eq hw (mem_of_find?_eq_some hd) he haddress]
  · rw [if_neg halive, find?_eq_none.2, Option.map_none]
    intro d hd hfound
    obtain ⟨haddress, hd'⟩ := answers_iff.1 hfound
    rw [eq_of_address_eq hw hd he haddress] at hd'
    exact halive hd'

theorem lawful_lookup_iff (wait : Nat) (address : Address) :
    w.Lawful (.lookup wait address) ↔ w.Fits (.lookup wait address) := by
  rw [Lawful, Fits]
  by_cases hpresent : w.present address = true
  · obtain ⟨e, he, rfl⟩ := present_iff.1 hpresent
    obtain ⟨s, hs, htime, hdomain, hexpires⟩ := hw.slot e he
    rw [lookup_of_mem hw he, mapping_of_present hpresent hs, hdomain]
    have hunique : ∀ s', s' ∈ w.lastStore e.address → s' = s := fun s' hs' ↦
      Option.some.inj (hs'.symm.trans hs)
    by_cases hlt : w.now + wait < s.deadline
    · rw [if_pos hlt, alive_of_lt (Nat.le_add_right _ _) ⟨htime, hexpires⟩ hlt, if_pos rfl]
      refine iff_of_true rfl fun s' hs' _ hle ↦ ?_
      rw [hunique s' hs'] at hle
      omega
    · have hahead := ahead_stamp_iff_of_le (not_lt.1 hlt)
      rw [← hexpires, ← DnsEntry.alive] at hahead
      rw [if_neg hlt]
      by_cases halive : e.alive (stamp (w.now + wait)) = true
      · have hturn := hahead.1 halive
        rw [if_pos halive]
        refine iff_of_false (Option.some_ne_none _) fun hfits ↦ ?_
        have hle := hfits s hs hpresent (not_lt.1 hlt)
        omega
      · rw [if_neg halive]
        refine iff_of_true rfl fun s' hs' _ _ ↦ ?_
        rw [hunique s' hs']
        exact not_lt.1 (mt hahead.2 halive)
  · refine iff_of_true ?_ fun s _ h ↦ absurd h hpresent
    rw [mapping, if_neg hpresent, lookup_fst, find?_eq_none.2, Option.map_none]
    intro e he hfound
    exact hpresent (present_iff.2 ⟨e, he, (answers_iff.1 hfound).1⟩)

/-! ## Runs -/

theorem nodup_store (now : UInt32) (m : Mapping) :
    ((w.cache.store now m).entries.map DnsEntry.address).Nodup := by
  rw [entries_store]
  have hchoice := (slotChoice_slotFor w.cache now m.address).own_or_other
  generalize w.cache.slotFor now m.address = i at hchoice
  rcases hchoice with ⟨e, he, haddress⟩ | hother
  · obtain ⟨hlt, hget⟩ := List.getElem?_eq_some_iff.1 he
    have hlt' : i < (w.cache.entries.map DnsEntry.address).length := by rwa [length_map]
    have hsame : (entryFor w.cache now m).address = (w.cache.entries.map DnsEntry.address)[i] := by
      rw [getElem_map, hget, haddress]
      rfl
    rw [if_neg hlt.ne, map_set, hsame, set_getElem_self]
    exact hw.nodup
  have hnew : m.address ∉ w.cache.entries.map DnsEntry.address := by
    intro hmem
    obtain ⟨d, hd, haddress⟩ := mem_map.1 hmem
    exact hother d hd haddress
  split
  · rw [map_append, map_singleton, ← concat_eq_append]
    exact hw.nodup.concat hnew
  · rw [map_set]
    exact hw.nodup.set hnew

/-- A slot that stays is not one of the address that is stored. -/
theorem address_ne_of_stays (he : w.cache.entries[j]? = some e)
    (hj : j ≠ w.cache.slotFor now m.address) :
    e.address ≠ m.address := by
  rcases (slotChoice_slotFor w.cache now m.address).own_or_other with ⟨d, hd, hown⟩ | hother
  · exact fun haddress ↦ hj (eq_of_getElem?_address hw he hd (haddress.trans hown.symm))
  · exact hother e (mem_of_getElem? he)

theorem Inv.step (event : Event) : (w.step event).Inv := by
  cases event with
  | store wait m =>
    refine ⟨nodup_store hw _ m, fun e he ↦ ?_⟩
    rcases mem_of_mem_entries_store he with rfl | ⟨j, hj, hne⟩
    · refine ⟨⟨w.now + wait, m⟩, ?_, le_rfl, rfl, ?_⟩
      · exact find?_cons_of_pos (by simp [entryFor])
      · exact (UInt32.ofNat_add (w.now + wait) (ttlMilliseconds m.ttlSeconds)).symm
    · obtain ⟨s, hs, htime, hslot⟩ := hw.slot e (mem_of_getElem? hj)
      refine ⟨s, ?_, htime.trans (Nat.le_add_right _ _), hslot⟩
      rw [lastStore_store (address_ne_of_stays hw hj hne)]
      exact hs
  | lookup wait address =>
    have hcontent := map_content_lookup w.cache (stamp (w.now + wait)) address
    refine ⟨?_, fun e he ↦ ?_⟩
    · have haddresses := congrArg (List.map Prod.fst) hcontent
      rw [map_map, map_map] at haddresses
      have hnodup := hw.nodup
      exact haddresses ▸ hnodup
    · obtain ⟨d, hd, hde⟩ := mem_map.1 (hcontent ▸ mem_map_of_mem (f := content) he)
      obtain ⟨s, hs, htime, hdomain, hexpires⟩ := hw.slot d hd
      rw [content, content, Prod.mk.injEq, Prod.mk.injEq] at hde
      refine ⟨s, ?_, htime.trans (Nat.le_add_right _ _), ?_, ?_⟩
      · rw [← hde.1]
        exact hs
      · rw [← hde.2.1, hdomain]
      · rw [← hde.2.2, hexpires]

omit hw

theorem inv_start (now : Nat) : ({ now := now } : World).Inv :=
  ⟨nodup_nil, fun _ he ↦ absurd he not_mem_nil⟩

theorem lawful_iff (hw : w.Inv) (event : Event) : w.Lawful event ↔ w.Fits event := by
  cases event with
  | store wait m => exact lawful_store_iff hw wait m
  | lookup wait address => exact lawful_lookup_iff hw wait address

end World

/-- **The cache as a map.**  From an empty cache on and at whatever time it starts, stores and
lookups keep the law of a bounded map exactly if each finds the cache as `World.Fits` says. -/
theorem lawful_iff_fits (now : Nat) (events : List Event) :
    Along World.step World.Lawful { now := now } events ↔
      Along World.step World.Fits { now := now } events :=
  along_congr (I := World.Inv) (fun _ event hw ↦ hw.step event)
    (fun _ event hw ↦ World.lawful_iff hw event) events (World.inv_start now)

/-! ## Two addresses, and a clock that wraps -/

def exampleName : DnsName where
  text := bytes "example.org"
  length_lt := by decide
  zero := by decide

def hostAddress (last : UInt8) : Address where
  family := .inet
  octets := [192, 0, 2, last]
  length_eq := rfl

/-- The second answer of a response takes the slot of the first, in a cache for 1024; and a mapping
for one second is found again 25 days later. -/
theorem store_loses_mapping :
    ¬ Along World.step World.Lawful { now := 0 }
      [.store 0 ⟨hostAddress 1, exampleName, 300⟩, .store 0 ⟨hostAddress 2, exampleName, 300⟩] ∧
    ¬ Along World.step World.Lawful { now := 0 }
      [.store 0 ⟨hostAddress 1, exampleName, 1⟩, .lookup (25 * 86400000) (hostAddress 1)] := by
  refine ⟨fun h ↦ ?_, fun h ↦ ?_⟩
  · have hkept := h.2.1 (by decide) (hostAddress 1) (by decide) exampleName (by decide)
    exact absurd hkept (by decide)
  · have hfound : (({ now := 0 } : World).step
        (.store 0 ⟨hostAddress 1, exampleName, 1⟩)).Lawful _ := h.2.1
    exact absurd hfound (by rw [World.Lawful]; decide)

end ClambHook.IpStack.Dns
