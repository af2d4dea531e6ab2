import ClambHook.Events.Log
import Mathlib.Data.List.Induction

/-!
# What the event ring keeps

However many events are appended, the ring is the end of the log of all of them (`keeps_run`).
`ch_event_ring_since` takes for granted that the clocks reach back to the position that is asked
for: if the first event ever appended has a later clock, the answer is called incomplete although
nothing was overwritten.
-/

namespace ClambHook.Events

open List

/-- Everything that was appended, with the numbers it got. -/
def logOf (es : List NewEvent) : List Event :=
  es.mapIdx fun i e ↦ e.copy (i + 1)

/-- The clocks count up from the first one, and are 64-bit numbers. -/
structure Clocks (first : Nat) (es : List NewEvent) : Prop where
  consecutive : ∀ i e, es[i]? = some e → e.lamport = first + i
  bounded : first + es.length ≤ 2 ^ 64

/-- The ring has the end of the log, and answers from it. -/
structure Keeps (capacity : Nat) (es : List NewEvent) (r : EventRing) : Prop where
  total : r.total = es.length
  snapshot : r.snapshot = (logOf es).drop (es.length - capacity)
  sequences : r.snapshot.map (·.sequence) =
    List.range' (es.length - capacity + 1) (min es.length capacity)
  since : ∀ first since, Clocks first es → since < 2 ^ 64 →
    (r.since since).1 = r.snapshot.filter (fun e ↦ decide (since < e.lamport)) ∧
    (capacity < es.length ∨ first ≤ since + 1 →
      ((r.since since).2 = false ↔
        ∃ e ∈ (logOf es).take (es.length - capacity), since < e.lamport))

variable {es : List NewEvent} {first : Nat}

theorem length_logOf (es : List NewEvent) : (logOf es).length = es.length :=
  length_mapIdx

theorem holds_run {capacity : Nat} (h : 0 < capacity) (es : List NewEvent) :
    (es.foldl EventRing.append (.create capacity h)).ring.Holds (logOf es) ∧
      (es.foldl EventRing.append (.create capacity h)).total = es.length ∧
      (es.foldl EventRing.append (.create capacity h)).ring.capacity = capacity := by
  induction es using List.reverseRecOn with
  | nil => exact ⟨RingBuffer.holds_create capacity _ h, rfl, length_replicate⟩
  | append_singleton es e ih =>
    obtain ⟨hholds, htotal, hcapacity⟩ := ih
    rw [foldl_concat, logOf, mapIdx_concat, ← logOf, ← htotal]
    exact ⟨hholds.push _, by simp [EventRing.append, htotal],
      (RingBuffer.capacity_push _ _).trans hcapacity⟩

theorem sequences_logOf (es : List NewEvent) :
    (logOf es).map (·.sequence) = List.range' 1 es.length := by
  refine ext_getElem (by simp [length_logOf]) fun i _ _ ↦ ?_
  simp [logOf, NewEvent.copy, Nat.add_comm]

theorem Clocks.lamport_eq (h : Clocks first es) {i : Nat} {e : Event}
    (he : (logOf es)[i]? = some e) : e.lamport = first + i ∧ i < es.length := by
  rw [logOf, List.getElem?_mapIdx, Option.map_eq_some_iff] at he
  obtain ⟨new, hnew, rfl⟩ := he
  exact ⟨h.consecutive i new hnew, (List.getElem?_eq_some_iff.1 hnew).1⟩

/-- The clocks in front of a position are those below its own. -/
theorem Clocks.exists_take_iff (h : Clocks first es) {k since : Nat} (hk : k ≤ es.length) :
    (∃ e ∈ (logOf es).take k, since < e.lamport) ↔ 0 < k ∧ since + 1 < first + k := by
  constructor
  · rintro ⟨e, he, hlt⟩
    obtain ⟨i, hi⟩ := List.getElem?_of_mem he
    have hik := (List.getElem?_eq_some_iff.1 hi).1
    rw [length_take] at hik
    rw [List.getElem?_take_of_lt (by omega)] at hi
    have := (h.lamport_eq hi).1
    omega
  · rintro ⟨hpos, hlt⟩
    have hlast : k - 1 < (logOf es).length := by rw [length_logOf]; omega
    have hget := getElem?_eq_getElem hlast
    refine ⟨_, mem_of_getElem? ((getElem?_take_of_lt (by omega)).trans hget), ?_⟩
    have := (h.lamport_eq hget).1
    omega

/-- **The ring keeps the last events**, and a query from a clock on is answered from them.  It is
called incomplete exactly if a later clock was overwritten, unless the clocks begin behind the
query. -/
theorem keeps_run (spare : Nat) (es : List NewEvent) :
    Keeps (spare + 1) es (es.foldl EventRing.append (.create (spare + 1) spare.succ_pos)) := by
  obtain ⟨hholds, htotal, hcapacity⟩ := holds_run spare.succ_pos es
  generalize es.foldl EventRing.append (.create (spare + 1) spare.succ_pos) = r at *
  have hsnapshot : r.snapshot = (logOf es).drop (es.length - (spare + 1)) := by
    rw [EventRing.snapshot, hholds, length_logOf, hcapacity]
  refine ⟨htotal, hsnapshot, ?_, fun first since hclocks hsince ↦ ?_⟩
  · rw [hsnapshot, map_drop, sequences_logOf, drop_range']
    congr 1 <;> omega
  rw [hclocks.exists_take_iff (Nat.sub_le _ _), EventRing.since]
  cases hcontent : r.snapshot with
  | nil =>
    have hempty := congrArg List.length (hsnapshot.symm.trans hcontent)
    rw [length_drop, length_logOf, length_nil] at hempty
    exact ⟨rfl, fun _ ↦ iff_of_false Bool.noConfusion (by omega)⟩
  | cons oldest rest =>
    have holdest : (logOf es)[es.length - (spare + 1)]? = some oldest := by
      rw [← head?_drop, ← hsnapshot, hcontent]
      rfl
    obtain ⟨hlamport, hlt⟩ := hclocks.lamport_eq holdest
    have hbounded := hclocks.bounded
    refine ⟨rfl, fun hreach ↦ ?_⟩
    simp only [Bool.or_eq_false_iff, decide_eq_false_iff_not]
    omega

/-- One event with the clock 5: nothing was overwritten, and the answer is called incomplete. -/
theorem late_clock_incomplete : Clocks 5 [{ lamport := 5 }] ∧
    (((EventRing.create 1 one_pos).append { lamport := 5 }).since 0).2 = false ∧
    (logOf [{ lamport := 5 }]).take (1 - 1) = [] := by
  refine ⟨⟨fun i e h ↦ ?_, by decide⟩, rfl, rfl⟩
  cases i with
  | zero => cases h; rfl
  | succ i => cases h

end ClambHook.Events
