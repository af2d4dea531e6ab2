import ClambHook.Basic
import ClambHook.Lib.Queue

/-!
# Byte queues of TCP flows

`ip_stack.c` and `tunnel_stack.c` keep the bytes in transit between a socket and lwIP in queues that
grow up to one mebibyte.  Both reserve room with the same function, once under each name; they
differ in nothing.

The source does its arithmetic in `size_t`; its callers pass at most 65535 bytes at a time, so that
nothing wraps.
-/

namespace ClambHook.Net

open CString Window List

/-! ## What lwIP and sockets answer -/

/-- The results of lwIP calls that matter here. -/
inductive Err where
  | ok
  | mem
  | abrt
  | other
deriving DecidableEq, Repr

/-- The result of `send`; `wrote n` takes `n + 1` bytes, or all there are. -/
inductive SendResult where
  | wrote (n : Nat)
  | interrupted
  | wouldBlock
  | failed
deriving DecidableEq, Repr

/-- The result of `recv`; no bytes is the end of the stream. -/
inductive RecvResult where
  | data (bs : Bytes)
  | interrupted
  | wouldBlock
  | failed
deriving DecidableEq, Repr

/-! ## The queues -/

/-- The loop that finds a new capacity: doubling, up to the limit.  `none` is the failure when the
limit has been reached, or when the bound on the rounds runs out. -/
def growCapacity (limit : Nat) : Nat → Nat → Nat → Option Nat
  | 0, _, _ => none
  | fuel + 1, grown, needed =>
    if needed ≤ grown then some grown
    else
      let next := if grown > limit / 2 then limit else grown * 2
      if next = grown then none else growCapacity limit fuel next needed

/-- `ch_ip_stack_buffer_reserve` and `ch_tunnel_buffer_reserve`: makes room for `amount` bytes
behind the window.  `alloc` is the outcome of `realloc`. -/
def bufferReserve (limit initial : Nat) (q : Queue UInt8) (amount : Nat) (alloc : Bool) :
    Option (Queue UInt8) :=
  if amount = 0 then some q
  else if q.length > limit - amount then none
  else if q.length + amount ≤ q.capacity - q.offset then some q
  else if q.offset > 0 ∧ q.length > 0 ∧ q.length + amount ≤ q.capacity then some q.compact
  else
    match growCapacity limit 64 (if q.capacity = 0 then initial else q.capacity)
        (q.length + amount) with
    | none => none
    | some grown =>
      if !alloc then none
      else some (q.grow (grown - q.capacity) 0).compact

/-- `CH_IP_STACK_TCP_QUEUE_LIMIT` and `CH_TUNNEL_BUFFER_LIMIT`. -/
def queueLimit : Nat := 1024 * 1024

def ipStackBufferReserve : Queue UInt8 → Nat → Bool → Option (Queue UInt8) :=
  bufferReserve queueLimit 16384

def tunnelBufferReserve : Queue UInt8 → Nat → Bool → Option (Queue UInt8) :=
  bufferReserve queueLimit 16384

/-- `ch_tunnel_buffer_append`. -/
def tunnelBufferAppend (q : Queue UInt8) (bs : Bytes) (alloc : Bool) : Option (Queue UInt8) :=
  (tunnelBufferReserve q bs.length alloc).map fun q ↦ q.write bs

/-! ## What reserving room does -/

variable {limit : Nat}

theorem le_of_growCapacity : ∀ {fuel grown needed capacity : Nat},
    growCapacity limit fuel grown needed = some capacity → needed ≤ capacity
  | fuel + 1, grown, needed, capacity, h => by
    rw [growCapacity] at h
    by_cases hle : needed ≤ grown
    · rw [if_pos hle] at h
      exact Option.some.inj h ▸ hle
    · simp only [if_neg hle, Option.ite_none_left_eq_some] at h
      exact le_of_growCapacity h.2

variable {initial amount : Nat} {q q' : Queue UInt8} {alloc : Bool}

/-- Reserving room keeps the bytes of the queue, and the room is there: what is written behind the
window stays inside the capacity. -/
theorem bufferReserve_spec (h : bufferReserve limit initial q amount alloc = some q') :
    q'.content = q.content ∧ q'.offset + q'.length + amount ≤ q'.capacity := by
  have hq := q.fits
  rw [bufferReserve] at h
  split at h
  · cases h
    exact ⟨rfl, by omega⟩
  split at h
  · cases h
  split at h
  · cases h
    exact ⟨rfl, by omega⟩
  split at h
  · cases h
    refine ⟨q.content_compact, ?_⟩
    simp only [Queue.compact]
    omega
  split at h
  · cases h
  rename_i grown hgrown
  have hle := le_of_growCapacity hgrown
  cases alloc with
  | false => cases h
  | true =>
    cases h
    refine ⟨by rw [Queue.content_compact, Queue.content_grow], ?_⟩
    simp only [Queue.compact, Queue.grow]
    omega

/-- What is written into reserved room comes last. -/
theorem content_write_of_reserve {bs : Bytes}
    (h : bufferReserve limit initial q bs.length alloc = some q') :
    (q'.write bs).content = q.content ++ bs := by
  obtain ⟨hcontent, hroom⟩ := bufferReserve_spec h
  rw [Queue.content_write hroom, hcontent]

/-- The loop finds a capacity when the limit allows one and `fuel` doublings lead to the limit. -/
theorem exists_growCapacity {needed : Nat} (hneeded : needed ≤ limit) :
    ∀ (fuel grown : Nat), grown ≤ limit → limit < grown * 2 ^ fuel →
      ∃ capacity, growCapacity limit (fuel + 1) grown needed = some capacity ∧ capacity ≤ limit
  | fuel, grown, hgrown, hfuel => by
    rw [growCapacity]
    by_cases hle : needed ≤ grown
    · exact ⟨grown, by rw [if_pos hle], hgrown⟩
    rw [if_neg hle]
    cases fuel with
    | zero => omega
    | succ fuel =>
      rw [Nat.pow_succ] at hfuel
      by_cases hhalf : grown > limit / 2
      · -- The next capacity is the limit itself.
        refine ⟨limit, ?_, Nat.le_refl _⟩
        dsimp only
        rw [if_pos hhalf, if_neg (by omega), growCapacity, if_pos hneeded]
      · have hpos : 0 < grown := by
          rcases Nat.eq_zero_or_pos grown with h | h
          · simp [h] at hfuel
          · exact h
        have hfuel' : limit < grown * 2 * 2 ^ fuel := by
          rw [Nat.mul_assoc, Nat.mul_comm 2]; exact hfuel
        obtain ⟨capacity, hcapacity, hlimit⟩ :=
          exists_growCapacity hneeded fuel (grown * 2) (by omega) hfuel'
        refine ⟨capacity, ?_, hlimit⟩
        dsimp only
        rw [if_neg hhalf, if_neg (by omega), hcapacity]

/-- With memory, there is room for everything that keeps the queue within its limit; and the
capacity keeps within the limit too. -/
theorem exists_bufferReserve
    (hcapacity : q.capacity ≤ queueLimit) (hamount : q.length + amount ≤ queueLimit) :
    ∃ q', bufferReserve queueLimit 16384 q amount true = some q' ∧ q'.capacity ≤ queueLimit := by
  rw [bufferReserve]
  split
  · exact ⟨q, rfl, hcapacity⟩
  rw [if_neg (by omega)]
  split
  · exact ⟨q, rfl, hcapacity⟩
  split
  · exact ⟨q.compact, rfl, hcapacity⟩
  obtain ⟨grown, hgrown, hlimit⟩ := exists_growCapacity hamount 63
    (if q.capacity = 0 then 16384 else q.capacity) (by split <;> simp_all [queueLimit])
    (by rw [queueLimit]; split <;> omega)
  rw [hgrown]
  refine ⟨_, rfl, ?_⟩
  simp only [Queue.compact, Queue.grow]
  omega

end ClambHook.Net
