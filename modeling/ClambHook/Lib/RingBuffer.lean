import Mathlib.Data.List.Basic

/-!
# Ring buffers

A ring buffer keeps the last `capacity` elements that were pushed.  `head` is the slot that the next
push overwrites; the `size` elements in front of it, around the end of the buffer, are the content.

`Holds r xs` is the abstraction: the ring is what is left of the history `xs`.
-/

set_option autoImplicit false

/-- A ring buffer with at least one slot. -/
structure RingBuffer (α : Type*) where
  slots : List α
  head : Nat
  size : Nat
  head_lt : head < slots.length
  size_le : size ≤ slots.length

namespace RingBuffer

open List

variable {α : Type*}

/-- An empty ring; `blank` is what its slots are filled with. -/
def create (capacity : Nat) (blank : α) (h : 0 < capacity) : RingBuffer α where
  slots := List.replicate capacity blank
  head := 0
  size := 0
  head_lt := by simpa using h
  size_le := Nat.zero_le _

def capacity (r : RingBuffer α) : Nat := r.slots.length

theorem capacity_pos (r : RingBuffer α) : 0 < r.capacity := Nat.zero_lt_of_lt r.head_lt

/-- The slot of the oldest element. -/
def oldest (r : RingBuffer α) : Nat :=
  (r.head + r.capacity - r.size) % r.capacity

/-- The slot of the element with `offset` older ones in front of it. -/
def slot (r : RingBuffer α) (offset : Nat) : Fin r.slots.length :=
  ⟨(r.oldest + offset) % r.capacity, Nat.mod_lt _ r.capacity_pos⟩

/-- The content, the oldest element first. -/
def toList (r : RingBuffer α) : List α :=
  (List.range r.size).map fun offset ↦ r.slots.get (r.slot offset)

/-- Adds an element, over the oldest one when the ring is full. -/
def push (r : RingBuffer α) (a : α) : RingBuffer α where
  slots := r.slots.set r.head a
  head := (r.head + 1) % r.capacity
  size := if r.size < r.capacity then r.size + 1 else r.size
  head_lt := by
    rw [length_set]
    exact Nat.mod_lt _ r.capacity_pos
  size_le := by
    have := r.size_le
    rw [length_set, capacity]
    split <;> omega

/-! ## Positions around the ring -/

/-- A number below twice the modulus wraps around at most once. -/
theorem mod_of_lt_two_mul {n c : Nat} (h : n < 2 * c) : n % c = if n < c then n else n - c := by
  split
  · exact Nat.mod_eq_of_lt ‹_›
  · rw [Nat.mod_eq_sub_mod (by omega), Nat.mod_eq_of_lt (by omega)]

variable (r : RingBuffer α)

theorem oldest_eq :
    r.oldest = if r.head < r.size then r.head + r.capacity - r.size else r.head - r.size := by
  have h₁ := r.head_lt
  have h₂ := r.size_le
  rw [oldest, capacity, mod_of_lt_two_mul (by omega)]
  split_ifs <;> omega

theorem slot_eq (offset : Nat) (h : offset < r.capacity) :
    (r.slot offset).val = if r.oldest + offset < r.capacity then r.oldest + offset
      else r.oldest + offset - r.capacity := by
  have holdest : r.oldest < r.capacity := Nat.mod_lt _ r.capacity_pos
  exact mod_of_lt_two_mul (by omega)

@[simp] theorem capacity_push (a : α) : (r.push a).capacity = r.capacity :=
  length_set

@[simp] theorem length_toList : r.toList.length = r.size := by
  rw [toList, length_map, length_range]

variable {i : Nat}

theorem getElem?_toList (h : i < r.size) :
    r.toList[i]? = r.slots[(r.slot i).val]? := by
  rw [toList, getElem?_map, getElem?_range h, Option.map_some, get_eq_getElem,
    getElem?_eq_getElem (r.slot i).isLt]

/-! ## Pushing -/

theorem head_push (a : α) :
    (r.push a).head = if r.head + 1 < r.capacity then r.head + 1 else 0 := by
  have h : r.head < r.capacity := r.head_lt
  have hmod : (r.push a).head = (r.head + 1) % r.capacity := rfl
  rw [hmod, mod_of_lt_two_mul (by omega)]
  split <;> omega

theorem size_push (a : α) :
    (r.push a).size = if r.size < r.capacity then r.size + 1 else r.size := rfl

/-- After a push, the content starts behind the elements that were overwritten, and the head that
the element went to is its end. -/
theorem slot_push (r : RingBuffer α) (a : α) (hi : i < (r.push a).size) :
    ((r.push a).slot i).val =
      if i + (r.size + 1 - r.capacity) < r.size then
        (r.slot (i + (r.size + 1 - r.capacity))).val
      else r.head := by
  have h₁ : r.head < r.capacity := r.head_lt
  have h₂ : r.size ≤ r.capacity := r.size_le
  have hsize := r.size_push a
  have hhead := r.head_push a
  have hcap : i < r.capacity := by split at hsize <;> omega
  have hnew : ((r.push a).slot i).val = _ := (r.push a).slot_eq i (by simpa using hcap)
  have holdest : (r.push a).oldest = _ := (r.push a).oldest_eq
  rw [capacity_push] at hnew holdest
  split
  · have hold := r.slot_eq (i + (r.size + 1 - r.capacity)) (by omega)
    have holdest' := r.oldest_eq
    split_ifs at * <;> omega
  · split_ifs at * <;> omega

/-- The slot that a push writes is not among those of the elements that stay. -/
theorem slot_ne_head (r : RingBuffer α) (hi : i < r.size)
    (hroom : r.size < r.capacity ∨ 0 < i) : (r.slot i).val ≠ r.head := by
  have h₁ : r.head < r.capacity := r.head_lt
  have h₂ : r.size ≤ r.capacity := r.size_le
  have hslot := r.slot_eq i (by omega)
  have holdest := r.oldest_eq
  split_ifs at * <;> omega

theorem toList_push (a : α) :
    (r.push a).toList = (r.toList ++ [a]).drop (r.size + 1 - r.capacity) := by
  have h₂ : r.size ≤ r.capacity := r.size_le
  have hsize := r.size_push a
  refine ext_getElem? fun i ↦ ?_
  rw [getElem?_drop]
  by_cases hi : i < (r.push a).size
  · rw [getElem?_toList _ hi, r.slot_push a hi]
    have hslots : (r.push a).slots = r.slots.set r.head a := rfl
    rw [hslots, Nat.add_comm (r.size + 1 - r.capacity) i]
    split
    · rename_i hold
      have hne := r.slot_ne_head hold (by omega)
      rw [getElem?_set_ne hne.symm, getElem?_append_left (by simpa using hold),
        getElem?_toList _ hold]
    · rename_i hnew
      have hlast : i + (r.size + 1 - r.capacity) = r.toList.length := by
        rw [length_toList]
        split at hsize <;> omega
      rw [getElem?_set_self r.head_lt, hlast, getElem?_concat_length]
  · rw [getElem?_eq_none (by simpa using hi), getElem?_eq_none]
    simp only [length_append, length_toList, length_singleton]
    split at hsize <;> omega

/-! ## The history of a ring -/

/-- The ring is what is left of the pushed elements `xs`. -/
def Holds (r : RingBuffer α) (xs : List α) : Prop :=
  r.toList = xs.drop (xs.length - r.capacity)

theorem holds_create (capacity : Nat) (blank : α) (h : 0 < capacity) :
    (create capacity blank h).Holds [] := by
  rw [Holds, drop_nil]
  rfl

theorem Holds.size_eq {r : RingBuffer α} {xs : List α} (h : r.Holds xs) :
    r.size = min xs.length r.capacity := by
  rw [← length_toList, h, length_drop]
  omega

theorem Holds.push {r : RingBuffer α} {xs : List α} (h : r.Holds xs) (a : α) :
    (r.push a).Holds (xs ++ [a]) := by
  have hsize := h.size_eq
  rw [Holds, toList_push, h, capacity_push, ← drop_append_of_le_length (by omega),
    drop_drop]
  congr 1
  simp only [length_append, length_singleton]
  omega

end RingBuffer
