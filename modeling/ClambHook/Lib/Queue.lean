import ClambHook.Lib.Window

/-!
# Queues in flat buffers

A queue is a buffer of a capacity, with a window that lies inside it.  `content` is the abstract
queue; each operation comes with the lemma that says what it does to `content`.
-/

set_option autoImplicit false

namespace Window

open List

variable {α : Type*}

/-- A buffer of a capacity, and a window inside it. -/
structure Queue (α : Type*) where
  buffer : List α
  capacity : Nat
  offset : Nat
  length : Nat
  size : buffer.length = capacity
  fits : offset + length ≤ capacity
deriving DecidableEq

namespace Queue

/-- The elements of the queue, the oldest first. -/
def content (q : Queue α) : List α :=
  window q.buffer q.offset q.length

/-- A queue without a buffer. -/
def empty : Queue α := ⟨[], 0, 0, 0, rfl, Nat.le_refl 0⟩

variable (q : Queue α)

theorem inside : q.offset + q.length ≤ q.buffer.length :=
  q.size.symm ▸ q.fits

theorem length_content : q.content.length = q.length :=
  length_window q.inside

theorem content_eq_nil {q : Queue α} : q.content = [] ↔ q.length = 0 := by
  rw [← length_eq_zero_iff, length_content]

/-- Copies elements in behind the window, if the capacity has room for them there. -/
def write (q : Queue α) (xs : List α) : Queue α :=
  if h : q.offset + q.length + xs.length ≤ q.capacity then
    { q with
      buffer := writeAt q.buffer (q.offset + q.length) xs
      length := q.length + xs.length
      size := length_writeAt.trans q.size
      fits := Nat.add_assoc q.offset q.length xs.length ▸ h }
  else q

theorem content_write {q : Queue α} {xs : List α}
    (h : q.offset + q.length + xs.length ≤ q.capacity) :
    (q.write xs).content = q.content ++ xs := by
  rw [write, dif_pos h]
  exact window_writeAt (q.size.symm ▸ h)

theorem capacity_write (xs : List α) : (q.write xs).capacity = q.capacity := by
  rw [write]
  split <;> rfl

/-- Takes at most `n` elements off the front. -/
def advance (q : Queue α) (n : Nat) : Queue α where
  buffer := q.buffer
  capacity := q.capacity
  offset := q.offset + min n q.length
  length := q.length - min n q.length
  size := q.size
  fits := by
    have h := q.fits
    omega

@[simp] theorem content_advance (n : Nat) :
    (q.advance n).content = q.content.drop n := by
  have h : (q.advance n).content = q.content.drop (min n q.length) := window_drop
  rw [h]
  rcases Nat.le_total n q.length with hn | hn
  · rw [Nat.min_eq_left hn]
  · have hlen := q.length_content
    rw [Nat.min_eq_right hn, drop_eq_nil_of_le (by omega), drop_eq_nil_of_le (by omega)]

/-- Moves the window to the front of the buffer. -/
def compact (q : Queue α) : Queue α where
  buffer := moveToFront q.buffer q.offset q.length
  capacity := q.capacity
  offset := 0
  length := q.length
  size := length_moveToFront.trans q.size
  fits := by
    have h := q.fits
    omega

@[simp] theorem content_compact : q.compact.content = q.content :=
  window_moveToFront q.inside

/-- Lets the window of an empty queue start over. -/
def rewind (q : Queue α) : Queue α :=
  if q.length = 0 then ⟨q.buffer, q.capacity, 0, 0, q.size, Nat.zero_le _⟩ else q

@[simp] theorem content_rewind : q.rewind.content = q.content := by
  rw [rewind]
  split
  · rename_i h
    rw [content_eq_nil.2 h]
    exact window_zero
  · rfl

/-- Appends room for `n` elements to the buffer. -/
def grow (q : Queue α) (n : Nat) (x : α) : Queue α where
  buffer := q.buffer ++ replicate n x
  capacity := q.capacity + n
  offset := q.offset
  length := q.length
  size := by rw [length_append, length_replicate, q.size]
  fits := Nat.le_add_right_of_le q.fits

@[simp] theorem content_grow (n : Nat) (x : α) : (q.grow n x).content = q.content :=
  window_append q.inside _

end Queue

end Window
