import Mathlib.Data.List.TakeDrop

/-!
# The live window of a buffer

A queue in a flat buffer is a window: `len` elements from the index `off` on.  The lemmas say what
the usual operations do to the contents of the window: copying elements in behind it (`writeAt`),
moving it to the front of the buffer (`moveToFront`), and taking elements off its front, which only
moves `off`.
-/

set_option autoImplicit false

namespace Window

open List

variable {α : Type*}

/-- The `len` elements of a buffer from the index `off` on. -/
def window (buf : List α) (off len : Nat) : List α :=
  (buf.drop off).take len

/-- `memcpy` of `xs` to an index.  The buffer keeps its length: nothing is kept of `xs` beyond its
end. -/
def writeAt : List α → Nat → List α → List α
  | [], _, _ => []
  | b :: buf, 0, [] => b :: buf
  | _ :: buf, 0, x :: xs => x :: writeAt buf 0 xs
  | b :: buf, n + 1, xs => b :: writeAt buf n xs

/-- `memmove` of a window to the index zero. -/
def moveToFront (buf : List α) (off len : Nat) : List α :=
  writeAt buf 0 (window buf off len)

variable {buf xs : List α} {off len n : Nat}

theorem length_window (h : off + len ≤ buf.length) : (window buf off len).length = len := by
  simp only [window, length_take, length_drop]
  omega

@[simp] theorem window_zero : window buf off 0 = [] := by
  simp [window]

theorem length_writeAt : (writeAt buf n xs).length = buf.length := by
  fun_induction writeAt <;> simp_all

theorem length_moveToFront : (moveToFront buf off len).length = buf.length :=
  length_writeAt

theorem writeAt_eq (h : n + xs.length ≤ buf.length) :
    writeAt buf n xs = buf.take n ++ xs ++ buf.drop (n + xs.length) := by
  fun_induction writeAt with
  | case1 => simp_all
  | case2 => simp
  | case3 _ _ _ _ ih => simpa using ih (by simpa using h)
  | case4 b buf n xs ih =>
    have hroom : n + xs.length ≤ buf.length := by
      rw [length_cons] at h
      omega
    rw [ih hroom, Nat.succ_add]
    rfl

/-- Elements copied in right behind the window become its end, where the buffer has room for
them. -/
theorem window_writeAt (h : off + len + xs.length ≤ buf.length) :
    window (writeAt buf (off + len) xs) off (len + xs.length) = window buf off len ++ xs := by
  have htake : (buf.take (off + len)).drop off = window buf off len := by
    rw [drop_take, window, Nat.add_sub_cancel_left]
  have hlen : ((buf.take (off + len)).drop off ++ xs).length = len + xs.length := by
    rw [htake, length_append, length_window (by omega)]
  have hoff : off ≤ (buf.take (off + len)).length := by
    rw [length_take]
    omega
  rw [window, writeAt_eq h, append_assoc, drop_append_of_le_length hoff, ← append_assoc,
    ← hlen, take_left, htake]

/-- Taking `n` elements off the front of the window. -/
theorem window_drop :
    window buf (off + n) (len - n) = (window buf off len).drop n := by
  rw [window, window, drop_take, drop_drop]

theorem window_take (h : n ≤ len) : window buf off n = (window buf off len).take n := by
  rw [window, window, take_take, Nat.min_eq_left h]

variable (h : off + len ≤ buf.length)

include h

theorem window_moveToFront :
    window (moveToFront buf off len) 0 len = window buf off len := by
  have hw := length_window h
  rw [moveToFront, writeAt_eq (by omega), window, take_zero, nil_append, drop_zero,
    take_append_of_le_length (Nat.le_of_eq hw.symm),
    take_of_length_le (Nat.le_of_eq hw)]

/-- Growing the buffer does not change the window. -/
theorem window_append (ys : List α) :
    window (buf ++ ys) off len = window buf off len := by
  rw [window, window, drop_append_of_le_length (by omega), take_append_of_le_length]
  rw [length_drop]
  omega

end Window
