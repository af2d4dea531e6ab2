import Mathlib.Data.List.Basic

/-!
# Ranges of a buffer

A buffer is a list; `slice` reads a range of it and `splice` overwrites one (`memcpy` into the
buffer).  A splice shows in the ranges that it meets and in no other: every fact about the two is
read off element by element, from `getElem?_splice`.
-/

set_option autoImplicit false

namespace ByteRange

open List

variable {α : Type*}

/-- The `count` elements from `offset` on. -/
def slice (offset count : Nat) (l : List α) : List α :=
  (l.drop offset).take count

/-- The buffer with `new` from `offset` on. -/
def splice (offset : Nat) (new l : List α) : List α :=
  l.take offset ++ new ++ l.drop (offset + new.length)

theorem getElem?_slice (offset count i : Nat) (l : List α) :
    (slice offset count l)[i]? = if i < count then l[offset + i]? else none := by
  rw [slice, getElem?_take, getElem?_drop]

theorem length_slice {offset count : Nat} {l : List α} (h : offset + count ≤ l.length) :
    (slice offset count l).length = count := by
  rw [slice, length_take, length_drop]
  omega

theorem slice_congr {offset count : Nat} {l l' : List α}
    (h : ∀ i, offset ≤ i → i < offset + count → l'[i]? = l[i]?) :
    slice offset count l' = slice offset count l := by
  refine ext_getElem? fun i ↦ ?_
  rw [getElem?_slice, getElem?_slice]
  split
  · exact h _ (by omega) (by omega)
  · rfl

section

variable {offset : Nat} {new l : List α}

variable (h : offset + new.length ≤ l.length)

include h

@[simp] theorem length_splice :
    (splice offset new l).length = l.length := by
  simp only [splice, length_append, length_take, length_drop]
  omega

theorem getElem?_splice (i : Nat) :
    (splice offset new l)[i]? =
      if offset ≤ i ∧ i < offset + new.length then new[i - offset]? else l[i]? := by
  have hoffset : (l.take offset).length = offset := by
    rw [length_take]
    omega
  rw [splice, append_assoc, getElem?_append, hoffset]
  split
  · next hi =>
    rw [if_neg (by omega), getElem?_take, if_pos hi]
  next hi =>
  rw [getElem?_append]
  split
  · rw [if_pos (by omega)]
  · rw [if_neg (by omega), getElem?_drop]
    congr 1
    omega

theorem slice_splice_self :
    slice offset new.length (splice offset new l) = new := by
  refine ext_getElem? fun i ↦ ?_
  rw [getElem?_slice, getElem?_splice h]
  split
  · rw [if_pos (by omega), Nat.add_sub_cancel_left]
  · rw [getElem?_eq_none (by omega)]

variable {a : Nat}

theorem slice_splice_of_disjoint {n : Nat} (hdisjoint : a + n ≤ offset ∨ offset + new.length ≤ a) :
    slice a n (splice offset new l) = slice a n l := by
  refine ext_getElem? fun i ↦ ?_
  rw [getElem?_slice, getElem?_slice, getElem?_splice h]
  split
  · rw [if_neg (by omega)]
  · rfl

theorem getElem?_splice_of_disjoint {i : Nat} (hdisjoint : i < offset ∨ offset + new.length ≤ i) :
    (splice offset new l)[i]? = l[i]? := by
  rw [getElem?_splice h, if_neg (by omega)]

theorem drop_splice (ha : a ≤ offset) :
    (splice offset new l).drop a = splice (offset - a) new (l.drop a) := by
  refine ext_getElem? fun i ↦ ?_
  rw [getElem?_drop, getElem?_splice h, getElem?_splice (by rw [length_drop]; omega),
    getElem?_drop]
  split
  · rw [if_pos (by omega)]
    congr 1
    omega
  · rw [if_neg (by omega)]

theorem take_splice (ha : offset + new.length ≤ a) :
    (splice offset new l).take a = splice offset new (l.take a) := by
  refine ext_getElem? fun i ↦ ?_
  rw [getElem?_take, getElem?_splice h, getElem?_splice (by rw [length_take]; omega),
    getElem?_take]
  by_cases hi : i < a
  · rw [if_pos hi, if_pos hi]
  · rw [if_neg hi, if_neg (by omega), if_neg hi]

theorem splice_splice_self {new' : List α} (hlength : new'.length = new.length) :
    splice offset new' (splice offset new l) = splice offset new' l := by
  refine ext_getElem? fun i ↦ ?_
  have h' : offset + new'.length ≤ (splice offset new l).length := by
    rw [length_splice h]
    omega
  rw [getElem?_splice h', getElem?_splice h, getElem?_splice (hlength ▸ h)]
  split
  · rfl
  · rw [if_neg (by omega)]

end

end ByteRange
