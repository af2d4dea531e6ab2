import ClambHook.Lib.ByteRange
import Mathlib.Data.Nat.ModEq

/-!
# The Internet checksum

The sum of the 16-bit words of some bytes, with the carries folded back in, and its complement.  A
sum is valid when the complement is zero.  The word sum is kept in 32 bits, as the usual code does,
so it is exact for up to 65536 words.

The one fact that is needed of it is `finish_add_finish`: a field of zeros that is overwritten by
the checksum makes the sum valid.
-/

set_option autoImplicit false

namespace InternetChecksum

open ByteRange List

/-- The sum of the big-endian words; an odd byte at the end is the high byte of a word. -/
def wordSum : List UInt8 → Nat
  | [] => 0
  | [a] => 256 * a.toNat
  | a :: b :: bytes => 256 * a.toNat + b.toNat + wordSum bytes

/-- The loop that folds the carries, in a number of rounds that is large enough. -/
def foldCarry : Nat → Nat → Nat
  | 0, sum => sum
  | rounds + 1, sum =>
    if sum / 65536 = 0 then sum else foldCarry rounds (sum % 65536 + sum / 65536)

/-- The complement of a sum, in 16 bits. -/
def finish (sum : Nat) : Nat :=
  65535 - foldCarry sum sum

/-- The two bytes of a word. -/
def wordBytes (word : Nat) : List UInt8 :=
  [(word / 256).toUInt8, (word % 256).toUInt8]

@[simp] theorem length_wordBytes (word : Nat) : (wordBytes word).length = 2 := rfl

/-! ## Sums -/

theorem wordSum_append {front : List UInt8} (back : List UInt8) (h : front.length % 2 = 0) :
    wordSum (front ++ back) = wordSum front + wordSum back := by
  induction front using wordSum.induct with
  | case1 => simp [wordSum]
  | case2 a => simp at h
  | case3 a b bytes ih =>
    simp only [length_cons] at h
    rw [cons_append, cons_append, wordSum, wordSum, ih (by omega)]
    omega

theorem wordSum_wordBytes {word : Nat} (h : word < 65536) : wordSum (wordBytes word) = word := by
  simp only [wordBytes, wordSum, UInt8.toNat_ofNat']
  omega

theorem wordSum_le (bytes : List UInt8) : wordSum bytes ≤ 65535 * ((bytes.length + 1) / 2) := by
  induction bytes using wordSum.induct with
  | case1 => simp [wordSum]
  | case2 a =>
    have ha := a.toNat_lt
    simp only [wordSum, length_cons, length_nil]
    omega
  | case3 a b bytes ih =>
    have ha := a.toNat_lt
    have hb := b.toNat_lt
    simp only [wordSum, length_cons]
    omega

/-- A word in a field at an even offset adds to the sum of the bytes with zeros there. -/
theorem wordSum_splice {bytes : List UInt8} {offset word : Nat} (heven : offset % 2 = 0)
    (hlength : offset + 2 ≤ bytes.length) (hword : word < 65536) :
    wordSum (splice offset (wordBytes word) bytes) =
      wordSum (splice offset (wordBytes 0) bytes) + word := by
  have htake : (bytes.take offset).length % 2 = 0 := by
    rw [length_take]
    omega
  have hsplice : ∀ w < 65536, wordSum (splice offset (wordBytes w) bytes) =
      wordSum (bytes.take offset) + w + wordSum (bytes.drop (offset + 2)) := by
    intro w hw
    rw [splice, append_assoc, wordSum_append _ htake,
      wordSum_append _ (length_wordBytes w ▸ Nat.mod_self 2), wordSum_wordBytes hw,
      length_wordBytes, Nat.add_assoc]
  rw [hsplice word hword, hsplice 0 (by omega)]
  omega

/-! ## Folding -/

/-- Folding keeps a sum modulo 65535, and keeps zero apart from the other multiples. -/
theorem foldCarry_spec (rounds sum : Nat) (h : sum ≤ rounds) :
    foldCarry rounds sum < 65536 ∧ foldCarry rounds sum % 65535 = sum % 65535 ∧
      (foldCarry rounds sum = 0 ↔ sum = 0) := by
  induction rounds generalizing sum with
  | zero =>
    rw [foldCarry]
    omega
  | succ rounds ih =>
    rw [foldCarry]
    split
    · omega
    · obtain ⟨hlt, hmod, hzero⟩ := ih (sum % 65536 + sum / 65536) (by omega)
      omega

theorem finish_mod (sum : Nat) : (sum + finish sum) % 65535 = 0 ∧ 0 < sum + finish sum := by
  obtain ⟨hlt, hmod, hzero⟩ := foldCarry_spec sum sum le_rfl
  rw [finish]
  omega

/-- **A checksum makes its sum valid.** -/
theorem finish_add_finish (sum : Nat) : finish (sum + finish sum) = 0 := by
  obtain ⟨hmod, hpos⟩ := finish_mod sum
  obtain ⟨hlt, hfold, hzero⟩ := foldCarry_spec (sum + finish sum) (sum + finish sum) le_rfl
  generalize sum + finish sum = total at hmod hpos hlt hfold hzero ⊢
  rw [finish]
  omega

theorem finish_lt (sum : Nat) : finish sum < 65536 := by
  rw [finish]
  omega

end InternetChecksum
