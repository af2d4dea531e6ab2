import ClambHook.Lib.Inet
import Mathlib.Data.Nat.Bitwise

/-!
# Network prefixes

Two addresses are in one network when they agree on its leading bits.  Programs compare whole bytes
and then mask the last one (`agreeOn_iff`).
-/

set_option autoImplicit false

namespace Inet

open CString List

/-- The bits of an address, the most significant one of each byte first. -/
def addressBit (address : Bytes) (i : Nat) : Bool :=
  (address.getD (i / 8) 0).toNat.testBit (7 - i % 8)

/-- The addresses agree on their first `n` bits. -/
def AgreeOn (n : Nat) (a b : Bytes) : Prop :=
  ∀ i < n, addressBit a i = addressBit b i

/-- The byte whose first `r` bits are set. -/
def leadingMask (r : Nat) : UInt8 :=
  (0xff <<< (8 - r)).toUInt8

theorem testBit_byte_eq_false {x : UInt8} {k : Nat} (hk : 8 ≤ k) : x.toNat.testBit k = false :=
  Nat.testBit_lt_two_pow (Nat.lt_of_lt_of_le x.toNat_lt (Nat.pow_le_pow_right (by decide) hk))

theorem byte_eq_iff {x y : UInt8} :
    x = y ↔ ∀ j < 8, x.toNat.testBit (7 - j) = y.toNat.testBit (7 - j) := by
  constructor
  · rintro rfl _ _
    rfl
  intro h
  refine UInt8.toNat_inj.1 (Nat.eq_of_testBit_eq fun k ↦ ?_)
  rcases Nat.lt_or_ge k 8 with hk | hk
  · have hj := h (7 - k) (by omega)
    rwa [show 7 - (7 - k) = k by omega] at hj
  · rw [testBit_byte_eq_false hk, testBit_byte_eq_false hk]

theorem testBit_leadingMask :
    ∀ r < 9, ∀ k < 8, (leadingMask r).toNat.testBit k = decide (8 - r ≤ k) := by
  decide

/-- Masked bytes are equal when the bytes agree on the bits of the mask. -/
theorem masked_eq_iff {x y : UInt8} {r : Nat} (hr : r ≤ 8) :
    x &&& leadingMask r = y &&& leadingMask r ↔
      ∀ j < r, x.toNat.testBit (7 - j) = y.toNat.testBit (7 - j) := by
  rw [byte_eq_iff]
  have hbit : ∀ (z : UInt8) (j : Nat), j < 8 → (z &&& leadingMask r).toNat.testBit (7 - j) =
      (z.toNat.testBit (7 - j) && decide (j < r)) := by
    intro z j hj
    rw [UInt8.toNat_and, Nat.testBit_and, testBit_leadingMask r (by omega) (7 - j) (by omega)]
    congr 1
    exact decide_eq_decide.2 (by omega)
  constructor
  · intro h j hj
    have := h j (by omega)
    rwa [hbit x j (by omega), hbit y j (by omega), decide_eq_true hj, Bool.and_true,
      Bool.and_true] at this
  · intro h j hj
    rw [hbit x j hj, hbit y j hj]
    by_cases hlt : j < r
    · rw [h j hlt]
    · rw [decide_eq_false hlt, Bool.and_false, Bool.and_false]

theorem addressBit_mul_add (a : Bytes) (k : Nat) {j : Nat} (hj : j < 8) :
    addressBit a (8 * k + j) = (a.getD k 0).toNat.testBit (7 - j) := by
  rw [addressBit, show (8 * k + j) / 8 = k by omega, show (8 * k + j) % 8 = j by omega]

/-- Addresses that agree on whole bytes have the same leading bytes. -/
theorem agreeOn_mul_iff {a b : Bytes} {whole : Nat} (ha : whole ≤ a.length)
    (hb : whole ≤ b.length) :
    AgreeOn (8 * whole) a b ↔ a.take whole = b.take whole := by
  constructor
  · intro h
    refine ext_getElem (by simp; omega) fun k hk hk' ↦ ?_
    simp only [length_take] at hk hk'
    rw [getElem_take, getElem_take, byte_eq_iff]
    intro j hj
    have hbit := h (8 * k + j) (by omega)
    rwa [addressBit_mul_add a k hj, addressBit_mul_add b k hj, getD_eq_getElem _ _ (by omega),
      getD_eq_getElem _ _ (by omega)] at hbit
  · intro h i hi
    have hget : ∀ l : Bytes, l.getD (i / 8) 0 = (l.take whole).getD (i / 8) 0 := fun l ↦ by
      rw [getD_eq_getElem?_getD, getD_eq_getElem?_getD,
        List.getElem?_take_of_lt (by omega)]
    rw [addressBit, addressBit, hget a, hget b, h]

/-- Addresses that agree on all their bits are equal. -/
theorem eq_of_agreeOn {a b : Bytes} {n : Nat} (ha : 8 * a.length = n) (hb : 8 * b.length = n)
    (h : AgreeOn n a b) : a = b := by
  rw [← ha, agreeOn_mul_iff le_rfl (by omega)] at h
  rwa [take_length, take_of_length_le (by omega)] at h

/-- **Prefixes**: agreement on `n` bits is equality of the whole bytes and of the masked byte behind
them. -/
theorem agreeOn_iff {a b : Bytes} {n : Nat} (ha : n / 8 ≤ a.length) (hb : n / 8 ≤ b.length) :
    AgreeOn n a b ↔ a.take (n / 8) = b.take (n / 8) ∧
      a.getD (n / 8) 0 &&& leadingMask (n % 8) = b.getD (n / 8) 0 &&& leadingMask (n % 8) := by
  rw [← agreeOn_mul_iff ha hb, masked_eq_iff (by omega)]
  constructor
  · intro h
    refine ⟨fun i hi ↦ h i (by omega), fun j hj ↦ ?_⟩
    rw [← addressBit_mul_add a _ (by omega), ← addressBit_mul_add b _ (by omega)]
    exact h _ (by omega)
  · rintro ⟨hwhole, hlast⟩ i hi
    rcases Nat.lt_or_ge i (8 * (n / 8)) with hlt | hge
    · exact hwhole i hlt
    · have hi' : i = 8 * (n / 8) + i % 8 := by omega
      rw [hi', addressBit_mul_add a _ (by omega), addressBit_mul_add b _ (by omega)]
      exact hlast _ (by omega)

end Inet
