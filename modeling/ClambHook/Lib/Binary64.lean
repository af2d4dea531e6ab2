import ClambHook.Lib.CString
import Mathlib.Data.Int.Log
import Mathlib.Data.Rat.Floor
import Mathlib.Tactic.Linarith
import Mathlib.Tactic.Positivity

/-!
# Doubles as rational numbers

A finite `double` is its value, a rational number; the two zeros are one.  `round` is the rounding
of the "to nearest, ties to even" mode, which conversions between numbers and text use in both
directions, and `printG17` is the text of `printf("%.17g")`.
-/

set_option autoImplicit false

namespace Binary64

open CString

/-- The nearest integer, the even one of two. -/
def roundEven (q : Rat) : Int :=
  let rest := q - ⌊q⌋
  if rest < 1 / 2 ∨ (rest = 1 / 2 ∧ ⌊q⌋ % 2 = 0) then ⌊q⌋ else ⌊q⌋ + 1

/-- The exponent of the unit in the last place of a value: 53 significant bits, but no bit below
2⁻¹⁰⁷⁴. -/
def ulp (q : Rat) : Int :=
  max (Int.log 2 |q| - 52) (-1074)

/-- The `double` nearest to a value, with no bound on its exponent. -/
def round (q : Rat) : Rat :=
  roundEven (q / 2 ^ ulp q) * 2 ^ ulp q

/-- The largest finite `double` is below 2¹⁰²⁴. -/
def Overflows (q : Rat) : Prop :=
  2 ^ 1024 ≤ |round q|

/-- A value below the normal range that is not a `double`. -/
def Underflows (q : Rat) : Prop :=
  |q| < 2 ^ (-1022 : Int) ∧ round q ≠ q

instance (q : Rat) : Decidable (Overflows q) :=
  inferInstanceAs (Decidable (_ ≤ _))

instance (q : Rat) : Decidable (Underflows q) :=
  inferInstanceAs (Decidable (_ ∧ _))

/-! ## Text -/

/-- Zeros at the end of the digits behind a decimal point are left out, and the point with them. -/
def fraction (digits : Bytes) : Bytes :=
  match digits.rdropWhile (· == 48) with
  | [] => []
  | kept => 46 :: kept

/-- The text of `%.17g`: 17 significant digits, with an exponent if it is below -4 or above 16. -/
def printG17 (q : Rat) : Bytes :=
  if q = 0 then [48]
  else
    let sign := if q < 0 then [45] else []
    let e := Int.log 10 |q|
    let scaled := roundEven (|q| * 10 ^ (16 - e))
    -- Rounding may carry into an eighteenth digit.
    let (mantissa, e) := if scaled = 10 ^ 17 then ((10 ^ 16 : Int), e + 1) else (scaled, e)
    let digits := decimal mantissa.toNat
    sign ++
      if -4 ≤ e ∧ e < 17 then
        if 0 ≤ e then digits.take (e.toNat + 1) ++ fraction (digits.drop (e.toNat + 1))
        else 48 :: fraction (List.replicate (-e - 1).toNat 48 ++ digits)
      else
        let power := decimal e.natAbs
        digits.take 1 ++ fraction (digits.drop 1) ++ [101, if e < 0 then 45 else 43] ++
          (if power.length < 2 then 48 :: power else power)

/-! ## Rounding -/

theorem abs_roundEven_sub_le (q : Rat) : |roundEven q - q| ≤ 1 / 2 := by
  have hfloor := Int.floor_le q
  have hlt := Int.lt_floor_add_one q
  rw [roundEven]
  split
  · rename_i h
    rw [abs_le]
    rcases h with h | h <;> constructor <;> linarith [h]
  · rename_i h
    have hge : 1 / 2 ≤ q - ⌊q⌋ := by
      by_contra hlt
      exact h (.inl (not_le.1 hlt))
    push_cast
    rw [abs_le]
    constructor <;> linarith

theorem abs_round_sub_le (q : Rat) : |round q - q| ≤ 2 ^ ulp q / 2 := by
  have hpos : (0 : Rat) < 2 ^ ulp q := zpow_pos (by norm_num) _
  have hround : round q - q = (roundEven (q / 2 ^ ulp q) - q / 2 ^ ulp q) * 2 ^ ulp q := by
    rw [round, sub_mul, div_mul_cancel₀ q hpos.ne']
  rw [hround, abs_mul, abs_of_pos hpos]
  have := mul_le_mul_of_nonneg_right (abs_roundEven_sub_le (q / 2 ^ ulp q)) hpos.le
  linarith

variable {q : Rat}

/-- The unit in the last place of an integer is at most the integer. -/
theorem ulp_le_of_one_le (h : 1 ≤ |q|) : (2 : Rat) ^ ulp q ≤ |q| := by
  have hlog : 0 ≤ Int.log 2 |q| := by
    rw [Int.log_of_one_le_right 2 h]
    positivity
  have hulp : ulp q ≤ Int.log 2 |q| := by
    rw [ulp]
    omega
  calc (2 : Rat) ^ ulp q ≤ 2 ^ Int.log 2 |q| := zpow_le_zpow_right₀ (by norm_num) hulp
    _ ≤ |q| := Int.zpow_log_le_self (by norm_num) (by linarith)

@[simp] theorem round_zero : round 0 = 0 := by
  simp [round, roundEven]

theorem roundEven_intCast (i : Int) : roundEven i = i := by
  simp [roundEven]

/-- An integer of at most 53 bits is a `double`. -/
theorem round_intCast {i : Int} (h : |i| < 2 ^ 53) : round i = i := by
  have hulp : ulp i ≤ 0 := by
    rw [ulp]
    refine max_le ?_ (by decide)
    by_cases hi : i = 0
    · simp [hi]
    have hpos : (0 : Rat) < |(i : Rat)| := by simpa using hi
    have hlt : |(i : Rat)| < ((2 : Nat) : Rat) ^ (53 : Int) := by
      exact_mod_cast h
    have := (Int.lt_zpow_iff_log_lt (by decide) hpos).1 hlt
    omega
  obtain ⟨k, hk⟩ := Int.eq_ofNat_of_zero_le (neg_nonneg.2 hulp)
  have hpow : (2 : Rat) ^ ulp i = ((2 : Rat) ^ k)⁻¹ := by
    rw [← zpow_natCast, ← zpow_neg, ← hk, neg_neg]
  have hinteger : (i : Rat) / 2 ^ ulp i = ((i * 2 ^ k : Int) : Rat) := by
    rw [hpow, div_inv_eq_mul]
    push_cast
    rfl
  rw [round, hinteger, roundEven_intCast, ← hinteger, div_mul_cancel₀]
  exact zpow_ne_zero _ (by norm_num)

theorem not_overflows_of_le (hone : q = 0 ∨ 1 ≤ |q|) (h : |q| ≤ 2 ^ 64) :
    ¬ Overflows q := by
  rw [Overflows, not_le]
  rcases hone with rfl | hone
  · rw [round_zero, abs_zero]
    positivity
  have hsub := abs_sub_abs_le_abs_sub (round q) q
  have hround := abs_round_sub_le q
  have hulp := ulp_le_of_one_le hone
  calc |round q| ≤ 2 * |q| := by linarith
    _ ≤ 2 ^ 65 := by linarith
    _ < 2 ^ 1024 := pow_lt_pow_right₀ (by norm_num) (by norm_num)

theorem not_underflows_of_one_le (h : q = 0 ∨ 1 ≤ |q|) : ¬ Underflows q := by
  rintro ⟨hsmall, hround⟩
  rcases h with rfl | h
  · exact hround round_zero
  · have hone : (2 : Rat) ^ (-1022 : Int) ≤ 1 := zpow_le_one_of_nonpos₀ (by norm_num) (by norm_num)
    linarith

end Binary64
