import ClambHook.Developer.Curl

/-!
# UTF-8 of captured bodies

A captured body is shown as text when `developer_utf8_valid` accepts it.  `Char` has the Unicode
scalar values and `String.utf8EncodeChar` the one form of each that the standard allows, so that
overlong forms, surrogates, larger values and cut sequences are what no list of them encodes to.
-/

namespace ClambHook.Developer

open CString List

theorem continues_iff : ∀ b : UInt8, continues b = true ↔ 0x80 ≤ b.toNat ∧ b.toNat < 0xc0 := by
  decide +kernel

theorem addBits_eq (n : Nat) (b : UInt8) : addBits n b = n * 64 + b.toNat % 64 :=
  congrArg _ (Nat.and_two_pow_sub_one_eq_mod b.toNat 6)

theorem toNat_and_15 (a : UInt8) : (a &&& 0x0f).toNat = a.toNat % 16 :=
  Nat.and_two_pow_sub_one_eq_mod a.toNat 4

theorem toNat_and_7 (a : UInt8) : (a &&& 0x07).toNat = a.toNat % 8 :=
  Nat.and_two_pow_sub_one_eq_mod a.toNat 3

/-- The validator goes past the encoding of a character. -/
theorem utf8Valid_encode_append (c : Char) (s : Bytes) :
    utf8Valid (String.utf8EncodeChar c ++ s) = utf8Valid s := by
  have hc : c.val.toNat.isValidChar := c.valid
  rw [String.utf8EncodeChar, Bool.eq_iff_iff]
  generalize c.val.toNat = n at hc
  split_ifs with h1 h2 h3 <;>
    simp only [cons_append, nil_append, utf8Valid.eq_def (_ :: _), UInt8.le_iff_toNat_le,
      UInt8.toNat_ofNat', UInt8.reduceToNat]
  · rw [if_pos (by omega)]
  · rw [if_neg (by omega), if_pos (by omega), Bool.and_eq_true, continues_iff, UInt8.toNat_ofNat']
    exact and_iff_right (by omega)
  · rw [if_neg (by omega), if_neg (by omega), if_pos (by omega)]
    simp only [Bool.and_eq_true, continues_iff, addBits_eq, toNat_and_15, UInt8.toNat_ofNat',
      Bool.not_eq_true', Bool.and_eq_false_iff, decide_eq_true_eq, decide_eq_false_iff_not]
    exact and_iff_right (by omega)
  · rw [if_neg (by omega), if_neg (by omega), if_neg (by omega), if_pos (by omega)]
    simp only [Bool.and_eq_true, continues_iff, addBits_eq, toNat_and_7, UInt8.toNat_ofNat',
      decide_eq_true_eq]
    exact and_iff_right (by omega)

/-- A code point that the validator has read stands for a character before the rest. -/
theorem exists_text_append (n : Nat) {s : Bytes} (front : Bytes) (hn : n.isValidChar)
    (hfront : ∀ x : Char, x.val.toNat = n → String.utf8EncodeChar x = front)
    (hs : ∃ text : List Char, s = text.flatMap String.utf8EncodeChar) :
    ∃ text : List Char, front ++ s = text.flatMap String.utf8EncodeChar := by
  obtain ⟨text, rfl⟩ := hs
  exact ⟨Char.ofNatAux n hn :: text, by rw [flatMap_cons, hfront _ rfl]⟩

/-- **The validator accepts exactly the texts in UTF-8.** -/
theorem utf8Valid_iff (s : Bytes) :
    utf8Valid s = true ↔ ∃ text : List Char, s = text.flatMap String.utf8EncodeChar := by
  constructor
  · intro h
    fun_induction utf8Valid s with
    | case1 => exact ⟨[], rfl⟩
    | case2 a s ha ih =>
      replace ha : a.toNat ≤ 127 := ha
      refine exists_text_append a.toNat [a] (.inl (by omega)) (fun x hx ↦ ?_) (ih h)
      rw [String.utf8EncodeChar, hx, if_pos ha, UInt8.ofNat_toNat]
    | case3 a _ ha b s ih =>
      replace ha : 194 ≤ a.toNat ∧ a.toNat ≤ 223 := ha
      rw [Bool.and_eq_true, continues_iff] at h
      refine exists_text_append (a.toNat % 32 * 64 + b.toNat % 64) [a, b] (.inl (by omega))
        (fun x hx ↦ ?_) (ih h.2)
      rw [String.utf8EncodeChar, hx, if_neg (by omega), if_pos (by omega)]
      simp only [cons.injEq, and_true, ← UInt8.toNat_inj, UInt8.toNat_ofNat']
      omega
    | case5 a _ _ ha b c s n ih =>
      replace ha : 224 ≤ a.toNat ∧ a.toNat ≤ 239 := ha
      have hn : n = (a.toNat % 16 * 64 + b.toNat % 64) * 64 + c.toNat % 64 := by
        rw [← toNat_and_15, ← addBits_eq, ← addBits_eq]
      clear_value n
      simp only [Bool.and_eq_true, continues_iff, Bool.not_eq_true', Bool.and_eq_false_iff,
        decide_eq_true_eq, decide_eq_false_iff_not] at h
      refine exists_text_append n [a, b, c] (by unfold Nat.isValidChar; omega) (fun x hx ↦ ?_)
        (ih h.2)
      rw [String.utf8EncodeChar, hx, if_neg (by omega), if_neg (by omega), if_pos (by omega)]
      simp only [cons.injEq, and_true, ← UInt8.toNat_inj, UInt8.toNat_ofNat']
      omega
    | case7 a _ _ _ ha b c d s n ih =>
      replace ha : 240 ≤ a.toNat ∧ a.toNat ≤ 244 := ha
      have hn : n = ((a.toNat % 8 * 64 + b.toNat % 64) * 64 + c.toNat % 64) * 64 +
          d.toNat % 64 := by
        rw [← toNat_and_7, ← addBits_eq, ← addBits_eq, ← addBits_eq]
      clear_value n
      simp only [Bool.and_eq_true, continues_iff, decide_eq_true_eq] at h
      refine exists_text_append n [a, b, c, d] (.inr (by omega)) (fun x hx ↦ ?_) (ih h.2)
      rw [String.utf8EncodeChar, hx, if_neg (by omega), if_neg (by omega), if_neg (by omega)]
      simp only [cons.injEq, and_true, ← UInt8.toNat_inj, UInt8.toNat_ofNat']
      omega
    | case4 | case6 | case8 | case9 => cases h
  · rintro ⟨text, rfl⟩
    induction text with
    | nil => rfl
    | cons c text ih => rw [flatMap_cons, utf8Valid_encode_append, ih]

end ClambHook.Developer
