import ClambHook.Lib.CString
import Mathlib.Data.FinEnum
import Mathlib.Data.Nat.Digits.Lemmas

/-!
# Lemmas on C strings

How the functions on C strings go together: lower case commutes with trimming, splitting and reading
numbers; a split is the one way to cut the text at its first or last separator; and a number that
was written in decimal is read back.
-/

set_option autoImplicit false

namespace CString

open List

/-! ## Lower case -/

theorem isspace_tolower (c : UInt8) : isspace (tolower c) = isspace c := by
  simp only [isspace, tolower]
  grind

theorem isdigit_tolower (c : UInt8) : isdigit (tolower c) = isdigit c := by
  simp only [isdigit, tolower]
  grind

theorem tolower_tolower (c : UInt8) : tolower (tolower c) = tolower c := by
  simp only [tolower]
  grind

theorem toupper_tolower (c : UInt8) : toupper (tolower c) = toupper c := by
  simp only [toupper, tolower]
  grind

/-- A character that is no letter. -/
def Caseless (c : UInt8) : Prop :=
  c < 65 ∨ (90 < c ∧ c < 97)

variable {c : UInt8}

theorem tolower_eq_iff {d : UInt8} (hc : Caseless c) : tolower d = c ↔ d = c := by
  simp only [tolower, Caseless] at hc ⊢
  grind

theorem toNat_of_isdigit (h : isdigit c = true) : 48 ≤ c.toNat ∧ c.toNat ≤ 57 := by
  simpa [isdigit, UInt8.le_iff_toNat_le] using h

@[simp] theorem lower_nil : lower [] = [] := rfl

@[simp] theorem lower_cons (s : Bytes) : lower (c :: s) = tolower c :: lower s := rfl

@[simp] theorem lower_append (s t : Bytes) : lower (s ++ t) = lower s ++ lower t :=
  map_append

@[simp] theorem length_lower (s : Bytes) : (lower s).length = s.length :=
  length_map tolower

@[simp] theorem lower_lower (s : Bytes) : lower (lower s) = lower s := by
  simp [lower, Function.comp_def, tolower_tolower]

theorem upper_lower (s : Bytes) : upper (lower s) = upper s := by
  simp [upper, lower, toupper_tolower]

theorem lower_take (n : Nat) (s : Bytes) : lower (s.take n) = (lower s).take n :=
  map_take

theorem lower_drop (n : Nat) (s : Bytes) : lower (s.drop n) = (lower s).drop n :=
  map_drop

variable {s : Bytes}

theorem lower_eq_self_iff : lower s = s ↔ ∀ c ∈ s, tolower c = c := by
  induction s with
  | nil => simp
  | cons c s ih => simp [ih]

theorem mem_lower_iff (hc : Caseless c) : c ∈ lower s ↔ c ∈ s := by
  simp [lower, tolower_eq_iff hc]

theorem head?_lower_eq_iff (hc : Caseless c) :
    (lower s).head? = some c ↔ s.head? = some c := by
  simp [lower, tolower_eq_iff hc]

theorem trimmed_lower_iff : Trimmed (lower s) ↔ Trimmed s := by
  simp [Trimmed, lower, isspace_tolower]

theorem isspace_comp_tolower : isspace ∘ tolower = isspace :=
  funext isspace_tolower

theorem trimLeft_lower (s : Bytes) : trimLeft (lower s) = lower (trimLeft s) := by
  rw [trimLeft, lower, dropWhile_map, isspace_comp_tolower, lower, trimLeft]

theorem trim_lower (s : Bytes) : trim (lower s) = lower (trim s) := by
  rw [trim, trim, trimLeft_lower, trimRight, trimRight, lower, List.rdropWhile, List.rdropWhile,
    ← map_reverse, dropWhile_map, isspace_comp_tolower, ← map_reverse, lower]

theorem trim_infix_self (s : Bytes) : trim s <:+: s :=
  (List.rdropWhile_prefix isspace _).isInfix.trans (dropWhile_suffix isspace).isInfix

variable {t : Bytes}

theorem mem_getLast?_of_suffix (h : s <:+ t) (hc : c ∈ s.getLast?) :
    c ∈ t.getLast? := by
  obtain ⟨r, rfl⟩ := h
  rw [getLast?_append, Option.mem_def.1 hc]
  rfl

section

variable (h : ∀ c ∈ s.getLast?, isspace c = false)

include h

theorem trim_eq_trimLeft : trim s = trimLeft s :=
  trimRight_eq_self_iff.2 fun c hc ↦
    h c (mem_getLast?_of_suffix (dropWhile_suffix isspace) hc)

/-- Trimming a text without white space at its end leaves an end of it. -/
theorem trim_suffix : trim s <:+ s := by
  rw [trim_eq_trimLeft h]
  exact dropWhile_suffix isspace

theorem trim_ne_nil (hne : s ≠ []) : trim s ≠ [] := by
  rw [trim_eq_trimLeft h, trimLeft, Ne, dropWhile_eq_nil_iff]
  intro hall
  have hspace := hall _ (getLast_mem hne)
  rw [h _ (getLast?_eq_some_getLast hne)] at hspace
  cases hspace

end

/-- White space behind a character that is none is all at the end. -/
theorem trimRight_append_cons (hc : isspace c = false) (s t : Bytes) :
    trimRight (s ++ c :: t) = s ++ c :: trimRight t := by
  rw [trimRight, trimRight, List.rdropWhile, List.rdropWhile, reverse_append, reverse_cons,
    append_assoc, dropWhile_append]
  split
  · rename_i hempty
    rw [List.isEmpty_iff] at hempty
    simp [hempty, hc]
  · simp

theorem trim_append_cons (hs : ∀ d ∈ s.head?, isspace d = false)
    (hc : isspace c = false) (t : Bytes) : trim (s ++ c :: t) = s ++ c :: trimRight t := by
  have hleft : trimLeft (s ++ c :: t) = s ++ c :: t := by
    rw [trimLeft_eq_self_iff]
    cases s with
    | nil => simpa using hc
    | cons d s => simpa using hs
  rw [trim, hleft, trimRight_append_cons hc]

theorem trimmed_of_ends {b : UInt8} (hhead : s.head? = some b)
    (hb : isspace b = false) (hlast : s.getLast? = some c) (hc : isspace c = false) :
    Trimmed s := by
  constructor
  · intro d hd
    rw [hhead] at hd
    cases hd
    exact hb
  · intro d hd
    rw [hlast] at hd
    cases hd
    exact hc

theorem trimmed_of_length_eq (h : (trim s).length = s.length) : Trimmed s :=
  (trim_infix_self s).eq_of_length h ▸ trimmed_trim s

theorem trim_cons_of_isspace (hc : isspace c = true) (s : Bytes) :
    trim (c :: s) = trim s := by
  rw [trim, trimLeft, dropWhile_cons_of_pos hc]
  rfl

/-! ## Splitting -/

variable {b a : Bytes}

theorem splitFirst_eq_some_iff :
    splitFirst c s = some (a, b) ↔ s = a ++ c :: b ∧ c ∉ a := by
  induction s generalizing a b with
  | nil => simp [splitFirst]
  | cons d s ih =>
    rw [splitFirst]
    split
    · subst d
      cases a with
      | nil => simp
      | cons x a => grind
    · cases a with
      | nil => simp_all
      | cons x a => simp [ih]; grind

theorem splitFirst_eq_none_iff : splitFirst c s = none ↔ c ∉ s := by
  induction s with
  | nil => simp [splitFirst]
  | cons d s ih =>
    rw [splitFirst]
    split
    · simp_all
    · simp [ih]; grind

theorem rdropWhile_eq_self_iff_getLast? :
    s.rdropWhile (· == c) = s ↔ s.getLast? ≠ some c := by
  rw [rdropWhile_eq_self_iff]
  cases s using List.reverseRecOn with
  | nil => simp
  | append_singleton s c => simp

/-- The separator stands in front of each part but the first. -/
theorem intercalate_eq_flatMap (sep part : Bytes) (parts : List Bytes) :
    sep.intercalate (part :: parts) = part ++ parts.flatMap (sep ++ ·) := by
  induction parts generalizing part with
  | nil => simp
  | cons next parts ih => rw [intercalate_cons_cons, ih, flatMap_cons, append_assoc, append_assoc]

theorem mem_intercalate {sep : UInt8} {parts : List Bytes} :
    c ∈ [sep].intercalate parts → c = sep ∨ ∃ part ∈ parts, c ∈ part := by
  cases parts with
  | nil => simp [List.intercalate]
  | cons part parts =>
    rw [intercalate_eq_flatMap, mem_append, mem_flatMap]
    rintro (h | ⟨next, hnext, h⟩)
    · exact .inr ⟨part, mem_cons_self, h⟩
    · exact (mem_cons.1 h).imp_right fun h ↦ ⟨next, mem_cons_of_mem part hnext, h⟩

theorem mem_intercalate_of_mem {sep c : UInt8} {parts : List Bytes} {part : Bytes}
    (hpart : part ∈ parts) (hc : c ∈ part) : c ∈ [sep].intercalate parts := by
  obtain ⟨first, rest, rfl⟩ := exists_cons_of_ne_nil (ne_nil_of_mem hpart)
  rw [intercalate_eq_flatMap, mem_append, mem_flatMap]
  rcases mem_cons.1 hpart with rfl | hpart
  · exact .inl hc
  · exact .inr ⟨part, hpart, mem_append_right _ hc⟩

/-- The parts of a string have only its characters. -/
theorem mem_of_mem_splitOn {sep : UInt8} {part : Bytes} (hpart : part ∈ s.splitOn sep)
    (hc : c ∈ part) : c ∈ s := by
  have h := @mem_intercalate_of_mem sep c _ part hpart hc
  rwa [intercalate_splitOn] at h

theorem splitLast_eq_none_iff : splitLast c s = none ↔ c ∉ s := by
  induction s with
  | nil => simp [splitLast]
  | cons d s ih =>
    rw [splitLast]
    cases h : splitLast c s with
    | some p => simp [← ih, h]
    | none =>
      rw [h, eq_self, true_iff] at ih
      split <;> grind

theorem splitLast_eq_some_iff :
    splitLast c s = some (a, b) ↔ s = a ++ c :: b ∧ c ∉ b := by
  induction s generalizing a b with
  | nil => simp [splitLast]
  | cons d s ih =>
    rw [splitLast]
    cases h : splitLast c s with
    | some p =>
      obtain ⟨hs, -⟩ := ih.1 h
      cases a with
      | nil => grind
      | cons x a =>
        have hsplit := ih (a := a) (b := b)
        rw [h] at hsplit
        grind
    | none =>
      rw [splitLast_eq_none_iff] at h
      cases a with
      | nil => split <;> grind
      | cons x a => split <;> grind

theorem splitLast_lower (hc : Caseless c) (s : Bytes) :
    splitLast c (lower s) = (splitLast c s).map fun p ↦ (lower p.1, lower p.2) := by
  induction s with
  | nil => rfl
  | cons d s ih =>
    rw [lower_cons, splitLast, splitLast, ih]
    cases h : splitLast c s with
    | some p => rfl
    | none =>
      simp only [Option.map_none, tolower_eq_iff hc]
      split <;> rfl

/-! ## Searching -/

theorem strstr_spec (h : strstr t s = some (a, b)) : s = a ++ b ∧ t <+: b := by
  induction s generalizing a with
  | nil =>
    rw [strstr] at h
    split at h
    case isTrue ht =>
      cases h
      exact ⟨rfl, ht ▸ prefix_rfl⟩
    case isFalse => cases h
  | cons c s ih =>
    rw [strstr] at h
    split at h
    case isTrue ht =>
      cases h
      exact ⟨rfl, isPrefixOf_iff_prefix.1 ht⟩
    case isFalse =>
      obtain ⟨⟨a', b'⟩, hfound, heq⟩ := Option.map_eq_some_iff.1 h
      cases heq
      obtain ⟨rfl, ht⟩ := ih hfound
      exact ⟨rfl, ht⟩

/-- What is found stays the first when the text goes on. -/
theorem strstr_append_of_some (h : strstr t s = some (a, b)) (x : Bytes) :
    strstr t (s ++ x) = some (a, b ++ x) := by
  induction s generalizing a with
  | nil =>
    rw [strstr] at h
    split at h
    case isTrue ht =>
      cases h
      rw [ht]
      cases x <;> rfl
    case isFalse => cases h
  | cons c s ih =>
    rw [strstr] at h
    rw [cons_append, strstr]
    split at h
    case isTrue ht =>
      cases h
      rw [if_pos]
      · rfl
      · exact isPrefixOf_iff_prefix.2
          ((List.isPrefixOf_iff_prefix.1 ht).trans (prefix_append (c :: s) x))
    case isFalse ht =>
      obtain ⟨⟨a', b'⟩, hfound, heq⟩ := Option.map_eq_some_iff.1 h
      cases heq
      obtain ⟨rfl, hb⟩ := strstr_spec hfound
      rw [if_neg, ih hfound]
      · rfl
      intro hlong
      refine ht (List.isPrefixOf_iff_prefix.2 (prefix_of_prefix_length_le
        (List.isPrefixOf_iff_prefix.1 hlong) (prefix_append (c :: (a' ++ _)) x) ?_))
      have := hb.length_le
      simp only [length_cons, length_append]
      omega

/-- A text that is there is found. -/
theorem exists_strstr (h : t <+: b) (a : Bytes) : ∃ p, strstr t (a ++ b) = some p := by
  induction a with
  | nil =>
    cases b with
    | nil => exact ⟨_, if_pos (prefix_nil.1 h)⟩
    | cons c b => exact ⟨_, if_pos (List.isPrefixOf_iff_prefix.2 h)⟩
  | cons c a ih =>
    obtain ⟨p, hp⟩ := ih
    rw [cons_append, strstr, hp]
    split
    · exact ⟨_, rfl⟩
    · exact ⟨_, rfl⟩

/-! ## Decimal numbers -/

theorem foldl_reverse_digits (b n : Nat) :
    (Nat.digits b n).reverse.foldl (fun m d ↦ b * m + d) 0 = n := by
  rw [foldl_reverse]
  conv_rhs => rw [← Nat.ofDigits_digits b n]
  induction Nat.digits b n with
  | nil => rfl
  | cons d ds ih =>
    rw [foldr_cons, Nat.ofDigits_cons, ih]
    simp [Nat.add_comm]

theorem digitChar_facts {d : Nat} (h : d < 10) :
    isdigit (48 + d.toUInt8) = true ∧ (48 + d.toUInt8).toNat - 48 = d := by
  revert d
  decide

theorem decimal_ne_nil (n : Nat) : decimal n ≠ [] := by
  rw [decimal]
  split
  · simp
  · simpa [Nat.digits_eq_nil_iff_eq_zero] using ‹_›

variable {n : Nat}

theorem isdigit_of_mem_decimal (hc : c ∈ decimal n) : isdigit c = true := by
  rw [decimal] at hc
  split at hc
  · rw [mem_singleton.1 hc]
    rfl
  · obtain ⟨d, hd, rfl⟩ := mem_map.1 (mem_reverse.1 hc)
    exact (digitChar_facts (Nat.digits_lt_base (by decide) hd)).1

theorem notMem_decimal (hc : isdigit c = false) (n : Nat) : c ∉ decimal n := fun h ↦ by
  rw [isdigit_of_mem_decimal h] at hc
  cases hc

theorem notMem_decimalInt (hc : isdigit c = false) (hminus : c ≠ 45) (i : Int) :
    c ∉ decimalInt i := by
  cases i with
  | ofNat n => exact notMem_decimal hc n
  | negSucc n =>
    rw [decimalInt, mem_cons, not_or]
    exact ⟨hminus, notMem_decimal hc _⟩

theorem digitsValue_decimal (n : Nat) : digitsValue (decimal n) = n := by
  rw [decimal]
  split
  · rename_i h
    rw [h]
    rfl
  · rw [digitsValue, ← map_reverse, foldl_map]
    conv_rhs => rw [← foldl_reverse_digits 10 n]
    refine foldl_ext _ _ 0 fun m d hd ↦ ?_
    rw [(digitChar_facts (Nat.digits_lt_base (by decide) (mem_reverse.1 hd))).2]

/-- Only zero is written with a leading zero. -/
theorem head?_decimal (h : (decimal n).head? = some 48) : n = 0 := by
  by_contra hn
  rw [decimal, if_neg hn, head?_reverse, getLast?_map] at h
  have hne : Nat.digits 10 n ≠ [] := Nat.digits_ne_nil_iff_ne_zero.2 hn
  rw [getLast?_eq_some_getLast hne, Option.map_some, Option.some.injEq] at h
  have hlt := Nat.digits_lt_base (b := 10) (by decide) (getLast_mem hne)
  have hval := (digitChar_facts hlt).2
  rw [h] at hval
  exact Nat.getLast_digit_ne_zero 10 hn hval.symm

theorem decimal_injective {m : Nat} (h : decimal m = decimal n) : m = n := by
  rw [← digitsValue_decimal m, h, digitsValue_decimal]

theorem length_decimal (hn : n ≠ 0) : (decimal n).length = Nat.log 10 n + 1 := by
  rw [decimal, if_neg hn, length_reverse, length_map, Nat.length_digits 10 n (by decide) hn]

theorem digitsValue_append (s t : Bytes) :
    digitsValue (s ++ t) = digitsValue s * 10 ^ t.length + digitsValue t := by
  have hfoldl : ∀ (n : Nat) (t : Bytes), t.foldl (fun n c ↦ 10 * n + (c.toNat - 48)) n =
      n * 10 ^ t.length + t.foldl (fun n c ↦ 10 * n + (c.toNat - 48)) 0 := by
    intro n t
    induction t generalizing n with
    | nil => simp
    | cons c t ih =>
      rw [foldl_cons, foldl_cons, ih, ih (10 * 0 + _), length_cons, pow_succ]
      ring
  rw [digitsValue, foldl_append, hfoldl]
  rfl

theorem digitsValue_replicate (j : Nat) : digitsValue (List.replicate j 48) = 0 := by
  induction j with
  | zero => rfl
  | succ j ih =>
    rw [replicate_succ', digitsValue_append, ih]
    rfl

/-- A number with zeros in front of it, as `%0*u` writes it. -/
theorem digitsValue_padded (width n : Nat) : digitsValue (padded width n) = n := by
  rw [padded, digitsValue_append, digitsValue_replicate, zero_mul, zero_add, digitsValue_decimal]

theorem isdigit_of_mem_padded {width : Nat} (hc : c ∈ padded width n) :
    isdigit c = true := by
  rcases mem_append.1 hc with hzero | hdecimal
  · rw [eq_of_mem_replicate hzero]
    rfl
  · exact isdigit_of_mem_decimal hdecimal

theorem length_padded {width : Nat} (hwidth : 0 < width) (h : n < 10 ^ width) :
    (padded width n).length = width := by
  have hle : (decimal n).length ≤ width := by
    rcases Nat.eq_zero_or_pos n with rfl | hpos
    · exact hwidth
    · rw [length_decimal hpos.ne']
      exact Nat.log_lt_of_lt_pow hpos.ne' h
  rw [padded, length_append, length_replicate]
  omega

/-! ## Reading numbers -/

theorem isspace_of_isdigit (h : isdigit c = true) : isspace c = false := by
  simp only [isdigit, isspace] at h ⊢
  grind

/-- A number without white space and sign is read up to what follows it. -/
theorem scan_decimal (n : Nat) (ht : ∀ c ∈ t.head?, isdigit c = false) :
    trimLeft (decimal n ++ t) = decimal n ++ t ∧ ((decimal n ++ t).head? == some 45) = false ∧
      ((decimal n ++ t).head? == some 43) = false ∧
      (decimal n ++ t).takeWhile isdigit = decimal n ∧ (decimal n ++ t).dropWhile isdigit = t := by
  have hdigits : ∀ c ∈ decimal n, isdigit c = true := fun c ↦ isdigit_of_mem_decimal
  have hbehind : t.takeWhile isdigit = [] ∧ t.dropWhile isdigit = t := by
    cases t with
    | nil => exact ⟨rfl, rfl⟩
    | cons c t => simp [ht c rfl]
  rw [takeWhile_append_of_pos hdigits, dropWhile_append_of_pos hdigits, hbehind.1, append_nil]
  obtain ⟨b, s, hs⟩ := exists_cons_of_ne_nil (decimal_ne_nil n)
  rw [hs] at hdigits ⊢
  have hb := hdigits b mem_cons_self
  have hsign : b ≠ 45 ∧ b ≠ 43 := by
    constructor <;> rintro rfl <;> exact absurd hb (by decide)
  exact ⟨trimLeft_eq_self_iff.2 (by simpa using isspace_of_isdigit hb), by simpa using hsign.1,
    by simpa using hsign.2, rfl, hbehind.2⟩

theorem strtol_decimal_append (hs : trimLeft s = trimLeft (decimal n ++ t))
    (h : (n : Int) ≤ longMax)
    (ht : ∀ c ∈ t.head?, isdigit c = false) : strtol s = ⟨n, t, false⟩ := by
  obtain ⟨htrim, hminus, hplus, htake, hdrop⟩ := scan_decimal n ht
  have hmin : ¬ (n : Int) < longMin := by
    rw [longMin]
    omega
  rw [strtol]
  simp only [hs, htrim, hminus, hplus, htake, hdrop, Bool.or_self, Bool.false_eq_true, if_false,
    digitsValue_decimal]
  rw [if_neg (by simpa using decimal_ne_nil n), if_neg hmin, if_neg (not_lt.2 h)]

theorem strtol_decimal (h : (n : Int) ≤ longMax) : strtol (decimal n) = ⟨n, [], false⟩ :=
  strtol_decimal_append (by rw [append_nil]) h (by simp)

theorem strtoul_decimal (h : n ≤ ulongMax) : strtoul (decimal n) = ⟨n, [], false⟩ := by
  have hscan := scan_decimal n (t := []) (by simp)
  rw [append_nil] at hscan
  obtain ⟨htrim, hminus, hplus, htake, hdrop⟩ := hscan
  rw [strtoul]
  simp [htrim, hminus, hplus, htake, hdrop, digitsValue_decimal, not_lt.2 h, decimal_ne_nil n]

theorem takeWhile_append_cons {p : UInt8 → Bool} (hc : p c = false) (s t : Bytes) :
    (s ++ c :: t).takeWhile p = s.takeWhile p := by
  induction s with
  | nil => simp [hc]
  | cons b s ih => rw [cons_append, takeWhile_cons, takeWhile_cons, ih]

theorem dropWhile_append_cons {p : UInt8 → Bool} (hc : p c = false) (s t : Bytes) :
    (s ++ c :: t).dropWhile p = s.dropWhile p ++ c :: t := by
  induction s with
  | nil => simp [hc]
  | cons b s ih =>
    rw [cons_append, dropWhile_cons, dropWhile_cons, ih]
    split <;> rfl

/-- The text of `%d` is read back behind white space, up to the character that ends the number. -/
theorem strtol_decimalInt {i : Int} (hs : trimLeft s = trimLeft (decimalInt i ++ c :: t))
    (hmin : longMin ≤ i) (hmax : i ≤ longMax) (hc : isdigit c = false) :
    strtol s = ⟨i, c :: t, false⟩ := by
  have ht : ∀ d ∈ (c :: t).head?, isdigit d = false := by simpa using hc
  cases i with
  | ofNat n => exact strtol_decimal_append hs hmax ht
  | negSucc n =>
    obtain ⟨-, -, -, htake, hdrop⟩ := scan_decimal (n + 1) ht
    have htrim : trimLeft (45 :: (decimal (n + 1) ++ c :: t)) = 45 :: (decimal (n + 1) ++ c :: t) :=
      trimLeft_eq_self_iff.2 (by simp [isspace])
    have hvalue : -((n + 1 : Nat) : Int) = Int.negSucc n := rfl
    rw [decimalInt, cons_append, htrim] at hs
    rw [strtol]
    simp only [hs, head?_cons, beq_self_eq_true, Bool.true_or, if_true, tail_cons, htake,
      hdrop, digitsValue_decimal, hvalue]
    rw [if_neg (by simpa using decimal_ne_nil (n + 1)), if_neg (not_lt.2 hmin),
      if_neg (not_lt.2 hmax)]

/-- A character at which a number ends and before which none begins. -/
def EndsNumber (c : UInt8) : Prop :=
  isspace c = false ∧ isdigit c = false ∧ c ≠ 45 ∧ c ≠ 43

instance (c : UInt8) : Decidable (EndsNumber c) :=
  inferInstanceAs (Decidable (_ ∧ _))

theorem trimLeft_append_cons (hc : isspace c = false) (s t : Bytes) :
    trimLeft (s ++ c :: t) = trimLeft s ++ c :: t :=
  dropWhile_append_cons hc s t

/-- Nothing behind the end of a number is looked at. -/
theorem strtol_append (hc : EndsNumber c) (s t : Bytes) :
    strtol (s ++ c :: t) =
      ⟨(strtol (s ++ [c])).value, (strtol (s ++ [c])).rest ++ t, (strtol (s ++ [c])).erange⟩ := by
  obtain ⟨hspace, hdigit, hminus, hplus⟩ := hc
  rw [strtol, strtol]
  simp only [trimLeft_append_cons hspace]
  cases trimLeft s with
  | nil => simp [hminus, hplus, hdigit]
  | cons b u =>
    -- the digits, with or without the sign in front of them
    have hdigits : ∀ d : Bytes, ∀ t' : Bytes,
        (d ++ c :: t').takeWhile isdigit = d.takeWhile isdigit ∧
        (d ++ c :: t').dropWhile isdigit = d.dropWhile isdigit ++ c :: t' :=
      fun d t' ↦ ⟨takeWhile_append_cons hdigit d t', dropWhile_append_cons hdigit d t'⟩
    cases hsign : (some b == some 45 || some b == some 43) with
    | true =>
      simp only [cons_append, head?_cons, tail_cons, hsign, if_true, hdigits]
      (repeat' split) <;> simp
    | false =>
      simp only [head?_append, head?_cons, Option.or_some, Option.getD_some, hsign,
        Bool.false_eq_true, if_false, hdigits]
      (repeat' split) <;> simp

theorem lower_eq_self_of_digits (h : ∀ c ∈ s, isdigit c = true) : lower s = s := by
  refine (map_congr_left fun c hc ↦ ?_).trans (map_id s)
  have hdigit := h c hc
  simp only [isdigit, tolower] at hdigit ⊢
  grind

/-- What `strtol` reads behind white space and a sign. -/
def numberText (s : Bytes) : Bytes :=
  if (trimLeft s).head? == some 45 || (trimLeft s).head? == some 43 then (trimLeft s).tail
  else trimLeft s

/-- A value that is read, clamped to a `long`. -/
def clampLong (value : Int) (rest : Bytes) : Strtol :=
  if value < longMin then ⟨longMin, rest, true⟩
  else if longMax < value then ⟨longMax, rest, true⟩
  else ⟨value, rest, false⟩

theorem strtol_eq (s : Bytes) : strtol s =
    if ((numberText s).takeWhile isdigit).isEmpty then ⟨0, s, false⟩
    else clampLong (if (trimLeft s).head? == some 45 then
        -(digitsValue ((numberText s).takeWhile isdigit) : Int)
      else digitsValue ((numberText s).takeWhile isdigit)) ((numberText s).dropWhile isdigit) :=
  rfl

theorem clampLong_rest (value : Int) (rest : Bytes) : (clampLong value rest).rest = rest := by
  rw [clampLong]
  split
  · rfl
  · split <;> rfl

theorem clampLong_with_rest (value : Int) (rest rest' : Bytes) :
    clampLong value rest' = { clampLong value rest with rest := rest' } := by
  simp only [clampLong]
  split
  · rfl
  · split <;> rfl

theorem head?_trimLeft_lower (hc : Caseless c) (s : Bytes) :
    ((trimLeft (lower s)).head? == some c) = ((trimLeft s).head? == some c) := by
  rw [trimLeft_lower, Bool.eq_iff_iff, beq_iff_eq, beq_iff_eq, head?_lower_eq_iff hc]

theorem numberText_lower (s : Bytes) : numberText (lower s) = lower (numberText s) := by
  rw [numberText, head?_trimLeft_lower (.inl (by decide)), head?_trimLeft_lower (.inl (by decide)),
    trimLeft_lower, numberText, apply_ite lower]
  congr 1
  exact map_tail.symm

/-- Reading a number does not depend on the case of what follows it. -/
theorem strtol_lower (s : Bytes) :
    strtol (lower s) = { strtol s with rest := lower (strtol s).rest } := by
  have hcomp : isdigit ∘ tolower = isdigit := funext isdigit_tolower
  have htake : (numberText (lower s)).takeWhile isdigit = (numberText s).takeWhile isdigit := by
    rw [numberText_lower, lower, takeWhile_map, hcomp]
    exact lower_eq_self_of_digits fun c ↦ mem_takeWhile_imp
  have hdrop : (numberText (lower s)).dropWhile isdigit =
      lower ((numberText s).dropWhile isdigit) := by
    rw [numberText_lower, lower, dropWhile_map, hcomp, lower]
  rw [strtol_eq, strtol_eq, htake, hdrop, head?_trimLeft_lower (.inl (by decide))]
  split
  · rfl
  · rw [clampLong_rest]
    exact clampLong_with_rest _ _ _

/-- A value that does not fit is one of the ends of the range. -/
theorem value_of_erange (h : (strtol s).erange = true) :
    (strtol s).value = longMin ∨ (strtol s).value = longMax := by
  rw [strtol_eq] at h ⊢
  split at h
  · cases h
  rename_i hread
  rw [if_neg hread]
  simp only [clampLong] at h ⊢
  grind

/-- A text that is read to its end has nothing but white space, a sign and digits. -/
theorem char_of_strtol (hne : s ≠ []) (h : (strtol s).rest = [])
    (hc : c ∈ s) : isspace c = true ∨ c = 43 ∨ c = 45 ∨ isdigit c = true := by
  rw [strtol_eq] at h
  split at h
  · exact absurd h hne
  rw [clampLong_rest, dropWhile_eq_nil_iff] at h
  rw [← takeWhile_append_dropWhile (p := isspace) (l := s), mem_append] at hc
  rcases hc with hc | hc
  · exact .inl (mem_takeWhile_imp hc)
  change c ∈ trimLeft s at hc
  rw [numberText] at h
  split at h
  · rename_i hsign
    simp only [Bool.or_eq_true, beq_iff_eq] at hsign
    rcases hsign with hsign | hsign <;> rw [← cons_head?_tail hsign, mem_cons] at hc <;>
      rcases hc with rfl | hc
    · exact .inr (.inr (.inl rfl))
    · exact .inr (.inr (.inr (h c hc)))
    · exact .inr (.inl rfl)
    · exact .inr (.inr (.inr (h c hc)))
  · exact .inr (.inr (.inr (h c hc)))

/-- A text that is read to its end ends in a digit. -/
theorem exists_getLast?_of_strtol (hne : s ≠ []) (h : (strtol s).rest = []) :
    ∃ c, s.getLast? = some c ∧ isdigit c = true := by
  rw [strtol_eq] at h
  split at h
  · exact absurd h hne
  rename_i hread
  rw [clampLong_rest, dropWhile_eq_nil_iff] at h
  have hsuffix : numberText s <:+ s := by
    have hleft : trimLeft s <:+ s := dropWhile_suffix isspace
    rw [numberText]
    split
    · exact (tail_suffix _).trans hleft
    · exact hleft
  have htext : numberText s ≠ [] := by
    intro hnil
    rw [hnil] at hread
    exact hread rfl
  refine ⟨(numberText s).getLast htext, ?_, h _ (getLast_mem htext)⟩
  obtain ⟨t, ht⟩ := hsuffix
  conv_lhs => rw [← ht]
  rw [getLast?_append, getLast?_eq_some_getLast htext, Option.some_or]

end CString
