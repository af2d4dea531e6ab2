import ClambHook.Lib.CStringLemmas
import ClambHook.Lib.Inet
import Mathlib.Data.List.Forall2

/-!
# Texts of internet addresses

What a text that `inet_pton` accepts looks like: which characters it has, how long it is, and that
no text is an address of both families.  Reading does not depend on the case of the digits, and an
address that was written by `inet_ntop` is read back (`pton4_ntop4`, `pton6_ntop6`).
-/

set_option autoImplicit false

namespace Inet

open CString List

section

variable {α β : Type} {f : α → Option β} {l : List α} {l' : List β}

theorem mapM_eq_some_iff :
    l.mapM f = some l' ↔ List.Forall₂ (fun a b ↦ f a = some b) l l' := by
  induction l generalizing l' with
  | nil => simp [eq_comm]
  | cons a l ih =>
    rw [mapM_cons, Option.bind_eq_bind, Option.bind_eq_some_iff]
    constructor
    · rintro ⟨b, hb, h⟩
      obtain ⟨bs, hbs, h⟩ := Option.bind_eq_some_iff.1 h
      cases h
      exact .cons hb (ih.1 hbs)
    · rintro (- | ⟨hb, hbs⟩)
      exact ⟨_, hb, Option.bind_eq_some_iff.2 ⟨_, ih.2 hbs, rfl⟩⟩

theorem exists_of_mem_mapM_option (h : l.mapM f = some l') {a : α} (ha : a ∈ l) :
    ∃ b, f a = some b := by
  have hboth := (forall₂_and_left (p := fun a ↦ ∃ b, f a = some b) l l').1
    ((mapM_eq_some_iff.1 h).imp fun _ b hb ↦ ⟨⟨b, hb⟩, hb⟩)
  exact hboth.1 a ha

end

/-! ## Characters and lengths -/

variable {c : UInt8} {s : Bytes} {b : UInt8}

/-- An octet has no leading zeros. -/
theorem pow_le_octet (h : octet s = some b) :
    s.length = 1 ∨ 10 ^ (s.length - 1) ≤ b.toNat := by
  rw [octet] at h
  split at h
  · cases h
    rename_i hs
    obtain ⟨hne, hdigits, hzero, hvalue⟩ := hs
    obtain ⟨c, t, rfl⟩ := exists_cons_of_ne_nil hne
    by_cases hc : c = 48
    · exact .inl (hzero (by rw [hc]; rfl))
    have hpos : ∀ c, isdigit c = true → c ≠ 48 → 0 < digitsValue [c] := by decide +kernel
    have hbyte : (digitsValue (c :: t)).toUInt8.toNat = digitsValue (c :: t) := by
      rw [Nat.toUInt8, UInt8.toNat_ofNat']
      omega
    refine .inr ?_
    rw [hbyte, length_cons, Nat.add_sub_cancel, ← singleton_append, digitsValue_append]
    calc 10 ^ t.length ≤ digitsValue [c] * 10 ^ t.length :=
          Nat.le_mul_of_pos_left _ (hpos c (all_eq_true.1 hdigits c mem_cons_self) hc)
      _ ≤ _ := Nat.le_add_right _ _
  · cases h

theorem octet_eq_some (h : octet s = some b) :
    s ≠ [] ∧ (∀ c ∈ s, isdigit c = true) ∧ s.length ≤ 3 := by
  have hlength := pow_le_octet h
  rw [octet] at h
  split at h
  · rename_i hs
    refine ⟨hs.1, all_eq_true.1 hs.2.1, ?_⟩
    by_contra hlong
    have hpow : 10 ^ 3 ≤ 10 ^ (s.length - 1) := Nat.pow_le_pow_right (by decide) (by omega)
    have hbyte := b.toNat_lt
    omega
  · cases h

variable {address : Bytes}

/-- The text of an IPv4 address: four octets between dots. -/
theorem pton4_eq_some (h : pton4 s = some address) :
    ∃ w x y z : Bytes, s = w ++ 46 :: (x ++ 46 :: (y ++ 46 :: z)) ∧
      List.Forall₂ (fun f b ↦ octet f = some b) [w, x, y, z] address := by
  rw [pton4] at h
  split at h
  · rename_i a b c d hfields
    cases h
    rw [mapM_eq_some_iff] at hfields
    have hs : [46].intercalate (s.splitOn 46) = s := intercalate_splitOn 46
    generalize s.splitOn 46 = fields at hfields hs
    obtain ⟨w, x, y, z, rfl⟩ := length_eq_four.1 hfields.length_eq
    exact ⟨w, x, y, z, hs.symm.trans (by simp [List.intercalate]), hfields⟩
  · cases h

/-- The characters of an address. -/
def IsAddressChar (c : UInt8) : Prop :=
  (hexDigit c).isSome = true ∨ c = 46 ∨ c = 58

theorem isAddressChar_of_isdigit (h : isdigit c = true) : IsAddressChar c := by
  simp only [isdigit, IsAddressChar, hexDigit] at h ⊢
  grind

/-- What the text of an IPv4 address is like. -/
structure Dotted (s : Bytes) : Prop where
  ne_nil : s ≠ []
  chars : ∀ c ∈ s, isdigit c = true ∨ c = 46
  last : ∃ c, s.getLast? = some c ∧ isdigit c = true
  length : s.length ≤ 15

theorem dotted_of_pton4 (h : pton4 s = some address) : Dotted s := by
  obtain ⟨w, x, y, z, rfl, hfields⟩ := pton4_eq_some h
  simp only [forall₂_cons_left_iff] at hfields
  obtain ⟨_, _, hw, ⟨_, _, hx, ⟨_, _, hy, ⟨_, _, hz, -, -⟩, -⟩, -⟩, -⟩ := hfields
  obtain ⟨-, hw, hw'⟩ := octet_eq_some hw
  obtain ⟨-, hx, hx'⟩ := octet_eq_some hx
  obtain ⟨-, hy, hy'⟩ := octet_eq_some hy
  obtain ⟨hne, hz, hz'⟩ := octet_eq_some hz
  refine ⟨by simp, fun c hc ↦ ?_, ⟨z.getLast hne, ?_, hz _ (getLast_mem hne)⟩, ?_⟩
  · simp only [mem_append, mem_cons] at hc
    rcases hc with hc | rfl | hc | rfl | hc | rfl | hc
    · exact .inl (hw c hc)
    · exact .inr rfl
    · exact .inl (hx c hc)
    · exact .inr rfl
    · exact .inl (hy c hc)
    · exact .inr rfl
    · exact .inl (hz c hc)
  · simp [getLast?_append, getLast?_cons, getLast?_eq_some_getLast hne]
  · simp only [length_append, length_cons]
    omega

theorem Dotted.colon_notMem (h : Dotted s) : 58 ∉ s := fun hmem ↦ by
  rcases h.chars 58 hmem with hdigit | heq
  · exact absurd hdigit (by decide)
  · exact absurd heq (by decide)

/-! ### IPv6 -/

variable {w : Nat}

theorem hexField_eq_some (h : hexField s = some w) :
    s ≠ [] ∧ s.length ≤ 4 ∧ ∀ c ∈ s, (hexDigit c).isSome = true := by
  rw [hexField] at h
  split at h
  · cases h
  rename_i hs
  rw [not_or] at hs
  refine ⟨hs.1, by omega, fun c hc ↦ ?_⟩
  obtain ⟨ds, hds, -⟩ := Option.map_eq_some_iff.1 h
  obtain ⟨d, hd⟩ := exists_of_mem_mapM_option hds hc
  rw [hd]
  rfl

/-- A field of an IPv6 address: empty, hexadecimal or an IPv4 address. -/
structure IsField (f : Bytes) : Prop where
  chars : ∀ c ∈ f, IsAddressChar c ∧ c ≠ 58
  last : f.getLast? ≠ some 46

theorem isField_nil : IsField [] :=
  ⟨nofun, nofun⟩

variable {f : Bytes}

theorem isField_of_hexField (h : hexField f = some w) : IsField f := by
  obtain ⟨-, -, hchars⟩ := hexField_eq_some h
  constructor
  · intro c hc
    refine ⟨.inl (hchars c hc), ?_⟩
    rintro rfl
    exact absurd (hchars 58 hc) (by decide)
  · intro hlast
    exact absurd (hchars 46 (mem_of_getLast? hlast)) (by decide)

theorem isField_of_pton4 (h : pton4 f = some address) : IsField f := by
  have hdotted := dotted_of_pton4 h
  constructor
  · intro c hc
    refine ⟨?_, fun heq ↦ hdotted.colon_notMem (heq ▸ hc)⟩
    rcases hdotted.chars c hc with hdigit | rfl
    · exact isAddressChar_of_isdigit hdigit
    · exact .inr (.inl rfl)
  · obtain ⟨c, hc, hdigit⟩ := hdotted.last
    rw [hc]
    rintro ⟨⟩
    exact absurd hdigit (by decide)

/-- The length of fields, each with a separator. -/
def cost (fields : List Bytes) : Nat :=
  (fields.map fun f ↦ f.length + 1).sum

theorem cost_append (fields fields' : List Bytes) :
    cost (fields ++ fields') = cost fields + cost fields' := by
  simp [cost]

/-- How many characters more an IPv4 address at the end may take than two hexadecimal fields, twice
counted. -/
def Excess (bs : Bytes) (k : Nat) : Prop :=
  ∀ f address, pton4 f = some address → address <:+ bs → 2 * f.length ≤ 18 + k

variable {bs : Bytes} {k : Nat}

theorem Excess.mono {bs' : Bytes} (h : Excess bs k) (hsuffix : bs' <:+ bs) :
    Excess bs' k :=
  fun f address hf haddress ↦ h f address hf (haddress.trans hsuffix)

theorem excess_twelve (bs : Bytes) : Excess bs 12 := fun f address hf _ ↦ by
  have hlength := (dotted_of_pton4 hf).length
  omega

variable {fields : List Bytes}

/-- Two bytes take at most five characters, but four bytes may be an IPv4 address at the end. -/
theorem fieldsBytes_eq_some (h : fieldsBytes fields = some bs)
    (hk : Excess bs k) :
    (∀ f ∈ fields, IsField f) ∧ 2 * cost fields ≤ 5 * bs.length + k := by
  induction fields using fieldsBytes.induct generalizing bs with
  | case1 => exact ⟨nofun, by simp [cost]⟩
  | case2 f =>
    rw [fieldsBytes, Option.or_eq_some_iff] at h
    rcases h with h | ⟨-, h⟩
    · obtain ⟨w, hw, rfl⟩ := Option.map_eq_some_iff.1 h
      have hlength := (hexField_eq_some hw).2.1
      refine ⟨by simpa using isField_of_hexField hw, ?_⟩
      simp only [cost, wordBytes, map_cons, map_nil, sum_cons, sum_nil,
        length_cons, length_nil]
      omega
    · have hlength := hk f bs h suffix_rfl
      refine ⟨by simpa using isField_of_pton4 h, ?_⟩
      simp only [cost, length_pton4 h, map_cons, map_nil, sum_cons, sum_nil]
      omega
  | case3 f g fields ih =>
    rw [fieldsBytes, Option.bind_eq_bind, Option.bind_eq_some_iff] at h
    obtain ⟨w, hw, h⟩ := h
    obtain ⟨bs', hbs', h⟩ := Option.bind_eq_some_iff.1 h
    cases h
    obtain ⟨hfields, hcost⟩ := ih hbs' (hk.mono (suffix_append _ _))
    have hlength := (hexField_eq_some hw).2.1
    refine ⟨forall_mem_cons.2 ⟨isField_of_hexField hw, hfields⟩, ?_⟩
    rw [← singleton_append, cost_append, length_append]
    simp only [cost, wordBytes, map_cons, map_nil, sum_cons, sum_nil,
      length_cons, length_nil] at hcost ⊢
    omega

variable {ws : List Nat}

theorem mapM_hexField_eq_some (h : fields.mapM hexField = some ws) :
    (∀ f ∈ fields, IsField f) ∧ cost fields ≤ 5 * ws.length := by
  refine ⟨fun f hf ↦ ?_, ?_⟩
  · obtain ⟨w, hw⟩ := exists_of_mem_mapM_option h hf
    exact isField_of_hexField hw
  rw [mapM_eq_some_iff] at h
  induction h with
  | nil => simp [cost]
  | cons hw _ ih =>
    have hlength := (hexField_eq_some hw).2.1
    simp only [cost, map_cons, sum_cons, length_cons] at ih ⊢
    omega

variable {right : List Bytes}

theorem backBytes_eq_some (h : backBytes right = some bs)
    (hk : Excess bs k) :
    (∀ f ∈ right, IsField f) ∧ (bs = [] ∧ cost right = 1 ∨ 2 * cost right ≤ 5 * bs.length + k) := by
  rw [backBytes] at h
  split at h
  · cases h
  split at h
  · rename_i hright
    rw [hright]
    exact ⟨by simpa using isField_nil, .inl ⟨(Option.some.inj h).symm, rfl⟩⟩
  · exact (fieldsBytes_eq_some h hk).imp_right .inr

/-- The fields of an address text, around the place where fields are left out. -/
theorem fields_of_pton6 (h : pton6 s = some address)
    (hk : Excess address k) :
    (∀ f ∈ s.splitOn 58, IsField f) ∧ 2 * cost (s.splitOn 58) ≤ 80 + k := by
  rw [pton6] at h
  have hfields : (s.splitOn 58).takeWhile (· ≠ []) ++ (s.splitOn 58).dropWhile (· ≠ []) =
    s.splitOn 58 := takeWhile_append_dropWhile
  split at h
  · rename_i hdrop
    rw [hdrop, append_nil] at hfields
    obtain ⟨h, hlength⟩ := Option.filter_eq_some_iff.1 h
    rw [hfields] at h
    have hspec := fieldsBytes_eq_some h hk
    rw [of_decide_eq_true hlength] at hspec
    exact hspec
  · rename_i gap rest hdrop
    have hgap : gap = [] := by
      have hhead := head?_dropWhile_not (fun f : Bytes ↦ decide (f ≠ [])) (s.splitOn 58)
      rw [hdrop] at hhead
      simpa using hhead
    rw [hdrop, hgap] at hfields
    generalize (s.splitOn 58).takeWhile (· ≠ []) = left at h hfields
    obtain ⟨right, hright, h⟩ := Option.bind_eq_some_iff.1 h
    obtain ⟨front, hfront, h⟩ := Option.bind_eq_some_iff.1 h
    obtain ⟨back, hback, h⟩ := Option.bind_eq_some_iff.1 h
    split at h
    · rename_i hroom
      cases h
      obtain ⟨hleft, hleftCost⟩ := mapM_hexField_eq_some hfront
      obtain ⟨hrightFields, hrightCost⟩ :=
        backBytes_eq_some hback (hk.mono (suffix_append _ _))
      -- One empty field stands for what is left out, and one more at the front of the text.
      have hrest : rest = right ∨ rest = [] :: right := by
        rw [fieldsBehind.eq_def] at hright
        split at hright
        · exact .inr (congrArg _ (Option.some.inj hright))
        · cases hright
        · exact .inl (Option.some.inj hright)
      have hrestFields : ∀ f ∈ rest, IsField f := by
        rcases hrest with rfl | rfl
        · exact hrightFields
        · exact forall_mem_cons.2 ⟨isField_nil, hrightFields⟩
      have hrestCost : cost rest ≤ cost right + 1 := by
        rcases hrest with rfl | rfl
        · exact Nat.le_succ _
        · simp [cost, Nat.add_comm]
      rw [← hfields]
      constructor
      · intro f hf
        rcases mem_append.1 hf with hf | hf
        · exact hleft f hf
        · exact forall_mem_cons.2 ⟨isField_nil, hrestFields⟩ f hf
      · have hcons : cost ([] :: rest) = cost rest + 1 := by simp [cost, Nat.add_comm]
        rw [cost_append, hcons]
        rcases hrightCost with ⟨rfl, hone⟩ | hrightCost
        · rw [length_nil] at hroom
          omega
        · omega
    · cases h

variable {x : UInt8}

theorem getLast?_intercalate (hcx : c ≠ x)
    (h : ∀ f ∈ fields, f.getLast? ≠ some c) : ([x].intercalate fields).getLast? ≠ some c := by
  induction fields with
  | nil => simp
  | cons f fields ih =>
    cases fields with
    | nil => simpa using h
    | cons g fields =>
      have hrest := ih fun f' hf' ↦ h f' (mem_cons_of_mem f hf')
      rw [intercalate_cons_cons, getLast?_append]
      intro hlast
      rcases Option.or_eq_some_iff.1 hlast with hlast | ⟨-, hlast⟩
      · exact hrest hlast
      · simp [getLast?_append] at hlast
        exact hcx hlast.symm

theorem length_intercalate (h : fields ≠ []) :
    ([x].intercalate fields).length + 1 = cost fields := by
  obtain ⟨f, fields, rfl⟩ := exists_cons_of_ne_nil h
  simp [intercalate_eq_flatMap, cost, length_flatMap]
  omega

/-- What the text of an IPv6 address is like. -/
structure Coloned (s : Bytes) : Prop where
  chars : ∀ c ∈ s, IsAddressChar c
  last : s.getLast? ≠ some 46
  length : s.length ≤ 45
  colon : 58 ∈ s

theorem colon_mem_of_pton6 (h : pton6 s = some address) : 58 ∈ s := by
  by_contra hcolon
  rw [pton6, splitOn_eq_singleton hcolon] at h
  cases s with
  | nil => cases h
  | cons c s =>
    simp only [ne_eq, takeWhile_cons, dropWhile_cons, reduceCtorEq, not_false_eq_true,
      decide_true, if_true, takeWhile_nil, dropWhile_nil] at h
    obtain ⟨h, hlength⟩ := Option.filter_eq_some_iff.1 h
    rw [fieldsBytes, Option.or_eq_some_iff] at h
    have hlength := of_decide_eq_true hlength
    rcases h with h | ⟨-, h⟩
    · obtain ⟨w, -, rfl⟩ := Option.map_eq_some_iff.1 h
      simp [wordBytes] at hlength
    · rw [length_pton4 h] at hlength
      omega

theorem coloned_of_pton6 (h : pton6 s = some address) : Coloned s := by
  obtain ⟨hfields, hcost⟩ := fields_of_pton6 h (excess_twelve address)
  have hs : [58].intercalate (s.splitOn 58) = s := intercalate_splitOn 58
  refine ⟨fun c hc ↦ ?_, ?_, ?_, colon_mem_of_pton6 h⟩
  · rw [← hs] at hc
    rcases mem_intercalate hc with rfl | ⟨f, hf, hc⟩
    · exact .inr (.inr rfl)
    · exact ((hfields f hf).chars c hc).1
  · rw [← hs]
    exact getLast?_intercalate (by decide) fun f hf ↦ (hfields f hf).last
  · have hlength := length_intercalate (x := 58) (splitOn_ne_nil 58 s)
    rw [hs] at hlength
    omega

/-- `IN6ADDR_LOOPBACK_INIT`. -/
def loopback6 : Bytes :=
  List.replicate 15 0 ++ [1]

theorem length_of_octet_lt (h : octet s = some b) (hb : b.toNat < 10) :
    s.length = 1 := by
  rcases pow_le_octet h with hone | hpow
  · exact hone
  by_contra hne
  have hpos := length_pos_of_ne_nil (octet_eq_some h).1
  have hle : 10 ^ 1 ≤ 10 ^ (s.length - 1) := Nat.pow_le_pow_right (by decide) (by omega)
  omega

/-- The text of the IPv6 loopback address has no room for a long dotted end. -/
theorem length_of_pton6_loopback (h : pton6 s = some loopback6) : s.length ≤ 39 := by
  have hexcess : Excess loopback6 0 := by
    intro f address hf hsuffix
    have haddress : address = [0, 0, 0, 1] := by
      have hdrop := suffix_iff_eq_drop.1 hsuffix
      rw [length_pton4 hf] at hdrop
      exact hdrop
    subst haddress
    obtain ⟨w, x, y, z, rfl, hfields⟩ := pton4_eq_some hf
    simp only [forall₂_cons] at hfields
    obtain ⟨hw, hx, hy, hz, -⟩ := hfields
    simp only [length_append, length_cons, length_of_octet_lt hw (by decide),
      length_of_octet_lt hx (by decide), length_of_octet_lt hy (by decide),
      length_of_octet_lt hz (by decide)]
    omega
  obtain ⟨-, hcost⟩ := fields_of_pton6 h hexcess
  have hs : [58].intercalate (s.splitOn 58) = s := intercalate_splitOn 58
  have hlength := length_intercalate (x := 58) (splitOn_ne_nil 58 s)
  rw [hs] at hlength
  omega

/-- No text is an address of both families. -/
theorem pton4_eq_none_of_pton6 (h : pton6 s = some address) : pton4 s = none := by
  cases h4 : pton4 s with
  | none => rfl
  | some address' => exact absurd (coloned_of_pton6 h).colon (dotted_of_pton4 h4).colon_notMem

/-! ## Case -/

theorem splitOn_lower (hc : Caseless c) (s : Bytes) :
    (lower s).splitOn c = (s.splitOn c).map lower := by
  induction s with
  | nil => rfl
  | cons d s ih =>
    rw [lower_cons, splitOn_cons_eq_if_modifyHead, splitOn_cons_eq_if_modifyHead, ih]
    simp only [beq_iff_eq, tolower_eq_iff hc]
    split
    · rfl
    · cases s.splitOn c <;> rfl

theorem octet_lower (s : Bytes) : octet (lower s) = octet s := by
  by_cases hdigits : ∀ c ∈ s, isdigit c = true
  · rw [lower_eq_self_of_digits hdigits]
  · have hlower : ¬ ∀ c ∈ lower s, isdigit c = true := by
      simpa [lower, isdigit_tolower] using hdigits
    simp only [octet, all_eq_true, hdigits, hlower, false_and, and_false, if_false]

theorem pton4_lower (s : Bytes) : pton4 (lower s) = pton4 s := by
  have hcomp : octet ∘ lower = octet := funext octet_lower
  rw [pton4, pton4, splitOn_lower (.inl (by decide)), mapM_map, hcomp]

theorem hexDigit_tolower : ∀ c, hexDigit (tolower c) = hexDigit c := by
  decide +kernel

theorem hexField_lower (s : Bytes) : hexField (lower s) = hexField s := by
  have hcomp : hexDigit ∘ tolower = hexDigit := funext hexDigit_tolower
  rw [hexField, hexField, length_lower, lower, mapM_map, hcomp]
  simp only [map_eq_nil_iff]

theorem fieldsBytes_lower (fields : List Bytes) :
    fieldsBytes (fields.map lower) = fieldsBytes fields := by
  induction fields using fieldsBytes.induct with
  | case1 => rfl
  | case2 f => rw [map_singleton, fieldsBytes, fieldsBytes, hexField_lower, pton4_lower]
  | case3 f g fields ih =>
    rw [map_cons, map_cons, fieldsBytes, fieldsBytes, hexField_lower, ← map_cons, ih]

theorem backBytes_lower (right : List Bytes) : backBytes (right.map lower) = backBytes right := by
  have hnil : right.map lower = [[]] ↔ right = [[]] := by
    cases right with
    | nil => simp
    | cons f right => simp [lower_eq_nil]
  simp only [backBytes, map_eq_nil_iff, hnil, fieldsBytes_lower]

theorem fieldsBehind_lower (left rest : List Bytes) :
    fieldsBehind (left.map lower) (rest.map lower) =
      (fieldsBehind left rest).map (·.map lower) := by
  cases left with
  | cons f left => rfl
  | nil =>
    cases rest with
    | nil => rfl
    | cons f rest => cases f <;> rfl

theorem pton6_lower (s : Bytes) : pton6 (lower s) = pton6 s := by
  have hne : (fun f : Bytes ↦ decide (f ≠ [])) ∘ lower = fun f ↦ decide (f ≠ []) :=
    funext fun f ↦ by simp [lower_eq_nil]
  have hcomp : hexField ∘ lower = hexField := funext hexField_lower
  rw [pton6, pton6, splitOn_lower (.inl (by decide)), takeWhile_map, dropWhile_map, hne]
  cases (s.splitOn 58).dropWhile (· ≠ []) with
  | nil => simp only [map_nil, fieldsBytes_lower]
  | cons gap rest =>
    simp only [map_cons, fieldsBehind_lower, mapM_map, hcomp]
    cases fieldsBehind ((s.splitOn 58).takeWhile (· ≠ [])) rest with
    | none => rfl
    | some right => simp [backBytes_lower]

/-! ## Writing and reading back -/

theorem octet_decimal : ∀ b : UInt8, octet (decimal b.toNat) = some b := by
  decide +kernel

theorem pton4_ntop4 (h : address.length = 4) :
    pton4 (ntop4 address) = some address := by
  have hcomp : (octet ∘ fun b : UInt8 ↦ decimal b.toNat) = some := funext octet_decimal
  have hsplit : (ntop4 address).splitOn 46 = address.map fun b ↦ decimal b.toNat := by
    refine splitOn_intercalate 46 (fun f hf ↦ ?_) ?_
    · obtain ⟨b, -, rfl⟩ := mem_map.1 hf
      exact notMem_decimal rfl b.toNat
    · rintro hnil
      rw [map_eq_nil_iff.1 hnil] at h
      cases h
  have hsome : address.mapM some = some address := by
    rw [mapM_eq_some_iff, forall₂_same]
    exact fun _ _ ↦ rfl
  rw [pton4, hsplit, mapM_map, hcomp, hsome]
  rcases address with _ | ⟨a, _ | ⟨b, _ | ⟨c, _ | ⟨d, _ | ⟨e, t⟩⟩⟩⟩⟩
  on_goal 5 => rfl
  all_goals simp at h

theorem hexDigit_hexChar {d : Nat} (h : d < 16) : hexDigit (hexChar d) = some d := by
  revert d
  decide

theorem length_digits_le (h : w < 65536) : (Nat.digits 16 w).length ≤ 4 := by
  by_cases hw : w = 0
  · simp [hw]
  · exact (Nat.digits_length_le_iff (by decide) w).2 h

theorem hexField_hexText (h : w < 65536) : hexField (hexText w) = some w := by
  rw [hexText]
  split
  · rename_i hw
    rw [hw]
    rfl
  rename_i hw
  have hne : Nat.digits 16 w ≠ [] := Nat.digits_ne_nil_iff_ne_zero.2 hw
  have hread : ((Nat.digits 16 w).map hexChar).reverse.mapM hexDigit =
      some (Nat.digits 16 w).reverse := by
    rw [mapM_eq_some_iff, ← map_reverse, forall₂_map_left_iff, forall₂_same]
    exact fun d hd ↦ hexDigit_hexChar (Nat.digits_lt_base (by decide) (mem_reverse.1 hd))
  have hlength := length_digits_le h
  rw [hexField, if_neg, hread, Option.map_some, foldl_reverse_digits]
  simp only [reverse_eq_nil_iff, map_eq_nil_iff, hne, false_or, length_reverse,
    length_map, Nat.not_lt]
  exact hlength

/-! ### Words -/

theorem wordBytes_word (a b : UInt8) : wordBytes (256 * a.toNat + b.toNat) = [a, b] := by
  have hb := b.toNat_lt
  have hdiv : (256 * a.toNat + b.toNat) / 256 = a.toNat := by omega
  have hmod : (256 * a.toNat + b.toNat) % 256 = b.toNat := by omega
  simp [wordBytes, hdiv, hmod]

theorem flatMap_words {n : Nat} (h : address.length = 2 * n) :
    (words address).flatMap wordBytes = address := by
  induction address using words.induct generalizing n with
  | case1 a b bs ih =>
    have hbs : bs.length = 2 * (n - 1) := by
      simp only [length_cons] at h
      omega
    rw [words, flatMap_cons, ih hbs, wordBytes_word]
    rfl
  | case2 bs hbs =>
    match bs, h with
    | [], _ => rfl
    | [a], h =>
      simp at h
      omega
    | a :: b :: bs, _ => exact absurd rfl (hbs a b bs)

theorem length_words {n : Nat} (h : address.length = 2 * n) :
    (words address).length = n := by
  have hlength := length_wordBytes (words address)
  rw [flatMap_words h] at hlength
  omega

theorem lt_of_mem_words (h : w ∈ words address) : w < 65536 := by
  induction address using words.induct with
  | case1 a b bs ih =>
    rw [words] at h
    rcases mem_cons.1 h with rfl | h
    · have ha := a.toNat_lt
      have hb := b.toNat_lt
      omega
    · exact ih h
  | case2 bs hbs =>
    rw [words.eq_def] at h
    split at h
    · exact absurd rfl (hbs _ _ _)
    · cases h

theorem drop_flatMap_wordBytes (ws : List Nat) (k : Nat) :
    (ws.flatMap wordBytes).drop (2 * k) = (ws.drop k).flatMap wordBytes := by
  induction k generalizing ws with
  | zero => rfl
  | succ k ih =>
    cases ws with
    | nil => simp
    | cons w ws =>
      rw [flatMap_cons, drop_succ_cons, ← ih]
      rfl

/-! ### Runs of zeros -/

/-- All words of the run are zero. -/
def IsRun (ws : List Nat) (run : Nat × Nat) : Prop :=
  ∀ i, run.1 ≤ i → i < run.1 + run.2 → ws[i]? = some 0

theorem mem_longer {cur best : Option (Nat × Nat)} {run : Nat × Nat} (h : run ∈ longer cur best) :
    run ∈ cur ∨ run ∈ best := by
  cases cur with
  | none => exact .inr h
  | some c =>
    cases best with
    | none => exact .inl h
    | some b =>
      rw [longer] at h
      split at h
      · exact .inl h
      · exact .inr h

/-- The search keeps to runs: the current one ends where it is, and so does the best one. -/
theorem isRun_of_mem_zeroRun {all : List Nat} :
    ∀ {ws : List Nat} {i : Nat} {cur best : Option (Nat × Nat)}, all.drop i = ws →
      (∀ run ∈ cur, IsRun all run ∧ run.1 + run.2 = i) → (∀ run ∈ best, IsRun all run) →
      ∀ run ∈ zeroRun ws i cur best, IsRun all run
  | [], i, cur, best, _, hcur, hbest, run, hrun => by
    rcases mem_longer hrun with h | h
    · exact (hcur run h).1
    · exact hbest run h
  | w :: ws, i, cur, best, hdrop, hcur, hbest, run, hrun => by
    have hget : all[i]? = some w := by
      rw [← Nat.add_zero i, ← getElem?_drop, hdrop]
      rfl
    have hnext : all.drop (i + 1) = ws := by
      rw [← drop_drop, hdrop]
      rfl
    rw [zeroRun.eq_def] at hrun
    dsimp only at hrun
    split at hrun
    · rename_i hw
      rw [hw] at hget
      refine isRun_of_mem_zeroRun hnext (fun r hr ↦ ?_) hbest run hrun
      cases cur with
      | none =>
        cases hr
        refine ⟨fun j hj hj' ↦ ?_, rfl⟩
        dsimp only at hj hj'
        rw [← hget]
        congr 1
        omega
      | some c =>
        cases hr
        obtain ⟨hc, hend⟩ := hcur c rfl
        refine ⟨fun j hj hj' ↦ ?_, by dsimp only; omega⟩
        dsimp only at hj hj'
        by_cases hji : j < c.1 + c.2
        · exact hc j hj hji
        · rw [← hget]
          congr 1
          omega
    · refine isRun_of_mem_zeroRun hnext (fun r hr ↦ absurd hr (Option.not_mem_none r))
        (fun r hr ↦ ?_) run hrun
      rcases mem_longer hr with h | h
      · exact (hcur r h).1
      · exact hbest r h

theorem isRun_of_bestRun {base len : Nat} (h : bestRun ws = some (base, len)) :
    IsRun ws (base, len) ∧ 2 ≤ len := by
  obtain ⟨hrun, hlen⟩ := Option.filter_eq_some_iff.1 h
  refine ⟨isRun_of_mem_zeroRun drop_zero ?_ ?_ _ hrun, of_decide_eq_true hlen⟩
  all_goals exact fun r hr ↦ absurd hr (Option.not_mem_none r)

/-- A list with a run of zeros, in three parts. -/
theorem eq_of_isRun {base len : Nat} (h : IsRun ws (base, len)) (hlen : 0 < len) :
    base + len ≤ ws.length ∧
      ws = ws.take base ++ List.replicate len 0 ++ ws.drop (base + len) := by
  have hbound : base + len ≤ ws.length := by
    have hlast := h (base + len - 1) (by dsimp only; omega) (by dsimp only; omega)
    have := (List.getElem?_eq_some_iff.1 hlast).1
    omega
  refine ⟨hbound, ?_⟩
  have hzeros : (ws.drop base).take len = List.replicate len 0 := by
    rw [eq_replicate_iff]
    refine ⟨by simp; omega, fun w hw ↦ ?_⟩
    obtain ⟨i, hi⟩ := mem_iff_getElem?.1 hw
    rw [getElem?_take] at hi
    split at hi
    · rw [getElem?_drop, h (base + i) (Nat.le_add_right _ _) (by dsimp only; omega)] at hi
      exact (Option.some.inj hi).symm
    · cases hi
  rw [← hzeros, append_assoc, ← drop_drop, take_append_drop, take_append_drop]

/-! ### IPv6 -/

theorem colon_notMem_hexText (h : w < 65536) : 58 ∉ hexText w := fun hmem ↦
  ((isField_of_hexField (hexField_hexText h)).chars 58 hmem).2 rfl

theorem hexField_ntop4 (h : address.length = 4) : hexField (ntop4 address) = none := by
  cases hfield : hexField (ntop4 address) with
  | none => rfl
  | some w =>
    obtain ⟨w', x, y, z, hs, -⟩ := pton4_eq_some (pton4_ntop4 h)
    have hdot := (hexField_eq_some hfield).2.2 46 (by rw [hs]; simp)
    exact absurd hdot (by decide)

theorem fieldsBytes_ntop4 (h : address.length = 4) :
    fieldsBytes [ntop4 address] = some address := by
  rw [fieldsBytes, hexField_ntop4 h, pton4_ntop4 h]
  rfl

theorem fieldsBytes_hexText (h : w < 65536) :
    fieldsBytes [hexText w] = some (wordBytes w) := by
  rw [fieldsBytes, hexField_hexText h]
  rfl

variable (hws : ∀ w ∈ ws, w < 65536)

include hws

theorem fieldsBytes_append_singleton (hf : fieldsBytes [f] = some bs) :
    fieldsBytes (ws.map hexText ++ [f]) = some (ws.flatMap wordBytes ++ bs) := by
  induction ws with
  | nil => exact hf
  | cons w ws ih =>
    obtain ⟨g, fields, hfields⟩ : ∃ g fields, ws.map hexText ++ [f] = g :: fields :=
      exists_cons_of_ne_nil (by simp)
    have hrest := ih fun w' hw' ↦ hws w' (mem_cons_of_mem w hw')
    rw [map_cons, cons_append]
    rw [hfields] at hrest ⊢
    rw [fieldsBytes, hexField_hexText (hws w mem_cons_self), hrest]
    simp

theorem fieldsBytes_map_hexText :
    fieldsBytes (ws.map hexText) = some (ws.flatMap wordBytes) := by
  induction ws using List.reverseRecOn with
  | nil => rfl
  | append_singleton ws w _ =>
    have hlast := fieldsBytes_hexText (hws w (by simp))
    rw [map_append, map_singleton,
      fieldsBytes_append_singleton (fun w' hw' ↦ hws w' (by simp [hw'])) hlast]
    simp

theorem mapM_hexText :
    (ws.map hexText).mapM hexField = some ws := by
  rw [mapM_eq_some_iff, forall₂_map_left_iff, forall₂_same]
  exact fun w hw ↦ hexField_hexText (hws w hw)

omit hws

theorem backBytes_orEmpty (h : fieldsBytes right = some bs) :
    backBytes (orEmpty right) = some bs := by
  by_cases hnil : right = []
  · rw [hnil] at h ⊢
    cases h
    rfl
  · have hempty : right ≠ [[]] := by
      rintro rfl
      cases h
    rw [orEmpty, if_neg hnil, backBytes, if_neg hnil, if_neg hempty, h]

/-- An address text with fields left out, read by its parts. -/
theorem pton6_intercalate {left : List Bytes} {front : List Nat} {back : Bytes}
    (hleft : left.mapM hexField = some front) (hright : fieldsBytes right = some back)
    (hroom : 2 * front.length + back.length < 16) :
    pton6 ([58].intercalate (orEmpty left ++ [[]] ++ orEmpty right)) =
      some (front.flatMap wordBytes ++
        List.replicate (16 - (2 * front.length + back.length)) 0 ++ back) := by
  have hne : ∀ f ∈ left, decide (f ≠ []) = true := fun f hf ↦ by
    obtain ⟨w, hw⟩ := exists_of_mem_mapM_option hleft hf
    exact decide_eq_true (hexField_eq_some hw).1
  have hcolon : ∀ fields : List Bytes, (∀ f ∈ fields, IsField f) →
      ∀ f ∈ orEmpty fields, 58 ∉ f := by
    intro fields hfields f hf hmem
    rw [orEmpty] at hf
    split at hf
    · rw [mem_singleton.1 hf] at hmem
      cases hmem
    · exact ((hfields f hf).chars 58 hmem).2 rfl
  have hsplit : ([58].intercalate (orEmpty left ++ [[]] ++ orEmpty right)).splitOn 58 =
      orEmpty left ++ [[]] ++ orEmpty right := by
    refine splitOn_intercalate 58 (fun f hf ↦ ?_) (by simp)
    simp only [mem_append, mem_singleton] at hf
    rcases hf with (hf | rfl) | hf
    · exact hcolon left (mapM_hexField_eq_some hleft).1 f hf
    · exact not_mem_nil
    · exact hcolon right (fieldsBytes_eq_some hright (excess_twelve _)).1 f hf
  replace hright := backBytes_orEmpty hright
  rw [pton6, hsplit]
  by_cases hnil : left = []
  · rw [hnil] at hleft
    cases hleft
    have hback : back.length < 16 := by simpa using hroom
    rw [hnil, orEmpty, if_pos rfl]
    simp [fieldsBehind, hright, hback]
  · obtain ⟨f, left', rfl⟩ := exists_cons_of_ne_nil hnil
    rw [orEmpty, if_neg hnil, append_assoc, takeWhile_append_of_pos hne,
      dropWhile_append_of_pos hne]
    simp [fieldsBehind, hleft, hright, hroom]

theorem flatMap_replicate_zero (n : Nat) :
    (List.replicate n 0).flatMap wordBytes = List.replicate (2 * n) 0 := by
  induction n with
  | zero => rfl
  | succ n ih =>
    rw [replicate_succ, flatMap_cons, ih]
    rfl

/-- The fields that are written behind the `::` are those of the words behind it. -/
theorem fieldsBytes_backFields (h : address.length = 16) (base len : Nat) :
    fieldsBytes (backFields address base len) =
      some (((words address).drop (base + len)).flatMap wordBytes) := by
  have hwords := flatMap_words (n := 8) h
  have hlt : ∀ {k j : Nat}, ∀ w ∈ ((words address).drop k).take j, w < 65536 := fun w hw ↦
    lt_of_mem_words (mem_of_mem_drop (mem_of_mem_take hw))
  rw [backFields]
  split
  · rename_i hmapped
    obtain ⟨rfl, hlen⟩ := hmapped
    have hdrop : address.drop 12 = ((words address).drop 6).flatMap wordBytes := by
      rw [← drop_flatMap_wordBytes, hwords]
    rw [fieldsBytes_append_singleton hlt (fieldsBytes_ntop4 (by simp [h])), hdrop, ← flatMap_append,
      Nat.zero_add]
    have hsix : (words address).drop 6 = ((words address).drop len).drop (6 - len) := by
      rw [drop_drop]
      congr 1
      omega
    rw [hsix, take_append_drop]
  · exact fieldsBytes_map_hexText fun w hw ↦ lt_of_mem_words (mem_of_mem_drop hw)

theorem pton6_ntop6 (h : address.length = 16) :
    pton6 (ntop6 address) = some address := by
  have hwords := flatMap_words (n := 8) h
  have hlength := length_words (n := 8) h
  have hlt : ∀ w ∈ words address, w < 65536 := fun w ↦ lt_of_mem_words
  rw [ntop6]
  cases hrun : bestRun (words address) with
  | none =>
    have hne : ∀ f ∈ (words address).map hexText, decide (f ≠ []) = true := fun f hf ↦ by
      obtain ⟨w, hw, rfl⟩ := mem_map.1 hf
      exact decide_eq_true (hexField_eq_some (hexField_hexText (hlt w hw))).1
    have hsplit : ([58].intercalate ((words address).map hexText)).splitOn 58 =
        (words address).map hexText := by
      refine splitOn_intercalate 58 (fun f hf ↦ ?_) ?_
      · obtain ⟨w, hw, rfl⟩ := mem_map.1 hf
        exact colon_notMem_hexText (hlt w hw)
      · intro hnil
        rw [map_eq_nil_iff.1 hnil] at hlength
        cases hlength
    rw [pton6]
    dsimp only
    rw [hsplit, dropWhile_eq_nil_iff.2 hne, takeWhile_eq_self_iff.2 hne,
      fieldsBytes_map_hexText hlt, hwords]
    simp [h]
  | some run =>
    obtain ⟨base, len⟩ := run
    obtain ⟨hzeros, hlen⟩ := isRun_of_bestRun hrun
    obtain ⟨hbound, hparts⟩ := eq_of_isRun hzeros (by omega)
    have hfront : (((words address).take base).map hexText).mapM hexField =
        some ((words address).take base) := mapM_hexText fun w hw ↦ hlt w (mem_of_mem_take hw)
    have hfrontLength : ((words address).take base).length = base := by
      rw [length_take]
      omega
    have hbackLength : (((words address).drop (base + len)).flatMap wordBytes).length =
        16 - 2 * (base + len) := by
      rw [length_wordBytes, length_drop]
      omega
    dsimp only
    rw [pton6_intercalate hfront (fieldsBytes_backFields h base len) (by omega), hfrontLength,
      hbackLength]
    have hgap : 16 - (2 * base + (16 - 2 * (base + len))) = 2 * len := by omega
    conv_rhs => rw [← hwords, hparts, flatMap_append, flatMap_append, flatMap_replicate_zero]
    rw [hgap]

end Inet
