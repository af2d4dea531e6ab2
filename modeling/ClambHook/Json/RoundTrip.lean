import ClambHook.Json.Text

/-!
# Reading back what was written

A tree of nulls, booleans, 64-bit integers, strings without NUL, arrays and objects is read back
from its text as it was, with the members in their order.  The one limit is the nesting: the parser
opens at most 64 levels, where a value that is no container is a level too.
-/

namespace ClambHook.Json

open CString List

/-- The trees that the writer is for. -/
inductive Plain : Json → Prop where
  | null : Plain .null
  | boolean (b : Bool) : Plain (.boolean b)
  | int64 (i : Int) (hmin : longMin ≤ i) (hmax : i ≤ longMax) : Plain (newInt64 i)
  | string (s : Bytes) (h : 0 ∉ s) : Plain (.string s)
  | array (items : List Json) (h : ∀ item ∈ items, Plain item) : Plain (.array items)
  | object (members : List (Bytes × Json)) (hkeys : ∀ m ∈ members, 0 ∉ m.1)
    (h : ∀ m ∈ members, Plain m.2) : Plain (.object members)

mutual

/-- The levels of nesting of a value; a value without elements or members has one. -/
def depth : Json → Nat
  | .array items => depthItems items + 1
  | .object members => depthMembers members + 1
  | _ => 1

def depthItems : List Json → Nat
  | [] => 0
  | item :: items => max (depth item) (depthItems items)

def depthMembers : List (Bytes × Json) → Nat
  | [] => 0
  | (_, value) :: members => max (depth value) (depthMembers members)

end

variable {n : Nat} {items : List Json}

theorem depthItems_le_iff :
    depthItems items ≤ n ↔ ∀ item ∈ items, depth item ≤ n := by
  induction items with
  | nil => simp [depthItems]
  | cons item items ih => simp [depthItems, ih]

variable {members : List (Bytes × Json)}

theorem depthMembers_le_iff :
    depthMembers members ≤ n ↔ ∀ m ∈ members, depth m.2 ≤ n := by
  induction members with
  | nil => simp [depthMembers]
  | cons m members ih => simp [depthMembers, ih]

/-! ## Strings -/

theorem hex_hexDigit : ∀ n < 16, hex (hexDigit n) = some n := by
  decide

variable {c : UInt8}

/-- The escape of a control character. -/
theorem parseUnicode_control (hc : c ≠ 0) (hlt : c < 32) (s : Bytes) :
    parseUnicode (48 :: 48 :: hexDigit (c.toNat / 16) :: hexDigit (c.toNat % 16) :: s) =
      .ok ([c], s) := by
  have hlt' : c.toNat < 32 := UInt8.lt_iff_toNat_lt.1 hlt
  have hne : c.toNat ≠ 0 := fun h ↦ hc (UInt8.toNat_inj.1 h)
  have hunit : codeUnit (48 :: 48 :: hexDigit (c.toNat / 16) :: hexDigit (c.toNat % 16) :: s) =
      .ok (c.toNat, s) := by
    have hzero : hex 48 = some 0 := rfl
    simp only [codeUnit, hzero, hex_hexDigit (c.toNat / 16) (by omega),
      hex_hexDigit (c.toNat % 16) (by omega)]
    congr 2
    omega
  have hencode : encodeCodepoint c.toNat = [c] := by
    rw [encodeCodepoint, if_neg hne, if_pos (by omega)]
    simp
  simp only [parseUnicode, hunit, bind, Except.bind]
  rw [if_neg (by omega), if_neg (by omega), hencode]

/-- Every escape of the writer is read as the character it stands for. -/
theorem parseChars_escapeChar (hc : c ≠ 0) (fuel : Nat) (s : Bytes) :
    parseChars (fuel + 1) (escapeChar c ++ s) = do
      let (out, rest) ← parseChars fuel s
      return (c :: out, rest) := by
  rw [escapeChar]
  split_ifs with h₁ h₂ h₃ h₄ h₅ h₆ h₇ h₈
  all_goals try (subst_vars; rfl)
  · -- A control character without a letter of its own.
    have hescape : parseEscape (117 :: 48 :: 48 :: hexDigit (c.toNat / 16) ::
        hexDigit (c.toNat % 16) :: s) = .ok ([c], s) := parseUnicode_control hc h₈ s
    rw [cons_append, parseChars, if_neg (by decide), if_neg (by decide), if_neg (by decide)]
    simp only [cons_append, nil_append, hescape, bind, Except.bind]
  · rw [singleton_append, parseChars, if_neg h₁, if_neg h₈, if_pos h₂]

variable {s : Bytes} {fuel : Nat}

theorem parseChars_flatMap (hs : 0 ∉ s) (hfuel : s.length ≤ fuel) (rest : Bytes) :
    parseChars (fuel + 1) (s.flatMap escapeChar ++ 34 :: rest) = .ok (s, rest) := by
  induction s generalizing fuel with
  | nil => rfl
  | cons c s ih =>
    obtain ⟨fuel, rfl⟩ := Nat.exists_eq_succ_of_ne_zero (Nat.ne_of_gt (Nat.zero_lt_of_lt hfuel))
    rw [mem_cons, not_or] at hs
    rw [flatMap_cons, append_assoc, parseChars_escapeChar (Ne.symm hs.1),
      ih hs.2 (Nat.le_of_succ_le_succ hfuel)]
    rfl

theorem length_le_length_flatMap (s : Bytes) : s.length ≤ (s.flatMap escapeChar).length := by
  induction s with
  | nil => exact le_rfl
  | cons c s ih =>
    have hpos : 0 < (escapeChar c).length := by
      simp only [escapeChar]
      grind
    rw [flatMap_cons, length_append, length_cons]
    omega

/-- **Strings**: the text of a string without NUL is read as the string. -/
theorem parseStringRaw_appendString (hs : 0 ∉ s) (rest : Bytes) :
    parseStringRaw (appendString s ++ rest) = .ok (s, rest) := by
  rw [appendString, cons_append, cons_append, parseStringRaw, append_assoc]
  refine parseChars_flatMap hs ?_ rest
  have := length_le_length_flatMap s
  simp only [length_append]
  omega

/-- The character that an escape stands for, and what is behind it. -/
def readEscape : Bytes → Option (UInt8 × Bytes)
  | 92 :: 117 :: _ :: _ :: high :: low :: rest =>
    match hex high, hex low with
    | some high, some low => some ((high * 16 + low).toUInt8, rest)
    | _, _ => none
  | 92 :: c :: rest =>
    some (if c = 98 then 8 else if c = 102 then 12 else if c = 110 then 10
      else if c = 114 then 13 else if c = 116 then 9 else c, rest)
  | c :: rest => some (c, rest)
  | [] => none

theorem readEscape_escapeChar (c : UInt8) (s : Bytes) :
    readEscape (escapeChar c ++ s) = some (c, s) := by
  rw [escapeChar]
  split_ifs with h₁ h₂ h₃ h₄ h₅ h₆ h₇ h₈
  all_goals try (subst_vars; rfl)
  · have hlt : c.toNat < 32 := UInt8.lt_iff_toNat_lt.1 h₈
    have hvalue : (c.toNat / 16 * 16 + c.toNat % 16).toUInt8 = c := by
      rw [Nat.div_add_mod']
      exact UInt8.ofNat_toNat
    simp only [cons_append, nil_append, readEscape, hex_hexDigit (c.toNat / 16) (by omega),
      hex_hexDigit (c.toNat % 16) (by omega), hvalue]
  · rw [singleton_append, readEscape.eq_def]
    split
    · next heq => exact absurd (List.cons.inj heq).1 h₂
    · next heq => exact absurd (List.cons.inj heq).1 h₂
    · next heq =>
      cases heq
      rfl
    · next heq => cases heq

theorem exists_cons_escapeChar (c : UInt8) : ∃ b s, escapeChar c = b :: s ∧ b ≠ 34 := by
  rw [escapeChar]
  split_ifs with h₁
  all_goals first | exact ⟨92, _, rfl, by decide⟩ | exact ⟨c, [], rfl, h₁⟩

variable {rest : Bytes}

/-- The text of a string says where it ends. -/
theorem appendString_append_inj {t rest' : Bytes}
    (h : appendString s ++ rest = appendString t ++ rest') : s = t ∧ rest = rest' := by
  have hbody : s.flatMap escapeChar ++ 34 :: rest = t.flatMap escapeChar ++ 34 :: rest' := by
    simpa [appendString] using h
  clear h
  induction s generalizing t with
  | nil =>
    cases t with
    | nil => exact ⟨rfl, (List.cons.inj hbody).2⟩
    | cons d t =>
      obtain ⟨b, u, hb, hne⟩ := exists_cons_escapeChar d
      rw [flatMap_nil, nil_append, flatMap_cons, hb] at hbody
      exact absurd (List.cons.inj hbody).1.symm hne
  | cons c s ih =>
    cases t with
    | nil =>
      obtain ⟨b, u, hb, hne⟩ := exists_cons_escapeChar c
      rw [flatMap_nil, nil_append, flatMap_cons, hb] at hbody
      exact absurd (List.cons.inj hbody).1 hne
    | cons d t =>
      have hread := congrArg readEscape hbody
      rw [flatMap_cons, flatMap_cons, append_assoc, append_assoc,
        readEscape_escapeChar, readEscape_escapeChar] at hread
      obtain ⟨rfl, hrest⟩ := Prod.mk.inj (Option.some.inj hread)
      obtain ⟨rfl, hend⟩ := ih hrest
      exact ⟨rfl, hend⟩

/-! ## Numbers -/

/-- What may follow a number in the text of a value: not a character that could belong to it. -/
def Ends (rest : Bytes) : Prop :=
  ∀ c ∈ rest.head?, isdigit c = false ∧ c ≠ 46 ∧ c ≠ 101 ∧ c ≠ 69

theorem Ends.nil : Ends [] := by
  rintro c ⟨⟩

theorem Ends.cons {c : UInt8} (h : c = 44 ∨ c = 93 ∨ c = 125) (rest : Bytes) :
    Ends (c :: rest) := by
  rintro d ⟨⟩
  rcases h with rfl | rfl | rfl <;> decide

theorem parseDigits_decimal (n : Nat) (hrest : Ends rest) :
    parseDigits (decimal n ++ rest) = .ok (decimal n, rest) := by
  obtain ⟨-, -, -, htake, hdrop⟩ := scan_decimal n fun c hc ↦ (hrest c hc).1
  cases hd : decimal n with
  | nil => exact absurd hd (decimal_ne_nil n)
  | cons c digits =>
    rw [cons_append, parseDigits]
    by_cases hzero : c = 48
    · have hn : n = 0 := head?_decimal (by rw [hd, hzero]; rfl)
      subst hn
      cases hd
      rfl
    · have hc : isdigit c = true := isdigit_of_mem_decimal (n := n) (hd ▸ mem_cons_self)
      rw [if_neg hzero, if_pos hc, ← cons_append, ← hd, spanDigits, htake, hdrop]

theorem parseFraction_of_ends (h : Ends rest) :
    parseFraction rest = .ok (none, rest) := by
  rw [parseFraction]
  rintro s rfl
  exact (h 46 rfl).2.1 rfl

theorem parseExponent_of_ends (h : Ends rest) :
    parseExponent rest = .ok (none, rest) := by
  cases rest with
  | nil => rfl
  | cons c rest =>
    obtain ⟨-, -, he, hE⟩ := h c rfl
    simp only [parseExponent, he, hE, or_self, if_false]

theorem parseNumber_of_digits {negative : Bool} {i : Int}
    (hsign : (s.head? == some 45) = negative)
    (hs : (if negative then s.tail else s) = decimal n ++ rest)
    (hi : (if negative then -1 else 1) * (n : Int) = i) (hmin : longMin ≤ i) (hmax : i ≤ longMax)
    (hrest : Ends rest) : parseNumber s = .ok (newInt64 i, rest) := by
  have hone : (i : Rat) = 0 ∨ 1 ≤ |(i : Rat)| := by
    rcases eq_or_ne i 0 with rfl | hne
    · exact .inl Int.cast_zero
    · exact .inr (by exact_mod_cast Int.one_le_abs hne)
  have hbound : |(i : Rat)| ≤ 2 ^ 64 := by
    have habs : |i| ≤ 2 ^ 64 := by
      rw [longMin] at hmin
      rw [longMax] at hmax
      rw [abs_le]
      omega
    exact_mod_cast habs
  have hvalue : (((if negative then -1 else 1 : Int) : Rat) * (n : Rat)) = i := by
    exact_mod_cast congrArg (Int.cast : Int → Rat) hi
  simp only [parseNumber, hsign, hs, parseDigits_decimal n hrest, parseFraction_of_ends hrest,
    parseExponent_of_ends hrest, bind, Except.bind, Option.getD_none, append_nil,
    length_nil, digitsValue_decimal, hi, Nat.cast_zero, sub_zero, zpow_zero, mul_one, hvalue]
  rw [if_neg (not_or.2 ⟨Binary64.not_overflows_of_le hone hbound,
    Binary64.not_underflows_of_one_le hone⟩)]
  simp only [true_and, if_pos (And.intro hmin hmax), newInt64]

/-- **Integers**: the text of a 64-bit integer is read as the integer. -/
theorem parseNumber_decimalInt {i : Int} (hmin : longMin ≤ i) (hmax : i ≤ longMax)
    (hrest : Ends rest) : parseNumber (decimalInt i ++ rest) = .ok (newInt64 i, rest) := by
  cases i with
  | ofNat n =>
    have hhead := (scan_decimal n fun c hc ↦ (hrest c hc).1).2.1
    exact parseNumber_of_digits hhead rfl (one_mul _) hmin hmax hrest
  | negSucc n =>
    have hsign : ((decimalInt (.negSucc n) ++ rest).head? == some 45) = true := rfl
    refine parseNumber_of_digits hsign rfl ?_ hmin hmax hrest
    rw [if_pos rfl]
    omega

/-! ## Values -/

theorem digit_cases : ∀ {c : UInt8}, (c = 45 ∨ isdigit c = true) →
    isspace c = false ∧ c ≠ 34 ∧ c ≠ 91 ∧ c ≠ 93 ∧ c ≠ 123 ∧ c ≠ 125 ∧ c ≠ 110 ∧ c ≠ 116 ∧
      c ≠ 102 := by
  decide +kernel

theorem exists_cons_decimalInt (i : Int) :
    ∃ c s, decimalInt i = c :: s ∧ (c = 45 ∨ isdigit c = true) := by
  cases i with
  | negSucc n => exact ⟨45, decimal (n + 1), rfl, .inl rfl⟩
  | ofNat n =>
    obtain ⟨c, s, hd⟩ := exists_cons_of_ne_nil (decimal_ne_nil n)
    exact ⟨c, s, hd, .inr (isdigit_of_mem_decimal (n := n) (hd ▸ mem_cons_self))⟩

/-- The first character of a value is not white space and no closing bracket. -/
def Starts (v : Json) : Prop :=
  ∃ c s, appendValue v = c :: s ∧ isspace c = false ∧ c ≠ 93 ∧ c ≠ 125

variable {v : Json}

theorem Plain.starts (hv : Plain v) : Starts v := by
  cases hv with
  | null | string s | array items | object members => exact ⟨_, _, rfl, rfl, by decide, by decide⟩
  | boolean b => cases b <;> exact ⟨_, _, rfl, rfl, by decide, by decide⟩
  | int64 i =>
    obtain ⟨c, s, hi, hc⟩ := exists_cons_decimalInt i
    obtain ⟨hspace, -, -, h93, -, h125, -⟩ := digit_cases hc
    exact ⟨c, s, by rw [newInt64, appendValue, hi], hspace, h93, h125⟩

theorem skipSpace_cons (h : isspace c = false) (s : Bytes) :
    skipSpace (c :: s) = c :: s := by
  rw [skipSpace, trimLeft, dropWhile_cons_of_neg (by simp [h])]

/-- A number is recognised by its first character. -/
theorem parseValue_number (hc : c = 45 ∨ isdigit c = true) (n : Nat) (s : Bytes) :
    parseValue (n + 1) (c :: s) = parseNumber (c :: s) := by
  obtain ⟨hspace, h34, h91, -, h123, -, h110, h116, h102⟩ := digit_cases hc
  have hword : ∀ (d : UInt8) (w : Bytes), c ≠ d → ¬ (d :: w).isPrefixOf (c :: s) = true := by
    intro d w hne
    simp [List.isPrefixOf, Ne.symm hne]
  have hnull : ¬ (bytes "null").isPrefixOf (c :: s) = true := hword 110 (bytes "ull") h110
  have htrue : ¬ (bytes "true").isPrefixOf (c :: s) = true := hword 116 (bytes "rue") h116
  have hfalse : ¬ (bytes "false").isPrefixOf (c :: s) = true := hword 102 (bytes "alse") h102
  rw [parseValue, skipSpace_cons hspace]
  dsimp only
  rw [if_neg h34, if_neg h91, if_neg h123, if_neg hnull, if_neg htrue, if_neg hfalse, if_pos hc]

theorem appendItems_cons_cons (a b : Json) (items : List Json) :
    appendItems (a :: b :: items) = appendValue a ++ 44 :: appendItems (b :: items) := by
  rw [appendItems]
  rintro ⟨⟩

theorem appendItems_eq_intercalate (items : List Json) :
    appendItems items = List.intercalate [44] (items.map appendValue) := by
  induction items with
  | nil => rfl
  | cons item items ih =>
    cases items with
    | nil => simp [appendItems]
    | cons next items =>
      rw [appendItems_cons_cons, ih, map_cons, map_cons, map_cons, intercalate_cons_cons,
        append_assoc]
      rfl

theorem appendMembers_cons_cons (a b : Bytes × Json) (members : List (Bytes × Json)) :
    appendMembers (a :: b :: members) =
      appendString a.1 ++ 58 :: appendValue a.2 ++ 44 :: appendMembers (b :: members) := by
  rw [appendMembers]
  rintro ⟨⟩

variable {item : Json}

theorem exists_cons_appendItems (hitem : Starts item) (items : List Json) :
    ∃ c s, appendItems (item :: items) = c :: s ∧ isspace c = false ∧ c ≠ 93 := by
  obtain ⟨c, s, hv, hspace, h93, -⟩ := hitem
  cases items with
  | nil => exact ⟨c, s, by rw [appendItems, hv], hspace, h93⟩
  | cons b items => exact ⟨c, _, by rw [appendItems_cons_cons, hv, cons_append], hspace, h93⟩

theorem skipSpace_appendItems (hitem : Starts item) (items : List Json) (rest : Bytes) :
    skipSpace (appendItems (item :: items) ++ rest) = appendItems (item :: items) ++ rest := by
  obtain ⟨c, s, hs, hspace, -⟩ := exists_cons_appendItems hitem items
  rw [hs, cons_append, skipSpace_cons hspace]

section Containers

variable {value : Bytes → Except Failure (Json × Bytes)}

/-- `value` reads a value back in front of whatever may follow it. -/
def ReadsBack (value : Bytes → Except Failure (Json × Bytes)) (v : Json) : Prop :=
  ∀ rest, Ends rest → value (appendValue v ++ rest) = .ok (v, rest)

variable {items : List Json}

theorem parseItems_appendItems
    (hstarts : ∀ v ∈ item :: items, Starts v) (hback : ∀ v ∈ item :: items, ReadsBack value v)
    (hfuel : items.length ≤ fuel) (rest : Bytes) :
    parseItems value (fuel + 1) (appendItems (item :: items) ++ 93 :: rest) =
      .ok (item :: items, rest) := by
  induction items generalizing item fuel with
  | nil =>
    rw [parseItems, appendItems, hback item mem_cons_self _ (.cons (.inr (.inl rfl)) rest)]
    rfl
  | cons b items ih =>
    obtain ⟨fuel, rfl⟩ := Nat.exists_eq_succ_of_ne_zero (Nat.ne_of_gt (Nat.zero_lt_of_lt hfuel))
    have hrest := ih (fun v hv ↦ hstarts v (mem_cons_of_mem _ hv))
      (fun v hv ↦ hback v (mem_cons_of_mem _ hv)) (Nat.le_of_succ_le_succ hfuel)
    have hb : Starts b := hstarts b (mem_cons_of_mem _ mem_cons_self)
    rw [parseItems, appendItems_cons_cons, append_assoc, cons_append,
      hback item mem_cons_self _ (.cons (.inl rfl) _)]
    simp only [bind, Except.bind, skipSpace_cons (c := 44) rfl, skipSpace_appendItems hb, hrest]
    rfl

theorem parseKey_appendString {key : Bytes} (hkey : 0 ∉ key) (rest : Bytes) :
    parseKey (appendString key ++ 58 :: rest) = .ok (key, rest) := by
  rw [parseKey, parseStringRaw_appendString hkey]
  rfl

theorem parseMembers_appendMembers {m : Bytes × Json}
    (hkeys : ∀ m' ∈ m :: members, 0 ∉ m'.1) (hback : ∀ m' ∈ m :: members, ReadsBack value m'.2)
    (hfuel : members.length ≤ fuel) (rest : Bytes) :
    parseMembers value (fuel + 1) (appendMembers (m :: members) ++ 125 :: rest) =
      .ok (m :: members, rest) := by
  induction members generalizing m fuel with
  | nil =>
    rw [parseMembers, appendMembers, append_assoc, cons_append,
      parseKey_appendString (hkeys m mem_cons_self)]
    simp only [bind, Except.bind, hback m mem_cons_self _ (.cons (.inr (.inr rfl)) rest)]
    rfl
  | cons b members ih =>
    obtain ⟨fuel, rfl⟩ := Nat.exists_eq_succ_of_ne_zero (Nat.ne_of_gt (Nat.zero_lt_of_lt hfuel))
    have hrest := ih (fun v hv ↦ hkeys v (mem_cons_of_mem _ hv))
      (fun v hv ↦ hback v (mem_cons_of_mem _ hv)) (Nat.le_of_succ_le_succ hfuel)
    have hskip : ∀ rest, skipSpace (appendMembers (b :: members) ++ rest) =
        appendMembers (b :: members) ++ rest := by
      intro rest
      cases members <;> rfl
    rw [parseMembers, appendMembers_cons_cons, append_assoc, append_assoc,
      cons_append, cons_append, parseKey_appendString (hkeys m mem_cons_self)]
    simp only [bind, Except.bind, hback m mem_cons_self _ (.cons (.inl rfl) _),
      skipSpace_cons (c := 44) rfl, hskip, hrest]
    rfl

theorem length_le_appendItems (item : Json) (items : List Json) :
    items.length ≤ (appendItems (item :: items)).length := by
  induction items generalizing item with
  | nil => exact Nat.zero_le _
  | cons b items ih =>
    have := ih b
    rw [appendItems_cons_cons, length_append, length_cons, length_cons]
    omega

theorem length_le_appendMembers (m : Bytes × Json) (members : List (Bytes × Json)) :
    members.length ≤ (appendMembers (m :: members)).length := by
  induction members generalizing m with
  | nil => exact Nat.zero_le _
  | cons b members ih =>
    have := ih b
    rw [appendMembers_cons_cons, length_append, length_cons, length_cons]
    omega

theorem parseArray_appendItems (hstarts : ∀ v ∈ items, Starts v)
    (hback : ∀ v ∈ items, ReadsBack value v) (rest : Bytes) :
    parseArray value (appendItems items ++ 93 :: rest) = .ok (.array items, rest) := by
  cases items with
  | nil => rfl
  | cons item items =>
    have hfuel : items.length ≤ (appendItems (item :: items) ++ 93 :: rest).length := by
      rw [length_append]
      exact (length_le_appendItems item items).trans (Nat.le_add_right _ _)
    rw [parseArray, skipSpace_appendItems (hstarts item mem_cons_self)]
    obtain ⟨c, s, hs, -, h93⟩ := exists_cons_appendItems (hstarts item mem_cons_self) items
    split
    · rename_i hhead
      rw [hs, cons_append, List.cons.injEq] at hhead
      exact absurd hhead.1 h93
    · rw [parseItems_appendItems hstarts hback hfuel rest]
      rfl

theorem parseObject_appendMembers (hkeys : ∀ m ∈ members, 0 ∉ m.1)
    (hback : ∀ m ∈ members, ReadsBack value m.2) (rest : Bytes) :
    parseObject value (appendMembers members ++ 125 :: rest) = .ok (.object members, rest) := by
  cases members with
  | nil => rfl
  | cons m members =>
    have hfuel : members.length ≤ (appendMembers (m :: members) ++ 125 :: rest).length := by
      rw [length_append]
      exact (length_le_appendMembers m members).trans (Nat.le_add_right _ _)
    have hskip : skipSpace (appendMembers (m :: members) ++ 125 :: rest) =
        appendMembers (m :: members) ++ 125 :: rest := by
      cases members <;> rfl
    rw [parseObject, hskip]
    split
    · rename_i hhead
      cases members <;> cases hhead
    · rw [parseMembers_appendMembers hkeys hback hfuel rest]
      rfl

end Containers

theorem depth_pos (v : Json) : 0 < depth v := by
  cases v <;> exact Nat.succ_pos _

/-- A value is read back with as many levels as it has. -/
theorem parseValue_appendValue :
    ∀ {v : Json}, Plain v → depth v ≤ n → ReadsBack (parseValue n) v := by
  induction n with
  | zero =>
    intro v _ hdepth
    exact absurd (depth_pos v) (by omega)
  | succ n ih =>
    intro v hv hdepth rest hrest
    cases hv with
    | null => rfl
    | boolean b => cases b <;> rfl
    | int64 i hmin hmax =>
      obtain ⟨c, s, hi, hc⟩ := exists_cons_decimalInt i
      have hnumber := parseNumber_decimalInt hmin hmax hrest
      rw [hi] at hnumber
      rw [newInt64, appendValue, hi]
      exact (parseValue_number hc n (s ++ rest)).trans hnumber
    | string s hs =>
      have hvalue : parseValue (n + 1) (appendString s ++ rest) =
          (do
            let (text, rest) ← parseStringRaw (appendString s ++ rest)
            return (.string text, rest)) := rfl
      rw [appendValue, hvalue, parseStringRaw_appendString hs]
      rfl
    | array items h =>
      have hitems := parseArray_appendItems (fun v hv ↦ (h v hv).starts)
        (fun v hv ↦ ih (h v hv) (depthItems_le_iff.1 (Nat.le_of_succ_le_succ hdepth) v hv)) rest
      rw [appendValue, append_assoc]
      exact hitems
    | object members hkeys h =>
      have hmembers := parseObject_appendMembers hkeys
        (fun m hm ↦ ih (h m hm) (depthMembers_le_iff.1 (Nat.le_of_succ_le_succ hdepth) m hm)) rest
      rw [appendValue, append_assoc]
      exact hmembers

/-! ## The text is a C string -/

theorem zero_notMem_appendString (s : Bytes) : 0 ∉ appendString s := by
  have hescape : ∀ c : UInt8, 0 ∉ escapeChar c := by decide +kernel
  simp [appendString, hescape]

theorem zero_notMem_appendItems
    (h : ∀ item ∈ items, 0 ∉ appendValue item) : 0 ∉ appendItems items := by
  rw [appendItems_eq_intercalate]
  intro hmem
  rcases mem_intercalate hmem with hsep | ⟨part, hpart, hzero⟩
  · cases hsep
  obtain ⟨item, hitem, rfl⟩ := mem_map.1 hpart
  exact h item hitem hzero

theorem zero_notMem_appendMembers
    (h : ∀ m ∈ members, 0 ∉ appendValue m.2) : 0 ∉ appendMembers members := by
  induction members with
  | nil => simp [appendMembers]
  | cons a members ih =>
    obtain ⟨ha, hmembers⟩ := forall_mem_cons.1 h
    have hmember : 0 ∉ appendString a.1 ++ 58 :: appendValue a.2 := by
      rw [mem_append, mem_cons, not_or, not_or]
      exact ⟨zero_notMem_appendString a.1, by decide, ha⟩
    cases members with
    | nil => exact hmember
    | cons b members =>
      rw [appendMembers_cons_cons, mem_append, mem_cons, not_or, not_or]
      exact ⟨hmember, by decide, ih hmembers⟩

/-- The text of a tree has no NUL, so that it can be handed on as a C string. -/
theorem Plain.zero_notMem_appendValue (hv : Plain v) : 0 ∉ appendValue v := by
  induction hv with
  | null => decide
  | boolean b => cases b <;> decide
  | int64 i => exact notMem_decimalInt (by decide) (by decide) i
  | string s => exact zero_notMem_appendString s
  | array items _ ih =>
    rw [appendValue, mem_append, mem_cons, not_or, not_or]
    exact ⟨⟨by decide, zero_notMem_appendItems ih⟩, by decide⟩
  | object members _ _ ih =>
    rw [appendValue, mem_append, mem_cons, not_or, not_or]
    exact ⟨⟨by decide, zero_notMem_appendMembers ih⟩, by decide⟩

/-! ## Nesting -/

section Containers

variable {value : Bytes → Except Failure (Json × Bytes)} {n : Nat}

variable (hvalue : ∀ s v rest, value s = .ok (v, rest) → depth v ≤ n)

include hvalue

theorem depth_parseItems {s rest : Bytes} (h : parseItems value fuel s = .ok (items, rest)) :
    depthItems items ≤ n := by
  induction fuel generalizing s items rest with
  | zero => cases h
  | succ fuel ih =>
    rw [parseItems, bind_eq_ok_iff] at h
    obtain ⟨⟨item, s'⟩, hitem, h⟩ := h
    have hdepth := hvalue s item s' hitem
    dsimp only at h
    split at h
    · cases h
    split_ifs at h with h93 h44
    · cases h
      exact max_le hdepth (Nat.zero_le n)
    · cases h
    · obtain ⟨⟨items', t⟩, hitems, h⟩ := bind_eq_ok_iff.1 h
      cases h
      exact max_le hdepth (ih hitems)

theorem depth_parseMembers {s rest : Bytes} (h : parseMembers value fuel s = .ok (members, rest)) :
    depthMembers members ≤ n := by
  induction fuel generalizing s members rest with
  | zero => cases h
  | succ fuel ih =>
    rw [parseMembers, bind_eq_ok_iff] at h
    obtain ⟨⟨key, s'⟩, -, h⟩ := h
    obtain ⟨⟨member, s''⟩, hmember, h⟩ := bind_eq_ok_iff.1 h
    have hdepth := hvalue s' member s'' hmember
    dsimp only at h
    split at h
    · cases h
    split_ifs at h with h125 h44
    · cases h
      exact max_le hdepth (Nat.zero_le n)
    · cases h
    · obtain ⟨⟨members', t⟩, hmembers, h⟩ := bind_eq_ok_iff.1 h
      cases h
      exact max_le hdepth (ih hmembers)

end Containers

theorem depth_parseNumber (h : parseNumber s = .ok (v, rest)) :
    depth v = 1 := by
  rw [parseNumber, bind_eq_ok_iff] at h
  obtain ⟨⟨digits, s₁⟩, -, h⟩ := h
  obtain ⟨⟨fraction, s₂⟩, -, h⟩ := bind_eq_ok_iff.1 h
  obtain ⟨⟨exponent, s₃⟩, -, h⟩ := bind_eq_ok_iff.1 h
  dsimp only at h
  generalize (if (s.head? == some 45) = true then (-1 : Int) else 1) = sign at h
  split at h
  · cases h
  · cases h
    rfl

/-- What the parser accepts has no more levels than it may open. -/
theorem depth_parseValue :
    ∀ {s : Bytes} {v : Json} {rest : Bytes}, parseValue n s = .ok (v, rest) → depth v ≤ n := by
  induction n with
  | zero =>
    intro s v rest h
    cases h
  | succ n ih =>
    have hone : 1 ≤ n + 1 := Nat.succ_pos n
    intro s v rest h
    rw [parseValue] at h
    split at h
    · cases h
    rename_i c s' _
    split_ifs at h
    · obtain ⟨⟨text, t⟩, -, h⟩ := bind_eq_ok_iff.1 h
      cases h
      exact hone
    · rw [parseArray] at h
      split at h
      · cases h
        exact hone
      · obtain ⟨⟨items, t⟩, hitems, h⟩ := bind_eq_ok_iff.1 h
        cases h
        exact Nat.succ_le_succ (depth_parseItems (fun s v rest ↦ ih) hitems)
    · rw [parseObject] at h
      split at h
      · cases h
        exact hone
      · obtain ⟨⟨members, t⟩, hmembers, h⟩ := bind_eq_ok_iff.1 h
        cases h
        exact Nat.succ_le_succ (depth_parseMembers (fun s v rest ↦ ih) hmembers)
    · cases h
      exact hone
    · cases h
      exact hone
    · cases h
      exact hone
    · exact (depth_parseNumber h).trans_le hone
    · cases h

theorem parse_eq_ok_iff :
    parse s = .ok v ↔ ∃ rest, parseValue 64 s = .ok (v, rest) ∧ skipSpace rest = [] := by
  have htext : parse s = .ok v ↔ parseText s = .ok v := by
    rw [parse]
    cases parseText s <;> simp
  rw [htext, parseText, bind_eq_ok_iff]
  constructor
  · rintro ⟨⟨w, rest⟩, hw, h⟩
    dsimp only at h
    split at h
    · rename_i hrest
      cases h
      exact ⟨rest, hw, hrest⟩
    · cases h
  · rintro ⟨rest, hw, hrest⟩
    refine ⟨(v, rest), hw, ?_⟩
    dsimp only
    rw [hrest]
    rfl

/-- A tree of at most 64 levels is read back from its text. -/
theorem parse_appendValue (hv : Plain v) (hdepth : depth v ≤ 64) :
    parse (appendValue v) = .ok v := by
  have hback := parseValue_appendValue hv hdepth [] .nil
  rw [append_nil] at hback
  exact parse_eq_ok_iff.2 ⟨[], hback, rfl⟩

/-- A value that the writer is for, with at most so many levels. -/
def Writable (n : Nat) (value : Json) : Prop :=
  Plain value ∧ depth value ≤ n

theorem Writable.object (h : ∀ m ∈ members, 0 ∉ m.1 ∧ Writable n m.2) :
    Writable (n + 1) (.object members) := by
  refine ⟨.object _ (fun m hm ↦ (h m hm).1) fun m hm ↦ (h m hm).2.1, ?_⟩
  rw [depth]
  exact Nat.succ_le_succ (depthMembers_le_iff.2 fun m hm ↦ (h m hm).2.2)

theorem Writable.array (h : ∀ item ∈ items, Writable n item) : Writable (n + 1) (.array items) := by
  refine ⟨.array _ fun item hitem ↦ (h item hitem).1, ?_⟩
  rw [depth]
  exact Nat.succ_le_succ (depthItems_le_iff.2 fun item hitem ↦ (h item hitem).2)

theorem Writable.string (h : 0 ∉ s) : Writable (n + 1) (.string s) :=
  ⟨.string s h, by simp [depth]⟩

theorem Writable.null : Writable (n + 1) .null :=
  ⟨.null, by simp [depth]⟩

theorem Writable.boolean (b : Bool) : Writable (n + 1) (.boolean b) :=
  ⟨.boolean b, by simp [depth]⟩

theorem Writable.newInt64 {i : Int} (hmin : longMin ≤ i) (hmax : i ≤ longMax) :
    Writable (n + 1) (newInt64 i) :=
  ⟨.int64 i hmin hmax, by simp [Json.newInt64, depth]⟩

theorem Writable.parse (h : Writable n v) (hn : n ≤ 64) : parse (appendValue v) = .ok v :=
  parse_appendValue h.1 (h.2.trans hn)

/-- **Round trip**: a tree of nulls, booleans, 64-bit integers, strings without NUL, arrays and
objects is read back from its text as it was iff it has at most 64 levels. -/
theorem parse_appendValue_iff {v : Json} (hv : Plain v) :
    parse (appendValue v) = .ok v ↔ depth v ≤ 64 := by
  refine ⟨fun h ↦ ?_, parse_appendValue hv⟩
  obtain ⟨rest, h, -⟩ := parse_eq_ok_iff.1 h
  exact depth_parseValue h

/-- A tree with the smallest integer, an escaped string and an empty array. -/
def sample : Json :=
  .object [(bytes "a", .array [newInt64 longMin, .string [34, 10, 1, 0xc3, 0xa9], .array []]),
    (bytes "b", .null)]

/-- The sample is read back. -/
theorem parse_sample : parse (appendValue sample) = .ok sample := by
  refine (parse_appendValue_iff ?_).2 (by decide)
  refine .object _ (by decide) ?_
  simp only [mem_cons, not_mem_nil, or_false, forall_eq_or_imp, forall_eq]
  refine ⟨.array _ ?_, .null⟩
  simp only [mem_cons, not_mem_nil, or_false, forall_eq_or_imp, forall_eq]
  exact ⟨.int64 _ (by decide) (by decide), .string _ (by decide), .array [] nofun⟩

end ClambHook.Json
