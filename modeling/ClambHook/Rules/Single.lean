import ClambHook.Lib.InetText
import ClambHook.Rules.FirstMatch

/-!
# Engines with one rule

What the engine does with a single rule: it is compiled together with its action, of which
`ParsedAction` says how the text is read, and the engine decides for it exactly when it applies.
-/

namespace ClambHook.Rules

open CString Inet List

/-! ## Compiling -/

/-- The list of a text that may be left out. -/
def optionalText (s : Bytes) : List Bytes :=
  if s = [] then [] else [s]

@[simp] theorem mem_optionalText {s t : Bytes} : t ∈ optionalText s ↔ t = s ∧ s ≠ [] := by
  rw [optionalText]
  split <;> simp_all

@[simp] theorem optionalText_eq_nil {s : Bytes} : optionalText s = [] ↔ s = [] := by
  rw [optionalText]
  split <;> simp_all

theorem ownedStringsCompile_nil (stripDot : Bool) : ownedStringsCompile [] stripDot = [] := rfl

theorem ownedStringsCompile_singleton (s : Bytes) (stripDot : Bool) :
    ownedStringsCompile [s] stripDot = optionalText (trimmedLower s stripDot) := by
  rw [ownedStringsCompile, ownedStringsLoop, optionalText]
  split <;> simp_all [ownedStringsLoop]

theorem trimmedLower_false (s : Bytes) : trimmedLower s false = lower (trim s) := by
  simp [trimmedLower]

variable (value : Bytes)

theorem trimmedLower_true_of_head {value : Bytes} (h : Trimmed value)
    (hhead : value.head? ≠ some 46) :
    trimmedLower value true = lower value := by
  rw [trimmedLower, trim_eq_self h]
  simp [hhead]

/-- The text of a suffix is a part of it: the end of what trimming leaves. -/
theorem trimmedLower_true_eq :
    trimmedLower value true = lower (trim value) ∧ (trim value).head? ≠ some 46 ∨
      trim value = 46 :: (trim value).tail ∧ trimmedLower value true = lower (trim value).tail := by
  rw [trimmedLower]
  by_cases hhead : (trim value).head? = some 46
  · refine .inr ⟨(cons_head?_tail hhead).symm, ?_⟩
    simp [hhead]
  · refine .inl ⟨?_, hhead⟩
    simp [hhead]

theorem ownedStringsCompile_optionalText (s : Bytes) :
    ownedStringsCompile (optionalText s) false = optionalText (lower (trim s)) := by
  by_cases hs : s = []
  · rw [hs]
    rfl
  · rw [optionalText, if_neg hs, ownedStringsCompile_singleton, trimmedLower_false]

theorem ruleEngineCompile_singleton_iff {spec : RuleSpec} {defaultChain : Bytes} {known : Known}
    {engine : RuleEngine} :
    ruleEngineCompile [spec] defaultChain known = .ok engine ↔
      checkDefaultChain (trim defaultChain) known = .ok () ∧ ∃ rule, rule.From spec known ∧
        engine = ⟨trim defaultChain, [rule], !rule.processes.isEmpty⟩ := by
  simp only [ruleEngineCompile, bind_eq_ok_iff, mapM_cons, mapM_nil]
  constructor
  · rintro ⟨u, hu, compiled, ⟨rule, hrule, rest, hrest, h⟩, hengine⟩
    cases hrest
    cases h
    cases hengine
    exact ⟨hu, rule, compileRule_eq_ok_iff.1 hrule, by simp⟩
  · rintro ⟨hu, rule, hrule, rfl⟩
    refine ⟨(), hu, [rule], ⟨rule, compileRule_eq_ok_iff.2 hrule, [], rfl, rfl⟩, ?_⟩
    simp [pure, Except.pure]

/-- The decision of an engine whose first rule is known. -/
theorem decide_cons {engine : RuleEngine} {rule : CompiledRule} {rules : List CompiledRule}
    (hrules : engine.rules = rule :: rules) (hvalid : ∀ r ∈ engine.rules, r.Valid)
    (context : MatchContext) :
    (rule.AppliesTo context ∧ (ruleEngineDecide engine context).Follows 0 rule) ∨
      (¬ rule.AppliesTo context ∧ ((ruleEngineDecide engine context).isDefault = true ∨
        ∃ index r, rules[index]? = some r ∧
          (ruleEngineDecide engine context).Follows (index + 1) r)) := by
  have hhead : engine.rules[0]? = some rule := by
    rw [hrules]
    rfl
  rcases decide_firstMatch hvalid context with ⟨index, r, hget, happlies, hbefore, hfollows⟩ |
    ⟨hnone, h⟩
  · cases index with
    | zero =>
      cases hhead.symm.trans hget
      exact .inl ⟨happlies, hfollows⟩
    | succ index =>
      rw [hrules] at hget
      exact .inr ⟨hbefore 0 (Nat.succ_pos index) rule hhead, .inr ⟨index, r, hget, hfollows⟩⟩
  · exact .inr ⟨hnone rule (mem_of_getElem? hhead), .inl h.isDefault⟩

/-- The decision of an engine with one rule. -/
theorem decide_singleton {rule : CompiledRule} (hrule : rule.Valid) (defaultChain : Bytes)
    (needsProcess : Bool) (context : MatchContext) :
    (rule.AppliesTo context ∧
        (ruleEngineDecide ⟨defaultChain, [rule], needsProcess⟩ context).Follows 0 rule) ∨
      (¬ rule.AppliesTo context ∧
        (ruleEngineDecide ⟨defaultChain, [rule], needsProcess⟩ context).isDefault = true) := by
  refine (decide_cons rfl (by simpa using hrule) context).imp_right fun h ↦
    ⟨h.1, h.2.resolve_right ?_⟩
  rintro ⟨index, r, hget, -⟩
  cases hget

/-! ## Actions -/

/-- How the text of an action is read: around its first colon, without white space, the name of the
kind in any case. -/
@[mk_iff] inductive ParsedAction (chains groups : List Bytes) (raw : Bytes) : Action → Prop where
  | direct (h : lower (trim raw) = bytes "direct") : ParsedAction chains groups raw .direct
  | block (h : lower (trim raw) = bytes "block") : ParsedAction chains groups raw .block
  | reject (h : lower (trim raw) = bytes "reject") : ParsedAction chains groups raw .reject
  | chain {head target : Bytes} (h : trim raw = head ++ 58 :: target)
      (hhead : lower head = bytes "chain") (hne : trim target ≠ []) (hmem : trim target ∈ chains) :
      ParsedAction chains groups raw (.chain (trim target))
  | group {head target : Bytes} (h : trim raw = head ++ 58 :: target)
      (hhead : lower head = bytes "group") (hne : trim target ≠ []) (hmem : trim target ∈ groups) :
      ParsedAction chains groups raw (.group (trim target))

theorem colon_caseless : Caseless 58 :=
  .inl (by decide)

theorem trimmed_chain : Trimmed (bytes "chain") := by decide

theorem trimmed_group : Trimmed (bytes "group") := by decide

variable {raw head : Bytes}

/-- The two splits of an action text are at the same colon. -/
theorem splitAction_of_colon {target : Bytes} (h : trim raw = head ++ 58 :: target)
    (hhead : 58 ∉ head) :
    (splitAction (trimmedLower raw false)).1 = lower head ∧
      (splitAction (trim raw)).2.map trim = some (trim target) := by
  have hlower : splitFirst 58 (lower (trim raw)) = some (lower head, lower target) := by
    rw [splitFirst_eq_some_iff, h]
    refine ⟨by simp [tolower_eq_iff colon_caseless], ?_⟩
    rwa [mem_lower_iff colon_caseless]
  have htext : splitFirst 58 (trim raw) = some (head, target) :=
    splitFirst_eq_some_iff.2 ⟨h, hhead⟩
  simp [splitAction, trimmedLower_false, hlower, htext]

theorem splitAction_of_no_colon (h : 58 ∉ trim raw) :
    (splitAction (trimmedLower raw false)).1 = lower (trim raw) ∧
      (splitAction (trim raw)).2.map trim = none := by
  have hlower : splitFirst 58 (lower (trim raw)) = none := by
    rwa [splitFirst_eq_none_iff, mem_lower_iff colon_caseless]
  simp [splitAction, trimmedLower_false, hlower, splitFirst_eq_none_iff.2 h]

theorem colon_notMem_of_lower {kind : Bytes} (h : lower head = kind)
    (hkind : 58 ∉ kind) : 58 ∉ head := by
  rwa [← h, mem_lower_iff colon_caseless] at hkind

variable {chains groups : List Bytes} {action : Action}

/-- An action text without a colon. -/
theorem parseAction_of_no_colon (h : 58 ∉ trim raw) :
    parseAction raw chains groups = .ok action ↔
      (lower (trim raw) = bytes "direct" ∧ action = .direct) ∨
      (lower (trim raw) = bytes "block" ∧ action = .block) ∨
      (lower (trim raw) = bytes "reject" ∧ action = .reject) := by
  have hblock : bytes "block" ≠ bytes "direct" := by decide
  have hreject : bytes "reject" ≠ bytes "direct" ∧ bytes "reject" ≠ bytes "block" := by decide
  obtain ⟨hhead, htarget⟩ := splitAction_of_no_colon h
  simp only [parseAction, hhead, htarget]
  grind

/-- An action text with a colon. -/
theorem parseAction_of_colon {target : Bytes} (h : trim raw = head ++ 58 :: target)
    (hhead : 58 ∉ head) :
    parseAction raw chains groups = .ok action ↔
      (lower head = bytes "chain" ∧ trim target ≠ [] ∧ trim target ∈ chains ∧
        action = .chain (trim target)) ∨
      (lower head = bytes "group" ∧ trim target ≠ [] ∧ trim target ∈ groups ∧
        action = .group (trim target)) := by
  have hchain : bytes "chain" ≠ bytes "direct" ∧ bytes "chain" ≠ bytes "block" ∧
    bytes "chain" ≠ bytes "reject" := by decide
  have hgroup : bytes "group" ≠ bytes "direct" ∧ bytes "group" ≠ bytes "block" ∧
    bytes "group" ≠ bytes "reject" ∧ bytes "group" ≠ bytes "chain" := by decide
  obtain ⟨hsplit, htarget⟩ := splitAction_of_colon h hhead
  simp only [parseAction, hsplit, htarget]
  cases trim target with
  | nil => grind
  | cons c t => grind

theorem parseAction_eq_ok_iff :
    parseAction raw chains groups = .ok action ↔ ParsedAction chains groups raw action := by
  by_cases hcolon : 58 ∈ trim raw
  · constructor
    · intro h
      cases hsplit : splitFirst 58 (trim raw) with
      | none => exact absurd hcolon (splitFirst_eq_none_iff.1 hsplit)
      | some parts =>
        obtain ⟨hraw, hhead⟩ := splitFirst_eq_some_iff.1 hsplit
        rcases (parseAction_of_colon hraw hhead).1 h with ⟨hkind, hne, hmem, rfl⟩ |
          ⟨hkind, hne, hmem, rfl⟩
        · exact .chain hraw hkind hne hmem
        · exact .group hraw hkind hne hmem
    · have hkind : ∀ kind, 58 ∉ kind → lower (trim raw) ≠ kind := fun kind hnot heq ↦
        colon_notMem_of_lower heq hnot hcolon
      intro h
      cases h with
      | direct h | block h | reject h => exact absurd h (hkind _ (by decide))
      | chain h hhead hne hmem =>
        rw [parseAction_of_colon h (colon_notMem_of_lower hhead (by decide))]
        exact .inl ⟨hhead, hne, hmem, rfl⟩
      | group h hhead hne hmem =>
        rw [parseAction_of_colon h (colon_notMem_of_lower hhead (by decide))]
        exact .inr ⟨hhead, hne, hmem, rfl⟩
  · have hsplit : ∀ head target, trim raw ≠ head ++ 58 :: target := by
      intro head target h
      exact absurd (by simp [h]) hcolon
    simp [parseAction_of_no_colon hcolon, parsedAction_iff, hsplit]

/-! ## Addresses -/

variable {text address : Bytes} {family : Family}

/-- A text is an address of at most one family. -/
theorem parseAddress_eq_some_iff :
    parseAddress text = some (family, address) ↔ pton family text = some address := by
  rw [parseAddress, Option.or_eq_some_iff]
  cases family with
  | inet =>
    rw [pton]
    constructor
    · rintro (h | ⟨-, h⟩)
      · simpa using h
      · simp at h
    · intro h
      exact .inl (by rw [h]; rfl)
  | inet6 =>
    rw [pton]
    constructor
    · rintro (h | ⟨-, h⟩)
      · simp at h
      · simpa using h
    · intro h
      exact .inr ⟨by rw [pton4_eq_none_of_pton6 h]; rfl, by rw [h]; rfl⟩

/-- What the text of an address is like. -/
structure AddressText (family : Family) (text : Bytes) : Prop where
  chars : ∀ c ∈ text, IsAddressChar c
  last : text.getLast? ≠ some 46
  length : text.length ≤ 45
  colon : 58 ∈ text ↔ family = .inet6

theorem addressText_of_pton (h : pton family text = some address) : AddressText family text := by
  cases family with
  | inet =>
    have hdotted := dotted_of_pton4 h
    refine ⟨fun c hc ↦ ?_, ?_, by have := hdotted.length; omega, ?_⟩
    · rcases hdotted.chars c hc with hdigit | rfl
      · exact isAddressChar_of_isdigit hdigit
      · exact .inr (.inl rfl)
    · exact (isField_of_pton4 h).last
    · simpa using hdotted.colon_notMem
  | inet6 =>
    have hcoloned := coloned_of_pton6 h
    exact ⟨hcoloned.chars, hcoloned.last, by have := hcoloned.length; omega,
      by simpa using hcoloned.colon⟩

theorem pton_lower (family : Family) (text : Bytes) :
    pton family (lower text) = pton family text := by
  cases family with
  | inet => exact pton4_lower text
  | inet6 => exact pton6_lower text

theorem isspace_of_isAddressChar : ∀ {c : UInt8}, IsAddressChar c → isspace c = false := by
  unfold IsAddressChar
  decide +kernel

theorem ne_bracket_of_isAddressChar : ∀ {c : UInt8}, IsAddressChar c → c ≠ 91 ∧ c ≠ 93 := by
  unfold IsAddressChar
  decide +kernel

theorem AddressText.trimmed (h : AddressText family text) :
    Trimmed text :=
  ⟨fun c hc ↦ isspace_of_isAddressChar (h.chars c (mem_of_mem_head? hc)),
    fun c hc ↦ isspace_of_isAddressChar (h.chars c (mem_of_getLast? hc))⟩

theorem AddressText.stripBrackets (h : AddressText family text) :
    CString.stripBrackets text = text :=
  stripBrackets_of_head fun hhead ↦
    (ne_bracket_of_isAddressChar (h.chars 91 (mem_of_mem_head? hhead))).1 rfl

/-! ## CIDRs -/

/-- The text is an address of the family, a slash and the length of a prefix. -/
def CidrText (text : Bytes) (family : Family) (address : Bytes) (n : Nat) : Prop :=
  ∃ front bits, splitLast 47 text = some (front, bits) ∧ pton family front = some address ∧
    bits ≠ [] ∧ (strtol bits).rest = [] ∧ (strtol bits).value = n ∧ n ≤ family.bits

theorem slash_caseless : Caseless 47 :=
  .inl (by decide)

theorem pton_nil (family : Family) : pton family [] = none := by
  cases family <;> decide

theorem CidrText.trimmed {n : Nat}
    (h : CidrText text family address n) : Trimmed text := by
  obtain ⟨front, bits, hsplit, haddress, hne, hrest, -⟩ := h
  obtain ⟨htext, -⟩ := splitLast_eq_some_iff.1 hsplit
  obtain ⟨c, hlast, hdigit⟩ := exists_getLast?_of_strtol hne hrest
  cases front with
  | nil =>
    rw [pton_nil] at haddress
    cases haddress
  | cons b front =>
    have hb := isspace_of_isAddressChar ((addressText_of_pton haddress).chars b mem_cons_self)
    have hlast : text.getLast? = some c := by
      rw [htext, List.getLast?_append, List.getLast?_cons, hlast]
      rfl
    exact trimmed_of_ends (by rw [htext]; rfl) hb hlast (isspace_of_isdigit hdigit)

/-- The text that is written for an address and a prefix length. -/
theorem cidrText_of_pton (h : pton family text = some address) {n : Nat} (hn : n ≤ family.bits) :
    CidrText (text ++ 47 :: decimal n) family address n := by
  have hbits : family.bits ≤ 128 := by cases family <;> decide
  have hread : strtol (decimal n) = ⟨n, [], false⟩ := strtol_decimal (by rw [longMax]; omega)
  refine ⟨text, decimal n, splitLast_eq_some_iff.2 ⟨rfl, notMem_decimal rfl _⟩, h,
    decimal_ne_nil _, ?_, ?_, hn⟩
  · rw [hread]
  · rw [hread]

/-- The check of a prefix length, without its cases for numbers that do not fit. -/
theorem prefixRejected_iff {bits : Bytes} (hne : bits ≠ []) (family : Family) :
    ((strtol bits).erange = true ∨ (strtol bits).value < 0 ∨ (strtol bits).value > family.bits ∨
        lower (strtol bits).rest = lower bits ∨ lower (strtol bits).rest ≠ []) ↔
      ¬ ((strtol bits).rest = [] ∧ 0 ≤ (strtol bits).value ∧
        (strtol bits).value ≤ family.bits) := by
  have hbits : family.bits ≤ 128 := by cases family <;> decide
  have herange := value_of_erange (s := bits)
  rw [longMin, longMax] at herange
  rw [Ne, lower_eq_nil]
  constructor
  · rintro h ⟨hrest, h₁, h₂⟩
    rcases h with h | h | h | h | h
    · have := herange h
      omega
    · omega
    · omega
    · rw [hrest, lower_nil] at h
      exact hne (lower_eq_nil.1 h.symm)
    · exact h hrest
  · intro h
    by_contra hnot
    simp only [not_or, not_not, not_lt] at hnot
    exact h ⟨hnot.2.2.2.2, hnot.2.1, hnot.2.2.1⟩

/-- What the engine compiles a CIDR from. -/
theorem cidrCompile_eq_ok_iff {c : Cidr} :
    cidrCompile raw = .ok c ↔
      CidrText (trim raw) c.family c.address c.prefixLength ∧ c.text = lower (trim raw) := by
  rw [cidrCompile, trimmedLower_false, splitLast_lower slash_caseless, CidrText]
  cases hsplit : splitLast 47 (trim raw) with
  | none => simp
  | some parts =>
    obtain ⟨front, bits⟩ := parts
    simp only [Option.map_some, lower_eq_nil, strtol_lower, Option.some.injEq, Prod.mk.injEq]
    by_cases hempty : front = [] ∨ bits = []
    · rw [if_pos hempty]
      refine ⟨(fun h ↦ by cases h), ?_⟩
      rintro ⟨⟨_, _, ⟨rfl, rfl⟩, haddress, hne, -⟩, -⟩
      rcases hempty with rfl | rfl
      · rw [pton_nil] at haddress
        cases haddress
      · exact absurd rfl hne
    rw [if_neg hempty]
    rw [not_or] at hempty
    cases hparse : parseAddress (lower front) with
    | none =>
      refine ⟨(fun h ↦ by cases h), ?_⟩
      rintro ⟨⟨_, _, ⟨rfl, rfl⟩, haddress, -⟩, -⟩
      rw [← pton_lower, ← parseAddress_eq_some_iff, hparse] at haddress
      cases haddress
    | some parsed =>
      obtain ⟨family, address⟩ := parsed
      rw [parseAddress_eq_some_iff, pton_lower] at hparse
      dsimp only
      rw [if_congr (prefixRejected_iff hempty.2 family) rfl rfl]
      constructor
      · intro h
        split at h
        · cases h
        rename_i hread
        rw [not_not] at hread
        cases h
        exact ⟨⟨front, bits, ⟨rfl, rfl⟩, hparse, hempty.2, hread.1,
          (Int.toNat_of_nonneg hread.2.1).symm, Int.toNat_le.2 hread.2.2⟩, rfl⟩
      · rintro ⟨⟨_, _, ⟨rfl, rfl⟩, haddress, hne, hrest, hvalue, hn⟩, htext⟩
        have hfamily := parseAddress_eq_some_iff.2 haddress
        rw [parseAddress_eq_some_iff.2 hparse] at hfamily
        cases hfamily
        rw [if_neg (not_not.2 ⟨hrest, by omega, by omega⟩), hvalue, Int.toNat_natCast, ← htext]

theorem CidrText.compile {n : Nat} (h : CidrText text family address n) :
    cidrCompile text = .ok ⟨family, address, n, lower text⟩ := by
  rw [cidrCompile_eq_ok_iff, trim_eq_self h.trimmed]
  exact ⟨h, rfl⟩

end ClambHook.Rules
