import ClambHook.Rules.Single
import ClambHook.Rules.Targets
import ClambHook.TemporaryRules.Store

/-!
# Two matchers

Temporary rules and the rule engine read targets and compare texts each in their own way.  This file
says what each of them takes a temporary rule to mean, and which targets they split alike.  The
engine normalises the texts of the rule and of the connection; the temporary rules compare them as
they are, names and networks in any case and processes exactly.
-/

namespace ClambHook.TemporaryRules

open CString Inet Rules List

/-! ## The rule of the engine -/

/-- The persistent rule with the same matchers and the same action, as `temporary_append_json`
writes it. -/
def TemporaryRule.toSpec (rule : TemporaryRule) : RuleSpec where
  name := rule.name
  action := rule.action
  domains := if rule.matchKind = .domain then [rule.matchValue] else []
  domainSuffixes := if rule.matchKind = .suffix then [rule.matchValue] else []
  cidrs := if rule.matchKind = .cidr then [rule.matchValue] else []
  ports := if rule.port = [] then [] else [(digitsValue rule.port : Int)]
  networks := optionalText rule.network
  processes := optionalText rule.process

/-- What the engine takes the matcher for the host to mean. -/
def HostApplies (kind : MatchKind) (value host : Bytes) : Prop :=
  match kind with
  | .none => True
  | .domain => lower (trim value) = [] ∨ host = lower (trim value)
  | .suffix => trimmedLower value true = [] ∨ host = trimmedLower value true ∨
      ∃ label, label ++ 46 :: trimmedLower value true = host
  | .cidr => ∃ c, cidrCompile value = .ok c ∧ c.Covers host

variable {value host : Bytes}

/-- What the engine takes the rule to mean. -/
structure EngineApplies (rule : TemporaryRule) (context : MatchContext) : Prop where
  process : lower (trim rule.process) = [] ∨ NamesProcess (lower (trim rule.process)) context
  network : lower (trim rule.network) = [] ∨
    lower (trim context.network) = lower (trim rule.network)
  port : rule.port = [] ∨ PortIs (splitTarget context.target).2 (digitsValue rule.port)
  host : HostApplies rule.matchKind rule.matchValue (splitTarget context.target).1

variable {s : Bytes}

theorem forall_optionalText_iff {P : Bytes → Prop} :
    (optionalText s ≠ [] → ∃ t ∈ optionalText s, P t) ↔ s = [] ∨ P s := by
  simp only [ne_eq, optionalText_eq_nil, mem_optionalText]
  grind

theorem forall_mem_optionalText_iff {t : Bytes} :
    (optionalText s ≠ [] → t ∈ optionalText s) ↔ s = [] ∨ t = s := by
  simp only [ne_eq, optionalText_eq_nil, mem_optionalText]
  grind

theorem namedBy_domain : NamedBy (optionalText s) [] [] host ↔ host = s ∧ s ≠ [] := by
  simp [NamedBy]

theorem namedBy_suffix : NamedBy [] (optionalText s) [] host ↔
    (host = s ∨ ∃ label, label ++ 46 :: s = host) ∧ s ≠ [] := by
  simp only [NamedBy, not_mem_nil, false_and, exists_false, or_false, false_or, mem_optionalText]
  grind

theorem cidrListCompile_nil {cidrs : List Cidr} : cidrListCompile [] = .ok cidrs ↔ cidrs = [] :=
  ⟨fun h ↦ (Except.ok.inj h).symm, fun h ↦ by rw [h]; rfl⟩

theorem cidrListCompile_singleton {cidrs : List Cidr} :
    cidrListCompile [value] = .ok cidrs ↔ ∃ c, cidrCompile value = .ok c ∧ cidrs = [c] := by
  rw [cidrListCompile, mapM_cons, bind_eq_ok_iff]
  simp only [mapM_nil]
  constructor
  · rintro ⟨c, hc, h⟩
    cases h
    exact ⟨c, hc, rfl⟩
  · rintro ⟨c, hc, rfl⟩
    exact ⟨c, hc, rfl⟩

variable {rule : TemporaryRule}

section

variable {compiled : CompiledRule} {known : Known} (h : compiled.From rule.toSpec known)

include h

theorem hostApplies_iff :
    ((compiled.domains ≠ [] ∨ compiled.suffixes ≠ [] ∨ compiled.keywords ≠ [] →
        NamedBy compiled.domains compiled.suffixes compiled.keywords host) ∧
      (compiled.cidrs ≠ [] → ∃ c ∈ compiled.cidrs, c.Covers host)) ↔
      HostApplies rule.matchKind rule.matchValue host := by
  have hcidrs := h.cidrs
  rw [h.domains, h.suffixes, h.keywords]
  simp only [TemporaryRule.toSpec] at hcidrs ⊢
  rw [HostApplies.eq_def]
  cases hkind : rule.matchKind with
  | none =>
    simp only [hkind, reduceCtorEq, if_false] at hcidrs ⊢
    rw [cidrListCompile_nil] at hcidrs
    simp [ownedStringsCompile_nil, hcidrs]
  | domain | suffix =>
    simp only [hkind, reduceCtorEq, if_true, if_false] at hcidrs ⊢
    rw [cidrListCompile_nil] at hcidrs
    simp only [ownedStringsCompile_singleton, ownedStringsCompile_nil, namedBy_domain,
      namedBy_suffix, trimmedLower_false, ne_eq, optionalText_eq_nil, hcidrs]
    grind
  | cidr =>
    simp only [hkind, reduceCtorEq, if_true, if_false] at hcidrs ⊢
    obtain ⟨c, hc, heq⟩ := cidrListCompile_singleton.1 hcidrs
    simp [ownedStringsCompile_nil, heq, hc]

theorem appliesTo_iff {context : MatchContext} :
    compiled.AppliesTo context ↔ EngineApplies rule context := by
  have hprocesses : compiled.processes = optionalText (lower (trim rule.process)) := by
    rw [h.processes, TemporaryRule.toSpec, ownedStringsCompile_optionalText]
  have hnetworks : compiled.networks = optionalText (lower (trim rule.network)) := by
    rw [h.networks, TemporaryRule.toSpec, ownedStringsCompile_optionalText]
  have hsources : compiled.sourceCidrs = [] := cidrListCompile_nil.1 h.sourceCidrs
  have hsets : compiled.ruleSets = [] := (Except.ok.inj h.ruleSets).symm
  have hports : (compiled.ports ≠ [] → ∃ n ∈ compiled.ports,
      PortIs (splitTarget context.target).2 n) ↔
      (rule.port = [] ∨ PortIs (splitTarget context.target).2 (digitsValue rule.port)) := by
    rw [h.ports, TemporaryRule.toSpec]
    by_cases hport : rule.port = []
    · simp [hport]
    · simp [hport]
  constructor
  · intro happlies
    refine ⟨?_, ?_, hports.1 happlies.ports, (hostApplies_iff h).1 ⟨happlies.names, happlies.cidrs⟩⟩
    · exact forall_optionalText_iff.1 (hprocesses ▸ happlies.processes)
    · exact forall_mem_optionalText_iff.1 (hnetworks ▸ happlies.networks)
  · rintro ⟨hprocess, hnetwork, hport, hhost⟩
    obtain ⟨hnames, hcidrs⟩ := (hostApplies_iff h).2 hhost
    refine ⟨?_, hports.2 hport, fun hne ↦ absurd hsources hne, ?_, hnames, hcidrs,
      fun hne ↦ absurd hsets hne⟩
    · exact hnetworks ▸ forall_mem_optionalText_iff.2 hnetwork
    · exact hprocesses ▸ forall_optionalText_iff.2 hprocess

end

/-! ## The rule of the store -/

/-- What the store takes the matcher for the host to mean: only the case of names does not count. -/
def HostWritten (kind : MatchKind) (value host : Bytes) : Prop :=
  match kind with
  | .none => True
  | .domain => host = lower value
  | .suffix => host = lower value ∨ ∃ label, label ++ 46 :: lower value = host
  | .cidr => ∃ family network n address, CidrText value family network n ∧
      pton family host = some address ∧ AgreeOn n network address

/-- What the store takes the rule to mean. -/
structure StoreApplies (rule : TemporaryRule) (context : MatchContext) : Prop where
  process : rule.process = [] ∨ rule.process = context.processPath ∨
    rule.process = context.processName
  network : rule.network = [] ∨ lower rule.network = lower context.network
  port : rule.port = [] ∨ rule.port = (temporarySplitTarget context.target).2
  host : HostWritten rule.matchKind rule.matchValue (temporarySplitTarget context.target).1

/-- The suffix comparison of the store, on a host in lower case. -/
theorem temporaryMatches_suffix (hhost : lower host = host) :
    temporaryMatches .suffix value host = true ↔
      host = lower value ∨ ∃ label, label ++ 46 :: lower value = host := by
  have hsuffix : (∃ label, label ++ 46 :: lower value = host) ↔ value.length < host.length ∧
      host.drop (host.length - value.length - 1) = 46 :: lower value := by
    change 46 :: lower value <:+ host ↔ _
    rw [suffix_iff_eq_drop, length_cons, length_lower, eq_comm, ← Nat.sub_sub]
    refine ⟨fun h ↦ ⟨?_, h⟩, And.right⟩
    have hlength := congrArg List.length h
    rw [length_drop, length_cons, length_lower] at hlength
    omega
  have hdrop (k : Nat) : lower (host.drop k) = host.drop k := by
    rw [lower, map_drop, ← lower, hhost]
  rw [temporaryMatches, hsuffix]
  split
  · next hlength =>
    rw [strcaseeq, hhost, beq_iff_eq]
    exact ⟨.inl, fun h ↦ h.resolve_right fun hlt ↦ by omega⟩
  · next hlength =>
    have hne : host ≠ lower value := fun h ↦ hlength (by rw [h, length_lower])
    simp only [Bool.and_eq_true, decide_eq_true_eq, beq_iff_eq, strcaseeq, hdrop, hne, false_or,
      and_assoc]
    refine and_congr_right fun hlt ↦ ?_
    have hindex : host.length - value.length - 1 < host.length := by omega
    rw [drop_eq_getElem_cons hindex, List.cons.injEq, getElem?_eq_getElem hindex,
      Option.some_inj, Nat.sub_add_cancel (by omega)]

variable {n : Nat}

/-- The comparison of two addresses in `temporary_cidr_matches`. -/
theorem sameNetwork_iff {family : Family} {network address : Bytes}
    (hnetwork : 8 * network.length = family.bits) (haddress : 8 * address.length = family.bits)
    (hn : n ≤ family.bits) :
    ((n / 8 == 0 || network.take (n / 8) == address.take (n / 8)) &&
        (n % 8 == 0 || decide (network.length ≤ n / 8) ||
          (network.getD (n / 8) 0 &&& leadingMask (n % 8)) ==
            (address.getD (n / 8) 0 &&& leadingMask (n % 8)))) = true ↔
          AgreeOn n network address := by
  have hmask : leadingMask 0 = 0 := by decide
  have hrem : network.length ≤ n / 8 → n % 8 = 0 := by omega
  rw [agreeOn_iff (by omega) (by omega)]
  simp only [Bool.and_eq_true, Bool.or_eq_true, beq_iff_eq, decide_eq_true_eq]
  constructor
  · rintro ⟨htake, hbits⟩
    constructor
    · rcases htake with h | h
      · rw [h, take_zero, take_zero]
      · exact h
    · rcases hbits with (h | h) | h
      · simp [h, hmask]
      · simp [hrem h, hmask]
      · exact h
  · rintro ⟨htake, hbits⟩
    exact ⟨.inr htake, .inr hbits⟩

theorem length_pton {family : Family} {text address : Bytes} (h : pton family text = some address) :
    8 * address.length = family.bits :=
  length_parseAddress (parseAddress_eq_some_iff.2 h)

/-- The address comparison of the store. -/
theorem temporaryCidrMatches_iff :
    temporaryCidrMatches value host = true ↔
      ∃ family network n address, CidrText value family network n ∧
        pton family host = some address ∧ AgreeOn n network address := by
  rw [temporaryCidrMatches.eq_def]
  cases hsplit : splitLast 47 value with
  | none => simp [CidrText, hsplit]
  | some parts =>
    obtain ⟨text, bits⟩ := parts
    simp only [CidrText, hsplit]
    constructor
    · intro h
      split at h
      · rename_i network address hnetwork haddress
        rw [Bool.and_eq_true] at h
        obtain ⟨hread, hsame⟩ := h
        simp only [Bool.and_eq_true, bne_iff_ne, beq_iff_eq, decide_eq_true_eq] at hread
        obtain ⟨⟨⟨hne, hrest⟩, hnonneg⟩, hle⟩ := hread
        refine ⟨_, network, _, address, ⟨text, bits, rfl, hnetwork, ?_, hrest,
          (Int.toNat_of_nonneg hnonneg).symm, Int.toNat_le.2 hle⟩, haddress,
          (sameNetwork_iff (length_pton hnetwork) (length_pton haddress) (Int.toNat_le.2 hle)).1
          hsame⟩
        rintro rfl
        exact hne hrest
      · cases h
    · rintro ⟨family, network, n, address, ⟨_, _, heq, hnetwork, hne, hrest, hvalue, hn⟩,
        haddress, hagree⟩
      cases heq
      have hfamily : (if 58 ∈ text then Family.inet6 else .inet) = family := by
        have hcolon := (addressText_of_pton hnetwork).colon
        cases family <;> simp_all
      rw [hfamily, hnetwork, haddress]
      dsimp only
      rw [Bool.and_eq_true]
      have hsame := (sameNetwork_iff (length_pton hnetwork) (length_pton haddress) hn).2 hagree
      refine ⟨?_, by rw [hvalue, Int.toNat_natCast]; exact hsame⟩
      simp only [Bool.and_eq_true, bne_iff_ne, beq_iff_eq, decide_eq_true_eq, hrest, hvalue]
      exact ⟨⟨⟨hne.symm, trivial⟩, by omega⟩, by omega⟩

theorem temporaryMatches_iff {kind : MatchKind} (hhost : lower host = host) :
    temporaryMatches kind value host = true ↔ HostWritten kind value host := by
  cases kind with
  | none => exact ⟨fun _ ↦ trivial, fun _ ↦ rfl⟩
  | domain =>
    rw [temporaryMatches, strcaseeq, beq_iff_eq, hhost]
    exact eq_comm
  | suffix => exact temporaryMatches_suffix hhost
  | cidr => exact temporaryCidrMatches_iff

theorem lower_temporarySplitTarget (target : Bytes) :
    lower (temporarySplitTarget target).1 = (temporarySplitTarget target).1 := by
  rw [temporarySplitTarget]
  repeat' split
  all_goals exact lower_lower _

theorem matchesContext_iff {context : MatchContext} :
    matchesContext rule rule.profile context (temporarySplitTarget context.target).1
      (temporarySplitTarget context.target).2 = true ↔ StoreApplies rule context := by
  simp only [matchesContext, strcaseeq, Bool.and_eq_true, Bool.or_eq_true, beq_iff_eq, or_assoc,
    temporaryMatches_iff (lower_temporarySplitTarget context.target)]
  constructor
  · rintro ⟨⟨⟨⟨-, h₁⟩, h₂⟩, h₃⟩, h₄⟩
    exact ⟨h₁, h₂, h₃, h₄⟩
  · rintro ⟨h₁, h₂, h₃, h₄⟩
    exact ⟨⟨⟨⟨trivial, h₁⟩, h₂⟩, h₃⟩, h₄⟩

/-! ## Targets that are split alike -/

/-- A host that normalisation leaves as it is, up to case: no closing bracket, no final dot and no
white space around it. -/
structure PlainName (host : Bytes) : Prop where
  bracket : 93 ∉ host
  dot : host.getLast? ≠ some 46
  trimmed : Trimmed host

/-- A host, by itself or in brackets, with or without a port in decimal. -/
inductive PlainTarget : Bytes → Prop where
  | bare {host : Bytes} (h : PlainName host) (hcolon : 58 ∉ host) (hhead : host.head? ≠ some 91) :
      PlainTarget host
  | barePort {host : Bytes} {n : Nat} (h : PlainName host) (hcolon : 58 ∉ host)
      (hhead : host.head? ≠ some 91) (hn : n ≤ 65535) : PlainTarget (host ++ 58 :: decimal n)
  | bracketed {host : Bytes} (h : PlainName host) : PlainTarget (91 :: (host ++ [93]))
  | bracketedPort {host : Bytes} {n : Nat} (h : PlainName host) (hn : n ≤ 65535) :
      PlainTarget (91 :: (host ++ 93 :: 58 :: decimal n))

/-- Both matchers split the target into this host and this port. -/
structure SplitsAs (target host port : Bytes) : Prop where
  store : temporarySplitTarget target = (host, port)
  engine : splitTarget target = (host, port)
  bracket : 93 ∉ host
  port : port = [] ∨ ∃ n ≤ 65535, port = decimal n

variable (h : PlainName host)

include h

theorem PlainName.bracket_notMem_lower : 93 ∉ lower host :=
  mt (mem_lower_iff (.inr (by decide))).1 h.bracket

theorem normalizeHost_bare (hhead : host.head? ≠ some 91) :
    normalizeHost host = CString.lower host := by
  rw [normalizeHost, trim_eq_self h.trimmed, stripBrackets_of_head hhead,
    stripFinalDot_of_getLast h.dot]

theorem splitsAs_bare (hcolon : 58 ∉ host) (hhead : host.head? ≠ some 91) :
    SplitsAs host (lower host) [] := by
  refine ⟨?_, ?_, h.bracket_notMem_lower, .inl rfl⟩
  · rw [temporarySplitTarget, if_neg hhead, splitLast_eq_none_iff.2 hcolon]
  · rw [splitTarget, trim_eq_self h.trimmed, separatePort, if_neg hhead,
      splitLast_eq_none_iff.2 hcolon]
    exact congrArg (·, []) (normalizeHost_bare h hhead)

theorem splitsAs_barePort (hcolon : 58 ∉ host) (hhead : host.head? ≠ some 91) (hn : n ≤ 65535) :
    SplitsAs (host ++ 58 :: decimal n) (lower host) (decimal n) := by
  have hsplit : splitLast 58 (host ++ 58 :: decimal n) = some (host, decimal n) :=
    splitLast_eq_some_iff.2 ⟨rfl, notMem_decimal rfl n⟩
  have hhead' : (host ++ 58 :: decimal n).head? ≠ some 91 := by
    cases host with
    | nil => simp
    | cons c host => simpa using hhead
  have hleft : trimLeft host = host := trimLeft_eq_self_iff.2 h.trimmed.1
  refine ⟨?_, ?_, h.bracket_notMem_lower, .inr ⟨n, hn, rfl⟩⟩
  · rw [temporarySplitTarget, if_neg hhead', hsplit]
    exact if_neg hcolon
  · rw [splitTarget_plain (isNumber_decimal hn) (by rwa [hleft]), trim_eq_self h.trimmed,
      stripFinalDot_of_getLast h.dot]

theorem splitsAs_bracketed :
    SplitsAs (91 :: (host ++ [93])) (lower host) [] := by
  have hfirst : splitFirst 93 (host ++ [93]) = some (host, []) :=
    splitFirst_eq_some_iff.2 ⟨rfl, h.bracket⟩
  have hlast : splitLast 93 (91 :: (host ++ [93])) = some (91 :: host, []) :=
    splitLast_eq_some_iff.2 ⟨rfl, not_mem_nil⟩
  refine ⟨?_, ?_, h.bracket_notMem_lower, .inl rfl⟩
  · rw [temporarySplitTarget, head?_cons, if_pos rfl, tail_cons, hfirst]
  · rw [splitTarget, trim_eq_self (trimmed_bracketed host), separatePort, head?_cons,
      if_pos rfl, hlast]
    refine congrArg (·, []) ((normalizeHost_bracketed host).trans ?_)
    rw [stripFinalDot_of_getLast h.dot]

theorem splitsAs_bracketedPort (hn : n ≤ 65535) :
    SplitsAs (91 :: (host ++ 93 :: 58 :: decimal n)) (lower host) (decimal n) := by
  have hfirst : splitFirst 93 (host ++ 93 :: 58 :: decimal n) = some (host, 58 :: decimal n) :=
    splitFirst_eq_some_iff.2 ⟨rfl, h.bracket⟩
  refine ⟨?_, ?_, h.bracket_notMem_lower, .inr ⟨n, hn, rfl⟩⟩
  · rw [temporarySplitTarget, head?_cons, if_pos rfl, tail_cons, hfirst]
    rfl
  · rw [splitTarget_bracketed (isNumber_decimal hn), stripFinalDot_of_getLast h.dot]

omit h

/-- Both matchers split a plain target alike. -/
theorem PlainTarget.splitsAs {target : Bytes} (h : PlainTarget target) :
    ∃ host port, SplitsAs target host port := by
  cases h with
  | bare h hcolon hhead => exact ⟨_, _, splitsAs_bare h hcolon hhead⟩
  | barePort h hcolon hhead hn => exact ⟨_, _, splitsAs_barePort h hcolon hhead hn⟩
  | bracketed h => exact ⟨_, _, splitsAs_bracketed h⟩
  | bracketedPort h hn => exact ⟨_, _, splitsAs_bracketedPort h hn⟩

end ClambHook.TemporaryRules
