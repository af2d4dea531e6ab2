import ClambHook.Lib.InetPrefix
import ClambHook.Rules.Match

/-!
# First-match semantics of the rule engine

What a rule says, without loops and buffers: a rule applies to a connection when each of its classes
of matchers that has entries has an entry for the connection (`Applies`).  The names, suffixes and
keywords of a host are one class.  A CIDR covers the addresses of its family that agree with it on
the bits of its prefix.  The engine decides for the first rule that applies (`decide_firstMatch`).
-/

namespace ClambHook.Rules

open CString Inet

/-! ## What the matchers mean -/

/-- The host is written as an address of the family. -/
def HasAddress (host : Bytes) (family : Family) (address : Bytes) : Prop :=
  host.length < 48 ∧ parseAddress (stripBrackets host) = some (family, address)

/-- The host is an address in the network. -/
def Cidr.Covers (c : Cidr) (host : Bytes) : Prop :=
  ∃ address, HasAddress host c.family address ∧ AgreeOn c.prefixLength c.address address

/-- The host is one of the names, lies under one of the suffixes, or contains a keyword. -/
def NamedBy (domains suffixes keywords : List Bytes) (host : Bytes) : Prop :=
  host ∈ domains ∨ (∃ s ∈ suffixes, host = s ∨ ∃ label, label ++ 46 :: s = host) ∨
    ∃ k ∈ keywords, k <:+: host

/-- The port text stands for the number. -/
def PortIs (port : Bytes) (n : Int) : Prop :=
  port ≠ [] ∧ (strtol port).rest = [] ∧ (strtol port).value = n

/-- The pattern is the name of the process, its path, or the last component of its path. -/
def NamesProcess (pattern : Bytes) (context : MatchContext) : Prop :=
  let name := trimmedLower context.processName false
  let path := trimmedLower context.processPath false
  pattern = name ∨ (path ≠ [] ∧ pattern = path) ∨ (baseName path ≠ [] ∧ pattern = baseName path)

/-- The host is in the rule set. -/
def CompiledRuleSet.Holds (set : CompiledRuleSet) (host : Bytes) : Prop :=
  NamedBy set.domains set.suffixes set.keywords host ∨ ∃ c ∈ set.cidrs, c.Covers host

/-- Each class of the rule that has entries has one for the connection. -/
structure CompiledRule.Applies (rule : CompiledRule) (context : MatchContext)
    (network host port : Bytes) : Prop where
  networks : rule.networks ≠ [] → network ∈ rule.networks
  ports : rule.ports ≠ [] → ∃ n ∈ rule.ports, PortIs port n
  sources : rule.sourceCidrs ≠ [] →
    ∃ c ∈ rule.sourceCidrs, c.Covers (splitTarget context.source).1
  processes : rule.processes ≠ [] → ∃ p ∈ rule.processes, NamesProcess p context
  names : rule.domains ≠ [] ∨ rule.suffixes ≠ [] ∨ rule.keywords ≠ [] →
    NamedBy rule.domains rule.suffixes rule.keywords host
  cidrs : rule.cidrs ≠ [] → ∃ c ∈ rule.cidrs, c.Covers host
  ruleSets : rule.ruleSets ≠ [] → ∃ s ∈ rule.ruleSets, s.Holds host

/-! ## The matchers of the engine -/

/-- The lengths that a CIDR has when it is compiled. -/
structure Cidr.Valid (c : Cidr) : Prop where
  address : 8 * c.address.length = c.family.bits
  bits : c.prefixLength ≤ c.family.bits

theorem length_parseAddress {text : Bytes} {family : Family} {address : Bytes}
    (h : parseAddress text = some (family, address)) : 8 * address.length = family.bits := by
  rw [parseAddress, Option.or_eq_some_iff] at h
  rcases h with h | ⟨-, h⟩
  · obtain ⟨a, ha, heq⟩ := Option.map_eq_some_iff.1 h
    cases heq
    rw [length_pton4 ha]
    rfl
  · obtain ⟨a, ha, heq⟩ := Option.map_eq_some_iff.1 h
    cases heq
    rw [length_pton6 ha]
    rfl

theorem cidrContains_iff {c : Cidr} (hc : c.Valid) {address : Bytes}
    (ha : 8 * address.length = c.family.bits) :
    cidrContains c address = true ↔ AgreeOn c.prefixLength c.address address := by
  have h₁ := hc.address
  have h₂ := hc.bits
  rw [agreeOn_iff (by omega) (by omega), cidrContains]
  by_cases htake : c.address.take (c.prefixLength / 8) = address.take (c.prefixLength / 8)
  · rw [if_neg fun h ↦ h.2 htake]
    by_cases hrem : c.prefixLength % 8 = 0
    · have hmask : leadingMask 0 = 0 := by decide
      simp [htake, hrem, hmask]
    · rw [if_neg hrem, beq_iff_eq]
      exact ⟨fun h ↦ ⟨htake, h⟩, fun h ↦ h.2⟩
  · have hpos : c.prefixLength / 8 > 0 := by
      refine Nat.pos_of_ne_zero fun h ↦ htake ?_
      rw [h, List.take_zero, List.take_zero]
    simp [hpos, htake]

theorem contains_iff {t : Bytes} : ∀ {s : Bytes}, contains t s = true ↔ t <:+: s
  | [] => by simp [contains]
  | b :: s => by
    rw [contains, Bool.or_eq_true, List.isPrefixOf_iff_prefix, contains_iff, List.infix_cons_iff]

variable {host : Bytes}

theorem suffixMatches_iff {suffix : Bytes} :
    suffixMatches suffix host = true ↔ host = suffix ∨ ∃ label, label ++ 46 :: suffix = host := by
  rw [suffixMatches, Bool.or_eq_true, beq_iff_eq, List.isSuffixOf_iff_suffix]
  rfl

theorem isSome_domainMatch {domains suffixes keywords : List Bytes} :
    (domainMatch domains suffixes keywords host).isSome = true ↔
      NamedBy domains suffixes keywords host := by
  rw [domainMatch, NamedBy]
  split
  · rename_i h
    simp [h]
  · rename_i h
    simp only [Option.isSome_or, Option.isSome_map, Bool.or_eq_true, List.find?_isSome,
      suffixMatches_iff, contains_iff, h, false_or]

theorem isSome_matchCidrs {list : List Cidr} (hlist : ∀ c ∈ list, c.Valid) :
    (matchCidrs list host).isSome = true ↔ ∃ c ∈ list, c.Covers host := by
  rw [matchCidrs]
  by_cases hlength : host.length ≥ 48
  · rw [if_pos hlength]
    refine ⟨nofun, ?_⟩
    rintro ⟨c, -, address, ⟨hlt, -⟩, -⟩
    omega
  rw [if_neg hlength]
  cases hparse : parseAddress (stripBrackets host) with
  | none =>
    refine ⟨nofun, ?_⟩
    rintro ⟨c, -, address, ⟨-, haddress⟩, -⟩
    rw [hparse] at haddress
    cases haddress
  | some parsed =>
    obtain ⟨family, address⟩ := parsed
    have hlen := length_parseAddress hparse
    simp only [Option.isSome_map, List.find?_isSome, Bool.and_eq_true, decide_eq_true_eq]
    constructor
    · rintro ⟨c, hc, rfl, hcontains⟩
      exact ⟨c, hc, address, ⟨Nat.lt_of_not_le hlength, hparse⟩,
        (cidrContains_iff (hlist c hc) hlen).1 hcontains⟩
    · rintro ⟨c, hc, address', ⟨-, haddress⟩, hagree⟩
      rw [hparse] at haddress
      cases haddress
      exact ⟨c, hc, rfl, (cidrContains_iff (hlist c hc) hlen).2 hagree⟩

variable {context : MatchContext}

theorem isSome_processMatch {patterns : List Bytes} :
    (processMatch patterns context.processName context.processPath).isSome = true ↔
      ∃ p ∈ patterns, NamesProcess p context := by
  simp only [processMatch, NamesProcess, List.find?_isSome, Bool.or_eq_true, Bool.and_eq_true,
    beq_iff_eq, bne_iff_ne, or_assoc]

variable {port : Bytes}

theorem isSome_portMatch {ports : List Int} :
    (portMatch ports port).isSome = true ↔ ∃ n ∈ ports, PortIs port n := by
  rw [portMatch]
  by_cases hread : (strtol port).rest = port ∨ (strtol port).rest ≠ []
  · rw [if_pos hread]
    refine ⟨nofun, ?_⟩
    rintro ⟨n, -, hne, hrest, -⟩
    rcases hread with h | h
    · exact absurd (h.symm.trans hrest) hne
    · exact absurd hrest h
  · rw [if_neg hread]
    simp only [not_or, not_not] at hread
    have hne : port ≠ [] := fun h ↦ hread.1 (hread.2.trans h.symm)
    constructor
    · intro h
      split at h
      · exact ⟨_, ‹_›, hne, hread.2, rfl⟩
      · cases h
    · rintro ⟨n, hn, -, -, rfl⟩
      rw [if_pos hn]
      rfl

theorem isSome_ruleSetMatch {set : CompiledRuleSet} (hset : ∀ c ∈ set.cidrs, c.Valid) :
    (ruleSetMatch set host).isSome = true ↔ set.Holds host := by
  rw [ruleSetMatch, CompiledRuleSet.Holds, ← isSome_domainMatch, ← isSome_matchCidrs hset]
  cases hname : domainMatch set.domains set.suffixes set.keywords host with
  | none => simp
  | some m => simp

/-! ## Rules -/

/-- All CIDRs of the rule are valid. -/
structure CompiledRule.Valid (rule : CompiledRule) : Prop where
  cidrs : ∀ c ∈ rule.cidrs, c.Valid
  sourceCidrs : ∀ c ∈ rule.sourceCidrs, c.Valid
  ruleSets : ∀ s ∈ rule.ruleSets, ∀ c ∈ s.cidrs, c.Valid

/-- A class in front of the rest of a rule: whether the rest matches does not depend on what the
class reports. -/
theorem isSome_matchClass_bind {empty : Bool} {found earlier : Option Match}
    {rest : Option Match → Option Match} {P : Prop} (hrest : ∀ m, (rest m).isSome = true ↔ P) :
    (matchClass empty found earlier >>= rest).isSome = true ↔
      (empty = false → found.isSome = true) ∧ P := by
  rw [matchClass]
  cases empty with
  | true => simp [hrest]
  | false =>
    cases found with
    | none => simp
    | some m => simp [hrest]

theorem isSome_ruleSetsMatch_bind {sets : List CompiledRuleSet}
    (hsets : ∀ s ∈ sets, ∀ c ∈ s.cidrs, c.Valid) {earlier : Option Match}
    {report : Option Match → Match} :
    (ruleSetsMatch sets host earlier >>= fun m ↦ pure (report m)).isSome = true ↔
      (sets ≠ [] → ∃ s ∈ sets, s.Holds host) := by
  have hfind : (sets.findSome? (ruleSetMatch · host)).isSome = true ↔ ∃ s ∈ sets, s.Holds host := by
    rw [List.findSome?_isSome_iff]
    exact exists_congr fun s ↦ and_congr_right fun hs ↦ isSome_ruleSetMatch (hsets s hs)
  rw [ruleSetsMatch, ← hfind]
  cases sets with
  | nil => simp
  | cons s sets =>
    rw [if_neg (by simp)]
    generalize (s :: sets).findSome? (ruleSetMatch · host) = found
    cases found <;> simp

variable {rule : CompiledRule}

theorem isSome_ruleMatches (hrule : rule.Valid)
    {network : Bytes} :
    (ruleMatches rule context network host port).isSome = true ↔
      rule.Applies context network host port := by
  rw [ruleMatches, isSome_matchClass_bind fun _ ↦ isSome_matchClass_bind fun _ ↦
    isSome_matchClass_bind fun _ ↦ isSome_matchClass_bind fun _ ↦ isSome_matchClass_bind fun _ ↦
    isSome_matchClass_bind fun _ ↦ isSome_ruleSetsMatch_bind hrule.ruleSets]
  simp only [List.isEmpty_eq_false_iff, Option.isSome_map, isSome_portMatch, isSome_processMatch,
    isSome_domainMatch, isSome_matchCidrs hrule.cidrs, isSome_matchCidrs hrule.sourceCidrs,
    Bool.and_eq_false_iff, or_assoc, Option.isSome_ite]
  constructor
  all_goals
    rintro ⟨h₁, h₂, h₃, h₄, h₅, h₆, h₇⟩
    exact ⟨h₁, h₂, h₃, h₄, h₅, h₆, h₇⟩

/-! ## Compiled rules -/

theorem valid_of_cidrCompile {raw : Bytes} {c : Cidr} (h : cidrCompile raw = .ok c) : c.Valid := by
  rw [cidrCompile] at h
  split at h
  · cases h
  split at h
  · cases h
  split at h
  · cases h
  rename_i family address haddress
  dsimp only at h
  split at h
  · cases h
  rename_i hread
  cases h
  refine ⟨length_parseAddress haddress, ?_⟩
  dsimp only
  omega

theorem valid_of_cidrListCompile {input : List Bytes} {cidrs : List Cidr}
    (h : cidrListCompile input = .ok cidrs) : ∀ c ∈ cidrs, c.Valid := fun c hc ↦ by
  obtain ⟨raw, -, hraw⟩ := (mem_mapM_iff h).1 hc
  exact valid_of_cidrCompile hraw

theorem valid_of_compileRuleSet {spec : RuleSetSpec} {set : CompiledRuleSet}
    (h : compileRuleSet spec = .ok set) : ∀ c ∈ set.cidrs, c.Valid := by
  simp only [compileRuleSet, bind_eq_ok_iff] at h
  obtain ⟨cidrs, hcidrs, h⟩ := h
  cases h
  exact valid_of_cidrListCompile hcidrs

theorem CompiledRule.From.valid {input : RuleSpec} {known : Known}
    (h : rule.From input known) : rule.Valid := by
  refine ⟨valid_of_cidrListCompile h.cidrs, valid_of_cidrListCompile h.sourceCidrs, fun s hs ↦ ?_⟩
  rcases (ruleSetsLoop_spec h.ruleSets).1 s hs with hs | ⟨ref, -, spec, -, hspec⟩
  · cases hs
  · exact valid_of_compileRuleSet hspec

variable {engine : RuleEngine}

theorem valid_of_ruleEngineCompile {rules : List RuleSpec} {defaultChain : Bytes} {known : Known}
    (h : ruleEngineCompile rules defaultChain known = .ok engine) :
    ∀ rule ∈ engine.rules, rule.Valid := fun rule hrule ↦ by
  obtain ⟨input, -, hinput⟩ := (mem_mapM_iff (ruleEngineCompile_eq_ok h).1).1 hrule
  exact (compileRule_eq_ok_iff.1 hinput).valid

/-! ## Decisions -/

/-- The rule applies to the connection, with its network, host and port as the engine reads them. -/
def CompiledRule.AppliesTo (rule : CompiledRule) (context : MatchContext) : Prop :=
  rule.Applies context (trimmedLower context.network false) (splitTarget context.target).1
    (splitTarget context.target).2

/-- The decision is that of the rule with the given index. -/
structure Decision.Follows (d : Decision) (index : Nat) (rule : CompiledRule) : Prop where
  ruleName : d.ruleName = rule.name
  ruleNumber : d.ruleNumber = index + 1
  action : d.action = rule.action.text
  chainName : d.chainName = rule.action.chainName
  groupName : d.groupName = rule.action.groupName
  isDefault : d.isDefault = false

/-- The decision is the default chain. -/
structure Decision.UsesDefault (d : Decision) (engine : RuleEngine) : Prop where
  ruleName : d.ruleName = []
  ruleNumber : d.ruleNumber = engine.rules.length + 1
  action : d.action = bytes "chain"
  chainName : d.chainName = engine.defaultChain
  groupName : d.groupName = []
  isDefault : d.isDefault = true

/-- The decision for a connection: that of the first rule that applies, or the default. -/
def FirstMatch (engine : RuleEngine) (context : MatchContext) (d : Decision) : Prop :=
  (∃ index rule, engine.rules[index]? = some rule ∧ rule.AppliesTo context ∧
      (∀ j < index, ∀ r, engine.rules[j]? = some r → ¬ r.AppliesTo context) ∧
      d.Follows index rule) ∨
    ((∀ rule ∈ engine.rules, ¬ rule.AppliesTo context) ∧ d.UsesDefault engine)

/-- What the loop over the rules finds. -/
theorem firstMatch_spec (context : MatchContext) (network host port : Bytes) :
    ∀ (rules : List CompiledRule) (start : Nat),
      (∃ i rule m, firstMatch context network host port rules start = some (start + i, rule, m) ∧
        rules[i]? = some rule ∧ (ruleMatches rule context network host port).isSome = true ∧
        ∀ j < i, ∀ r, rules[j]? = some r →
          ¬ (ruleMatches r context network host port).isSome = true) ∨
      (firstMatch context network host port rules start = none ∧
        ∀ rule ∈ rules, ¬ (ruleMatches rule context network host port).isSome = true)
  | [], start => .inr ⟨rfl, nofun⟩
  | rule :: rules, start => by
    rw [firstMatch]
    cases hrule : ruleMatches rule context network host port with
    | some m =>
      exact .inl ⟨0, rule, m, rfl, rfl, by rw [hrule]; rfl,
        fun j hj ↦ absurd hj (Nat.not_lt_zero j)⟩
    | none =>
      have hnone : ¬ (ruleMatches rule context network host port).isSome = true := by
        rw [hrule]
        nofun
      rcases firstMatch_spec context network host port rules (start + 1) with
        ⟨i, r, m, h, hget, hmatch, hbefore⟩ | ⟨h, hall⟩
      · refine .inl ⟨i + 1, r, m, ?_, hget, hmatch, fun j hj r' hr' ↦ ?_⟩
        · rw [Nat.add_comm i 1, ← Nat.add_assoc]
          exact h
        cases j with
        | zero =>
          cases hr'
          exact hnone
        | succ j => exact hbefore j (by omega) r' hr'
      · refine .inr ⟨h, fun r hr ↦ ?_⟩
        rcases List.mem_cons.1 hr with rfl | hr
        · exact hnone
        · exact hall r hr

theorem decide_firstMatch (hvalid : ∀ rule ∈ engine.rules, rule.Valid)
    (context : MatchContext) : FirstMatch engine context (ruleEngineDecide engine context) := by
  have happlies : ∀ rule ∈ engine.rules, (ruleMatches rule context
      (trimmedLower context.network false) (splitTarget context.target).1
      (splitTarget context.target).2).isSome = true ↔ rule.AppliesTo context := fun rule hrule ↦
    isSome_ruleMatches (hvalid rule hrule)
  rw [ruleEngineDecide]
  rcases firstMatch_spec context (trimmedLower context.network false) (splitTarget context.target).1
    (splitTarget context.target).2 engine.rules 0 with ⟨i, rule, m, h, hget, hmatch, hbefore⟩ |
      ⟨h, hall⟩
  · dsimp only
    rw [h, Nat.zero_add]
    refine .inl ⟨i, rule, hget, (happlies rule (List.mem_of_getElem? hget)).1 hmatch,
      fun j hj r hr ↦ ?_, rfl, rfl, rfl, rfl, rfl, rfl⟩
    rw [← happlies r (List.mem_of_getElem? hr)]
    exact hbefore j hj r hr
  · dsimp only
    rw [h]
    refine .inr ⟨fun rule hrule ↦ ?_, rfl, rfl, rfl, rfl, rfl, rfl⟩
    rw [← happlies rule hrule]
    exact hall rule hrule

/-- A rule without process matchers does not look at the process. -/
theorem ruleMatches_process (h : rule.processes = [])
    (context : MatchContext) (name path network host port : Bytes) :
    ruleMatches rule { context with processName := name, processPath := path } network host port =
      ruleMatches rule context network host port := by
  rw [ruleMatches, ruleMatches, h]
  rfl

theorem firstMatch_process {name path network : Bytes} :
    ∀ {rules : List CompiledRule} {start : Nat}, (∀ rule ∈ rules, rule.processes = []) →
      firstMatch { context with processName := name, processPath := path } network host port rules
        start = firstMatch context network host port rules start
  | [], _, _ => rfl
  | rule :: rules, start, h => by
    rw [firstMatch, firstMatch, ruleMatches_process (h rule List.mem_cons_self),
      firstMatch_process fun r hr ↦ h r (List.mem_cons_of_mem rule hr)]

theorem ruleEngineDecide_process
    (h : ∀ rule ∈ engine.rules, rule.processes = []) (context : MatchContext) (name path : Bytes) :
    ruleEngineDecide engine { context with processName := name, processPath := path } =
      ruleEngineDecide engine context := by
  rw [ruleEngineDecide, ruleEngineDecide]
  dsimp only
  rw [firstMatch_process h]

/-- **The rule engine**: a compiled engine decides every connection for the first rule that applies
to it, with that rule's name and action, and for the default chain when none applies; and when it
does not need the process, the decision does not depend on it. -/
theorem ruleEngine_refines_firstMatch {rules : List RuleSpec} {defaultChain : Bytes} {known : Known}
    {engine : RuleEngine} (h : ruleEngineCompile rules defaultChain known = .ok engine)
    (context : MatchContext) :
    FirstMatch engine context (ruleEngineDecide engine context) ∧
      (engine.needsProcess = false → ∀ name path,
        ruleEngineDecide engine { context with processName := name, processPath := path } =
          ruleEngineDecide engine context) := by
  refine ⟨decide_firstMatch (valid_of_ruleEngineCompile h) context, fun hneeds name path ↦ ?_⟩
  refine ruleEngineDecide_process (fun rule hrule ↦ ?_) context name path
  have hany := (ruleEngineCompile_eq_ok h).2
  rw [hneeds, eq_comm, List.any_eq_false] at hany
  simpa using hany rule hrule

/-- Two rules: one for the names under a suffix, and one for an address range. -/
def sampleRules : List RuleSpec :=
  [{ name := bytes "ads", action := bytes " Block ", domainSuffixes := [bytes ".Ads.example"] },
    { name := bytes "lan", action := bytes "direct", cidrs := [bytes "10.0.0.0/8"] }]

def sampleKnown : Known := { chains := [bytes "Proxy"] }

def sampleEngine : RuleEngine :=
  match ruleEngineCompile sampleRules (bytes "Proxy") sampleKnown with
  | .ok engine => engine
  | .error _ => ⟨[], [], false⟩

def sampleContext : MatchContext := { network := bytes "tcp", target := bytes "10.1.2.3:443" }

theorem sampleEngine_firstMatch :
    ruleEngineCompile sampleRules (bytes "Proxy") sampleKnown = .ok sampleEngine ∧
      FirstMatch sampleEngine sampleContext (ruleEngineDecide sampleEngine sampleContext) :=
  have h : ruleEngineCompile sampleRules (bytes "Proxy") sampleKnown = .ok sampleEngine := by
    decide
  ⟨h, (ruleEngine_refines_firstMatch h sampleContext).1⟩

end ClambHook.Rules
