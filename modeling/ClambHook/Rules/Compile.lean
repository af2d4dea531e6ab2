import ClambHook.Basic
import ClambHook.Lib.Inet

/-!
# Compiling rules

`rules.c` compiles rule specifications into the form that the rule engine matches: texts are trimmed
and put in lower case, duplicates and empty texts are dropped, CIDR texts become addresses with a
prefix length, and references to rule sets are resolved.

Texts that may be `NULL` in the source are empty here: every function that reads one treats the two
alike.  Allocations succeed.
-/

namespace ClambHook.Rules

open CString Inet

/-! ## Specifications -/

/-- A `ch_rule_spec`. -/
structure RuleSpec where
  name : Bytes := []
  action : Bytes := []
  ruleSets : List Bytes := []
  domains : List Bytes := []
  domainSuffixes : List Bytes := []
  domainKeywords : List Bytes := []
  cidrs : List Bytes := []
  sourceCidrs : List Bytes := []
  ports : List Int := []
  networks : List Bytes := []
  processes : List Bytes := []
deriving DecidableEq, Repr

/-- A `ch_rule_set_spec`. -/
structure RuleSetSpec where
  name : Bytes := []
  domains : List Bytes := []
  domainSuffixes : List Bytes := []
  domainKeywords : List Bytes := []
  cidrs : List Bytes := []
deriving DecidableEq, Repr

/-! ## Texts -/

/-- `ch_trimmed_lower`. -/
def trimmedLower (value : Bytes) (stripDot : Bool) : Bytes :=
  let value := trim value
  lower (if stripDot ∧ value.head? = some 46 then value.tail else value)

/-- The loop of `ch_owned_strings_compile`. -/
def ownedStringsLoop (stripDot : Bool) : List Bytes → List Bytes → List Bytes
  | [], output => output
  | value :: input, output =>
    let normalized := trimmedLower value stripDot
    if normalized = [] ∨ normalized ∈ output then ownedStringsLoop stripDot input output
    else ownedStringsLoop stripDot input (output ++ [normalized])

/-- `ch_owned_strings_compile`. -/
def ownedStringsCompile (input : List Bytes) (stripDot : Bool) : List Bytes :=
  ownedStringsLoop stripDot input []

/-! ## CIDRs -/

inductive Family where
  | inet
  | inet6
deriving DecidableEq, Repr

/-- `inet_pton` for one family. -/
def pton : Family → Bytes → Option Bytes
  | .inet => pton4
  | .inet6 => pton6

def Family.bits : Family → Nat
  | .inet => 32
  | .inet6 => 128

/-- A `ch_cidr`. -/
structure Cidr where
  family : Family
  address : Bytes
  prefixLength : Nat
  text : Bytes
deriving DecidableEq, Repr

def invalidCidr (raw : Bytes) : Error :=
  .set .parse (bytes "invalid CIDR " ++ raw)

/-- An address text in either family, IPv4 first. -/
def parseAddress (text : Bytes) : Option (Family × Bytes) :=
  ((pton4 text).map fun address ↦ (.inet, address)).or
    ((pton6 text).map fun address ↦ (.inet6, address))

/-- One round of the loop of `ch_cidr_list_compile`. -/
def cidrCompile (raw : Bytes) : Except Error Cidr :=
  let copy := trimmedLower raw false
  match splitLast 47 copy with
  | none => .error (invalidCidr raw)
  | some (addressText, prefixText) =>
    if addressText = [] ∨ prefixText = [] then .error (invalidCidr raw)
    else
      let read := strtol prefixText
      match parseAddress addressText with
      | none => .error (invalidCidr raw)
      | some (family, address) =>
        if read.erange ∨ read.value < 0 ∨ read.value > family.bits ∨ read.rest = prefixText ∨
            read.rest ≠ [] then
          .error (invalidCidr raw)
        else .ok ⟨family, address, read.value.toNat, copy⟩

/-- `ch_cidr_list_compile`. -/
def cidrListCompile (input : List Bytes) : Except Error (List Cidr) :=
  input.mapM cidrCompile

/-! ## Actions -/

/-- The action of a compiled rule, with the name of its chain or group. -/
inductive Action where
  | direct
  | block
  | reject
  | chain (name : Bytes)
  | group (name : Bytes)
deriving DecidableEq, Repr

/-- The fields `action`, `chain_name` and `group_name`. -/
def Action.text : Action → Bytes
  | .direct => bytes "direct"
  | .block => bytes "block"
  | .reject => bytes "reject"
  | .chain _ => bytes "chain"
  | .group _ => bytes "group"

def Action.chainName : Action → Bytes
  | .chain name => name
  | _ => []

def Action.groupName : Action → Bytes
  | .group name => name
  | _ => []

def unknownAction (raw : Bytes) : Error :=
  .set .parse (bytes "unknown action " ++ raw)

/-- The texts in front of and behind the first colon; without a colon there is no target. -/
def splitAction (text : Bytes) : Bytes × Option Bytes :=
  match splitFirst 58 text with
  | none => (text, none)
  | some (head, target) => (head, some target)

/-- `ch_parse_action`. -/
def parseAction (raw : Bytes) (knownChains knownGroups : List Bytes) : Except Error Action :=
  let head := (splitAction (trimmedLower raw false)).1
  let target := (splitAction (trim raw)).2.map trim
  if head = bytes "direct" ∨ head = bytes "block" ∨ head = bytes "reject" then
    if target.isSome then .error (unknownAction raw)
    else if head = bytes "direct" then .ok .direct
    else if head = bytes "block" then .ok .block
    else .ok .reject
  else
    match target with
    | none | some [] => .error (unknownAction raw)
    | some target =>
      if head = bytes "chain" then
        if target ∈ knownChains then .ok (.chain target)
        else .error (.set .notFound (bytes "chain " ++ target ++ bytes " not found"))
      else if head = bytes "group" then
        if target ∈ knownGroups then .ok (.group target)
        else .error (.set .notFound (bytes "policy group " ++ target ++ bytes " not found"))
      else .error (unknownAction raw)

/-! ## Rules -/

/-- A `ch_compiled_rule_set`. -/
structure CompiledRuleSet where
  name : Bytes
  domains : List Bytes
  suffixes : List Bytes
  keywords : List Bytes
  cidrs : List Cidr
deriving DecidableEq, Repr

/-- A `ch_compiled_rule`. -/
structure CompiledRule where
  name : Bytes
  action : Action
  domains : List Bytes
  suffixes : List Bytes
  keywords : List Bytes
  cidrs : List Cidr
  sourceCidrs : List Cidr
  ports : List Int
  networks : List Bytes
  processes : List Bytes
  ruleSets : List CompiledRuleSet
deriving DecidableEq, Repr

/-- `ch_compile_rule_set`. -/
def compileRuleSet (input : RuleSetSpec) : Except Error CompiledRuleSet := do
  let cidrs ← cidrListCompile input.cidrs
  return {
    name := input.name
    domains := ownedStringsCompile input.domains false
    suffixes := ownedStringsCompile input.domainSuffixes true
    keywords := ownedStringsCompile input.domainKeywords false
    cidrs := cidrs }

/-- `ch_find_rule_set`. -/
def findRuleSet (sets : List RuleSetSpec) (name : Bytes) : Option RuleSetSpec :=
  sets.find? fun set ↦ set.name == name

/-- The loop of `ch_compile_rule` over the references to rule sets. -/
def ruleSetsLoop (known : List RuleSetSpec) :
    List Bytes → List CompiledRuleSet → Except Error (List CompiledRuleSet)
  | [], output => .ok output
  | ref :: input, output =>
    let name := trim ref
    if name = [] ∨ output.any (fun set ↦ set.name == name) then ruleSetsLoop known input output
    else
      match findRuleSet known name with
      | none => .error (.set .notFound (bytes "rule set " ++ name ++ bytes " not found"))
      | some set => do
        let compiled ← compileRuleSet set
        ruleSetsLoop known input (output ++ [compiled])

/-- Rule sets replace the other matchers for the destination. -/
def RuleSpec.combines (input : RuleSpec) : Prop :=
  input.ruleSets ≠ [] ∧ (input.domains ≠ [] ∨ input.domainSuffixes ≠ [] ∨
    input.domainKeywords ≠ [] ∨ input.cidrs ≠ [])

instance (input : RuleSpec) : Decidable input.combines :=
  inferInstanceAs (Decidable (_ ∧ _))

def separateMatchers (input : RuleSpec) : Except Error Unit :=
  if input.combines then
    .error (.set .invalidArgument (bytes "rule_sets cannot be combined with destination matchers"))
  else .ok ()

/-- The names that rules may refer to. -/
structure Known where
  chains : List Bytes := []
  groups : List Bytes := []
  ruleSets : List RuleSetSpec := []
deriving DecidableEq, Repr

/-- `ch_compile_rule`. -/
def compileRule (input : RuleSpec) (known : Known) : Except Error CompiledRule := do
  let action ← parseAction input.action known.chains known.groups
  separateMatchers input
  let cidrs ← cidrListCompile input.cidrs
  let sourceCidrs ← cidrListCompile input.sourceCidrs
  let ruleSets ← ruleSetsLoop known.ruleSets input.ruleSets []
  return {
    name := if trim input.name = [] then bytes "unnamed" else trim input.name
    action := action
    domains := ownedStringsCompile input.domains false
    suffixes := ownedStringsCompile input.domainSuffixes true
    keywords := ownedStringsCompile input.domainKeywords false
    cidrs := cidrs
    sourceCidrs := sourceCidrs
    ports := input.ports
    networks := ownedStringsCompile input.networks false
    processes := ownedStringsCompile input.processes false
    ruleSets := ruleSets }

/-- A `ch_rule_engine`. -/
structure RuleEngine where
  defaultChain : Bytes
  rules : List CompiledRule
  needsProcess : Bool
deriving DecidableEq, Repr

def checkDefaultChain (defaultChain : Bytes) (known : Known) : Except Error Unit :=
  if defaultChain = [] then
    .error (.set .invalidArgument (bytes "rules: default chain is required"))
  else if defaultChain ∉ known.chains then
    .error (.set .notFound (bytes "rules: default chain " ++ defaultChain ++ bytes " not found"))
  else .ok ()

/-- `ch_rule_engine_compile`. -/
def ruleEngineCompile (rules : List RuleSpec) (defaultChain : Bytes) (known : Known) :
    Except Error RuleEngine := do
  checkDefaultChain (trim defaultChain) known
  let compiled ← rules.mapM fun rule ↦ compileRule rule known
  return ⟨trim defaultChain, compiled, compiled.any fun rule ↦ !rule.processes.isEmpty⟩

/-! ## What compiling gives -/

variable {stripDot : Bool}

theorem mem_ownedStringsLoop {n : Bytes} :
    ∀ {input output : List Bytes}, n ∈ ownedStringsLoop stripDot input output ↔
      n ∈ output ∨ n ≠ [] ∧ ∃ value ∈ input, trimmedLower value stripDot = n
  | [], output => by simp [ownedStringsLoop]
  | value :: input, output => by
    rw [ownedStringsLoop]
    split
    all_goals
      rename_i hskip
      rw [mem_ownedStringsLoop]
      grind

variable {input : List Bytes}

/-- The compiled texts are the normalised texts that are not empty. -/
theorem mem_ownedStringsCompile {n : Bytes} :
    n ∈ ownedStringsCompile input stripDot ↔
      n ≠ [] ∧ ∃ value ∈ input, trimmedLower value stripDot = n := by
  rw [ownedStringsCompile, mem_ownedStringsLoop]
  simp

theorem ownedStringsCompile_ne_nil {value : Bytes}
    (hvalue : value ∈ input) (h : trimmedLower value stripDot ≠ []) :
    ownedStringsCompile input stripDot ≠ [] :=
  List.ne_nil_of_mem (mem_ownedStringsCompile.2 ⟨h, value, hvalue, rfl⟩)

theorem cidrListCompile_ne_nil {cidrs : List Cidr}
    (h : cidrListCompile input = .ok cidrs) {value : Bytes} (hvalue : value ∈ input) :
    cidrs ≠ [] := by
  rintro rfl
  rw [cidrListCompile, mapM_eq_ok_iff, List.map_nil, List.map_eq_nil_iff] at h
  cases h ▸ hvalue

/-- Every rule set of a compiled rule is one that the rule refers to, and a reference that is not
blank leaves a rule set. -/
theorem ruleSetsLoop_spec {known : List RuleSetSpec} :
    ∀ {input : List Bytes} {output sets : List CompiledRuleSet},
      ruleSetsLoop known input output = .ok sets →
      (∀ set ∈ sets, set ∈ output ∨ ∃ ref ∈ input, ∃ spec,
        findRuleSet known (trim ref) = some spec ∧ compileRuleSet spec = .ok set) ∧
      ((output ≠ [] ∨ ∃ ref ∈ input, trim ref ≠ []) → sets ≠ [])
  | [], output, sets, h => by
    cases h
    exact ⟨fun _ ↦ .inl, by simp⟩
  | ref :: input, output, sets, h => by
    rw [ruleSetsLoop] at h
    split at h
    · rename_i hskip
      obtain ⟨hsets, hne⟩ := ruleSetsLoop_spec h
      refine ⟨fun set hset ↦ ?_, fun href ↦ hne ?_⟩
      · obtain hset | ⟨r, hr, hspec⟩ := hsets set hset
        · exact .inl hset
        · exact .inr ⟨r, List.mem_cons_of_mem ref hr, hspec⟩
      rcases hskip with hblank | hany
      · simpa [hblank] using href
      · obtain ⟨set, hset, -⟩ := List.any_eq_true.1 hany
        exact .inl (List.ne_nil_of_mem hset)
    split at h
    · cases h
    rename_i spec hspec
    rw [bind_eq_ok_iff] at h
    obtain ⟨compiled, hcompiled, h⟩ := h
    obtain ⟨hsets, hne⟩ := ruleSetsLoop_spec h
    refine ⟨fun set hset ↦ ?_, fun _ ↦ hne (.inl (by simp))⟩
    rcases hsets set hset with hset | ⟨r, hr, hspec⟩
    · rcases List.mem_append.1 hset with hset | hset
      · exact .inl hset
      · rw [List.mem_singleton.1 hset]
        exact .inr ⟨ref, List.mem_cons_self, spec, hspec, hcompiled⟩
    · exact .inr ⟨r, List.mem_cons_of_mem ref hr, hspec⟩

/-- The rule is what compiling `input` gives. -/
structure CompiledRule.From (rule : CompiledRule) (input : RuleSpec) (known : Known) : Prop where
  action : parseAction input.action known.chains known.groups = .ok rule.action
  separate : ¬ input.combines
  cidrs : cidrListCompile input.cidrs = .ok rule.cidrs
  sourceCidrs : cidrListCompile input.sourceCidrs = .ok rule.sourceCidrs
  ruleSets : ruleSetsLoop known.ruleSets input.ruleSets [] = .ok rule.ruleSets
  name : rule.name = if trim input.name = [] then bytes "unnamed" else trim input.name
  domains : rule.domains = ownedStringsCompile input.domains false
  suffixes : rule.suffixes = ownedStringsCompile input.domainSuffixes true
  keywords : rule.keywords = ownedStringsCompile input.domainKeywords false
  ports : rule.ports = input.ports
  networks : rule.networks = ownedStringsCompile input.networks false
  processes : rule.processes = ownedStringsCompile input.processes false

theorem compileRule_eq_ok_iff {input : RuleSpec} {known : Known} {rule : CompiledRule} :
    compileRule input known = .ok rule ↔ rule.From input known := by
  have hseparate : separateMatchers input = .ok () ↔ ¬ input.combines := by
    rw [separateMatchers]
    split <;> simp_all
  simp only [compileRule, bind_eq_ok_iff]
  constructor
  · rintro ⟨action, haction, u, hu, cidrs, hcidrs, sources, hsources, sets, hsets, h⟩
    cases h
    exact ⟨haction, hseparate.1 hu, hcidrs, hsources, hsets, rfl, rfl, rfl, rfl, rfl, rfl, rfl⟩
  · intro h
    refine ⟨_, h.action, (), hseparate.2 h.separate, _, h.cidrs, _, h.sourceCidrs, _, h.ruleSets,
      ?_⟩
    rw [← h.name, ← h.domains, ← h.suffixes, ← h.keywords, ← h.ports, ← h.networks, ← h.processes]
    rfl

theorem ruleEngineCompile_eq_ok {rules : List RuleSpec} {defaultChain : Bytes} {known : Known}
    {engine : RuleEngine} (h : ruleEngineCompile rules defaultChain known = .ok engine) :
    rules.mapM (fun rule ↦ compileRule rule known) = .ok engine.rules ∧
      engine.needsProcess = engine.rules.any fun rule ↦ !rule.processes.isEmpty := by
  simp only [ruleEngineCompile, bind_eq_ok_iff] at h
  obtain ⟨u, -, compiled, hcompiled, h⟩ := h
  cases h
  exact ⟨hcompiled, rfl⟩

end ClambHook.Rules
