import ClambHook.Rules.Compile

/-!
# Matching rules

`ch_rule_engine_decide` takes the first compiled rule that matches a connection.  A rule has classes
of matchers; a class without entries constrains nothing, and every other class has to match.  The
target of the connection is split into a host and a port first.
-/

namespace ClambHook.Rules

open CString Inet

/-- A `ch_rule_match_context`. -/
structure MatchContext where
  network : Bytes := []
  target : Bytes := []
  source : Bytes := []
  processName : Bytes := []
  processPath : Bytes := []
deriving DecidableEq, Repr

/-! ## Targets -/

/-- `ch_normalize_host`. -/
def normalizeHost (host : Bytes) : Bytes :=
  lower (stripFinalDot (stripBrackets (trim host)))

/-- Where the port of a trimmed target may start: behind the last colon, or behind the colon that
follows the last bracket. -/
def separatePort (host : Bytes) : Option (Bytes × Bytes) :=
  if host.head? = some 91 then
    match splitLast 93 host with
    | some (inside, 58 :: port) => some (inside ++ [93], port)
    | _ => none
  else splitLast 58 host

/-- Does `strtol` read the whole text as a number that fits? -/
def isNumber (s : Bytes) : Bool :=
  let read := strtol s
  !read.erange && read.rest != s && read.rest == []

/-- `ch_split_target`: the host and the port, which is empty when there is none. -/
def splitTarget (target : Bytes) : Bytes × Bytes :=
  let host := trim target
  match separatePort host with
  | some (front, port) =>
    if port ≠ [] ∧ isNumber port then (normalizeHost front, port) else (normalizeHost host, [])
  | none => (normalizeHost host, [])

/-! ## Matchers -/

/-- The kinds of matchers that a decision reports. -/
inductive Kind where
  | network
  | port
  | sourceCidr
  | process
  | domain
  | domainSuffix
  | domainKeyword
  | cidr
  | ruleSetDomain
  | ruleSetDomainSuffix
  | ruleSetDomainKeyword
  | ruleSetCidr
  | allTraffic
deriving DecidableEq, Repr

def Kind.text : Kind → Bytes
  | .network => bytes "network"
  | .port => bytes "port"
  | .sourceCidr => bytes "source_cidr"
  | .process => bytes "process"
  | .domain => bytes "domain"
  | .domainSuffix => bytes "domain_suffix"
  | .domainKeyword => bytes "domain_keyword"
  | .cidr => bytes "cidr"
  | .ruleSetDomain => bytes "rule_set_domain"
  | .ruleSetDomainSuffix => bytes "rule_set_domain_suffix"
  | .ruleSetDomainKeyword => bytes "rule_set_domain_keyword"
  | .ruleSetCidr => bytes "rule_set_cidr"
  | .allTraffic => bytes "all_traffic"

/-- A `ch_match`. -/
structure Match where
  kind : Kind
  value : Bytes
deriving DecidableEq, Repr

/-- `ch_cidr_contains`: whole bytes first, then the bits of the next one. -/
def cidrContains (cidr : Cidr) (address : Bytes) : Bool :=
  let whole := cidr.prefixLength / 8
  let remainder := cidr.prefixLength % 8
  if whole > 0 ∧ cidr.address.take whole ≠ address.take whole then false
  else if remainder = 0 then true
  else
    let mask : UInt8 := (0xff <<< (8 - remainder)).toUInt8
    (cidr.address.getD whole 0 &&& mask) == (address.getD whole 0 &&& mask)

/-- `ch_match_cidrs`: the text of the first CIDR that contains the host.  Its buffer holds 48
bytes. -/
def matchCidrs (list : List Cidr) (rawHost : Bytes) : Option Bytes :=
  if rawHost.length ≥ 48 then none
  else
    match parseAddress (stripBrackets rawHost) with
    | none => none
    | some (family, address) =>
      (list.find? fun cidr ↦ cidr.family = family && cidrContains cidr address).map Cidr.text

/-- The host is the suffix, or ends in a dot and the suffix. -/
def suffixMatches (suffix host : Bytes) : Bool :=
  host == suffix || (46 :: suffix).isSuffixOf host

/-- `ch_domain_match`. -/
def domainMatch (domains suffixes keywords : List Bytes) (host : Bytes) : Option Match :=
  if host ∈ domains then some ⟨.domain, host⟩
  else
    ((suffixes.find? (suffixMatches · host)).map fun suffix ↦ ⟨.domainSuffix, suffix⟩).or
      ((keywords.find? (contains · host)).map fun keyword ↦ ⟨.domainKeyword, keyword⟩)

/-- The last component of a path. -/
def baseName (path : Bytes) : Bytes :=
  match splitLast 47 path with
  | none => path
  | some (_, base) => base

/-- `ch_process_match`. -/
def processMatch (patterns : List Bytes) (name path : Bytes) : Option Bytes :=
  let name := trimmedLower name false
  let path := trimmedLower path false
  let base := baseName path
  patterns.find? fun pattern ↦
    pattern == name || (path != [] && pattern == path) || (base != [] && pattern == base)

/-- The part of `ch_rule_matches` about ports: the text of the port as `strtol` reads it. -/
def portMatch (ports : List Int) (port : Bytes) : Option Bytes :=
  let read := strtol port
  if read.rest = port ∨ read.rest ≠ [] then none
  else if read.value ∈ ports then some port
  else none

/-- The match of one rule set.  The buffer for its value holds 511 bytes. -/
def ruleSetMatch (set : CompiledRuleSet) (host : Bytes) : Option Match :=
  let value := fun (text : Bytes) ↦ (set.name ++ [58] ++ text).take 511
  match domainMatch set.domains set.suffixes set.keywords host with
  | some nested =>
    some ⟨match nested.kind with
      | .domain => .ruleSetDomain
      | .domainSuffix => .ruleSetDomainSuffix
      | _ => .ruleSetDomainKeyword, value nested.value⟩
  | none => (matchCidrs set.cidrs host).map fun cidr ↦ ⟨.ruleSetCidr, value cidr⟩

/-- One class of matchers: without entries it constrains nothing, and what it finds counts when no
earlier class has found something. -/
def matchClass (empty : Bool) (found : Option Match) (earlier : Option Match) :
    Option (Option Match) :=
  if empty then some earlier else found.map fun m ↦ earlier.or (some m)

/-- The class of the rule sets.  It is reported even when an earlier class has found something. -/
def ruleSetsMatch (sets : List CompiledRuleSet) (host : Bytes) (earlier : Option Match) :
    Option (Option Match) :=
  if sets.isEmpty then some earlier else (sets.findSome? (ruleSetMatch · host)).map some

/-- `ch_rule_matches`. -/
def ruleMatches (rule : CompiledRule) (context : MatchContext) (network host port : Bytes) :
    Option Match := do
  let m ← matchClass rule.networks.isEmpty
    (if network ∈ rule.networks then some ⟨.network, network⟩ else none) none
  let m ← matchClass rule.ports.isEmpty ((portMatch rule.ports port).map (⟨.port, ·⟩)) m
  let m ← matchClass rule.sourceCidrs.isEmpty
    ((matchCidrs rule.sourceCidrs (splitTarget context.source).1).map (⟨.sourceCidr, ·⟩)) m
  let m ← matchClass rule.processes.isEmpty
    ((processMatch rule.processes context.processName context.processPath).map (⟨.process, ·⟩)) m
  let m ← matchClass (rule.domains.isEmpty && rule.suffixes.isEmpty && rule.keywords.isEmpty)
    (domainMatch rule.domains rule.suffixes rule.keywords host) m
  let m ← matchClass rule.cidrs.isEmpty ((matchCidrs rule.cidrs host).map (⟨.cidr, ·⟩)) m
  let m ← ruleSetsMatch rule.ruleSets host m
  return m.getD ⟨.allTraffic, bytes "*"⟩

/-! ## Decisions -/

/-- A `ch_rule_decision`, without the time it took. -/
structure Decision where
  ruleName : Bytes
  ruleNumber : Nat
  action : Bytes
  chainName : Bytes
  groupName : Bytes
  target : Bytes
  host : Bytes
  port : Bytes
  network : Bytes
  source : Bytes
  isDefault : Bool
  matcherKind : Bytes
  matcherValue : Bytes
  summary : Bytes
deriving DecidableEq, Repr

/-- The first rule that matches, with its index. -/
def firstMatch (context : MatchContext) (network host port : Bytes) :
    List CompiledRule → Nat → Option (Nat × CompiledRule × Match)
  | [], _ => none
  | rule :: rules, index =>
    match ruleMatches rule context network host port with
    | some m => some (index, rule, m)
    | none => firstMatch context network host port rules (index + 1)

/-- The summary of a decision.  Its buffer holds 767 bytes. -/
def matchSummary (ruleName : Bytes) (m : Match) : Bytes :=
  let front := bytes "Rule \"" ++ ruleName ++ bytes "\" matched " ++ m.kind.text
  (if m.value = [] then front ++ bytes "."
    else front ++ bytes " \"" ++ m.value ++ bytes "\".").take 767

/-- `ch_rule_engine_decide`. -/
def ruleEngineDecide (engine : RuleEngine) (context : MatchContext) : Decision :=
  let network := trimmedLower context.network false
  let (host, port) := splitTarget context.target
  match firstMatch context network host port engine.rules 0 with
  | some (index, rule, m) =>
    { ruleName := rule.name, ruleNumber := index + 1
      action := rule.action.text, chainName := rule.action.chainName
      groupName := rule.action.groupName
      target := context.target, host := host, port := port, network := network
      source := context.source, isDefault := false
      matcherKind := m.kind.text, matcherValue := m.value
      summary := matchSummary rule.name m }
  | none =>
    { ruleName := [], ruleNumber := engine.rules.length + 1
      action := bytes "chain", chainName := engine.defaultChain, groupName := []
      target := context.target, host := host, port := port, network := network
      source := context.source, isDefault := true
      matcherKind := [], matcherValue := []
      summary := bytes "No rule matched; used the default chain." }

end ClambHook.Rules
