import ClambHook.Config.Table
import ClambHook.Rules.Compile

/-!
# Rules in the configuration

`validate_rules` of `config.c` checks the rule tables of a profile, and `config_load_rule` of
`rules_config.c` reads one into the specification that the rule engine compiles.  Both reach the
lists of matchers through accessors that look at arrays only: a list given as a single value is
neither checked nor read.
-/

namespace ClambHook.Config

open CString Inet Rules List

/-! ## Validation -/

/-- `validation_error`. -/
def validationError (message : String) : Error :=
  .set .invalidArgument (bytes "validate config: " ++ bytes message)

/-- `string_is_trimmed_nonempty`. -/
def stringIsTrimmedNonempty (value : Bytes) : Bool :=
  value.head?.any (!isspace ·) && value.getLast?.any (!isspace ·)

/-- `table_string`, with `NULL` as `none`. -/
def tableString (t : Table) (key : String) : Option Bytes :=
  (t.lookup (bytes key)).bind Value.asString

def arrayIn (t : Table) (key : String) : Option (List Value) :=
  getArray t (bytes key)

/-- `valid_cidr`.  Its buffer holds 45 bytes of address. -/
def validCidr (text : Bytes) : Bool :=
  stringIsTrimmedNonempty text &&
    match splitLast 47 text with
    | none => false
    | some (address, prefixText) =>
      let family : Family := if 58 ∈ address then .inet6 else .inet
      let read := strtol prefixText
      address != [] && prefixText != [] && address.length < 46 && (pton family address).isSome &&
        !read.erange && read.rest != prefixText && read.rest == [] &&
        decide (0 ≤ read.value) && decide (read.value ≤ family.bits)

/-- `valid_ip`. -/
def validIp (text : Bytes) : Bool :=
  stringIsTrimmedNonempty text && ((pton4 text).isSome || (pton6 text).isSome)

/-- `validate_string_array`. -/
def validateStringArray (array : Option (List Value)) (cidr ip : Bool) (field : String) :
    Except Error Unit :=
  if (array.getD []).all fun item ↦ item.asString.any fun s ↦
      stringIsTrimmedNonempty s && (!cidr || validCidr s) && (!ip || validIp s) then
    .ok ()
  else .error (validationError (field ++ " contains an invalid value"))

/-- `validate_network_array`. -/
def validateNetworkArray (networks : Option (List Value)) (label : String) : Except Error Unit :=
  if (networks.getD []).all fun item ↦ item.asString.any fun s ↦
      stringIsTrimmedNonempty s && (strcaseeq s (bytes "tcp") || strcaseeq s (bytes "udp")) then
    .ok ()
  else .error (validationError (label ++ " must contain only tcp or udp"))

/-- `named_table_exists`. -/
def namedTableExists (tables : Option (List Value)) (name : Bytes) : Bool :=
  (tables.getD []).any fun item ↦
    match item with
    | .table entries => tableString entries "name" == some name
    | _ => false

/-- The check of a rule's action.  The name of a chain or a group starts behind the first colon. -/
def validateAction (action : Bytes) (chains groups : Option (List Value)) : Bool :=
  strcaseeq action (bytes "direct") || strcaseeq action (bytes "block") ||
    strcaseeq action (bytes "reject") ||
    match splitFirst 58 action with
    | none | some (_, []) => false
    | some (_, target) =>
      if strcaseeq (action.take 6) (bytes "chain:") then namedTableExists chains target
      else strcaseeq (action.take 6) (bytes "group:") && namedTableExists groups target

def validateRuleSets (rule : Table) (sets : Option (List Value)) : Except Error Unit :=
  let refs := (arrayIn rule "rule_sets").getD []
  if refs = [] then .ok ()
  else if (arrayIn rule "domains").isSome ∨ (arrayIn rule "domain_suffixes").isSome ∨
      (arrayIn rule "domain_keywords").isSome ∨ (arrayIn rule "cidrs").isSome then
    .error (validationError "rule_sets cannot be combined with inline matchers")
  else if refs.all fun item ↦ item.asString.any (namedTableExists sets) then .ok ()
  else .error (validationError "rule references an unknown rule set")

def validatePorts (rule : Table) : Except Error Unit :=
  if ((arrayIn rule "ports").getD []).all fun item ↦
      item.asInt.any fun port ↦ decide (0 ≤ port) && decide (port ≤ 65535) then
    .ok ()
  else .error (validationError "rule port is out of range")

def validateNameAndAction (rule : Table) (chains groups : Option (List Value)) :
    Except Error Unit :=
  if !(tableString rule "name").any stringIsTrimmedNonempty then
    .error (validationError "rule name is required")
  else if !(tableString rule "action").any stringIsTrimmedNonempty then
    .error (validationError "rule action is required")
  else if !(tableString rule "action").any (validateAction · chains groups) then
    .error (validationError
      "rule action must be direct, block, reject, chain:<name>, or group:<name>")
  else .ok ()

/-- The loop body of `validate_rules`. -/
def validateRule (rule : Table) (chains groups sets : Option (List Value)) : Except Error Unit := do
  validateNameAndAction rule chains groups
  validateStringArray (arrayIn rule "domains") false false "domains"
  validateStringArray (arrayIn rule "domain_suffixes") false false "domain_suffixes"
  validateStringArray (arrayIn rule "domain_keywords") false false "domain_keywords"
  validateStringArray (arrayIn rule "networks") false false "networks"
  validateStringArray (arrayIn rule "rule_sets") false false "rule_sets"
  validateStringArray (arrayIn rule "processes") false false "processes"
  validateRuleSets rule sets
  validateNetworkArray (arrayIn rule "networks") "rule.networks"
  validateStringArray (arrayIn rule "cidrs") true false "rule.cidrs"
  validateStringArray (arrayIn rule "source_cidrs") true false "rule.source_cidrs"
  validatePorts rule

/-- The check of one server of a chain. -/
def validateServer (server : Value) : Except Error Unit :=
  match server with
  | .table entries =>
    if (tableString entries "protocol").any stringIsTrimmedNonempty then .ok ()
    else .error (validationError "server protocol is required")
  | _ => .error (validationError "server protocol is required")

/-- The check of one chain of a profile, behind the chains `prior`. -/
def validateChain (prior : List Value) (chain : Value) : Except Error Unit :=
  match chain with
  | .table entries =>
    match tableString entries "name" with
    | none => .error (validationError "chain name is required")
    | some name =>
      if !stringIsTrimmedNonempty name then .error (validationError "chain name is required")
      else if namedTableExists (some prior) name then
        .error (validationError "duplicate chain name")
      else if (arrayIn entries "server").getD [] = [] then
        .error (validationError "chain requires at least one server")
      else ((arrayIn entries "server").getD []).forM validateServer
  | _ => .error (validationError "chain must be a table")

/-- The loop of `validate_profile` over the chains from the first one behind `prior` on. -/
def chainsLoop : List Value → List Value → Except Error Unit
  | _, [] => .ok ()
  | prior, chain :: chains => do
    validateChain prior chain
    chainsLoop (prior ++ [chain]) chains

/-- The part of `validate_profile` about chains. -/
def validateChains (profile : Table) : Except Error Unit :=
  chainsLoop [] ((arrayIn profile "chain").getD [])

/-! ## Loading -/

def arrayMissing (index : Nat) : Error :=
  .set .notFound (bytes "config array value " ++ decimal index ++
    bytes " is missing or has the wrong type")

/-- Reads the elements of an array from `index` on. -/
def arrayStrings : Nat → List Value → Except Error (List Bytes)
  | _, [] => .ok []
  | index, item :: items =>
    match item.asString with
    | none => .error (arrayMissing index)
    | some s => do
      let rest ← arrayStrings (index + 1) items
      return s :: rest

/-- `config_load_strings`. -/
def configLoadStrings (t : Table) (key : String) : Except Error (List Bytes) :=
  arrayStrings 0 ((arrayIn t key).getD [])

/-- The loop of `config_load_ports`. -/
def arrayPorts : Nat → List Value → Except Error (List Int)
  | _, [] => .ok []
  | index, item :: items =>
    match item.asInt with
    | none => .error (arrayMissing index)
    | some port =>
      if port < 0 ∨ port > 65535 then
        .error (.set .invalidArgument (bytes "configuration rule port is out of range"))
      else do
        let rest ← arrayPorts (index + 1) items
        return port :: rest

/-- `config_load_ports`. -/
def configLoadPorts (t : Table) : Except Error (List Int) :=
  arrayPorts 0 ((arrayIn t "ports").getD [])

/-- `config_load_rule`. -/
def configLoadRule (t : Table) : Except Error RuleSpec := do
  let name ← getString t (bytes "name")
  let action ← getString t (bytes "action")
  let ruleSets ← configLoadStrings t "rule_sets"
  let domains ← configLoadStrings t "domains"
  let domainSuffixes ← configLoadStrings t "domain_suffixes"
  let domainKeywords ← configLoadStrings t "domain_keywords"
  let cidrs ← configLoadStrings t "cidrs"
  let sourceCidrs ← configLoadStrings t "source_cidrs"
  let ports ← configLoadPorts t
  let networks ← configLoadStrings t "networks"
  let processes ← configLoadStrings t "processes"
  return { name := name, action := action, ruleSets := ruleSets, domains := domains
           domainSuffixes := domainSuffixes, domainKeywords := domainKeywords, cidrs := cidrs
           sourceCidrs := sourceCidrs, ports := ports, networks := networks
           processes := processes }

/-! ## The engine of a profile -/

/-- `config_load_names`.  At an element that is no table the loop ends without an error having been
set: the code that is returned is that of success, with no names. -/
def configLoadNames : List Value → List Bytes → Except Error (List Bytes)
  | [], names => .ok names
  | .table entries :: items, names => do
    let name ← getString entries (bytes "name")
    configLoadNames items (names ++ [name])
  | _ :: _, _ => .ok []

def checkChains (chains : List Bytes) : Except Error Unit :=
  if chains = [] then .error (.set .invalidArgument (bytes "profile has no chains")) else .ok ()

/-- The names of the chains and of the groups of a profile. -/
def profileKnown (profile : Table) : Except Error Known := do
  let chains ← configLoadNames ((arrayIn profile "chain").getD []) []
  checkChains chains
  let groups ← configLoadNames ((arrayIn profile "policy_group").getD []) []
  return { chains := chains, groups := groups }

/-- `ch_rule_engine_compile_config` for other rules than those of the profile, which refer to no
rule sets.  The first chain of the profile is the default. -/
def compileForProfile (profile : Table) (rules : List RuleSpec) : Except Error RuleEngine := do
  let known ← profileKnown profile
  ruleEngineCompile rules (known.chains.headD []) known

/-! ## What validation and loading give -/

variable {s : Bytes}

theorem stringIsTrimmedNonempty_iff :
    stringIsTrimmedNonempty s = true ↔ s ≠ [] ∧ Trimmed s := by
  cases s with
  | nil => simp [stringIsTrimmedNonempty]
  | cons b s =>
    obtain ⟨c, hc⟩ : ∃ c, (b :: s).getLast? = some c :=
      Option.isSome_iff_exists.1 (by simp)
    simp [stringIsTrimmedNonempty, Trimmed, hc]

theorem trimmed_of_validateStringArray {array : Option (List Value)} {cidr ip : Bool}
    {field : String} (h : validateStringArray array cidr ip field = .ok ())
    (hs : Value.string s ∈ array.getD []) : s ≠ [] ∧ Trimmed s := by
  rw [validateStringArray] at h
  split at h
  · rename_i hall
    have hitem := all_eq_true.1 hall _ hs
    simp only [Value.asString, Option.any_some, Bool.and_eq_true] at hitem
    exact stringIsTrimmedNonempty_iff.1 hitem.1.1
  · cases h

/-- The keys whose texts the validator wants trimmed. -/
def trimmedKeys : List String :=
  ["domains", "domain_suffixes", "domain_keywords", "networks", "rule_sets", "processes"]

theorem trimmed_of_validateRule {rule : Table} {chains groups sets : Option (List Value)}
    (h : validateRule rule chains groups sets = .ok ()) {key : String} (hkey : key ∈ trimmedKeys)
    (hs : Value.string s ∈ (arrayIn rule key).getD []) : s ≠ [] ∧ Trimmed s := by
  simp only [validateRule, bind_eq_ok_iff] at h
  obtain ⟨_, _, _, h₁, _, h₂, _, h₃, _, h₄, _, h₅, _, h₆, _⟩ := h
  simp only [trimmedKeys, mem_cons, not_mem_nil, or_false] at hkey
  rcases hkey with rfl | rfl | rfl | rfl | rfl | rfl
  · exact trimmed_of_validateStringArray h₁ hs
  · exact trimmed_of_validateStringArray h₂ hs
  · exact trimmed_of_validateStringArray h₃ hs
  · exact trimmed_of_validateStringArray h₄ hs
  · exact trimmed_of_validateStringArray h₅ hs
  · exact trimmed_of_validateStringArray h₆ hs

theorem arrayStrings_eq_ok {items : List Value} {strings : List Bytes} :
    ∀ {index : Nat}, arrayStrings index items = .ok strings → items = strings.map .string := by
  induction items generalizing strings with
  | nil =>
    intro index h
    cases h
    rfl
  | cons item items ih =>
    intro index h
    cases item with
    | string s =>
      rw [arrayStrings, Value.asString] at h
      obtain ⟨rest, hrest, h⟩ := bind_eq_ok_iff.1 h
      cases h
      rw [ih hrest, map_cons]
    | _ => cases h

theorem arrayPorts_eq_ok {items : List Value} {ports : List Int} :
    ∀ {index : Nat}, arrayPorts index items = .ok ports → items = ports.map .integer := by
  induction items generalizing ports with
  | nil =>
    intro index h
    cases h
    rfl
  | cons item items ih =>
    intro index h
    cases item with
    | integer port =>
      rw [arrayPorts, Value.asInt] at h
      dsimp only at h
      split at h
      · cases h
      · obtain ⟨rest, hrest, h⟩ := bind_eq_ok_iff.1 h
        cases h
        rw [ih hrest, map_cons]
    | _ => cases h

/-- The specification holds the arrays of the table. -/
structure Loaded (t : Table) (spec : RuleSpec) : Prop where
  ruleSets : (arrayIn t "rule_sets").getD [] = spec.ruleSets.map .string
  domains : (arrayIn t "domains").getD [] = spec.domains.map .string
  domainSuffixes : (arrayIn t "domain_suffixes").getD [] = spec.domainSuffixes.map .string
  domainKeywords : (arrayIn t "domain_keywords").getD [] = spec.domainKeywords.map .string
  cidrs : (arrayIn t "cidrs").getD [] = spec.cidrs.map .string
  sourceCidrs : (arrayIn t "source_cidrs").getD [] = spec.sourceCidrs.map .string
  ports : (arrayIn t "ports").getD [] = spec.ports.map .integer
  networks : (arrayIn t "networks").getD [] = spec.networks.map .string
  processes : (arrayIn t "processes").getD [] = spec.processes.map .string

theorem loaded_of_configLoadRule {t : Table} {spec : RuleSpec} (h : configLoadRule t = .ok spec) :
    Loaded t spec := by
  simp only [configLoadRule, bind_eq_ok_iff] at h
  obtain ⟨_, _, _, _, ruleSets, h₁, domains, h₂, suffixes, h₃, keywords, h₄, cidrs, h₅, sources, h₆,
    ports, h₇, networks, h₈, processes, h₉, h⟩ := h
  cases h
  exact ⟨arrayStrings_eq_ok h₁, arrayStrings_eq_ok h₂, arrayStrings_eq_ok h₃, arrayStrings_eq_ok h₄,
    arrayStrings_eq_ok h₅, arrayStrings_eq_ok h₆, arrayPorts_eq_ok h₇, arrayStrings_eq_ok h₈,
    arrayStrings_eq_ok h₉⟩

end ClambHook.Config
