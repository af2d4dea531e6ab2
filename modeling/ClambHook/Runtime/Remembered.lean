import ClambHook.Runtime.Listener
import ClambHook.Traffic.Governs

/-!
# Remembered answers

An answer to a prompt with scope `forever` becomes a rule of the profile.  The rule should stand for
the answer: it should take the later connections that agree with the answered one in everything the
answer asked to match, give them the route that the answered one got, and take no other connection.
Connections are compared as the engine reads them: hosts as the target is split, ports as numbers,
and paths and networks without case and without white space around them.

Two things can go wrong.  A property that the answer asks for but the prompt does not have in usable
form (no host, no port or one outside 1 to 65535, no network) is silently left out of the rule,
which then takes more connections than asked.  And an allowed connection went over the chain of its
listener, while the rule sends its connections over the first chain of the profile.
-/

namespace ClambHook.Runtime

open CString Config Rules List Option TemporaryRules Prompt Json

/-! ## The created rule -/

/-- A text or a number of a request, as it is read back from the document.  What is neither stands
for a value that no accessor reads. -/
def scalarValue : Json → Value
  | .string s => .string s
  | .boolean b => .boolean b
  | .number value _ => if value.den = 1 then .integer value.num else .float (some value)
  | _ => .float none

/-- A member of the rule of a request, as it is read back from the document.  The rule has texts and
lists of texts and numbers only. -/
def memberValue : Json → Value
  | .array items => .array (items.map scalarValue)
  | v => scalarValue v

/-- The table that `mutation_create_rule` adds to the profile. -/
def ruleTable (rule : Json) : Table :=
  match rule with
  | .object members => members.map fun m ↦ (m.1, memberValue m.2)
  | _ => []

/-- The rule `spec` was created for the answer: the request was made and names a profile of the
configuration, and the profile is accepted with the rule of the request in it. -/
structure Created (config : Parsed) (r : Request) (o : ActionOptions) (allow : Bool)
    (spec : RuleSpec) : Prop where
  forever : o.scope = .forever
  accepted : ∃ request rule profile,
    ruleRequestJson r (some config) o allow = .ok request ∧
    objectGet (some request) (bytes "rule") = some rule ∧
    Traffic.profileNamed ((profileElements config.root).filterMap Value.asTable) r.profile =
      some profile ∧
    validateChains profile = .ok () ∧
    validateRule (ruleTable rule) (arrayIn profile "chain") (arrayIn profile "policy_group")
      (arrayIn profile "rule_set") = .ok () ∧
    configLoadRule (ruleTable rule) = .ok spec

/-! ## What is wanted of it -/

/-- The path of the process of a connection, or nothing. -/
def Arrival.path (a : Arrival) : Bytes :=
  (a.process.map ProcessInfo.path).getD []

/-- The number that a port text stands for. -/
def portNumber (port : Bytes) : Option Int :=
  if port = [] then none else some (strtol port).value

/-- The connections agree in everything that the answer asks to match. -/
structure Same (o : ActionOptions) (a b : Arrival) : Prop where
  process : lower (trim b.path) = lower (trim a.path)
  host : o.matchHost = true → (splitTarget b.target).1 = (splitTarget a.target).1
  port : o.matchPort = true →
    portNumber (splitTarget b.target).2 = portNumber (splitTarget a.target).2
  network : o.matchProtocol = true → lower (trim b.network) = lower (trim a.network)

/-- The decision is that of the first rule. -/
def TakenByFirst (d : Decision) : Prop :=
  d.isDefault = false ∧ d.ruleNumber = 1

/-- The connection came to a prompt: prompts are enabled, and no rule decides it. -/
structure Prompted (entry : Entry) (around : Surroundings) (a : Arrival) : Prop where
  enabled : around.promptsEnabled = true
  temporary : (temporaryRulesDecide around.temporary entry.profileName a.context
    around.clock).2 = none
  default : (ruleEngineDecide entry.rules a.context).isDefault = true

/-- The prompt of a connection. -/
def Arrival.prompt (entry : Entry) (a : Arrival) : Request :=
  promptRequest entry a (ruleEngineDecide entry.rules a.context)

/-- The first rule of the engine stands for the answer: at every listener it takes exactly the
connections that agree with `a`, and they get the route that `a` got. -/
def StandsFor (engine : RuleEngine) (o : ActionOptions) (a : Arrival)
    (outcome : Except Error Route) : Prop :=
  ∀ b : Arrival, (TakenByFirst (ruleEngineDecide engine b.context) ↔ Same o a b) ∧
    ∀ (entry : Entry) (select : Bytes → Except Error Bytes), entry.rules = engine → Same o a b →
      routeOf entry select (ruleEngineDecide engine b.context) = outcome

/-- What the answer asks to match can be matched, and an allowed connection went over the first
chain of its profile. -/
structure Expressible (config : Parsed) (entry : Entry) (o : ActionOptions) (allow : Bool)
    (a : Arrival) : Prop where
  host : o.matchHost = true → (splitTarget a.target).1 ≠ []
  port : o.matchPort = true → ∃ n, portNumber (splitTarget a.target).2 = some n ∧ 1 ≤ n ∧ n ≤ 65535
  network : o.matchProtocol = true → trim a.network ≠ []
  chain : allow = true → firstChain config.root entry.profileName = some entry.defaultChain

/-! ## Targets -/

/-- A target with a given host and port. -/
def targetFor (host : Bytes) (port : Nat) : Bytes :=
  91 :: ((host ++ [46]) ++ 93 :: 58 :: decimal port)

theorem splitTarget_targetFor {host : Bytes} (hlower : lower host = host) {port : Nat}
    (hport : port ≤ 65535) : splitTarget (targetFor host port) = (host, decimal port) := by
  have hdot : stripFinalDot (host ++ [46]) = host := by simp [stripFinalDot]
  rw [targetFor, splitTarget_bracketed (isNumber_decimal hport), hdot, hlower]

/-- The port that a target is split into is read as a number, if there is one. -/
theorem strtol_splitTarget (target : Bytes) (h : (splitTarget target).2 ≠ []) :
    (strtol (splitTarget target).2).rest = [] := by
  have hnumber : (splitTarget target).2 = [] ∨ isNumber (splitTarget target).2 = true := by
    simp only [splitTarget]
    split
    · split
      · next hport => exact .inr hport.2
      · exact .inl rfl
    · exact .inl rfl
  exact rest_of_isNumber (hnumber.resolve_left h)

variable {n : Int}

theorem portIs_splitTarget_iff {target : Bytes} :
    PortIs (splitTarget target).2 n ↔ portNumber (splitTarget target).2 = some n := by
  rw [PortIs, portNumber]
  constructor
  · rintro ⟨hne, -, hvalue⟩
    rw [if_neg hne, hvalue]
  intro h
  split at h
  · cases h
  · next hne => exact ⟨hne, strtol_splitTarget target hne, Option.some.inj h⟩

theorem portNumber_decimal {n : Nat} (h : n ≤ 65535) : portNumber (decimal n) = some (n : Int) := by
  rw [portNumber, if_neg (decimal_ne_nil n), strtol_decimal (by rw [longMax]; omega)]

theorem rulePort_eq_some_iff {target : Bytes} :
    rulePort (splitTarget target).2 = some n ↔
      portNumber (splitTarget target).2 = some n ∧ 1 ≤ n ∧ n ≤ 65535 := by
  rw [← portIs_splitTarget_iff, PortIs, rulePort]
  constructor
  · intro h
    split at h
    · next hread =>
      cases h
      exact ⟨⟨fun hnil ↦ hread.1 (hread.2.1.trans hnil.symm), hread.2.1, rfl⟩, hread.2.2⟩
    · cases h
  · rintro ⟨⟨hne, hrest, rfl⟩, hmin, hmax⟩
    rw [if_pos ⟨fun h ↦ hne (h.symm.trans hrest), hrest, hmin, hmax⟩]

/-! ## The matchers of the rule -/

/-- The host, the port and the network that the rule for a prompt has. -/
def askedHost (r : Request) (o : ActionOptions) : Bytes :=
  if o.matchHost then r.targetHost else []

def askedPort (r : Request) (o : ActionOptions) : Option Int :=
  if o.matchPort then rulePort r.targetPort else none

def askedNetwork (r : Request) (o : ActionOptions) : Bytes :=
  if o.matchProtocol then r.network else []

/-- The rule for a prompt. -/
def ruleSpec (r : Request) (root : Table) (o : ActionOptions) (allow : Bool) :
    RuleSpec where
  name := ruleName r allow o.matchHost
  action := ruleAction r root allow
  domains := optionalText (askedHost r o)
  ports := (askedPort r o).toList
  networks := optionalText (askedNetwork r o)
  processes := [ruleProcess r]

theorem memberValue_newInt64 (hmin : 1 ≤ n) (hmax : n ≤ 65535) :
    memberValue (.array [newInt64 n]) = .array [.integer n] := by
  have hvalue := numberValue_newInt64 hmin hmax 0
  rw [newInt64, numberValue] at hvalue
  simp [memberValue, scalarValue, newInt64, hvalue]

theorem askedPort_eq_some {r : Request} {o : ActionOptions}
    (h : askedPort r o = some n) : 1 ≤ n ∧ n ≤ 65535 := by
  rw [askedPort] at h
  split at h
  · exact rulePort_eq_some h
  · cases h

section

variable (r : Request) (root : Table) (o : ActionOptions) (allow : Bool)

/-- The table that is created for a prompt. -/
theorem ruleTable_ruleMembers :
    ruleTable (.object (ruleMembers r root o allow)) =
      [(bytes "name", .string (ruleName r allow o.matchHost)),
        (bytes "action", .string (ruleAction r root allow)),
        (bytes "processes", .array [.string (ruleProcess r)])] ++
      (optionalText (askedHost r o)).map (fun s ↦ (bytes "domains", .array [.string s])) ++
      (askedPort r o).toList.map (fun n ↦ (bytes "ports", .array [.integer n])) ++
      (optionalText (askedNetwork r o)).map fun s ↦ (bytes "networks", .array [.string s]) := by
  have htexts : ∀ (key : String) (asked : Bool) (s : Bytes),
      (if asked ∧ s ≠ [] then [(bytes key, array [.string s])] else []).map
        (fun m ↦ (m.1, memberValue m.2)) =
      (optionalText (if asked then s else [])).map fun s ↦ (bytes key, .array [.string s]) := by
    intro key asked s
    rw [optionalText]
    cases asked <;> by_cases h : s = [] <;> simp [h, memberValue, scalarValue]
  rw [ruleTable, ruleMembers, map_append, map_append, map_append, htexts, htexts, ← askedPort]
  congr 2
  cases hport : askedPort r o with
  | none => rfl
  | some n =>
    have hbounds := askedPort_eq_some hport
    simp only [map_cons, map_nil, toList_some,
      memberValue_newInt64 hbounds.1 hbounds.2]

/-- The rule is read from its table as it was made. -/
theorem configLoadRule_ruleMembers :
    configLoadRule (ruleTable (.object (ruleMembers r root o allow))) =
      .ok (ruleSpec r root o allow) := by
  have hbounds : ∀ n, askedPort r o = some n → 1 ≤ n ∧ n ≤ 65535 := fun n ↦ askedPort_eq_some
  rw [ruleTable_ruleMembers, ruleSpec, optionalText, optionalText]
  generalize askedHost r o = host, askedPort r o = port, askedNetwork r o = network at *
  cases port with
  | none => split <;> split <;> rfl
  | some n =>
    have hports : ∀ t, arrayIn t "ports" = some [.integer n] → configLoadPorts t = .ok [n] := by
      intro t ht
      have := hbounds n rfl
      rw [configLoadPorts, ht, getD_some, arrayPorts, Value.asInt]
      dsimp only
      rw [if_neg (by omega)]
      rfl
    split <;> split <;> rw [configLoadRule, hports] <;> rfl

/-- The lists of the table that are checked for white space. -/
theorem arrayIn_ruleMembers : let t := ruleTable (.object (ruleMembers r root o allow))
    (arrayIn t "processes").getD [] = [.string (ruleProcess r)] ∧
      (arrayIn t "domains").getD [] = (optionalText (askedHost r o)).map .string ∧
      (arrayIn t "networks").getD [] = (optionalText (askedNetwork r o)).map .string := by
  dsimp only
  rw [ruleTable_ruleMembers, optionalText, optionalText]
  generalize askedHost r o = host, askedPort r o = port, askedNetwork r o = network
  cases port <;> split <;> split <;> exact ⟨rfl, rfl, rfl⟩

end

variable {known : Known} {rule : CompiledRule}

/-- Which connections the rule for a prompt applies to. -/
theorem appliesTo_ruleSpec_iff {r : Request} {root : Table} {o : ActionOptions}
    {allow : Bool}
    (h : rule.From (ruleSpec r root o allow) known) (hprocess : lower (trim (ruleProcess r)) ≠ [])
    (hhost : lower (trim (askedHost r o)) = askedHost r o)
    (hnetwork : lower (trim (askedNetwork r o)) = askedNetwork r o) {context : MatchContext} :
    rule.AppliesTo context ↔
      NamesProcess (lower (trim (ruleProcess r))) context ∧
        (askedHost r o = [] ∨ (splitTarget context.target).1 = askedHost r o) ∧
        (∀ n, askedPort r o = some n → PortIs (splitTarget context.target).2 n) ∧
        (askedNetwork r o = [] ∨ lower (trim context.network) = askedNetwork r o) := by
  have hprocesses : rule.processes = optionalText (lower (trim (ruleProcess r))) := by
    rw [h.processes, ruleSpec, ownedStringsCompile_singleton, trimmedLower_false]
  have hdomains : rule.domains = optionalText (askedHost r o) := by
    rw [h.domains, ruleSpec, ownedStringsCompile_optionalText, hhost]
  have hnetworks : rule.networks = optionalText (askedNetwork r o) := by
    rw [h.networks, ruleSpec, ownedStringsCompile_optionalText, hnetwork]
  have hports : (rule.ports ≠ [] → ∃ n ∈ rule.ports, PortIs (splitTarget context.target).2 n) ↔
      ∀ n, askedPort r o = some n → PortIs (splitTarget context.target).2 n := by
    rw [h.ports, ruleSpec]
    cases askedPort r o <;> simp
  have hsuffixes : rule.suffixes = [] := h.suffixes
  have hkeywords : rule.keywords = [] := h.keywords
  have hcidrs : rule.cidrs = [] := cidrListCompile_nil.1 h.cidrs
  have hsources : rule.sourceCidrs = [] := cidrListCompile_nil.1 h.sourceCidrs
  have hsets : rule.ruleSets = [] := (Except.ok.inj h.ruleSets).symm
  constructor
  · intro happlies
    refine ⟨?_, ?_, hports.1 happlies.ports, ?_⟩
    · have hnames := hprocesses ▸ happlies.processes
      exact (forall_optionalText_iff.1 hnames).resolve_left hprocess
    · have hnames := happlies.names
      rw [hdomains, hsuffixes, hkeywords, namedBy_domain] at hnames
      by_cases hnil : askedHost r o = []
      · exact .inl hnil
      · exact .inr (hnames (.inl (mt optionalText_eq_nil.1 hnil))).1
    · exact forall_mem_optionalText_iff.1 (hnetworks ▸ happlies.networks)
  · rintro ⟨hnames, hasked, hport, hprotocol⟩
    refine ⟨?_, hports.2 hport, fun hne ↦ absurd hsources hne, fun hne ↦ ?_, fun hne ↦ ?_,
      fun hne ↦ absurd hcidrs hne, fun hne ↦ absurd hsets hne⟩
    · exact hnetworks ▸ forall_mem_optionalText_iff.2 hprotocol
    · rw [hprocesses]
      exact ⟨_, mem_optionalText.2 ⟨rfl, hprocess⟩, hnames⟩
    · rw [hdomains, hsuffixes, hkeywords] at hne ⊢
      have hnil : askedHost r o ≠ [] := by simpa using hne
      exact namedBy_domain.2 ⟨hasked.resolve_left hnil, hnil⟩

/-! ## Processes -/

theorem slash_notMem_baseName (path : Bytes) : 47 ∉ baseName path := by
  rw [baseName]
  split
  · next h => exact splitLast_eq_none_iff.1 h
  · next h => exact (splitLast_eq_some_iff.1 h).2

/-- A path with a slash names the process with that path, and no other: the other texts that
patterns are compared with have no slash. -/
theorem namesProcess_path_iff {path : Bytes} (htrimmed : Trimmed path) (hslash : 47 ∈ path)
    (b : Arrival) :
    NamesProcess (lower (trim path)) b.context ↔ lower (trim b.path) = lower (trim path) := by
  have hpattern : 47 ∈ lower (trim path) := by
    rwa [mem_lower_iff slash_caseless, trim_eq_self htrimmed]
  have hname : 47 ∉ trimmedLower b.context.processName false := by
    rw [trimmedLower_false, mem_lower_iff slash_caseless]
    refine fun hmem ↦ ?_
    have hmem := (trim_infix_self _).subset hmem
    cases hprocess : b.process with
    | none => simp [Arrival.context, hprocess] at hmem
    | some p =>
      simp only [Arrival.context, hprocess, map_some, getD_some] at hmem
      exact slash_notMem_baseName _ hmem
  rw [NamesProcess]
  constructor
  · rintro (h | ⟨-, h⟩ | ⟨-, h⟩)
    · exact absurd (h ▸ hpattern) hname
    · rw [h, trimmedLower_false]
      rfl
    · exact absurd (h ▸ hpattern) (slash_notMem_baseName _)
  · intro h
    have hpath : trimmedLower b.context.processPath false = lower (trim path) := by
      rw [trimmedLower_false, ← h]
      rfl
    refine .inr (.inl ⟨?_, hpath.symm⟩)
    rw [hpath]
    exact ne_nil_of_mem hpattern

/-! ## The prompt of a connection -/

variable {entry : Entry} {a : Arrival} {o : ActionOptions} {allow : Bool}

theorem targetHost_prompt : (a.prompt entry).targetHost = (splitTarget a.target).1 :=
  (Traffic.decide_reads entry.rules a.context).1

theorem targetPort_prompt : (a.prompt entry).targetPort = (splitTarget a.target).2 :=
  (Traffic.decide_reads entry.rules a.context).2.1

theorem network_prompt : (a.prompt entry).network = lower (trim a.network) :=
  (Traffic.decide_reads entry.rules a.context).2.2

/-- The process that is remembered is the path: the name of a process is a part of it. -/
theorem ruleProcess_prompt : ruleProcess (a.prompt entry) = a.path := by
  have hpath : (a.prompt entry).processPath = a.path := rfl
  rw [ruleProcess, hpath]
  split
  · rfl
  next hnil =>
  have hnil : a.path = [] := not_not.1 hnil
  rw [hnil]
  cases hprocess : a.process with
  | none => simp [Arrival.prompt, promptRequest, hprocess]
  | some p =>
    have hempty : p.path = [] := by simpa [Arrival.path, hprocess] using hnil
    simp [Arrival.prompt, promptRequest, hprocess, ProcessInfo.name, hempty]
    rfl

theorem slash_mem_path (h : a.path ≠ []) : 47 ∈ a.path := by
  cases hprocess : a.process with
  | none => simp [Arrival.path, hprocess] at h
  | some p =>
    have hpath : a.path = p.path := by simp [Arrival.path, hprocess]
    rw [hpath] at h ⊢
    exact p.rooted.resolve_left h

/-! ## Created rules -/

variable {config : Parsed} {r : Request} {spec : RuleSpec}

/-- What is known of a created rule. -/
structure Checked (config : Parsed) (r : Request) (o : ActionOptions) (allow : Bool)
    (spec : RuleSpec) : Prop where
  spec : spec = ruleSpec r config.root o allow
  process : ruleProcess r ≠ [] ∧ Trimmed (ruleProcess r)
  host : Trimmed (askedHost r o)
  network : Trimmed (askedNetwork r o)
  chain : ∀ name, firstChain config.root r.profile = some name → name ≠ [] ∧ Trimmed name

theorem trimmed_of_optionalText {s : Bytes} (h : ∀ t ∈ optionalText s, Trimmed t) : Trimmed s := by
  by_cases hnil : s = []
  · rw [hnil]
    decide
  · exact h s (mem_optionalText.2 ⟨rfl, hnil⟩)

/-- The chains of a profile have names without white space around them. -/
theorem trimmed_of_validateChains {profile : Table} (h : validateChains profile = .ok ())
    {chain : Value} {entries : Table} {name : Bytes}
    (hchain : ((arrayIn profile "chain").bind List.head?) = some chain)
    (hentries : chain.asTable = some entries) (hname : tableString entries "name" = some name) :
    name ≠ [] ∧ Trimmed name := by
  obtain ⟨chains, hchains, hhead⟩ := bind_eq_some_iff.1 hchain
  obtain ⟨rest, rfl⟩ := List.head?_eq_some_iff.1 hhead
  rw [validateChains, hchains, getD_some, chainsLoop, bind_eq_ok_iff] at h
  obtain ⟨_, h, -⟩ := h
  have htable : chain = .table entries := by
    cases chain <;> cases hentries
    rfl
  rw [htable, validateChain, hname] at h
  dsimp only at h
  split at h
  · cases h
  · next htrimmed => exact stringIsTrimmedNonempty_iff.1 (by simpa using htrimmed)

theorem Created.checked (h : Created config r o allow spec) : Checked config r o allow spec := by
  obtain ⟨-, request, rule, profile, hrequest, hrule, hprofile, hchains, hvalid, hload⟩ := h
  have hmembers : rule = .object (ruleMembers r config.root o allow) := by
    rw [ruleRequestJson] at hrequest
    split at hrequest
    · cases hrequest
    · cases hrequest
      exact (Option.some.inj hrule).symm
  rw [hmembers] at hload hvalid
  obtain ⟨hprocesses, hdomains, hnetworks⟩ := arrayIn_ruleMembers r config.root o allow
  have htexts : ∀ {key : String} {text : Bytes}, key ∈ trimmedKeys →
      (arrayIn _ key).getD [] = (optionalText text).map .string → Trimmed text := fun hkey hlist ↦
    trimmed_of_optionalText fun s hs ↦
      (trimmed_of_validateRule hvalid hkey (hlist ▸ mem_map_of_mem hs)).2
  constructor
  · rw [configLoadRule_ruleMembers] at hload
    exact (Except.ok.inj hload).symm
  · refine trimmed_of_validateRule hvalid (by decide : "processes" ∈ trimmedKeys) ?_
    rw [hprocesses]
    exact mem_singleton_self _
  · exact htexts (by decide) hdomains
  · exact htexts (by decide) hnetworks
  intro name hname
  rw [firstChain, hprofile] at hname
  obtain ⟨chain, hchain, hname⟩ := bind_eq_some_iff.1 hname
  obtain ⟨entries, hentries, hname⟩ := bind_eq_some_iff.1 hname
  exact trimmed_of_validateChains hchains hchain hentries hname

section

variable (h : Checked config (a.prompt entry) o allow spec) (hrule : rule.From spec known)

include h hrule

/-- Which connections a created rule applies to. -/
theorem Checked.appliesTo_iff (b : Arrival) : rule.AppliesTo b.context ↔
      lower (trim b.path) = lower (trim a.path) ∧
        (o.matchHost = true → (splitTarget a.target).1 ≠ [] →
          (splitTarget b.target).1 = (splitTarget a.target).1) ∧
        (o.matchPort = true → ∀ n, rulePort (splitTarget a.target).2 = some n →
          portNumber (splitTarget b.target).2 = some n) ∧
        (o.matchProtocol = true → lower (trim a.network) ≠ [] →
          lower (trim b.network) = lower (trim a.network)) := by
  obtain ⟨hne, htrimmed⟩ := h.process
  rw [ruleProcess_prompt] at hne htrimmed
  have hprocess : lower (trim (ruleProcess (a.prompt entry))) ≠ [] := by
    rw [ruleProcess_prompt, trim_eq_self htrimmed]
    exact mt lower_eq_nil.1 hne
  have hhost : lower (trim (askedHost (a.prompt entry) o)) = askedHost (a.prompt entry) o := by
    rw [trim_eq_self h.host, askedHost, targetHost_prompt]
    split
    · exact lower_splitTarget a.target
    · rfl
  have hnetwork : lower (trim (askedNetwork (a.prompt entry) o)) =
      askedNetwork (a.prompt entry) o := by
    rw [trim_eq_self h.network, askedNetwork, network_prompt]
    split
    · exact lower_lower _
    · rfl
  have hspec := h.spec
  subst hspec
  rw [appliesTo_ruleSpec_iff hrule hprocess hhost hnetwork, ruleProcess_prompt,
    namesProcess_path_iff htrimmed (slash_mem_path hne)]
  refine and_congr Iff.rfl (and_congr ?_ (and_congr ?_ ?_))
  · rw [askedHost, targetHost_prompt]
    change _ ∨ (splitTarget b.target).1 = _ ↔ _
    cases o.matchHost <;> simp [or_iff_not_imp_left]
  · rw [askedPort, targetPort_prompt]
    change (∀ n, _ → PortIs (splitTarget b.target).2 n) ↔ _
    simp only [portIs_splitTarget_iff]
    cases o.matchPort <;> simp
  · rw [askedNetwork, network_prompt]
    change _ ∨ lower (trim b.network) = _ ↔ _
    cases o.matchProtocol <;> simp [or_iff_not_imp_left]

/-- **Matching**: a created rule takes exactly the connections that agree with the answered one iff
everything that was asked for can be matched. -/
theorem Checked.appliesTo_iff_same : (∀ b, rule.AppliesTo b.context ↔ Same o a b) ↔
      (o.matchHost = true → (splitTarget a.target).1 ≠ []) ∧
        (o.matchPort = true →
          ∃ n, portNumber (splitTarget a.target).2 = some n ∧ 1 ≤ n ∧ n ≤ 65535) ∧
        (o.matchProtocol = true → trim a.network ≠ []) := by
  have hlower := lower_splitTarget a.target
  simp only [h.appliesTo_iff hrule]
  constructor
  · -- a connection that differs in what the rule leaves out is taken all the same
    intro hall
    refine ⟨fun hmatch hnil ↦ ?_, fun hmatch ↦ ?_, fun hmatch hnil ↦ ?_⟩
    · obtain ⟨port, hport, hle⟩ : ∃ port : Nat,
          (∀ n, rulePort (splitTarget a.target).2 = some n → n = port) ∧ port ≤ 65535 := by
        cases hrule : rulePort (splitTarget a.target).2 with
        | none => exact ⟨0, fun n hn ↦ absurd hn (by simp), by omega⟩
        | some n =>
          have hbounds := rulePort_eq_some hrule
          refine ⟨n.toNat, fun m hm ↦ ?_, by omega⟩
          cases hm
          omega
      have hsplit := splitTarget_targetFor (by decide : lower [120] = [120]) hle
      have hsame := (hall { a with target := targetFor [120] port }).1
        ⟨rfl, fun _ hne ↦ absurd hnil hne, fun _ n hn ↦ ?_, fun _ _ ↦ rfl⟩
      · have hhost := hsame.host hmatch
        rw [hsplit, hnil] at hhost
        cases hhost
      · rw [hsplit, portNumber_decimal hle, hport n hn]
    · by_contra hnone
      have hrule : ∀ n, rulePort (splitTarget a.target).2 ≠ some n := fun n hn ↦
        hnone ⟨n, rulePort_eq_some_iff.1 hn⟩
      obtain ⟨port, hle, hport⟩ : ∃ port : Nat, port ≤ 65535 ∧
          portNumber (splitTarget a.target).2 ≠ some (port : Int) := by
        by_cases hone : portNumber (splitTarget a.target).2 = some 1
        · exact ⟨2, by omega, by rw [hone]; decide⟩
        · exact ⟨1, by omega, hone⟩
      have hsplit := splitTarget_targetFor hlower hle
      have hsame := (hall { a with target := targetFor (splitTarget a.target).1 port }).1
        ⟨rfl, fun _ _ ↦ by rw [hsplit], fun _ n hn ↦ absurd hn (hrule n), fun _ _ ↦ rfl⟩
      have hnumber := hsame.port hmatch
      rw [hsplit, portNumber_decimal hle] at hnumber
      exact hport hnumber.symm
    · have hsame := (hall { a with network := [120] }).1
        ⟨rfl, fun _ _ ↦ rfl, fun _ n hn ↦ (rulePort_eq_some_iff.1 hn).1, fun _ hne ↦
          absurd (lower_eq_nil.2 hnil) hne⟩
      have hnetwork : lower (trim [120]) = lower (trim a.network) := hsame.network hmatch
      rw [hnil] at hnetwork
      exact absurd hnetwork (by decide)
  · rintro ⟨hhost, hport, hnetwork⟩ b
    constructor
    · rintro ⟨h₁, h₂, h₃, h₄⟩
      refine ⟨h₁, fun hmatch ↦ h₂ hmatch (hhost hmatch), fun hmatch ↦ ?_, fun hmatch ↦
        h₄ hmatch (mt lower_eq_nil.1 (hnetwork hmatch))⟩
      obtain ⟨n, hn, hbounds⟩ := hport hmatch
      rw [hn, h₃ hmatch n (rulePort_eq_some_iff.2 ⟨hn, hbounds⟩)]
    · rintro ⟨h₁, h₂, h₃, h₄⟩
      refine ⟨h₁, fun hmatch _ ↦ h₂ hmatch, fun hmatch n hn ↦ ?_, fun hmatch _ ↦ h₄ hmatch⟩
      rw [h₃ hmatch, (rulePort_eq_some_iff.1 hn).1]

end

/-! ## Routes -/

variable {around : Surroundings} {select : Bytes → Except Error Bytes}

theorem action_of_isDefault {engine : RuleEngine} {context : MatchContext}
    (h : (ruleEngineDecide engine context).isDefault = true) :
    (ruleEngineDecide engine context).action = bytes "chain" := by
  rw [ruleEngineDecide] at h ⊢
  dsimp only at h ⊢
  split at h
  · cases h
  · rfl

/-- The route over a chain, which has to have a name. -/
def chainRoute (chain : Bytes) : Except Error Route :=
  if chain = [] then .error (.set .invalidArgument (bytes "route has no selected chain"))
  else .ok (.chain chain)

variable {d : Decision}

theorem routeOf_chain (h : d.action = bytes "chain") :
    routeOf entry select d =
      chainRoute (if d.isDefault then entry.defaultChain else d.chainName) := by
  rw [routeOf, decisionChain, h]
  simp only [(by decide : bytes "chain" ≠ bytes "block"),
    (by decide : bytes "chain" ≠ bytes "reject"),
    (by decide : bytes "chain" ≠ bytes "direct"), (by decide : bytes "chain" ≠ bytes "group"),
    if_false,
    ok_bind]
  generalize (if d.isDefault then entry.defaultChain else d.chainName) = chain
  rw [chainRoute]
  split <;> rfl

section

variable (h : Prompted entry around a) (hanswer : around.await (a.prompt entry) = .ok (true, allow))

include h hanswer

/-- The decision for an answered connection. -/
theorem listenerDecide_prompted : listenerDecide entry around a =
      .ok (if allow then ruleEngineDecide entry.rules a.context
        else blockedByPrompt (ruleEngineDecide entry.rules a.context)) := by
  rw [listenerDecide]
  simp only [h.enabled, Bool.or_true, if_true, h.temporary, h.default, Bool.and_self]
  rw [Arrival.prompt] at hanswer
  rw [hanswer]
  cases allow <;> rfl

/-- The route that an answered connection gets: blocked, or over the chain of its listener. -/
theorem listenerRoute_prompted : listenerRoute entry around select a =
      if allow then chainRoute entry.defaultChain else .ok .block := by
  rw [listenerRoute, listenerDecide_prompted h hanswer, ok_bind]
  cases allow with
  | false => rfl
  | true =>
    rw [if_pos rfl, if_pos rfl, routeOf_chain (action_of_isDefault h.default), if_pos h.default]

end

/-- The route of a created rule: what is blocked is blocked, and what is allowed goes over the first
chain of the profile. -/
theorem Checked.routeOf_eq (h : Checked config r o allow spec)
    (hrule : rule.From spec known) (hd : d.Follows 0 rule) :
    routeOf entry select d =
      if allow then .ok ((firstChain config.root r.profile).elim .direct .chain)
      else .ok .block := by
  have haction := hrule.action
  rw [h.spec] at haction
  cases allow with
  | false =>
    change parseAction (bytes "block") _ _ = _ at haction
    have hblock : rule.action = .block :=
      Except.ok.inj (haction.symm.trans (parseAction_eq_ok_iff.2 (.block (by decide))))
    rw [routeOf, hd.action, hblock]
    rfl
  | true =>
    change parseAction (ruleAction r config.root true) _ _ = _ at haction
    rw [ruleAction, if_pos rfl] at haction
    rw [if_pos rfl]
    cases hfirst : firstChain config.root r.profile with
    | none =>
      rw [hfirst] at haction
      have hdirect : rule.action = .direct :=
        Except.ok.inj (haction.symm.trans (parseAction_eq_ok_iff.2 (.direct (by decide))))
      rw [routeOf, hd.action, hdirect]
      rfl
    | some name =>
      obtain ⟨hne, htrimmed⟩ := h.chain name hfirst
      rw [hfirst] at haction
      have hchain : rule.action = .chain name := by
        rw [(Traffic.parseAction_chain.1 haction).2.2, ← Traffic.eq_trim_trimRight_iff.2 htrimmed]
      have htext : d.action = bytes "chain" := by
        rw [hd.action, hchain]
        rfl
      rw [routeOf_chain htext, hd.isDefault, hd.chainName, hchain, chainRoute]
      exact if_neg hne

/-- The route of a created rule is that of the answered connection iff an allowed connection went
over the first chain of its profile. -/
theorem Checked.routeOf_eq_iff (h : Checked config (a.prompt entry) o allow spec)
    (hprompted : Prompted entry around a)
    (hanswer : around.await (a.prompt entry) = .ok (true, allow))
    (hrule : rule.From spec known) (hd : d.Follows 0 rule)
    (later : Entry) (choose : Bytes → Except Error Bytes) :
    routeOf later choose d = listenerRoute entry around select a ↔
      (allow = true →
        firstChain config.root entry.profileName = some entry.defaultChain) := by
  rw [listenerRoute_prompted hprompted hanswer, h.routeOf_eq hrule hd]
  have hprofile : (a.prompt entry).profile = entry.profileName := rfl
  rw [hprofile]
  cases allow with
  | false => simp
  | true =>
    have hchain := h.chain
    rw [hprofile] at hchain
    rw [if_pos rfl, if_pos rfl, chainRoute]
    cases hfirst : firstChain config.root entry.profileName with
    | none => split <;> simp
    | some name =>
      have hne := (hchain name hfirst).1
      split
      · next hnil => simp [hnil, hne]
      · simp

/-- **Remembered answers**: the rule that is created for an answer with scope `forever`, as the
first rule of its profile, stands for the answer iff everything that the answer asks to match can be
matched and an allowed connection went over the first chain of its profile. -/
theorem created_standsFor_iff (hprompted : Prompted entry around a)
    (hanswer : around.await (a.prompt entry) = .ok (true, allow))
    (hcreated : Created config (a.prompt entry) o allow spec) {rest : List RuleSpec}
    {defaultChain : Bytes} {known : Known} {engine : RuleEngine}
    (hengine : ruleEngineCompile (spec :: rest) defaultChain known = .ok engine) :
    StandsFor engine o a (listenerRoute entry around select a) ↔
      Expressible config entry o allow a := by
  have hchecked := hcreated.checked
  have hvalid := valid_of_ruleEngineCompile hengine
  obtain ⟨rule, hrule, rules, hrules⟩ : ∃ rule : CompiledRule, rule.From spec known ∧
      ∃ rules, engine.rules = rule :: rules := by
    have hcompiled := (ruleEngineCompile_eq_ok hengine).1
    rw [mapM_cons, bind_eq_ok_iff] at hcompiled
    obtain ⟨rule, hrule, hcompiled⟩ := hcompiled
    obtain ⟨rules, -, heq⟩ := bind_eq_ok_iff.1 hcompiled
    exact ⟨rule, compileRule_eq_ok_iff.1 hrule, rules, (Except.ok.inj heq).symm⟩
  have htaken : ∀ b : Arrival,
      TakenByFirst (ruleEngineDecide engine b.context) ↔ rule.AppliesTo b.context := by
    intro b
    rcases decide_cons hrules hvalid b.context with ⟨happlies, hfollows⟩ | ⟨happlies, hother⟩
    · exact iff_of_true ⟨hfollows.isDefault, hfollows.ruleNumber⟩ happlies
    refine iff_of_false ?_ happlies
    rintro ⟨hdefault, hnumber⟩
    rcases hother with hother | ⟨index, r, -, hother⟩
    · exact absurd (hother.symm.trans hdefault) (by decide)
    · rw [hother.ruleNumber] at hnumber
      omega
  have hfollows : ∀ b : Arrival, rule.AppliesTo b.context →
      (ruleEngineDecide engine b.context).Follows 0 rule := fun b happlies ↦
    ((decide_cons hrules hvalid b.context).resolve_right fun h ↦ h.1 happlies).2
  have hmatching := hchecked.appliesTo_iff_same hrule
  constructor
  · intro h
    have hall : ∀ b, rule.AppliesTo b.context ↔ Same o a b := fun b ↦
      (htaken b).symm.trans (h b).1
    obtain ⟨hhost, hport, hnetwork⟩ := hmatching.1 hall
    have hself : Same o a a := ⟨rfl, fun _ ↦ rfl, fun _ ↦ rfl, fun _ ↦ rfl⟩
    refine ⟨hhost, hport, hnetwork, ?_⟩
    exact (hchecked.routeOf_eq_iff hprompted hanswer hrule (hfollows a ((hall a).2 hself)) _ _).1
      ((h a).2 ⟨[], [], engine⟩ select rfl hself)
  · rintro ⟨hhost, hport, hnetwork, hchain⟩ b
    have hall := hmatching.2 ⟨hhost, hport, hnetwork⟩
    refine ⟨(htaken b).trans (hall b), fun later choose _ hsame ↦ ?_⟩
    exact (hchecked.routeOf_eq_iff hprompted hanswer hrule (hfollows b ((hall b).2 hsame)) _ _).2
      hchain

/-! ## Two chains -/

def chainNamed (name : String) : Value :=
  .table [(bytes "name", .string (bytes name)),
    (bytes "server", .array [.table [(bytes "protocol", .string (bytes "socks5"))]])]

/-- The `listen` table of a profile whose listener has the second chain. -/
def secondChainListen : Table :=
  [(bytes "socks5", .string (bytes "127.0.0.1:1080")),
    (bytes "socks5_chain", .string (bytes "b"))]

/-- A profile with two chains. -/
def twoChains : Table :=
  [(bytes "name", .string (bytes "home")),
    (bytes "chain", .array [chainNamed "a", chainNamed "b"]),
    (bytes "listen", .table secondChainListen)]

def twoChainsConfig : Parsed where
  document := bytes ("[[profile]]\nname = \"home\"\n[[profile.chain]]\nname = \"a\"\n" ++
    "[[profile.chain.server]]\nprotocol = \"socks5\"\n[[profile.chain]]\nname = \"b\"\n" ++
    "[[profile.chain.server]]\nprotocol = \"socks5\"\n[profile.listen]\n" ++
    "socks5 = \"127.0.0.1:1080\"\nsocks5_chain = \"b\"\n")
  root := [(bytes "profile", .array [.table twoChains])]

/-- The SOCKS listener of the profile. -/
def secondChainEntry : Entry where
  profileName := bytes "home"
  defaultChain := bytes "b"
  rules := ⟨bytes "a", [], false⟩

/-- Prompts are enabled, and the user answers with the verdict. -/
def answering (allow : Bool) : Surroundings where
  temporary := ⟨[], 128, 0⟩
  clock := ⟨0, fun _ ↦ false⟩
  promptsEnabled := true
  await := fun _ ↦ .ok (true, allow)

def curl : Arrival where
  network := bytes "tcp"
  target := bytes "example.com:443"
  source := bytes "127.0.0.1:5000"
  process := some ⟨7, bytes "/usr/bin/curl", [], [], .inr (by decide)⟩

/-- An answer for the host, for ever. -/
def foreverForHost (allow : Bool) : ActionOptions where
  id := bytes "prompt-1"
  scope := .forever
  allow := allow
  matchHost := true
  matchPort := false
  matchProtocol := false
  ttlSeconds := 0

def noGroups (_ : Bytes) : Except Error Bytes :=
  .error (.set .notFound (bytes "policy group not found"))

def curlSpec (allow : Bool) : RuleSpec :=
  ruleSpec (curl.prompt secondChainEntry) twoChainsConfig.root (foreverForHost allow) allow

/-- The engine of the profile with the rule for an answer in it. -/
def curlEngine (allow : Bool) : RuleEngine where
  defaultChain := bytes "a"
  rules := [{
    name := if allow then bytes "prompt allow curl example.com"
      else bytes "prompt block curl example.com"
    action := if allow then .chain (bytes "a") else .block
    domains := [bytes "example.com"], suffixes := [], keywords := [], cidrs := [], sourceCidrs := []
    ports := [], networks := [], processes := [bytes "/usr/bin/curl"], ruleSets := [] }]
  needsProcess := true

variable (allow : Bool)

theorem curl_prompted : Prompted secondChainEntry (answering allow) curl :=
  ⟨rfl, rfl, by decide⟩

theorem curl_created :
    Created twoChainsConfig (curl.prompt secondChainEntry) (foreverForHost allow) allow
      (curlSpec allow) := by
  refine ⟨rfl, ruleRequest (curl.prompt secondChainEntry) twoChainsConfig.root
    (foreverForHost allow) allow, .object (ruleMembers (curl.prompt secondChainEntry)
    twoChainsConfig.root (foreverForHost allow) allow), twoChains, ?_, rfl, ?_, ?_, ?_,
    configLoadRule_ruleMembers _ _ _ _⟩
  · cases allow <;> rfl
  · rfl
  · decide
  · cases allow <;> decide

theorem curl_compiles :
    ruleEngineCompile [curlSpec allow] (bytes "a") { chains := [bytes "a", bytes "b"] } =
      .ok (curlEngine allow) := by
  cases allow <;> decide

/-- The listener has the second chain.  The user allows a connection for ever; it goes over the
second chain, and the rule that is made of the answer sends the same connection over the first. -/
theorem remembered_over_first_chain :
    listenerDefaultChain twoChains (some secondChainListen) "socks5_chain" = .ok (bytes "b") ∧
      Prompted secondChainEntry (answering true) curl ∧
      Created twoChainsConfig (curl.prompt secondChainEntry) (foreverForHost true) true
        (curlSpec true) ∧
      compileForProfile twoChains [curlSpec true] = .ok (curlEngine true) ∧
      listenerRoute secondChainEntry (answering true) noGroups curl = .ok (.chain (bytes "b")) ∧
      routeOf { secondChainEntry with rules := curlEngine true } noGroups
        (ruleEngineDecide (curlEngine true) curl.context) = .ok (.chain (bytes "a")) ∧
      ¬ StandsFor (curlEngine true) (foreverForHost true) curl
        (listenerRoute secondChainEntry (answering true) noGroups curl) := by
  have hfirst : routeOf { secondChainEntry with rules := curlEngine true } noGroups
      (ruleEngineDecide (curlEngine true) curl.context) = .ok (.chain (bytes "a")) := by decide
  have hsecond : listenerRoute secondChainEntry (answering true) noGroups curl =
      .ok (.chain (bytes "b")) := by decide
  refine ⟨rfl, curl_prompted true, curl_created true, by decide, hsecond, hfirst, fun h ↦ ?_⟩
  have hroute := (h curl).2 { secondChainEntry with rules := curlEngine true } noGroups rfl
    ⟨rfl, fun _ ↦ rfl, fun _ ↦ rfl, fun _ ↦ rfl⟩
  rw [hfirst, hsecond] at hroute
  exact absurd hroute (by decide)

/-- The rule for a connection that is blocked for ever stands for the answer. -/
theorem curl_blocked_standsFor :
    StandsFor (curlEngine false) (foreverForHost false) curl
      (listenerRoute secondChainEntry (answering false) noGroups curl) :=
  (created_standsFor_iff (curl_prompted false) rfl (curl_created false) (curl_compiles false)).2
    ⟨fun _ ↦ by decide, fun h ↦ absurd h (by decide), fun h ↦ absurd h (by decide),
      fun h ↦ absurd h (by decide)⟩

end ClambHook.Runtime
