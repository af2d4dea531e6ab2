import ClambHook.IpStack.DnsCache
import ClambHook.Runtime.Listener
import ClambHook.Rules.FirstMatch

/-!
# Routing the flows of the TUN device

A flow of the TUN device goes to an address.  When the DNS cache has a name for that address, the
flow is routed by the name and dialed by the address; without a name it is routed by the address as
well.

So a rule that blocks a range of addresses does not see the address of a flow that has a name
(`addressBlock_iff`).
-/

namespace ClambHook.IpStack.Dns

open CString Inet Rules ClambHook.Runtime List

/-! ## Flows -/

inductive TunNetwork where
  | tcp
  | udp
deriving DecidableEq, Repr

def TunNetwork.text : TunNetwork → Bytes
  | .tcp => bytes "tcp"
  | .udp => bytes "udp"

/-- A flow of the TUN device, with the process that is found for it. -/
structure TunFlow where
  network : TunNetwork
  source : Address
  sourcePort : UInt16
  target : Address
  targetPort : UInt16
  process : Option ProcessInfo

/-- `ch_ip_stack_format_endpoint`. -/
def formatEndpoint (address : Address) (port : UInt16) : Bytes :=
  match address.family with
  | .inet => ntop4 address.octets ++ bytes ":" ++ decimal port.toNat
  | .inet6 => bytes "[" ++ ntop6 address.octets ++ bytes "]:" ++ decimal port.toNat

/-- The connection that the rules see, with the target that it is routed by. -/
def TunFlow.arrival (flow : TunFlow) (routeTarget : Bytes) : Arrival where
  network := flow.network.text
  target := routeTarget
  source := formatEndpoint flow.source flow.sourcePort
  process := flow.process

/-- The real destination. -/
def TunFlow.dialTarget (flow : TunFlow) : Bytes :=
  formatEndpoint flow.target flow.targetPort

/-- The groups choose a chain for a connection (`ch_policy_manager_select`). -/
abbrev Select := Arrival → Bytes → Except Error Bytes

def tunRejected (network : TunNetwork) : Error :=
  .set .invalidState (bytes "TUN route rejected " ++
    (match network with
      | .tcp => bytes "TCP"
      | .udp => bytes "UDP") ++ bytes " flow")

/-- `ch_runtime_listener_set_tun_tcp_dial` and `ch_runtime_listener_set_tun_udp_dial`, which take
the same way: the route that a flow is dialed by, and the target that is dialed. -/
def tunDial (entry : Entry) (around : Surroundings) (select : Select) (flow : TunFlow)
    (hint : Bytes) : Except Error (Route × Bytes) := do
  let routeTarget := if hint ≠ [] then hint else flow.dialTarget
  let arrival := flow.arrival routeTarget
  let route ← listenerRoute entry around (select arrival) arrival
  if route = .block ∨ route = .reject then .error (tunRejected flow.network)
  else .ok (route, flow.dialTarget)

/-! ## Decisions -/

section

variable (entry : Entry) (around : Surroundings)

/-- The match context of a connection: the process is part of it if someone asks for it. -/
def askedContext (a : Arrival) : MatchContext :=
  if entry.rules.needsProcess || temporaryNeedsProcess around.temporary around.clock ||
      around.promptsEnabled then a.context
  else a.bareContext

/-- What the temporary rules say about a connection. -/
def temporarySays (a : Arrival) : Option Decision :=
  (TemporaryRules.temporaryRulesDecide around.temporary entry.profileName
    (askedContext entry around a) around.clock).2

/-- The prompt for a connection that no rule speaks about is not answered with a permission. -/
def PromptRefuses (a : Arrival) : Prop :=
  ∀ gated allow,
    around.await (promptRequest entry a (ruleEngineDecide entry.rules
      (askedContext entry around a))) = .ok (gated, allow) → gated = true ∧ allow = false

variable (select : Bytes → Except Error Bytes)

/-- Nothing is dialed for the decision. -/
def Stops (d : Decision) : Prop :=
  d.action = bytes "block" ∨ d.action = bytes "reject" ∨
    d.action ≠ bytes "direct" ∧ ∀ chain, decisionChain entry select d ≠ .ok chain

/-- What is said about a connection stops it: by the first temporary rule that matches it, by the
first rule of the profile that applies to it or the default, or at a prompt. -/
inductive RulesStop (a : Arrival) : Prop
  | temporary {d : Decision} (htold : temporarySays entry around a = some d)
      (hstops : Stops entry select d)
  | rule {d : Decision} (hnone : temporarySays entry around a = none)
      (hfirst : FirstMatch entry.rules (askedContext entry around a) d)
      (hstops : Stops entry select d)
  | prompt (hnone : temporarySays entry around a = none)
      (hdefault : ∀ rule ∈ entry.rules.rules, ¬ rule.AppliesTo (askedContext entry around a))
      (henabled : around.promptsEnabled = true) (hrefuses : PromptRefuses entry around a)

variable {entry around select} {a : Arrival}

variable {d : Decision}

theorem listenerDecide_of_temporarySays (h : temporarySays entry around a = some d) :
    listenerDecide entry around a = .ok d := by
  simp only [temporarySays, askedContext] at h
  simp only [listenerDecide, h]

theorem listenerDecide_of_none (h : temporarySays entry around a = none)
    (hd : ruleEngineDecide entry.rules (askedContext entry around a) = d) :
    listenerDecide entry around a =
      if d.isDefault && around.promptsEnabled then
        (around.await (promptRequest entry a d)).map fun answer ↦
          if answer.1 && !answer.2 then blockedByPrompt d else d
      else .ok d := by
  simp only [temporarySays, askedContext] at h hd
  simp only [listenerDecide, h, hd]
  split
  · cases around.await _ <;> rfl
  · rfl

/-- Two decisions of the first rule that applies stop the same connections. -/
theorem stops_firstMatch_iff {context : MatchContext} {d' : Decision}
    (h : FirstMatch entry.rules context d) (h' : FirstMatch entry.rules context d') :
    Stops entry select d ↔ Stops entry select d' := by
  rcases h with ⟨i, rule, hget, happlies, hbefore, hd⟩ | ⟨hnone, hd⟩
  · rcases h' with ⟨j, rule', hget', happlies', hbefore', hd'⟩ | ⟨hnone', -⟩
    · rcases lt_trichotomy i j with hlt | rfl | hlt
      · exact absurd happlies (hbefore' i hlt rule hget)
      · cases hget.symm.trans hget'
        simp only [Stops, decisionChain, hd.action, hd.chainName, hd.groupName, hd.isDefault,
          hd'.action, hd'.chainName, hd'.groupName, hd'.isDefault]
      · exact absurd happlies' (hbefore j hlt rule' hget')
    · exact absurd happlies (hnone' rule (mem_of_getElem? hget))
  · rcases h' with ⟨j, rule', hget', happlies', -⟩ | ⟨-, hd'⟩
    · exact absurd happlies' (hnone rule' (mem_of_getElem? hget'))
    · simp only [Stops, decisionChain, hd.action, hd.chainName, hd.groupName, hd.isDefault,
        hd'.action, hd'.chainName, hd'.groupName, hd'.isDefault]

theorem isDefault_iff_of_firstMatch {engine : RuleEngine} {context : MatchContext}
    (h : FirstMatch engine context d) :
    d.isDefault = true ↔ ∀ rule ∈ engine.rules, ¬ rule.AppliesTo context := by
  rcases h with ⟨i, rule, hget, happlies, -, hd⟩ | ⟨hnone, hd⟩
  · refine iff_of_false ?_ fun hnone ↦ hnone rule (mem_of_getElem? hget) happlies
    rw [hd.isDefault]
    exact Bool.false_ne_true
  · exact iff_of_true hd.isDefault hnone

/-- **What stops a connection** at a listener. -/
theorem rulesStop_iff (hvalid : ∀ rule ∈ entry.rules.rules, rule.Valid) :
    RulesStop entry around select a ↔
      ∀ d, listenerDecide entry around a = .ok d → Stops entry select d := by
  have hfirst := decide_firstMatch hvalid (askedContext entry around a)
  generalize hengine : ruleEngineDecide entry.rules (askedContext entry around a) = e at hfirst
  constructor
  · intro h d hd
    cases h with
    | temporary htold hstops =>
      rw [listenerDecide_of_temporarySays htold] at hd
      cases hd
      exact hstops
    | rule hnone hmatch hstops =>
      have hdefault := (stops_firstMatch_iff hmatch hfirst).1 hstops
      rw [listenerDecide_of_none hnone hengine] at hd
      split at hd
      · obtain ⟨answer, -, rfl⟩ := map_eq_ok_iff.1 hd
        split
        · exact .inl rfl
        · exact hdefault
      · cases hd
        exact hdefault
    | prompt hnone hdefault henabled hrefuses =>
      rw [listenerDecide_of_none hnone hengine, (isDefault_iff_of_firstMatch hfirst).2 hdefault,
        henabled, Bool.true_and, if_pos rfl, map_eq_ok_iff] at hd
      obtain ⟨answer, hawait, rfl⟩ := hd
      obtain ⟨hgated, hallow⟩ := hrefuses answer.1 answer.2 (hengine.symm ▸ hawait)
      rw [hgated, hallow]
      exact .inl rfl
  · intro h
    cases htold : temporarySays entry around a with
    | some d => exact .temporary htold (h d (listenerDecide_of_temporarySays htold))
    | none =>
      rw [listenerDecide_of_none htold hengine] at h
      cases hprompt : e.isDefault && around.promptsEnabled with
      | false =>
        rw [hprompt] at h
        exact .rule htold hfirst (h e rfl)
      | true =>
        obtain ⟨hdefault, henabled⟩ := Bool.and_eq_true_iff.1 hprompt
        by_cases hrefuses : PromptRefuses entry around a
        · exact .prompt htold ((isDefault_iff_of_firstMatch hfirst).1 hdefault) henabled hrefuses
        -- the prompt is answered with a permission, so the default decision itself stops
        rw [PromptRefuses, hengine] at hrefuses
        push Not at hrefuses
        obtain ⟨gated, allow, hawait, hpermits⟩ := hrefuses
        rw [if_pos hprompt, hawait] at h
        have hd := h _ rfl
        have hopen : (gated && !allow) = false := by
          cases gated with
          | false => rfl
          | true =>
            rw [Bool.eq_true_of_not_eq_false (hpermits rfl)]
            rfl
        simp only [hopen, if_neg Bool.false_ne_true] at hd
        exact .rule htold hfirst hd

/-- A route is taken exactly for the decisions that do not stop the connection. -/
theorem exists_routeOf_iff :
    (∃ route, routeOf entry select d = .ok route ∧ ¬ (route = .block ∨ route = .reject)) ↔
      ¬ Stops entry select d := by
  rw [routeOf, Stops]
  by_cases hblock : d.action = bytes "block"
  · rw [if_pos hblock]
    refine iff_of_false ?_ (not_not_intro (.inl hblock))
    rintro ⟨route, hroute, hconnects⟩
    cases hroute
    exact hconnects (.inl rfl)
  rw [if_neg hblock, or_iff_right hblock]
  by_cases hreject : d.action = bytes "reject"
  · rw [if_pos hreject]
    refine iff_of_false ?_ (not_not_intro (.inl hreject))
    rintro ⟨route, hroute, hconnects⟩
    cases hroute
    exact hconnects (.inr rfl)
  rw [if_neg hreject, or_iff_right hreject]
  by_cases hdirect : d.action = bytes "direct"
  · rw [if_pos hdirect]
    exact iff_of_true ⟨.direct, rfl, by decide⟩ fun h ↦ h.1 hdirect
  rw [if_neg hdirect, and_iff_right hdirect]
  push Not
  constructor
  · rintro ⟨route, hroute, -⟩
    obtain ⟨chain, hchain, -⟩ := map_eq_ok_iff.1 hroute
    exact ⟨chain, hchain⟩
  · rintro ⟨chain, hchain⟩
    refine ⟨.chain chain, map_eq_ok_iff.2 ⟨chain, hchain, rfl⟩, ?_⟩
    constructor <;> intro heq <;> cases heq

end

section

variable {entry : Entry} {around : Surroundings} {select : Select} {flow : TunFlow}

/-- A flow is dialed exactly if the decision on the target that it is routed by does not stop it. -/
theorem exists_tunDial_iff {hint : Bytes} {a : Arrival}
    (ha : a = flow.arrival (if hint ≠ [] then hint else flow.dialTarget)) :
    (∃ dialed, tunDial entry around select flow hint = .ok dialed) ↔
      ∃ d, listenerDecide entry around a = .ok d ∧ ¬ Stops entry (select a) d := by
  simp only [tunDial, ← ha, bind_eq_ok_iff, listenerRoute]
  constructor
  · rintro ⟨dialed, route, ⟨d, hd, hroute⟩, hdialed⟩
    refine ⟨d, hd, exists_routeOf_iff.1 ⟨route, hroute, fun hstops ↦ ?_⟩⟩
    rw [if_pos hstops] at hdialed
    cases hdialed
  · rintro ⟨d, hd, hstops⟩
    obtain ⟨route, hroute, hconnects⟩ := exists_routeOf_iff.2 hstops
    exact ⟨_, route, ⟨d, hd, hroute⟩, if_neg hconnects⟩

/-- The rule is about destination CIDRs alone. -/
structure OnlyCidrs (rule : CompiledRule) : Prop where
  cidrs : rule.cidrs ≠ []
  domains : rule.domains = []
  suffixes : rule.suffixes = []
  keywords : rule.keywords = []
  sourceCidrs : rule.sourceCidrs = []
  ports : rule.ports = []
  networks : rule.networks = []
  processes : rule.processes = []
  ruleSets : rule.ruleSets = []

variable (entry around flow) in
/-- The first rule that matches the real destination of the flow blocks it, by CIDRs alone. -/
def AddressBlocked : Prop :=
  temporarySays entry around (flow.arrival flow.dialTarget) = none ∧
    ∃ (index : Nat) (rule : CompiledRule), entry.rules.rules[index]? = some rule ∧
      rule.AppliesTo (askedContext entry around (flow.arrival flow.dialTarget)) ∧
      (∀ j < index, ∀ r : CompiledRule, entry.rules.rules[j]? = some r →
        ¬ r.AppliesTo (askedContext entry around (flow.arrival flow.dialTarget))) ∧
      rule.action = .block ∧ OnlyCidrs rule

/-- Without a name the flow is stopped by the rule that blocks its address. -/
theorem AddressBlocked.rulesStop (h : AddressBlocked entry around flow)
    (select : Bytes → Except Error Bytes) :
    RulesStop entry around select (flow.arrival flow.dialTarget) := by
  obtain ⟨hnone, index, rule, hget, happlies, hbefore, haction, -⟩ := h
  let d : Decision :=
    ⟨rule.name, index + 1, rule.action.text, rule.action.chainName, rule.action.groupName, [], [],
      [], [], [], false, [], [], []⟩
  have hfirst : FirstMatch entry.rules
      (askedContext entry around (flow.arrival flow.dialTarget)) d :=
    .inl ⟨index, rule, hget, happlies, hbefore, rfl, rfl, rfl, rfl, rfl, rfl⟩
  refine .rule hnone hfirst (.inl ?_)
  show rule.action.text = bytes "block"
  rw [haction]
  rfl

end

/-- **A rule that blocks an address stops the flows to it** exactly if no name is hinted for the
address, or what is said about the name stops them too. -/
theorem addressBlock_iff {rules : List RuleSpec} {defaultChain : Bytes} {known : Known}
    {entry : Entry} (hcompile : ruleEngineCompile rules defaultChain known = .ok entry.rules)
    (around : Surroundings) (select : Select) {flow : TunFlow}
    (hblocked : AddressBlocked entry around flow) (cache : DnsCache) (now : UInt32) :
    (¬ ∃ dialed, tunDial entry around select flow
        (domainHint cache now flow.target flow.targetPort).1 = .ok dialed) ↔
      (domainHint cache now flow.target flow.targetPort).1 = [] ∨
        RulesStop entry around
          (select (flow.arrival (domainHint cache now flow.target flow.targetPort).1))
          (flow.arrival (domainHint cache now flow.target flow.targetPort).1) := by
  have hvalid := valid_of_ruleEngineCompile hcompile
  generalize (domainHint cache now flow.target flow.targetPort).1 = hint
  rw [exists_tunDial_iff rfl]
  by_cases hhint : hint = []
  · refine iff_of_true ?_ (.inl hhint)
    rw [if_neg (not_not_intro hhint)]
    rintro ⟨d, hd, hstops⟩
    exact hstops ((rulesStop_iff hvalid).1 (hblocked.rulesStop _) d hd)
  · rw [if_pos hhint, or_iff_right hhint, rulesStop_iff hvalid]
    push Not
    exact Iff.rfl

/-! A profile that blocks a range of addresses, and a flow to one of them. -/

def sampleSpecs : List RuleSpec :=
  [{ name := bytes "range", action := bytes "block", cidrs := [bytes "203.0.113.0/24"] }]

def sampleKnown : Known := { chains := [bytes "Proxy"] }

def sampleRule : CompiledRule :=
  ⟨bytes "range", .block, [], [], [], [⟨.inet, [203, 0, 113, 0], 24, bytes "203.0.113.0/24"⟩], [],
    [], [], [], []⟩

def sampleEntry : Entry :=
  ⟨bytes "default", bytes "Proxy", ⟨bytes "Proxy", [sampleRule], false⟩⟩

/-- No temporary rules, and no prompts. -/
def quiet : Surroundings where
  temporary := { limit := 128 }
  clock := ⟨0, fun _ ↦ false⟩
  promptsEnabled := false
  await _ := .ok (false, true)

def noGroups : Select := fun _ _ ↦ .ok []

def sampleAddress : Address := ⟨.inet, [203, 0, 113, 5], rfl⟩

def sampleFlow : TunFlow :=
  ⟨.tcp, ⟨.inet, [10, 0, 0, 2], rfl⟩, 50000, sampleAddress, 443, none⟩

/-- A name for the address that has just been stored. -/
def sampleCache : DnsCache :=
  ({} : DnsCache).store 0 ⟨sampleAddress, ⟨bytes "example.com", by decide, by decide⟩, 60⟩

theorem compile_sampleSpecs :
    ruleEngineCompile sampleSpecs (bytes "Proxy") sampleKnown = .ok sampleEntry.rules := by
  decide +kernel

theorem addressBlocked_sampleFlow : AddressBlocked sampleEntry quiet sampleFlow := by
  refine ⟨by decide +kernel, 0, sampleRule, rfl, ?_, fun j hj ↦ absurd hj (Nat.not_lt_zero j), rfl,
    ?_⟩
  · have hfirst := decide_firstMatch (valid_of_ruleEngineCompile compile_sampleSpecs)
      (askedContext sampleEntry quiet (sampleFlow.arrival sampleFlow.dialTarget))
    have hdefault : (ruleEngineDecide sampleEntry.rules
        (askedContext sampleEntry quiet (sampleFlow.arrival sampleFlow.dialTarget))).isDefault =
          false := by decide +kernel
    rcases hfirst with ⟨i, rule, hget, happlies, -⟩ | ⟨-, hd⟩
    · cases mem_singleton.1 (mem_of_getElem? hget)
      exact happlies
    · exact absurd (hdefault.symm.trans hd.isDefault) Bool.false_ne_true
  · constructor <;> first | rfl | decide

/-- Without a name the flow is not dialed. -/
theorem addressBlock_without_name :
    ruleEngineCompile sampleSpecs (bytes "Proxy") sampleKnown = .ok sampleEntry.rules ∧
      AddressBlocked sampleEntry quiet sampleFlow ∧
      ¬ ∃ dialed, tunDial sampleEntry quiet noGroups sampleFlow
        (domainHint {} 0 sampleFlow.target sampleFlow.targetPort).1 = .ok dialed :=
  ⟨compile_sampleSpecs, addressBlocked_sampleFlow,
    (addressBlock_iff compile_sampleSpecs quiet noGroups addressBlocked_sampleFlow {} 0).2
      (.inl (by decide +kernel))⟩

/-- With a name the flow to the blocked address is dialed. -/
theorem blocked_address_dialed :
    AddressBlocked sampleEntry quiet sampleFlow ∧
      tunDial sampleEntry quiet noGroups sampleFlow
          (domainHint sampleCache 1000 sampleFlow.target sampleFlow.targetPort).1 =
        .ok (.chain (bytes "Proxy"), bytes "203.0.113.5:443") :=
  ⟨addressBlocked_sampleFlow, by decide +kernel⟩

end ClambHook.IpStack.Dns
