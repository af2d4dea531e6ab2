import ClambHook.TemporaryRules.Matchers

/-!
# Rules govern the connections they come from

A rule that is made from a connection should decide that connection as it was asked to.  On the way
from the connection to the rule its host is normalised a second time, and the action is put in lower
case as a whole, with the name of its chain or group; the engine then normalises both once more.
`Governs` says what is wanted of the rule, and the conditions `HostGoverned` and `ActionKept` say
when it is so.

The host is the one that was recorded with the connection, which the engine or a temporary rule has
read from its target; the engine reads the target again when the new rule is tried.
-/

namespace ClambHook.Traffic

open CString Inet Config Rules TemporaryRules List

/-! ## Hosts -/

/-- The text is the host from the start of one of its labels on. -/
def FromLabel (host text : Bytes) : Prop :=
  host = text ∨ ∃ front, host = front ++ 46 :: text

variable {host text : Bytes}

theorem hostIp_eq_some {n : Nat} (h : hostIp host = some (text, n)) :
    ∃ family address, pton family host = some address ∧ pton family text = some address ∧
      n = family.bits := by
  rw [hostIp] at h
  split at h
  · rename_i address haddress
    cases h
    exact ⟨.inet, address, haddress, pton4_ntop4 (length_pton4 haddress), rfl⟩
  · obtain ⟨address, haddress, heq⟩ := Option.map_eq_some_iff.1 h
    cases heq
    exact ⟨.inet6, address, haddress, pton6_ntop6 (length_pton6 haddress), rfl⟩

variable {family : Family} {address : Bytes}

/-- The rule for an address applies to the hosts that are written as this address. -/
theorem hostApplies_cidr_iff (h : pton family text = some address) :
    HostApplies .cidr (text ++ 47 :: decimal family.bits) host ↔
      HasAddress host family address := by
  have hc := (cidrText_of_pton h le_rfl).compile
  constructor
  · rintro ⟨_, hc', address', hhas, hagree⟩
    cases hc.symm.trans hc'
    have hlength : 8 * address'.length = family.bits := length_parseAddress hhas.2
    rwa [eq_of_agreeOn (length_pton h) hlength hagree]
  · exact fun hhas ↦ ⟨_, hc, address, hhas, fun i hi ↦ rfl⟩

/-! ## What is asked for -/

/-- What the action of a request asks for. -/
inductive Wish where
  | keep
  | direct
  | block
  | reject
  | chain (name : Bytes)
  | group (name : Bytes)
deriving DecidableEq, Repr

/-- The reading of the action of a request: in any case, and without white space. -/
def readWish (requested : Bytes) : Option Wish :=
  let text := trim requested
  if text = [] ∨ lower text = bytes "allow" then some .keep
  else if lower text = bytes "direct" then some .direct
  else if lower text = bytes "block" then some .block
  else if lower text = bytes "reject" then some .reject
  else if text.drop 6 = [] then none
  else if lower (text.take 6) = bytes "chain:" then some (.chain (trim (text.drop 6)))
  else if lower (text.take 6) = bytes "group:" then some (.group (trim (text.drop 6)))
  else none

/-- The route that a connection took: directly, through a group or through a chain, which is the
default chain when none is known. -/
def keptRoute (connection : Connection) (profile : Table) : Option Action :=
  if strcaseeq connection.ruleAction (bytes "direct") then some .direct
  else if connection.groupName ≠ [] then some (.group connection.groupName)
  else (allowChain connection profile).map .chain

/-- The name that is meant: the given one if the profile has it, and otherwise one that differs from
it in case only. -/
def Meant (names : List Bytes) (text name : Bytes) : Prop :=
  name ∈ names ∧ (name = text ∨ text ∉ names ∧ lower name = lower text)

/-- The actions that fulfil a wish. -/
def Fulfils (connection : Connection) (profile : Table) (known : Known) : Wish → Action → Prop
  | .keep, action => keptRoute connection profile = some action
  | .direct, action => action = .direct
  | .block, action => action = .block
  | .reject, action => action = .reject
  | .chain text, action => ∃ name, Meant known.chains text name ∧ action = .chain name
  | .group text, action => ∃ name, Meant known.groups text name ∧ action = .group name

/-- The decision is for the action. -/
structure Carries (d : Decision) (action : Action) : Prop where
  matched : d.isDefault = false
  text : d.action = action.text
  chainName : d.chainName = action.chainName
  groupName : d.groupName = action.groupName

/-- The rule of the request compiles for the profile, alone, and decides the connection as it was
asked for. -/
def Governs (connection : Connection) (profile : Table) (known : Known) (wish : Wish)
    (m : RuleMutation) (context : MatchContext) : Prop :=
  ∃ action engine, Fulfils connection profile known wish action ∧
    compileForProfile profile [m.toSpec] = .ok engine ∧
    Carries (ruleEngineDecide engine context) action

/-- A name that lower case does not turn into another one. -/
def Spelled (names : List Bytes) (text : Bytes) : Prop :=
  lower text ∈ names ∧ (lower text = text ∨ text ∉ names)

/-- A route whose name is one of the profile, without white space around it. -/
def RouteKept (known : Known) : Action → Prop
  | .chain name => Trimmed name ∧ name ∈ known.chains
  | .group name => Trimmed name ∧ name ∈ known.groups
  | _ => True

/-- The action of the rule still is what was asked for. -/
def ActionKept (connection : Connection) (profile : Table) (known : Known) : Wish → Prop
  | .keep => ∀ action, keptRoute connection profile = some action → RouteKept known action
  | .chain text => Spelled known.chains text
  | .group text => Spelled known.groups text
  | _ => True

/-- The host that the engine reads in the target is the recorded one without white space, brackets
and final dots: by its name, from the start of a label on, or as the same address. -/
def HostGoverned (key : MatchKey) (recorded host : Bytes) : Prop :=
  match key with
  | .domains => trim (ruleHost recorded) = [] ∨ host = trim (ruleHost recorded)
  | .domainSuffixes => trimmedLower (domainSuffix (ruleHost recorded)) true = [] ∨
      FromLabel host (trimmedLower (domainSuffix (ruleHost recorded)) true)
  | .cidrs => ∃ family address, pton family (ruleHost recorded) = some address ∧
      HasAddress host family address

/-- The default chain of the profile is taken by the engine. -/
def DefaultKept (known : Known) : Prop :=
  checkDefaultChain (trim (known.chains.headD [])) known = .ok ()

/-! ## Actions -/

/-- The text of an action. -/
def routeText : Action → Bytes
  | .direct => bytes "direct"
  | .block => bytes "block"
  | .reject => bytes "reject"
  | .chain name => bytes "chain:" ++ name
  | .group name => bytes "group:" ++ name

/-- The action text of the rule for a wish. -/
inductive Written (connection : Connection) (profile : Table) : Wish → Bytes → Prop where
  | keep {action : Action} (h : keptRoute connection profile = some action)
      (hchain : action ≠ .chain []) (hgroup : action ≠ .group []) :
      Written connection profile .keep (routeText action)
  | direct : Written connection profile .direct (routeText .direct)
  | block : Written connection profile .block (routeText .block)
  | reject : Written connection profile .reject (routeText .reject)
  | chain {name : Bytes} (hne : name ≠ []) (hlast : ∀ c ∈ name.getLast?, isspace c = false) :
      Written connection profile (.chain (trim name)) (routeText (.chain (lower name)))
  | group {name : Bytes} (hne : name ≠ []) (hlast : ∀ c ∈ name.getLast?, isspace c = false) :
      Written connection profile (.group (trim name)) (routeText (.group (lower name)))

variable {connection : Connection} {profile : Table}

theorem written_of_allowAction {action : Bytes}
    (h : allowAction connection profile = .ok action) :
    Written connection profile .keep action := by
  rw [allowAction] at h
  split at h
  · rename_i hdirect
    cases h
    have hroute : keptRoute connection profile = some .direct := by rw [keptRoute, if_pos hdirect]
    exact .keep hroute nofun nofun
  rename_i hdirect
  split at h
  · rename_i hgroup
    cases h
    have hroute : keptRoute connection profile = some (.group connection.groupName) := by
      rw [keptRoute, if_neg hdirect, if_pos hgroup]
    exact .keep hroute nofun (by simpa using hgroup)
  rename_i hgroup
  split at h
  · cases h
  · cases h
  rename_i chain hne hchain
  cases h
  have hroute : keptRoute connection profile = some (.chain chain) := by
    rw [keptRoute, if_neg hdirect, if_neg hgroup, hchain]
    rfl
  refine .keep hroute ?_ nofun
  rintro ⟨⟩
  exact hne rfl

/-- A request that names a chain or a group. -/
theorem names_iff {kind : String} :
    names kind (lower text) = true ↔ lower (text.take 6) = bytes kind ∧ text.drop 6 ≠ [] := by
  rw [names, Bool.and_eq_true, beq_iff_eq, bne_iff_ne, ← lower_take, ← lower_drop, Ne, lower_eq_nil]

/-- The action of an accepted request says what was asked for. -/
theorem written_of_ruleAction {requested : Bytes}
    {accepted : Bytes × Bytes} (h : ruleAction connection profile requested = .ok accepted) :
    ∃ wish, readWish requested = some wish ∧ Written connection profile wish accepted.1 := by
  have hlast : ∀ c ∈ ((trim requested).drop 6).getLast?, isspace c = false := fun c hc ↦
    (trimmed_trim requested).2 c (mem_getLast?_of_suffix (drop_suffix 6 _) hc)
  have hjoin : lower (trim requested) =
      lower ((trim requested).take 6) ++ lower ((trim requested).drop 6) := by
    rw [← lower_append, take_append_drop]
  rw [readWish]
  simp only [ruleAction, lower_eq_nil, names_iff] at h
  split at h
  · rename_i hkeep
    obtain ⟨action, haction, heq⟩ := map_eq_ok_iff.1 h
    cases heq
    exact ⟨.keep, if_pos hkeep, written_of_allowAction haction⟩
  rename_i hkeep
  rw [if_neg hkeep]
  split at h
  · rename_i hdirect
    cases h
    rw [if_pos hdirect, hdirect]
    exact ⟨.direct, rfl, .direct⟩
  rename_i hdirect
  rw [if_neg hdirect]
  split at h
  · rename_i hblock
    cases h
    rcases hblock with hblock | hreject
    · rw [if_pos hblock, hblock]
      exact ⟨.block, rfl, .block⟩
    · rw [hreject, if_neg (by decide), if_pos rfl]
      exact ⟨.reject, rfl, .reject⟩
  rename_i hblock
  rw [not_or] at hblock
  rw [if_neg hblock.1, if_neg hblock.2]
  split at h
  · rename_i hnames
    cases h
    dsimp only
    rcases hnames with ⟨htake, hne⟩ | ⟨htake, hne⟩
    · rw [if_neg hne, if_pos htake, hjoin, htake]
      exact ⟨_, rfl, .chain hne hlast⟩
    · rw [if_neg hne, htake, if_neg (by decide), if_pos rfl, hjoin, htake]
      exact ⟨_, rfl, .group hne hlast⟩
  · cases h

variable {action : Action} {name : Bytes}

theorem parseAction_chain {chains groups : List Bytes} :
    parseAction (bytes "chain:" ++ name) chains groups = .ok action ↔
      trim (trimRight name) ≠ [] ∧ trim (trimRight name) ∈ chains ∧
        action = .chain (trim (trimRight name)) := by
  have htrim : trim (bytes "chain:" ++ name) = bytes "chain" ++ 58 :: trimRight name :=
    trim_append_cons trimmed_chain.1 rfl name
  have hlower : lower (bytes "chain") = bytes "chain" := by decide
  have hgroup : bytes "chain" ≠ bytes "group" := by decide
  rw [parseAction_of_colon htrim (by decide), hlower]
  simp [hgroup]

theorem parseAction_group {chains groups : List Bytes} :
    parseAction (bytes "group:" ++ name) chains groups = .ok action ↔
      trim (trimRight name) ≠ [] ∧ trim (trimRight name) ∈ groups ∧
        action = .group (trim (trimRight name)) := by
  have htrim : trim (bytes "group:" ++ name) = bytes "group" ++ 58 :: trimRight name :=
    trim_append_cons trimmed_group.1 rfl name
  have hlower : lower (bytes "group") = bytes "group" := by decide
  have hchain : bytes "group" ≠ bytes "chain" := by decide
  rw [parseAction_of_colon htrim (by decide), hlower]
  simp [hchain]

/-- A name is read back exactly if it has no white space around it. -/
theorem eq_trim_trimRight_iff : name = trim (trimRight name) ↔ Trimmed name := by
  constructor
  · intro h
    rw [h]
    exact trimmed_trim _
  · intro h
    rw [trimRight_eq_self_iff.2 h.2, trim_eq_self h]

variable {known : Known}

/-- The text of a route is read as that route exactly if the route is kept. -/
theorem parseAction_routeText_iff (hchain : action ≠ .chain [])
    (hgroup : action ≠ .group []) :
    parseAction (routeText action) known.chains known.groups = .ok action ↔
      RouteKept known action := by
  have hkept : ∀ {name : Bytes} {list : List Bytes}, name ≠ [] →
      (trim (trimRight name) ≠ [] ∧ trim (trimRight name) ∈ list ∧ name = trim (trimRight name) ↔
        Trimmed name ∧ name ∈ list) := by
    intro name list hne
    rw [eq_trim_trimRight_iff]
    constructor
    · rintro ⟨-, hmem, htrimmed⟩
      rw [← eq_trim_trimRight_iff.2 htrimmed] at hmem
      exact ⟨htrimmed, hmem⟩
    · rintro ⟨htrimmed, hmem⟩
      rw [← eq_trim_trimRight_iff.2 htrimmed]
      exact ⟨hne, hmem, htrimmed⟩
  cases action with
  | direct => exact iff_of_true (parseAction_eq_ok_iff.2 (.direct (by decide))) trivial
  | block => exact iff_of_true (parseAction_eq_ok_iff.2 (.block (by decide))) trivial
  | reject => exact iff_of_true (parseAction_eq_ok_iff.2 (.reject (by decide))) trivial
  | chain name =>
    rw [routeText, parseAction_chain, Action.chain.injEq]
    exact hkept fun hnil ↦ hchain (congrArg _ hnil)
  | group name =>
    rw [routeText, parseAction_group, Action.group.injEq]
    exact hkept fun hnil ↦ hgroup (congrArg _ hnil)

/-- The name of a chain or a group in lower case is meant exactly if lower case leaves it alone, or
turns it into the one name of the profile. -/
theorem meant_lower_iff {list : List Bytes} :
    Meant list text (lower text) ↔ Spelled list text := by
  rw [Meant, Spelled, lower_lower]
  simp

theorem trim_trimRight_lower (hlast : ∀ c ∈ name.getLast?, isspace c = false) :
    trim (trimRight (lower name)) = lower (trim name) := by
  have hright : trimRight (lower name) = lower name := by
    rw [trimRight_eq_self_iff]
    intro c hc
    rw [lower, List.getLast?_map] at hc
    obtain ⟨d, hd, rfl⟩ := Option.map_eq_some_iff.1 hc
    rw [isspace_tolower]
    exact hlast d hd
  rw [hright, trim_lower]

/-- The action of the rule fulfils the wish exactly if it is kept. -/
theorem exists_fulfils_iff {wish : Wish}
    (h : Written connection profile wish text) :
    (∃ action, Fulfils connection profile known wish action ∧
        parseAction text known.chains known.groups = .ok action) ↔
      ActionKept connection profile known wish := by
  cases h with
  | @keep action hroute hchain hgroup =>
    simp only [Fulfils, ActionKept, hroute, Option.some.injEq, forall_eq', exists_eq_left']
    exact parseAction_routeText_iff hchain hgroup
  | direct | block | reject =>
    simp only [Fulfils, exists_eq_left]
    exact parseAction_routeText_iff nofun nofun
  | @chain name hne hlast | @group name hne hlast =>
    simp only [Fulfils, ActionKept, routeText, parseAction_chain, parseAction_group,
      trim_trimRight_lower hlast, ← meant_lower_iff]
    constructor
    · rintro ⟨_, ⟨name', hmeant, rfl⟩, -, -, heq⟩
      cases heq
      exact hmeant
    · intro hmeant
      exact ⟨_, ⟨_, hmeant, rfl⟩, mt lower_eq_nil.1 (trim_ne_nil hlast hne), hmeant.1, rfl⟩

/-! ## Rules and their connections -/

def MatchKey.kind : MatchKey → MatchKind
  | .domains => .domain
  | .domainSuffixes => .suffix
  | .cidrs => .cidr

/-- The temporary rule of a request, before it is stamped. -/
def RuleMutation.toTemporary (m : RuleMutation) : TemporaryRule where
  profile := m.profile
  name := m.name
  action := m.action
  matchKind := m.key.kind
  matchValue := m.value
  process := []
  network := []
  port := []
  sourceConnId := []
  sourceTarget := []
  sourceTargetHost := []

theorem RuleMutation.toTemporary_toSpec (m : RuleMutation) : m.toTemporary.toSpec = m.toSpec := by
  obtain ⟨profile, name, action, key, value⟩ := m
  cases key <;> rfl

variable {m : RuleMutation} {context : MatchContext}

/-- The rule of a request has a matcher for the host only. -/
theorem appliesTo_mutation_iff {rule : CompiledRule}
    (h : rule.From m.toSpec known) :
    rule.AppliesTo context ↔ HostApplies m.key.kind m.value (splitTarget context.target).1 := by
  rw [← m.toTemporary_toSpec] at h
  rw [appliesTo_iff h]
  exact ⟨fun happlies ↦ happlies.host, fun hhost ↦ ⟨.inl rfl, .inl rfl, .inl rfl, hhost⟩⟩

theorem action_ext {a b : Action} (htext : a.text = b.text) (hchain : a.chainName = b.chainName)
    (hgroup : a.groupName = b.groupName) : a = b := by
  have hnodup : [bytes "direct", bytes "block", bytes "reject", bytes "chain",
      bytes "group"].Nodup := by
    decide
  simp only [nodup_cons, mem_cons, not_mem_nil, or_false, not_or] at hnodup
  cases a <;> cases b <;> simp_all [Action.text, Action.chainName, Action.groupName]

/-- A rule for a host compiles if its action can be read and the host has an address where it needs
one. -/
theorem exists_from (haction : parseAction m.action known.chains known.groups = .ok action)
    (hhost : HostApplies m.key.kind m.value host) :
    ∃ rule : CompiledRule, rule.From m.toSpec known ∧ rule.action = action := by
  have hcidrs : ∃ cidrs, cidrListCompile m.toSpec.cidrs = .ok cidrs := by
    rw [RuleMutation.toSpec]
    cases hkey : m.key with
    | domains => exact ⟨[], rfl⟩
    | domainSuffixes => exact ⟨[], rfl⟩
    | cidrs =>
      rw [hkey] at hhost
      obtain ⟨c, hc, -⟩ := hhost
      exact ⟨[c], cidrListCompile_singleton.2 ⟨c, hc, rfl⟩⟩
  obtain ⟨cidrs, hcidrs⟩ := hcidrs
  refine ⟨⟨_, action, _, _, _, cidrs, [], _, _, _, []⟩, ⟨haction, fun h ↦ h.1 rfl, hcidrs, rfl, rfl,
    rfl, rfl, rfl, rfl, rfl, rfl, rfl⟩, rfl⟩

/-- What governing comes down to. -/
theorem governs_iff {wish : Wish} (hknown : profileKnown profile = .ok known) :
    Governs connection profile known wish m context ↔
      HostApplies m.key.kind m.value (splitTarget context.target).1 ∧
      (∃ action, Fulfils connection profile known wish action ∧
        parseAction m.action known.chains known.groups = .ok action) ∧ DefaultKept known := by
  have hcompile : ∀ engine, compileForProfile profile [m.toSpec] = .ok engine ↔
      DefaultKept known ∧ ∃ rule : CompiledRule, rule.From m.toSpec known ∧
        engine = ⟨trim (known.chains.headD []), [rule], !rule.processes.isEmpty⟩ := by
    intro engine
    rw [compileForProfile, hknown]
    exact ruleEngineCompile_singleton_iff
  constructor
  · rintro ⟨action, engine, hfulfils, hengine, hcarries⟩
    obtain ⟨hdefault, rule, hfrom, rfl⟩ := (hcompile engine).1 hengine
    rcases decide_singleton hfrom.valid (trim (known.chains.headD [])) (!rule.processes.isEmpty)
      context with ⟨happlies, hfollows⟩ | ⟨-, hdecision⟩
    · have heq : rule.action = action := action_ext (hfollows.action.symm.trans hcarries.text)
        (hfollows.chainName.symm.trans hcarries.chainName)
        (hfollows.groupName.symm.trans hcarries.groupName)
      exact ⟨(appliesTo_mutation_iff hfrom).1 happlies, ⟨action, hfulfils, heq ▸ hfrom.action⟩,
        hdefault⟩
    · rw [hcarries.matched] at hdecision
      cases hdecision
  · rintro ⟨hhost, ⟨action, hfulfils, haction⟩, hdefault⟩
    obtain ⟨rule, hfrom, rfl⟩ := exists_from haction hhost
    refine ⟨rule.action, _, hfulfils, (hcompile _).2 ⟨hdefault, rule, hfrom, rfl⟩, ?_⟩
    have happlies := (appliesTo_mutation_iff hfrom).2 hhost
    rcases decide_singleton hfrom.valid (trim (known.chains.headD [])) (!rule.processes.isEmpty)
      context with ⟨-, hfollows⟩ | ⟨hnot, -⟩
    · exact ⟨hfollows.isDefault, hfollows.action, hfollows.chainName, hfollows.groupName⟩
    · exact absurd happlies hnot

/-- The matchers that accepted requests have for a host. -/
inductive MatcherFor (host : Bytes) : MatchKey → Bytes → Prop where
  | domain : MatcherFor host .domains host
  | suffix : MatcherFor host .domainSuffixes (domainSuffix host)
  | cidr {family : Family} {text address : Bytes} (hhost : pton family host = some address)
      (htext : pton family text = some address) :
      MatcherFor host .cidrs (text ++ 47 :: decimal family.bits)

theorem matcherFor_of_hostMatcher {scope : Bytes} {matcher : MatchKey × Bytes}
    (h : hostMatcher host scope = .ok matcher) : MatcherFor host matcher.1 matcher.2 := by
  rw [hostMatcher] at h
  split at h
  · rename_i found hfound
    cases h
    obtain ⟨scope, -, hscope⟩ := Option.bind_eq_some_iff.1 hfound
    rw [scopeMatcher.eq_def] at hscope
    split at hscope
    · split at hscope
      · cases hscope
        exact .domain
      · cases hscope
    · split at hscope
      · cases hscope
        exact .suffix
      · cases hscope
    · obtain ⟨⟨text, n⟩, hip, heq⟩ := Option.map_eq_some_iff.1 hscope
      cases heq
      obtain ⟨family, address, hhost, htext, rfl⟩ := hostIp_eq_some hip
      exact .cidr hhost htext
  · cases h

variable {recorded value : Bytes} {key : MatchKey}

theorem hostGoverned_cidrs_iff (h : pton family (ruleHost recorded) = some address) :
    HostGoverned .cidrs recorded host ↔ HasAddress host family address := by
  refine ⟨?_, fun hhas ↦ ⟨family, address, h, hhas⟩⟩
  rintro ⟨family', address', h', hhas⟩
  rw [← parseAddress_eq_some_iff] at h h'
  rw [h] at h'
  cases h'
  exact hhas

/-- The matcher of an accepted request, for the host that was recorded. -/
theorem hostApplies_iff_governed (h : MatcherFor (ruleHost recorded) key value) :
    HostApplies key.kind value host ↔ HostGoverned key recorded host := by
  cases h with
  | domain => rw [MatchKey.kind, HostApplies, HostGoverned, ← trim_lower, ruleHost, lower_lower]
  | suffix => simp only [MatchKey.kind, HostApplies, HostGoverned, FromLabel, eq_comm (b := host)]
  | cidr hhost htext =>
    rw [MatchKey.kind, hostApplies_cidr_iff htext, hostGoverned_cidrs_iff hhost]

/-- What an accepted request is made of. -/
structure AcceptedRequest (config : List Table) (request : Json) (connection : Connection)
    (m : RuleMutation) (profile : Table) : Prop where
  named : profileNamed config m.profile = some profile
  matcher : hostMatcher (ruleHost connection.targetHost) (requestString request "scope") =
    .ok (m.key, m.value)
  action : ∃ family, ruleAction connection profile (requestString request "action") =
    .ok (m.action, family)

theorem acceptedRequest_of_ok {store : List Connection} {config : List Table}
    {activeProfile : Option Bytes} {request : Json}
    (h : trafficRuleRequest store config activeProfile request = .ok m)
    (hconnection : connectionCopy store (requestString request "conn_id") = .ok connection) :
    ∃ profile, AcceptedRequest config request connection m profile := by
  simp only [trafficRuleRequest, bind_eq_ok_iff] at h
  obtain ⟨_, _, _, hcopy, profileName, _, profile, hprofile, host, hhost, action, haction, matcher,
    hmatcher, name, _, h⟩ := h
  rw [hconnection] at hcopy
  cases hcopy
  cases h
  rw [findProfile] at hprofile
  rw [requestHost] at hhost
  split at hprofile
  · rename_i found hnamed
    cases hprofile
    split at hhost
    · cases hhost
    · cases hhost
      exact ⟨profile, hnamed, hmatcher, action.2, haction⟩
  · cases hprofile

/-- What a decision says about its connection. -/
theorem decide_reads (engine : RuleEngine) (context : MatchContext) :
    (ruleEngineDecide engine context).host = (splitTarget context.target).1 ∧
      (ruleEngineDecide engine context).port = (splitTarget context.target).2 ∧
      (ruleEngineDecide engine context).network = lower (trim context.network) := by
  rw [← trimmedLower_false, ruleEngineDecide]
  dsimp only
  split <;> exact ⟨rfl, rfl, rfl⟩

def homeProfile : Table :=
  [(bytes "name", .string (bytes "home")),
    (bytes "chain", .array [.table [(bytes "name", .string (bytes "Proxy"))]])]

def homeKnown : Known := { chains := [bytes "Proxy"] }

def webContext : MatchContext := { network := bytes "tcp", target := bytes "www.example.com:443" }

/-- A connection that went through the default chain. -/
def webConnection : Connection :=
  openTraffic 7 (bytes "home") (ruleEngineDecide ⟨bytes "Proxy", [], false⟩ webContext)
    (bytes "tcp") webContext.target [] (bytes "Proxy")

def webRequest (action : String) : Json :=
  .object [(bytes "conn_id", .string (bytes "native-7")), (bytes "action", .string (bytes action)),
    (bytes "scope", .string (bytes "domain_suffix"))]

def blockMutation : RuleMutation :=
  ⟨bytes "home", bytes "block-www-example-com", bytes "block", .domainSuffixes, bytes "example.com"⟩

def chainMutation : RuleMutation :=
  ⟨bytes "home", bytes "proxy-www-example-com", bytes "chain:proxy", .domainSuffixes,
    bytes "example.com"⟩

end ClambHook.Traffic
