import ClambHook.TemporaryRules.Matchers

/-!
# Temporary rules and persistent rules

A temporary rule should do what the persistent rule with the same matchers and the same action does.
The engine normalises the texts of the rule and of the connection, the store compares them as they
are written, so the two decide a connection alike exactly if what the rule means is also what it
says there (`Alike`).

On plain connections (`PlainContext`) that is so for the rules whose texts need no normalisation
(`Canonical`).
-/

namespace ClambHook.TemporaryRules

open CString Inet Rules Traffic Machine List

/-! ## Runs of the store -/

/-- The requests to a store.  What only reads the rules (decisions, the two snapshots, and the
question whether processes are needed) removes those that are over. -/
inductive Event where
  | fromConnection (traffic : List Connection) (config : List Config.Table)
      (activeProfile : Option Bytes) (request : Json) (clock : Clock)
  | fromRule (mutation : Json) (ttlSeconds untilQuitPid : Int)
      (sourceConnId sourceTarget sourceTargetHost : Bytes) (clock : Clock)
  | remove (request : Json) (clock : Clock)
  | read (clock : Clock)

/-- The store after a request.  A rule that is refused leaves the store as it is. -/
def step (store : Store) : Event → Store
  | .fromConnection traffic config activeProfile request clock =>
    (createFromConnection store traffic config activeProfile request clock).toOption.getD store
  | .fromRule mutation ttlSeconds untilQuitPid connId target targetHost clock =>
    (createFromRule store mutation ttlSeconds untilQuitPid connId target targetHost
      clock).toOption.getD store
  | .remove request clock => (TemporaryRules.remove store request clock).1
  | .read clock => temporaryPrune store clock

/-- The text of a port that a rule has been accepted with. -/
def AcceptedPort (port : Bytes) : Prop :=
  port = [] ∨ ∃ n ≤ 65535, port = decimal n

/-- Every rule of the store has an accepted port. -/
def PortsAccepted (store : Store) : Prop :=
  ∀ rule ∈ store.items, AcceptedPort rule.port

theorem acceptedPort_of_temporaryFirstPort {rule : Option Json} {port : Bytes}
    (h : temporaryFirstPort rule = some port) : AcceptedPort port := by
  rw [temporaryFirstPort] at h
  split at h
  · cases h
    exact .inl rfl
  dsimp only at h
  split at h
  · cases h
  rename_i value hvalue hrange
  cases h
  simp only [not_or, not_lt, not_not] at hrange
  refine .inr ⟨_, ?_, rfl⟩
  have hint := Rat.coe_int_num_of_den_eq_one hrange.2.2
  rw [← hint] at hrange
  have hle : (Json.numberValue (some value) (-1)).num ≤ 65535 := by exact_mod_cast hrange.2.1
  omega

theorem acceptedPort_of_temporaryRuleFromRequest {mutation request : Json}
    {traffic : Option (List Connection)} {accepted : TemporaryRule × Int}
    (h : temporaryRuleFromRequest mutation request traffic = .ok accepted) :
    AcceptedPort accepted.1.port := by
  simp only [temporaryRuleFromRequest, bind_eq_ok_iff] at h
  obtain ⟨rule, -, source, -, ttl, -, port, hport, u, -, h⟩ := h
  cases h
  rw [checkPort.eq_def] at hport
  split at hport
  · rename_i hfirst
    cases hport
    exact acceptedPort_of_temporaryFirstPort hfirst
  · cases hport

variable {store : Store}

section

variable (h : PortsAccepted store) (clock : Clock)

include h

theorem portsAccepted_prune : PortsAccepted (temporaryPrune store clock) := fun rule hrule ↦
  h rule (mem_of_mem_filter hrule)

theorem portsAccepted_insert {rule : TemporaryRule} (hport : AcceptedPort rule.port)
    (ttlSeconds untilQuitPid : Int) :
    PortsAccepted (temporaryInsert store rule ttlSeconds untilQuitPid clock) := by
  intro r hr
  rw [temporaryInsert] at hr
  rcases mem_cons.1 hr with rfl | hr
  · exact hport
  refine portsAccepted_prune h clock r ?_
  split at hr
  · exact mem_of_mem_dropLast hr
  · exact hr

theorem portsAccepted_remove (request : Json) :
    PortsAccepted (TemporaryRules.remove store request clock).1 := by
  rw [TemporaryRules.remove]
  dsimp only
  split
  · exact h
  · split
    · exact fun r hr ↦ portsAccepted_prune h clock r (mem_of_mem_eraseP hr)
    · exact portsAccepted_prune h clock

end

theorem portsAccepted_step (store : Store) (event : Event) (h : PortsAccepted store) :
    PortsAccepted (step store event) := by
  cases event with
  | fromConnection traffic config activeProfile request clock =>
    rw [step]
    cases hcreate : createFromConnection store traffic config activeProfile request clock with
    | error e => exact h
    | ok next =>
      simp only [createFromConnection, bind_eq_ok_iff] at hcreate
      obtain ⟨mutation, -, accepted, haccepted, hnext⟩ := hcreate
      cases hnext
      exact portsAccepted_insert h clock (acceptedPort_of_temporaryRuleFromRequest haccepted) _ _
  | fromRule mutation ttlSeconds untilQuitPid connId target targetHost clock =>
    rw [step]
    cases hcreate : createFromRule store mutation ttlSeconds untilQuitPid connId target targetHost
      clock with
    | error e => exact h
    | ok next =>
      simp only [createFromRule, bind_eq_ok_iff] at hcreate
      obtain ⟨ttl, -, accepted, haccepted, hnext⟩ := hcreate
      cases hnext
      exact portsAccepted_insert h clock (acceptedPort_of_temporaryRuleFromRequest haccepted) _ _
  | remove request clock => exact portsAccepted_remove h clock request
  | read clock => exact portsAccepted_prune h clock

theorem portsAccepted_run {limit : Nat} (h : create limit = .ok store)
    (events : List Event) : PortsAccepted (run step store events) := by
  refine run_inv_all portsAccepted_step events fun rule hrule ↦ ?_
  simp only [create] at h
  generalize (if limit = 0 then 128 else limit) = actual at h
  split at h
  · cases h
  · cases h
    cases hrule

/-! ## Plain connections and canonical rules -/

/-- A process in lower case, without white space around it, that is found by its name or by its
path. -/
structure PlainProcess (context : MatchContext) : Prop where
  name : lower (trim context.processName) = context.processName
  path : lower (trim context.processPath) = context.processPath
  base : baseName context.processPath ∈ [[], context.processName, context.processPath]

/-- A connection whose texts need no normalisation, as far as the rule looks at them. -/
structure PlainContext (rule : TemporaryRule) (context : MatchContext) : Prop where
  target : PlainTarget context.target
  network : rule.network ≠ [] → Trimmed context.network
  process : rule.process ≠ [] → PlainProcess context

/-- A matcher for the host that is compared as it was written. -/
def CanonicalValue : MatchKind → Bytes → Prop
  | .none, _ => True
  | .domain, value => value ≠ [] ∧ Trimmed value
  | .suffix, value => value ≠ [] ∧ Trimmed value ∧ value.head? ≠ some 46
  | .cidr, value => Trimmed value

/-- An action that is read as it was written. -/
def CanonicalAction (raw : Bytes) : Prop :=
  raw = bytes "direct" ∨ raw = bytes "block" ∨ raw = bytes "reject" ∨
    (lower (raw.take 6) = bytes "chain:" ∨ lower (raw.take 6) = bytes "group:") ∧
      Trimmed (raw.drop 6)

/-- A rule whose texts need no normalisation. -/
structure Canonical (rule : TemporaryRule) : Prop where
  process : lower (trim rule.process) = rule.process
  network : Trimmed rule.network
  value : CanonicalValue rule.matchKind rule.matchValue
  action : CanonicalAction rule.action

/-- What the rule means for a connection is what it says. -/
structure Alike (rule : TemporaryRule) (context : MatchContext) : Prop where
  /-- What the engine takes the rule for after normalisation is written so: the process and the
  network in the connection, the port and the host in its target, and the action in the rule. -/
  written : EngineApplies rule context → StoreApplies rule context ∧ CanonicalAction rule.action
  /-- A port and a host that are written in the target are also those that the engine reads
  there. -/
  read : StoreApplies rule context →
    (rule.port = [] ∨ PortIs (splitTarget context.target).2 (digitsValue rule.port)) ∧
      HostApplies rule.matchKind rule.matchValue (splitTarget context.target).1

/-! ## Hosts -/

variable {host : Bytes}

theorem covers_iff {c : Cidr} (h : 93 ∉ host) :
    c.Covers host ↔
      ∃ address, pton c.family host = some address ∧ AgreeOn c.prefixLength c.address address := by
  refine exists_congr fun address ↦ and_congr_left fun _ ↦ ?_
  rw [HasAddress, stripBrackets_of_getLast fun hlast ↦ h (mem_of_getLast? hlast),
    parseAddress_eq_some_iff]
  refine ⟨fun h ↦ h.2, fun h ↦ ⟨?_, h⟩⟩
  have hlength := (addressText_of_pton h).length
  omega

variable {value : Bytes}

/-- The addresses that both matchers find in a CIDR: the same, if it has no white space around
it. -/
theorem hostWritten_cidr_iff (h : 93 ∉ host) :
    HostWritten .cidr value host ↔
      Trimmed value ∧ ∃ c, cidrCompile value = .ok c ∧ c.Covers host := by
  constructor
  · rintro ⟨family, network, n, address, htext, haddress, hagree⟩
    refine ⟨htext.trimmed, ⟨family, network, n, lower (trim value)⟩, ?_, ?_⟩
    · rw [cidrCompile_eq_ok_iff, trim_eq_self htext.trimmed]
      exact ⟨htext, rfl⟩
    · exact (covers_iff h).2 ⟨address, haddress, hagree⟩
  · rintro ⟨htrimmed, c, hc, hcovers⟩
    rw [cidrCompile_eq_ok_iff, trim_eq_self htrimmed] at hc
    obtain ⟨address, haddress, hagree⟩ := (covers_iff h).1 hcovers
    exact ⟨c.family, c.address, c.prefixLength, address, hc.1, haddress, hagree⟩

/-- On plain hosts, canonical matchers agree. -/
theorem hostWritten_iff_hostApplies {kind : MatchKind} (hbracket : 93 ∉ host)
    (h : CanonicalValue kind value) :
    HostWritten kind value host ↔ HostApplies kind value host := by
  cases kind with
  | none => exact Iff.rfl
  | domain => rw [HostWritten, HostApplies, trim_eq_self h.2, lower_eq_nil, or_iff_right h.1]
  | suffix =>
    rw [HostWritten, HostApplies, trimmedLower_true_of_head h.2.1 h.2.2, lower_eq_nil,
      or_iff_right h.1]
  | cidr =>
    rw [hostWritten_cidr_iff hbracket, HostApplies]
    exact and_iff_right h

/-! ## Actions -/

variable {raw kind text : Bytes}

/-- An action that starts in a kind and a colon is split there, with or without white space at its
end. -/
theorem exists_head_of_take (h : lower (raw.take 6) = kind ++ [58])
    (hkind : Trimmed kind) :
    ∃ head, lower head = kind ∧ raw = head ++ 58 :: raw.drop 6 ∧
      trim raw = head ++ 58 :: trimRight (raw.drop 6) := by
  obtain ⟨head, last, htake, hhead, hlast⟩ := map_eq_append_iff.1 h
  obtain ⟨c, rfl, hc⟩ := map_eq_singleton_iff.1 hlast
  rw [tolower_eq_iff colon_caseless] at hc
  subst hc
  have hraw : raw = head ++ 58 :: raw.drop 6 := by
    conv_lhs => rw [← take_append_drop 6 raw, htake]
    simp
  refine ⟨head, hhead, hraw, ?_⟩
  conv_lhs => rw [hraw]
  refine trim_append_cons (trimmed_lower_iff.1 ?_).1 rfl _
  rw [lower, hhead]
  exact hkind

theorem eq_of_take (hlength : text.length < 15) : raw.take 15 = text ↔ raw = text := by
  constructor
  · intro h
    have hle := congrArg List.length h
    rw [length_take] at hle
    rwa [take_of_length_le (by omega)] at h
  · rintro rfl
    exact take_of_length_le (by omega)

variable {head target : Bytes}

section

variable (h : lower (raw.take 6) = kind ++ [58]) (hkind : Trimmed kind) (hcolon : 58 ∉ kind)
  (hparsed : trim raw = head ++ 58 :: target) (hhead : 58 ∉ head)

include h hkind hcolon hparsed hhead

/-- The two splits of an action are at the same colon. -/
theorem take_of_parsed : lower head = kind ∧ target = trimRight (raw.drop 6) := by
  obtain ⟨front, hfront, -, htrim⟩ := exists_head_of_take h hkind
  have hsplit := splitFirst_eq_some_iff.2 ⟨hparsed, hhead⟩
  rw [splitFirst_eq_some_iff.2 ⟨htrim, colon_notMem_of_lower hfront hcolon⟩] at hsplit
  cases hsplit
  exact ⟨hfront, rfl⟩

/-- The name behind the colon is the one that the engine reads if it has no white space around
it. -/
theorem drop_eq_trim_iff : raw.drop 6 = trim target ↔ Trimmed (raw.drop 6) := by
  obtain ⟨-, rfl⟩ := take_of_parsed h hkind hcolon hparsed hhead
  constructor
  · intro heq
    rw [heq]
    exact trimmed_trim _
  · intro htrimmed
    rw [trimRight_eq_self_iff.2 htrimmed.2, trim_eq_self htrimmed]

end

theorem readAction_eq (raw : Bytes) : readAction raw =
    if lower (raw.take 6) = bytes "chain:" then (bytes "chain", raw.drop 6, [])
    else if lower (raw.take 6) = bytes "group:" then (bytes "group", [], raw.drop 6)
    else (raw.take 15, [], []) := by
  have hchain : lower (bytes "chain:") = bytes "chain:" := by decide
  have hgroup : lower (bytes "group:") = bytes "group:" := by decide
  simp only [readAction, strcaseeq, beq_iff_eq, hchain, hgroup]

/-- An action without a colon is read as it was written if it is one of the three names. -/
theorem readAction_of_no_colon (h : lower (trim raw) = text)
    (htext : text ∈ [bytes "direct", bytes "block", bytes "reject"]) :
    readAction raw = (text, [], []) ↔ CanonicalAction raw := by
  have hfacts : ∀ t ∈ [bytes "direct", bytes "block", bytes "reject"],
      58 ∉ t ∧ t.length < 15 ∧ lower (trim t) = t := by decide
  have hnot : ∀ kind, Trimmed kind → lower (raw.take 6) ≠ kind ++ [58] := by
    intro kind hkind heq
    obtain ⟨head, -, -, htrim⟩ := exists_head_of_take heq hkind
    refine (hfacts text htext).1 ?_
    rw [← h, mem_lower_iff colon_caseless, htrim]
    simp
  have hchain : lower (raw.take 6) ≠ bytes "chain:" := hnot _ trimmed_chain
  have hgroup : lower (raw.take 6) ≠ bytes "group:" := hnot _ trimmed_group
  rw [readAction_eq, if_neg hchain, if_neg hgroup, Prod.mk.injEq, and_iff_left rfl,
    eq_of_take (hfacts text htext).2.1, CanonicalAction]
  simp only [hchain, hgroup, or_self, false_and, or_false]
  constructor
  · rintro rfl
    simpa using htext
  intro hraw
  have hmem : raw ∈ [bytes "direct", bytes "block", bytes "reject"] := by
    simpa using hraw
  rw [← h, (hfacts raw hmem).2.2]

/-- A name with a colon is no canonical action unless it starts in its kind. -/
theorem canonicalAction_of_colon (h : trim raw = head ++ 58 :: target) :
    CanonicalAction raw ↔
      (lower (raw.take 6) = bytes "chain:" ∨ lower (raw.take 6) = bytes "group:") ∧
        Trimmed (raw.drop 6) := by
  have hmem : 58 ∈ trim raw := by
    rw [h]
    simp
  have hnot : ∀ t ∈ [bytes "direct", bytes "block", bytes "reject"], 58 ∉ trim t := by decide
  have hraw : raw ∉ [bytes "direct", bytes "block", bytes "reject"] := fun ht ↦ hnot raw ht hmem
  simp only [mem_cons, not_mem_nil, or_false, not_or] at hraw
  rw [CanonicalAction, or_iff_right hraw.1, or_iff_right hraw.2.1, or_iff_right hraw.2.2]

/-- The store reads an action as the engine does if it is canonical. -/
theorem readAction_iff_canonical {chains groups : List Bytes} {action : Action}
    (h : ParsedAction chains groups raw action) :
    readAction raw = (action.text, action.chainName, action.groupName) ↔ CanonicalAction raw := by
  cases h with
  | direct h | block h | reject h => exact readAction_of_no_colon h (by decide)
  | @chain head target h hhead hne hmem =>
    have hcolon := colon_notMem_of_lower hhead (by decide)
    have hgroup : lower (raw.take 6) ≠ bytes "group:" := by
      intro heq
      have hkind := (take_of_parsed heq trimmed_group (by decide) h hcolon).1
      rw [hhead] at hkind
      exact absurd hkind (by decide)
    rw [canonicalAction_of_colon h, readAction_eq, or_iff_left hgroup, if_neg hgroup]
    by_cases hchain : lower (raw.take 6) = bytes "chain:"
    · rw [if_pos hchain, and_iff_right hchain,
        ← drop_eq_trim_iff hchain trimmed_chain (by decide) h hcolon]
      simp [Action.text, Action.chainName, Action.groupName]
    · rw [if_neg hchain]
      simp [hchain, Action.chainName, hne.symm]
  | @group head target h hhead hne hmem =>
    have hcolon := colon_notMem_of_lower hhead (by decide)
    have hchain : lower (raw.take 6) ≠ bytes "chain:" := by
      intro heq
      have hkind := (take_of_parsed heq trimmed_chain (by decide) h hcolon).1
      rw [hhead] at hkind
      exact absurd hkind (by decide)
    rw [canonicalAction_of_colon h, readAction_eq, or_iff_right hchain, if_neg hchain]
    by_cases hgroup : lower (raw.take 6) = bytes "group:"
    · rw [if_pos hgroup, and_iff_right hgroup,
        ← drop_eq_trim_iff hgroup trimmed_group (by decide) h hcolon]
      simp [Action.text, Action.chainName, Action.groupName]
    · rw [if_neg hgroup]
      simp [hgroup, Action.groupName, hne.symm]

/-! ## Agreement -/

/-- The two decisions are the same: the temporary rule matches iff the engine does not use its
default, and then with the same action, chain and group. -/
structure Agrees (temporary : Option Decision) (persistent : Decision) : Prop where
  matched : temporary.isSome = !persistent.isDefault
  action : ∀ d ∈ temporary, d.action = persistent.action ∧ d.chainName = persistent.chainName ∧
    d.groupName = persistent.groupName

section

variable {rule : TemporaryRule} {compiled : CompiledRule} {known : Known} {context : MatchContext}

/-- Normalisation makes a process or a network match in more ways, never in fewer. -/
theorem StoreApplies.engineApplies (h : StoreApplies rule context)
    (hport : rule.port = [] ∨ PortIs (splitTarget context.target).2 (digitsValue rule.port))
    (hhost : HostApplies rule.matchKind rule.matchValue (splitTarget context.target).1) :
    EngineApplies rule context := by
  refine ⟨?_, ?_, hport, hhost⟩
  · rw [or_iff_not_imp_left]
    intro hne
    rcases h.process with hprocess | hprocess | hprocess
    · exact absurd (by rw [hprocess]; rfl) hne
    · refine .inr (.inl ⟨?_, ?_⟩)
      · rwa [trimmedLower_false, ← hprocess]
      · rw [trimmedLower_false, hprocess]
    · exact .inl (by rw [trimmedLower_false, hprocess])
  · rcases h.network with hnetwork | hnetwork
    · exact .inl (by rw [hnetwork]; rfl)
    · exact .inr (by rw [← trim_lower, ← trim_lower, hnetwork])

variable {clock : Clock} (hlive : rule.live clock = true) (store : Store)

include hlive

theorem temporaryRulesDecide_singleton :
    (temporaryRulesDecide { store with items := [rule] } rule.profile context clock).2 =
      if matchesContext rule rule.profile context (temporarySplitTarget context.target).1
        (temporarySplitTarget context.target).2 then
        some (temporaryDecision rule context (temporarySplitTarget context.target).1
          (temporarySplitTarget context.target).2)
      else none := by
  simp only [temporaryRulesDecide, temporaryPrune, filter_cons, hlive, if_true, filter_nil,
    List.find?_cons, List.find?_nil]
  cases matchesContext rule rule.profile context _ _ <;> rfl

/-- The two decide a connection alike if the rule means there what it says. -/
theorem agrees_iff (hrule : compiled.From rule.toSpec known) (defaultChain : Bytes)
    (needsProcess : Bool) :
    Agrees (temporaryRulesDecide { store with items := [rule] } rule.profile context clock).2
        (ruleEngineDecide ⟨defaultChain, [compiled], needsProcess⟩ context) ↔
        Alike rule context := by
  have haction : readAction rule.action = (compiled.action.text, compiled.action.chainName,
      compiled.action.groupName) ↔ CanonicalAction rule.action :=
    readAction_iff_canonical (parseAction_eq_ok_iff.1 hrule.action)
  rw [temporaryRulesDecide_singleton hlive]
  cases hmatch : matchesContext rule rule.profile context (temporarySplitTarget context.target).1
    (temporarySplitTarget context.target).2 with
  | false =>
    have hstore : ¬ StoreApplies rule context := by
      rw [← matchesContext_iff, hmatch]
      exact Bool.false_ne_true
    rcases decide_singleton hrule.valid defaultChain needsProcess context with ⟨hyes, hd⟩ |
      ⟨hno, hd⟩
    · refine iff_of_false (fun h ↦ ?_) fun h ↦ hstore (h.written ((appliesTo_iff hrule).1 hyes)).1
      have hmatched := h.matched
      rw [hd.isDefault] at hmatched
      cases hmatched
    · refine iff_of_true ⟨by rw [hd]; rfl, fun d hd ↦ nomatch hd⟩ ⟨fun h ↦ ?_, fun h ↦ ?_⟩
      · exact absurd ((appliesTo_iff hrule).2 h) hno
      · exact absurd h hstore
  | true =>
    have hstore : StoreApplies rule context := matchesContext_iff.1 hmatch
    rcases decide_singleton hrule.valid defaultChain needsProcess context with ⟨hyes, hd⟩ |
      ⟨hno, hd⟩
    · have hengine := (appliesTo_iff hrule).1 hyes
      constructor
      · intro h
        obtain ⟨h₁, h₂, h₃⟩ := h.action _ rfl
        refine ⟨fun _ ↦ ⟨hstore, haction.1 ?_⟩, fun _ ↦ ⟨hengine.port, hengine.host⟩⟩
        rw [← hd.action, ← hd.chainName, ← hd.groupName, ← h₁, ← h₂, ← h₃]
        rfl
      · intro h
        refine ⟨by rw [hd.isDefault]; rfl, ?_⟩
        rintro _ ⟨⟩
        rw [hd.action, hd.chainName, hd.groupName, temporaryDecision,
          haction.2 (h.written hengine).2]
        exact ⟨rfl, rfl, rfl⟩
    · refine iff_of_false (fun h ↦ ?_) fun h ↦ ?_
      · have hmatched := h.matched
        rw [hd] at hmatched
        cases hmatched
      · obtain ⟨hport, hhost⟩ := h.read hstore
        exact hno ((appliesTo_iff hrule).2 (hstore.engineApplies hport hhost))

omit hlive

/-! ## Plain connections -/

variable {host port : Bytes}

theorem namesProcess_iff (hcontext : PlainProcess context) {pattern : Bytes} (hne : pattern ≠ []) :
    NamesProcess pattern context ↔
      pattern = context.processPath ∨ pattern = context.processName := by
  simp only [NamesProcess, trimmedLower_false, hcontext.name, hcontext.path]
  have hbase := hcontext.base
  simp only [mem_cons, not_mem_nil, or_false] at hbase
  grind

theorem portIs_iff (hrule : AcceptedPort rule.port) (hport : AcceptedPort port)
    (hne : rule.port ≠ []) : PortIs port (digitsValue rule.port) ↔ rule.port = port := by
  obtain ⟨n, hn, heq⟩ := hrule.resolve_left hne
  rcases hport with rfl | ⟨m, hm, rfl⟩
  · simp [PortIs, hne]
  have hread : strtol (decimal m) = ⟨m, [], false⟩ := strtol_decimal (by rw [longMax]; omega)
  rw [PortIs, hread, heq, digitsValue_decimal]
  simp only [ne_eq, decimal_ne_nil, not_false_eq_true, true_and, Nat.cast_inj]
  exact ⟨fun h ↦ by rw [h], fun h ↦ (decimal_injective h).symm⟩

/-- A canonical rule means on a plain connection what it says, class by class. -/
theorem alike_of_canonical (hcanonical : Canonical rule) (hrule : AcceptedPort rule.port)
    (hcontext : PlainContext rule context) : Alike rule context := by
  obtain ⟨host, port, hsplit⟩ := hcontext.target.splitsAs
  have hport : (rule.port = [] ∨ rule.port = port) ↔
      (rule.port = [] ∨ PortIs port (digitsValue rule.port)) :=
    or_congr_right' fun hne ↦ (portIs_iff hrule hsplit.port hne).symm
  have hhost := hostWritten_iff_hostApplies hsplit.bracket hcanonical.value
  constructor
  · rintro ⟨hprocess, hnetwork, hport', hhost'⟩
    rw [hsplit.engine] at hport' hhost'
    refine ⟨⟨?_, ?_, by rw [hsplit.store]; exact hport.2 hport',
      by rw [hsplit.store]; exact hhost.2 hhost'⟩, hcanonical.action⟩
    · rw [hcanonical.process] at hprocess
      exact or_iff_not_imp_left.2 fun hne ↦
        (namesProcess_iff (hcontext.process hne) hne).1 (hprocess.resolve_left hne)
    · rw [trim_eq_self hcanonical.network, lower_eq_nil] at hnetwork
      refine or_iff_not_imp_left.2 fun hne ↦ ?_
      rw [← hnetwork.resolve_left hne, trim_eq_self (hcontext.network hne)]
  · intro h
    have hport' := h.port
    have hhost' := h.host
    rw [hsplit.store] at hport' hhost'
    rw [hsplit.engine]
    exact ⟨hport.1 hport', hhost.1 hhost'⟩

end

/-- A rule that blocks a name, as the prompt asks for it. -/
def adsMutation : Json :=
  .object [(bytes "profile", .string (bytes "home")),
    (bytes "rule", .object [(bytes "name", .string (bytes "block-ads")),
      (bytes "action", .string (bytes "block")),
      (bytes "domains", .array [.string (bytes "ads.example")])])]

def adsClock : Clock := ⟨0, fun _ ↦ false⟩

/-- The rule is asked for, for a minute. -/
def adsEvents : List Event :=
  [.fromRule adsMutation 60 0 [] [] [] adsClock]

def adsRule : TemporaryRule where
  id := bytes "temporary-1-0"
  profile := bytes "home"
  name := bytes "block-ads"
  action := bytes "block"
  matchKind := .domain
  matchValue := bytes "ads.example"
  process := []
  network := []
  port := []
  expiresNs := 60000000000
  sourceConnId := []
  sourceTarget := []
  sourceTargetHost := []

/-- The persistent rule, alone. -/
def adsEngine : RuleEngine where
  defaultChain := bytes "Proxy"
  rules := [{
    name := bytes "block-ads", action := .block, domains := [bytes "ads.example"]
    suffixes := [], keywords := [], cidrs := [], sourceCidrs := [], ports := [], networks := []
    processes := [], ruleSets := [] }]
  needsProcess := false

theorem adsRule_accepted : adsRule ∈ (run step { limit := 128 } adsEvents).items := by
  decide +kernel

theorem adsEngine_compiled :
    ruleEngineCompile [adsRule.toSpec] (bytes "Proxy") { chains := [bytes "Proxy"] } =
      .ok adsEngine := by
  decide

theorem adsRule_canonical : Canonical adsRule :=
  ⟨by decide, by decide, ⟨by decide, by decide⟩, .inr (.inl rfl)⟩

end ClambHook.TemporaryRules
