import ClambHook.Basic
import Mathlib.Data.List.MinMax
import Mathlib.Data.List.Nodup

/-!
# Policy groups

A policy group (`policy.c`) has a list of member chains and picks one of them for every connection:
by hand, by health, by latency or by a hash of the request.  Probes give each chain a result; a
selection is remembered in the group.

A `Group` is what `ch_policy_copy_group` builds from a validated configuration: it has at least one
member, the names of its members are distinct, the remembered selection is one of them, and the
members are fewer than 2³¹, since the configuration library counts them in an `int`.  Every
operation keeps this, so it is part of the type.
-/

namespace ClambHook.Policy

open CString List

/-- The group types that the configuration admits. -/
inductive GroupType where
  | select
  | urlTest
  | fallback
  | loadBalance
  | smart
deriving DecidableEq, Repr

/-- The reasons that a selection is reported with. -/
inductive Reason where
  | manual
  | firstHealthy
  | noHealthyFallback
  | stableHash
  | lowestLatency
  | stickyHealthy
  | betterLatency
deriving DecidableEq, Repr

/-- The part of a `ch_policy_probe_result` that a selection reads.  A latency is the difference of
two readings of the monotonic clock, in nanoseconds: 2⁶² of them are 146 years. -/
structure ProbeResult where
  healthy : Bool
  latencyNs : Int
  latency_le : |latencyNs| ≤ 2 ^ 62 := by decide
deriving DecidableEq, Repr

/-- `ch_policy_chain_state`; `result` is `none` while `has_result` is 0. -/
structure Chain where
  name : Bytes
  udpCapable : Bool
  udpError : Bytes := []
  result : Option ProbeResult := none
deriving DecidableEq, Repr

/-- `ch_policy_group_state`. -/
structure Group where
  name : Bytes
  type : GroupType
  chains : List Chain
  selectedChain : Bytes
  selectionReason : Reason
  updatedTsNs : Int := 0
  chains_ne_nil : chains ≠ [] := by decide
  names_nodup : (chains.map Chain.name).Nodup := by decide
  length_lt : chains.length < 2 ^ 31 := by decide
  selected_mem : selectedChain ∈ chains.map Chain.name := by decide

/-! ## Searching the members -/

/-- The `udp_only` of a request. -/
def isUdp (network : Bytes) : Bool :=
  strcaseeq network (bytes "udp")

/-- `ch_policy_chain_eligible`. -/
def Chain.eligible (udpOnly : Bool) (c : Chain) : Bool :=
  !udpOnly || c.udpCapable

/-- `has_result && result.healthy`. -/
def Chain.healthy (c : Chain) : Bool :=
  c.result.any fun r ↦ r.healthy

/-- `ch_policy_first_eligible`; `none` is `SIZE_MAX`. -/
def firstEligible (chains : List Chain) (udpOnly : Bool) : Option Nat :=
  chains.findIdx? fun c ↦ c.eligible udpOnly

/-- `ch_policy_chain_index`. -/
def chainIndex (chains : List Chain) (name : Bytes) : Option Nat :=
  chains.findIdx? fun c ↦ c.name = name

/-- `ch_policy_lowest_latency`: the loop carries the best index so far with its latency. -/
def lowestLatency (chains : List Chain) (udpOnly : Bool) : Option Nat :=
  (chains.zipIdx.foldl (fun best c ↦
    match c.1.result with
    | none => best
    | some r =>
      if !c.1.eligible udpOnly || !r.healthy then best
      else
        match best with
        | none => some (c.2, r.latencyNs)
        | some (index, latency) =>
          if r.latencyNs < latency then some (c.2, r.latencyNs) else some (index, latency))
    (none : Option (Nat × Int))).map Prod.fst

/-- The second loop of a load-balance group: the index of the eligible healthy chain with `wanted`
such chains in front of it. -/
def nthHealthy (udpOnly : Bool) : List Chain → Nat → Nat → Option Nat
  | [], _, _ => none
  | c :: chains, index, wanted =>
    if c.eligible udpOnly && c.healthy then
      if wanted = 0 then some index else nthHealthy udpOnly chains (index + 1) (wanted - 1)
    else nthHealthy udpOnly chains (index + 1) wanted

/-- The inner loop of `ch_policy_fnv1a` over one part of the request. -/
def fnvPart (hash : UInt32) (part : Bytes) : UInt32 :=
  part.foldl (fun hash b ↦ (hash ^^^ b.toUInt32) * 16777619) hash

/-- `ch_policy_fnv1a`: upper-case letters of the network count as lower-case ones. -/
def fnv1a (source network target : Bytes) : UInt32 :=
  [source, [124], lower network, [124], target].foldl fnvPart 2166136261

/-! ## Choosing -/

/-- The last part of `ch_policy_choose_locked`, for the types that go by latency: a smart group
keeps the remembered chain unless the fastest one is better by a margin. -/
def chooseByLatency (g : Group) (udpOnly : Bool) : Option Nat × Reason :=
  match lowestLatency g.chains udpOnly with
  | none => (firstEligible g.chains udpOnly, .noHealthyFallback)
  | some best =>
    if g.type ≠ .smart then (some best, .lowestLatency)
    else
      match chainIndex g.chains g.selectedChain with
      | none => (some best, .lowestLatency)
      | some current =>
        match g.chains[current]?, g.chains[best]? with
        | some c, some b =>
          match c.result, b.result with
          | some r, some r' =>
            if !c.eligible udpOnly || !r.healthy then (some best, .lowestLatency)
            else if current = best then (some current, .stickyHealthy)
            else
              let delta := r.latencyNs - r'.latencyNs
              let threshold := r.latencyNs.tdiv 5
              let threshold := if threshold < 50000000 then 50000000 else threshold
              if delta ≥ threshold then (some best, .betterLatency)
              else (some current, .stickyHealthy)
          | _, _ => (some best, .lowestLatency)
        | _, _ => (some best, .lowestLatency)

/-- `ch_policy_choose_locked`: the index of the chosen chain, and the reason. -/
def chooseLocked (g : Group) (network target source : Bytes) : Option Nat × Reason :=
  let udpOnly := isUdp network
  match g.type with
  | .select => (chainIndex g.chains g.selectedChain, .manual)
  | .fallback =>
    match g.chains.findIdx? fun c ↦ c.eligible udpOnly && c.healthy with
    | some index => (some index, .firstHealthy)
    | none => (firstEligible g.chains udpOnly, .noHealthyFallback)
  | .loadBalance =>
    let healthyCount := g.chains.countP fun c ↦ c.eligible udpOnly && c.healthy
    if healthyCount = 0 then (firstEligible g.chains udpOnly, .noHealthyFallback)
    else
      let wanted := (fnv1a source network target % healthyCount.toUInt32).toNat
      match nthHealthy udpOnly g.chains 0 wanted with
      | some index => (some index, .stableHash)
      | none => chooseByLatency g udpOnly
  | .urlTest | .smart => chooseByLatency g udpOnly

theorem mem_names_of_bind {chains : List Chain} {selected : Option Nat} {c : Chain}
    (h : selected.bind (chains[·]?) = some c) : c.name ∈ chains.map Chain.name := by
  obtain ⟨i, -, hi⟩ := Option.bind_eq_some_iff.1 h
  exact mem_map_of_mem (mem_of_getElem? hi)

/-- `ch_policy_set_selection_locked`. -/
def setSelectionLocked (g : Group) (selected : Option Nat) (reason : Reason) (now : Int) : Group :=
  match h : selected.bind (g.chains[·]?) with
  | some c =>
    { g with
      selectedChain := c.name
      selectionReason := reason
      updatedTsNs := now
      selected_mem := mem_names_of_bind h }
  | none => { g with selectionReason := reason, updatedTsNs := now }

/-- `ch_policy_manager`, as its groups. -/
abbrev Manager := List Group

/-- `ch_policy_manager_select`: the name of the selected chain, and the manager that remembers
it. -/
def managerSelect (m : Manager) (groupName network target source : Bytes) (now : Int) :
    Except Error Bytes × Manager :=
  match m.findIdx? fun g ↦ g.name = groupName with
  | none =>
    (.error (.set .notFound (bytes "policy group " ++ groupName ++ bytes " not found")), m)
  | some position =>
    match m[position]? with
    | none => (.error (.set .internal []), m)
    | some g =>
      let (selected, reason) := chooseLocked g network target source
      match selected.bind (g.chains[·]?) with
      | none =>
        (.error (.set .unsupported (bytes "policy group " ++ groupName ++ bytes " has no " ++
          bytes (if isUdp network then "UDP" else "route") ++ bytes "-capable member chains")), m)
      | some c =>
        if isUdp network && !c.udpCapable then
          (.error (.set .unsupported (bytes "policy group " ++ groupName ++
            bytes " selected chain " ++ c.name ++ bytes " is not UDP-capable" ++
            (if c.udpError = [] then [] else bytes ": " ++ c.udpError))), m)
        else (.ok c.name, m.set position (setSelectionLocked g selected reason now))

end ClambHook.Policy
