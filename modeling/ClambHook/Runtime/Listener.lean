import ClambHook.Prompt.Action
import ClambHook.TemporaryRules.Store

/-!
# Routing a connection

`runtime_listener.c` decides what becomes of a connection that a listener has accepted.  Temporary
rules come first, then the rules of the profile, and a connection that no rule speaks about is put
to the user when prompts are enabled.  What is decided for a chain is dialled over the chain that
the rule names; the default decision goes over the chain of the listener, whatever chain the engine
itself takes for the default.

The process of a connection is looked up in the tables of the operating system, which is not
modelled: `ProcessInfo` is what the lookup gives.  Statistics and the dialling itself are left out.
-/

namespace ClambHook.Runtime

open CString Config Rules TemporaryRules

/-! ## Connections -/

/-- A `ch_process_info`.  The operating system gives the executable as a path from the root, and an
empty text when it cannot be read. -/
structure ProcessInfo where
  pid : Int
  path : Bytes
  codeSignId : Bytes := []
  codeSignStatus : Bytes := []
  rooted : path = [] ∨ 47 ∈ path

/-- The field `name`, which `ch_procattr_basename` takes from the path. -/
def ProcessInfo.name (p : ProcessInfo) : Bytes :=
  baseName p.path

/-- A connection that a listener has accepted, with what `ch_procattr_lookup` finds for it. -/
structure Arrival where
  network : Bytes
  target : Bytes
  source : Bytes
  process : Option ProcessInfo

/-- The match context of a connection whose process has been looked up. -/
def Arrival.context (a : Arrival) : MatchContext where
  network := a.network
  target := a.target
  source := a.source
  processName := (a.process.map ProcessInfo.name).getD []
  processPath := (a.process.map ProcessInfo.path).getD []

/-- The match context of a connection whose process nobody asks for. -/
def Arrival.bareContext (a : Arrival) : MatchContext where
  network := a.network
  target := a.target
  source := a.source

/-! ## Listeners -/

/-- The part of a `ch_runtime_listener_entry` that routes connections. -/
structure Entry where
  profileName : Bytes
  defaultChain : Bytes
  rules : RuleEngine
deriving DecidableEq, Repr

/-- `runtime_listener_default_chain`: the chain of the listener, or else the first one of the
profile. -/
def listenerDefaultChain (profile : Table) (listen : Option Table) (key : String) :
    Except Error Bytes :=
  let chosen := (listen.bind (tableString · key)).getD []
  if chosen ≠ [] then .ok chosen
  else
    match ((arrayIn profile "chain").bind List.head?).bind fun first ↦
        first.asTable.bind (tableString · "name") with
    | some name => .ok name
    | none => .error (.set .invalidArgument (bytes "listener profile has no default chain"))

/-! ## Decisions -/

/-- `ch_temporary_rules_needs_process`. -/
def temporaryNeedsProcess (store : Store) (clock : Clock) : Bool :=
  (temporaryPrune store clock).items.any (·.process != [])

/-- The prompt for a connection with the default decision. -/
def promptRequest (entry : Entry) (a : Arrival) (d : Decision) : Prompt.Request where
  connId := []
  profile := entry.profileName
  network := d.network
  target := d.target
  targetHost := d.host
  targetPort := d.port
  processPid := (a.process.map ProcessInfo.pid).getD 0
  processName := (a.process.map ProcessInfo.name).getD []
  processPath := (a.process.map ProcessInfo.path).getD []
  codeSignId := (a.process.map ProcessInfo.codeSignId).getD []
  codeSignStatus := (a.process.map ProcessInfo.codeSignStatus).getD []
  wouldUseChain := d.chainName
  wouldUseGroup := d.groupName
  source := a.source

/-- The decision for a connection that was blocked at a prompt. -/
def blockedByPrompt (d : Decision) : Decision :=
  { d with
    action := bytes "block"
    ruleName := bytes "interactive prompt"
    chainName := []
    groupName := []
    summary := bytes "blocked by interactive prompt" }

/-- What `runtime_listener_decide` finds around it: the temporary rules, whether prompts are
enabled, and how `ch_prompt_manager_await` returns (whether the connection is gated at all, and the
verdict). -/
structure Surroundings where
  temporary : Store
  clock : Clock
  promptsEnabled : Bool
  await : Prompt.Request → Except Error (Bool × Bool)

/-- `runtime_listener_decide`.  The process is looked up if someone asks for it. -/
def listenerDecide (entry : Entry) (around : Surroundings) (a : Arrival) : Except Error Decision :=
  let asked := entry.rules.needsProcess || temporaryNeedsProcess around.temporary around.clock ||
    around.promptsEnabled
  let context := if asked then a.context else a.bareContext
  match (temporaryRulesDecide around.temporary entry.profileName context
      around.clock).2 with
  | some decision => .ok decision
  | none =>
    let decision := ruleEngineDecide entry.rules context
    if decision.isDefault && around.promptsEnabled then
      match around.await (promptRequest entry a decision) with
      | .error e => .error e
      | .ok (gated, allow) => .ok (if gated && !allow then blockedByPrompt decision else decision)
    else .ok decision

/-! ## Routes -/

/-- What becomes of a connection. -/
inductive Route where
  | block
  | reject
  | direct
  | chain (name : Bytes)
deriving DecidableEq, Repr

/-- `runtime_decision_chain`.  `select` is `ch_policy_manager_select` for the connection. -/
def decisionChain (entry : Entry) (select : Bytes → Except Error Bytes) (d : Decision) :
    Except Error Bytes := do
  let chain ←
    if d.action = bytes "group" then select d.groupName
    else .ok (if d.isDefault then entry.defaultChain else d.chainName)
  if chain = [] then .error (.set .invalidArgument (bytes "route has no selected chain"))
  else .ok chain

/-- The route that `runtime_listener_dial_targets` takes for a decision. -/
def routeOf (entry : Entry) (select : Bytes → Except Error Bytes) (d : Decision) :
    Except Error Route :=
  if d.action = bytes "block" then .ok .block
  else if d.action = bytes "reject" then .ok .reject
  else if d.action = bytes "direct" then .ok .direct
  else (decisionChain entry select d).map .chain

/-- What becomes of a connection at a listener. -/
def listenerRoute (entry : Entry) (around : Surroundings) (select : Bytes → Except Error Bytes)
    (a : Arrival) : Except Error Route := do
  let decision ← listenerDecide entry around a
  routeOf entry select decision

end ClambHook.Runtime
