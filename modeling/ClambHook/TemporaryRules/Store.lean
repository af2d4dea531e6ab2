import ClambHook.Lib.Machine
import ClambHook.Traffic.RuleRequest

/-!
# Temporary rules

`temporary_rules.c` keeps rules that last for some time or until a process quits, newest first.
They are consulted before the rule engine, with a matcher of their own: `ch_temporary_rules_decide`
splits targets, compares texts and reads actions in its own way.

Allocations succeed.  Time is passed in, and so is which processes are gone.
-/

namespace ClambHook.TemporaryRules

open CString Inet Rules Traffic Json

/-! ## Rules -/

inductive MatchKind where
  | none
  | domain
  | suffix
  | cidr
deriving DecidableEq, Repr

/-- A `temporary_rule`. -/
structure TemporaryRule where
  id : Bytes := []
  profile : Bytes
  name : Bytes
  action : Bytes
  matchKind : MatchKind
  matchValue : Bytes
  process : Bytes
  network : Bytes
  port : Bytes
  untilQuitPid : Int := 0
  createdNs : Int := 0
  expiresNs : Int := 0
  sourceConnId : Bytes
  sourceTarget : Bytes
  sourceTargetHost : Bytes
deriving DecidableEq, Repr

/-- `temporary_request_string`. -/
def temporaryRequestString (object : Option Json) (key : String) : Bytes :=
  (stringValue (objectGet object (bytes key))).getD []

/-- `temporary_first_string`. -/
def temporaryFirstString (object : Option Json) (key : String) : Bytes :=
  (stringValue (items (objectGet object (bytes key))).head?).getD []

/-- `temporary_first_port`: `none` for a port that is no integer from 1 to 65535. -/
def temporaryFirstPort (object : Option Json) : Option Bytes :=
  match (items (objectGet object (bytes "ports"))).head? with
  | none => some []
  | some value =>
    let number := numberValue (some value) (-1)
    if number < 1 ∨ number > 65535 ∨ number.den ≠ 1 then none else some (decimal number.num.toNat)

/-- The first of the three matcher arrays that has elements, and its first element. -/
def firstMatcher (rule : Option Json) : MatchKind × Bytes :=
  let first := fun key : String ↦ (items (objectGet rule (bytes key))).head?
  match first "domains", first "domain_suffixes", first "cidrs" with
  | some value, _, _ => (.domain, (stringValue (some value)).getD [])
  | none, some value, _ => (.suffix, (stringValue (some value)).getD [])
  | none, none, some value => (.cidr, (stringValue (some value)).getD [])
  | none, none, none => (.none, [])

def defaultTtl : Int := 900
def maxTtl : Int := 86400

def ttlTooLong : Error :=
  .set .invalidArgument (bytes "ttl_seconds must be at most 86400")

/-- The lifetime of a request, in whole seconds. -/
def requestTtl (request : Json) : Except Error Int :=
  let ttl := numberValue (objectGet (some request) (bytes "ttl_seconds")) defaultTtl
  let seconds := if ttl ≤ 0 then defaultTtl else ttl.floor
  if seconds > maxTtl then .error ttlTooLong else .ok seconds

/-- The target and the host of the connection that a rule comes from: from the traffic store, or
from the request. -/
def requestSource (request : Json) (traffic : Option (List Connection)) :
    Except Error (Bytes × Bytes) :=
  match traffic with
  | none => .ok (temporaryRequestString (some request) "source_target",
      temporaryRequestString (some request) "source_target_host")
  | some store =>
    if temporaryRequestString (some request) "conn_id" = [] then
      .error (.set .invalidArgument (bytes "connection identifier is required"))
    else
      (connectionCopy store (temporaryRequestString (some request) "conn_id")).map fun connection ↦
      (connection.target, connection.targetHost)

def mutationRule (mutation : Json) : Except Error Json :=
  match objectGet (some mutation) (bytes "rule") with
  | some (.object members) => .ok (.object members)
  | _ => .error (.set .parse (bytes "connection rule response has no rule"))

/-- The last checks of `temporary_rule_from_request`.  They report what a failed allocation does. -/
def checkRule (rule : TemporaryRule) : Except Error Unit :=
  if rule.profile = [] ∨ rule.name = [] ∨ rule.action = [] ∨
      (rule.matchValue = [] ∧ rule.process = []) then
    .error (.set .outOfMemory (bytes "copy temporary rule"))
  else .ok ()

def checkPort (port : Option Bytes) : Except Error Bytes :=
  match port with
  | some port => .ok port
  | none => .error (.set .outOfMemory (bytes "copy temporary rule"))

/-- `temporary_rule_from_request` on documents that were parsed. -/
def temporaryRuleFromRequest (mutation request : Json) (traffic : Option (List Connection)) :
    Except Error (TemporaryRule × Int) := do
  let rule ← mutationRule mutation
  let source ← requestSource request traffic
  let ttl ← requestTtl request
  let port ← checkPort (temporaryFirstPort (some rule))
  let next : TemporaryRule := {
    profile := temporaryRequestString (some mutation) "profile"
    name := temporaryRequestString (some rule) "name"
    action := temporaryRequestString (some rule) "action"
    matchKind := (firstMatcher (some rule)).1
    matchValue := (firstMatcher (some rule)).2
    process := temporaryFirstString (some rule) "processes"
    network := temporaryFirstString (some rule) "networks"
    port := port
    sourceConnId := temporaryRequestString (some request) "conn_id"
    sourceTarget := source.1
    sourceTargetHost := source.2 }
  checkRule next
  return (next, ttl)

/-! ## The store -/

/-- A `ch_temporary_rules`. -/
structure Store where
  items : List TemporaryRule := []
  limit : Nat
  sequence : Nat := 0
deriving DecidableEq, Repr

/-- `ch_temporary_rules_create`. -/
def create (limit : Nat) : Except Error Store :=
  let limit := if limit = 0 then 128 else limit
  if limit > 1024 then
    .error (.set .invalidArgument (bytes "temporary rule limit exceeds 1024"))
  else .ok { limit := limit }

/-- The time, and whether a process is gone (`kill` reports `ESRCH`). -/
structure Clock where
  now : Int
  exited : Int → Bool

/-- The rule is kept by `temporary_prune_locked`. -/
def TemporaryRule.live (rule : TemporaryRule) (clock : Clock) : Bool :=
  !(rule.expiresNs ≤ clock.now || (rule.untilQuitPid > 0 && clock.exited rule.untilQuitPid))

/-- `temporary_prune_locked`. -/
def temporaryPrune (store : Store) (clock : Clock) : Store :=
  { store with items := store.items.filter (·.live clock) }

/-- The rule with the stamps that `temporary_insert_json` gives it. -/
def stamp (rule : TemporaryRule) (sequence : Nat) (ttlSeconds untilQuitPid now : Int) :
    TemporaryRule :=
  { rule with
    id := bytes "temporary-" ++ decimal sequence ++ bytes "-" ++ decimalInt now
    createdNs := now
    expiresNs := now + ttlSeconds * 1000000000
    untilQuitPid := untilQuitPid }

/-- `temporary_insert_json`: in front of the others, of which the oldest goes when the store is
full. -/
def temporaryInsert (store : Store) (rule : TemporaryRule) (ttlSeconds untilQuitPid : Int)
    (clock : Clock) :
    Store :=
  let store := temporaryPrune store clock
  let sequence := (store.sequence + 1) % 2 ^ 64
  let kept := if store.items.length = store.limit then store.items.dropLast else store.items
  { store with
    items := stamp rule sequence ttlSeconds untilQuitPid clock.now :: kept
    sequence := sequence }

/-- `ch_temporary_rules_create_from_connection_json`. -/
def createFromConnection (store : Store) (traffic : List Connection) (config : List Config.Table)
    (activeProfile : Option Bytes) (request : Json) (clock : Clock) : Except Error Store := do
  let mutation ← trafficRuleRequest traffic config activeProfile request
  let rule ← temporaryRuleFromRequest mutation.toJson request (some traffic)
  return temporaryInsert store rule.1 rule.2 0 clock

/-- The lifetime of a rule that is created directly. -/
def ruleTtl (ttlSeconds untilQuitPid : Int) : Except Error Int :=
  let seconds :=
    if ttlSeconds ≤ 0 then (if untilQuitPid > 0 then maxTtl else defaultTtl) else ttlSeconds
  if seconds > maxTtl then .error ttlTooLong else .ok seconds

/-- `ch_temporary_rules_create_from_rule_json`. -/
def createFromRule (store : Store) (mutation : Json) (ttlSeconds untilQuitPid : Int)
    (sourceConnId sourceTarget sourceTargetHost : Bytes) (clock : Clock) : Except Error Store := do
  let ttl ← ruleTtl ttlSeconds untilQuitPid
  let rule ← temporaryRuleFromRequest mutation (.object [(bytes "conn_id", .string sourceConnId),
    (bytes "source_target", .string sourceTarget),
    (bytes "source_target_host", .string sourceTargetHost), (bytes "ttl_seconds", .ofInt ttl)]) none
  return temporaryInsert store rule.1 rule.2 untilQuitPid clock

/-- `ch_temporary_rules_remove_json`: the store after pruning and, if there is one, without the
first rule of that identifier. -/
def remove (store : Store) (request : Json) (clock : Clock) : Store × Except Error Unit :=
  let id := temporaryRequestString (some request) "id"
  if id = [] then
    (store, .error (.set .invalidArgument (bytes "temporary rule identifier is required")))
  else
    let pruned := temporaryPrune store clock
    if pruned.items.any (·.id == id) then
      ({ pruned with items := pruned.items.eraseP (·.id == id) }, .ok ())
    else (pruned, .error (.set .notFound (bytes "temporary rule not found")))

/-! ## Matching -/

/-- `temporary_split_target`. -/
def temporarySplitTarget (target : Bytes) : Bytes × Bytes :=
  if target.head? = some 91 then
    match splitFirst 93 target.tail with
    | some (host, 58 :: port) => (lower host, port)
    | some (host, _) => (lower host, [])
    | none => (lower target.tail, [])
  else
    match splitLast 58 target with
    | some (host, port) => if 58 ∈ host then (lower target, []) else (lower host, port)
    | none => (lower target, [])

/-- `temporary_cidr_matches`. -/
def temporaryCidrMatches (cidr host : Bytes) : Bool :=
  match splitLast 47 cidr with
  | none => false
  | some (text, prefixText) =>
    let read := strtol prefixText
    let family : Family := if 58 ∈ text then .inet6 else .inet
    match pton family text, pton family host with
    | some network, some address =>
      read.rest != prefixText && read.rest == [] && decide (0 ≤ read.value) &&
        decide (read.value ≤ family.bits) &&
        let whole := read.value.toNat / 8
        let remainder := read.value.toNat % 8
        let mask : UInt8 := (0xff <<< (8 - remainder)).toUInt8
        (whole == 0 || network.take whole == address.take whole) &&
          (remainder == 0 || decide (network.length ≤ whole) ||
            (network.getD whole 0 &&& mask) == (address.getD whole 0 &&& mask))
    | _, _ => false

/-- `temporary_matches`. -/
def temporaryMatches (kind : MatchKind) (value host : Bytes) : Bool :=
  match kind with
  | .none => true
  | .domain => strcaseeq value host
  | .suffix =>
    if host.length = value.length then strcaseeq host value
    else decide (value.length < host.length) &&
      host[host.length - value.length - 1]? == some 46 &&
      strcaseeq (host.drop (host.length - value.length)) value
  | .cidr => temporaryCidrMatches value host

/-- Does the loop of `ch_temporary_rules_decide` take the rule? -/
def matchesContext (rule : TemporaryRule) (profile : Bytes) (context : MatchContext)
    (host port : Bytes) : Bool :=
  rule.profile == profile &&
    (rule.process == [] || rule.process == context.processPath ||
      rule.process == context.processName) &&
    (rule.network == [] || strcaseeq rule.network context.network) &&
    (rule.port == [] || rule.port == port) &&
    temporaryMatches rule.matchKind rule.matchValue host

/-- The name of the action, the chain and the group of a decision.  The buffer for the name holds 15
bytes. -/
def readAction (action : Bytes) : Bytes × Bytes × Bytes :=
  if strcaseeq (action.take 6) (bytes "chain:") then (bytes "chain", action.drop 6, [])
  else if strcaseeq (action.take 6) (bytes "group:") then (bytes "group", [], action.drop 6)
  else (action.take 15, [], [])

def MatchKind.text : MatchKind → Bytes
  | .none => bytes "process"
  | .domain => bytes "domain"
  | .suffix => bytes "domain_suffix"
  | .cidr => bytes "cidr"

/-- `temporary_decision_copy`.  The buffer for the summary holds 511 bytes. -/
def temporaryDecision (rule : TemporaryRule) (context : MatchContext) (host port : Bytes) :
    Decision :=
  let action := readAction rule.action
  let value := if rule.matchKind = .none then rule.process else rule.matchValue
  { ruleName := rule.name, ruleNumber := 1
    action := action.1, chainName := action.2.1, groupName := action.2.2
    target := context.target, host := host, port := port, network := context.network
    source := context.source, isDefault := false
    matcherKind := rule.matchKind.text, matcherValue := value
    summary := (bytes "Temporary rule \"" ++ rule.name ++ bytes "\" matched " ++
      rule.matchKind.text ++ bytes " \"" ++ value ++ bytes "\".").take 511 }

/-- `ch_temporary_rules_decide`: the store after pruning, and the decision of the first rule that
matches. -/
def temporaryRulesDecide (store : Store) (profile : Bytes) (context : MatchContext)
    (clock : Clock) :
    Store × Option Decision :=
  let store := temporaryPrune store clock
  let (host, port) := temporarySplitTarget context.target
  (store, (store.items.find? (matchesContext · profile context host port)).map
    (temporaryDecision · context host port))

end ClambHook.TemporaryRules
