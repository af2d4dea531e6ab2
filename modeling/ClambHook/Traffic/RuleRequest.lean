import ClambHook.Config.Rules
import ClambHook.Json
import ClambHook.Rules.Match

/-!
# Rules from observed connections

The traffic store remembers connections, and `ch_traffic_rule_request_json` of `traffic.c` turns one
of them into a request for a new rule: the action comes from the request or from the route that the
connection took, and the matcher from the host that the connection was decided for.
-/

namespace ClambHook.Traffic

open CString Inet Config Rules

/-! ## The store -/

/-- What `ch_traffic_connection_copy` gives of a connection, as far as rule requests read it. -/
structure Connection where
  connId : Bytes
  profile : Bytes
  chainName : Bytes
  groupName : Bytes
  ruleAction : Bytes
  target : Bytes
  targetHost : Bytes
  network : Bytes
  source : Bytes
deriving DecidableEq, Repr

/-- `runtime_listener_open_traffic`: a connection is remembered with the host of its decision.  A
blocked or direct connection has no chain, and that of a group is the one that the group chose. -/
def openTraffic (flowId : Nat) (profile : Bytes) (d : Decision)
    (network target source chainName : Bytes) :
    Connection where
  connId := bytes "native-" ++ decimal flowId
  profile := profile
  chainName := chainName
  groupName := d.groupName
  ruleAction := d.action
  target := target
  targetHost := d.host
  network := network
  source := source

/-- `ch_traffic_connection_copy`. -/
def connectionCopy (store : List Connection) (connId : Bytes) : Except Error Connection :=
  if connId = [] then
    .error (.set .invalidArgument (bytes "traffic connection identifier is required"))
  else
    match store.find? fun entry ↦ entry.connId == connId with
    | some entry => .ok entry
    | none => .error (.set .notFound (bytes "connection not found"))

/-! ## Hosts -/

/-- `traffic_rule_host`. -/
def ruleHost (value : Bytes) : Bytes :=
  lower ((stripBrackets (trim value)).rdropWhile (· == 46))

/-- `traffic_host_ip`: the text of an address as `inet_ntop` writes it, and its length in bits. -/
def hostIp (host : Bytes) : Option (Bytes × Nat) :=
  match pton4 host with
  | some address => some (ntop4 address, 32)
  | none => (pton6 host).map fun address ↦ (ntop6 address, 128)

/-- Suffixes under which names are registered, from the table of `traffic_domain_suffix`. -/
def broadSuffixes : List Bytes :=
  [bytes "co.uk", bytes "com.au", bytes "co.jp", bytes "com.br", bytes "com.cn", bytes "com.sg",
    bytes "co.nz"]

/-- From a position in a host back to the start of its label: what is in front of the label, and the
host from the label on.  The first argument is what is in front of the position, last byte first. -/
def labelStart : Bytes → Bytes → Bytes × Bytes
  | [], behind => ([], behind)
  | c :: front, behind => if c = 46 then (c :: front, behind) else labelStart front (c :: behind)

/-- One byte back, then back to the start of the label. -/
def labelBefore : Bytes → Bytes → Bytes × Bytes
  | [], behind => ([], behind)
  | c :: front, behind => labelStart front (c :: behind)

/-- `traffic_domain_suffix`: the last two labels, or three when the last two are a broad suffix. -/
def domainSuffix (host : Bytes) : Bytes :=
  match splitLast 46 host with
  | none | some ([], _) => host
  | some (front, last) =>
    let candidate := labelBefore front.reverse (46 :: last)
    if candidate.2 ∈ broadSuffixes ∧ candidate.1 ≠ [] then
      (labelBefore candidate.1 candidate.2).2
    else candidate.2

/-! ## Names -/

def isalnum (c : UInt8) : Bool :=
  isdigit c || (65 ≤ c && c ≤ 90) || (97 ≤ c && c ≤ 122)

/-- The loop of `traffic_rule_name` over the host; a run of other characters is one dash. -/
def nameLoop : Bytes → Bool → Bytes
  | [], _ => []
  | c :: host, dash =>
    if isalnum c then tolower c :: nameLoop host false
    else if dash then nameLoop host true
    else 45 :: nameLoop host true

/-- `traffic_rule_name`. -/
def ruleName (family host : Bytes) : Bytes :=
  (lower family ++ 45 :: nameLoop host false).rdropWhile (· == 45)

/-- `traffic_config_name_used`. -/
def configNameUsed (profile : Table) (name : Bytes) : Bool :=
  namedTableExists (arrayIn profile "rule") name

/-- The loop of `traffic_unique_rule_name`, with the number of suffixes that are left. -/
def uniqueSuffix (used : Bytes → Bool) (base : Bytes) : Nat → Nat → Option Bytes
  | 0, _ => none
  | left + 1, suffix =>
    let candidate := base ++ 45 :: decimal suffix
    if used candidate then uniqueSuffix used base left (suffix + 1) else some candidate

/-- `traffic_unique_rule_name`: the suffixes are those from 2 up to `UINT_MAX - 1`. -/
def uniqueRuleName (profile : Table) (base : Bytes) : Option Bytes :=
  if configNameUsed profile base then uniqueSuffix (configNameUsed profile) base (2 ^ 32 - 3) 2
  else some base

/-! ## Actions -/

/-- `traffic_default_chain`. -/
def defaultChain (profile : Table) : Option Bytes :=
  let tunChain := ((getTable profile (bytes "listen")).bind (getTable · (bytes "tun"))).bind
    (tableString · "chain")
  let first := ((arrayIn profile "chain").bind List.head?).bind fun item ↦
    match item with
    | .table chain => tableString chain "name"
    | _ => none
  (tunChain.filter (· ≠ [])).or first

/-- The chain that "allow" stands for. -/
def allowChain (connection : Connection) (profile : Table) : Option Bytes :=
  if connection.chainName = [] then defaultChain profile else some connection.chainName

/-- The case of `traffic_rule_action` that keeps the route of the connection. -/
def allowAction (connection : Connection) (profile : Table) : Except Error Bytes :=
  if strcaseeq connection.ruleAction (bytes "direct") then .ok (bytes "direct")
  else if connection.groupName ≠ [] then .ok (bytes "group:" ++ connection.groupName)
  else
    match allowChain connection profile with
    | none | some [] =>
      .error (.set .invalidArgument (bytes "profile has no chain for allow rule"))
    | some chain => .ok (bytes "chain:" ++ chain)

/-- Does the text start with the six bytes, with more behind them? -/
def names (kind : String) (text : Bytes) : Bool :=
  text.take 6 == bytes kind && text.drop 6 != []

/-- `traffic_rule_action`: the action and the family of names. -/
def ruleAction (connection : Connection) (profile : Table) (requested : Bytes) :
    Except Error (Bytes × Bytes) :=
  let text := lower (trim requested)
  if text = [] ∨ text = bytes "allow" then
    (allowAction connection profile).map fun action ↦ (action, bytes "allow")
  else if text = bytes "direct" then .ok (text, bytes "direct")
  else if text = bytes "block" ∨ text = bytes "reject" then .ok (text, bytes "block")
  else if names "chain:" text ∨ names "group:" text then .ok (text, bytes "proxy")
  else
    .error (.set .invalidArgument (bytes
      "action must be allow, direct, block, reject, chain:<name>, or group:<name>"))

/-! ## Requests -/

/-- The key that the matcher of a new rule stands under. -/
inductive MatchKey where
  | domains
  | domainSuffixes
  | cidrs
deriving DecidableEq, Repr

def MatchKey.text : MatchKey → Bytes
  | .domains => bytes "domains"
  | .domainSuffixes => bytes "domain_suffixes"
  | .cidrs => bytes "cidrs"

/-- A request for a new rule. -/
structure RuleMutation where
  profile : Bytes
  name : Bytes
  action : Bytes
  key : MatchKey
  value : Bytes
deriving DecidableEq, Repr

/-- The document that `ch_traffic_rule_request_json` writes. -/
def RuleMutation.toJson (m : RuleMutation) : Json :=
  .object [(bytes "profile", .string m.profile), (bytes "position", .string (bytes "append")),
    (bytes "rule", .object [(bytes "name", .string m.name), (bytes "action", .string m.action),
      (m.key.text, .array [.string m.value])])]

/-- The rule of the request, as the engine reads it. -/
def RuleMutation.toSpec (m : RuleMutation) : RuleSpec where
  name := m.name
  action := m.action
  domains := if m.key = .domains then [m.value] else []
  domainSuffixes := if m.key = .domainSuffixes then [m.value] else []
  cidrs := if m.key = .cidrs then [m.value] else []

/-- `traffic_request_string`. -/
def requestString (request : Json) (key : String) : Bytes :=
  trim ((Json.stringValue (Json.objectGet (some request) (bytes key))).getD [])

/-- The scope of a request, once "auto" is resolved. -/
inductive Scope where
  | exactHost
  | domainSuffix
  | cidr
deriving DecidableEq, Repr

def readScope (scope : Bytes) (isIp : Bool) : Option Scope :=
  if scope = [] ∨ strcaseeq scope (bytes "auto") then some (if isIp then .cidr else .exactHost)
  else if strcaseeq scope (bytes "exact_host") then some .exactHost
  else if strcaseeq scope (bytes "domain_suffix") then some .domainSuffix
  else if strcaseeq scope (bytes "cidr") then some .cidr
  else none

/-- The matcher for a host: names have no CIDR, and addresses nothing else. -/
def scopeMatcher (host : Bytes) : Scope → Option (MatchKey × Bytes)
  | .exactHost => if (hostIp host).isNone then some (.domains, host) else none
  | .domainSuffix =>
    if (hostIp host).isNone then some (.domainSuffixes, domainSuffix host) else none
  | .cidr => (hostIp host).map fun ip ↦ (.cidrs, ip.1 ++ 47 :: decimal ip.2)

def hostMatcher (host scope : Bytes) : Except Error (MatchKey × Bytes) :=
  match (readScope scope (hostIp host).isSome).bind (scopeMatcher host) with
  | some matcher => .ok matcher
  | none =>
    .error (.set .invalidArgument (bytes "scope is incompatible with the connection host"))

/-- `ch_config_profile_named`. -/
def profileNamed (config : List Table) (name : Bytes) : Option Table :=
  if name = [] then none else config.find? fun profile ↦ tableString profile "name" == some name

/-- The profile of a request: its own, that of the connection or the active one. -/
def requestProfile (requested : Bytes) (connection : Connection) (activeProfile : Option Bytes) :
    Except Error Bytes :=
  if requested ≠ [] then .ok requested
  else if connection.profile ≠ [] then .ok connection.profile
  else
    match activeProfile with
    | some profile => .ok profile
    | none => .error (.set .outOfMemory (bytes "copy rule profile"))

def findProfile (config : List Table) (name : Bytes) : Except Error Table :=
  match profileNamed config name with
  | some profile => .ok profile
  | none => .error (.set .notFound (bytes "profile " ++ name ++ bytes " not found"))

def requestHost (connection : Connection) : Except Error Bytes :=
  if ruleHost connection.targetHost = [] then
    .error (.set .invalidArgument (bytes "connection has no ruleable host"))
  else .ok (ruleHost connection.targetHost)

def requestName (profile : Table) (requested family host : Bytes) : Except Error Bytes :=
  match uniqueRuleName profile (if requested = [] then ruleName family host else requested) with
  | some name => .ok name
  | none => .error (.set .outOfMemory (bytes "build connection rule"))

def checkObject (request : Json) : Except Error Unit :=
  if request.isObject then .ok ()
  else .error (.set .invalidArgument (bytes "rule request must be a JSON object"))

/-- `ch_traffic_rule_request_json` on a request that was parsed. -/
def trafficRuleRequest (store : List Connection) (config : List Table)
    (activeProfile : Option Bytes) (request : Json) : Except Error RuleMutation := do
  checkObject request
  let connection ← connectionCopy store (requestString request "conn_id")
  let profileName ← requestProfile (requestString request "profile") connection activeProfile
  let profile ← findProfile config profileName
  let host ← requestHost connection
  let action ← ruleAction connection profile (requestString request "action")
  let matcher ← hostMatcher host (requestString request "scope")
  let name ← requestName profile (requestString request "name") action.2 host
  return ⟨profileName, name, action.1, matcher.1, matcher.2⟩

end ClambHook.Traffic
