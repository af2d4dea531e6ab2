import ClambHook.Config.Document
import ClambHook.Json.RoundTrip
import ClambHook.Prompt.Model
import ClambHook.Traffic.RuleRequest

/-!
# Answers to prompts

The request that answers a prompt, and the rule that an answer is remembered as:
`ch_prompt_action_options_parse`, `ch_prompt_manager_silent_decision` and
`ch_prompt_rule_request_json` of `prompt.c`.  Allocations succeed.
-/

namespace ClambHook.Prompt

open CString Config Json

/-! ## Options -/

/-- How long an answer lasts. -/
inductive Scope where
  | once
  | session
  | untilQuit
  | forever
deriving DecidableEq, Repr

def Scope.read (text : Bytes) : Option Scope :=
  if strcaseeq text (bytes "once") then some .once
  else if strcaseeq text (bytes "session") then some .session
  else if strcaseeq text (bytes "until_quit") then some .untilQuit
  else if strcaseeq text (bytes "forever") then some .forever
  else none

/-- A `ch_prompt_action_options`.  The scope is kept as a text there and compared without case. -/
structure ActionOptions where
  id : Bytes
  scope : Scope
  allow : Bool
  matchHost : Bool
  matchPort : Bool
  matchProtocol : Bool
  ttlSeconds : Int
deriving DecidableEq, Repr

/-- The texts that the action may have. -/
def readAction (action : Option Bytes) : Option Bool :=
  action.bind fun text ↦
    if strcaseeq text (bytes "allow") then some true
    else if strcaseeq text (bytes "block") then some false
    else none

/-- `ch_prompt_action_options_parse`.  An answer to a pending prompt has to say what it is; a silent
decision was made before. -/
def actionOptionsParse (payload : Bytes) (requireAction : Bool) : Except Error ActionOptions := do
  let request ← parse payload
  let get := fun key : String ↦ objectGet (some request) (bytes key)
  let id := (stringValue (get "id")).getD []
  let scope := (stringValue (get "scope")).getD []
  let ttl := numberValue (get "ttl_seconds") 0
  if id = [] then .error (.set .invalidArgument (bytes "prompt identifier is required"))
  else if ttl < 0 ∨ ttl > 86400 ∨ ttl.den ≠ 1 then
    .error (.set .invalidArgument (bytes "ttl_seconds must be an integer from 0 to 86400"))
  else
    let default := if requireAction then Scope.once else .session
    match if scope = [] then some default else Scope.read scope with
    | none =>
      .error (.set .invalidArgument (bytes "scope must be once, session, until_quit, or forever"))
    | some scope =>
      let action := readAction (stringValue (get "action"))
      if requireAction ∧ action = none then
        .error (.set .invalidArgument (bytes "action must be allow or block"))
      else .ok {
        id := id
        scope := scope
        allow := requireAction && action.getD false
        matchHost := boolValue (get "match_host") false
        matchPort := boolValue (get "match_port") false
        matchProtocol := boolValue (get "match_protocol") false
        ttlSeconds := ttl.num }

/-! ## Silent decisions -/

/-- `ch_prompt_manager_silent_decision`. -/
def silentDecision (m : Manager) (id : Bytes) : Except Error Silent :=
  match m.silent.find? fun s ↦ s.snapshot.id == id with
  | some s => .ok s
  | none => .error (.set .notFound (bytes "silent decision not found"))

/-! ## Remembered rules -/

/-- The process that a remembered rule is for: the path, or else the name. -/
def ruleProcess (r : Request) : Bytes :=
  if r.processPath ≠ [] then r.processPath else r.processName

/-- The first chain of a profile, by name. -/
def firstChain (root : Table) (profile : Bytes) : Option Bytes :=
  let chains := (Traffic.profileNamed ((profileElements root).filterMap Value.asTable) profile).bind
    (arrayIn · "chain")
  (chains.bind List.head?).bind fun chain ↦ chain.asTable.bind (tableString · "name")

/-- The action of a remembered rule.  What is allowed goes over the first chain of the profile. -/
def ruleAction (r : Request) (root : Table) (allow : Bool) : Bytes :=
  if allow then
    match firstChain root r.profile with
    | some chain => bytes "chain:" ++ chain
    | none => bytes "direct"
  else bytes "block"

/-- The port that a remembered rule is for, if the text of the prompt is one. -/
def rulePort (text : Bytes) : Option Int :=
  let read := strtol text
  if read.rest ≠ text ∧ read.rest = [] ∧ 0 < read.value ∧ read.value ≤ 65535 then some read.value
  else none

def ruleName (r : Request) (allow matchHost : Bool) : Bytes :=
  let label := if r.processName ≠ [] then r.processName else ruleProcess r
  bytes "prompt " ++ (if allow then bytes "allow" else bytes "block") ++ bytes " " ++ label ++
    if matchHost ∧ r.targetHost ≠ [] then bytes " " ++ r.targetHost else []

/-- The members of a remembered rule.  A property that the prompt does not have is left out, also
when the answer asks for it. -/
def ruleMembers (r : Request) (root : Table) (o : ActionOptions) (allow : Bool) :
    List (Bytes × Json) :=
  [(bytes "name", .string (ruleName r allow o.matchHost)),
    (bytes "action", .string (ruleAction r root allow)),
    (bytes "processes", .array [.string (ruleProcess r)])] ++
  (if o.matchHost ∧ r.targetHost ≠ [] then [(bytes "domains", .array [.string r.targetHost])]
    else []) ++
  (match if o.matchPort then rulePort r.targetPort else none with
    | some port => [(bytes "ports", .array [newInt64 port])]
    | none => []) ++
  (if o.matchProtocol ∧ r.network ≠ [] then [(bytes "networks", .array [.string r.network])]
    else [])

/-- The document that `ch_prompt_rule_request_json` writes. -/
def ruleRequest (r : Request) (root : Table) (o : ActionOptions) (allow : Bool) : Json :=
  .object [(bytes "profile", .string r.profile),
    (bytes "rule", .object (ruleMembers r root o allow)),
    (bytes "position", .string (if allow then bytes "append" else bytes "prepend"))]

/-- `ch_prompt_rule_request_json`. -/
def ruleRequestJson (r : Request) (config : Option Parsed) (o : ActionOptions) (allow : Bool) :
    Except Error Json :=
  match config with
  | none => .error (.set .invalidArgument (bytes "prompt snapshot and config are required"))
  | some config =>
    if ruleProcess r = [] then
      .error (.set .invalidArgument (bytes "prompt has no attributed process to remember"))
    else .ok (ruleRequest r config.root o allow)

/-! ## What is in a request -/

theorem rulePort_eq_some {text : Bytes} {port : Int} (h : rulePort text = some port) :
    1 ≤ port ∧ port ≤ 65535 := by
  rw [rulePort] at h
  split at h
  · next hread =>
    cases h
    exact ⟨hread.2.2.1, hread.2.2.2⟩
  · cases h

/-- What the options of a request satisfy. -/
theorem actionOptionsParse_eq_ok {payload : Bytes} {requireAction : Bool} {o : ActionOptions}
    (h : actionOptionsParse payload requireAction = .ok o) :
    o.id ≠ [] ∧ 0 ≤ o.ttlSeconds ∧ o.ttlSeconds ≤ 86400 := by
  rw [actionOptionsParse, bind_eq_ok_iff] at h
  obtain ⟨request, -, h⟩ := h
  dsimp only at h
  split at h
  · cases h
  next hid =>
  split at h
  · cases h
  next httl =>
  split at h
  · cases h
  split at h
  · cases h
  cases h
  simp only [not_or, not_lt, not_not] at httl
  obtain ⟨hmin, hmax, hden⟩ := httl
  have hnum := (Rat.den_eq_one_iff _).1 hden
  rw [← hnum] at hmin hmax
  exact ⟨hid, by exact_mod_cast hmin, by exact_mod_cast hmax⟩

/-- The ports of a remembered rule, as its readers see them. -/
theorem lookup_ports_ruleMembers (r : Request) (root : Table) (o : ActionOptions) (allow : Bool) :
    (ruleMembers r root o allow).lookup (bytes "ports") =
      (if o.matchPort then rulePort r.targetPort else none).map
        fun port ↦ .array [newInt64 port] := by
  rw [ruleMembers]
  generalize (if o.matchPort then rulePort r.targetPort else none) = port
  cases port <;> dsimp only <;> split <;> split <;> rfl

theorem numberValue_newInt64 {port : Int} (hmin : 1 ≤ port) (hmax : port ≤ 65535) (fallback : Rat) :
    numberValue (some (newInt64 port)) fallback = port := by
  refine Binary64.round_intCast ?_
  rw [abs_lt]
  omega

end ClambHook.Prompt
