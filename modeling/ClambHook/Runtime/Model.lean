import ClambHook.ConfigFile.Write
import ClambHook.Prompt.Action
import ClambHook.TemporaryRules.Store

/-!
# The runtime

`runtime.c` owns everything else.  One thread takes commands from a queue and carries them out one
after the other: it starts and stops the services (the listeners, the DNS proxy and the packet
stack), loads the configuration, edits its file, and answers prompts.  A command that fails tries to
put back what it has changed.

The state holds what these commands change, and `Environment` the outcomes of the calls that the
state does not determine: reading the file, opening listeners, and so on.  Where a command calls
something once on its way forward and once more on its way back, the two have outcomes of their own.
The parser and the editors of configuration documents are taken as functions (`Library`), since the
order of events does not depend on what they do.

Memory is never exhausted.  The traffic store, the developer manager and the network watcher have no
part of the state: the commands below only configure, stop or read them.
-/

namespace ClambHook.Runtime

open CString Config ConfigFile TemporaryRules Prompt

/-! ## The state -/

/-- The functions of other components that the runtime calls. -/
structure Library where
  /-- `ch_config_parse`. -/
  parse : Bytes → Except Error Table
  /-- `ch_config_document_set_active`. -/
  setActive : Parsed → Bytes → Except Error Bytes
  /-- `ch_config_mutate_document_json` with a configuration, the profile to fall back to, the
  operation and the request. -/
  mutate : Parsed → Bytes → Mutation → Bytes → Except Error Bytes
  /-- `ch_config_query_payload_json` behind the choice of the profile. -/
  payload : Option Parsed → Bytes → Query → Bytes → Except Error Bytes
  /-- `ch_config_merge_reviewed_import_document`. -/
  mergeReviewedImport : Option Parsed → Bytes → Except Error Bytes
  /-- `ch_profile_converter_import_request_json`. -/
  convertImport : Option Parsed → Bytes → Except Error Bytes

/-- What a service was built from. -/
structure Origin where
  config : Option Parsed
  profile : Bytes

/-- The services of a runtime: a service that does not exist is `none`. -/
structure Services where
  listeners : Option Origin := none
  dns : Option Origin := none
  ipStack : Option Origin := none

def Services.live (s : Services) : Bool :=
  s.listeners.isSome || s.dns.isSome || s.ipStack.isSome

/-- A `ch_runtime`, with the directory that the configuration file is in. -/
structure State where
  running : Bool := false
  config : Option Parsed := none
  configPath : Bytes := []
  activeProfile : Bytes := bytes "default"
  services : Services := {}
  /-- A pointer to a live service has been overwritten. -/
  leaked : Bool := false
  prompts : Manager := {}
  temporaryRules : Store := { limit := 128 }
  disk : Directory := ∅

/-- What happens when services are built. -/
structure Building where
  /-- `ch_runtime_listener_set_start`. -/
  listeners : Except Error Unit := .ok ()
  /-- `ch_dns_proxy_create` fails, or else: does the profile have a DNS proxy? -/
  dns : Except Error Bool := .ok false
  /-- `ch_runtime_tun_options` fails, or else: does the profile have a packet stack? -/
  tun : Except Error Bool := .ok false
  packetWriter : Bool := true
  /-- `ch_ip_stack_create`. -/
  ipStack : Except Error Unit := .ok ()

/-- The outcomes of the calls of one command. -/
structure Environment where
  /-- The file cannot be read: when a command looks at it, and when the configuration is applied. -/
  read : Option Error := none
  reread : Option Error := none
  /-- Writing the new document, and writing the old one back. -/
  world : World
  calls : Calls
  restoreWorld : World
  restoreCalls : Calls
  /-- `ch_traffic_store_configure` and `ch_developer_manager_configure` fail. -/
  traffic : Option Error := none
  developer : Option Error := none
  /-- Building the services that a command is for, and those that were there before. -/
  build : Building := {}
  rebuild : Building := {}
  /-- The request or document that another component makes out of that of the command: an access key
  fetched by Outline, a rule for a connection, or the feeds that were refreshed. -/
  prepared : Except Error Bytes := .ok []
  /-- The connections in the traffic store, and the time. -/
  connections : List Traffic.Connection := []
  clock : Clock := ⟨0, fun _ ↦ false⟩

/-- The document that a command responds with. -/
inductive Response where
  | none
  | status
  | profileStatus (persisted : Bool) (backup : Option Bytes)
  | importResult (backup : Option Bytes)
  | payload (text : Bytes) (backup : Option Bytes)
  | resolved (id : Bytes) (allow : Bool)
  | temporaryRule
  | other

/-- What a command returns, and the state it leaves behind. -/
abbrev Outcome := Except Error Response × State

/-- What comes behind a part of a command: a failure of the part ends the command. -/
def andThen {α β : Type} (part : Except Error α × State)
    (rest : α → State → Except Error β × State) : Except Error β × State :=
  match part with
  | (.error e, s) => (.error e, s)
  | (.ok a, s) => rest a s

/-! ## Services -/

/-- The packet stack of `ch_runtime_build_services`: whether there is one. -/
def buildIpStack (b : Building) : Except Error Bool :=
  match b.tun with
  | .error e => .error e
  | .ok false => .ok false
  | .ok true =>
    if b.packetWriter then b.ipStack.map fun _ ↦ true
    else .error (.set .invalidArgument (bytes "listen.tun requires a runtime packet writer"))

/-- A service that there is only with a configuration. -/
def whenLoaded (config : Option Parsed) (service : Except Error Bool) : Except Error Bool :=
  if config.isSome then service else .ok false

/-- `ch_runtime_build_services`.  What was built before a failure is stopped again. -/
def buildServices (b : Building) (config : Option Parsed) (profile : Bytes) :
    Except Error Services := do
  b.listeners
  let dns ← whenLoaded config b.dns
  let ipStack ← whenLoaded config (buildIpStack b)
  return {
    listeners := some ⟨config, profile⟩
    dns := if dns then some ⟨config, profile⟩ else none
    ipStack := if ipStack then some ⟨config, profile⟩ else none }

/-- The pointers to the services are overwritten. -/
def State.install (s : State) (services : Services) : State :=
  { s with services := services, leaked := s.leaked || s.services.live }

/-- `ch_runtime_start_listeners`. -/
def startListeners (b : Building) (s : State) (profile : Bytes) : Except Error Unit × State :=
  andThen (buildServices b s.config profile, s) fun services s ↦ (.ok (), s.install services)

/-- `ch_runtime_stop_listeners`. -/
def stopListeners (s : State) : State :=
  { s with services := {}, prompts := resolveAll s.prompts false }

/-- `ch_runtime_switch_profile`. -/
def switchProfile (env : Environment) (s : State) (name : Bytes) : Except Error Unit × State :=
  if s.running then
    match startListeners env.build (stopListeners s) name with
    | (.ok (), s) => (.ok (), { s with activeProfile := name })
    | (.error e, s) => (.error e, (startListeners env.rebuild s s.activeProfile).2)
  else (.ok (), { s with activeProfile := name })

/-! ## Applying a configuration -/

/-- `ch_config_load`.  The text ends at the first NUL of the file. -/
def loadConfig (lib : Library) (read : Option Error) (path : Bytes) (disk : Directory) :
    Except Error Parsed :=
  match read, disk.lookup path with
  | some e, _ => .error e
  | none, none => .error (callError "read config" (bytes "No such file or directory"))
  | none, some content =>
    let document := content.takeWhile (· ≠ 0)
    (lib.parse document).map fun root ↦ ⟨document, root⟩

/-- The configuration that `ch_runtime_apply_config` is going to use, and its profile. -/
def nextConfig (lib : Library) (env : Environment) (path : Bytes) (disk : Directory) :
    Except Error (Option Parsed × Bytes) :=
  if path = [] then .ok (none, bytes "default")
  else do
    let config ← loadConfig lib env.reread path disk
    match (activeProfile config.root).bind (tableString · "name") with
    | none => .error (.set .parse (bytes "active profile has no name"))
    | some name => .ok (some config, name)

/-- `ch_prompt_manager_configure` with the configuration that stays, when another one is given
up. -/
def reconfigurePrompts (s : State) : State :=
  { s with prompts := (configure s.prompts (s.config.map Parsed.root)).1 }

/-- The end of `ch_runtime_apply_config` when it fails: services are started again if it was to
start some. -/
def rollBack (env : Environment) (start : Bool) (s : State) : State :=
  if start then (startListeners env.rebuild s s.activeProfile).2 else s

/-- The end of `ch_runtime_apply_config` when it succeeds. -/
def adopt (s : State) (config : Option Parsed) (path profile : Bytes) (services : Services) :
    State :=
  { s.install services with config := config, configPath := path, activeProfile := profile }

/-- `ch_runtime_apply_config`. -/
def applyConfig (lib : Library) (env : Environment) (s : State) (path : Bytes) (start : Bool) :
    Except Error Unit × State :=
  match nextConfig lib env path s.disk with
  | .error e => (.error e, s)
  | .ok (config, profile) =>
    let s := if start then stopListeners s else s
    match env.traffic with
    | some e => (.error e, rollBack env start s)
    | none =>
      match configure s.prompts (config.map Parsed.root) with
      | (_, .error e) => (.error e, rollBack env start (reconfigurePrompts s))
      | (prompts, .ok ()) =>
        let s := { s with prompts := prompts }
        match env.developer with
        | some e => (.error e, rollBack env start (reconfigurePrompts s))
        | none =>
          if start then
            match buildServices env.build config profile with
            | .error e => (.error e, rollBack env start (reconfigurePrompts s))
            | .ok services => (.ok (), adopt s config path profile services)
          else (.ok (), adopt s config path profile {})

/-! ## Editing the file -/

/-- `ch_config_write_atomic_document` on the configuration file. -/
def writeDocument (lib : Library) (world : World) (calls : Calls) (s : State) (document : Bytes) :
    Except Error (Option Bytes) × State :=
  let (result, disk) := writeAtomicDocument (fun text ↦ (lib.parse text).map fun _ ↦ ()) world calls
    s.configPath document s.disk
  (result, { s with disk := disk })

/-- The old document is written back. -/
def writeBack (lib : Library) (env : Environment) (s : State) (old : Parsed) :
    Except Error (Option Bytes) × State :=
  writeDocument lib env.restoreWorld env.restoreCalls s old.document

/-- The error of a command whose document could not be applied. -/
def restoreError (e : Error) : Except Error (Option Bytes) → Error
  | .ok _ => e
  | .error e' => .set .internal (e.message ++ bytes "; restore config: " ++ e'.message)

/-- The part that `ch_runtime_persist_active_profile`, `ch_runtime_import_config` and
`ch_runtime_persist_config_mutation` have in common: a document replaces that of the file and is
applied; if that fails, the old document is written back. -/
def replaceDocument (lib : Library) (env : Environment) (s : State) (old : Parsed)
    (document : Bytes) : Except Error (Option Bytes) × State :=
  andThen (writeDocument lib env.world env.calls s document) fun backup s ↦
    match applyConfig lib env s s.configPath s.running with
    | (.ok (), s) => (.ok backup, s)
    | (.error e, s) =>
      (.error (restoreError e (writeBack lib env s old).1), (writeBack lib env s old).2)

def profileNotFound (name : Bytes) : Error :=
  .set .notFound (bytes "profile " ++ name ++ bytes " not found")

/-- The check of `ch_runtime_persist_active_profile` when there is no file. -/
def findProfile (config : Option Parsed) (name : Bytes) : Except Error Unit :=
  if (match config with
    | none => name == bytes "default"
    | some config => hasProfile config.root name) then .ok ()
  else .error (profileNotFound name)

/-- `ch_runtime_persist_active_profile`. -/
def persistActiveProfile (lib : Library) (env : Environment) (s : State) (name : Bytes) : Outcome :=
  if s.configPath = [] then
    andThen (findProfile s.config name, s) fun _ s ↦
    andThen (switchProfile env s name) fun _ s ↦
    (.ok (.profileStatus false none), s)
  else
    andThen (loadConfig lib env.read s.configPath s.disk, s) fun old s ↦
    andThen (lib.setActive old name, s) fun document s ↦
    andThen (replaceDocument lib env s old document) fun backup s ↦
    (.ok (.profileStatus true backup), s)

/-- The checks of `ch_runtime_import_config`. -/
def checkImport (s : State) (document : Bytes) : Except Error Unit :=
  if s.configPath = [] then
    .error (.set .invalidState (bytes "config import requires daemon config path"))
  else if document.length > 4 * 1024 * 1024 then
    .error (.set .invalidArgument (bytes "config exceeds import size limit"))
  else if document.all isspace then .error (.set .invalidArgument (bytes "empty config body"))
  else .ok ()

/-- `ch_runtime_import_config`. -/
def importConfig (lib : Library) (env : Environment) (s : State) (document : Bytes) : Outcome :=
  andThen (checkImport s document, s) fun _ s ↦
  andThen (loadConfig lib env.read s.configPath s.disk, s) fun old s ↦
  andThen (lib.parse document, s) fun _ s ↦
  andThen (replaceDocument lib env s old document) fun backup s ↦
  (.ok (.importResult backup), s)

/-- `ch_config_query_payload_json`. -/
def queryPayload (lib : Library) (config : Option Parsed) (fallbackProfile : Bytes) (query : Query)
    (request : Bytes) : Except Error Bytes := do
  let requested ← requestOptionalString request "profile"
  let profile := if requested = [] then fallbackProfile else requested
  if config.any fun config ↦ profile ≠ [] && !hasProfile config.root profile then
    .error (profileNotFound profile)
  else lib.payload config profile query request

/-- `ch_runtime_persist_config_mutation`. -/
def persistConfigMutation (lib : Library) (env : Environment) (s : State) (mutation : Mutation)
    (query : Query) (request : Bytes) (includeBackup : Bool) : Outcome :=
  if s.configPath = [] then
    (.error (.set .invalidState (bytes "configuration persistence requires daemon config path")), s)
  else
    andThen (loadConfig lib env.read s.configPath s.disk, s) fun old s ↦
    andThen (lib.mutate old s.activeProfile mutation request, s) fun document s ↦
    andThen (replaceDocument lib env s old document) fun backup s ↦
    -- the edit is done, and what is left is to describe it
    andThen (queryPayload lib s.config s.activeProfile query request, s) fun text s ↦
    (.ok (.payload text (if includeBackup then backup else none)), s)

/-- The configuration whose feeds are refreshed. -/
def feedConfig (s : State) : Except Error Parsed :=
  match s.config with
  | some config => if s.configPath = [] then .error noFeedPath else .ok config
  | none => .error noFeedPath
where
  noFeedPath : Error := .set .invalidState (bytes "rule feed refresh requires daemon config path")

/-- `ch_runtime_refresh_rule_feeds` with the outcome of `ch_config_refresh_rule_feeds_json`.  The
document that is written is the loaded one, and it stays when it cannot be applied. -/
def refreshRuleFeeds (lib : Library) (env : Environment) (s : State) : Outcome :=
  andThen (feedConfig s, s) fun config s ↦
  andThen (env.prepared, s) fun response s ↦
  andThen (lib.setActive config s.activeProfile, s) fun document s ↦
  andThen (writeDocument lib env.world env.calls s document) fun backup s ↦
  andThen (applyConfig lib env s s.configPath s.running) fun _ s ↦
  (.ok (.payload response backup), s)

/-! ## Prompts -/

/-- The prompt or the silent decision that an answer is about, with the verdict; a prompt is
resolved at this point. -/
def takePrompt (s : State) (o : ActionOptions) (promoteSilent : Bool) :
    Except Error (Snapshot × Bool) × State :=
  if promoteSilent then
    andThen (silentDecision s.prompts o.id, s) fun silent s ↦
    if o.scope = .once then
      (.error (.set .invalidArgument
        (bytes "silent decisions require session, until_quit, or forever scope")), s)
    else (.ok (silent.snapshot, silent.allow), s)
  else
    let (prompts, result) := resolve s.prompts o.id o.allow true
    (result.map fun snapshot ↦ (snapshot, o.allow), { s with prompts := prompts })

/-- The rule of an answer that lasts for some time.  `ch_temporary_rules_create_from_rule_json`
reads the text of the request back. -/
def createTemporary (env : Environment) (s : State) (o : ActionOptions)
    (snapshot : Snapshot) (request : Json) : Outcome :=
  let pid := if o.scope = .untilQuit then snapshot.request.processPid else 0
  let store := createFromRule s.temporaryRules request o.ttlSeconds pid
    snapshot.request.connId snapshot.request.target snapshot.request.targetHost env.clock
  andThen (store, s) fun store s ↦ (.ok .temporaryRule, { s with temporaryRules := store })

/-- `ch_runtime_prompt_action` behind the resolution of the prompt. -/
def rememberPrompt (lib : Library) (env : Environment) (s : State) (o : ActionOptions)
    (snapshot : Snapshot) (allow : Bool) : Outcome :=
  if o.scope = .once then (.ok (.resolved o.id allow), s)
  else if o.scope = .untilQuit ∧ snapshot.request.processPid ≤ 0 then
    (.error (.set .invalidArgument (bytes "until_quit requires an attributed process")), s)
  else
    andThen (ruleRequestJson snapshot.request s.config o allow, s) fun request s ↦
    if o.scope = .forever then
      persistConfigMutation lib env s .createRule .rulesPersistence (Json.appendValue request) true
    else createTemporary env s o snapshot request

/-- `ch_runtime_prompt_action`. -/
def promptAction (lib : Library) (env : Environment) (s : State) (payload : Bytes)
    (promoteSilent : Bool) : Outcome :=
  andThen (actionOptionsParse payload (!promoteSilent), s) fun o s ↦
  andThen (takePrompt s o promoteSilent) fun taken s ↦
  rememberPrompt lib env s o taken.1 taken.2

/-! ## Network triggers -/

/-- A `ch_network_info`. -/
structure NetworkInfo where
  interfaceName : Bytes
  ssid : Bytes
deriving DecidableEq, Repr

/-- `ch_network_info_matches`. -/
def NetworkInfo.matches (info : NetworkInfo) (ssid interface : Bytes) : Bool :=
  (trim ssid ≠ [] || trim interface ≠ []) &&
    (trim ssid == [] || strcaseeq (trim info.ssid) (trim ssid)) &&
    (trim interface == [] || strcaseeq (trim info.interfaceName) (trim interface))

/-- Does a trigger of the profile match? -/
def triggered (info : NetworkInfo) (profile : Table) : Bool :=
  ((arrayIn profile "network_trigger").getD []).any fun trigger ↦
    let text := fun key : String ↦ (trigger.asTable.bind (tableString · key)).getD []
    info.matches (text "ssid") (text "interface")

/-- `ch_runtime_matching_profile`: the first profile with a trigger that matches.  A profile without
a name is passed over. -/
def matchingProfile (root : Table) (info : NetworkInfo) : Option Bytes :=
  (profileElements root).findSome? fun element ↦
    element.asTable.bind fun profile ↦
      if triggered info profile then tableString profile "name" else none

/-- `ch_runtime_network_observation`. -/
def networkObservation (env : Environment) (s : State) (info : NetworkInfo) : State :=
  match s.running, s.config.bind (matchingProfile ·.root info) with
  | true, some winner =>
    if winner = s.activeProfile then s else (switchProfile env s winner).2
  | _, _ => s

/-! ## Commands -/

/-- The commands and the events of the runtime's loop. -/
inductive Command where
  | start (path : Bytes)
  | stop
  | reload (path : Bytes)
  | connect
  | disconnect
  | setActiveProfile (payload : Bytes)
  | persistActiveProfile (payload : Bytes)
  | configImport (document : Bytes)
  | profileConverterImport (payload : Bytes)
  | configImportReviewed (payload : Bytes)
  | outlineImport
  | outlineRefresh
  | createTemporaryRule (payload : Bytes)
  | removeTemporaryRule (payload : Bytes)
  | resolvePrompt (payload : Bytes)
  | promoteSilentDecision (payload : Bytes)
  | createRuleFromConnection
  | cleanupRuleFromTraffic
  | mutate (mutation : Mutation) (payload : Bytes)
  | refreshRuleFeeds
  | networkObservation (info : NetworkInfo)
  /-- A query, a packet, or a change of the developer manager or of the policy groups: the state
  here stays as it is, and the command fails or succeeds. -/
  | other (result : Except Error Unit)
  /-- Between two commands other threads put up prompts and drop temporary rules, and other programs
  write files. -/
  | meanwhile (prompts : Manager) (temporaryRules : Store) (disk : Directory)
  | shutdown

/-- What an edit that is asked for by its own name is answered with, and whether the backup is
named. -/
def mutationResponse : Mutation → Option (Query × Bool)
  | .createRule | .replaceRules => some (.rulesPersistence, true)
  | .updateDns => some (.dns, false)
  | .updateConditioner => some (.conditioner, true)
  | .updateConfigSettings => some (.configSettings, true)
  | .replacePolicyGroups => some (.policyGroupsPersistence, true)
  | .replaceRuleSets => some (.ruleSetsPersistence, true)
  | .replaceRuleSubscriptions => some (.ruleSubscriptionsPersistence, true)
  | .selectPolicyGroup => some (.policyGroupSelection, true)
  | .updateDeveloperSettings => some (.developerSettings, true)
  | .replaceDeveloperRules _ | .deleteDeveloperRule _ => some (.developerPersistence, true)
  | .importOutline | .refreshOutline => none

def alreadyRunning : Error :=
  .set .invalidState (bytes "engine already running")

/-- The name in a request for another profile. -/
def requestedProfile (payload : Bytes) : Except Error Bytes := do
  let name ← requestString payload "name"
  if trim name = [] then .error (.set .invalidArgument (bytes "profile name is required"))
  else .ok (trim name)

/-- An edit with a request that another component has made. -/
def persistPrepared (lib : Library) (env : Environment) (s : State) (mutation : Mutation)
    (query : Query) (includeBackup : Bool) : Outcome :=
  andThen (env.prepared, s) fun request s ↦
  persistConfigMutation lib env s mutation query request includeBackup

/-- `ch_runtime_refresh_outline_before_connect`: a refresh that fails is only a warning. -/
def refreshOutlineBeforeConnect (lib : Library) (env : Environment) (s : State) : State :=
  if s.config.isNone ∨ s.configPath = [] then s
  else (persistPrepared lib env s .refreshOutline .profiles false).2

/-- The command "connect" of a runtime that is stopped. -/
def connect (lib : Library) (env : Environment) (s : State) : Outcome :=
  let s := refreshOutlineBeforeConnect lib env s
  andThen (startListeners env.build s s.activeProfile) fun _ s ↦
  (.ok .status, { s with running := true })

/-- The command "set_active_profile". -/
def setActiveProfile (env : Environment) (s : State) (payload : Bytes) : Outcome :=
  andThen (requestedProfile payload, s) fun name s ↦
  if s.config.any fun config ↦ hasProfile config.root name then
    andThen (switchProfile env s name) fun _ s ↦ (.ok .status, s)
  else (.error (profileNotFound name), s)

/-- `ch_temporary_rules_create_from_connection_json`. -/
def createTemporaryRule (env : Environment) (s : State) (payload : Bytes) : Outcome :=
  let config := ((s.config.map fun config ↦ profileElements config.root).getD []).filterMap
    Value.asTable
  andThen (Json.parse payload, s) fun request s ↦
  andThen (createFromConnection s.temporaryRules env.connections config
    (some s.activeProfile) request env.clock, s) fun store s ↦
  (.ok .temporaryRule, { s with temporaryRules := store })

/-- `ch_temporary_rules_remove_json`. -/
def removeTemporaryRule (env : Environment) (s : State) (payload : Bytes) : Outcome :=
  andThen (Json.parse payload, s) fun request s ↦
    let (store, result) := remove s.temporaryRules request env.clock
    (result.map fun _ ↦ .temporaryRule, { s with temporaryRules := store })

/-- The command "start" of a runtime that is stopped. -/
def start (lib : Library) (env : Environment) (s : State) (path : Bytes) : Outcome :=
  andThen (applyConfig lib env s path true) fun _ s ↦ (.ok .none, { s with running := true })

/-- `ch_command_process`. -/
def process (lib : Library) (env : Environment) (s : State) : Command → Outcome
  | .start path => if s.running then (.error alreadyRunning, s) else start lib env s path
  | .stop => (.ok .none, stopListeners { s with running := false })
  | .reload path => andThen (applyConfig lib env s path s.running) fun _ s ↦ (.ok .none, s)
  | .connect => if s.running then (.error alreadyRunning, s) else connect lib env s
  | .disconnect => (.ok .status, stopListeners { s with running := false })
  | .setActiveProfile payload => setActiveProfile env s payload
  | .persistActiveProfile payload =>
    andThen (requestedProfile payload, s) fun name s ↦ persistActiveProfile lib env s name
  | .configImport document => importConfig lib env s document
  | .profileConverterImport payload =>
    andThen (lib.convertImport s.config payload, s) fun document s ↦ importConfig lib env s document
  | .configImportReviewed payload =>
    andThen (lib.mergeReviewedImport s.config payload, s) fun document s ↦
    importConfig lib env s document
  | .outlineImport => persistPrepared lib env s .importOutline .profiles true
  | .outlineRefresh =>
    if s.running then
      (.error (.set .invalidState (bytes "disconnect before refreshing an Outline profile")), s)
    else persistPrepared lib env s .refreshOutline .profiles true
  | .createTemporaryRule payload => createTemporaryRule env s payload
  | .removeTemporaryRule payload => removeTemporaryRule env s payload
  | .resolvePrompt payload => promptAction lib env s payload false
  | .promoteSilentDecision payload => promptAction lib env s payload true
  | .createRuleFromConnection => persistPrepared lib env s .createRule .rulesPersistence true
  | .cleanupRuleFromTraffic => persistPrepared lib env s .replaceRules .rulesPersistence true
  | .mutate mutation payload =>
    match mutationResponse mutation with
    | none => (.error (.set .unsupported (bytes "unknown runtime mutation operation")), s)
    | some (query, includeBackup) =>
      persistConfigMutation lib env s mutation query payload includeBackup
  | .refreshRuleFeeds => refreshRuleFeeds lib env s
  | .networkObservation info => (.ok .none, networkObservation env s info)
  | .other result => (result.map fun _ ↦ .other, s)
  | .meanwhile prompts temporaryRules disk =>
    (.ok .none, { s with prompts := prompts, temporaryRules := temporaryRules, disk := disk })
  | .shutdown => (.ok .none, stopListeners { s with running := false })

/-- One turn of the loop. -/
def step (lib : Library) (s : State) (event : Command × Environment) : State :=
  (process lib event.2 s event.1).2

end ClambHook.Runtime
