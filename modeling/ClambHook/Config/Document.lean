import ClambHook.Config.Rules
import ClambHook.Json.Text

/-!
# Loaded configurations

A `ch_config` keeps the text it was parsed from beside the parsed document.  This module has the
functions of `config.c` that find profiles in it, the ways in which requests name things in it, and
the edits and the views of it that the runtime asks for.
-/

namespace ClambHook.Config

open CString Json

/-- A `ch_config`. -/
structure Parsed where
  document : Bytes
  root : Table

/-! ## Profiles -/

/-- `toml_table_at` on one element of an array. -/
def Value.asTable : Value → Option Table
  | .table entries => some entries
  | _ => none

/-- The elements that `ch_config_profile_count` counts. -/
def profileElements (root : Table) : List Value :=
  (arrayIn root "profile").getD []

/-- The name of an element of the array of profiles. -/
def Value.profileName (element : Value) : Option Bytes :=
  element.asTable.bind (tableString · "name")

/-- `ch_config_profile_named` with its result as an element of the array. -/
def elementNamed (root : Table) (name : Bytes) : Option Value :=
  (profileElements root).find? fun element ↦ element.profileName == some name

/-- `ch_config_active_profile`: the profile under `active`, or else the first one. -/
def activeProfile (root : Table) : Option Table :=
  let active := (tableString root "active").getD []
  let named := if active = [] then none else elementNamed root active
  (named.or (profileElements root).head?).bind Value.asTable

/-- `ch_config_has_profile`. -/
def hasProfile (root : Table) (name : Bytes) : Bool :=
  (elementNamed root name).isSome

/-! ## Requests -/

/-- `ch_json_request_string`. -/
def requestString (request : Bytes) (key : String) : Except Error Bytes := do
  let root ← parse request
  match stringValue (objectGet (some root) (bytes key)) with
  | none | some [] => .error (.set .invalidArgument (bytes key ++ bytes " is required"))
  | some text => .ok text

/-- `request_optional_string` of `config_payload.c`; `NULL` is empty here. -/
def requestOptionalString (request : Bytes) (key : String) : Except Error Bytes :=
  if request = [] then .ok []
  else do
    let root ← parse request
    if !root.isObject then
      .error (.set .invalidArgument (bytes "request must be a JSON object"))
    else
      match objectGet (some root) (bytes key) with
      | none => .ok []
      | some (.string text) => .ok text
      | some _ => .error (.set .invalidArgument (bytes key ++ bytes " must be a string"))

/-! ## Operations -/

/-- The kinds of developer rules. -/
inductive DeveloperRule where
  | map
  | breakpoint
  | rewrite
deriving DecidableEq, Repr

/-- The operations of `ch_config_mutate_document_json`. -/
inductive Mutation where
  | createRule
  | replaceRules
  | updateDns
  | updateConditioner
  | updateConfigSettings
  | replacePolicyGroups
  | replaceRuleSets
  | replaceRuleSubscriptions
  | selectPolicyGroup
  | updateDeveloperSettings
  | replaceDeveloperRules (kind : DeveloperRule)
  | deleteDeveloperRule (kind : DeveloperRule)
  | importOutline
  | refreshOutline
deriving DecidableEq, Repr

/-- The operations of `ch_config_query_payload_json` that the runtime answers edits with. -/
inductive Query where
  | profiles
  | rulesPersistence
  | dns
  | conditioner
  | configSettings
  | policyGroupsPersistence
  | ruleSetsPersistence
  | ruleSubscriptionsPersistence
  | policyGroupSelection
  | developerSettings
  | developerPersistence
deriving DecidableEq, Repr

end ClambHook.Config
