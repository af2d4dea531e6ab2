import ClambHook.Basic
import Mathlib.Data.Rat.Floor

/-!
# JSON values

Requests reach the core as JSON documents and are read through the accessors of `json.c`.  Each
accessor looks at values of one kind only and treats `NULL` as a value of no kind, so `NULL` is
`none` here.
-/

namespace ClambHook

open CString

/-- A `ch_json_value`.  A number has its value as a `double`, and its value as a 64-bit integer if
it was written as one that fits. -/
inductive Json where
  | null
  | boolean (b : Bool)
  | number (value : Rat) (integer : Option Int)
  | string (s : Bytes)
  | array (items : List Json)
  | object (members : List (Bytes × Json))

namespace Json

/-- The number that an integer is written as.  The integers that are written here are small enough
for a `double`. -/
def ofInt (i : Int) : Json :=
  .number i (if longMin ≤ i ∧ i ≤ longMax then some i else none)

/-- `ch_json_int64_value`. -/
def int64Value : Option Json → Option Int
  | some (.number _ i) => i
  | _ => none

/-- `ch_json_number_value`. -/
def numberValue : Option Json → Rat → Rat
  | some (.number value _), _ => value
  | _, fallback => fallback

/-- `ch_json_bool_value`. -/
def boolValue : Option Json → Bool → Bool
  | some (.boolean b), _ => b
  | _, fallback => fallback

/-- `ch_json_string_value`. -/
def stringValue : Option Json → Option Bytes
  | some (.string s) => some s
  | _ => none

/-- `ch_json_value_type(value) == CH_JSON_ARRAY`. -/
def isArray : Json → Bool
  | .array _ => true
  | _ => false

def isObject : Json → Bool
  | .object _ => true
  | _ => false

/-- The elements that `ch_json_array_size` and `ch_json_array_get` give. -/
def items : Option Json → List Json
  | some (.array items) => items
  | _ => []

/-- `ch_json_object_get`: the first member with the key. -/
def objectGet : Option Json → Bytes → Option Json
  | some (.object members), key => members.lookup key
  | _, _ => none

/-- The loop of `ch_json_object_set` over the members: the first one with the key is replaced, and a
new one comes last. -/
def setMember : List (Bytes × Json) → Bytes → Json → List (Bytes × Json)
  | [], key, value => [(key, value)]
  | m :: members, key, value =>
    if m.1 = key then (m.1, value) :: members else m :: setMember members key value

/-- The loop of `ch_json_object_remove` over the members. -/
def removeMember : List (Bytes × Json) → Bytes → List (Bytes × Json)
  | [], _ => []
  | m :: members, key => if m.1 = key then members else m :: removeMember members key

end Json

end ClambHook
