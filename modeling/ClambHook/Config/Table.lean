import ClambHook.Basic

/-!
# Configuration tables

The configuration is read through `ch_config_table_*` and `ch_config_array_*`, thin wrappers over
a parsed TOML document.  What matters to their callers is kept here: an accessor looks only at
values of its own kind, so a key whose value has another kind looks to it as if it were missing.
-/

namespace ClambHook.Config

open CString

/-- A TOML value.  A finite float has a value, an infinity or NaN has none; a date or a time is its
text.  No accessor below reads them. -/
inductive Value where
  | string (s : Bytes)
  | integer (i : Int)
  | boolean (b : Bool)
  | float (x : Option Rat)
  | datetime (text : Bytes)
  | array (items : List Value)
  | table (entries : List (Bytes × Value))

/-- A TOML table.  The parser rejects a key that is given twice. -/
abbrev Table := List (Bytes × Value)

/-- `ch_config_table_has`. -/
def tableHas (t : Table) (key : Bytes) : Bool :=
  (t.lookup key).isSome

/-- `ch_config_table_get_table`: `none` for a missing key and for a value that is no table. -/
def getTable (t : Table) (key : Bytes) : Option Table :=
  match t.lookup key with
  | some (.table entries) => some entries
  | _ => none

/-- `ch_config_table_get_array`: `none` for a missing key and for a value that is no array. -/
def getArray (t : Table) (key : Bytes) : Option (List Value) :=
  match t.lookup key with
  | some (.array items) => some items
  | _ => none

def missingValue (key : Bytes) : Error :=
  .set .notFound (bytes "config value " ++ key ++ bytes " is missing or has the wrong type")

/-- `ch_config_table_get_string`. -/
def getString (t : Table) (key : Bytes) : Except Error Bytes :=
  match t.lookup key with
  | some (.string s) => .ok s
  | _ => .error (missingValue key)

/-- `ch_config_table_get_bool`. -/
def getBool (t : Table) (key : Bytes) : Except Error Bool :=
  match t.lookup key with
  | some (.boolean b) => .ok b
  | _ => .error (missingValue key)

/-- `ch_config_table_get_int`. -/
def getInt (t : Table) (key : Bytes) : Except Error Int :=
  match t.lookup key with
  | some (.integer i) => .ok i
  | _ => .error (missingValue key)

/-- `toml_string_at` and `toml_int_at` on one element of an array. -/
def Value.asString : Value → Option Bytes
  | .string s => some s
  | _ => none

def Value.asInt : Value → Option Int
  | .integer i => some i
  | _ => none

end ClambHook.Config
