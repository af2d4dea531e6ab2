import ClambHook.Json
import ClambHook.Lib.Binary64
import ClambHook.Lib.CStringLemmas

/-!
# JSON text

The writer and the parser of `json.c`.  The parser walks a cursor over the text; here it returns
what the cursor has not passed.  A failure carries that rest too, since the message says how far the
parser came.

The parser counts the levels of nesting down instead of up: `parseValue n` may open `n` levels.  The
loops over the characters of a string, the elements of an array and the members of an object stop at
the latest at the end of the text, whose length is their fuel.
-/

namespace ClambHook.Json

open CString

/-- `ch_json_value_new_int64`: the `double` is the nearest one. -/
def newInt64 (i : Int) : Json :=
  .number (Binary64.round i) (some i)

/-! ## Writing -/

def hexDigit (n : Nat) : UInt8 :=
  if n < 10 then 48 + n.toUInt8 else 87 + n.toUInt8

/-- The text of one character in `ch_json_append_string`. -/
def escapeChar (c : UInt8) : Bytes :=
  if c = 34 then [92, 34]
  else if c = 92 then [92, 92]
  else if c = 8 then [92, 98]
  else if c = 12 then [92, 102]
  else if c = 10 then [92, 110]
  else if c = 13 then [92, 114]
  else if c = 9 then [92, 116]
  else if c < 32 then [92, 117, 48, 48, hexDigit (c.toNat / 16), hexDigit (c.toNat % 16)]
  else [c]

/-- `ch_json_append_string`. -/
def appendString (s : Bytes) : Bytes :=
  34 :: s.flatMap escapeChar ++ [34]

mutual

/-- `ch_json_append_value`. -/
def appendValue : Json → Bytes
  | .null => bytes "null"
  | .boolean b => if b then bytes "true" else bytes "false"
  | .number _ (some i) => decimalInt i
  | .number value none => Binary64.printG17 value
  | .string s => appendString s
  | .array items => 91 :: appendItems items ++ [93]
  | .object members => 123 :: appendMembers members ++ [125]

/-- The elements of an array, with commas between them. -/
def appendItems : List Json → Bytes
  | [] => []
  | [item] => appendValue item
  | item :: items => appendValue item ++ 44 :: appendItems items

/-- The members of an object, with commas between them. -/
def appendMembers : List (Bytes × Json) → Bytes
  | [] => []
  | [(key, value)] => appendString key ++ 58 :: appendValue value
  | (key, value) :: members =>
    appendString key ++ 58 :: appendValue value ++ 44 :: appendMembers members

end

/-! ## Parsing -/

/-- A failure of the parser: where the cursor stood, as the rest of the text, and the message. -/
structure Failure where
  rest : Bytes
  message : Bytes
deriving DecidableEq, Repr

def fail {α : Type} (rest : Bytes) (message : String) : Except Failure α :=
  .error ⟨rest, bytes message⟩

/-- `ch_json_skip_space`. -/
def skipSpace (s : Bytes) : Bytes :=
  trimLeft s

/-- `ch_json_hex`. -/
def hex (c : UInt8) : Option Nat :=
  if 48 ≤ c ∧ c ≤ 57 then some (c.toNat - 48)
  else if 97 ≤ c ∧ c ≤ 102 then some (c.toNat - 87)
  else if 65 ≤ c ∧ c ≤ 70 then some (c.toNat - 55)
  else none

/-- `ch_json_code_unit`. -/
def codeUnit : Bytes → Except Failure (Nat × Bytes)
  | a :: b :: c :: d :: rest =>
    match hex a, hex b, hex c, hex d with
    | some a, some b, some c, some d => .ok (((a * 16 + b) * 16 + c) * 16 + d, rest)
    | _, _, _, _ => fail (a :: b :: c :: d :: rest) "invalid Unicode escape"
  | s => fail s "incomplete Unicode escape"

/-- `ch_json_append_codepoint`.  The encoded bytes go through a C string, so the code point 0 leaves
nothing. -/
def encodeCodepoint (n : Nat) : Bytes :=
  if n = 0 then []
  else if n ≤ 0x7f then [n.toUInt8]
  else if n ≤ 0x7ff then [(0xc0 + n / 64).toUInt8, (0x80 + n % 64).toUInt8]
  else if n ≤ 0xffff then
    [(0xe0 + n / 4096).toUInt8, (0x80 + n / 64 % 64).toUInt8, (0x80 + n % 64).toUInt8]
  else
    [(0xf0 + n / 262144).toUInt8, (0x80 + n / 4096 % 64).toUInt8, (0x80 + n / 64 % 64).toUInt8,
      (0x80 + n % 64).toUInt8]

/-- The case `u` of an escape: a code unit, or two of them that are a surrogate pair. -/
def parseUnicode (s : Bytes) : Except Failure (Bytes × Bytes) := do
  let (unit, rest) ← codeUnit s
  if 0xd800 ≤ unit ∧ unit ≤ 0xdbff then
    match rest with
    | 92 :: 117 :: rest =>
      let (low, rest) ← codeUnit rest
      if low < 0xdc00 ∨ 0xdfff < low then fail rest "invalid low surrogate"
      else .ok (encodeCodepoint (0x10000 + (unit - 0xd800) * 1024 + (low - 0xdc00)), rest)
    | _ => fail rest "high surrogate without low surrogate"
  else if 0xdc00 ≤ unit ∧ unit ≤ 0xdfff then fail rest "unexpected low surrogate"
  else .ok (encodeCodepoint unit, rest)

/-- What stands behind a backslash, and the rest. -/
def parseEscape : Bytes → Except Failure (Bytes × Bytes)
  | [] => fail [] "incomplete escape"
  | escape :: rest =>
    if escape = 34 then .ok ([34], rest)
    else if escape = 92 then .ok ([92], rest)
    else if escape = 47 then .ok ([47], rest)
    else if escape = 98 then .ok ([8], rest)
    else if escape = 102 then .ok ([12], rest)
    else if escape = 110 then .ok ([10], rest)
    else if escape = 114 then .ok ([13], rest)
    else if escape = 116 then .ok ([9], rest)
    else if escape = 117 then parseUnicode rest
    else fail rest "invalid escape"

/-- The loop of `ch_json_parse_string_raw`, behind the opening quote. -/
def parseChars : Nat → Bytes → Except Failure (Bytes × Bytes)
  | 0, s => fail s "unterminated string"
  | _ + 1, [] => fail [] "unterminated string"
  | fuel + 1, c :: s =>
    if c = 34 then .ok ([], s)
    else if c < 32 then fail s "unescaped control character"
    else if c ≠ 92 then do
      let (out, rest) ← parseChars fuel s
      return (c :: out, rest)
    else do
      let (replacement, rest) ← parseEscape s
      let (out, rest) ← parseChars fuel rest
      return (replacement ++ out, rest)

/-- `ch_json_parse_string_raw`. -/
def parseStringRaw : Bytes → Except Failure (Bytes × Bytes)
  | 34 :: s => parseChars (s.length + 1) s
  | s => fail s "expected string"

/-- The digits at the front of a text, and the rest. -/
def spanDigits (s : Bytes) : Bytes × Bytes :=
  (s.takeWhile isdigit, s.dropWhile isdigit)

/-- The digits behind a decimal point, if there is one. -/
def parseFraction : Bytes → Except Failure (Option Bytes × Bytes)
  | 46 :: s =>
    match spanDigits s with
    | ([], _) => fail s "invalid number"
    | (digits, rest) => .ok (some digits, rest)
  | s => .ok (none, s)

/-- The exponent of a number, if there is one. -/
def parseExponent : Bytes → Except Failure (Option Int × Bytes)
  | [] => .ok (none, [])
  | c :: s =>
    if c = 101 ∨ c = 69 then
      let (negative, s) :=
        match s with
        | 43 :: s => (false, s)
        | 45 :: s => (true, s)
        | s => (false, s)
      match spanDigits s with
      | ([], _) => fail s "invalid number"
      | (digits, rest) =>
        .ok (some (if negative then -digitsValue digits else digitsValue digits), rest)
    else .ok (none, c :: s)

/-- The integer digits of a number: a zero, or digits that begin with another one. -/
def parseDigits : Bytes → Except Failure (Bytes × Bytes)
  | [] => fail [] "invalid number"
  | c :: s =>
    if c = 48 then .ok ([48], s)
    else if isdigit c then .ok (spanDigits (c :: s))
    else fail (c :: s) "invalid number"

/-- `ch_json_parse_number`: `strtod` and, for a number without fraction and exponent, `strtoimax`
read the text again. -/
def parseNumber (s : Bytes) : Except Failure (Json × Bytes) := do
  let negative := s.head? == some 45
  let (digits, rest) ← parseDigits (if negative then s.tail else s)
  let (fraction, rest) ← parseFraction rest
  let (exponent, rest) ← parseExponent rest
  let sign : Int := if negative then -1 else 1
  let places := fraction.getD []
  let value : Rat :=
    sign * digitsValue (digits ++ places) * 10 ^ (exponent.getD 0 - places.length)
  let integer := sign * digitsValue digits
  if Binary64.Overflows value ∨ Binary64.Underflows value then fail rest "invalid number"
  else
    .ok (.number (Binary64.round value)
      (if fraction = none ∧ exponent = none ∧ longMin ≤ integer ∧ integer ≤ longMax then
          some integer
        else none), rest)

section Containers

variable (value : Bytes → Except Failure (Json × Bytes))

/-- The loop of `ch_json_parse_array`, over the parser of its elements. -/
def parseItems : Nat → Bytes → Except Failure (List Json × Bytes)
  | 0, s => fail s "expected comma or closing bracket"
  | fuel + 1, s => do
    let (item, rest) ← value s
    match skipSpace rest with
    | [] => fail [] "expected comma or closing bracket"
    | c :: rest =>
      if c = 93 then return ([item], rest)
      else if c ≠ 44 then fail rest "expected comma or closing bracket"
      else do
        let (items, rest) ← parseItems fuel (skipSpace rest)
        return (item :: items, rest)

/-- `ch_json_parse_array`, behind the opening bracket. -/
def parseArray (s : Bytes) : Except Failure (Json × Bytes) :=
  match skipSpace s with
  | 93 :: rest => .ok (.array [], rest)
  | s => do
    let (items, rest) ← parseItems value (s.length + 1) s
    return (.array items, rest)

/-- A key with its colon, and the rest. -/
def parseKey (s : Bytes) : Except Failure (Bytes × Bytes) := do
  let (key, rest) ← parseStringRaw s
  match skipSpace rest with
  | [] => fail [] "expected colon"
  | c :: rest => if c = 58 then return (key, rest) else fail rest "expected colon"

/-- The loop of `ch_json_parse_object`. -/
def parseMembers : Nat → Bytes → Except Failure (List (Bytes × Json) × Bytes)
  | 0, s => fail s "expected comma or closing brace"
  | fuel + 1, s => do
    let (key, rest) ← parseKey s
    let (member, rest) ← value rest
    match skipSpace rest with
    | [] => fail [] "expected comma or closing brace"
    | c :: rest =>
      if c = 125 then return ([(key, member)], rest)
      else if c ≠ 44 then fail rest "expected comma or closing brace"
      else do
        let (members, rest) ← parseMembers fuel (skipSpace rest)
        return ((key, member) :: members, rest)

/-- `ch_json_parse_object`, behind the opening brace. -/
def parseObject (s : Bytes) : Except Failure (Json × Bytes) :=
  match skipSpace s with
  | 125 :: rest => .ok (.object [], rest)
  | s => do
    let (members, rest) ← parseMembers value (s.length + 1) s
    return (.object members, rest)

end Containers

/-- `ch_json_parse_value`, with the number of levels that may still be opened. -/
def parseValue : Nat → Bytes → Except Failure (Json × Bytes)
  | 0, s => fail (skipSpace s) "nesting exceeds 64 levels"
  | levels + 1, s =>
    match skipSpace s with
    | [] => fail [] "expected value"
    | c :: s =>
      if c = 34 then do
        let (text, rest) ← parseStringRaw (c :: s)
        return (.string text, rest)
      else if c = 91 then parseArray (parseValue levels) s
      else if c = 123 then parseObject (parseValue levels) s
      else if (bytes "null").isPrefixOf (c :: s) then .ok (.null, (c :: s).drop 4)
      else if (bytes "true").isPrefixOf (c :: s) then .ok (.boolean true, (c :: s).drop 4)
      else if (bytes "false").isPrefixOf (c :: s) then .ok (.boolean false, (c :: s).drop 5)
      else if c = 45 ∨ isdigit c then parseNumber (c :: s)
      else fail (c :: s) "unexpected token"

/-- The value of a whole text, for `ch_json_parse`. -/
def parseText (s : Bytes) : Except Failure Json := do
  let (value, rest) ← parseValue 64 s
  match skipSpace rest with
  | [] => return value
  | rest => fail rest "trailing data"

/-- `ch_json_parse`, with the message of `ch_json_parse_error`. -/
def parse (s : Bytes) : Except Error Json :=
  match parseText s with
  | .ok value => .ok value
  | .error f =>
    .error (.set .parse (bytes "JSON parse error at byte " ++ decimal (s.length - f.rest.length) ++
      bytes ": " ++ f.message))

end ClambHook.Json
