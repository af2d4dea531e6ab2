import ClambHook.Developer.Capture
import ClambHook.Json.Text

/-!
# Commands of cURL

The export of a captured request as a command of cURL (`ch_developer_entry_curl_json`)
and the import of such a command (`developer_curl.c`).

The loop that splits a command into arguments looks at the next character behind a backslash and
skips it.  Here the scanner remembers the backslash instead, in a mode of its own.
-/

namespace ClambHook.Developer

open CString Json

/-! ## Export -/

/-- `developer_shell_quote`. -/
def shellQuote (value : Bytes) : Bytes :=
  [39] ++ (untilNul value).flatMap (fun c ↦ if c = 39 then bytes "'\\''" else [c]) ++ [39]

/-- A byte that may follow the first one of a character. -/
def continues (b : UInt8) : Bool :=
  b &&& 0xc0 == 0x80

/-- The bits of a character that a byte adds. -/
def addBits (codepoint : Nat) (b : UInt8) : Nat :=
  codepoint * 64 + (b &&& 0x3f).toNat

/-- `developer_utf8_valid`. -/
def utf8Valid : Bytes → Bool
  | [] => true
  | a :: s =>
    if a ≤ 0x7f then utf8Valid s
    else if 0xc2 ≤ a ∧ a ≤ 0xdf then
      match s with
      | b :: s => continues b && utf8Valid s
      | _ => false
    else if 0xe0 ≤ a ∧ a ≤ 0xef then
      match s with
      | b :: c :: s =>
        let codepoint := addBits (addBits (a &&& 0x0f).toNat b) c
        continues b && continues c && !(0xd800 ≤ codepoint && codepoint ≤ 0xdfff) &&
          0x800 ≤ codepoint && utf8Valid s
      | _ => false
    else if 0xf0 ≤ a ∧ a ≤ 0xf4 then
      match s with
      | b :: c :: d :: s =>
        let codepoint := addBits (addBits (addBits (a &&& 0x07).toNat b) c) d
        continues b && continues c && continues d && codepoint ≤ 0x10ffff &&
          0x10000 ≤ codepoint && utf8Valid s
      | _ => false
    else false

/-- The headers that a command does not have because cURL makes them. -/
def Header.implied (h : Header) : Bool :=
  strcaseeq h.name (bytes "Content-Length") || strcaseeq h.name (bytes "Host")

/-- The option for a header. -/
def headerOption (h : Header) : Bytes :=
  if h.redacted || h.implied then []
  else bytes " -H " ++ shellQuote (h.name ++ bytes ": " ++ h.value)

/-- Is the body written? -/
def Body.isText (body : Body) : Bool :=
  body.preview != [] && utf8Valid body.preview

def Body.cut (body : Body) : Bool :=
  decide (body.preview.length < body.size)

def truncatedWarning : Bytes :=
  bytes "\n# warning: captured request body was truncated; supply the full body before sending"

/-- The command for a captured request. -/
def curlCommand (e : Entry) : Bytes :=
  let redacted := (e.requestHeaders.filter (·.redacted)).map Header.name
  bytes "curl" ++
    (if strcaseeq e.method (bytes "GET") then [] else bytes " -X " ++ shellQuote e.method) ++
    e.requestHeaders.flatMap headerOption ++
    (if e.requestBody.isText then bytes " --data-raw " ++ shellQuote e.requestBody.preview
      else []) ++
    bytes " " ++ shellQuote e.url ++
    (if e.requestBody.cut then truncatedWarning else []) ++
    (if redacted = [] then []
     else bytes "\n# redacted headers omitted: " ++ (bytes ", ").intercalate redacted)

/-- `developer_find_entry_locked`. -/
def Manager.findEntry (m : Manager) (identifier : Bytes) : Option Entry :=
  m.entries.find? (·.identifier == identifier)

def identifierRequired : Error :=
  .set .invalidArgument (bytes "developer entry identifier is required")

def entryNotFound : Error :=
  .set .notFound (bytes "developer entry not found")

/-- `ch_developer_entry_curl_json`. -/
def entryCurlJson (m : Manager) (identifier : Bytes) : Except Error Bytes :=
  if identifier = [] then .error identifierRequired
  else
    match m.findEntry identifier with
    | none => .error entryNotFound
    | some e => .ok (bytes "\x7b\"curl\":" ++ appendString (curlCommand e) ++ bytes "\x7d")

/-! ## Arguments -/

def maxCommandBytes : Nat := 1024 * 1024
def maxTokens : Nat := 4096

/-- Where the scanner is. -/
inductive Mode where
  | plain
  | escaped
  | single
  | double
  | doubleEscaped
deriving DecidableEq, Repr

/-- The state of `developer_curl_tokenize`. -/
structure Scan where
  mode : Mode := .plain
  current : Bytes := []
  hasToken : Bool := false
  tokens : List Bytes := []
deriving DecidableEq, Repr

def tooManyArguments : Error :=
  .set .invalidArgument (bytes "cURL command has too many arguments")

/-- `developer_curl_finish_token`. -/
def finishToken (s : Scan) : Except Error Scan :=
  if !s.hasToken then .ok s
  else if maxTokens ≤ s.tokens.length then .error tooManyArguments
  else .ok { s with tokens := s.tokens ++ [s.current], current := [], hasToken := false }

def Scan.push (s : Scan) (mode : Mode) (text : Bytes) : Scan :=
  { s with mode := mode, current := s.current ++ text }

/-- The characters that lose their meaning behind a backslash in double quotes. -/
def escapable (c : UInt8) : Bool :=
  c == 34 || c == 92 || c == 36 || c == 96 || c == 10

/-- One character. -/
def scanStep (s : Scan) (c : UInt8) : Except Error Scan :=
  match s.mode with
  | .single => .ok (if c = 39 then { s with mode := .plain } else s.push .single [c])
  | .double =>
    .ok (if c = 34 then { s with mode := .plain }
      else if c = 92 then { s with mode := .doubleEscaped }
      else s.push .double [c])
  | .doubleEscaped => .ok (s.push .double (if escapable c then [c] else [92, c]))
  | .escaped => .ok { s.push .plain [c] with hasToken := true }
  | .plain =>
    if c = 39 then .ok { s with mode := .single, hasToken := true }
    else if c = 34 then .ok { s with mode := .double, hasToken := true }
    else if c = 92 then .ok { s with mode := .escaped }
    else if isspace c then finishToken s
    else .ok { s.push .plain [c] with hasToken := true }

def commandTooLong : Error :=
  .set .invalidArgument (bytes "cURL command exceeds 1 MiB limit")

def unterminatedQuote : Error :=
  .set .invalidArgument (bytes "unterminated quote in cURL command")

/-- The end of a command. -/
def endScan (s : Scan) : Except Error (List Bytes) :=
  if s.mode = .plain ∨ s.mode = .escaped then (finishToken s).map Scan.tokens
  else .error unterminatedQuote

/-- `developer_curl_tokenize`. -/
def curlTokenize (text : Bytes) : Except Error (List Bytes) :=
  if maxCommandBytes < text.length then .error commandTooLong
  else text.foldlM scanStep {} >>= endScan

/-! ## Import -/

def booleanFlags : List String :=
  ["--compressed", "-k", "--insecure", "-L", "--location", "-i", "--include", "-s", "--silent",
    "-S", "--show-error", "-v", "--verbose", "-G", "--get", "-I", "--head"]

def ignoredValueFlags : List String :=
  ["-o", "--output", "--connect-timeout", "-m", "--max-time", "--retry", "-u", "--user", "-b",
    "--cookie", "-x", "--proxy", "-U", "--proxy-user", "--resolve", "--dns-servers"]

def dataFlags : List String :=
  ["-d", "--data", "--data-raw", "--data-binary", "--data-ascii"]

/-- Is the token one of the flags? -/
def isFlag (flags : List String) (token : Bytes) : Bool :=
  flags.any fun flag ↦ token == bytes flag

/-- The request that is read from a command. -/
structure Request where
  method : Bytes := bytes "GET"
  methodSet : Bool := false
  url : Option Bytes := none
  headers : List (Bytes × Bytes) := []
  body : Bytes := []
  dataCount : Nat := 0
deriving DecidableEq, Repr

/-- `developer_curl_header_append`. -/
def Request.addHeader (r : Request) (raw : Bytes) : Request :=
  let (name, value) := (splitFirst 58 raw).getD (raw, [])
  { r with headers := r.headers ++ [(trim name, trim value)] }

/-- A piece of the body; several are joined like the fields of a form.  Without a method it is sent
with `POST`. -/
def Request.addData (r : Request) (value : Bytes) : Request :=
  { r with
    body := if r.dataCount = 0 then r.body ++ value else r.body ++ bytes "&" ++ value
    dataCount := r.dataCount + 1
    method := if r.methodSet then r.method else bytes "POST" }

def requiresValue (flag : Bytes) : Error :=
  .set .invalidArgument (flag ++ bytes " requires a value")

def fileUnsupported (flag : Bytes) : Error :=
  .set .invalidArgument (flag ++ bytes " @file is not supported; paste the body inline")

/-- The loop over the arguments in `ch_developer_curl_import_json`. -/
def importTokens : List Bytes → Request → Except Error Request
  | [], r => .ok r
  | token :: rest, r =>
    if isFlag ["-X", "--request"] token then
      match rest with
      | [] => .error (requiresValue token)
      | value :: rest =>
        importTokens rest { r with method := upper (trim value), methodSet := true }
    else if isFlag ["-H", "--header"] token then
      match rest with
      | [] => .error (requiresValue token)
      | value :: rest => importTokens rest (r.addHeader value)
    else if isFlag dataFlags token then
      match rest with
      | [] => .error (requiresValue token)
      | value :: rest =>
        if value.head? = some 64 then .error (fileUnsupported token)
        else importTokens rest (r.addData value)
    else if isFlag ["-A", "--user-agent", "-e", "--referer"] token then
      match rest with
      | [] => .error (requiresValue token)
      | value :: rest =>
        let name := if isFlag ["-A", "--user-agent"] token then "User-Agent" else "Referer"
        importTokens rest (r.addHeader (bytes name ++ bytes ": " ++ value))
    else if token = bytes "--url" then
      match rest with
      | [] => .error (requiresValue token)
      | value :: rest => importTokens rest { r with url := some value }
    else if isFlag ignoredValueFlags token then
      match rest with
      | [] => .error (requiresValue token)
      | _ :: rest => importTokens rest r
    else if isFlag booleanFlags token || token.head? == some 45 then importTokens rest r
    else importTokens rest { r with url := some token }

/-- The arguments without the name of the program. -/
def dropProgram : List Bytes → List Bytes
  | token :: rest =>
    if strcaseeq token (bytes "curl") || (lower (bytes "/curl")).isSuffixOf (lower token) then rest
    else token :: rest
  | [] => []

def noUrl : Error :=
  .set .invalidArgument (bytes "cURL command has no URL")

/-- The request that a command stands for. -/
def importCommand (text : Bytes) : Except Error Request := do
  let tokens ← curlTokenize (trim text)
  let r ← importTokens (dropProgram tokens) {}
  if r.url.getD [] = [] then .error noUrl else .ok r

/-- `developer_curl_encode`. -/
def curlEncode (r : Request) : Bytes :=
  let header := fun h : Bytes × Bytes ↦
    bytes "\x7b\"name\":" ++ appendString h.1 ++ bytes ",\"value\":" ++ appendString h.2 ++
      bytes "\x7d"
  bytes "\x7b\"method\":" ++ appendString r.method ++ bytes ",\"url\":" ++
    appendString (r.url.getD []) ++ bytes ",\"headers\":[" ++
    (bytes ",").intercalate (r.headers.map header) ++ bytes "],\"body\":" ++
    appendString r.body ++ bytes "\x7d"

def curlRequired : Error :=
  .set .invalidArgument (bytes "cURL import requires a string curl field")

/-- `ch_developer_curl_import_json`. -/
def curlImportJson (request : Bytes) : Except Error Bytes := do
  let root ← parse request
  match stringValue (objectGet (some root) (bytes "curl")) with
  | none => .error curlRequired
  | some text => (importCommand text).map curlEncode

end ClambHook.Developer
