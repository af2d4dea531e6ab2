import ClambHook.Developer.Curl
import ClambHook.Proxy.Message

/-!
# What a client can see of exchanges

The functions of `developer.c` that show what was captured: the list of the records, a single
record, the export in the HTTP archive format, and the list of the messages that breakpoints hold
up.  (The export as a command of cURL is in `ClambHook.Developer.Curl`.)

How a time is written is up to the C library and a parameter here.
-/

namespace ClambHook.Developer

open CString

/-- The texts that come from `gmtime_r` and from `%.3f`. -/
structure Texts where
  /-- A time in nanoseconds, as `%Y-%m-%dT%H:%M:%S` with nine digits and a `Z` behind it. -/
  utc : Int → Bytes
  /-- A number of nanoseconds as milliseconds. -/
  milliseconds : Int → Bytes

/-! ## Records -/

/-- `developer_append_timestamp`. -/
def appendTimestamp (texts : Texts) (ns : Int) : Bytes :=
  Json.appendString (if ns ≤ 0 then bytes "0001-01-01T00:00:00Z" else texts.utc ns)

/-- `developer_body_mime`. -/
def bodyMime (headers : List Header) : Bytes :=
  ((headers.find? fun h ↦
    !h.redacted && strcaseeq h.name (bytes "Content-Type") &&
      h.value != []).map Header.value).getD []

/-- A header, with the names of the marks of `developer_append_headers` or of
`developer_append_har_headers`. -/
def appendHeader (redacted truncated : String) (h : Header) : Bytes :=
  bytes "\x7b\"name\":" ++ Json.appendString h.name ++ bytes ",\"value\":" ++
    Json.appendString h.value ++ (if h.redacted then bytes redacted else []) ++
    (if h.truncated then bytes truncated else []) ++ bytes "\x7d"

/-- Texts in brackets with commas between them. -/
def appendList (items : List Bytes) : Bytes :=
  bytes "[" ++ (bytes ",").intercalate items ++ bytes "]"

/-- `developer_append_headers`. -/
def appendHeaders (headers : List Header) : Bytes :=
  appendList (headers.map (appendHeader ",\"redacted\":true" ",\"truncated\":true"))

def base64Alphabet : Bytes :=
  bytes "ABCDEFGHIJKLMNOPQRSTUVWXYZabcdefghijklmnopqrstuvwxyz0123456789+/"

/-- The digit for six bits of a number. -/
def base64Digit (value shift : Nat) : UInt8 :=
  base64Alphabet.getD (value / 2 ^ shift % 64) 0

/-- `developer_body_base64`. -/
def base64 : Bytes → Bytes
  | [] => []
  | [a] =>
    let value := a.toNat * 2 ^ 16
    [base64Digit value 18, base64Digit value 12, 61, 61]
  | [a, b] =>
    let value := a.toNat * 2 ^ 16 + b.toNat * 2 ^ 8
    [base64Digit value 18, base64Digit value 12, base64Digit value 6, 61]
  | a :: b :: c :: rest =>
    let value := a.toNat * 2 ^ 16 + b.toNat * 2 ^ 8 + c.toNat
    [base64Digit value 18, base64Digit value 12, base64Digit value 6, base64Digit value 0] ++
      base64 rest

def trueOrFalse (b : Bool) : Bytes :=
  if b then bytes "true" else bytes "false"

/-- `developer_append_body`. -/
def appendBody (body : Body) (headers : List Header) : Bytes :=
  let size := if body.initialized then body.size else 0
  let preview := if body.initialized then body.preview else []
  let limit := if body.initialized then body.limit else 0
  let truncated := body.initialized && decide (preview.length < size)
  let utf8 := utf8Valid preview
  let mime := bodyMime headers
  bytes "\x7b\"size\":" ++ decimal size ++ bytes "," ++
    (if preview = [] then []
     else if utf8 then bytes "\"preview\":" ++ Json.appendString (untilNul preview) ++ bytes ","
     else bytes "\"preview_base64\":" ++ Json.appendString (base64 body.preview) ++ bytes ",") ++
    bytes "\"preview_bytes\":" ++ decimal preview.length ++
    bytes ",\"truncated\":" ++ trueOrFalse truncated ++
    bytes ",\"truncated_after\":" ++ decimal limit ++
    (if mime = [] then [] else bytes ",\"mime_type\":" ++ Json.appendString mime) ++
    (if body.initialized then bytes ",\"encoding\":" ++
      Json.appendString (if utf8 then bytes "utf8" else bytes "base64") else []) ++
    bytes "\x7d"

/-- `developer_append_message`. -/
def appendMessage (headers : List Header) (body : Body) : Bytes :=
  bytes "\x7b" ++
    (if headers = [] then [] else bytes "\"headers\":" ++ appendHeaders headers ++ bytes ",") ++
    bytes "\"body\":" ++ appendBody body headers ++ bytes "\x7d"

/-- A member that is left out when it is empty. -/
def appendOptional (key : String) (value : Bytes) : Bytes :=
  if value = [] then [] else bytes ",\"" ++ bytes key ++ bytes "\":" ++ Json.appendString value

/-- The front of a record, up to its URL. -/
def entryFront (texts : Texts) (e : Entry) : Bytes :=
  bytes "\x7b\"id\":" ++ Json.appendString e.identifier ++
    appendOptional "conn_id" e.connectionIdentifier ++ appendOptional "profile" e.profile ++
    appendOptional "client_addr" e.clientAddress ++ appendOptional "chain_name" e.chainName ++
    bytes ",\"started_at\":" ++ appendTimestamp texts e.startedNs ++
    bytes ",\"finished_at\":" ++ appendTimestamp texts e.finishedNs ++
    bytes ",\"method\":" ++ Json.appendString e.method ++ bytes ",\"url\":"

/-- `developer_append_entry`. -/
def appendEntry (texts : Texts) (e : Entry) : Bytes :=
  entryFront texts e ++ (Json.appendString e.url ++
    (bytes ",\"scheme\":" ++ Json.appendString e.scheme ++
      bytes ",\"host\":" ++ Json.appendString e.host ++
      (if e.status = 0 then [] else bytes ",\"status\":" ++ decimalInt e.status) ++
      bytes ",\"request\":" ++ appendMessage e.requestHeaders e.requestBody ++
      bytes ",\"response\":" ++ appendMessage e.responseHeaders e.responseBody ++
      appendOptional "error" (e.errorMessage.getD []) ++ bytes "\x7d"))

/-- `ch_developer_entry_json`. -/
def entryJson (texts : Texts) (m : Manager) (identifier : Bytes) : Except Error Bytes :=
  if identifier = [] then .error identifierRequired
  else
    match m.findEntry identifier with
    | none => .error entryNotFound
    | some e => .ok (appendEntry texts e)

/-! ## Lists of records -/

/-- A `developer_filter`. -/
structure Filter where
  methods : Option Json := none
  statusMin : Int := 0
  statusMax : Int := 0
  host : Option Bytes := none
  scheme : Option Bytes := none
  contentType : Option Bytes := none
  query : Option Bytes := none
  errorOnly : Bool := false
  limit : Nat := 200

def invalidFilter : Error :=
  .set .invalidArgument (bytes "invalid developer entry filter")

def filterNotObject : Error :=
  .set .invalidArgument (bytes "developer entry filter must be an object")

/-- A member that has to be a string if it is there. -/
def filterString (root : Json) (key : String) : Except Error (Option Bytes) :=
  match Json.objectGet (some root) (bytes key) with
  | none => .ok none
  | some value =>
    match Json.stringValue (some value) with
    | none => .error invalidFilter
    | some text => .ok (some text)

/-- A member that has to be a number from zero on if it is there. -/
def filterNumber (root : Json) (key : String) (fallback : Int) : Except Error Int :=
  match Json.objectGet (some root) (bytes key) with
  | none => .ok fallback
  | some value =>
    match Json.int64Value (some value) with
    | none => .error invalidFilter
    | some number => if number < 0 then .error invalidFilter else .ok number

/-- The methods of a filter: an array of strings. -/
def filterMethods (root : Json) : Except Error (Option Json) :=
  match Json.objectGet (some root) (bytes "methods") with
  | none => .ok none
  | some methods =>
    if methods.isArray && (Json.items (some methods)).all fun item ↦
      (Json.stringValue (some item)).isSome then .ok (some methods)
    else .error invalidFilter

/-- The member `error_only`. -/
def filterErrorOnly (root : Json) : Except Error Bool :=
  match Json.objectGet (some root) (bytes "error_only") with
  | none => .ok false
  | some (.boolean b) => .ok b
  | some _ => .error invalidFilter

/-- `developer_filter_parse`. -/
def filterParse (request : Bytes) : Except Error Filter := do
  let root ← Json.parse (if request = [] then bytes "\x7b\x7d" else request)
  if !root.isObject then .error filterNotObject
  else
    let methods ← filterMethods root
    let host ← filterString root "host"
    let scheme ← filterString root "scheme"
    let contentType ← filterString root "content_type"
    let query ← filterString root "query"
    let statusMin ← filterNumber root "status_min" 0
    let statusMax ← filterNumber root "status_max" 0
    let limit ← filterNumber root "limit" 200
    let errorOnly ← filterErrorOnly root
    return {
      methods := methods, statusMin := statusMin, statusMax := statusMax, host := host
      scheme := scheme, contentType := contentType, query := query, errorOnly := errorOnly
      limit := limit.toNat }

/-- `developer_contains_case`. -/
def containsCase (text : Option Bytes) (needle : Option Bytes) : Bool :=
  match needle with
  | none | some [] => true
  | some needle => text.any fun text ↦ contains (lower needle) (lower text)

/-- `developer_body_contains`. -/
def bodyContains (body : Body) (query : Option Bytes) : Bool :=
  match query with
  | none | some [] => true
  | some query => utf8Valid body.preview && containsCase (some (untilNul body.preview)) (some query)

/-- `developer_headers_contain`. -/
def headersContain (headers : List Header) (query : Option Bytes) : Bool :=
  headers.any fun h ↦ containsCase (some h.name) query || containsCase (some h.value) query

/-- Is the method of a record one of the filter's? -/
def methodMatches (e : Entry) (methods : Option Json) : Bool :=
  match Json.items methods with
  | [] => true
  | items => items.any fun item ↦ (Json.stringValue (some item)).any (strcaseeq · e.method)

/-- Is the status of a record in the range of the filter? -/
def statusMatches (e : Entry) (filter : Filter) : Bool :=
  if 0 < filter.statusMin ∨ 0 < filter.statusMax then
    !(e.status == 0 || (decide (0 < filter.statusMin) && decide (e.status < filter.statusMin)) ||
      (decide (0 < filter.statusMax) && decide (filter.statusMax < e.status)))
  else true

/-- Does the text of the filter occur in a record? -/
def queryMatches (e : Entry) (query : Option Bytes) : Bool :=
  match query with
  | none | some [] => true
  | some text =>
    [some e.method, some e.url, some e.host, some e.scheme, some e.chainName, some e.profile,
      some (decimalInt e.status), e.errorMessage].any (containsCase · (some text)) ||
    headersContain e.requestHeaders query || headersContain e.responseHeaders query ||
    bodyContains e.requestBody query || bodyContains e.responseBody query

/-- `developer_entry_matches`. -/
def entryMatches (e : Entry) (filter : Filter) : Bool :=
  methodMatches e filter.methods && statusMatches e filter &&
    containsCase (some e.host) filter.host &&
    (match filter.scheme with
      | none | some [] => true
      | some scheme => strcaseeq e.scheme scheme) &&
    (!filter.errorOnly || e.errorMessage.getD [] != []) &&
    (containsCase (some (bodyMime e.requestHeaders)) filter.contentType ||
      containsCase (some (bodyMime e.responseHeaders)) filter.contentType) &&
    queryMatches e filter.query

/-- `ch_developer_entries_json`. -/
def entriesJson (texts : Texts) (m : Manager) (request : Bytes) : Except Error Bytes :=
  (filterParse request).map fun filter ↦
    let entries := m.entries.filter (entryMatches · filter)
    let shown := if filter.limit = 0 then entries else entries.take filter.limit
    bytes "\x7b\"entries\":" ++ appendList (shown.map (appendEntry texts)) ++ bytes "\x7d"

/-! ## Archives -/

/-- `developer_status_text`. -/
def statusText (status : Int) : Bytes :=
  bytes <|
    if status = 200 then "OK"
    else if status = 201 then "Created"
    else if status = 202 then "Accepted"
    else if status = 204 then "No Content"
    else if status = 301 then "Moved Permanently"
    else if status = 302 then "Found"
    else if status = 304 then "Not Modified"
    else if status = 400 then "Bad Request"
    else if status = 401 then "Unauthorized"
    else if status = 403 then "Forbidden"
    else if status = 404 then "Not Found"
    else if status = 500 then "Internal Server Error"
    else if status = 502 then "Bad Gateway"
    else if status = 503 then "Service Unavailable"
    else ""

/-- `developer_append_har_body`. -/
def appendHarBody (body : Body) (headers : List Header) (response : Bool) : Bytes :=
  let utf8 := utf8Valid body.preview
  let text := if utf8 then untilNul body.preview else base64 body.preview
  let encoding := if body.initialized then (if utf8 then bytes "utf8" else bytes "base64") else []
  bytes "\x7b" ++ (if response then bytes "\"size\":" ++ decimal body.size ++ bytes "," else []) ++
    bytes "\"mimeType\":" ++ Json.appendString (bodyMime headers) ++
    bytes ",\"text\":" ++ Json.appendString text ++
    (if !utf8 && body.preview != [] then bytes ",\"encoding\":\"base64\"" else []) ++
    bytes ",\"_clambhook\":\x7b" ++
    (if response then [] else bytes "\"size\":" ++ decimal body.size ++ bytes ",") ++
    bytes "\"preview_bytes\":" ++ decimal body.preview.length ++
    bytes ",\"truncated\":" ++ trueOrFalse body.cut ++
    bytes ",\"truncated_after\":" ++ decimal body.limit ++
    bytes ",\"encoding\":\"" ++ encoding ++ bytes "\"\x7d\x7d"

/-- `developer_append_har_headers`. -/
def appendHarHeaders (headers : List Header) : Bytes :=
  appendList (headers.map
    (appendHeader ",\"_clambhook_redacted\":true" ",\"_clambhook_truncated\":true"))

/-- `developer_append_har_entry`. -/
def appendHarEntry (texts : Texts) (e : Entry) : Bytes :=
  let duration := texts.milliseconds (max (e.finishedNs - e.startedNs) 0)
  bytes "\x7b\"startedDateTime\":" ++ appendTimestamp texts e.startedNs ++
    bytes ",\"time\":" ++ duration ++ bytes ",\"request\":\x7b\"method\":" ++
    Json.appendString e.method ++ bytes ",\"url\":" ++ Json.appendString e.url ++
    bytes ",\"httpVersion\":\"HTTP/1.1\",\"headers\":" ++ appendHarHeaders e.requestHeaders ++
    bytes ",\"queryString\":[],\"cookies\":[],\"headersSize\":-1,\"bodySize\":" ++
    decimal e.requestBody.size ++ bytes ",\"postData\":" ++
    appendHarBody e.requestBody e.requestHeaders false ++
    bytes "\x7d,\"response\":\x7b\"status\":" ++ decimalInt e.status ++
    bytes ",\"statusText\":" ++ Json.appendString (statusText e.status) ++
    bytes ",\"httpVersion\":\"HTTP/1.1\",\"headers\":" ++ appendHarHeaders e.responseHeaders ++
    bytes ",\"cookies\":[],\"content\":" ++ appendHarBody e.responseBody e.responseHeaders true ++
    bytes ",\"redirectURL\":\"\",\"headersSize\":-1,\"bodySize\":" ++
    decimal e.responseBody.size ++
    bytes "\x7d,\"cache\":\x7b\x7d,\"timings\":\x7b\"blocked\":-1,\"dns\":-1,\"connect\":-1," ++
    bytes "\"ssl\":-1,\"send\":0,\"wait\":" ++ duration ++
    bytes ",\"receive\":0\x7d,\"_clambhook\":\x7b\"id\":" ++ Json.appendString e.identifier ++
    bytes ",\"conn_id\":" ++ Json.appendString e.connectionIdentifier ++
    bytes ",\"profile\":" ++ Json.appendString e.profile ++
    bytes ",\"chain_name\":" ++ Json.appendString e.chainName ++
    bytes ",\"client_addr\":" ++ Json.appendString e.clientAddress ++
    bytes ",\"scheme\":" ++ Json.appendString e.scheme ++
    bytes ",\"host\":" ++ Json.appendString e.host ++
    bytes ",\"error\":" ++ Json.appendString (e.errorMessage.getD []) ++
    bytes ",\"request_body_truncated\":" ++ trueOrFalse e.requestBody.cut ++
    bytes ",\"response_body_truncated\":" ++ trueOrFalse e.responseBody.cut ++
    bytes ",\"request_preview_bytes\":" ++ decimal e.requestBody.preview.length ++
    bytes ",\"response_preview_bytes\":" ++ decimal e.responseBody.preview.length ++
    bytes ",\"request_truncated_after\":" ++ decimal e.requestBody.limit ++
    bytes ",\"response_truncated_after\":" ++ decimal e.responseBody.limit ++ bytes "\x7d\x7d"

/-- `ch_developer_har_json`. -/
def harJson (texts : Texts) (m : Manager) : Bytes :=
  bytes "\x7b\"log\":\x7b\"version\":\"1.2\",\"creator\":\x7b\"name\":\"clambhook\"," ++
    bytes "\"version\":\"dev\"\x7d,\"entries\":" ++
    appendList (m.entries.reverse.map (appendHarEntry texts)) ++ bytes "\x7d\x7d"

/-! ## Breakpoints -/

/-- `developer_rule_matches`. -/
def ruleMatches (rule : Json) (request : Proxy.Message) : Bool :=
  let isMember := fun key ↦ Json.objectGet (some rule) (bytes key)
  if !Json.boolValue (isMember "enabled") false then false
  else
    match isMember "match" with
    | some (.object members) =>
      let field := fun key ↦
        Json.stringValue (Json.objectGet (some (.object members)) (bytes key))
      let methods := Json.items (Json.objectGet (some (.object members)) (bytes "methods"))
      (methods.isEmpty || methods.any fun item ↦
        (Json.stringValue (some item)).any (strcaseeq · request.method)) &&
      (field "host").all (fun host ↦ host == [] || strcaseeq host request.host) &&
      (field "path_prefix").all (fun start ↦ start == [] || start.isPrefixOf request.path) &&
      (field "url_contains").all (fun text ↦ text == [] || contains text request.url)
    | _ => true

/-- The stages of a breakpoint. -/
inductive Stage where
  | request
  | response
deriving DecidableEq, Repr

def Stage.text : Stage → Bytes
  | .request => bytes "request"
  | .response => bytes "response"

/-- `developer_stage_matches`. -/
def stageMatches (rule : Json) (stage : Stage) : Bool :=
  (Json.stringValue (Json.objectGet (some rule) (bytes "stage"))).any fun configured ↦
    configured == bytes "both" || configured == stage.text

/-- A `ch_developer_pending`, as far as it is shown. -/
structure Pending where
  identifier : Bytes
  ruleIdentifier : Bytes
  ruleName : Bytes
  stage : Stage
  createdNs : Int
  request : Proxy.Message
  response : Option Proxy.Message

/-- A manager with its breakpoints. -/
structure Tooling where
  manager : Manager
  breakpointRules : List Json
  pending : List Pending := []
  nextPendingIdentifier : Nat := 0

/-- What `developer_breakpoint_wait` adds to the list while it waits; a manager that is not enabled
has no breakpoints. -/
def Tooling.pause (t : Tooling) (stage : Stage) (request : Proxy.Message)
    (response : Option Proxy.Message) (now : Int) : Option Pending :=
  if t.manager.settings.enabled then
    (t.breakpointRules.find? fun rule ↦ ruleMatches rule request && stageMatches rule stage).map
      fun rule ↦
        { identifier := bytes "bp-" ++ decimal ((t.nextPendingIdentifier + 1) % 2 ^ 64)
          ruleIdentifier :=
            (Json.stringValue (Json.objectGet (some rule) (bytes "id"))).getD []
          ruleName := (Json.stringValue (Json.objectGet (some rule) (bytes "name"))).getD []
          stage := stage
          createdNs := now
          request := request
          response := response }
  else none

/-- A header in `developer_append_http_headers`, as it is shown. -/
def shownHeader (settings : Settings) (h : Proxy.Header) : Header :=
  let redacted := nameInList h.name settings.redactHeaders
  let truncated := !redacted && decide (settings.headerValueLimit < h.value.length)
  { name := h.name
    value :=
      if truncated then h.value.take settings.headerValueLimit
      else if redacted then bytes "[redacted]" else h.value
    redacted := redacted
    truncated := truncated }

/-- A member of `developer_append_http_message` that is left out when it is empty. -/
def messageField (key : String) (value : Bytes) : List Bytes :=
  if value = [] then [] else [bytes "\"" ++ bytes key ++ bytes "\":" ++ Json.appendString value]

/-- The members of `developer_append_http_message`. -/
def messageFields (settings : Settings) (m : Proxy.Message) (response : Bool) : List Bytes :=
  (if response then
    (if m.status = 0 then [] else [bytes "\"status\":" ++ decimalInt m.status])
   else messageField "method" m.method ++ messageField "url" m.url) ++
  (if m.headers = [] then []
   else [bytes "\"headers\":" ++ appendHeaders (m.headers.map (shownHeader settings))]) ++
  (if m.bodySet || m.body != [] then
    [bytes "\"body\":" ++ Json.appendString (m.body.map fun b ↦ if b = 0 then 63 else b) ++
      bytes ",\"body_set\":true"]
   else [])

/-- `developer_append_http_message`. -/
def appendHttpMessage (settings : Settings) (m : Proxy.Message) (response : Bool) : Bytes :=
  bytes "\x7b" ++ (bytes ",").intercalate (messageFields settings m response) ++ bytes "\x7d"

/-- A message that is held up. -/
def appendPending (texts : Texts) (settings : Settings) (p : Pending) : Bytes :=
  bytes "\x7b\"id\":" ++ Json.appendString p.identifier ++
    (bytes ",\"rule_id\":" ++ (Json.appendString p.ruleIdentifier ++
      (appendOptional "rule_name" p.ruleName ++
        (bytes ",\"stage\":" ++ Json.appendString p.stage.text ++
          bytes ",\"created_at\":" ++ appendTimestamp texts p.createdNs ++
          bytes ",\"request\":" ++ (appendHttpMessage settings p.request false ++
            ((p.response.map fun response ↦
              bytes ",\"response\":" ++ appendHttpMessage settings response true).getD [] ++
            bytes "\x7d"))))))

/-- `ch_developer_pending_breakpoints_json`. -/
def pendingBreakpointsJson (texts : Texts) (t : Tooling) : Bytes :=
  bytes "\x7b\"breakpoints\":" ++
    appendList (t.pending.map (appendPending texts t.manager.settings)) ++ bytes "\x7d"

end ClambHook.Developer
