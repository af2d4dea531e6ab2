import ClambHook.Basic

/-!
# HTTP messages in the intercepting proxy

The part of `listener.c` that reads an HTTP message, hands it to the developer tools and writes it
to the other side.  Messages are read by llhttp, which calls the functions of `listener.c` back for
each piece of the message that it finds in the bytes of one read; `Event` is such a call.  llhttp
itself is not modelled.  It goes on to the end of the bytes it was given also behind the end of a
message: a callback that wants it to stop has to return `HPE_PAUSED`, and
`ch_http_parser_message_complete` calls `llhttp_pause` and returns zero instead.

Allocations succeed.  Statistics and captures are left out.
-/

namespace ClambHook.Proxy

open CString

/-! ## Messages -/

/-- A `ch_developer_http_header`. -/
structure Header where
  name : Bytes
  value : Bytes
deriving DecidableEq, Repr

/-- The header has the name, in any case. -/
def Header.named (h : Header) (name : String) : Bool :=
  strcaseeq h.name (bytes name)

/-- A `ch_developer_http_message`. -/
structure Message where
  method : Bytes := []
  url : Bytes := []
  host : Bytes := []
  path : Bytes := []
  status : Int := 0
  headers : List Header := []
  body : Bytes := []
  bodySet : Bool := false
deriving DecidableEq, Repr

/-- `ch_http_message_header`: the value of the first header with the name. -/
def messageHeader (m : Message) (name : String) : Option Bytes :=
  (m.headers.find? (·.named name)).map Header.value

/-- `ch_http_message_header_add`. -/
def messageHeaderAdd (m : Message) (name value : Bytes) : Message :=
  { m with headers := m.headers ++ [⟨name, value⟩] }

/-- `ch_http_message_header_remove`. -/
def messageHeaderRemove (m : Message) (name : String) : Message :=
  { m with headers := m.headers.filter (!·.named name) }

/-! ## Reading -/

/-- A call of llhttp.  The fields of the parser that the callback for the end of the headers reads
are part of it. -/
inductive Event where
  | url (text : Bytes)
  | headerField (text : Bytes)
  | headerValue (text : Bytes)
  | headersComplete (method : Bytes) (status : Nat)
  | body (text : Bytes)
  | messageComplete
deriving DecidableEq, Repr

def maxHeaderBytes : Nat := 1024 * 1024
def maxBodyBytes : Nat := 256 * 1024 * 1024

/-- A `ch_http_parser_context`. -/
structure Context where
  response : Bool
  url : Bytes := []
  headerName : Bytes := []
  headerValue : Bytes := []
  readingValue : Bool := false
  headerBytes : Nat := 0
  message : Message := {}
  complete : Bool := false
deriving DecidableEq, Repr

/-- `ch_http_parser_finalize_header`. -/
def finalizeHeader (c : Context) : Context :=
  if c.headerName = [] then c
  else { c with
    message := messageHeaderAdd c.message c.headerName c.headerValue
    headerName := []
    headerValue := []
    readingValue := false }

/-- A reply that is followed by another one. -/
def interim (status : Int) : Bool :=
  decide (100 ≤ status) && decide (status < 200) && status != 101

/-- What the callbacks do when they succeed. -/
def advance (c : Context) : Event → Context
  | .url text => { c with url := c.url ++ text }
  | .headerField text =>
    let c := if c.readingValue then finalizeHeader c else c
    { c with headerBytes := c.headerBytes + text.length, headerName := c.headerName ++ text }
  | .headerValue text =>
    { c with
      readingValue := true
      headerBytes := c.headerBytes + text.length
      headerValue := c.headerValue ++ text }
  | .headersComplete method status =>
    let c := finalizeHeader c
    if c.response then { c with message := { c.message with status := status } }
    else { c with message := { c.message with method := method } }
  | .body text =>
    { c with message := { c.message with
      body := c.message.body ++ text
      bodySet := c.message.bodySet || text != [] } }
  | .messageComplete =>
    if c.response && interim c.message.status then
      { c with message := {}, headerBytes := 0, readingValue := false }
    else { c with complete := true }

/-- The callbacks that fail with `HPE_USER`. -/
def overflows (c : Context) : Event → Bool
  | .headerField text => decide (maxHeaderBytes < c.headerBytes + text.length)
  | .headerValue text => decide (maxHeaderBytes < c.headerBytes + text.length)
  | .body text => decide (maxBodyBytes < c.message.body.length + text.length)
  | _ => false

/-- One callback. -/
def step (c : Context) (e : Event) : Option Context :=
  if overflows c e then none else some (advance c e)

/-- The loop of `ch_http_parse_message`: one call of llhttp for the bytes of each read, until the
message is complete. -/
def readLoop : List (List Event) → Context → Option Context
  | [], c => some c
  | read :: reads, c => if c.complete then some c else (read.foldlM step c).bind (readLoop reads)

/-- Does the text start with the prefix, in any case? -/
def startsWith (start : String) (text : Bytes) : Bool :=
  strcaseeq (text.take (bytes start).length) (bytes start)

/-- The bytes that end the authority of an absolute URL. -/
def endsAuthority (c : UInt8) : Bool :=
  c == 47 || c == 63

/-- The authority of a request: its `Host` header, or else what is known of the connection. -/
def requestAuthority (m : Message) (authority : Option Bytes) : Bytes :=
  match messageHeader m "Host" with
  | none | some [] => authority.getD []
  | some host => host

/-- `ch_http_message_derive_request`.  The first `://` of an absolute URL is the one behind its
scheme. -/
def deriveRequest (m : Message) (url : Bytes) (scheme authority : Option Bytes) : Option Message :=
  let authority := requestAuthority m authority
  if startsWith "http://" url || startsWith "https://" url then
    let start := if startsWith "http://" url then url.drop 7 else url.drop 8
    let rest := start.dropWhile (!endsAuthority ·)
    some { m with
      url := url
      host := start.takeWhile (!endsAuthority ·)
      path := if rest = [] then bytes "/" else rest }
  else if authority = [] then none
  else
    let path := if url = [] then bytes "/" else url
    some { m with
      url := scheme.getD (bytes "http") ++ bytes "://" ++ authority ++ path
      host := authority
      path := path }

def invalidTarget : Error :=
  .set .invalidArgument (bytes "HTTP request target is invalid")

/-- The error of a message that cannot be read.  It names the code of llhttp, which is left out. -/
def parseFailed : Error :=
  .set .invalidArgument (bytes "parse HTTP message: ")

/-- The message that was read; a request gets its URL, host and path. -/
def readMessage (c : Context) (scheme authority : Option Bytes) : Except Error Message :=
  if c.response then .ok c.message
  else
    match deriveRequest c.message c.url scheme authority with
    | some m => .ok m
    | none => .error invalidTarget

/-- A message with a header that frames a body has one, if only an empty one. -/
def markBody (m : Message) : Message :=
  if (messageHeader m "Content-Length").isSome || (messageHeader m "Transfer-Encoding").isSome then
    { m with bodySet := true }
  else m

/-- `ch_http_parse_message`. -/
def parseMessage (response : Bool) (scheme authority : Option Bytes) (reads : List (List Event)) :
    Except Error Message :=
  match readLoop reads { response := response } with
  | none => .error parseFailed
  | some c =>
    if c.complete then (readMessage c scheme authority).map markBody else .error parseFailed

/-! ## Writing -/

/-- `ch_http_reason`. -/
def httpReason (status : Int) : Bytes :=
  bytes <|
    if status = 100 then "Continue"
    else if status = 200 then "OK"
    else if status = 201 then "Created"
    else if status = 202 then "Accepted"
    else if status = 204 then "No Content"
    else if status = 206 then "Partial Content"
    else if status = 301 then "Moved Permanently"
    else if status = 302 then "Found"
    else if status = 304 then "Not Modified"
    else if status = 307 then "Temporary Redirect"
    else if status = 308 then "Permanent Redirect"
    else if status = 400 then "Bad Request"
    else if status = 401 then "Unauthorized"
    else if status = 403 then "Forbidden"
    else if status = 404 then "Not Found"
    else if status = 407 then "Proxy Authentication Required"
    else if status = 408 then "Request Timeout"
    else if status = 409 then "Conflict"
    else if status = 413 then "Content Too Large"
    else if status = 429 then "Too Many Requests"
    else if status = 500 then "Internal Server Error"
    else if status = 502 then "Bad Gateway"
    else if status = 503 then "Service Unavailable"
    else if status = 504 then "Gateway Timeout"
    else "Status"

/-- The names of `ch_http_strip_hop_headers`. -/
def hopHeaders : List String :=
  ["Connection", "Proxy-Connection", "Keep-Alive", "Proxy-Authenticate", "Proxy-Authorization",
    "TE", "Trailer", "Transfer-Encoding", "Upgrade"]

/-- `ch_http_strip_hop_headers`. -/
def stripHopHeaders (m : Message) : Message :=
  hopHeaders.foldl messageHeaderRemove m

/-- The headers that `ch_http_serialize_message` writes. -/
def outgoingHeaders (m : Message) : Message :=
  let m := stripHopHeaders m
  if m.bodySet || m.body != [] then
    messageHeaderAdd (messageHeaderRemove m "Content-Length") (bytes "Content-Length")
      (decimal m.body.length)
  else m

def crlf : Bytes := [13, 10]

/-- A header that can be written on a line of its own. -/
def Header.writable (h : Header) : Bool :=
  h.name != [] && !h.name.contains 13 && !h.name.contains 10 && !h.value.contains 13 &&
    !h.value.contains 10

def Header.line (h : Header) : Bytes :=
  h.name ++ bytes ": " ++ h.value ++ crlf

/-- The first line of a message. -/
def startLine (m : Message) (response : Bool) : Bytes :=
  if response then bytes "HTTP/1.1 " ++ decimalInt m.status ++ bytes " " ++ httpReason m.status
  else m.method ++ bytes " " ++ (if m.path = [] then bytes "/" else m.path) ++ bytes " HTTP/1.1"

/-- `ch_http_serialize_message`. -/
def serializeMessage (m : Message) (response : Bool) : Option Bytes :=
  let m := outgoingHeaders m
  if m.headers.all Header.writable then
    some (startLine m response ++ crlf ++ m.headers.flatMap Header.line ++ crlf ++ m.body)
  else none

/-! ## Forwarding -/

/-- A rewrite rule of the developer tools: whether it is for a request, by `developer_rule_matches`,
its stages, and what it makes of a message. -/
structure RewriteRule where
  applies : Message → Bool
  onRequest : Bool
  onResponse : Bool
  rewrite : Message → Message

/-- A breakpoint rule, with what the user makes of the message that is held up. -/
structure BreakpointRule where
  applies : Message → Bool
  onRequest : Bool
  onResponse : Bool
  edit : Message → Message
  drop : Message → Bool

/-- What a map rule makes of a request: an answer of its own, or another request. -/
inductive Mapped where
  | response (message : Message)
  | request (message : Message)

structure MapRule where
  applies : Message → Bool
  target : Message → Except Error Mapped

/-- The settings of a `ch_developer_manager` that change messages. -/
structure Tools where
  enabled : Bool
  noCache : Bool
  rewriteRules : List RewriteRule
  breakpointRules : List BreakpointRule
  mapRules : List MapRule
  /-- What `developer_apply_no_cache_request` and `developer_apply_no_cache_response` do. -/
  freshRequest : Message → Message
  freshResponse : Message → Message

/-- A `ch_developer_http_result`. -/
inductive Processed where
  | drop
  | respond (message : Message)
  | forward (message : Message)

/-- `developer_apply_rewrites`. -/
def applyRewrites (rules : List RewriteRule) (stage : RewriteRule → Bool) (request m : Message) :
    Message :=
  rules.foldl (fun m rule ↦ if rule.applies request && stage rule then rule.rewrite m else m) m

/-- The breakpoint that `developer_breakpoint_wait` stops at. -/
def breakpointFor (rules : List BreakpointRule) (stage : BreakpointRule → Bool)
    (request : Message) :
    Option BreakpointRule :=
  rules.find? fun rule ↦ rule.applies request && stage rule

/-- `ch_developer_process_request`. -/
def processRequest (tools : Option Tools) (request : Message) : Except Error Processed :=
  match tools with
  | none => .ok (.forward request)
  | some tools =>
    if !tools.enabled then .ok (.forward request)
    else
      let m := applyRewrites tools.rewriteRules (·.onRequest) request request
      let stop := breakpointFor tools.breakpointRules (·.onRequest) m
      if stop.any (·.drop m) then .ok .drop
      else
        let m := stop.elim m (·.edit m)
        let m := if tools.noCache then tools.freshRequest m else m
        match tools.mapRules.find? (·.applies m) with
        | none => .ok (.forward m)
        | some rule =>
          match rule.target m with
          | .error e => .error e
          | .ok (.request m) => .ok (.forward m)
          | .ok (.response m) => .ok (.respond (if tools.noCache then tools.freshResponse m else m))

/-- `ch_developer_process_response`, which never answers by itself. -/
def processResponse (tools : Option Tools) (request response : Message) : Processed :=
  match tools with
  | none => .forward response
  | some tools =>
    if !tools.enabled then .forward response
    else
      let m := applyRewrites tools.rewriteRules (·.onResponse) request response
      let stop := breakpointFor tools.breakpointRules (·.onResponse) request
      if stop.any (·.drop m) then .drop
      else
        let m := stop.elim m (·.edit m)
        .forward (if tools.noCache then tools.freshResponse m else m)

/-- `ch_http_send_synthetic`. -/
def synthetic (status : Int) (body : String) : Option Bytes :=
  serializeMessage
    { status := status
      headers := [⟨bytes "Content-Type", bytes "text/plain; charset=utf-8"⟩,
        ⟨bytes "Connection", bytes "close"⟩]
      body := bytes body
      bodySet := true } true

/-- `ch_http_authority_target`: the address to dial, with the default port where there is none. -/
def authorityTarget (authority : Bytes) (defaultPort : String) : Option Bytes :=
  let withPort := authority ++ bytes ":" ++ bytes defaultPort
  if authority = [] then none
  else if authority.head? = some 91 then
    match splitFirst 93 authority with
    | none => none
    | some (_, []) => some withPort
    | some (_, 58 :: _ :: _) => some authority
    | some _ => none
  else
    match splitLast 58 authority with
    | none => some withPort
    | some (front, port) => if 58 ∉ front ∧ port ≠ [] then some authority else none

/-- The address that a message is forwarded to, unless its URL is of another kind. -/
def forwardTarget (m : Message) : Option Bytes :=
  if startsWith "https://" m.url then authorityTarget m.host "443"
  else if startsWith "http://" m.url then authorityTarget m.host "80"
  else none

/-- How the other side is reached. -/
inductive Reach where
  | refused
  | withoutTls
  | connected
deriving DecidableEq, Repr

/-- The other side of an exchange: how it is reached at an address, whether it takes the request,
and the calls that llhttp makes for what it sends. -/
structure Upstream where
  reach : Bytes → Reach
  writable : Bool
  reads : List (List Event)

/-- What `ch_http_forward_message` writes to either side, and whether it succeeds.  Writing to the
client succeeds. -/
structure Forwarded where
  upstream : Option Bytes := none
  client : Option Bytes := none
  okay : Bool
deriving DecidableEq, Repr

/-- The part of `ch_http_forward_message` behind the writing of the request. -/
def forwardResponse (tools : Option Tools) (upstream : Upstream) (outgoing : Message)
    (request : Bytes) : Forwarded :=
  match parseMessage true none none upstream.reads with
  | .error _ => { upstream := some request, okay := false }
  | .ok response =>
    match processResponse tools outgoing response with
    | .forward m =>
      let text := serializeMessage m true
      { upstream := some request, client := text, okay := text.isSome }
    | _ =>
      { upstream := some request, client := synthetic 403 "Dropped by breakpoint", okay := true }

/-- The part of `ch_http_forward_message` behind the developer tools. -/
def forwardRequest (tools : Option Tools) (upstream : Upstream) (outgoing : Message) : Forwarded :=
  match forwardTarget outgoing with
  | none => { client := synthetic 400 "Invalid forwarded URL", okay := false }
  | some target =>
    match upstream.reach target with
    | .refused => { client := synthetic 502 "Bad Gateway", okay := false }
    | .withoutTls => { client := synthetic 502 "TLS upstream failed", okay := false }
    | .connected =>
      match serializeMessage outgoing false with
      | none => { okay := false }
      | some text =>
        if upstream.writable then forwardResponse tools upstream outgoing text
        else { okay := false }

/-- `ch_http_forward_message`. -/
def forwardMessage (tools : Option Tools) (upstream : Upstream) (request : Message) : Forwarded :=
  match processRequest tools request with
  | .error _ => { client := synthetic 502 "Developer tooling failed", okay := false }
  | .ok .drop => { client := synthetic 403 "Dropped by breakpoint", okay := true }
  | .ok (.respond response) =>
    let text := serializeMessage response true
    { client := text, okay := text.isSome }
  | .ok (.forward outgoing) => forwardRequest tools upstream outgoing

end ClambHook.Proxy
