import ClambHook.Basic
import Mathlib.Data.List.Sort

/-!
# Captured exchanges

The part of `developer.c` that records the exchanges of the proxy.  `ch_developer_capture_begin`
starts a record with the method, the URL and the headers of a request.  The bytes of the body and of
the reply are added as they come, and `ch_developer_capture_finish` puts the record in front of the
others.  The values on the redaction lists are replaced before they are stored.

A capture that is under way belongs to the connection that began it.  Here the manager has a list of
them, and a step names one by its place.

The text of a header is read from memory that may hold a NUL, and is a C string from then on:
`untilNul` is what is left of it.  Allocations succeed.
-/

namespace ClambHook.Developer

open CString

/-! ## Records -/

/-- A `ch_developer_header`. -/
structure Header where
  name : Bytes
  value : Bytes
  redacted : Bool := false
  truncated : Bool := false
deriving DecidableEq, Repr

/-- A `ch_developer_body`. -/
structure Body where
  limit : Nat := 0
  initialized : Bool := false
  size : Nat := 0
  preview : Bytes := []
deriving DecidableEq, Repr

/-- A `ch_developer_entry`. -/
structure Entry where
  identifier : Bytes
  connectionIdentifier : Bytes
  profile : Bytes
  clientAddress : Bytes
  chainName : Bytes
  startedNs : Int
  finishedNs : Int := 0
  method : Bytes
  url : Bytes
  scheme : Bytes
  host : Bytes
  status : Int := 0
  requestHeaders : List Header
  responseHeaders : List Header := []
  requestBody : Body
  responseBody : Body := {}
  errorMessage : Option Bytes := none
deriving DecidableEq, Repr

/-- A `ch_developer_capture`. -/
structure Capture where
  entry : Entry
  redactHeaders : List Bytes
  headerValueLimit : Nat
  responseHeaderBuffer : Bytes := []
  responseHeadersComplete : Bool := false
deriving DecidableEq, Repr

/-- The settings of a `ch_developer_manager` that a capture reads. -/
structure Settings where
  enabled : Bool
  captureLimit : Nat
  bodyLimit : Nat
  headerValueLimit : Nat
  redactHeaders : List Bytes
  redactQueryParams : List Bytes
deriving DecidableEq, Repr

/-- A `ch_developer_manager`, with the captures that are under way. -/
structure Manager where
  settings : Settings
  entries : List Entry := []
  nextIdentifier : Nat := 0
  captures : List Capture := []
deriving DecidableEq, Repr

/-- A `ch_developer_capture_metadata`. -/
structure Metadata where
  flowId : Nat
  profile : Option Bytes
  clientAddress : Option Bytes
  chainName : Option Bytes
  method : Bytes
  url : Bytes
  scheme : Option Bytes
  host : Option Bytes
  requestHeaders : Bytes
deriving DecidableEq, Repr

/-! ## Headers -/

/-- `developer_name_in_list`. -/
def nameInList (name : Bytes) (values : List Bytes) : Bool :=
  values.any (strcaseeq name)

/-- The order of `strcmp`. -/
def strcmp : Bytes → Bytes → Ordering
  | [], [] => .eq
  | [], _ :: _ => .lt
  | _ :: _, [] => .gt
  | b :: s, c :: t => (compare b c).then (strcmp s t)

/-- `developer_header_compare`, as the order that `qsort` is given. -/
def headerLe (a b : Header) : Bool :=
  (strcmp (lower a.name) (lower b.name)).then (strcmp a.value b.value) != .gt

/-- The lines of a text, without the ends of the lines. -/
def splitLines : Bytes → List Bytes
  | 13 :: 10 :: rest => [] :: splitLines rest
  | c :: rest =>
    match splitLines rest with
    | [] => [[c]]
    | line :: lines => (c :: line) :: lines
  | [] => [[]]

/-- The value that is stored for a header, and whether it was cut. -/
def storedValue (redacted : Bool) (limit : Nat) (value : Bytes) : Bytes × Bool :=
  if redacted then (bytes "[redacted]", false)
  else if limit < value.length then (untilNul (value.take limit), true)
  else (untilNul value, false)

/-- The header on a line, unless the line has no name. -/
def parseHeader (redactHeaders : List Bytes) (limit : Nat) (line : Bytes) : Option Header :=
  match splitFirst 58 line with
  | none | some ([], _) => none
  | some (front, back) =>
    let name := untilNul (trimRight front)
    let redacted := nameInList name redactHeaders
    let (value, truncated) := storedValue redacted limit (trim back)
    some { name := name, value := value, redacted := redacted, truncated := truncated }

/-- `developer_parse_headers` behind the first line of a reply.  The order of headers that compare
equal is not specified for `qsort`; here they keep it. -/
def parseHeaders (redactHeaders : List Bytes) (limit : Nat) (text : Bytes) : List Header :=
  (((splitLines text).takeWhile (· ≠ [])).filterMap (parseHeader redactHeaders limit)).insertionSort
    (headerLe · ·)

/-! ## URLs -/

/-- A parameter of a query, with `[redacted]` in place of its value when its name is on the list. -/
def redactPart (names : List Bytes) (part : Bytes) : Bytes :=
  match splitFirst 61 part with
  | none => part
  | some (name, _) =>
    if nameInList (lower name) names then name ++ [61] ++ bytes "%5Bredacted%5D" else part

/-- The parameters of a query. -/
def redactQuery (names : List Bytes) (query : Bytes) : Bytes :=
  [38].intercalate ((query.splitOn 38).map (redactPart names))

/-- `developer_redact_url`. -/
def redactUrl (url : Bytes) (names : List Bytes) : Bytes :=
  match splitFirst 63 url with
  | none => url
  | some (front, back) =>
    if names = [] then url
    else
      match splitFirst 35 back with
      | none => front ++ [63] ++ redactQuery names back
      | some (query, fragment) => front ++ [63] ++ redactQuery names query ++ [35] ++ fragment

/-! ## Bodies -/

/-- `developer_body_initialize`. -/
def Body.initializeWith (body : Body) (limit : Nat) : Body :=
  { body with limit := limit, initialized := true }

/-- `developer_body_write`. -/
def Body.write (body : Body) (text : Bytes) : Body :=
  if body.initialized then
    { body with
      size := min (body.size + text.length) ulongMax
      preview := body.preview ++ text.take (body.limit - body.preview.length) }
  else body

/-! ## Captures -/

/-- `ch_developer_capture_begin`, for a manager that is enabled. -/
def captureBegin (m : Manager) (metadata : Metadata) (now : Int) : Capture where
  entry := {
    identifier := bytes "dev-" ++ decimal ((m.nextIdentifier + 1) % 2 ^ 64)
    connectionIdentifier :=
      if metadata.flowId = 0 then [] else bytes "conn-" ++ decimal metadata.flowId
    profile := metadata.profile.getD []
    clientAddress := metadata.clientAddress.getD []
    chainName := metadata.chainName.getD []
    startedNs := now
    method := metadata.method
    url := redactUrl metadata.url m.settings.redactQueryParams
    scheme := metadata.scheme.getD (bytes "http")
    host := metadata.host.getD []
    requestHeaders :=
      parseHeaders m.settings.redactHeaders m.settings.headerValueLimit metadata.requestHeaders
    requestBody := Body.initializeWith {} m.settings.bodyLimit }
  redactHeaders := m.settings.redactHeaders
  headerValueLimit := m.settings.headerValueLimit

/-- `ch_developer_capture_request_body`. -/
def Capture.requestBody (c : Capture) (text : Bytes) : Capture :=
  { c with entry := { c.entry with requestBody := c.entry.requestBody.write text } }

def maxHeaderBytes : Nat := 1024 * 1024

/-- The number that `sscanf` reads with `HTTP/%*s %d`: a word behind the slash, and an `int`. -/
def scanStatus (text : Bytes) : Option Int :=
  if (bytes "HTTP/").isPrefixOf text then
    let word := trimLeft (text.drop 5)
    let rest := word.dropWhile (!isspace ·)
    let number := strtol rest
    if word = [] ∨ number.rest = rest then none
    else some (Int.bmod number.value (2 ^ 32))
  else none

/-- The status of a reply; one that cannot be read leaves the entry as it was. -/
def Entry.withStatus (e : Entry) (text : Bytes) : Entry :=
  match scanStatus text with
  | some status => if 100 ≤ status ∧ status ≤ 999 then { e with status := status } else e
  | none => e

def headersTooLong : Bytes :=
  bytes "response headers exceed 1 MiB capture limit"

/-- `developer_capture_response_headers`, as long as the headers are not complete. -/
def Capture.responseHeaders (c : Capture) (text : Bytes) : Capture :=
  if maxHeaderBytes - c.responseHeaderBuffer.length < text.length then
    { c with entry := { c.entry with errorMessage := some headersTooLong } }
  else
    let buffer := c.responseHeaderBuffer ++ text
    match strstr [13, 10, 13, 10] (untilNul buffer) with
    | none => { c with responseHeaderBuffer := buffer }
    | some (head, _) =>
      let entry := c.entry.withStatus (untilNul buffer)
      let headers := ((splitLines (head ++ [13, 10])).drop 1).takeWhile (· ≠ [])
      let body := (Body.initializeWith entry.responseBody entry.requestBody.limit).write
        (buffer.drop (head.length + 4))
      { c with
        responseHeaderBuffer := buffer
        responseHeadersComplete := true
        entry := { entry with
          responseHeaders := (headers.filterMap
            (parseHeader c.redactHeaders c.headerValueLimit)).insertionSort (headerLe · ·)
          responseBody := body } }

/-- `ch_developer_capture_response`. -/
def Capture.response (c : Capture) (text : Bytes) : Capture :=
  if c.responseHeadersComplete then
    { c with entry := { c.entry with responseBody := c.entry.responseBody.write text } }
  else c.responseHeaders text

def closedEarly : Bytes :=
  bytes "response closed before headers completed"

/-- The record that `ch_developer_capture_finish` keeps. -/
def Capture.finish (c : Capture) (message : Option Bytes) (now : Int) : Entry :=
  let given := message.filter (· ≠ [])
  let message := if given = none ∧ ¬ c.responseHeadersComplete then some closedEarly else given
  { c.entry with
    finishedNs := now
    errorMessage := c.entry.errorMessage.or message }

/-- `developer_manager_add_locked`. -/
def Manager.add (m : Manager) (e : Entry) : Manager :=
  if m.settings.enabled ∧ m.settings.captureLimit ≠ 0 then
    { m with entries := e :: m.entries.take (m.settings.captureLimit - 1) }
  else m

/-! ## Runs -/

/-- What can happen to a manager. -/
inductive Step where
  | configure (settings : Settings)
  | begin (metadata : Metadata) (now : Int)
  | requestBody (place : Nat) (text : Bytes)
  | response (place : Nat) (text : Bytes)
  | finish (place : Nat) (message : Option Bytes) (now : Int)
  | clear

/-- `ch_developer_manager_configure`, as far as captures go. -/
def Manager.configure (m : Manager) (settings : Settings) : Manager :=
  { m with
    settings := settings
    entries :=
      if settings.enabled ∧ m.settings.enabled then m.entries.take settings.captureLimit else [] }

/-- One step. -/
def Manager.step (m : Manager) : Step → Manager
  | .configure settings => m.configure settings
  | .begin metadata now =>
    if m.settings.enabled then
      { m with
        nextIdentifier := (m.nextIdentifier + 1) % 2 ^ 64
        captures := m.captures ++ [captureBegin m metadata now] }
    else m
  | .requestBody place text =>
    { m with captures := m.captures.modify place (·.requestBody text) }
  | .response place text => { m with captures := m.captures.modify place (·.response text) }
  | .finish place message now =>
    match m.captures[place]? with
    | none => m
    | some c => { m with captures := m.captures.eraseIdx place }.add (c.finish message now)
  | .clear => { m with entries := [] }

/-- A `char` string of the caller. -/
def IsCString (s : Bytes) : Prop :=
  0 ∉ s

/-- What the callers promise of a request: its method and URL are C strings, and the URL is one that
the proxy or the client of the developer tools took for a request, so that its scheme is `http` or
`https`. -/
structure Metadata.Valid (metadata : Metadata) : Prop where
  method : IsCString metadata.method
  url : IsCString metadata.url
  scheme : ∃ rest, lower metadata.url = bytes "http://" ++ rest ∨
    lower metadata.url = bytes "https://" ++ rest

/-- A step whose arguments are what the callers promise. -/
def Step.Valid : Step → Prop
  | .begin metadata _ => metadata.Valid
  | _ => True

/-- The managers of runs from the start. -/
inductive Reachable : Manager → Prop where
  | init (settings : Settings) : Reachable { settings := settings }
  | step {m : Manager} {s : Step} (h : Reachable m) (hs : s.Valid) : Reachable (m.step s)

end ClambHook.Developer
