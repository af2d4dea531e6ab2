import ClambHook.Developer.CurlInverse
import ClambHook.Developer.Views
import ClambHook.Proxy.Writing

/-!
# Redaction

What is on the redaction lists should not be seen: two exchanges that differ only in the values of
headers and query parameters on the lists should look alike in every view, at every time.

They do in the records if the names of the parameters are spelled plainly.  A name is compared as it
stands in the URL, up to the case of its letters, so that `%74oken` is no `token` to the redaction,
although it is to every server.  And they do not while a breakpoint holds one of them up: the list
of pending breakpoints redacts headers, but it shows the URL as it is.

An exchange comes by the developer tools up to five times, and a tool may change a message in
between; `Exchange` has the messages as they come by.  `looksAlike_iff_wellRedacted` says exactly
when two exchanges look alike.
-/

namespace ClambHook.Developer

open CString List Json Tooling Proxy

/-! ## URLs -/

/-- A URL in parts: what is in front of the query, the parameters of the query, and the fragment. -/
structure UrlParts where
  front : Bytes
  query : Option (List Bytes)
  fragment : Option Bytes

/-- The parts of a URL. -/
def splitUrl (url : Bytes) : UrlParts :=
  match splitFirst 63 url with
  | none => ⟨url, none, none⟩
  | some (front, back) =>
    match splitFirst 35 back with
    | none => ⟨front, some (back.splitOn 38), none⟩
    | some (query, fragment) => ⟨front, some (query.splitOn 38), some fragment⟩

def UrlParts.join (u : UrlParts) : Bytes :=
  u.front ++ (u.query.map fun parts ↦ 63 :: [38].intercalate parts).getD [] ++
    (u.fragment.map fun fragment ↦ 35 :: fragment).getD []

def UrlParts.params (u : UrlParts) : List Bytes :=
  u.query.getD []

/-- The parts are those of some URL. -/
structure UrlParts.Valid (u : UrlParts) : Prop where
  front : 63 ∉ u.front
  query : ∀ parts, u.query = some parts → parts ≠ [] ∧ ∀ part ∈ parts, 38 ∉ part ∧ 35 ∉ part
  fragment : u.query = none → u.fragment = none

/-- The value of a hexadecimal digit. -/
def hexValue (c : UInt8) : Option UInt8 :=
  if 48 ≤ c ∧ c ≤ 57 then some (c - 48)
  else if 97 ≤ tolower c ∧ tolower c ≤ 102 then some (tolower c - 87)
  else none

/-- A text with its percent-encoded characters decoded. -/
def percentDecode : Bytes → Bytes
  | 37 :: a :: b :: rest =>
    match hexValue a, hexValue b with
    | some high, some low => (high * 16 + low) :: percentDecode rest
    | _, _ => 37 :: percentDecode (a :: b :: rest)
  | c :: rest => c :: percentDecode rest
  | [] => []

/-- Two parameters that differ at most in the value of one that is on the list, by what its name
means. -/
def SamePart (names : List Bytes) (p q : Bytes) : Prop :=
  p = q ∨ ∃ name a b, splitFirst 61 p = some (name, a) ∧ splitFirst 61 q = some (name, b) ∧
    a.length = b.length ∧ nameInList (percentDecode name) names = true

/-- Two URLs that differ at most in the values of parameters on the list. -/
structure SameUrl (names : List Bytes) (u v : Bytes) : Prop where
  front : (splitUrl u).front = (splitUrl v).front
  query : (splitUrl u).query.isSome = (splitUrl v).query.isSome
  params : List.Forall₂ (SamePart names) (splitUrl u).params (splitUrl v).params
  fragment : (splitUrl u).fragment = (splitUrl v).fragment

/-- The parameters in which two URLs differ have their names on the list as they are spelled. -/
def SpelledPlainly (names : List Bytes) (u v : Bytes) : Prop :=
  List.Forall₂ (fun p q ↦ p = q ∨ ∃ name a b, splitFirst 61 p = some (name, a) ∧
    splitFirst 61 q = some (name, b) ∧ nameInList name names = true)
    (splitUrl u).params (splitUrl v).params

theorem notMem_splitOn {sep : UInt8} {s part : Bytes} (h : part ∈ s.splitOn sep) : sep ∉ part := by
  induction s generalizing part with
  | nil => simp_all
  | cons c s ih =>
    rw [splitOn_cons_eq_if_modifyHead] at h
    split at h
    · rcases mem_cons.1 h with rfl | h
      · exact not_mem_nil
      · exact ih h
    · next hc =>
      obtain ⟨first, rest, hsplit⟩ := exists_cons_of_ne_nil (splitOn_ne_nil sep s)
      rw [hsplit] at ih h
      rcases mem_cons.1 h with rfl | h
      · rw [mem_cons, not_or]
        exact ⟨fun heq ↦ hc (by simp [heq]), ih mem_cons_self⟩
      · exact ih (mem_cons_of_mem first h)

theorem valid_splitUrl (url : Bytes) : (splitUrl url).Valid := by
  have hquery : ∀ {query : Bytes}, 35 ∉ query → ∀ parts, some (query.splitOn 38) = some parts →
      parts ≠ [] ∧ ∀ part ∈ parts, 38 ∉ part ∧ 35 ∉ part := by
    intro query hnot parts h
    cases h
    exact ⟨splitOn_ne_nil _ _, fun part hpart ↦
      ⟨notMem_splitOn hpart, fun h ↦ hnot (mem_of_mem_splitOn hpart h)⟩⟩
  rw [splitUrl]
  split
  · next hsplit =>
    refine ⟨splitFirst_eq_none_iff.1 hsplit, fun parts h ↦ ?_, fun _ ↦ rfl⟩
    cases h
  next front back hsplit =>
  obtain ⟨-, hfront⟩ := splitFirst_eq_some_iff.1 hsplit
  split
  · next hfragment =>
    exact ⟨hfront, hquery (splitFirst_eq_none_iff.1 hfragment), fun h ↦ by cases h⟩
  · next query fragment hfragment =>
    exact ⟨hfront, hquery (splitFirst_eq_some_iff.1 hfragment).2, fun h ↦ by cases h⟩

theorem join_splitUrl (url : Bytes) : (splitUrl url).join = url := by
  rw [splitUrl]
  split
  · simp [UrlParts.join]
  next front back hsplit =>
  obtain ⟨rfl, -⟩ := splitFirst_eq_some_iff.1 hsplit
  split
  · simp [UrlParts.join]
  · next query fragment hfragment =>
    obtain ⟨rfl, -⟩ := splitFirst_eq_some_iff.1 hfragment
    simp [UrlParts.join]

/-- The parts of a URL are read back from it. -/
theorem splitUrl_join {u : UrlParts} (h : u.Valid) : splitUrl u.join = u := by
  obtain ⟨front, query, fragment⟩ := u
  cases query with
  | none =>
    have hfragment : fragment = none := h.fragment rfl
    subst hfragment
    have hsplit : splitFirst 63 front = none := splitFirst_eq_none_iff.2 h.front
    simp [UrlParts.join, splitUrl, hsplit]
  | some parts =>
    obtain ⟨hne, hparts⟩ := h.query parts rfl
    have hquery : 35 ∉ [38].intercalate parts := by
      intro hmem
      rcases mem_intercalate hmem with h | ⟨part, hpart, hmem⟩
      · exact absurd h (by decide)
      · exact (hparts part hpart).2 hmem
    have hback : ([38].intercalate parts).splitOn 38 = parts :=
      splitOn_intercalate 38 (fun part hpart ↦ (hparts part hpart).1) hne
    have hsplit : ∀ back, splitFirst 63 (front ++ 63 :: back) = some (front, back) :=
      fun _ ↦ splitFirst_eq_some_iff.2 ⟨rfl, h.front⟩
    cases fragment with
    | none =>
      have hnone : splitFirst 35 ([38].intercalate parts) = none := splitFirst_eq_none_iff.2 hquery
      simp [UrlParts.join, splitUrl, hsplit, hnone, hback]
    | some fragment =>
      have hsome : splitFirst 35 ([38].intercalate parts ++ 35 :: fragment) =
          some ([38].intercalate parts, fragment) := splitFirst_eq_some_iff.2 ⟨rfl, hquery⟩
      simp [UrlParts.join, splitUrl, hsplit, hsome, hback]

/-- The parts of a URL with redacted parameters. -/
def UrlParts.redact (names : List Bytes) (u : UrlParts) : UrlParts :=
  { u with query := u.query.map (·.map (redactPart names)) }

theorem redactPart_nil (part : Bytes) : redactPart [] part = part := by
  rw [redactPart]
  split
  · rfl
  · rfl

theorem redactUrl_eq (url : Bytes) (names : List Bytes) :
    redactUrl url names = ((splitUrl url).redact names).join := by
  by_cases hnames : names = []
  · subst hnames
    have hid : (splitUrl url).redact [] = splitUrl url := by
      have hpart : redactPart [] = id := funext redactPart_nil
      simp [UrlParts.redact, hpart]
    rw [hid, join_splitUrl, redactUrl]
    split
    · rfl
    · rw [if_pos rfl]
  · rw [redactUrl, splitUrl]
    cases splitFirst 63 url with
    | none => simp [UrlParts.redact, UrlParts.join]
    | some split =>
      obtain ⟨front, back⟩ := split
      dsimp only
      rw [if_neg hnames]
      cases splitFirst 35 back with
      | none => simp [UrlParts.redact, UrlParts.join, redactQuery]
      | some split => simp [UrlParts.redact, UrlParts.join, redactQuery]

variable {names : List Bytes}

theorem notMem_redactPart {part : Bytes} (h : 38 ∉ part ∧ 35 ∉ part) :
    38 ∉ redactPart names part ∧ 35 ∉ redactPart names part := by
  rw [redactPart]
  split
  · exact h
  next name value hsplit =>
  obtain ⟨rfl, -⟩ := splitFirst_eq_some_iff.1 hsplit
  split
  · simp only [mem_append, not_or] at h ⊢
    exact ⟨⟨⟨h.1.1, by decide⟩, by decide⟩, ⟨⟨h.2.1, by decide⟩, by decide⟩⟩
  · exact h

theorem UrlParts.Valid.redact {u : UrlParts} (h : u.Valid) (names : List Bytes) :
    (u.redact names).Valid := by
  refine ⟨h.front, fun parts hparts ↦ ?_,
    fun hnone ↦ h.fragment (by simpa [UrlParts.redact] using hnone)⟩
  obtain ⟨source, hsource, rfl⟩ := Option.map_eq_some_iff.1 hparts
  obtain ⟨hne, hall⟩ := h.query source hsource
  refine ⟨by simpa using hne, fun part hpart ↦ ?_⟩
  obtain ⟨p, hp, rfl⟩ := mem_map.1 hpart
  exact notMem_redactPart (hall p hp)

/-- Two parameters are stored alike exactly if the name is on the list as it is spelled, or they are
the same. -/
theorem redactPart_eq_iff {p q : Bytes} (h : SamePart names p q) :
    redactPart names p = redactPart names q ↔
      (p = q ∨ ∃ name a b, splitFirst 61 p = some (name, a) ∧ splitFirst 61 q = some (name, b) ∧
        nameInList name names = true) := by
  have hlower : ∀ name, nameInList (lower name) names = nameInList name names := by
    intro name
    have hsame : strcaseeq (lower name) = strcaseeq name := by
      funext value
      rw [strcaseeq, strcaseeq, lower_lower]
    rw [nameInList, nameInList, hsame]
  constructor
  · intro heq
    rcases h with rfl | ⟨name, a, b, hp, hq, -, -⟩
    · exact .inl rfl
    rw [redactPart, redactPart, hp, hq] at heq
    dsimp only at heq
    rw [hlower] at heq
    split at heq
    · next hin => exact .inr ⟨name, a, b, hp, hq, hin⟩
    · exact .inl heq
  · rintro (rfl | ⟨name, a, b, hp, hq, hin⟩)
    · rfl
    · rw [redactPart, redactPart, hp, hq]
      dsimp only
      rw [hlower, hin, if_pos rfl, if_pos rfl]

theorem forall₂_congr_of {α β : Type} {R S T : α → β → Prop} {l : List α} {l' : List β}
    (h : List.Forall₂ R l l') (hiff : ∀ a b, R a b → (S a b ↔ T a b)) :
    List.Forall₂ S l l' ↔ List.Forall₂ T l l' := by
  induction h with
  | nil => exact iff_of_true .nil .nil
  | cons hab h ih => rw [forall₂_cons, forall₂_cons, hiff _ _ hab, ih]

/-- Two URLs are stored alike exactly if the parameters in which they differ are spelled plainly. -/
theorem redactUrl_eq_iff {u v : Bytes} (h : SameUrl names u v) :
    redactUrl u names = redactUrl v names ↔ SpelledPlainly names u v := by
  have hparts : redactUrl u names = redactUrl v names ↔
      (splitUrl u).redact names = (splitUrl v).redact names := by
    rw [redactUrl_eq, redactUrl_eq]
    refine ⟨fun hjoin ↦ ?_, fun heq ↦ by rw [heq]⟩
    have hsplit := congrArg splitUrl hjoin
    rwa [splitUrl_join ((valid_splitUrl u).redact names),
      splitUrl_join ((valid_splitUrl v).redact names)] at hsplit
  have hparams : (splitUrl u).redact names = (splitUrl v).redact names ↔
      (splitUrl u).params.map (redactPart names) = (splitUrl v).params.map (redactPart names) := by
    obtain ⟨hfront, hquery, -, hfragment⟩ := h
    generalize splitUrl u = a at *
    generalize splitUrl v = b at *
    obtain ⟨front, query, fragment⟩ := a
    obtain ⟨front', query', fragment'⟩ := b
    dsimp only at hfront hquery hfragment
    subst hfront hfragment
    cases query with
    | none =>
      cases query' with
      | none => simp [UrlParts.redact, UrlParts.params]
      | some parts' => cases hquery
    | some parts =>
      cases query' with
      | none => cases hquery
      | some parts' => simp [UrlParts.redact, UrlParts.params]
  rw [hparts, hparams, SpelledPlainly, ← forall₂_eq_eq_eq, forall₂_map_left_iff,
    forall₂_map_right_iff]
  exact forall₂_congr_of h.params fun p q hpq ↦ redactPart_eq_iff hpq

/-! ## Exchanges -/

/-- Two headers that differ at most in the value of one that is on the list. -/
def SameHeader (names : List Bytes) (h k : Proxy.Header) : Prop :=
  h.name = k.name ∧
    (h.value = k.value ∨ (h.value.length = k.value.length ∧ nameInList h.name names = true))

/-- Two messages that differ at most in values on the lists.  The path of a request has its query
too, and is the same when the URL is. -/
structure SameMessage (settings : Settings) (m n : Message) : Prop where
  method : m.method = n.method
  url : SameUrl settings.redactQueryParams m.url n.url
  host : m.host = n.host
  path : m.url = n.url → m.path = n.path
  status : m.status = n.status
  headers : List.Forall₂ (SameHeader settings.redactHeaders) m.headers n.headers
  body : m.body = n.body
  bodySet : m.bodySet = n.bodySet

/-- A header of a message that was received: a C string without line ends, and a name without a
colon or blanks behind it. -/
structure CleanHeader (h : Proxy.Header) : Prop where
  valid : h.Valid
  name : 0 ∉ h.name ∧ trimRight h.name = h.name
  value : 0 ∉ h.value

/-- A message that was received. -/
structure CleanMessage (m : Message) : Prop where
  headers : ∀ h ∈ m.headers, CleanHeader h
  status : -2 ^ 31 ≤ m.status ∧ m.status < 2 ^ 31

/-- The messages of an exchange as they come by the developer tools. -/
structure Exchange where
  /-- The request at the first breakpoint. -/
  request : Message
  /-- The request that is captured. -/
  sent : Message
  /-- The request as it belongs to the reply at the second breakpoint. -/
  forwarded : Message
  /-- The reply at the second breakpoint. -/
  response : Message
  /-- The reply that is captured. -/
  returned : Message

structure Exchange.Clean (x : Exchange) : Prop where
  request : CleanMessage x.request ∧ x.request.url ≠ []
  sent : CleanMessage x.sent ∧ x.sent.url ≠ []
  forwarded : CleanMessage x.forwarded ∧ x.forwarded.url ≠ []
  returned : CleanMessage x.returned

/-- Two exchanges that differ at most in values on the lists. -/
structure SameExchange (settings : Settings) (x y : Exchange) : Prop where
  request : SameMessage settings x.request y.request
  sent : SameMessage settings x.sent y.sent
  forwarded : SameMessage settings x.forwarded y.forwarded
  response : SameMessage settings x.response y.response
  returned : SameMessage settings x.returned y.returned

/-- What else there is about an exchange: its flow, the client, the times, and how it ended. -/
structure Circumstances where
  flowId : Nat
  profile : Option Bytes
  clientAddress : Option Bytes
  chainName : Option Bytes
  scheme : Option Bytes
  requestPaused : Int
  began : Int
  responsePaused : Int
  finished : Int
  message : Option Bytes

/-- `ch_http_message_headers_raw`. -/
def headersRaw (m : Message) : Option Bytes :=
  if m.headers.all fun h ↦ !h.name.contains 13 && !h.name.contains 10 && !h.value.contains 13 &&
    !h.value.contains 10 then some (m.headers.flatMap Proxy.Header.line)
  else none

/-- What `ch_http_begin_message_capture` captures of a request. -/
def beginCapture (m : Manager) (c : Circumstances) (request : Message) (raw : Bytes) : Capture :=
  (captureBegin m {
    flowId := c.flowId, profile := c.profile, clientAddress := c.clientAddress
    chainName := c.chainName, method := request.method, url := request.url, scheme := c.scheme
    host := some request.host, requestHeaders := raw } c.began).requestBody request.body

/-- The record of an exchange. -/
def Exchange.record (m : Manager) (c : Circumstances) (x : Exchange) : Option Entry :=
  (headersRaw x.sent).map fun raw ↦
    let capture := beginCapture m c x.sent raw
    let capture := ((serializeMessage x.returned true).map capture.response).getD capture
    capture.finish c.message c.finished

/-- When a client looks. -/
inductive Moment where
  | atRequest
  | atResponse
  | after

/-- The numbers of breakpoints count those that were hit. -/
def Tooling.countPause (t : Tooling) (pause : Option Pending) : Tooling :=
  { t with
    nextPendingIdentifier :=
      if pause.isSome then (t.nextPendingIdentifier + 1) % 2 ^ 64 else t.nextPendingIdentifier }

def Tooling.hold (t : Tooling) (pause : Option Pending) : Tooling :=
  { t with pending := pause.toList ++ t.pending }

def Tooling.requestPause (t : Tooling) (c : Circumstances) (x : Exchange) : Option Pending :=
  t.pause .request x.request none c.requestPaused

def Tooling.responsePause (t : Tooling) (c : Circumstances) (x : Exchange) : Option Pending :=
  (t.countPause (t.requestPause c x)).pause .response x.forwarded (some x.response) c.responsePaused

/-- The tools at some moment of an exchange. -/
def Tooling.during (t : Tooling) (c : Circumstances) (x : Exchange) : Moment → Tooling
  | .atRequest => t.hold (t.requestPause c x)
  | .atResponse => t.hold (t.responsePause c x)
  | .after =>
    if t.manager.settings.enabled then
      { t with manager := ((x.record t.manager c).map t.manager.add).getD t.manager }
    else t

/-- What a client can ask for. -/
inductive View where
  | entries (request : Bytes)
  | entry (identifier : Bytes)
  | archive
  | curl (identifier : Bytes)
  | breakpoints

/-- What a client gets. -/
def Tooling.view (t : Tooling) (texts : Texts) : View → Except Error Bytes
  | .entries request => entriesJson texts t.manager request
  | .entry identifier => entryJson texts t.manager identifier
  | .archive => .ok (harJson texts t.manager)
  | .curl identifier => entryCurlJson t.manager identifier
  | .breakpoints => .ok (pendingBreakpointsJson texts t)

/-- A breakpoint would hold up the request. -/
def Tooling.stops (t : Tooling) (stage : Stage) (request : Message) : Bool :=
  t.manager.settings.enabled &&
    t.breakpointRules.any fun rule ↦ ruleMatches rule request && stageMatches rule stage

/-! ## Records of two exchanges -/

variable {h : Proxy.Header}

/-- A line of a header is stored alike. -/
theorem parseHeader_line (hh : CleanHeader h) (names : List Bytes) (limit : Nat) :
    parseHeader names limit (h.name ++ bytes ": " ++ h.value) =
      some {
        name := h.name
        value := (storedValue (nameInList h.name names) limit (trim h.value)).1
        redacted := nameInList h.name names
        truncated := (storedValue (nameInList h.name names) limit (trim h.value)).2 } := by
  have hname : untilNul (trimRight h.name) = h.name := by
    rw [hh.name.2, untilNul_eq_self hh.name.1]
  rw [parseHeader, hh.valid.line.2]
  split
  · next heq => cases heq
  · next heq => exact absurd (congrArg Prod.fst (Option.some.inj heq)) hh.valid.nonempty
  · next heq =>
    cases heq
    rw [hname, trim_cons_of_isspace (by decide)]

theorem parseHeader_same {k : Proxy.Header} (hh : CleanHeader h)
    (hk : CleanHeader k) (hsame : SameHeader names h k) (limit : Nat) :
    parseHeader names limit (h.name ++ bytes ": " ++ h.value) =
      parseHeader names limit (k.name ++ bytes ": " ++ k.value) := by
  rw [parseHeader_line hh, parseHeader_line hk]
  obtain ⟨hname, hvalue | ⟨-, hin⟩⟩ := hsame
  · rw [hname, hvalue]
  · rw [← hname, hin]
    rfl

/-- Lines with their ends. -/
def joinLines (lines : List Bytes) : Bytes :=
  lines.flatMap fun line ↦ line ++ crlf

theorem splitLines_append {line : Bytes} (h : 13 ∉ line) (rest : Bytes) :
    splitLines (line ++ crlf ++ rest) = line :: splitLines rest := by
  induction line with
  | nil => rfl
  | cons c line ih =>
    rw [mem_cons, not_or] at h
    have hstep : ∀ (text first : Bytes) (lines : List Bytes), splitLines text = first :: lines →
        splitLines (c :: text) = (c :: first) :: lines := by
      intro text first lines htext
      rw [splitLines.eq_def]
      split
      · next heq =>
        rw [List.cons.injEq] at heq
        exact absurd heq.1.symm h.1
      · next heq =>
        cases heq
        rw [htext]
      · next heq => cases heq
    exact hstep _ _ _ (ih h.2)

variable {lines : List Bytes}

theorem splitLines_joinLines (h : ∀ line ∈ lines, 13 ∉ line) :
    splitLines (joinLines lines) = lines ++ [[]] := by
  induction lines with
  | nil => rfl
  | cons line lines ih =>
    rw [joinLines, flatMap_cons, splitLines_append (h line mem_cons_self)]
    exact congrArg (line :: ·) (ih fun l hl ↦ h l (mem_cons_of_mem line hl))

theorem takeWhile_lines (h : ∀ line ∈ lines, line ≠ []) :
    (lines ++ [[]]).takeWhile (· ≠ []) = lines := by
  have hall : ∀ line ∈ lines, decide (line ≠ []) = true := fun line hline ↦ by simp [h line hline]
  rw [takeWhile_append_of_pos hall]
  simp

/-- The headers of a message, on a line each. -/
def headerLines (headers : List Proxy.Header) : List Bytes :=
  headers.map fun h ↦ h.name ++ bytes ": " ++ h.value

theorem joinLines_headerLines (headers : List Proxy.Header) :
    joinLines (headerLines headers) = headers.flatMap Proxy.Header.line := by
  rw [joinLines, headerLines, flatMap_map]
  rfl

variable {headers : List Proxy.Header}

theorem headerLines_clean (h : ∀ h ∈ headers, CleanHeader h) :
    ∀ line ∈ headerLines headers, 13 ∉ line ∧ line ≠ [] ∧ 0 ∉ line := by
  intro line hline
  obtain ⟨header, hheader, rfl⟩ := mem_map.1 hline
  have hclean := h header hheader
  refine ⟨hclean.valid.line.1, ?_, ?_⟩
  · simp [hclean.valid.nonempty]
  · simp only [mem_append, not_or]
    exact ⟨⟨hclean.name.1, by decide⟩, hclean.value⟩

variable {headers' : List Proxy.Header}

/-- The headers of two messages are stored alike. -/
theorem filterMap_parseHeader_same
    (hclean : ∀ h ∈ headers, CleanHeader h) (hclean' : ∀ h ∈ headers', CleanHeader h)
    (hsame : List.Forall₂ (SameHeader names) headers headers') (limit : Nat) :
    (headerLines headers).filterMap (parseHeader names limit) =
      (headerLines headers').filterMap (parseHeader names limit) := by
  induction hsame with
  | nil => rfl
  | @cons h k headers headers' hhk hsame ih =>
    rw [forall_mem_cons] at hclean hclean'
    have hhead := parseHeader_same hclean.1 hclean'.1 hhk limit
    have htail := ih hclean.2 hclean'.2
    rw [headerLines, headerLines] at htail
    rw [headerLines, headerLines, map_cons, map_cons, filterMap_cons,
      filterMap_cons, hhead, htail]

theorem parseHeaders_lines (h : ∀ h ∈ headers, CleanHeader h) (names : List Bytes) (limit : Nat) :
    parseHeaders names limit (headers.flatMap Proxy.Header.line) =
      ((headerLines headers).filterMap (parseHeader names limit)).insertionSort (headerLe · ·) := by
  have hlines := headerLines_clean h
  rw [parseHeaders, ← joinLines_headerLines, splitLines_joinLines fun l hl ↦ (hlines l hl).1,
    takeWhile_lines fun l hl ↦ (hlines l hl).2.1]

variable {m : Message}

theorem headersRaw_eq (h : CleanMessage m) :
    headersRaw m = some (m.headers.flatMap Proxy.Header.line) := by
  rw [headersRaw, if_pos]
  rw [all_eq_true]
  intro header hheader
  have hclean := (h.headers header hheader).valid
  simp [hclean.name, hclean.value]

/-- What is captured of two requests is the same if their URLs are stored alike. -/
theorem beginCapture_same {m : Manager} {x y : Message} (hx : CleanMessage x)
    (hy : CleanMessage y) (h : SameMessage m.settings x y)
    (hurl : redactUrl x.url m.settings.redactQueryParams =
      redactUrl y.url m.settings.redactQueryParams) (c : Circumstances) :
    beginCapture m c x (x.headers.flatMap Proxy.Header.line) =
      beginCapture m c y (y.headers.flatMap Proxy.Header.line) := by
  have hheaders := filterMap_parseHeader_same hx.headers hy.headers h.headers
    m.settings.headerValueLimit
  simp only [beginCapture, captureBegin, hurl, parseHeaders_lines hx.headers,
    parseHeaders_lines hy.headers, hheaders, h.method, h.host, h.body]

/-! ### Replies -/

/-- A search for two line ends passes over a line. -/
theorem strstr_append {line : Bytes} (h : 13 ∉ line) (rest : Bytes) :
    strstr [13, 10, 13, 10] (line ++ rest) =
      (strstr [13, 10, 13, 10] rest).map fun p ↦ (line ++ p.1, p.2) := by
  induction line with
  | nil => simp
  | cons c line ih =>
    rw [mem_cons, not_or] at h
    have hprefix : [13, 10, 13, 10].isPrefixOf (c :: (line ++ rest)) = false := by
      simp [List.isPrefixOf, h.1]
    rw [cons_append, strstr, hprefix, if_neg Bool.false_ne_true, ih h.2, Option.map_map]
    rfl

theorem joinLines_cons (line : Bytes) (lines : List Bytes) (tail : Bytes) :
    joinLines (line :: lines) ++ tail = line ++ (crlf ++ (joinLines lines ++ tail)) := by
  simp [joinLines]

/-- It passes over the end of a line if the next line is not empty. -/
theorem strstr_joinLines (h : ∀ line ∈ lines, 13 ∉ line ∧ line ≠ []) (rest : Bytes) :
    ∃ head, head ++ crlf = crlf ++ joinLines lines ∧
      strstr [13, 10, 13, 10] (crlf ++ (joinLines lines ++ (crlf ++ rest))) =
        some (head, crlf ++ (crlf ++ rest)) := by
  induction lines with
  | nil => exact ⟨[], rfl, rfl⟩
  | cons line lines ih =>
    obtain ⟨⟨hreturn, hnonempty⟩, h⟩ := forall_mem_cons.1 h
    obtain ⟨head, hhead, hfound⟩ := ih h
    have hskip : ∀ text, strstr [13, 10, 13, 10] (crlf ++ (line ++ text)) =
        (strstr [13, 10, 13, 10] (line ++ text)).map fun p ↦ (crlf ++ p.1, p.2) := by
      intro text
      cases line with
      | nil => exact absurd rfl hnonempty
      | cons c line =>
        rw [mem_cons, not_or] at hreturn
        simp [crlf, strstr, List.isPrefixOf, hreturn.1, Function.comp_def]
    refine ⟨crlf ++ (line ++ head), ?_, ?_⟩
    · rw [append_assoc, append_assoc, hhead]
      simp [joinLines]
    · rw [joinLines_cons, hskip, strstr_append hreturn, hfound]
      rfl

/-- The lines of a reply. -/
def replyLines (m : Message) : List Bytes :=
  startLine m true :: headerLines (outgoingHeaders m).headers

theorem cleanHeader_contentLength (n : Nat) :
    CleanHeader ⟨bytes "Content-Length", decimal n⟩ := by
  have hname : 0 ∉ bytes "Content-Length" ∧
      trimRight (bytes "Content-Length") = bytes "Content-Length" := by decide
  exact ⟨valid_contentLength n, hname, notMem_decimal (by decide) n⟩

theorem clean_outgoingHeaders (h : CleanMessage m) :
    ∀ h ∈ (outgoingHeaders m).headers, CleanHeader h := by
  rw [outgoingHeaders_eq]
  exact forall_mem_writtenHeaders h.headers (cleanHeader_contentLength _)

variable {settings : Settings} {n : Message}

/-- Headers that are left out by their names are left out of both. -/
theorem same_outgoingHeaders (h : SameMessage settings m n) :
    List.Forall₂ (SameHeader settings.redactHeaders) (outgoingHeaders m).headers
      (outgoingHeaders n).headers := by
  have hnamed : ∀ a b : Proxy.Header, a.name = b.name → a.named = b.named := by
    intro a b hab
    funext name
    rw [Proxy.Header.named, Proxy.Header.named, hab]
  rw [outgoingHeaders_eq, outgoingHeaders_eq]
  dsimp only
  rw [writtenHeaders, writtenHeaders, h.bodySet, h.body]
  have hkept : List.Forall₂ (SameHeader settings.redactHeaders) (m.headers.filter (!·.hopByHop))
      (n.headers.filter (!·.hopByHop)) := by
    refine rel_filter (fun a b hab ↦ ?_) h.headers
    simp only [Proxy.Header.hopByHop, hnamed a b hab.1]
  split
  · refine rel_append (rel_filter (fun a b hab ↦ ?_) hkept) (.cons ⟨rfl, .inl rfl⟩ .nil)
    simp only [Proxy.Header.isLength, hnamed a b hab.1]
  · exact hkept

theorem serializeMessage_eq (h : CleanMessage m) :
    serializeMessage m true =
      some (joinLines (replyLines m) ++ (crlf ++ m.body)) := by
  have hlines : joinLines (replyLines m) = startLine m true ++ crlf ++
      (outgoingHeaders m).headers.flatMap Proxy.Header.line := by
    rw [← joinLines_headerLines]
    rfl
  rw [serializeMessage_eq_some fun header hheader ↦ (h.headers header hheader).valid, hlines,
    outgoingHeaders_eq]
  simp only [append_assoc]

theorem replyLines_clean (h : CleanMessage m) :
    ∀ line ∈ replyLines m, 13 ∉ line ∧ line ≠ [] ∧ 0 ∉ line := by
  intro line hline
  rcases mem_cons.1 hline with rfl | hline
  · have hnumber : 13 ∉ decimalInt m.status ∧ 0 ∉ decimalInt m.status :=
      ⟨notMem_decimalInt (by decide) (by decide) _, notMem_decimalInt (by decide) (by decide) _⟩
    rw [startLine_reply]
    refine ⟨?_, by simp [bytes], ?_⟩
    · simp only [mem_append, mem_cons, not_or]
      exact ⟨by decide, hnumber.1, by decide, (notMem_httpReason _).1⟩
    · simp only [mem_append, mem_cons, not_or]
      exact ⟨by decide, hnumber.2, by decide, (notMem_httpReason _).2⟩
  · exact headerLines_clean (clean_outgoingHeaders h) line hline

/-- The status of a reply is read from its first line. -/
theorem scanStatus_startLine (h : CleanMessage m) (rest : Bytes) :
    scanStatus (startLine m true ++ rest) = some (Int.bmod m.status (2 ^ 32)) := by
  have hrange : longMin ≤ m.status ∧ m.status ≤ longMax := by
    have := h.status
    rw [longMin, longMax]
    omega
  have htext : startLine m true ++ rest = bytes "HTTP/1.1" ++
      (32 :: (decimalInt m.status ++ 32 :: (httpReason m.status ++ rest))) := by
    rw [startLine_reply]
    simp [bytes]
  rw [htext]
  generalize hnumber : 32 :: (decimalInt m.status ++ 32 :: (httpReason m.status ++ rest)) = number
  have hread : strtol number = ⟨m.status, 32 :: (httpReason m.status ++ rest), false⟩ := by
    rw [← hnumber]
    exact strtol_decimalInt rfl hrange.1 hrange.2 (by decide)
  have hword : trimLeft ((bytes "HTTP/1.1" ++ number).drop 5) = bytes "1.1" ++ number := rfl
  have hrest : (bytes "1.1" ++ number).dropWhile (!isspace ·) = number := by
    rw [← hnumber]
    rfl
  have hprefix : (bytes "HTTP/").isPrefixOf (bytes "HTTP/1.1" ++ number) = true := rfl
  have hne : ¬ (bytes "1.1" ++ number = [] ∨ 32 :: (httpReason m.status ++ rest) = number) := by
    rintro (heq | heq)
    · cases heq
    have hlength := congrArg List.length heq
    rw [← hnumber] at hlength
    simp only [length_append, length_cons] at hlength
    omega
  rw [scanStatus, if_pos hprefix]
  dsimp only
  rw [hword, hrest, hread, if_neg hne]

/-- The text of a reply. -/
def replyText (m : Message) : Bytes :=
  joinLines (replyLines m) ++ (crlf ++ m.body)

theorem length_joinLines_same (h : List.Forall₂ (SameHeader names) headers headers') :
    (joinLines (headerLines headers)).length = (joinLines (headerLines headers')).length := by
  induction h with
  | nil => rfl
  | @cons a b headers headers' hab h ih =>
    have hvalue : a.value.length = b.value.length := by
      rcases hab.2 with heq | ⟨heq, -⟩
      · rw [heq]
      · exact heq
    rw [joinLines, joinLines] at ih
    simp only [joinLines, headerLines, map_cons, flatMap_cons, length_append, hab.1,
      hvalue] at ih ⊢
    rw [ih]

theorem length_replyText_same
    (h : SameMessage settings m n) : (replyText m).length = (replyText n).length := by
  have hstart : startLine m true = startLine n true := by
    rw [startLine_reply, startLine_reply, h.status]
  have hheaders := length_joinLines_same (same_outgoingHeaders h)
  have hlines : ∀ k : Message, joinLines (replyLines k) = startLine k true ++ crlf ++
      joinLines (headerLines (outgoingHeaders k).headers) := fun _ ↦ rfl
  simp only [replyText, hlines, length_append, hstart, hheaders, h.body]

/-- Only the body of a reply may hold a NUL. -/
theorem untilNul_replyText (h : CleanMessage m) :
    untilNul (replyText m) = joinLines (replyLines m) ++ (crlf ++ untilNul m.body) := by
  have hzero : ∀ b ∈ joinLines (replyLines m) ++ crlf, (b != 0) = true := by
    intro b hb
    rw [bne_iff_ne]
    rintro rfl
    rcases mem_append.1 hb with hb | hb
    · obtain ⟨line, hline, hb⟩ := mem_flatMap.1 hb
      rcases mem_append.1 hb with hb | hb
      · exact (replyLines_clean h line hline).2.2 hb
      · exact absurd hb (by decide)
    · exact absurd hb (by decide)
  rw [replyText, untilNul, ← append_assoc, takeWhile_append_of_pos hzero, append_assoc]
  rfl

/-- What the headers of a reply do to a capture. -/
theorem responseHeaders_replyText (h : CleanMessage m) {c : Capture}
    (hbuffer : c.responseHeaderBuffer = []) :
    (c.responseHeaders (replyText m)).entry =
        (if maxHeaderBytes < (replyText m).length then
          { c.entry with errorMessage := some headersTooLong }
        else { c.entry.withStatus (untilNul (replyText m)) with
          responseHeaders := ((headerLines (outgoingHeaders m).headers).filterMap
            (parseHeader c.redactHeaders c.headerValueLimit)).insertionSort (headerLe · ·)
          responseBody := (Body.initializeWith
            (c.entry.withStatus (untilNul (replyText m))).responseBody
            (c.entry.withStatus (untilNul (replyText m))).requestBody.limit).write m.body }) ∧
      (c.responseHeaders (replyText m)).responseHeadersComplete =
        (if maxHeaderBytes < (replyText m).length then c.responseHeadersComplete else true) := by
  have hclean := replyLines_clean h
  obtain ⟨head, hhead, hfound⟩ : ∃ head, head ++ crlf = joinLines (replyLines m) ∧
      strstr [13, 10, 13, 10] (untilNul (replyText m)) =
        some (head, crlf ++ (crlf ++ untilNul m.body)) := by
    obtain ⟨hstart, hheaders⟩ := forall_mem_cons.1 hclean
    obtain ⟨head, hhead, hfound⟩ := strstr_joinLines
      (fun line hline ↦ ⟨(hheaders line hline).1, (hheaders line hline).2.1⟩) (untilNul m.body)
    refine ⟨startLine m true ++ head, ?_, ?_⟩
    · rw [append_assoc, hhead, ← append_assoc]
      rfl
    · rw [untilNul_replyText h, replyLines, joinLines_cons, strstr_append hstart.1, hfound]
      rfl
  have hdrop : (replyText m).drop (head.length + 4) = m.body := by
    have htext : replyText m = (head ++ crlf ++ crlf) ++ m.body := by
      rw [replyText, ← hhead]
      simp
    have hlength : head.length + 4 = (head ++ crlf ++ crlf).length := by
      simp [crlf]
    rw [htext, hlength, drop_left]
  have hlines : ((splitLines (head ++ [13, 10])).drop 1).takeWhile (· ≠ []) =
      headerLines (outgoingHeaders m).headers := by
    have hjoined : head ++ [13, 10] = joinLines (replyLines m) := hhead
    rw [hjoined, splitLines_joinLines fun line hline ↦ (hclean line hline).1, replyLines,
      cons_append, drop_one, tail_cons]
    exact takeWhile_lines fun line hline ↦ (hclean line (mem_cons_of_mem _ hline)).2.1
  rw [Capture.responseHeaders, hbuffer, length_nil, Nat.sub_zero]
  split
  · exact ⟨rfl, rfl⟩
  rw [nil_append]
  dsimp only
  rw [hfound]
  dsimp only
  rw [hlines, hdrop]
  exact ⟨rfl, rfl⟩

/-- Two replies are captured alike. -/
theorem response_same {c : Capture}
    (hm : CleanMessage m) (hn : CleanMessage n) (h : SameMessage settings m n)
    (hlist : c.redactHeaders = settings.redactHeaders) (hbuffer : c.responseHeaderBuffer = [])
    (hcomplete : c.responseHeadersComplete = false) :
    (c.response (replyText m)).entry = (c.response (replyText n)).entry ∧
      (c.response (replyText m)).responseHeadersComplete =
        (c.response (replyText n)).responseHeadersComplete := by
  have hstatus : ∀ {k : Message}, CleanMessage k →
      scanStatus (untilNul (replyText k)) = some (Int.bmod k.status (2 ^ 32)) := by
    intro k hk
    have htext : untilNul (replyText k) = startLine k true ++ (crlf ++
        (joinLines (headerLines (outgoingHeaders k).headers) ++
          (crlf ++ untilNul k.body))) := by
      rw [untilNul_replyText hk]
      simp [joinLines, replyLines]
    rw [htext]
    exact scanStatus_startLine hk _
  have hentry : c.entry.withStatus (untilNul (replyText m)) =
      c.entry.withStatus (untilNul (replyText n)) := by
    rw [Entry.withStatus, Entry.withStatus, hstatus hm, hstatus hn, h.status]
  have hheaders := filterMap_parseHeader_same (clean_outgoingHeaders hm) (clean_outgoingHeaders hn)
    (same_outgoingHeaders h) c.headerValueLimit
  obtain ⟨hm₁, hm₂⟩ := responseHeaders_replyText hm hbuffer
  obtain ⟨hn₁, hn₂⟩ := responseHeaders_replyText hn hbuffer
  rw [Capture.response, Capture.response, hcomplete, if_neg Bool.false_ne_true,
    if_neg Bool.false_ne_true, hm₁, hm₂, hn₁, hn₂, length_replyText_same h, hentry, hlist, hheaders,
    h.body]
  exact ⟨rfl, rfl⟩

/-! ### Both -/

variable {x : Exchange} {c : Circumstances}

theorem record_eq {m : Manager} (hx : x.Clean) :
    x.record m c = some (((beginCapture m c x.sent
      (x.sent.headers.flatMap Proxy.Header.line)).response (replyText x.returned)).finish
        c.message c.finished) := by
  rw [Exchange.record, headersRaw_eq hx.sent.1, serializeMessage_eq hx.returned]
  rfl

variable {y : Exchange}

theorem record_same {m : Manager} (hx : x.Clean) (hy : y.Clean)
    (h : SameExchange m.settings x y)
    (hurl : redactUrl x.sent.url m.settings.redactQueryParams =
      redactUrl y.sent.url m.settings.redactQueryParams) (c : Circumstances) :
    x.record m c = y.record m c := by
  have hbegin := beginCapture_same hx.sent.1 hy.sent.1 h.sent hurl c
  obtain ⟨hentry, hcomplete⟩ := response_same
    (c := beginCapture m c x.sent (x.sent.headers.flatMap Proxy.Header.line))
    hx.returned hy.returned h.returned rfl rfl rfl
  rw [record_eq hx, record_eq hy, ← hbegin, Capture.finish, Capture.finish, hentry, hcomplete]

/-- What a record says in front of its URL. -/
structure SameFront (d e : Entry) : Prop where
  identifier : e.identifier = d.identifier
  connectionIdentifier : e.connectionIdentifier = d.connectionIdentifier
  profile : e.profile = d.profile
  clientAddress : e.clientAddress = d.clientAddress
  chainName : e.chainName = d.chainName
  startedNs : e.startedNs = d.startedNs
  method : e.method = d.method

theorem sameFront_response (c : Capture) (text : Bytes) :
    SameFront c.entry (c.response text).entry := by
  obtain ⟨_, _, _, _, h⟩ := response_entry c text
  rw [h]
  exact ⟨rfl, rfl, rfl, rfl, rfl, rfl, rfl⟩

variable {e : Entry}

/-- The identifier and the URL of a record. -/
theorem record_shown {m : Manager} (hx : x.Clean)
    (he : x.record m c = some e) :
    e.identifier = bytes "dev-" ++ decimal ((m.nextIdentifier + 1) % 2 ^ 64) ∧
      e.url = redactUrl x.sent.url m.settings.redactQueryParams := by
  rw [record_eq hx, Option.some.injEq] at he
  subst he
  exact ⟨(sameFront_response _ _).identifier, (sameAsked_response _ _).url⟩

section

variable {m : Manager} {d : Entry} (hx : x.Clean) (hy : y.Clean)
  (hmethod : x.sent.method = y.sent.method) (hd : x.record m c = some d)
  (he : y.record m c = some e)

include hx hy hmethod hd he

theorem entryFront_same (texts : Texts) : entryFront texts d = entryFront texts e := by
  rw [record_eq hx, Option.some.injEq] at hd
  rw [record_eq hy, Option.some.injEq] at he
  subst hd he
  have hfront : ∀ (capture : Capture) (text : Bytes),
      entryFront texts ((capture.response text).finish c.message c.finished) =
        entryFront texts { capture.entry with finishedNs := c.finished } := by
    intro capture text
    have hsame := sameFront_response capture text
    simp only [entryFront, Capture.finish, hsame.identifier, hsame.connectionIdentifier,
      hsame.profile, hsame.clientAddress, hsame.chainName, hsame.startedNs, hsame.method]
  rw [hfront, hfront]
  simp only [entryFront, beginCapture, Capture.requestBody, captureBegin, hmethod]

/-- The URL of a record is seen in its view. -/
theorem url_eq_of_view {texts : Texts}
    (henabled : m.settings.enabled = true) (hlimit : m.settings.captureLimit ≠ 0)
    (hview : entryJson texts (m.add d) d.identifier = entryJson texts (m.add e) d.identifier) :
    d.url = e.url := by
  have hidentifier : e.identifier = d.identifier := by
    rw [(record_shown hy he).1, (record_shown hx hd).1]
  have hne : d.identifier ≠ [] := by
    rw [(record_shown hx hd).1]
    exact cons_ne_nil _ _
  have hfind : ∀ {f : Entry}, f.identifier = d.identifier →
      (m.add f).findEntry d.identifier = some f := by
    intro f hf
    rw [Manager.add, if_pos ⟨henabled, hlimit⟩, Manager.findEntry, find?_cons_of_pos]
    simpa using hf
  rw [entryJson, entryJson, if_neg hne, if_neg hne, hfind rfl, hfind hidentifier] at hview
  have htext := Except.ok.inj hview
  rw [appendEntry, appendEntry, entryFront_same hx hy hmethod hd he texts, append_cancel_left_eq]
    at htext
  exact (appendString_append_inj htext).1

end

variable {texts : Texts}

/-! ## Messages that are held up -/

theorem shownHeader_same {k : Proxy.Header}
    (hsame : SameHeader settings.redactHeaders h k) :
    shownHeader settings h = shownHeader settings k := by
  obtain ⟨hname, hvalue | ⟨hlength, hin⟩⟩ := hsame
  · rw [shownHeader, shownHeader, hname, hvalue]
  · rw [hname] at hin
    simp [shownHeader, hname, hin]

theorem map_shownHeader_same
    (h : List.Forall₂ (SameHeader settings.redactHeaders) headers headers') :
    headers.map (shownHeader settings) = headers'.map (shownHeader settings) := by
  rw [← forall₂_eq_eq_eq, forall₂_map_left_iff, forall₂_map_right_iff]
  exact h.imp fun a b hab ↦ shownHeader_same hab

/-- Two messages are shown alike up to the URL of a request. -/
theorem appendHttpMessage_same {settings : Settings} {m n : Message}
    (h : SameMessage settings m n) {response : Bool} (hurl : response = false → m.url = n.url) :
    appendHttpMessage settings m response = appendHttpMessage settings n response := by
  have hempty : m.headers = [] ↔ n.headers = [] := by
    rw [← length_eq_zero_iff, ← length_eq_zero_iff, h.headers.length_eq]
  have hfields : messageFields settings m response = messageFields settings n response := by
    rw [messageFields, messageFields, map_shownHeader_same h.headers, h.status, h.method, h.bodySet,
      h.body]
    simp only [hempty]
    cases response with
    | true => rfl
    | false => rw [hurl rfl]
  rw [appendHttpMessage, appendHttpMessage, hfields]

variable {t : Tooling}

/-- The rules that stop two messages with one URL are the same. -/
theorem stops_same {stage : Stage}
    (h : SameMessage t.manager.settings m n) (hurl : m.url = n.url) :
    (fun rule ↦ ruleMatches rule m && stageMatches rule stage) =
      fun rule ↦ ruleMatches rule n && stageMatches rule stage := by
  funext rule
  simp only [ruleMatches, h.method, h.host, h.path hurl, hurl]

theorem isSome_pause (t : Tooling) (stage : Stage) (m : Message)
    (response : Option Message) (now : Int) :
    (t.pause stage m response now).isSome = t.stops stage m := by
  rw [pause, stops]
  cases t.manager.settings.enabled with
  | false => rfl
  | true =>
    rw [if_pos rfl, Option.isSome_map, Bool.true_and, Bool.eq_iff_iff, find?_isSome,
      any_eq_true]

theorem pause_eq_some {stage : Stage} {response : Option Message} {now : Int} {p : Pending}
    (h : t.pause stage m response now = some p) :
    p.identifier = bytes "bp-" ++ decimal ((t.nextPendingIdentifier + 1) % 2 ^ 64) ∧
      p.stage = stage ∧ p.createdNs = now ∧ p.request = m := by
  rw [pause] at h
  split at h
  · obtain ⟨rule, -, rfl⟩ := Option.map_eq_some_iff.1 h
    exact ⟨rfl, rfl, rfl, rfl⟩
  · cases h

/-- What the list of breakpoints shows in front of the messages that are held up already. -/
def shownPause (texts : Texts) (settings : Settings) (pause : Option Pending) : List Bytes :=
  pause.toList.map (appendPending texts settings)

/-- The front of a request that is held up, up to its URL. -/
def messageFront (method : Bytes) : Bytes :=
  if method = [] then bytes "\x7b\"url\":"
  else bytes "\x7b\"method\":" ++ appendString method ++ bytes ",\"url\":"

theorem appendHttpMessage_eq {settings : Settings} {m : Message} (h : m.url ≠ []) :
    ∃ tail, appendHttpMessage settings m false =
      messageFront m.method ++ (appendString m.url ++ tail) := by
  have hfields : ∃ rest, messageFields settings m false = messageField "method" m.method ++
      (bytes "\"url\":" ++ appendString m.url) :: rest := by
    have hurl : messageField "url" m.url = [bytes "\"url\":" ++ appendString m.url] := by
      rw [messageField, if_neg h]
      simp [bytes]
    rw [messageFields, if_neg Bool.false_ne_true, hurl, append_assoc, append_assoc]
    exact ⟨_, rfl⟩
  obtain ⟨rest, hrest⟩ := hfields
  refine ⟨rest.flatMap (bytes "," ++ ·) ++ bytes "\x7d", ?_⟩
  rw [appendHttpMessage, hrest, messageFront, messageField]
  split
  · rw [nil_append, intercalate_eq_flatMap]
    simp [bytes]
  · rw [cons_append, nil_append, intercalate_eq_flatMap, flatMap_cons]
    simp [bytes]

/-- The URL of a request that is held up is seen in the list of breakpoints. -/
theorem url_eq_of_appendPending {p q : Pending}
    (hidentifier : p.identifier = q.identifier) (hstage : p.stage = q.stage)
    (hcreated : p.createdNs = q.createdNs) (hmethod : p.request.method = q.request.method)
    (hp : p.request.url ≠ []) (hq : q.request.url ≠ [])
    (h : appendPending texts settings p = appendPending texts settings q) :
    p.request.url = q.request.url := by
  obtain ⟨tail, htail⟩ := @appendHttpMessage_eq settings p.request hp
  obtain ⟨tail', htail'⟩ := @appendHttpMessage_eq settings q.request hq
  rw [appendPending, appendPending, hidentifier, hstage, hcreated, htail, htail', hmethod,
    append_cancel_left_eq, append_cancel_left_eq] at h
  -- the rule may be another one
  obtain ⟨-, h⟩ := appendString_append_inj h
  have hbehind : ∀ {s s' : Bytes}, appendOptional "rule_name" p.ruleName ++
      (bytes ",\"stage\":" ++ s) =
      appendOptional "rule_name" q.ruleName ++ (bytes ",\"stage\":" ++ s') → s = s' := by
    intro s s' heq
    rw [appendOptional, appendOptional] at heq
    split at heq
    · split at heq
      · simpa using heq
      · simp [bytes] at heq
    · split at heq
      · simp [bytes] at heq
      · simp only [append_assoc, append_cancel_left_eq] at heq
        simpa using (appendString_append_inj heq).2
  simp only [append_assoc] at h
  have hrest := hbehind h
  simp only [append_cancel_left_eq] at hrest
  exact (appendString_append_inj hrest).1

/-- One more message that is held up makes the list of breakpoints longer. -/
theorem appendList_eq_iff {a b : Option Bytes} {rest : List Bytes}
    (hne : ∀ item ∈ a.toList ++ b.toList, item ≠ []) :
    appendList (a.toList ++ rest) = appendList (b.toList ++ rest) ↔ a.toList = b.toList := by
  have hcons : ∀ item : Bytes, item ≠ [] →
      ((bytes ",").intercalate (item :: rest)).length ≠ ((bytes ",").intercalate rest).length := by
    intro item hitem
    have hpos := length_pos_iff.2 hitem
    cases rest with
    | nil => simpa [List.intercalate] using hitem
    | cons next rest =>
      rw [intercalate_cons_cons, length_append, length_append]
      omega
  have hcancel : ∀ item item' : Bytes, (bytes ",").intercalate (item :: rest) =
      (bytes ",").intercalate (item' :: rest) → item = item' := by
    intro item item' heq
    rwa [intercalate_eq_flatMap, intercalate_eq_flatMap, append_cancel_right_eq] at heq
  refine ⟨fun h ↦ ?_, fun h ↦ by rw [h]⟩
  rw [appendList, appendList, append_cancel_right_eq, append_cancel_left_eq] at h
  cases a with
  | none =>
    cases b with
    | none => rfl
    | some item => exact absurd (congrArg List.length h).symm (hcons item (hne item (by simp)))
  | some item =>
    cases b with
    | none => exact absurd (congrArg List.length h) (hcons item (hne item (by simp)))
    | some item' => rw [hcancel item item' h]

theorem pendingBreakpointsJson_hold (texts : Texts) (t : Tooling) (pause : Option Pending) :
    pendingBreakpointsJson texts (t.hold pause) =
      bytes "\x7b\"breakpoints\":" ++ appendList (shownPause texts t.manager.settings pause ++
        t.pending.map (appendPending texts t.manager.settings)) ++ bytes "\x7d" := by
  rw [pendingBreakpointsJson, hold, map_append]
  rfl

/-- Two lists of breakpoints with one more message each are the same exactly if the messages are
shown alike. -/
theorem pendingBreakpointsJson_eq_iff {pause pause' : Option Pending} :
    pendingBreakpointsJson texts (t.hold pause) = pendingBreakpointsJson texts (t.hold pause') ↔
      shownPause texts t.manager.settings pause = shownPause texts t.manager.settings pause' := by
  rw [pendingBreakpointsJson_hold, pendingBreakpointsJson_hold, append_cancel_right_eq,
    append_cancel_left_eq]
  simp only [shownPause, ← Option.toList_map]
  refine appendList_eq_iff fun item hitem ↦ ?_
  rw [Option.toList_map, Option.toList_map, ← map_append] at hitem
  obtain ⟨p, -, rfl⟩ := mem_map.1 hitem
  exact cons_ne_nil _ _

section

variable {t t' : Tooling} (hmanager : t'.manager = t.manager)
  (hrules : t'.breakpointRules = t.breakpointRules)
  (hnext : t'.nextPendingIdentifier = t.nextPendingIdentifier) {stage : Stage}
  {response response' : Option Message} (hsame : SameMessage t.manager.settings m n)
  (hresponse : response.map (appendHttpMessage t.manager.settings · true) =
    response'.map (appendHttpMessage t.manager.settings · true))

include hmanager hrules hnext hsame hresponse

/-- Two messages that are held up are shown alike if their URLs are the same. -/
theorem shownPause_same (hurl : m.url = n.url) (texts : Texts) (now : Int) :
    shownPause texts t.manager.settings (t.pause stage m response now) =
      shownPause texts t.manager.settings (t'.pause stage n response' now) := by
  have hmessage := @appendHttpMessage_same t.manager.settings m n hsame false fun _ ↦ hurl
  have hshown : response.map (fun r ↦
        bytes ",\"response\":" ++ appendHttpMessage t.manager.settings r true) =
      response'.map fun r ↦
        bytes ",\"response\":" ++ appendHttpMessage t.manager.settings r true := by
    have := congrArg (Option.map (bytes ",\"response\":" ++ ·)) hresponse
    simpa [Option.map_map, Function.comp_def] using this
  rw [shownPause, shownPause, pause, pause, hmanager, hrules, hnext, stops_same hsame hurl]
  cases t.manager.settings.enabled with
  | false => rfl
  | true =>
    rw [if_pos rfl, if_pos rfl]
    cases t.breakpointRules.find? fun rule ↦ ruleMatches rule n && stageMatches rule stage with
    | none => rfl
    | some rule =>
      simp only [Option.map_some, Option.toList_some, map_cons, map_nil, appendPending,
        hmessage, hshown]

/-- Two requests at one breakpoint are shown alike exactly if no breakpoint stops either or their
URLs are the same. -/
theorem shownPause_eq_iff (hm : m.url ≠ []) (hn : n.url ≠ []) {texts : Texts} {now : Int} :
    shownPause texts t.manager.settings (t.pause stage m response now) =
        shownPause texts t.manager.settings (t'.pause stage n response' now) ↔
      ((t.stops stage m = true ∨ t.stops stage n = true) → m.url = n.url) := by
  have hstops : t'.stops stage n = t.stops stage n := by
    rw [stops, stops, hmanager, hrules]
  have hsome := isSome_pause t stage m response now
  have hsome' := isSome_pause t' stage n response' now
  rw [hstops] at hsome'
  constructor
  · intro hshown hany
    have hlength := congrArg List.length hshown
    rw [shownPause, shownPause, length_map, length_map] at hlength
    rw [← hsome, ← hsome'] at hany
    -- the lists have the same length, so that either both are held up or none is
    cases hp : t.pause stage m response now with
    | none =>
      cases hq : t'.pause stage n response' now with
      | none => simp [hp, hq] at hany
      | some q => simp [hp, hq] at hlength
    | some p =>
      cases hq : t'.pause stage n response' now with
      | none => simp [hp, hq] at hlength
      | some q =>
        rw [hp, hq] at hshown
        obtain ⟨hp₁, hp₂, hp₃, rfl⟩ := pause_eq_some hp
        obtain ⟨hq₁, hq₂, hq₃, rfl⟩ := pause_eq_some hq
        exact url_eq_of_appendPending (by rw [hp₁, hq₁, hnext]) (hp₂.trans hq₂.symm)
          (hp₃.trans hq₃.symm) hsame.method hm hn (List.cons.inj hshown).1
  · intro hcondition
    by_cases hurl : m.url = n.url
    · exact shownPause_same hmanager hrules hnext hsame hresponse hurl texts now
    -- nothing stops either
    have hneither := mt hcondition hurl
    rw [not_or, Bool.not_eq_true, Bool.not_eq_true] at hneither
    rw [hneither.1, Option.isSome_eq_false_iff, Option.isNone_iff_eq_none] at hsome
    rw [hneither.2, Option.isSome_eq_false_iff, Option.isNone_iff_eq_none] at hsome'
    rw [hsome, hsome']

end

/-! ## What two exchanges look like -/

/-- A client sees the same of two exchanges, whenever it looks and whatever it asks for. -/
def LooksAlike (texts : Texts) (t : Tooling) (c : Circumstances) (x y : Exchange) : Prop :=
  ∀ moment view, (t.during c x moment).view texts view = (t.during c y moment).view texts view

/-- What has to hold for two exchanges to look alike: the parameters in which the captured URLs
differ are spelled plainly, and the URLs are the same where a breakpoint stops one of the
requests. -/
structure WellRedacted (t : Tooling) (x y : Exchange) : Prop where
  captured : t.manager.settings.enabled = true → t.manager.settings.captureLimit ≠ 0 →
    SpelledPlainly t.manager.settings.redactQueryParams x.sent.url y.sent.url
  request : (t.stops .request x.request = true ∨ t.stops .request y.request = true) →
    x.request.url = y.request.url
  response : (t.stops .response x.forwarded = true ∨ t.stops .response y.forwarded = true) →
    x.forwarded.url = y.forwarded.url

/-- The other views do not show what is held up. -/
theorem view_hold (texts : Texts) (t : Tooling) (pause : Option Pending) {view : View}
    (h : view ≠ .breakpoints) : (t.hold pause).view texts view = t.view texts view := by
  cases view with
  | breakpoints => exact absurd rfl h
  | entries | entry | archive | curl => rfl

theorem view_hold_eq_iff {pause pause' : Option Pending} :
    (∀ view, (t.hold pause).view texts view = (t.hold pause').view texts view) ↔
      shownPause texts t.manager.settings pause = shownPause texts t.manager.settings pause' := by
  rw [← pendingBreakpointsJson_eq_iff]
  constructor
  · intro h
    exact Except.ok.inj (h .breakpoints)
  intro h view
  by_cases hview : view = .breakpoints
  · subst hview
    exact congrArg Except.ok h
  · rw [view_hold texts t pause hview, view_hold texts t pause' hview]

section

variable (hx : x.Clean) (hy : y.Clean) (hs : SameExchange t.manager.settings x y)

include hx hy hs

theorem requestPause_eq_iff : shownPause texts t.manager.settings (t.requestPause c x) =
        shownPause texts t.manager.settings (t.requestPause c y) ↔
      ((t.stops .request x.request = true ∨ t.stops .request y.request = true) →
        x.request.url = y.request.url) :=
  shownPause_eq_iff rfl rfl rfl hs.request rfl hx.request.2 hy.request.2

/-- Replies at a breakpoint, behind requests that were stopped alike. -/
theorem responsePause_eq_iff
    (hrequest : (t.stops .request x.request = true ∨ t.stops .request y.request = true) →
      x.request.url = y.request.url) :
    shownPause texts t.manager.settings (t.responsePause c x) =
        shownPause texts t.manager.settings (t.responsePause c y) ↔
      ((t.stops .response x.forwarded = true ∨ t.stops .response y.forwarded = true) →
        x.forwarded.url = y.forwarded.url) := by
  have hstops : t.stops .request x.request = t.stops .request y.request := by
    by_cases hurl : x.request.url = y.request.url
    · rw [stops, stops, stops_same hs.request hurl]
    · have hneither := mt hrequest hurl
      rw [not_or, Bool.not_eq_true, Bool.not_eq_true] at hneither
      rw [hneither.1, hneither.2]
  have hcount : (t.countPause (t.requestPause c y)).nextPendingIdentifier =
      (t.countPause (t.requestPause c x)).nextPendingIdentifier := by
    rw [countPause, countPause, requestPause, requestPause,
      isSome_pause, isSome_pause, hstops]
  have hreply := @appendHttpMessage_same _ _ _ hs.response true (by simp)
  exact @shownPause_eq_iff _ _ (t.countPause (t.requestPause c x))
    (t.countPause (t.requestPause c y))
    rfl rfl hcount _ (some _) (some _) hs.forwarded (congrArg some hreply) hx.forwarded.2
    hy.forwarded.2 _ _

theorem view_after_iff :
    (∀ view, (t.during c x .after).view texts view = (t.during c y .after).view texts view) ↔
      (t.manager.settings.enabled = true → t.manager.settings.captureLimit ≠ 0 →
        SpelledPlainly t.manager.settings.redactQueryParams x.sent.url y.sent.url) := by
  rw [during, during]
  cases henabled : t.manager.settings.enabled with
  | false => exact iff_of_true (fun _ ↦ rfl) fun h ↦ absurd h Bool.false_ne_true
  | true =>
    rw [if_pos rfl, if_pos rfl]
    constructor
    · intro hview _ hlimit
      obtain ⟨d, hd⟩ : ∃ d, x.record t.manager c = some d := ⟨_, record_eq hx⟩
      obtain ⟨e, he⟩ : ∃ e, y.record t.manager c = some e := ⟨_, record_eq hy⟩
      have hentry := hview (.entry d.identifier)
      rw [hd, he] at hentry
      have hurl := url_eq_of_view hx hy hs.sent.method hd he henabled hlimit hentry
      rw [(record_shown hx hd).2, (record_shown hy he).2] at hurl
      exact (redactUrl_eq_iff hs.sent.url).1 hurl
    · intro hplain view
      by_cases hlimit : t.manager.settings.captureLimit = 0
      · -- nothing is kept
        have hadd : ∀ e, t.manager.add e = t.manager := by
          intro e
          rw [Manager.add, if_neg fun hboth ↦ hboth.2 hlimit]
        have hkept : ∀ record : Option Entry,
            (record.map t.manager.add).getD t.manager = t.manager := by
          intro record
          cases record with
          | none => rfl
          | some e => exact hadd e
        rw [hkept, hkept]
      · have hurl := (redactUrl_eq_iff hs.sent.url).2 (hplain rfl hlimit)
        rw [record_same hx hy hs hurl c]

end

/-- **Redaction.**  Two exchanges that differ only in values on the redaction lists look alike
exactly if the names of the parameters are spelled plainly and no breakpoint shows two different
URLs. -/
theorem looksAlike_iff_wellRedacted {texts : Texts} {t : Tooling} {c : Circumstances}
    {x y : Exchange} (hx : x.Clean) (hy : y.Clean) (h : SameExchange t.manager.settings x y) :
    LooksAlike texts t c x y ↔ WellRedacted t x y := by
  constructor
  · intro hlooks
    have hrequest := (requestPause_eq_iff hx hy h).1
      (view_hold_eq_iff.1 fun view ↦ hlooks .atRequest view)
    have hresponse := (responsePause_eq_iff hx hy h hrequest).1
      (view_hold_eq_iff.1 fun view ↦ hlooks .atResponse view)
    exact ⟨(view_after_iff hx hy h).1 fun view ↦ hlooks .after view, hrequest, hresponse⟩
  · rintro ⟨hcaptured, hrequest, hresponse⟩ moment
    cases moment with
    | atRequest => exact view_hold_eq_iff.2 ((requestPause_eq_iff hx hy h).2 hrequest)
    | atResponse => exact view_hold_eq_iff.2 ((responsePause_eq_iff hx hy h hrequest).2 hresponse)
    | after => exact (view_after_iff hx hy h).2 hcaptured

/-! ## A request with a secret -/

def secretRequest (path secret : String) : Message where
  method := bytes "GET"
  url := bytes "http://example.org" ++ bytes path
  host := bytes "example.org"
  path := bytes path
  headers := [⟨bytes "Host", bytes "example.org"⟩, ⟨bytes "Authorization", bytes secret⟩]

def secretReply : Message where
  status := 204
  headers := [⟨bytes "Server", bytes "notes"⟩]

def secretExchange (path secret : String) : Exchange where
  request := secretRequest path secret
  sent := secretRequest path secret
  forwarded := secretRequest path secret
  response := secretReply
  returned := secretReply

/-- The tools with a breakpoint at every request if there is one. -/
def secretTooling (breakpoints : List Json) : Tooling where
  manager := { settings := captureSettings }
  breakpointRules := breakpoints

def everyRequest : Json :=
  .object [(bytes "enabled", .boolean true), (bytes "stage", .string (bytes "request"))]

def secretCircumstances : Circumstances where
  flowId := 7
  profile := some (bytes "home")
  clientAddress := some (bytes "127.0.0.1:50000")
  chainName := some (bytes "direct")
  scheme := some (bytes "http")
  requestPaused := 1
  began := 2
  responsePaused := 3
  finished := 4
  message := none

theorem clean_secretExchange {path secret : String}
    (hsecret : 0 ∉ bytes secret ∧ 13 ∉ bytes secret ∧ 10 ∉ bytes secret) :
    (secretExchange path secret).Clean := by
  have hheader : ∀ {name value : Bytes},
      (name ≠ [] ∧ 58 ∉ name ∧ 13 ∉ name ∧ 10 ∉ name ∧ 0 ∉ name ∧ trimRight name = name) →
      (0 ∉ value ∧ 13 ∉ value ∧ 10 ∉ value) → CleanHeader ⟨name, value⟩ := by
    intro name value hname hvalue
    exact ⟨⟨hname.1, hname.2.1, ⟨hname.2.2.1, hname.2.2.2.1⟩, hvalue.2⟩, hname.2.2.2.2, hvalue.1⟩
  have hrequest : CleanMessage (secretRequest path secret) ∧
      (secretRequest path secret).url ≠ [] := by
    refine ⟨⟨?_, by simp [secretRequest]⟩, append_ne_nil_of_left_ne_nil (by decide) _⟩
    intro h hh
    rw [secretRequest, mem_cons, mem_singleton] at hh
    rcases hh with rfl | rfl
    · exact hheader (by decide) (by decide)
    · exact hheader (by decide) hsecret
  have hreply : CleanMessage secretReply := by
    refine ⟨?_, by decide⟩
    intro h hh
    rw [secretReply, mem_singleton] at hh
    subst hh
    exact hheader (by decide) (by decide)
  exact ⟨hrequest, hrequest, hrequest, hreply⟩

theorem same_secretExchange {path path' secret secret' : String}
    (hurl : SameUrl [bytes "token"] (bytes "http://example.org" ++ bytes path)
      (bytes "http://example.org" ++ bytes path'))
    (hsecret : (bytes secret).length = (bytes secret').length) :
    SameExchange captureSettings (secretExchange path secret) (secretExchange path' secret') := by
  have hlisted : nameInList (bytes "Authorization") captureSettings.redactHeaders = true := by
    decide
  have hrequest : SameMessage captureSettings (secretRequest path secret)
      (secretRequest path' secret') :=
    { method := rfl
      url := hurl
      host := rfl
      path := append_cancel_left
      status := rfl
      headers := .cons ⟨rfl, .inl rfl⟩ (.cons ⟨rfl, .inr ⟨hsecret, hlisted⟩⟩ .nil)
      body := rfl
      bodySet := rfl }
  have hreply : SameMessage captureSettings secretReply secretReply :=
    { method := rfl
      url := ⟨rfl, rfl, .nil, rfl⟩
      host := rfl
      path := fun _ ↦ rfl
      status := rfl
      headers := .cons ⟨rfl, .inl rfl⟩ .nil
      body := rfl
      bodySet := rfl }
  exact ⟨hrequest, hrequest, hrequest, hreply, hreply⟩

/-- URLs with one parameter. -/
theorem sameUrl_singleton {u v : Bytes} (p q : Bytes)
    (hu : (splitUrl u).query = some [p]) (hv : (splitUrl v).query = some [q])
    (hrest : (splitUrl u).front = (splitUrl v).front ∧
      (splitUrl u).fragment = (splitUrl v).fragment)
    (h : SamePart names p q) : SameUrl names u v := by
  refine ⟨hrest.1, by rw [hu, hv]; rfl, ?_, hrest.2⟩
  rw [UrlParts.params, UrlParts.params, hu, hv]
  exact .cons h .nil

theorem sameUrl_token :
    SameUrl [bytes "token"] (bytes "http://example.org" ++ bytes "/notes?token=abc")
      (bytes "http://example.org" ++ bytes "/notes?token=xyz") :=
  sameUrl_singleton (bytes "token=abc") (bytes "token=xyz") (by decide) (by decide) (by decide)
    (.inr ⟨bytes "token", bytes "abc", bytes "xyz", by decide, by decide, rfl, by decide⟩)

theorem sameUrl_encodedToken :
    SameUrl [bytes "token"] (bytes "http://example.org" ++ bytes "/notes?%74oken=abc")
      (bytes "http://example.org" ++ bytes "/notes?%74oken=xyz") :=
  sameUrl_singleton (bytes "%74oken=abc") (bytes "%74oken=xyz") (by decide) (by decide) (by decide)
    (.inr ⟨bytes "%74oken", bytes "abc", bytes "xyz", by decide, by decide, rfl, by decide⟩)

/-- Times as their numbers of nanoseconds. -/
def numberTexts : Texts where
  utc := decimalInt
  milliseconds := decimalInt

/-- Without a breakpoint a token and a password do not show. -/
theorem looksAlike_token :
    LooksAlike numberTexts (secretTooling []) secretCircumstances
      (secretExchange "/notes?token=abc" "Basic YQ==")
      (secretExchange "/notes?token=xyz" "Basic Yg==") := by
  refine (looksAlike_iff_wellRedacted (clean_secretExchange (by decide))
    (clean_secretExchange (by decide))
    (same_secretExchange sameUrl_token (by decide))).2
    ⟨fun _ _ ↦ ?_, fun h ↦ ?_, fun h ↦ ?_⟩
  · have hparams : (splitUrl (bytes "http://example.org" ++ bytes "/notes?token=abc")).params =
          [bytes "token=abc"] ∧
        (splitUrl (bytes "http://example.org" ++ bytes "/notes?token=xyz")).params =
          [bytes "token=xyz"] := by decide
    rw [SpelledPlainly, secretExchange, secretExchange, secretRequest, secretRequest, hparams.1,
      hparams.2]
    exact .cons (.inr ⟨bytes "token", bytes "abc", bytes "xyz", by decide, by decide, by decide⟩)
      .nil
  · rcases h with h | h <;> cases h
  · rcases h with h | h <;> cases h

/-- A breakpoint shows the token of the request that it holds up, and a record the token of a URL
that spells the name of the parameter with a percent sign. -/
theorem shows_token :
    (SameExchange captureSettings (secretExchange "/notes?token=abc" "Basic YQ==")
        (secretExchange "/notes?token=xyz" "Basic YQ==") ∧
      ∀ texts, ¬LooksAlike texts (secretTooling [everyRequest]) secretCircumstances
        (secretExchange "/notes?token=abc" "Basic YQ==")
        (secretExchange "/notes?token=xyz" "Basic YQ==")) ∧
    (SameExchange captureSettings (secretExchange "/notes?%74oken=abc" "Basic YQ==")
        (secretExchange "/notes?%74oken=xyz" "Basic YQ==") ∧
      ∀ texts, ¬LooksAlike texts (secretTooling []) secretCircumstances
        (secretExchange "/notes?%74oken=abc" "Basic YQ==")
        (secretExchange "/notes?%74oken=xyz" "Basic YQ==")) := by
  have htoken := @same_secretExchange _ _ "Basic YQ==" "Basic YQ==" sameUrl_token rfl
  have hencoded := @same_secretExchange _ _ "Basic YQ==" "Basic YQ==" sameUrl_encodedToken rfl
  refine ⟨⟨htoken, fun texts h ↦ ?_⟩, hencoded, fun texts h ↦ ?_⟩
  · have hurl := (requestPause_eq_iff (t := secretTooling [everyRequest])
      (clean_secretExchange (by decide))
      (clean_secretExchange (by decide)) htoken).1
      (view_hold_eq_iff.1 fun view ↦ h .atRequest view) (.inl (by decide))
    exact absurd hurl (by decide)
  · have hplain := (redactUrl_eq_iff sameUrl_encodedToken).2
      ((view_after_iff (t := secretTooling []) (clean_secretExchange (by decide))
        (clean_secretExchange (by decide)) hencoded).1
        (fun view ↦ h .after view) rfl (by decide))
    exact absurd hplain (by decide)

end ClambHook.Developer
