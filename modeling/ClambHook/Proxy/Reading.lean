import ClambHook.Proxy.Writing

/-!
# Reading messages

What `ch_http_parse_message` makes of what a peer sends.  A message is a `Wire`, and `Delivered`
says which calls llhttp makes for it, in pieces of any size.

The end of a message does not stop llhttp, so what follows in the same read is added to the message
too, as are the fields behind a chunked body but for the last of them (`Wire.spill`).  And llhttp is
not told that a reply is one to a `HEAD` request: it waits for the body that such a reply announces
(`Awaited`), and the reply is never read.
-/

namespace ClambHook.Proxy

open CString List Header

/-! ## What is sent -/

/-- A message as a peer sends it: a request with its method and target, or a reply with its
status. -/
structure Wire where
  method : Bytes := []
  target : Bytes := []
  status : Nat := 0
  headers : List Header
  body : Bytes := []
deriving DecidableEq, Repr

/-- A message that llhttp accepts. -/
structure Wire.Valid (w : Wire) : Prop where
  method : 13 ∉ w.method ∧ 10 ∉ w.method
  target : 13 ∉ w.target ∧ 10 ∉ w.target
  headers : ∀ h ∈ w.headers, h.Valid

/-- The calls for a list of headers: for each of them the pieces of its name and those of its
value. -/
inductive HeaderEvents : List Header → List Event → Prop where
  | nil : HeaderEvents [] []
  | cons {h : Header} {hs : List Header} {names values : List Bytes} {events : List Event}
      (hnames : names ≠ []) (hname : names.flatten = h.name) (hvalues : values ≠ [])
      (hvalue : values.flatten = h.value) (hevents : HeaderEvents hs events) :
      HeaderEvents (h :: hs)
        (names.map .headerField ++ values.map .headerValue ++ events)

/-- The calls for a message, up to the end of its body. -/
structure Delivered (w : Wire) (events : List Event) : Prop where
  exists_events : ∃ (urls bodies : List Bytes) (headers : List Event),
    urls.flatten = w.target ∧ HeaderEvents w.headers headers ∧ bodies.flatten = w.body ∧
    events = urls.map .url ++ headers ++ [.headersComplete w.method w.status] ++ bodies.map .body

/-- The calls for replies that are followed by another one, which have no body. -/
inductive Interims : List Event → Prop where
  | nil : Interims []
  | cons {w : Wire} {events rest : List Event} (hw : w.Valid) (hdelivered : Delivered w events)
      (hinterim : interim w.status = true) (hbody : w.body = []) (hrest : Interims rest) :
      Interims (events ++ .messageComplete :: rest)

/-- A call behind the body of a message: its texts have no ends of lines, and it is not for a reply
that announces another one. -/
def Event.Valid : Event → Prop
  | .headerField text => 58 ∉ text ∧ 13 ∉ text ∧ 10 ∉ text
  | .url text | .headerValue text => 13 ∉ text ∧ 10 ∉ text
  | .headersComplete method status => 13 ∉ method ∧ interim status = false
  | _ => True

def Event.isField : Event → Bool
  | .headerField _ | .headerValue _ => true
  | _ => false

/-- Behind the body of a message there are calls for fields, if it is chunked, for its end, and for
what follows in the same read. -/
def Ends (events rest : List Event) (reads : List (List Event)) : Prop :=
  (∀ e ∈ rest, e.Valid) ∧ ∃ fields more before tail later,
    rest = fields ++ .messageComplete :: more ∧ (∀ e ∈ fields, e.isField = true) ∧
    events ++ fields = before.flatten ++ tail ∧
    reads = before ++ (tail ++ .messageComplete :: more) :: later

/-- The reads hold a request. -/
def Requested (w : Wire) (rest : List Event) (reads : List (List Event)) : Prop :=
  ∃ events, Delivered w events ∧ Ends events rest reads

/-- The last encoding of the body is `chunked`. -/
def Wire.Chunked (w : Wire) : Prop :=
  ∃ h ∈ (w.headers.filter (·.named "Transfer-Encoding")).getLast?,
    lower (trim ((splitLast 44 h.value).elim h.value Prod.snd)) = bytes "chunked"

/-- The reply to a `HEAD` request announces a body, by the rules of
`llhttp__after_headers_complete`. -/
def Awaited (w v : Wire) : Prop :=
  w.method = bytes "HEAD" ∧ v.status ∉ [101, 204, 304] ∧
    (v.Chunked ∨ (∀ h ∈ v.headers, ¬ h.named "Transfer-Encoding") ∧
      ∃ h ∈ v.headers, h.isLength ∧ digitsValue h.value ≠ 0)

/-- The reads hold a reply to the request, and replies in front of it that announce it.  Its end is
not found while a body is awaited. -/
def Replied (w v : Wire) (rest : List Event) (reads : List (List Event)) : Prop :=
  ∃ front events, Interims front ∧ Delivered v events ∧ interim v.status = false ∧
    (Awaited w v ∧ reads.flatten = front ++ events ∨
      ¬ Awaited w v ∧ Ends (front ++ events) rest reads)

/-- The parser at the end of the body, without what it has of the message itself. -/
def Wire.ended (w : Wire) (response : Bool) : Context where
  response := response
  message := {
    method := if response then [] else w.method
    status := if response then w.status else 0 }

/-- What the calls behind the body of the message add to it. -/
def Wire.spill (w : Wire) (response : Bool) (rest : List Event) : Context :=
  rest.foldl advance (w.ended response)

/-! ## The loop -/

variable {events : List Event} {c d : Context}

/-- A run that does not fail does what its callbacks do when they succeed. -/
theorem foldlM_step_eq_some (h : events.foldlM step c = some d) : d = events.foldl advance c := by
  induction events generalizing c with
  | nil => exact (Option.some.inj h).symm
  | cons e events ih =>
    rw [foldlM_cons, step] at h
    split at h
    · cases h
    · exact ih h

theorem finalizeHeader_keeps (c : Context) :
    (finalizeHeader c).response = c.response ∧ (finalizeHeader c).complete = c.complete ∧
      (finalizeHeader c).message.status = c.message.status := by
  rw [finalizeHeader]
  split <;> exact ⟨rfl, rfl, rfl⟩

/-- Completion is never taken back. -/
theorem advance_keeps (c : Context) (e : Event) : (advance c e).response = c.response ∧
    (c.complete = true → (advance c e).complete = true) := by
  obtain ⟨hresponse, hcomplete, -⟩ := finalizeHeader_keeps c
  cases e with
  | url | headerValue | body => exact ⟨rfl, id⟩
  | headerField text =>
    simp only [advance]
    split
    · exact ⟨hresponse, hcomplete.trans⟩
    · exact ⟨rfl, id⟩
  | headersComplete method status =>
    simp only [advance]
    split <;> exact ⟨hresponse, hcomplete.trans⟩
  | messageComplete =>
    simp only [advance]
    split
    · exact ⟨rfl, id⟩
    · exact ⟨rfl, fun _ ↦ rfl⟩

theorem foldl_keeps : (events.foldl advance c).response = c.response ∧
    (c.complete = true → (events.foldl advance c).complete = true) := by
  induction events generalizing c with
  | nil => exact ⟨rfl, id⟩
  | cons e events ih =>
    obtain ⟨hresponse, hcomplete⟩ := advance_keeps c e
    exact ⟨ih.1.trans hresponse, fun h ↦ ih.2 (hcomplete h)⟩

/-- A message that is not complete behind some calls was not complete in front of them. -/
theorem complete_of_foldl (h : (events.foldl advance c).complete = false) : c.complete = false :=
  Bool.eq_false_iff.2 fun hc ↦ Bool.eq_false_iff.1 h (foldl_keeps.2 hc)

/-- Fields do not end a message. -/
theorem foldl_fields (h : ∀ e ∈ events, e.isField = true) :
    (events.foldl advance c).complete = c.complete ∧
      (events.foldl advance c).message.status = c.message.status := by
  induction events generalizing c with
  | nil => exact ⟨rfl, rfl⟩
  | cons e events ih =>
    obtain ⟨hcomplete, hstatus⟩ := @ih (advance c e) fun e' he' ↦ h e' (mem_cons_of_mem e he')
    rw [foldl_cons, hcomplete, hstatus]
    obtain ⟨-, hcomplete', hstatus'⟩ := finalizeHeader_keeps c
    cases e with
    | headerField text =>
      simp only [advance]
      split
      · exact ⟨hcomplete', hstatus'⟩
      · exact ⟨rfl, rfl⟩
    | headerValue text => exact ⟨rfl, rfl⟩
    | url | headersComplete | body | messageComplete => cases h _ mem_cons_self

variable {reads : List (List Event)}

/-- Reads that do not complete the message are gone through. -/
theorem readLoop_append {before : List (List Event)}
    (hopen : (before.flatten.foldl advance c).complete = false)
    (h : readLoop (before ++ reads) c = some d) :
    readLoop reads (before.flatten.foldl advance c) = some d := by
  induction before generalizing c with
  | nil => exact h
  | cons read before ih =>
    rw [flatten_cons, foldl_append] at hopen ⊢
    rw [cons_append, readLoop, complete_of_foldl (complete_of_foldl hopen), if_neg (by simp)] at h
    obtain ⟨c', hread, hloop⟩ := Option.bind_eq_some_iff.1 h
    rw [foldlM_step_eq_some hread] at hloop
    exact ih hopen hloop

variable {rest : List Event}

/-- The read with the end of the message is the last one, and it is gone through to its own end. -/
theorem readLoop_of_ends (h : Ends events rest reads)
    (hopen : (events.foldl advance c).complete = false)
    (hfinal : (c.response && interim (events.foldl advance c).message.status) = false)
    (hloop : readLoop reads c = some d) :
    d = rest.foldl advance (events.foldl advance c) ∧ d.complete = true := by
  obtain ⟨-, fields, more, before, tail, later, rfl, hfields, hevents, rfl⟩ := h
  obtain ⟨hcomplete, hstatus⟩ := foldl_fields (c := events.foldl advance c) hfields
  rw [hopen, ← foldl_append, hevents, foldl_append] at hcomplete
  rw [← hstatus, ← foldl_append, hevents] at hfinal
  have hlast := readLoop_append (complete_of_foldl hcomplete) hloop
  rw [readLoop, complete_of_foldl hcomplete, if_neg (by simp)] at hlast
  obtain ⟨c', hread, hlater⟩ := Option.bind_eq_some_iff.1 hlast
  have hc' := foldlM_step_eq_some hread
  rw [← foldl_append, ← append_assoc, ← hevents, foldl_append, foldl_cons] at hc'
  have hdone : c'.complete = true := by
    rw [hc']
    refine foldl_keeps.2 ?_
    rw [advance, foldl_keeps.1, hevents, hfinal]
    rfl
  have hd : d = c' := by
    cases later with
    | nil => exact (Option.some.inj hlater).symm
    | cons read later =>
      rw [readLoop, if_pos hdone] at hlater
      exact (Option.some.inj hlater).symm
  rw [hd]
  exact ⟨by rw [hc', foldl_append, foldl_append, foldl_cons], hdone⟩

/-! ## Headers -/

/-- The parser is between two headers: none is pending, or one is with its value. -/
structure Between (c : Context) : Prop where
  pending : c.readingValue = true → c.headerName ≠ []
  clean : c.readingValue = false → c.headerName = [] ∧ c.headerValue = []

theorem foldl_headerField {texts : List Bytes} {c : Context} (h : c.readingValue = false) :
    ∃ n, (texts.map Event.headerField).foldl advance c =
      { c with headerName := c.headerName ++ texts.flatten, headerBytes := n } := by
  induction texts generalizing c with
  | nil => exact ⟨c.headerBytes, by simp⟩
  | cons text texts ih =>
    rw [map_cons, foldl_cons]
    have hstep : advance c (.headerField text) =
        { c with
          headerName := c.headerName ++ text, headerBytes := c.headerBytes + text.length } := by
      simp [advance, h]
    obtain ⟨n, hn⟩ := @ih { c with headerName := c.headerName ++ text,
                                   headerBytes := c.headerBytes + text.length } h
    exact ⟨n, by rw [hstep, hn]; simp⟩

variable (texts : List Bytes)

theorem foldl_headerValue (c : Context) (hne : texts ≠ []) :
    ∃ n, (texts.map Event.headerValue).foldl advance c =
      { c with
        headerValue := c.headerValue ++ texts.flatten, headerBytes := n,
        readingValue := true } := by
  induction texts generalizing c with
  | nil => exact absurd rfl hne
  | cons text texts ih =>
    rw [map_cons, foldl_cons]
    by_cases hnil : texts = []
    · subst hnil
      exact ⟨c.headerBytes + text.length, by simp [advance]⟩
    · obtain ⟨n, hn⟩ := ih (advance c (.headerValue text)) hnil
      exact ⟨n, by rw [hn]; simp [advance]⟩

/-- What is left of the context once the pending header is added. -/
theorem Between.finalizeHeader (h : Between c) :
    (finalizeHeader c).readingValue = false ∧ (finalizeHeader c).headerName = [] ∧
      (finalizeHeader c).headerValue = [] := by
  rw [Proxy.finalizeHeader]
  split
  · next hnil =>
    have hreading : c.readingValue = false := by
      by_contra hreading
      exact h.pending (by simpa using hreading) hnil
    exact ⟨hreading, h.clean hreading⟩
  · exact ⟨rfl, rfl, rfl⟩

/-- The calls for one header make it the pending one. -/
theorem foldl_header (h : Between c) {names values : List Bytes} (hnames : names ≠ [])
    (hvalues : values ≠ []) :
    ∃ n, (names.map Event.headerField ++ values.map Event.headerValue).foldl advance c =
      { Proxy.finalizeHeader c with
        headerName := names.flatten, headerValue := values.flatten, readingValue := true
        headerBytes := n } := by
  obtain ⟨text, names, rfl⟩ := exists_cons_of_ne_nil hnames
  have hclean := h.finalizeHeader
  have hfirst : advance c (.headerField text) =
      { Proxy.finalizeHeader c with
        headerName := text,
        headerBytes := (Proxy.finalizeHeader c).headerBytes + text.length } := by
    rw [advance]
    cases hreading : c.readingValue with
    | true => simp [hclean.2.1]
    | false =>
      have hname := (h.clean hreading).1
      simp [Proxy.finalizeHeader, hname]
  rw [foldl_append, map_cons, foldl_cons, hfirst]
  obtain ⟨n, hn⟩ := @foldl_headerField names
    { Proxy.finalizeHeader c with
      headerName := text, headerBytes := (Proxy.finalizeHeader c).headerBytes + text.length }
    hclean.1
  rw [hn]
  obtain ⟨k, hk⟩ := foldl_headerValue values _ hvalues
  exact ⟨k, by rw [hk]; simp [hclean.2.2]⟩

/-- The calls for some headers add them, once the last one is added that is pending. -/
theorem finalizeHeader_foldl {hs : List Header} (h : HeaderEvents hs events)
    (hvalid : ∀ h ∈ hs, h.name ≠ []) (hc : Between c) :
    ∃ n, finalizeHeader (events.foldl advance c) =
      { finalizeHeader c with
        headerBytes := n
        message := { (finalizeHeader c).message with
          headers := (finalizeHeader c).message.headers ++ hs } } := by
  induction h generalizing c with
  | nil => exact ⟨(finalizeHeader c).headerBytes, by simp⟩
  | @cons h hs names values events hnames hname hvalues hvalue hevents ih =>
    obtain ⟨hne, hvalid⟩ := forall_mem_cons.1 hvalid
    obtain ⟨n, hn⟩ := foldl_header hc hnames hvalues
    rw [foldl_append, hn, hname, hvalue]
    obtain ⟨hreading, hname, hvalue⟩ := hc.finalizeHeader
    generalize finalizeHeader c = d at *
    have hadded : finalizeHeader { d with
          headerName := h.name, headerValue := h.value, readingValue := true, headerBytes := n } =
        { d with headerBytes := n, message := messageHeaderAdd d.message h.name h.value } := by
      refine (if_neg hne).trans ?_
      simp [hreading, hname, hvalue]
    obtain ⟨k, hk⟩ := @ih { d with
      headerName := h.name, headerValue := h.value, readingValue := true, headerBytes := n } hvalid
      ⟨fun _ ↦ hne, fun h ↦ absurd h (by simp)⟩
    rw [hadded] at hk
    exact ⟨k, hk.trans (by simp [messageHeaderAdd])⟩

/-! ## Messages -/

theorem foldl_url (c : Context) :
    (texts.map Event.url).foldl advance c = { c with url := c.url ++ texts.flatten } := by
  induction texts generalizing c with
  | nil => simp
  | cons text texts ih =>
    rw [map_cons, foldl_cons, ih]
    simp [advance]

theorem foldl_body (c : Context) :
    (texts.map Event.body).foldl advance c =
      { c with message := { c.message with
        body := c.message.body ++ texts.flatten
        bodySet := c.message.bodySet || texts.flatten != [] } } := by
  induction texts generalizing c with
  | nil => simp
  | cons text texts ih =>
    rw [map_cons, foldl_cons, ih]
    have hset : (text != [] || texts.flatten != []) = (text ++ texts.flatten != []) := by
      cases text with
      | nil => rfl
      | cons b text => rfl
    simp [advance, ← hset, Bool.or_assoc]

/-- The parser has no message yet. -/
structure Fresh (c : Context) : Prop where
  message : c.message = {}
  name : c.headerName = []
  value : c.headerValue = []
  reading : c.readingValue = false

/-- The message that is read for a wire message, before a request gets its path. -/
def Wire.parsed (w : Wire) (response : Bool) : Message where
  method := if response then [] else w.method
  status := if response then w.status else 0
  headers := w.headers
  body := w.body
  bodySet := w.body != []

variable {w : Wire}

/-- The calls for a message. -/
theorem foldl_delivered (hw : w.Valid) (h : Delivered w events) (hc : Fresh c) :
    ∃ n, events.foldl advance c =
      { c with url := c.url ++ w.target, headerBytes := n, message := w.parsed c.response } := by
  obtain ⟨urls, bodies, headers, hurls, hheaders, hbodies, rfl⟩ := h
  simp only [foldl_append, foldl_url, foldl_body, hurls, hbodies, foldl_cons, foldl_nil, advance]
  generalize hstart : ({ c with url := c.url ++ w.target } : Context) = start
  have hbetween : Between start := by
    rw [← hstart]
    exact ⟨fun h ↦ absurd (hc.reading.symm.trans h) (by simp), fun _ ↦ ⟨hc.name, hc.value⟩⟩
  obtain ⟨n, hn⟩ := finalizeHeader_foldl hheaders (fun h hh ↦ (hw.headers h hh).nonempty) hbetween
  have hnone : finalizeHeader start = start := if_pos (by rw [← hstart]; exact hc.name)
  refine ⟨n, ?_⟩
  rw [hn, hnone, ← hstart]
  cases c.response <;> simp [Wire.parsed, hc.message]

/-- Replies that announce another one leave nothing behind. -/
theorem foldl_interims (h : Interims events) (hc : Fresh c) (hresponse : c.response = true) :
    Fresh (events.foldl advance c) ∧ (events.foldl advance c).complete = c.complete := by
  induction h generalizing c with
  | nil => exact ⟨hc, rfl⟩
  | @cons w events rest hw hdelivered hinterim hbody hrest ih =>
    obtain ⟨n, hn⟩ := foldl_delivered hw hdelivered hc
    have hreset : advance (events.foldl advance c) .messageComplete =
        { c with url := c.url ++ w.target, headerBytes := 0, message := {} } := by
      simp [hn, advance, hresponse, Wire.parsed, hinterim, hc.reading]
    rw [foldl_append, foldl_cons, hreset]
    exact @ih { c with url := c.url ++ w.target, headerBytes := 0, message := {} }
      ⟨rfl, hc.name, hc.value, hc.reading⟩ hresponse

/-! ## Behind the body -/

/-- The context with a message and the target of a request in front of what it has. -/
def Context.behind (c : Context) (url : Bytes) (m : Message) (headerBytes : Nat) : Context :=
  { c with
    url := url ++ c.url
    headerBytes := headerBytes + c.headerBytes
    message := { c.message with
      headers := m.headers ++ c.message.headers
      body := m.body ++ c.message.body
      bodySet := m.bodySet || c.message.bodySet } }

/-- What is behind the body of a message can be written. -/
structure Context.Valid (c : Context) : Prop where
  url : 13 ∉ c.url
  method : 13 ∉ c.message.method
  status : ∃ n : Nat, c.message.status = n ∧ interim n = false
  name : 58 ∉ c.headerName ∧ 13 ∉ c.headerName ∧ 10 ∉ c.headerName
  value : 13 ∉ c.headerValue ∧ 10 ∉ c.headerValue
  headers : ∀ h ∈ c.message.headers, h.Valid
  bodySet : c.message.bodySet = (c.message.body != [])

theorem Context.Valid.finalizeHeader (h : c.Valid) : (finalizeHeader c).Valid := by
  rw [Proxy.finalizeHeader]
  split
  · exact h
  · next hne =>
    refine ⟨h.url, h.method, h.status, by simp, by simp, fun header hmem ↦ ?_, h.bodySet⟩
    rcases mem_append.1 hmem with hmem | hmem
    · exact h.headers header hmem
    · rw [mem_singleton.1 hmem]
      exact ⟨hne, h.name.1, h.name.2, h.value⟩

theorem Context.Valid.advance {e : Event} (h : c.Valid) (he : e.Valid) : (advance c e).Valid := by
  cases e with
  | url text =>
    exact { h with url := by simp only [Proxy.advance, mem_append, not_or]; exact ⟨h.url, he.1⟩ }
  | headerField text =>
    have hfirst : (if c.readingValue then Proxy.finalizeHeader c else c).Valid := by
      split
      · exact h.finalizeHeader
      · exact h
    obtain ⟨h₁, h₂, h₃⟩ := hfirst.name
    refine { hfirst with name := ?_ }
    simp only [Proxy.advance, mem_append, not_or]
    exact ⟨⟨h₁, he.1⟩, ⟨h₂, he.2.1⟩, h₃, he.2.2⟩
  | headerValue text =>
    refine { h with value := ?_ }
    simp only [Proxy.advance, mem_append, not_or]
    exact ⟨⟨h.value.1, he.1⟩, h.value.2, he.2⟩
  | headersComplete method status =>
    have hfinal := h.finalizeHeader
    rw [Proxy.advance]
    dsimp only
    split
    · exact { hfinal with status := ⟨status, rfl, he.2⟩ }
    · exact { hfinal with method := he.1 }
  | body text =>
    refine { h with bodySet := ?_ }
    have hset := h.bodySet
    simp only [Proxy.advance, hset]
    cases c.message.body with
    | nil => simp
    | cons b body => rfl
  | messageComplete =>
    obtain ⟨n, hn, hfinal⟩ := h.status
    rw [Proxy.advance, hn, hfinal, Bool.and_false, if_neg (by simp)]
    exact { h with }

variable (url : Bytes) (m : Message) (n : Nat)

theorem finalizeHeader_behind (c : Context) :
    finalizeHeader (c.behind url m n) = (finalizeHeader c).behind url m n := by
  rw [finalizeHeader, finalizeHeader]
  split
  · next hnil => rw [if_pos (by exact hnil)]
  · next hne =>
    rw [if_neg (by exact hne)]
    simp [Context.behind, messageHeaderAdd]

/-- A call adds to the message what it adds behind it. -/
theorem advance_behind (hc : c.Valid) (e : Event) :
    advance (c.behind url m n) e = (advance c e).behind url m n := by
  cases e with
  | url text => simp [advance, Context.behind]
  | headerField text =>
    have hreading : (c.behind url m n).readingValue = c.readingValue := rfl
    simp only [advance, finalizeHeader_behind, hreading]
    cases c.readingValue <;> simp [Context.behind, Nat.add_assoc]
  | headerValue text => simp [advance, Context.behind, Nat.add_assoc]
  | headersComplete method status =>
    simp only [advance, finalizeHeader_behind]
    have hresponse : ((finalizeHeader c).behind url m n).response = (finalizeHeader c).response :=
      rfl
    rw [hresponse]
    split <;> rfl
  | body text => simp [advance, Context.behind, Bool.or_assoc]
  | messageComplete =>
    obtain ⟨k, hk, hfinal⟩ := hc.status
    have hstatus : (c.behind url m n).message.status = k := hk
    rw [advance, advance, hstatus, hk, hfinal]
    simp only [Bool.and_false, Bool.false_eq_true, if_false]
    rfl

theorem foldl_behind (hrest : ∀ e ∈ rest, e.Valid) (hc : c.Valid) :
    (rest.foldl advance c).Valid ∧
      rest.foldl advance (c.behind url m n) = (rest.foldl advance c).behind url m n := by
  induction rest generalizing c with
  | nil => exact ⟨hc, rfl⟩
  | cons e rest ih =>
    rw [foldl_cons, foldl_cons, advance_behind url m n hc]
    exact ih (fun e' he' ↦ hrest e' (mem_cons_of_mem e he')) (hc.advance (hrest e mem_cons_self))

theorem valid_ended (hw : w.Valid) {response : Bool} (h : (response && interim w.status) = false) :
    (w.ended response).Valid := by
  refine ⟨not_mem_nil, ?_, ?_, by simp [Wire.ended], by simp [Wire.ended], nofun, rfl⟩
  · rw [Wire.ended]
    dsimp only
    split
    · exact not_mem_nil
    · exact hw.method.1
  · cases response with
    | true => exact ⟨w.status, rfl, h⟩
    | false => exact ⟨0, rfl, by decide⟩

/-- What the loop comes to for a message behind others that leave nothing. -/
theorem eq_behind_of_readLoop {front : List Event} (hw : w.Valid) (h : Delivered w events)
    (hc : Fresh (front.foldl advance c)) (hopen : (front.foldl advance c).complete = false)
    (hfinal : (c.response && interim w.status) = false)
    (hends : Ends (front ++ events) rest reads) (hloop : readLoop reads c = some d) :
    (w.spill c.response rest).Valid ∧ d.complete = true ∧
      ∃ n, d = (w.spill c.response rest).behind ((front.foldl advance c).url ++ w.target)
        (w.parsed c.response) n := by
  obtain ⟨n, hn⟩ := foldl_delivered hw h hc
  rw [foldl_keeps.1] at hn
  have hended : (front ++ events).foldl advance c = (w.ended c.response).behind
      ((front.foldl advance c).url ++ w.target) (w.parsed c.response) n := by
    rw [foldl_append, hn]
    simp [Context.behind, Wire.ended, Wire.parsed, hc.name, hc.value, hc.reading, hopen]
  have hstatus : (c.response && interim (w.ended c.response).message.status) = false := by
    cases hresponse : c.response with
    | true => rw [hresponse] at hfinal; exact hfinal
    | false => rfl
  obtain ⟨hd, hcomplete⟩ := readLoop_of_ends hends (by rw [hended]; rfl)
    (by rw [hended]; exact hstatus) hloop
  obtain ⟨hvalid, heq⟩ := foldl_behind ((front.foldl advance c).url ++ w.target)
    (w.parsed c.response) n hends.1 (valid_ended hw hfinal)
  rw [hended, heq] at hd
  exact ⟨hvalid, hcomplete, n, hd⟩

variable {m : Message} {s : Context}

theorem isSome_messageHeader {name : String} :
    (messageHeader m name).isSome = true ↔ ∃ h ∈ m.headers, h.named name = true := by
  rw [messageHeader, Option.isSome_map, List.find?_isSome]

/-- What is read for a message, whichever way it goes. -/
structure ReadAs (w : Wire) (s : Context) (m : Message) : Prop where
  headers : m.headers = w.headers ++ s.message.headers
  body : m.body = w.body ++ s.message.body
  framed : (m.bodySet || m.body != []) = true ↔
    (∃ h ∈ m.headers, h.isLength = true) ∨ (∃ h ∈ m.headers, h.named "Transfer-Encoding" = true) ∨
      m.body ≠ []

/-- The flag for a body that is set behind the loop. -/
theorem readAs_markBody (hs : s.Valid) (hheaders : m.headers = w.headers ++ s.message.headers)
    (hbody : m.body = w.body ++ s.message.body)
    (hset : m.bodySet = (w.body != [] || s.message.bodySet)) : ReadAs w s (markBody m) := by
  have hiff : ((messageHeader m "Content-Length").isSome ||
      (messageHeader m "Transfer-Encoding").isSome) = true ↔
      (∃ h ∈ m.headers, h.isLength = true) ∨
        ∃ h ∈ m.headers, h.named "Transfer-Encoding" = true := by
    rw [Bool.or_eq_true, isSome_messageHeader, isSome_messageHeader]
    rfl
  rw [markBody]
  split
  · next hframed =>
    refine ⟨hheaders, hbody, iff_of_true (by simp) ?_⟩
    rcases hiff.1 hframed with hl | ht
    · exact .inl hl
    · exact .inr (.inl ht)
  · next hframed =>
    refine ⟨hheaders, hbody, ?_⟩
    have hno := mt hiff.2 hframed
    rw [not_or] at hno
    have hset' : m.bodySet = (m.body != []) := by
      rw [hset, hs.bodySet, hbody]
      cases w.body with
      | nil => simp
      | cons b body => rfl
    rw [hset', Bool.or_self, bne_iff_ne]
    simp only [hno.1, hno.2, false_or]

theorem markBody_else (m : Message) :
    (markBody m).method = m.method ∧ (markBody m).path = m.path ∧
    (markBody m).status = m.status := by
  rw [markBody]
  split <;> exact ⟨rfl, rfl, rfl⟩

/-- The path and the query of a target: an absolute one has them behind its authority. -/
def pathAndQuery (target : Bytes) : Bytes :=
  if startsWith "http://" target || startsWith "https://" target then
    let rest := (target.drop (if startsWith "http://" target then 7 else 8)).dropWhile
      (!endsAuthority ·)
    if rest = [] then bytes "/" else rest
  else if target = [] then bytes "/" else target

variable {scheme authority : Option Bytes}

/-- What a request gets from its target. -/
theorem deriveRequest_eq_some {m' : Message} {url : Bytes}
    (h : deriveRequest m url scheme authority = some m') :
    m'.path = pathAndQuery url ∧ m'.method = m.method ∧ m'.headers = m.headers ∧ m'.body = m.body ∧
      m'.bodySet = m.bodySet := by
  rw [deriveRequest] at h
  rw [pathAndQuery]
  dsimp only at h ⊢
  split at h
  · next habsolute =>
    cases h
    rw [if_pos habsolute]
    refine ⟨?_, rfl, rfl, rfl, rfl⟩
    split <;> rfl
  · next habsolute =>
    rw [if_neg habsolute]
    split at h
    · cases h
    · cases h
      exact ⟨rfl, rfl, rfl, rfl, rfl⟩

/-- A request that was read. -/
theorem readAs_of_requested (hw : w.Valid) (h : Requested w rest reads)
    (hm : parseMessage false scheme authority reads = .ok m) :
    (w.spill false rest).Valid ∧ ReadAs w (w.spill false rest) m ∧
      m.method = (w.spill false rest).message.method ∧
      m.path = pathAndQuery (w.target ++ (w.spill false rest).url) := by
  obtain ⟨events, hdelivered, hends⟩ := h
  rw [parseMessage] at hm
  split at hm
  · cases hm
  next c hloop =>
  obtain ⟨hvalid, hcomplete, n, hc⟩ := @eq_behind_of_readLoop _ _ _ reads rest w [] hw hdelivered
    ⟨rfl, rfl, rfl, rfl⟩ rfl rfl hends hloop
  have hresponse : c.response = false := by
    rw [hc]
    exact foldl_keeps.1
  rw [if_pos hcomplete, map_eq_ok_iff] at hm
  obtain ⟨m', hm', rfl⟩ := hm
  rw [readMessage, hresponse, if_neg (by simp)] at hm'
  subst hc
  split at hm'
  · next found hderive =>
    cases hm'
    obtain ⟨hpath, hmethod, hheaders, hbody, hset⟩ := deriveRequest_eq_some hderive
    refine ⟨hvalid, readAs_markBody hvalid hheaders hbody hset, ?_, ?_⟩
    · exact (markBody_else m').1.trans hmethod
    · exact (markBody_else m').2.1.trans hpath
  · cases hm'

section

variable {v : Wire} (hv : v.Valid) (h : Replied w v rest reads)

include hv h

/-- A reply that was read. -/
theorem readAs_of_replied (hawaited : ¬ Awaited w v)
    (hloop : readLoop reads { response := true } ≠ none) :
    (v.spill true rest).Valid ∧ ∃ m, parseMessage true none none reads = .ok m ∧
      ReadAs v (v.spill true rest) m ∧ m.status = (v.spill true rest).message.status := by
  obtain ⟨front, events, hfront, hdelivered, hinterim, hends⟩ := h
  replace hends := (hends.resolve_left fun h ↦ hawaited h.1).2
  obtain ⟨hfresh, hopen⟩ :=
    foldl_interims hfront (c := { response := true }) ⟨rfl, rfl, rfl, rfl⟩ rfl
  obtain ⟨c, hc⟩ := Option.ne_none_iff_exists'.1 hloop
  obtain ⟨hvalid, hcomplete, n, hd⟩ := eq_behind_of_readLoop hv hdelivered hfresh hopen hinterim
    hends hc
  have hresponse : c.response = true := by
    rw [hd]
    exact foldl_keeps.1
  refine ⟨hvalid, markBody c.message, ?_, ?_, ?_⟩
  · rw [parseMessage, hc]
    dsimp only
    rw [if_pos hcomplete, readMessage, if_pos hresponse]
    rfl
  · rw [hd]
    exact readAs_markBody hvalid rfl rfl rfl
  · rw [hd]
    exact (markBody_else _).2.2

/-- Nothing is read while a body is awaited. -/
theorem parseMessage_awaited (hawaited : Awaited w v) :
    (parseMessage true none none reads).toOption = none := by
  obtain ⟨front, events, hfront, hdelivered, -, hends⟩ := h
  replace hends := (hends.resolve_right fun h ↦ h.1 hawaited).2
  obtain ⟨hfresh, hcomplete⟩ :=
    foldl_interims hfront (c := { response := true }) ⟨rfl, rfl, rfl, rfl⟩ rfl
  obtain ⟨n, hn⟩ := foldl_delivered hv hdelivered hfresh
  have hopen : (reads.flatten.foldl advance { response := true }).complete = false := by
    rw [hends, foldl_append, hn]
    exact hcomplete
  rw [parseMessage]
  split
  · rfl
  · next c hloop =>
    have hc : readLoop [] _ = some c := readLoop_append hopen (by rwa [append_nil])
    cases hc
    rw [if_neg (by rw [hopen]; decide)]
    rfl

end

end ClambHook.Proxy
