import ClambHook.Lib.CStringLemmas
import ClambHook.Proxy.Message

/-!
# Writing messages

What `ch_http_serialize_message` writes, and what the other side reads of it.  Hop-by-hop headers
go.  Every message with a body, also an empty one, has its `Content-Length` removed and written
again behind the other headers, with the length of the body.
-/

namespace ClambHook.Proxy

open CString List Header

/-- A header as HTTP has it, and as llhttp accepts it. -/
structure Header.Valid (h : Header) : Prop where
  nonempty : h.name ≠ []
  colon : 58 ∉ h.name
  name : 13 ∉ h.name ∧ 10 ∉ h.name
  value : 13 ∉ h.value ∧ 10 ∉ h.value

theorem Header.Valid.writable {h : Header} (hh : h.Valid) : h.writable = true := by
  simp [Header.writable, hh.nonempty, hh.name, hh.value]

def Header.hopByHop (h : Header) : Bool :=
  hopHeaders.any h.named

def Header.isLength (h : Header) : Bool :=
  h.named "Content-Length"

/-! ## What is written -/

theorem stripHopHeaders_eq (m : Message) :
    stripHopHeaders m = { m with headers := m.headers.filter (!·.hopByHop) } := by
  have hfold : ∀ (names : List String) (m : Message), names.foldl messageHeaderRemove m =
      { m with headers := m.headers.filter fun h ↦ !names.any h.named } := by
    intro names
    induction names with
    | nil => intro m; simp
    | cons name names ih =>
      intro m
      rw [foldl_cons, ih]
      simp only [messageHeaderRemove, filter_filter, any_cons, Bool.not_or]
      congr 1
      exact filter_congr fun h _ ↦ Bool.and_comm _ _
  exact hfold hopHeaders m

/-- The headers that are written for a message. -/
def writtenHeaders (headers : List Header) (framed : Bool) (length : Nat) : List Header :=
  let kept := headers.filter (!·.hopByHop)
  if framed then kept.filter (!·.isLength) ++ [⟨bytes "Content-Length", decimal length⟩] else kept

variable {m : Message}

theorem outgoingHeaders_eq (m : Message) :
    outgoingHeaders m =
      { m with headers := writtenHeaders m.headers (m.bodySet || m.body != []) m.body.length } := by
  rw [outgoingHeaders, stripHopHeaders_eq, writtenHeaders]
  dsimp only
  split <;> rfl

/-- What holds of the headers of a message and of a length holds of what is written. -/
theorem forall_mem_writtenHeaders {P : Header → Prop} {headers : List Header} {length : Nat}
    (h : ∀ h ∈ headers, P h) (hlength : P ⟨bytes "Content-Length", decimal length⟩)
    {framed : Bool} : ∀ h ∈ writtenHeaders headers framed length, P h := by
  intro header hmem
  rw [writtenHeaders] at hmem
  split at hmem
  · rw [mem_append, mem_singleton] at hmem
    rcases hmem with hmem | rfl
    · exact h header (mem_of_mem_filter (mem_of_mem_filter hmem))
    · exact hlength
  · exact h header (mem_of_mem_filter hmem)

theorem valid_contentLength (length : Nat) :
    (⟨bytes "Content-Length", decimal length⟩ : Header).Valid := by
  have hname : bytes "Content-Length" ≠ [] ∧ 58 ∉ bytes "Content-Length" ∧
      13 ∉ bytes "Content-Length" ∧ 10 ∉ bytes "Content-Length" := by decide
  exact ⟨hname.1, hname.2.1, hname.2.2, notMem_decimal (by decide) _, notMem_decimal (by decide) _⟩

/-- A message with valid headers can be written. -/
theorem serializeMessage_eq_some (h : ∀ h ∈ m.headers, h.Valid) (response : Bool) :
    serializeMessage m response = some (startLine m response ++ crlf ++
      (writtenHeaders m.headers (m.bodySet || m.body != []) m.body.length).flatMap line ++ crlf ++
        m.body) := by
  rw [serializeMessage, outgoingHeaders_eq]
  exact if_pos (all_eq_true.2
    (forall_mem_writtenHeaders (fun h' hh ↦ (h h' hh).writable) (valid_contentLength _).writable))

theorem startLine_reply (m : Message) : startLine m true =
    bytes "HTTP/1.1 " ++ (decimalInt m.status ++ 32 :: httpReason m.status) := by
  rw [startLine, if_pos rfl, append_assoc, append_assoc]
  rfl

theorem notMem_httpReason (status : Int) : 13 ∉ httpReason status ∧ 0 ∉ httpReason status := by
  have hbytes : ∀ (c : Prop) [Decidable c] (s t : String), 13 ∉ bytes s ∧ 0 ∉ bytes s →
      13 ∉ bytes t ∧ 0 ∉ bytes t → 13 ∉ bytes (if c then s else t) ∧
        0 ∉ bytes (if c then s else t) := by
    intro c _ s t hs ht
    split
    · exact hs
    · exact ht
  rw [httpReason]
  repeat' refine hbytes _ _ _ (by decide) ?_
  decide

/-! ## What is received -/

/-- A message as the other side reads it. -/
structure Received where
  line : Bytes
  headers : List Header
  body : Bytes
deriving DecidableEq, Repr

/-- The text in front of and behind the first end of a line. -/
def splitLine : Bytes → Option (Bytes × Bytes)
  | 13 :: 10 :: rest => some ([], rest)
  | c :: rest => (splitLine rest).map fun split ↦ (c :: split.1, split.2)
  | [] => none

/-- A header from its line: the name in front of the first colon, and the value behind it and one
blank. -/
def readHeader (line : Bytes) : Option Header :=
  match splitFirst 58 line with
  | some (name, 32 :: value) => some ⟨name, value⟩
  | _ => none

/-- The lines of headers up to the empty one, and what is behind it. -/
def readHeaders : Nat → Bytes → Option (List Header × Bytes)
  | 0, _ => none
  | fuel + 1, text =>
    match splitLine text with
    | none => none
    | some ([], rest) => some ([], rest)
    | some (line, rest) => do
      let h ← readHeader line
      let (hs, rest) ← readHeaders fuel rest
      return (h :: hs, rest)

/-- What the other side reads. -/
def receive (text : Bytes) : Option Received := do
  let (line, rest) ← splitLine text
  let (headers, body) ← readHeaders text.length rest
  return ⟨line, headers, body⟩

theorem splitLine_append {line : Bytes} (h : 13 ∉ line) (rest : Bytes) :
    splitLine (line ++ crlf ++ rest) = some (line, rest) := by
  induction line with
  | nil => rfl
  | cons c line ih =>
    rw [mem_cons, not_or] at h
    rw [cons_append, cons_append, splitLine, ih h.2]
    · rfl
    · intro rest' hc
      exact absurd hc.symm h.1

/-- The line of a header is one line, and it is split behind the name. -/
theorem Header.Valid.line {h : Header} (hvalid : h.Valid) :
    13 ∉ h.name ++ bytes ": " ++ h.value ∧
      splitFirst 58 (h.name ++ bytes ": " ++ h.value) = some (h.name, 32 :: h.value) := by
  constructor
  · simp only [mem_append, not_or]
    exact ⟨⟨hvalid.name.1, by decide⟩, hvalid.value.1⟩
  · refine splitFirst_eq_some_iff.2 ⟨?_, hvalid.colon⟩
    rw [append_assoc]
    rfl

variable {hs : List Header}

/-- A list of headers is read back from its lines. -/
theorem readHeaders_lines (h : ∀ h ∈ hs, h.Valid) (body : Bytes) :
    ∀ fuel, hs.length < fuel →
      readHeaders fuel (hs.flatMap line ++ crlf ++ body) = some (hs, body) := by
  induction hs with
  | nil =>
    intro fuel hfuel
    obtain ⟨fuel, rfl⟩ := Nat.exists_eq_add_of_lt hfuel
    rfl
  | cons header hs ih =>
    intro fuel hfuel
    have hvalid := h header mem_cons_self
    cases fuel with
    | zero => simp at hfuel
    | succ fuel =>
      obtain ⟨hline, hsplit⟩ := hvalid.line
      have htext : (header :: hs).flatMap line ++ crlf ++ body =
          (header.name ++ bytes ": " ++ header.value) ++ crlf ++
            (hs.flatMap line ++ crlf ++ body) := by
        simp [line]
      have hrest := ih (fun h' hh' ↦ h h' (mem_cons_of_mem header hh')) fuel
        (by simpa using hfuel)
      rw [htext, readHeaders, splitLine_append hline]
      split
      · next heq => cases heq
      · next heq =>
        -- a line with a name is not the empty one
        have hnil := congrArg Prod.fst (Option.some.inj heq)
        simp [hvalid.nonempty] at hnil
      · next heq =>
        cases heq
        rw [readHeader, hsplit, hrest]
        rfl

theorem length_le_flatMap_line (hs : List Header) : hs.length ≤ (hs.flatMap line).length := by
  induction hs with
  | nil => simp
  | cons h hs ih =>
    simp only [flatMap_cons, length_append, length_cons, line, crlf]
    omega

/-- A message is read back from its text. -/
theorem receive_text {line body : Bytes} (hline : 13 ∉ line) (h : ∀ h ∈ hs, h.Valid) :
    receive (line ++ crlf ++ hs.flatMap Header.line ++ crlf ++ body) = some ⟨line, hs, body⟩ := by
  have hassoc : line ++ crlf ++ hs.flatMap Header.line ++ crlf ++ body =
      line ++ crlf ++ (hs.flatMap Header.line ++ crlf ++ body) := by simp
  have hfuel : hs.length < (line ++ crlf ++ (hs.flatMap Header.line ++ crlf ++ body)).length := by
    have := length_le_flatMap_line hs
    simp only [length_append, crlf, length_cons]
    omega
  rw [hassoc, receive, splitLine_append hline]
  simp only [Option.bind_eq_bind, Option.bind_some]
  rw [readHeaders_lines h body _ hfuel]
  rfl

/-- What the other side reads of a message. -/
theorem receive_serializeMessage {response : Bool} {text : Bytes}
    (hline : 13 ∉ startLine m response) (hheaders : ∀ h ∈ m.headers, h.Valid)
    (h : serializeMessage m response = some text) :
    receive text = some ⟨startLine m response,
      writtenHeaders m.headers (m.bodySet || m.body != []) m.body.length, m.body⟩ := by
  rw [serializeMessage_eq_some hheaders] at h
  cases h
  exact receive_text hline (forall_mem_writtenHeaders hheaders (valid_contentLength _))

end ClambHook.Proxy
