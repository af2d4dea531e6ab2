import ClambHook.Developer.CurlWords
import ClambHook.Json.RoundTrip

/-!
# Importing an exported command

A command that was exported for a captured request should stand for that request again.

It does not by design for the headers `Host` and `Content-Length`, which the export leaves to cURL,
and for a body that is no text.  Three other things get in the way:

* The export adds lines that start with `#`, for headers that were redacted and for a body that was
  cut.  The import knows no comments, and the last word of such a line becomes the URL.
* A `GET` with a body is exported without its method, and the import takes a body for a `POST`.
* The import takes a body that starts with `@` for the name of a file, also behind `--data-raw`; and
a body is exported up to its first NUL.

A record that has none of these is `Plain`, and for it the import gives back what was captured: the
method in upper case, the URL, the other headers in their order, and the body.
-/

namespace ClambHook.Developer

open CString List Json
open Shell (within quoted endScan_within foldlM_flatMap)

/-! ## Records -/

/-- What every record has. -/
structure Entry.Sound (e : Entry) : Prop where
  method : 0 ∉ e.method
  url : 0 ∉ e.url
  scheme : ∃ c rest, e.url = c :: rest ∧ tolower c = 104
  headers : ∀ h ∈ e.requestHeaders, 58 ∉ h.name ∧ 0 ∉ h.name ∧ 0 ∉ h.value

theorem zero_notMem_storedValue (redacted : Bool) (limit : Nat) (value : Bytes) :
    0 ∉ (storedValue redacted limit value).1 := by
  rw [storedValue]
  split
  · decide
  split
  · exact zero_notMem_untilNul _
  · exact zero_notMem_untilNul _

/-- The headers that are read from a text. -/
theorem parseHeader_sound {redactHeaders : List Bytes} {limit : Nat} {line : Bytes} {h : Header}
    (hh : parseHeader redactHeaders limit line = some h) :
    58 ∉ h.name ∧ 0 ∉ h.name ∧ 0 ∉ h.value := by
  rw [parseHeader] at hh
  split at hh
  · cases hh
  · cases hh
  next front back hne hsplit =>
  cases hh
  obtain ⟨-, hcolon⟩ := splitFirst_eq_some_iff.1 hsplit
  refine ⟨fun h ↦ hcolon ?_, zero_notMem_untilNul _, zero_notMem_storedValue _ _ _⟩
  exact (List.rdropWhile_prefix isspace front).subset ((List.takeWhile_prefix _).subset h)

theorem parseHeaders_sound {redactHeaders : List Bytes} {limit : Nat} {text : Bytes} {h : Header}
    (hh : h ∈ parseHeaders redactHeaders limit text) : 58 ∉ h.name ∧ 0 ∉ h.name ∧ 0 ∉ h.value := by
  rw [parseHeaders, mem_insertionSort, mem_filterMap] at hh
  obtain ⟨line, -, hline⟩ := hh
  exact parseHeader_sound hline

theorem zero_notMem_redactQuery {names : List Bytes} {query : Bytes} (h : 0 ∉ query) :
    0 ∉ redactQuery names query := by
  intro hmem
  rw [redactQuery] at hmem
  rcases mem_intercalate hmem with h38 | ⟨part, hpart, hzero⟩
  · exact absurd h38 (by decide)
  obtain ⟨source, hsource, rfl⟩ := mem_map.1 hpart
  have hnot : 0 ∉ source := fun hc ↦ h (mem_of_mem_splitOn hsource hc)
  rw [redactPart] at hzero
  split at hzero
  · exact hnot hzero
  next name value hsplit =>
  obtain ⟨heq, -⟩ := splitFirst_eq_some_iff.1 hsplit
  split at hzero
  · rw [mem_append, mem_append] at hzero
    rcases hzero with (hz | hz) | hz
    · exact hnot (heq ▸ mem_append_left _ hz)
    · exact absurd hz (by decide)
    · exact absurd hz (by decide)
  · exact hnot hzero

theorem zero_notMem_redactUrl {url : Bytes} (h : 0 ∉ url) (names : List Bytes) :
    0 ∉ redactUrl url names := by
  rw [redactUrl]
  split
  · exact h
  next front back hsplit =>
  obtain ⟨rfl, -⟩ := splitFirst_eq_some_iff.1 hsplit
  simp only [mem_append, mem_cons, not_or] at h
  split
  · simpa using h
  split
  · simp only [mem_append, mem_singleton, not_or]
    exact ⟨⟨h.1, h.2.1⟩, zero_notMem_redactQuery h.2.2⟩
  next query fragment hfragment =>
  obtain ⟨rfl, -⟩ := splitFirst_eq_some_iff.1 hfragment
  simp only [mem_append, mem_cons, not_or] at h
  simp only [mem_append, mem_singleton, not_or]
  exact ⟨⟨⟨⟨h.1, h.2.1⟩, zero_notMem_redactQuery h.2.2.1⟩, h.2.2.2.1⟩, h.2.2.2.2⟩

/-- Redaction leaves the front of a URL as it is. -/
theorem redactUrl_cons {c : UInt8} (hc : c ≠ 63) (url : Bytes) (names : List Bytes) :
    ∃ rest, redactUrl (c :: url) names = c :: rest := by
  rw [redactUrl]
  split
  · exact ⟨url, rfl⟩
  next front back hsplit =>
  obtain ⟨heq, hnot⟩ := splitFirst_eq_some_iff.1 hsplit
  cases front with
  | nil => exact absurd (List.cons.inj heq).1 hc
  | cons d front =>
    obtain ⟨rfl, -⟩ := List.cons.inj heq
    split
    · exact ⟨url, rfl⟩
    split <;> exact ⟨_, rfl⟩

variable {m : Manager}

theorem captureBegin_sound {metadata : Metadata} (h : metadata.Valid) (now : Int) :
    (captureBegin m metadata now).entry.Sound := by
  refine ⟨h.method, zero_notMem_redactUrl h.url _, ?_, fun h hh ↦ parseHeaders_sound hh⟩
  have hhead : ∃ c rest, metadata.url = c :: rest ∧ tolower c = 104 := by
    obtain ⟨rest, h | h⟩ := h.scheme
    all_goals
      cases hurl : metadata.url with
      | nil =>
        rw [hurl] at h
        cases h
      | cons c url =>
        rw [hurl, lower_cons] at h
        exact ⟨c, url, rfl, (List.cons.inj h).1⟩
  obtain ⟨c, rest, hurl, hc⟩ := hhead
  have hne : c ≠ 63 := by
    rintro rfl
    exact absurd hc (by decide)
  obtain ⟨rest', hrest⟩ := redactUrl_cons hne rest m.settings.redactQueryParams
  refine ⟨c, rest', ?_, hc⟩
  rw [← hrest, ← hurl]
  rfl

/-- Two records of the same request. -/
structure SameAsked (d e : Entry) : Prop where
  method : e.method = d.method
  url : e.url = d.url
  headers : e.requestHeaders = d.requestHeaders

theorem SameAsked.sound {d e : Entry} (h : SameAsked d e) (hd : d.Sound) : e.Sound := by
  obtain ⟨hmethod, hurl, hheaders⟩ := h
  refine ⟨?_, ?_, ?_, ?_⟩
  · rw [hmethod]
    exact hd.method
  · rw [hurl]
    exact hd.url
  · rw [hurl]
    exact hd.scheme
  · rw [hheaders]
    exact hd.headers

/-- A piece of the reply changes only what the record says of the reply. -/
theorem response_entry (c : Capture) (text : Bytes) : ∃ status headers body message,
    (c.response text).entry = { c.entry with
      status := status, responseHeaders := headers, responseBody := body,
      errorMessage := message } := by
  rw [Capture.response]
  split
  · exact ⟨_, _, _, _, rfl⟩
  rw [Capture.responseHeaders]
  split
  · exact ⟨_, _, _, _, rfl⟩
  dsimp only
  split
  · exact ⟨_, _, _, _, rfl⟩
  rw [Entry.withStatus]
  split
  · split <;> exact ⟨_, _, _, _, rfl⟩
  · exact ⟨_, _, _, _, rfl⟩

theorem sameAsked_response (c : Capture) (text : Bytes) :
    SameAsked c.entry (c.response text).entry := by
  obtain ⟨_, _, _, _, h⟩ := response_entry c text
  rw [h]
  exact ⟨rfl, rfl, rfl⟩

/-- Everything that a manager holds is sound. -/
structure Manager.Sound (m : Manager) : Prop where
  entries : ∀ e ∈ m.entries, e.Sound
  captures : ∀ c ∈ m.captures, c.entry.Sound

theorem mem_modify_imp {α : Type} {f : α → α} {l : List α} {i : Nat} {x : α}
    (h : x ∈ l.modify i f) : x ∈ l ∨ ∃ y ∈ l, x = f y := by
  obtain ⟨j, hj⟩ := mem_iff_getElem?.1 h
  rw [getElem?_modify] at hj
  cases hy : l[j]? with
  | none => simp [hy] at hj
  | some y =>
    have hmem := mem_of_getElem? hy
    rw [hy] at hj
    split at hj
    · exact .inr ⟨y, hmem, (Option.some.inj hj).symm⟩
    · exact .inl ((Option.some.inj hj) ▸ hmem)

variable {e : Entry}

theorem Manager.Sound.add (hm : m.Sound) (he : e.Sound) :
    (m.add e).Sound := by
  rw [Manager.add]
  split
  · refine ⟨fun d hd ↦ ?_, hm.captures⟩
    rcases mem_cons.1 hd with rfl | hd
    · exact he
    · exact hm.entries d (mem_of_mem_take hd)
  · exact hm

theorem Manager.Sound.step (hm : m.Sound) {s : Step} (hs : s.Valid) :
    (m.step s).Sound := by
  have hmodify : ∀ {place : Nat} {f : Capture → Capture},
      (∀ c, SameAsked c.entry (f c).entry) →
      ∀ c ∈ m.captures.modify place f, c.entry.Sound := by
    intro place f hf c hc
    rcases mem_modify_imp hc with hc | ⟨d, hd, rfl⟩
    · exact hm.captures c hc
    · exact (hf d).sound (hm.captures d hd)
  cases s with
  | configure settings =>
    refine ⟨fun e he ↦ ?_, hm.captures⟩
    rw [Manager.step, Manager.configure] at he
    dsimp only at he
    split at he
    · exact hm.entries e (mem_of_mem_take he)
    · cases he
  | begin metadata now =>
    rw [Manager.step]
    split
    · refine ⟨hm.entries, fun c hc ↦ ?_⟩
      rcases mem_append.1 hc with hc | hc
      · exact hm.captures c hc
      · rw [mem_singleton.1 hc]
        exact captureBegin_sound hs now
    · exact hm
  | requestBody place text => exact ⟨hm.entries, hmodify fun c ↦ ⟨rfl, rfl, rfl⟩⟩
  | response place text => exact ⟨hm.entries, hmodify fun c ↦ sameAsked_response c text⟩
  | finish place message now =>
    rw [Manager.step]
    split
    · exact hm
    next c hc =>
    have hrest : ({ m with captures := m.captures.eraseIdx place } : Manager).Sound :=
      ⟨hm.entries, fun d hd ↦ hm.captures d (mem_of_mem_eraseIdx hd)⟩
    have hsame : SameAsked c.entry (c.finish message now) := ⟨rfl, rfl, rfl⟩
    exact hrest.add (hsame.sound (hm.captures c (mem_of_getElem? hc)))
  | clear => exact ⟨fun e he ↦ absurd he not_mem_nil, hm.captures⟩

/-- Every record of a run is sound. -/
theorem Reachable.sound (h : Reachable m) : m.Sound := by
  induction h with
  | init settings =>
    exact ⟨fun e he ↦ absurd he not_mem_nil, fun c hc ↦ absurd hc not_mem_nil⟩
  | step h hs ih => exact ih.step hs

/-! ## Arguments -/

/-- An argument of a command, in quotes or as it is. -/
inductive Argument where
  | word (text : Bytes)
  | quoted (text : Bytes)

def Argument.text : Argument → Bytes
  | .word text => text
  | .quoted text => text

def Argument.render : Argument → Bytes
  | .word text => text
  | .quoted text => shellQuote text

/-- A character that means itself outside of quotes. -/
def ordinary (c : UInt8) : Bool :=
  c != 39 && c != 34 && c != 92 && !isspace c

/-- The argument can be read back. -/
def Argument.Readable : Argument → Prop
  | .word text => text ≠ [] ∧ ∀ c ∈ text, ordinary c = true
  | .quoted text => 0 ∉ text

section

variable (tokens : List Bytes) (current : Bytes)

theorem scanStep_ordinary {c : UInt8} (hc : ordinary c = true) (hasToken : Bool) :
    scanStep (within tokens current hasToken) c = .ok (within tokens (current ++ [c]) true) := by
  simp only [ordinary, Bool.and_eq_true, bne_iff_ne, Bool.not_eq_true'] at hc
  obtain ⟨⟨⟨h₁, h₂⟩, h₃⟩, h₄⟩ := hc
  simp [scanStep, within, h₁, h₂, h₃, h₄, Scan.push]

theorem foldlM_word {text : Bytes} (htext : ∀ c ∈ text, ordinary c = true) (hasToken : Bool) :
    text.foldlM scanStep (within tokens current hasToken) =
      .ok (within tokens (current ++ text) (hasToken || !text.isEmpty)) := by
  induction text generalizing current hasToken with
  | nil => simp [within, pure, Except.pure]
  | cons c text ih =>
    rw [foldlM_cons, scanStep_ordinary _ _ (htext c mem_cons_self), ok_bind,
      ih _ fun d hd ↦ htext d (mem_cons_of_mem c hd)]
    simp

/-- A quotation mark is closed, written behind a backslash and opened again. -/
theorem foldlM_quoted (text : Bytes) :
    (text.flatMap fun c ↦ if c = 39 then bytes "'\\''" else [c]).foldlM scanStep
        (quoted .single tokens current) = .ok (quoted .single tokens (current ++ text)) := by
  have hchars := @foldlM_flatMap _ (fun c ↦ if c = 39 then bytes "'\\''" else [c]) (fun c ↦ [c])
    (quoted .single tokens) text (fun c _ current ↦ ?_) current
  · simpa using hchars
  split
  · next hc =>
    subst hc
    rfl
  · next hc => simp [scanStep, quoted, hc, Scan.push, bind, Except.bind, pure, Except.pure]

theorem foldlM_shellQuote {text : Bytes} (htext : 0 ∉ text) (hasToken : Bool) :
    (shellQuote text).foldlM scanStep (within tokens current hasToken) =
      .ok (within tokens (current ++ text) true) := by
  rw [shellQuote, untilNul_eq_self htext, foldlM_append, foldlM_append]
  have hopen : [39].foldlM scanStep (within tokens current hasToken) =
      .ok (quoted .single tokens current) := rfl
  rw [hopen, ok_bind, foldlM_quoted, ok_bind]
  rfl

end

variable {a : Argument}

theorem foldlM_render (ha : a.Readable) (tokens : List Bytes) :
    a.render.foldlM scanStep (within tokens [] false) = .ok (within tokens a.text true) := by
  cases a with
  | word text =>
    have hnonempty : text.isEmpty = false := isEmpty_eq_false_iff.2 ha.1
    rw [Argument.render, foldlM_word _ _ ha.2, hnonempty]
    rfl
  | quoted text => exact foldlM_shellQuote tokens [] ha false

/-- Arguments with a blank in front of each. -/
def spaced (arguments : List Argument) : Bytes :=
  arguments.flatMap fun a ↦ 32 :: a.render

/-- The arguments behind one that is being read. -/
theorem foldlM_spaced {arguments : List Argument} (h : ∀ a ∈ arguments, a.Readable)
    (tokens : List Bytes) (current : Bytes) :
    ((spaced arguments).foldlM scanStep (within tokens current true) >>= endScan) =
      if tokens.length + 1 + arguments.length ≤ maxTokens then
        .ok (tokens ++ current :: arguments.map Argument.text)
      else .error tooManyArguments := by
  induction arguments generalizing tokens current with
  | nil =>
    refine (endScan_within tokens current).trans ?_
    by_cases hfull : maxTokens ≤ tokens.length
    · rw [if_pos hfull, if_neg (by simp; omega)]
    · rw [if_neg hfull, if_pos (by simp; omega)]
      rfl
  | cons a arguments ih =>
    have hstep : scanStep (within tokens current true) 32 =
        if maxTokens ≤ tokens.length then .error tooManyArguments
        else .ok (within (tokens ++ [current]) [] false) := rfl
    rw [spaced, flatMap_cons, cons_append, foldlM_cons, hstep]
    by_cases hfull : maxTokens ≤ tokens.length
    · rw [if_pos hfull, if_neg (by simp; omega)]
      rfl
    have hrest := ih (fun b hb ↦ h b (mem_cons_of_mem a hb)) (tokens ++ [current]) a.text
    rw [spaced] at hrest
    rw [if_neg hfull, ok_bind, foldlM_append, foldlM_render (h a mem_cons_self), ok_bind,
      hrest]
    have hcount : (tokens ++ [current]).length + 1 + arguments.length =
        tokens.length + 1 + (a :: arguments).length := by simp; omega
    rw [hcount]
    simp

/-- The arguments of a command are read back. -/
theorem curlTokenize_arguments {arguments : List Argument}
    (h : ∀ b ∈ a :: arguments, b.Readable) :
    curlTokenize (a.render ++ spaced arguments) =
      if maxCommandBytes < (a.render ++ spaced arguments).length then .error commandTooLong
      else if (a :: arguments).length ≤ maxTokens then .ok ((a :: arguments).map Argument.text)
      else .error tooManyArguments := by
  rw [curlTokenize]
  split
  · rfl
  have hscan : ((a.render ++ spaced arguments).foldlM scanStep {} >>= endScan) =
      ((spaced arguments).foldlM scanStep (within [] a.text true) >>= endScan) := by
    rw [foldlM_append]
    have hfirst : a.render.foldlM scanStep {} = .ok (within [] a.text true) :=
      foldlM_render (h a mem_cons_self) []
    rw [hfirst]
    rfl
  refine hscan.trans ?_
  rw [foldlM_spaced fun b hb ↦ h b (mem_cons_of_mem a hb)]
  have hcount : ([] : List Bytes).length + 1 + arguments.length = (a :: arguments).length := by
    simp; omega
  rw [hcount]
  rfl

/-! ## The command of a record -/

/-- The headers that a command has. -/
def Entry.exported (e : Entry) : List Header :=
  e.requestHeaders.filter fun h ↦ !h.redacted && !h.implied

/-- The arguments behind the name of the program. -/
def Entry.arguments (e : Entry) : List Argument :=
  (if strcaseeq e.method (bytes "GET") then [] else [.word (bytes "-X"), .quoted e.method]) ++
    e.exported.flatMap (fun h ↦ [.word (bytes "-H"), .quoted (h.name ++ bytes ": " ++ h.value)]) ++
    (if e.requestBody.isText then [.word (bytes "--data-raw"), .quoted e.requestBody.preview]
      else []) ++
    [.quoted e.url]

/-- A record whose command has no comments and none of the bodies that the import mistakes. -/
structure Entry.Plain (e : Entry) : Prop where
  redacted : ∀ h ∈ e.requestHeaders, h.redacted = false
  cut : e.requestBody.cut = false
  method : e.requestBody.isText = true → strcaseeq e.method (bytes "GET") = false
  file : e.requestBody.isText = true → e.requestBody.preview.head? ≠ some 64
  nul : e.requestBody.isText = true → 0 ∉ e.requestBody.preview

theorem spaced_append (a b : List Argument) : spaced (a ++ b) = spaced a ++ spaced b :=
  flatMap_append

theorem flatMap_headerOption (headers : List Header) :
    headers.flatMap headerOption =
      spaced ((headers.filter fun h ↦ !h.redacted && !h.implied).flatMap fun h ↦
        [.word (bytes "-H"), .quoted (h.name ++ bytes ": " ++ h.value)]) := by
  induction headers with
  | nil => rfl
  | cons h headers ih =>
    rw [flatMap_cons, ih, headerOption, filter_cons, ← Bool.not_or]
    cases h.redacted || h.implied with
    | true => rfl
    | false =>
      rw [if_neg (by decide), if_pos (by decide), flatMap_cons, spaced_append]
      congr 1
      simp [spaced, Argument.render, bytes]

/-- A command without comments is its arguments with a blank between each two. -/
theorem curlCommand_eq (h : e.Plain) :
    curlCommand e = (Argument.word (bytes "curl")).render ++ spaced e.arguments := by
  have hnone : (e.requestHeaders.filter (·.redacted)).map Header.name = [] := by
    rw [map_eq_nil_iff, filter_eq_nil_iff]
    intro header hheader
    simp [h.redacted header hheader]
  have hmethod : (if strcaseeq e.method (bytes "GET") then []
      else bytes " -X " ++ shellQuote e.method) =
      spaced (if strcaseeq e.method (bytes "GET") then []
        else [.word (bytes "-X"), .quoted e.method]) := by
    split
    · rfl
    · simp [spaced, Argument.render, bytes]
  have hbody : (if e.requestBody.isText then
        bytes " --data-raw " ++ shellQuote e.requestBody.preview else []) =
      spaced (if e.requestBody.isText then
        [.word (bytes "--data-raw"), .quoted e.requestBody.preview] else []) := by
    split
    · simp [spaced, Argument.render, bytes]
    · rfl
  have hurl : bytes " " ++ shellQuote e.url = spaced [.quoted e.url] := by
    simp [spaced, Argument.render, bytes]
  rw [curlCommand, hnone, h.cut, if_pos rfl, hmethod, flatMap_headerOption, hbody, append_nil,
    if_neg Bool.false_ne_true, append_nil, append_assoc, hurl, Entry.arguments,
    spaced_append, spaced_append, spaced_append, Entry.exported]
  simp only [append_assoc]
  rfl

/-- The words of a command are options, and everything else is in quotes. -/
theorem mem_arguments (ha : a ∈ e.arguments) :
    (∃ option ∈ ["-X", "-H", "--data-raw"], a = .word (bytes option)) ∨ ∃ text, a = .quoted text ∧
      (text = e.method ∨ (∃ h ∈ e.requestHeaders, text = h.name ++ bytes ": " ++ h.value) ∨
        e.requestBody.isText = true ∧ text = e.requestBody.preview ∨ text = e.url) := by
  simp only [Entry.arguments, mem_append, mem_ite_nil_left, mem_ite_nil_right, mem_flatMap,
    mem_cons, not_mem_nil, or_false] at ha
  rcases ha with ((⟨-, rfl | rfl⟩ | ⟨header, hheader, rfl | rfl⟩) | ⟨htext, rfl | rfl⟩) | rfl
  · exact .inl ⟨"-X", by decide, rfl⟩
  · exact .inr ⟨_, rfl, .inl rfl⟩
  · exact .inl ⟨"-H", by decide, rfl⟩
  · exact .inr ⟨_, rfl, .inr (.inl ⟨header, mem_of_mem_filter hheader, rfl⟩)⟩
  · exact .inl ⟨"--data-raw", by decide, rfl⟩
  · exact .inr ⟨_, rfl, .inr (.inr (.inl ⟨htext, rfl⟩))⟩
  · exact .inr ⟨_, rfl, .inr (.inr (.inr rfl))⟩

theorem readable_arguments (hsound : e.Sound) (h : e.Plain) :
    ∀ a ∈ Argument.word (bytes "curl") :: e.arguments, a.Readable := by
  have hwords : ∀ option ∈ ["curl", "-X", "-H", "--data-raw"],
      bytes option ≠ [] ∧ ∀ c ∈ bytes option, ordinary c = true := by
    simp only [← all_eq_true]
    decide
  intro a ha
  rcases mem_cons.1 ha with rfl | ha
  · exact hwords "curl" mem_cons_self
  rcases mem_arguments ha with ⟨option, hoption, rfl⟩ | ⟨text, rfl, htext⟩
  · exact hwords option (mem_cons_of_mem _ hoption)
  rcases htext with rfl | ⟨header, hheader, rfl⟩ | ⟨htext, rfl⟩ | rfl
  · exact hsound.method
  · obtain ⟨-, hname, hvalue⟩ := hsound.headers header hheader
    rw [Argument.Readable]
    simp only [mem_append, not_or]
    exact ⟨⟨hname, by decide⟩, hvalue⟩
  · exact h.nul htext
  · exact hsound.url

/-! ## The request of a command -/

/-- The request that the import reads for a record. -/
def Entry.request (e : Entry) : Request where
  method := upper (trim e.method)
  methodSet := !strcaseeq e.method (bytes "GET")
  url := some e.url
  headers := e.exported.map fun h ↦ (trim h.name, trim h.value)
  body := if e.requestBody.isText then e.requestBody.preview else []
  dataCount := if e.requestBody.isText then 1 else 0

theorem importTokens_method (value : Bytes) (rest : List Bytes) (r : Request) :
    importTokens (bytes "-X" :: value :: rest) r =
      importTokens rest { r with method := upper (trim value), methodSet := true } := by
  rw [importTokens, if_pos (by decide)]

theorem importTokens_header (value : Bytes) (rest : List Bytes) (r : Request) :
    importTokens (bytes "-H" :: value :: rest) r = importTokens rest (r.addHeader value) := by
  rw [importTokens, if_neg (by decide), if_pos (by decide)]

theorem importTokens_data {value : Bytes} (hvalue : value.head? ≠ some 64) (rest : List Bytes)
    (r : Request) :
    importTokens (bytes "--data-raw" :: value :: rest) r = importTokens rest (r.addData value) := by
  rw [importTokens, if_neg (by decide), if_neg (by decide), if_pos (by decide)]
  exact if_neg hvalue

theorem isFlag_eq_false {token : Bytes} (htoken : token.head? ≠ some 45) (flags : List String)
    (hflags : (flags.all fun flag ↦ (bytes flag).head? == some 45) = true) :
    isFlag flags token = false := by
  rw [isFlag, any_eq_false]
  intro flag hflag heq
  rw [beq_iff_eq] at heq
  have hhead := all_eq_true.1 hflags flag hflag
  rw [beq_iff_eq, ← heq] at hhead
  exact htoken hhead

theorem importTokens_url {token : Bytes} (htoken : token.head? ≠ some 45) (rest : List Bytes)
    (r : Request) :
    importTokens (token :: rest) r = importTokens rest { r with url := some token } := by
  have hurl : token ≠ bytes "--url" := by
    rintro rfl
    exact htoken rfl
  have hdash : ¬ (isFlag booleanFlags token || token.head? == some 45) = true := by
    rw [isFlag_eq_false htoken _ (by decide), Bool.false_or, beq_iff_eq]
    exact htoken
  rw [importTokens.eq_def]
  simp only [isFlag_eq_false htoken ["-X", "--request"] (by decide),
    isFlag_eq_false htoken ["-H", "--header"] (by decide),
    isFlag_eq_false htoken dataFlags (by decide),
    isFlag_eq_false htoken ["-A", "--user-agent", "-e", "--referer"] (by decide),
    isFlag_eq_false htoken ignoredValueFlags (by decide),
    Bool.false_eq_true, if_false, if_neg hurl, if_neg hdash]

/-- A header is read back without the blanks around its name and its value. -/
theorem addHeader_eq {name : Bytes} (hname : 58 ∉ name) (value : Bytes) (r : Request) :
    r.addHeader (name ++ bytes ": " ++ value) =
      { r with headers := r.headers ++ [(trim name, trim value)] } := by
  have hsplit : splitFirst 58 (name ++ bytes ": " ++ value) = some (name, 32 :: value) := by
    rw [splitFirst_eq_some_iff]
    exact ⟨by simp [bytes], hname⟩
  rw [Request.addHeader, hsplit, Option.getD_some]
  dsimp only
  rw [trim_cons_of_isspace (by decide)]

theorem importTokens_headers {headers : List Header} (h : ∀ h ∈ headers, 58 ∉ h.name)
    (rest : List Bytes) (r : Request) :
    importTokens
        ((headers.flatMap fun h ↦ [bytes "-H", h.name ++ bytes ": " ++ h.value]) ++ rest) r =
      importTokens rest
        { r with headers := r.headers ++ headers.map fun h ↦ (trim h.name, trim h.value) } := by
  induction headers generalizing r with
  | nil => simp
  | cons header headers ih =>
    rw [flatMap_cons, append_assoc, cons_append, cons_append, nil_append,
      importTokens_header, addHeader_eq (h header mem_cons_self),
      ih fun h' hh ↦ h h' (mem_cons_of_mem header hh)]
    simp

theorem upper_trim_of_get {method : Bytes} (h : strcaseeq method (bytes "GET") = true) :
    upper (trim method) = bytes "GET" := by
  rw [strcaseeq, beq_iff_eq] at h
  have htrim : lower (trim method) = lower (bytes "GET") := by
    rw [← trim_lower, h]
    exact trim_eq_self (by decide)
  rw [← upper_lower, htrim]
  decide

theorem map_text_arguments (e : Entry) :
    e.arguments.map Argument.text =
      (if strcaseeq e.method (bytes "GET") then [] else [bytes "-X", e.method]) ++
        ((e.exported.flatMap fun h ↦ [bytes "-H", h.name ++ bytes ": " ++ h.value]) ++
          ((if e.requestBody.isText then [bytes "--data-raw", e.requestBody.preview] else []) ++
            [e.url])) := by
  rw [Entry.arguments, map_append, map_append, map_append, append_assoc,
    append_assoc, map_flatMap]
  congr 1
  · split <;> rfl
  · congr 2
    split <;> rfl

theorem importTokens_arguments (hsound : e.Sound) (h : e.Plain) :
    importTokens (e.arguments.map Argument.text) {} = .ok e.request := by
  have hcolon : ∀ h ∈ e.exported, 58 ∉ h.name := fun h hh ↦
    (hsound.headers h (mem_of_mem_filter hh)).1
  obtain ⟨c, rest, hurl, hc⟩ := hsound.scheme
  have hdash : e.url.head? ≠ some 45 := by
    rw [hurl, head?_cons]
    rintro heq
    cases heq
    exact absurd hc (by decide)
  rw [map_text_arguments]
  cases hget : strcaseeq e.method (bytes "GET") with
  | true =>
    have hbody : e.requestBody.isText = false := by
      by_contra htext
      rw [Bool.not_eq_false] at htext
      exact absurd (hget.symm.trans (h.method htext)) (by decide)
    rw [if_pos rfl, nil_append, importTokens_headers hcolon, hbody, if_neg Bool.false_ne_true,
      nil_append, importTokens_url hdash]
    rw [importTokens, Entry.request, hbody, hget, upper_trim_of_get hget]
    rfl
  | false =>
    rw [if_neg Bool.false_ne_true, cons_append, cons_append, nil_append,
      importTokens_method, importTokens_headers hcolon]
    cases hbody : e.requestBody.isText with
    | true =>
      rw [if_pos rfl, cons_append, cons_append, nil_append,
        importTokens_data (h.file hbody), importTokens_url hdash]
      rw [importTokens, Entry.request, hbody, hget]
      rfl
    | false =>
      rw [if_neg Bool.false_ne_true, nil_append, importTokens_url hdash]
      rw [importTokens, Entry.request, hbody, hget]
      rfl

/-- What the import says to a command of some length and number of arguments. -/
def limited {α : Type} (e : Entry) (result : α) : Except Error α :=
  if maxCommandBytes < (curlCommand e).length then .error commandTooLong
  else if e.arguments.length < maxTokens then .ok result
  else .error tooManyArguments

theorem trim_curlCommand (h : e.Plain) : trim (curlCommand e) = curlCommand e := by
  have hfirst : (curlCommand e).head? = some 99 := by
    rw [curlCommand_eq h]
    rfl
  have hlast : (curlCommand e).getLast? = some 39 := by
    have hend : ∃ front, curlCommand e = front ++ [39] := by
      refine ⟨bytes "curl" ++ spaced (e.arguments.dropLast) ++ [32, 39] ++
        (untilNul e.url).flatMap (fun c ↦ if c = 39 then bytes "'\\''" else [c]), ?_⟩
      have harguments : e.arguments = e.arguments.dropLast ++ [.quoted e.url] := by
        simp [Entry.arguments]
      rw [curlCommand_eq h, harguments, spaced_append]
      simp [spaced, Argument.render, shellQuote]
    obtain ⟨front, hfront⟩ := hend
    rw [hfront, getLast?_concat]
  exact trim_eq_self (trimmed_of_ends hfirst (by decide) hlast (by decide))

/-- The import of the command for a record. -/
theorem importCommand_curlCommand (hsound : e.Sound) (h : e.Plain) :
    importCommand (curlCommand e) = limited e e.request := by
  have htokens := curlTokenize_arguments (readable_arguments hsound h)
  rw [← curlCommand_eq h] at htokens
  rw [importCommand, trim_curlCommand h, htokens, limited]
  split
  · rfl
  by_cases hfits : e.arguments.length < maxTokens
  · rw [if_pos (show (Argument.word (bytes "curl") :: e.arguments).length ≤ maxTokens from hfits),
      if_pos hfits]
    have hprogram : dropProgram ((Argument.word (bytes "curl") :: e.arguments).map Argument.text) =
        e.arguments.map Argument.text := rfl
    rw [ok_bind, hprogram, importTokens_arguments hsound h, ok_bind]
    obtain ⟨c, rest, hurl, -⟩ := hsound.scheme
    refine if_neg ?_
    rw [Entry.request, Option.getD_some, hurl]
    exact cons_ne_nil c rest
  · rw [if_neg (show ¬ (Argument.word (bytes "curl") :: e.arguments).length ≤ maxTokens from hfits),
      if_neg hfits]
    rfl

/-! ## Both ways -/

/-- A request as a client reads it. -/
def Request.json (r : Request) : Json :=
  .object [(bytes "method", .string r.method), (bytes "url", .string (r.url.getD [])),
    (bytes "headers", .array (r.headers.map fun h ↦
      .object [(bytes "name", .string h.1), (bytes "value", .string h.2)])),
    (bytes "body", .string r.body)]

theorem curlEncode_eq (r : Request) : curlEncode r = appendValue r.json := by
  have hkeys : appendString (bytes "method") = bytes "\"method\"" ∧
      appendString (bytes "url") = bytes "\"url\"" ∧
      appendString (bytes "headers") = bytes "\"headers\"" ∧
      appendString (bytes "body") = bytes "\"body\"" ∧
      appendString (bytes "name") = bytes "\"name\"" ∧
      appendString (bytes "value") = bytes "\"value\"" := by decide
  obtain ⟨h₁, h₂, h₃, h₄, h₅, h₆⟩ := hkeys
  simp only [curlEncode, Request.json, appendValue, appendMembers,
    appendItems_eq_intercalate, h₁, h₂, h₃, h₄, map_map, Function.comp_def, h₅, h₆]
  simp [bytes]

theorem writable_json {r : Request} (hmethod : 0 ∉ r.method) (hurl : 0 ∉ r.url.getD [])
    (hheaders : ∀ h ∈ r.headers, 0 ∉ h.1 ∧ 0 ∉ h.2) (hbody : 0 ∉ r.body) : Writable 4 r.json := by
  refine .object ?_
  simp only [forall_mem_cons, not_mem_nil, IsEmpty.forall_iff, implies_true, and_true]
  refine ⟨⟨by decide, .string hmethod⟩, ⟨by decide, .string hurl⟩,
    ⟨by decide, .array ?_⟩, by decide, .string hbody⟩
  intro item hitem
  obtain ⟨h, hh, rfl⟩ := mem_map.1 hitem
  refine .object ?_
  simp only [forall_mem_cons, not_mem_nil, IsEmpty.forall_iff, implies_true, and_true]
  exact ⟨⟨by decide, .string (hheaders h hh).1⟩, by decide, .string (hheaders h hh).2⟩

/-- The client reads the request of a record. -/
theorem parse_curlEncode (hsound : e.Sound) (h : e.Plain) :
    parse (curlEncode e.request) = .ok e.request.json := by
  have htrim : ∀ {s : Bytes}, 0 ∉ s → 0 ∉ trim s := fun hs hc ↦ hs ((trim_infix_self _).subset hc)
  have hupper : ∀ {s : Bytes}, 0 ∉ s → 0 ∉ upper s := by
    intro s hs hc
    obtain ⟨c, hc, hzero⟩ := mem_map.1 hc
    have hchar : c = 0 := by
      simp only [toupper] at hzero
      grind
    exact hs (hchar ▸ hc)
  rw [curlEncode_eq]
  refine (writable_json ?_ ?_ ?_ ?_).parse (by decide)
  · exact hupper (htrim hsound.method)
  · exact hsound.url
  · intro pair hpair
    obtain ⟨header, hheader, rfl⟩ := mem_map.1 hpair
    obtain ⟨-, hname, hvalue⟩ := hsound.headers header (mem_of_mem_filter hheader)
    exact ⟨htrim hname, htrim hvalue⟩
  · rw [Entry.request]
    dsimp only
    split
    · next htext => exact h.nul htext
    · exact not_mem_nil

theorem zero_notMem_shellQuote (text : Bytes) : 0 ∉ shellQuote text := by
  rw [shellQuote, mem_append, mem_append, not_or, not_or]
  refine ⟨⟨by decide, fun h ↦ ?_⟩, by decide⟩
  obtain ⟨c, hc, hzero⟩ := mem_flatMap.1 h
  split at hzero
  · exact absurd hzero (by decide)
  · rw [mem_singleton] at hzero
    exact zero_notMem_untilNul text (hzero ▸ hc)

theorem zero_notMem_curlCommand (h : e.Plain) : 0 ∉ curlCommand e := by
  have hwords : ∀ option ∈ ["-X", "-H", "--data-raw"], 0 ∉ bytes option := by decide
  rw [curlCommand_eq h, mem_append, not_or]
  refine ⟨by decide, fun hmem ↦ ?_⟩
  obtain ⟨a, ha, hzero⟩ := mem_flatMap.1 hmem
  rcases mem_cons.1 hzero with hzero | hzero
  · exact absurd hzero (by decide)
  rcases mem_arguments ha with ⟨option, hoption, rfl⟩ | ⟨text, rfl, -⟩
  · exact hwords option hoption hzero
  · exact zero_notMem_shellQuote text hzero

theorem curlImportJson_curlCommand (hsound : e.Sound) (h : e.Plain) :
    curlImportJson (bytes "\x7b\"curl\":" ++ appendString (curlCommand e) ++ bytes "\x7d") =
      limited e (curlEncode e.request) := by
  have hzero := zero_notMem_curlCommand h
  have hwritable : Writable 2 (.object [(bytes "curl", .string (curlCommand e))]) := by
    refine .object fun m hm ↦ ?_
    rw [mem_singleton.1 hm]
    exact ⟨show 0 ∉ bytes "curl" by decide, .string hzero⟩
  have htext : bytes "\x7b\"curl\":" ++ appendString (curlCommand e) ++ bytes "\x7d" =
      appendValue (.object [(bytes "curl", .string (curlCommand e))]) := by
    have hkey : appendString (bytes "curl") = bytes "\"curl\"" := by decide
    simp only [appendValue, appendMembers, hkey]
    simp [bytes]
  have hget : stringValue (objectGet
      (some (.object [(bytes "curl", .string (curlCommand e))])) (bytes "curl")) =
      some (curlCommand e) := by
    simp [objectGet, stringValue]
  rw [curlImportJson, htext, hwritable.parse (by decide), ok_bind, hget]
  dsimp only
  rw [importCommand_curlCommand hsound h, limited, limited]
  split
  · rfl
  split
  · rfl
  · rfl

/-- **The import of an export** of a plain record is what was captured, unless the command exceeds
the limits of the import. -/
theorem curlImportJson_entryCurlJson {m : Manager} (hm : Reachable m) {identifier text : Bytes}
    (hexport : entryCurlJson m identifier = .ok text) {e : Entry}
    (he : m.findEntry identifier = some e) (hplain : e.Plain) :
    curlImportJson text = limited e (curlEncode e.request) ∧
      parse (curlEncode e.request) = .ok e.request.json := by
  have hsound : e.Sound := hm.sound.entries e (mem_of_find?_eq_some he)
  rw [entryCurlJson, he] at hexport
  split at hexport
  · cases hexport
  · cases hexport
    exact ⟨curlImportJson_curlCommand hsound hplain, parse_curlEncode hsound hplain⟩

/-! ### Two records -/

def captureSettings : Settings where
  enabled := true
  captureLimit := 500
  bodyLimit := 65536
  headerValueLimit := 4096
  redactHeaders := [bytes "authorization", bytes "cookie"]
  redactQueryParams := [bytes "token"]

def postNote : Metadata where
  flowId := 7
  profile := some (bytes "home")
  clientAddress := some (bytes "127.0.0.1:50000")
  chainName := some (bytes "direct")
  method := bytes "POST"
  url := bytes "http://example.org/notes?token=abc"
  scheme := some (bytes "http")
  host := some (bytes "example.org")
  requestHeaders := bytes "Accept: text/plain\r\nHost: example.org\r\n"

/-- The manager behind the capture of a note that is posted. -/
def noteCaptured : Manager :=
  ((({ settings := captureSettings } : Manager).step (.begin postNote 1)).step
    (.requestBody 0 (bytes "it's")) |>.step (.finish 0 none 2))

theorem reachable_noteCaptured : Reachable noteCaptured := by
  have hvalid : postNote.Valid := by
    have hzero : 0 ∉ postNote.method ∧ 0 ∉ postNote.url := by decide
    exact ⟨hzero.1, hzero.2, bytes "example.org/notes?token=abc", .inl (by decide)⟩
  exact (((Reachable.init captureSettings).step (s := .begin postNote 1) hvalid).step
    (s := .requestBody 0 (bytes "it's")) trivial).step (s := .finish 0 none 2) trivial

def noteEntry : Entry where
  identifier := bytes "dev-1"
  connectionIdentifier := bytes "conn-7"
  profile := bytes "home"
  clientAddress := bytes "127.0.0.1:50000"
  chainName := bytes "direct"
  startedNs := 1
  finishedNs := 2
  method := bytes "POST"
  url := bytes "http://example.org/notes?token=%5Bredacted%5D"
  scheme := bytes "http"
  host := bytes "example.org"
  requestHeaders := [
    { name := bytes "Accept", value := bytes "text/plain" },
    { name := bytes "Host", value := bytes "example.org" }]
  requestBody := { limit := 65536, initialized := true, size := 4, preview := bytes "it's" }
  errorMessage := some closedEarly

theorem findEntry_noteCaptured : noteCaptured.findEntry (bytes "dev-1") = some noteEntry := by
  decide

theorem plain_noteEntry : noteEntry.Plain :=
  ⟨by decide, by decide, by decide, by decide, by decide⟩

theorem limited_noteEntry {α : Type} (result : α) : limited noteEntry result = .ok result := by
  rw [limited, if_neg (by decide), if_pos (by decide)]

/-- The note is imported as it was captured, without its `Host`. -/
theorem curlImportJson_noteCaptured :
    ∃ text out, entryCurlJson noteCaptured (bytes "dev-1") = .ok text ∧
      curlImportJson text = .ok out ∧
      parse out = .ok (Request.json {
        method := bytes "POST"
        url := some (bytes "http://example.org/notes?token=%5Bredacted%5D")
        headers := [(bytes "Accept", bytes "text/plain")]
        body := bytes "it's" }) := by
  obtain ⟨himport, hparse⟩ := curlImportJson_entryCurlJson reachable_noteCaptured rfl
    findEntry_noteCaptured plain_noteEntry
  rw [limited_noteEntry] at himport
  exact ⟨_, _, rfl, himport, hparse⟩

/-- The request of a record, with all of its headers that are not redacted. -/
def Entry.captured (e : Entry) : Request where
  method := e.method
  url := some e.url
  headers := (e.requestHeaders.filter (!·.redacted)).map fun h ↦ (h.name, h.value)
  body := e.requestBody.preview

/-- The note is imported without its `Host`. -/
theorem noteCaptured_loses_host :
    Reachable noteCaptured ∧ noteCaptured.findEntry (bytes "dev-1") = some noteEntry ∧
      ∃ text out, entryCurlJson noteCaptured (bytes "dev-1") = .ok text ∧
        curlImportJson text = .ok out ∧ parse out ≠ .ok noteEntry.captured.json := by
  have hsound := reachable_noteCaptured.sound.entries noteEntry
    (mem_of_find?_eq_some findEntry_noteCaptured)
  refine ⟨reachable_noteCaptured, findEntry_noteCaptured, _, curlEncode noteEntry.request, rfl, ?_,
    ?_⟩
  · exact (curlImportJson_curlCommand hsound plain_noteEntry).trans (limited_noteEntry _)
  rw [parse_curlEncode hsound plain_noteEntry]
  intro h
  have hcount := congrArg (fun j ↦ (items (objectGet (some j) (bytes "headers"))).length)
    (Except.ok.inj h)
  exact absurd hcount (by decide)

end ClambHook.Developer
