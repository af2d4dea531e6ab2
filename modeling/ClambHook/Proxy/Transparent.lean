import ClambHook.Proxy.Reading

/-!
# Transparent proxying

A message that no tool touches should reach the other side as it was sent: with its method and path
or its status, its end-to-end headers in their order, and its body.  Hop-by-hop headers go, and a
body without a `Content-Length` of its own gets one.

It does so only if the proxy's way of framing leaves nothing to see.  Every message with a
`Content-Length` has that header removed and written again behind the others, with the length of the
body that was read.  So the header changes its place unless it was the last one, and a reply that
announces the length of a body which it does not carry, as a reply with status 304 may, arrives with
length zero.  And nothing may be added to the message by what is behind its body, or be awaited that
does not come.
-/

namespace ClambHook.Proxy

open CString List Header

/-! ## What is wanted -/

/-- A header up to the case of its name. -/
def Header.key (h : Header) : Bytes × Bytes :=
  (lower h.name, h.value)

/-- The message has no length of its own for its body: the body is chunked, or it ends with the
connection. -/
def Wire.Unsized (w : Wire) : Prop :=
  (∃ h ∈ w.headers, h.named "Transfer-Encoding") ∨ (w.body ≠ [] ∧ ∀ h ∈ w.headers, ¬ h.isLength)

def Wire.endToEnd (w : Wire) : List Header :=
  w.headers.filter (!·.hopByHop)

/-- The end-to-end headers have arrived.  A body without a length of its own has got one. -/
structure SameHeaders (w : Wire) (headers : List Header) : Prop where
  sized : ¬ w.Unsized → headers.map key = w.endToEnd.map key
  unsized : w.Unsized →
    (headers.filter (!·.isLength)).map key =
      (w.endToEnd.filter (!·.isLength)).map key ∧
    (headers.filter isLength).map value = [decimal w.body.length]

/-- The first line of a request with its method and target. -/
def requestLine (method target : Bytes) : Bytes :=
  method ++ bytes " " ++ pathAndQuery target ++ bytes " HTTP/1.1"

/-- The request has arrived. -/
def SameRequest (w : Wire) (text : Bytes) : Prop :=
  ∃ r, receive text = some r ∧ r.line = requestLine w.method w.target ∧
    SameHeaders w r.headers ∧ r.body = w.body

/-- The reply has arrived. -/
def SameReply (w : Wire) (text : Bytes) : Prop :=
  ∃ r, receive text = some r ∧
    (∃ reason, r.line = bytes "HTTP/1.1 " ++ decimalInt w.status ++ bytes " " ++ reason) ∧
    SameHeaders w r.headers ∧ r.body = w.body

/-- No setting of the developer tools applies to the request. -/
structure Untouched (tools : Option Tools) (request : Message) : Prop where
  noCache : ∀ t ∈ tools, t.enabled = true → t.noCache = false
  rewrites : ∀ t ∈ tools, t.enabled = true → ∀ rule ∈ t.rewriteRules,
    (rule.applies request && (rule.onRequest || rule.onResponse)) = false
  breakpoints : ∀ t ∈ tools, t.enabled = true → ∀ rule ∈ t.breakpointRules,
    (rule.applies request && (rule.onRequest || rule.onResponse)) = false
  maps : ∀ t ∈ tools, t.enabled = true → ∀ rule ∈ t.mapRules, rule.applies request = false

/-- The message frames a body, by a length or without one. -/
def Wire.Framing (w : Wire) : Prop :=
  w.Unsized ∨ ∃ h ∈ w.headers, h.isLength

/-- The framing of the proxy leaves no trace: the length of a sized message is its last end-to-end
header and the only one of its name, in plain decimal, and the headers that were added to the
message are taken out again, without framing a body that there is not. -/
structure Framed (w : Wire) (added : List Header) : Prop where
  sized : ¬ w.Unsized → (∃ h ∈ w.headers, h.isLength) → ∃ front name,
    w.endToEnd = front ++ [⟨name, decimal w.body.length⟩] ∧
    strcaseeq name (bytes "Content-Length") = true ∧ ∀ h ∈ front, ¬ h.isLength
  stripped : ∀ h ∈ added, h.hopByHop = true ∨ h.isLength = true
  unframed : ¬ w.Framing → ∀ h ∈ added, ¬ h.isLength ∧ ¬ h.named "Transfer-Encoding"

/-- Neither the framing nor what is behind the body of the message leaves a trace. -/
structure Untraced (w : Wire) (response : Bool) (rest : List Event) : Prop where
  line : if response then (w.spill response rest).message.status = w.status
    else requestLine (w.spill response rest).message.method
      (w.target ++ (w.spill response rest).url) = requestLine w.method w.target
  body : (w.spill response rest).message.body = []
  framed : Framed w (w.spill response rest).message.headers

theorem untraced_iff {w : Wire} {response : Bool} {rest : List Event} :
    Untraced w response rest ↔
      (if response then (w.spill response rest).message.status = w.status
        else requestLine (w.spill response rest).message.method
          (w.target ++ (w.spill response rest).url) = requestLine w.method w.target) ∧
      (w.spill response rest).message.body = [] ∧
      Framed w (w.spill response rest).message.headers :=
  ⟨fun h ↦ ⟨h.line, h.body, h.framed⟩, fun ⟨hline, hbody, hframed⟩ ↦ ⟨hline, hbody, hframed⟩⟩

/-! ## What arrives -/

variable {w : Wire} {m : Message} {s : Context} {text : Bytes}

theorem pathAndQuery_spec (target : Bytes) :
    pathAndQuery target ≠ [] ∧ ∀ c ∈ pathAndQuery target, c = 47 ∨ c ∈ target := by
  have hslash : bytes "/" ≠ [] ∧ ∀ c ∈ bytes "/", c = 47 ∨ c ∈ target :=
    ⟨by decide, fun c hc ↦ .inl (mem_singleton.1 hc)⟩
  rw [pathAndQuery]
  dsimp only
  generalize (if startsWith "http://" target then 7 else 8) = start
  split_ifs with habsolute hend hnone
  · exact hslash
  · exact ⟨hend, fun c hc ↦ .inr (mem_of_mem_drop ((dropWhile_sublist _).mem hc))⟩
  · exact hslash
  · exact ⟨hnone, fun c hc ↦ .inr hc⟩

theorem isLength_iff_key {h : Header} :
    h.isLength = true ↔ h.key.1 = lower (bytes "Content-Length") := by
  rw [isLength, named, strcaseeq, beq_iff_eq]
  rfl

variable {added : List Header}

/-- The end-to-end headers but for a length. -/
def others (hs : List Header) : List Header :=
  (hs.filter (!·.hopByHop)).filter (!·.isLength)

theorem others_eq_nil_iff : others added = [] ↔
    ∀ h ∈ added, h.hopByHop = true ∨ h.isLength = true := by
  simp only [others, filter_filter, filter_eq_nil_iff, Bool.and_eq_true, Bool.not_eq_true', not_and,
    Bool.not_eq_false]
  refine forall₂_congr fun h _ ↦ ?_
  cases h.isLength <;> simp

theorem isLength_contentLength (n : Nat) :
    (⟨bytes "Content-Length", decimal n⟩ : Header).isLength = true := by
  rw [isLength_iff_key]
  rfl

theorem writtenHeaders_framed (n : Nat) : writtenHeaders (w.headers ++ added) true n =
    others w.headers ++ others added ++ [⟨bytes "Content-Length", decimal n⟩] := by
  simp [writtenHeaders, others]

/-- Headers with the same keys have the same ones but for a length. -/
theorem filter_isLength_of_key {l l' : List Header} (h : l.map key = l'.map key) :
    (l.filter (!·.isLength)).map key = (l'.filter (!·.isLength)).map key := by
  have hkey : (fun h : Header ↦ !h.isLength) = (·.1 != lower (bytes "Content-Length")) ∘ key := by
    funext h
    rw [Function.comp_apply, Bool.eq_iff_iff, Bool.not_eq_true', ← Bool.not_eq_true,
      isLength_iff_key, bne_iff_ne]
  rw [hkey, ← filter_map, ← filter_map, h]

/-- What was added is not to be seen among the headers but for a length. -/
theorem others_of_map_key {n : Nat}
    (h : ((writtenHeaders (w.headers ++ added) true n).filter (!·.isLength)).map key =
      (others w.headers).map key) : others added = [] := by
  have hothers : ∀ hs : List Header, (others hs).filter (!·.isLength) = others hs := fun hs ↦ by
    rw [others, filter_filter]
    simp
  have hlength := congrArg List.length h
  rw [writtenHeaders_framed, filter_append, filter_append, hothers, hothers,
    filter_cons_of_neg (by simp [isLength_contentLength])] at hlength
  simp only [filter_nil, append_nil, length_map, length_append] at hlength
  exact length_eq_zero_iff.1 (by omega)

/-- The headers of a message without a length of its own. -/
theorem sameHeaders_unsized (h : w.Unsized) :
    SameHeaders w (writtenHeaders (w.headers ++ added) true w.body.length) ↔ Framed w added := by
  constructor
  · rintro ⟨-, hunsized⟩
    refine ⟨fun hsized ↦ absurd h hsized, others_eq_nil_iff.1 ?_, fun hframing ↦ ?_⟩
    · exact others_of_map_key (hunsized h).1
    · exact absurd (.inl h) hframing
  · rintro ⟨-, hstripped, -⟩
    have hnone : ∀ hs : List Header, (others hs).filter isLength = [] := by
      intro hs
      rw [filter_eq_nil_iff]
      intro h hh
      simpa using (mem_filter.1 hh).2
    refine ⟨fun hsized ↦ absurd h hsized, fun _ ↦ ?_⟩
    rw [writtenHeaders_framed, others_eq_nil_iff.2 hstripped, append_nil]
    constructor
    · rw [filter_append, filter_cons_of_neg (by simp [isLength_contentLength])]
      simp [others, Wire.endToEnd]
    · rw [filter_append, hnone, filter_cons_of_pos (isLength_contentLength _)]
      rfl

/-- A length that stands behind all other headers is the only one. -/
theorem exists_length_last {n : Nat} (h : (others w.headers).map key ++
      [(⟨bytes "Content-Length", decimal n⟩ : Header)].map key = w.endToEnd.map key) :
    ∃ front name, w.endToEnd = front ++ [⟨name, decimal n⟩] ∧
      strcaseeq name (bytes "Content-Length") = true ∧ ∀ h ∈ front, ¬ h.isLength := by
  obtain ⟨front, last, heq, hfront, hlast⟩ := map_eq_append_iff.1 h.symm
  obtain ⟨l, rfl, hl⟩ := map_eq_singleton_iff.1 hlast
  have hisLength : l.isLength = true := by
    rw [isLength_iff_key, hl]
    rfl
  have hvalue : l.value = decimal n := congrArg Prod.snd hl
  refine ⟨front, l.name, ?_, hisLength, ?_⟩
  · rw [heq, ← hvalue]
  -- the other headers are as many as all of those in front
  have hcount := congrArg List.length hfront
  rw [others, ← Wire.endToEnd, heq] at hcount
  simp only [filter_append, length_map, length_append, hisLength, Bool.not_true,
    Bool.false_eq_true, not_false_eq_true, filter_cons_of_neg, filter_nil,
    length_nil, Nat.add_zero] at hcount
  have hall := length_filter_eq_length_iff.1 hcount.symm
  intro h hh
  simpa using hall h hh

/-- The headers of a message with a length of its own. -/
theorem sameHeaders_sized (h : ¬ w.Unsized) (hlength : ∃ h ∈ w.headers, h.isLength) :
    SameHeaders w (writtenHeaders (w.headers ++ added) true w.body.length) ↔ Framed w added := by
  constructor
  · rintro ⟨hsized, -⟩
    have hkeys := hsized h
    have hnone : others added = [] := others_of_map_key (filter_isLength_of_key hkeys)
    refine ⟨fun _ _ ↦ ?_, others_eq_nil_iff.1 hnone, fun hframing ↦ absurd (.inr hlength) hframing⟩
    rw [writtenHeaders_framed, hnone, append_nil, map_append] at hkeys
    exact exists_length_last hkeys
  · rintro ⟨hsized, hstripped, -⟩
    refine ⟨fun _ ↦ ?_, fun hunsized ↦ absurd hunsized h⟩
    obtain ⟨front, name, heq, hname, hfront⟩ := hsized h hlength
    have hself : front.filter (!·.isLength) = front :=
      filter_eq_self.2 fun h hh ↦ by simpa using hfront h hh
    have hlast : (⟨name, decimal w.body.length⟩ : Header).isLength = true := hname
    rw [writtenHeaders_framed, others_eq_nil_iff.2 hstripped, append_nil, others, ← Wire.endToEnd,
      heq, filter_append, hself, filter_cons_of_neg (by simp [hlast]), filter_nil, append_nil,
      map_append, map_append]
    rw [strcaseeq, beq_iff_eq] at hname
    simp only [map_cons, map_nil, key, hname]

/-- The headers of a message that frames no body. -/
theorem sameHeaders_unframed (h : ¬ w.Framing) {framed : Bool} (hframed : framed = true ↔
      (∃ h ∈ added, h.isLength = true) ∨ ∃ h ∈ added, h.named "Transfer-Encoding" = true)
    (n : Nat) :
    SameHeaders w (writtenHeaders (w.headers ++ added) framed n) ↔ Framed w added := by
  have hunsized : ¬ w.Unsized := fun hunsized ↦ h (.inl hunsized)
  have hlength : ¬ ∃ h ∈ w.headers, h.isLength = true := fun hlength ↦ h (.inr hlength)
  cases framed with
  | true =>
    refine iff_of_false (fun ⟨hsized, _⟩ ↦ ?_) fun hclear ↦ ?_
    · -- a length has been added that was not there
      have hmem : (⟨bytes "Content-Length", decimal n⟩ : Header).key ∈ w.endToEnd.map key := by
        rw [← hsized hunsized, writtenHeaders_framed]
        simp
      obtain ⟨l, hl, hkey⟩ := mem_map.1 hmem
      exact hlength ⟨l, mem_of_mem_filter hl, isLength_iff_key.2 (congrArg Prod.fst hkey)⟩
    · rcases hframed.1 rfl with ⟨l, hl, hl'⟩ | ⟨l, hl, hl'⟩
      · exact (hclear.unframed h l hl).1 hl'
      · exact (hclear.unframed h l hl).2 hl'
  | false =>
    simp only [Bool.false_eq_true, false_iff, not_or, not_exists, not_and] at hframed
    have hout : writtenHeaders (w.headers ++ added) false n =
        w.endToEnd ++ added.filter (!·.hopByHop) := by simp [writtenHeaders, Wire.endToEnd]
    constructor
    · rintro ⟨hsized, -⟩
      have hcount := congrArg List.length (hsized hunsized)
      rw [hout, length_map, length_map, length_append] at hcount
      have hnone := length_eq_zero_iff.1 (show (added.filter (!·.hopByHop)).length = 0 by omega)
      refine ⟨fun _ hl ↦ absurd hl hlength, fun h hh ↦ .inl ?_,
        fun _ h hh ↦ ⟨hframed.1 h hh, hframed.2 h hh⟩⟩
      simpa using filter_eq_nil_iff.1 hnone h hh
    · rintro ⟨-, hstripped, -⟩
      have hnone : added.filter (!·.hopByHop) = [] := filter_eq_nil_iff.2 fun h hh ↦ by
        simpa using (hstripped h hh).resolve_right (hframed.1 h hh)
      rw [hout, hnone, append_nil]
      exact ⟨fun _ ↦ rfl, fun hunsized' ↦ absurd hunsized' hunsized⟩

section

variable (hw : w.Valid) (h : ReadAs w s m)

include h

/-- The headers that arrive are those that were sent exactly if framing leaves no trace. -/
theorem sameHeaders_iff (hbody : s.message.body = []) :
    SameHeaders w (writtenHeaders m.headers (m.bodySet || m.body != []) m.body.length) ↔
      Framed w s.message.headers := by
  have hframed := h.framed
  rw [h.headers, h.body, hbody, append_nil] at hframed ⊢
  generalize s.message.headers = added at hframed ⊢
  simp only [mem_append, or_and_right, exists_or] at hframed
  by_cases hunsized : w.Unsized
  · have htrue : (m.bodySet || w.body != []) = true := by
      rcases hunsized with hte | ⟨hbody, -⟩
      · exact hframed.2 (.inr (.inl (.inl hte)))
      · exact hframed.2 (.inr (.inr hbody))
    rw [htrue]
    exact sameHeaders_unsized hunsized
  · by_cases hlength : ∃ h ∈ w.headers, h.isLength = true
    · rw [hframed.2 (.inl (.inl hlength))]
      exact sameHeaders_sized hunsized hlength
    -- such a message has no body
    have hempty : w.body = [] := by
      by_contra hne
      exact hunsized (.inr ⟨hne, fun h hh hl ↦ hlength ⟨h, hh, hl⟩⟩)
    have hchunked : ¬ ∃ h ∈ w.headers, h.named "Transfer-Encoding" = true :=
      fun hte ↦ hunsized (.inl hte)
    refine sameHeaders_unframed (not_or.2 ⟨hunsized, hlength⟩) ?_ _
    rw [hframed]
    simp only [hlength, hchunked, hempty, false_or, ne_eq, not_true_eq_false, or_false]

variable (hspill : s.Valid)

include hw hspill

theorem ReadAs.valid : ∀ h ∈ m.headers, h.Valid := by
  intro header hmem
  rw [h.headers, mem_append] at hmem
  rcases hmem with hmem | hmem
  · exact hw.headers header hmem
  · exact hspill.headers header hmem

/-- What arrives of a message, beside its first line. -/
theorem arrived_iff {response : Bool} (hline : 13 ∉ startLine m response)
    (htext : serializeMessage m response = some text) {P : Bytes → Prop} :
    (∃ r, receive text = some r ∧ P r.line ∧ SameHeaders w r.headers ∧ r.body = w.body) ↔
      P (startLine m response) ∧ s.message.body = [] ∧
        Framed w s.message.headers := by
  have hbody : m.body = w.body ↔ s.message.body = [] := by
    rw [h.body]
    simp
  rw [receive_serializeMessage hline (h.valid hw hspill) htext]
  simp only [Option.some.injEq, exists_eq_left']
  refine and_congr_right fun _ ↦ and_comm.trans ?_
  rw [hbody]
  exact and_congr_right fun hnil ↦ sameHeaders_iff h hnil

theorem sameRequest_iff (hmethod : m.method = s.message.method)
    (hpath : m.path = pathAndQuery (w.target ++ s.url))
    (htext : serializeMessage m false = some text) : SameRequest w text ↔
      requestLine s.message.method (w.target ++ s.url) = requestLine w.method w.target ∧
        s.message.body = [] ∧ Framed w s.message.headers := by
  have hstart : startLine m false = requestLine s.message.method (w.target ++ s.url) := by
    rw [startLine, if_neg (by decide), hpath, if_neg (pathAndQuery_spec _).1, hmethod, requestLine]
  have hline : 13 ∉ startLine m false := by
    rw [hstart, requestLine]
    simp only [mem_append, not_or]
    refine ⟨⟨⟨hspill.method, by decide⟩, fun h ↦ ?_⟩, by decide⟩
    rcases (pathAndQuery_spec _).2 13 h with h | h
    · exact absurd h (by decide)
    · exact (mem_append.1 h).elim hw.target.1 hspill.url
  rw [SameRequest, arrived_iff hw h hspill hline htext (P := (· = requestLine w.method w.target)),
    hstart]

/-- The status is read back from the first line. -/
theorem sameReply_iff (hstatus : m.status = s.message.status)
    (htext : serializeMessage m true = some text) : SameReply w text ↔
      s.message.status = w.status ∧ s.message.body = [] ∧
        Framed w s.message.headers := by
  obtain ⟨n, hn, -⟩ := hspill.status
  have hstart : startLine m true = bytes "HTTP/1.1 " ++ (decimal n ++ 32 :: httpReason n) := by
    rw [startLine_reply, hstatus, hn]
    rfl
  have hline : 13 ∉ startLine m true := by
    rw [hstart]
    simp only [mem_append, mem_cons, not_or]
    exact ⟨by decide, notMem_decimal (by decide) _, by decide, (notMem_httpReason _).1⟩
  rw [SameReply, arrived_iff hw h hspill hline htext
    (P := fun line ↦ ∃ reason, line =
      bytes "HTTP/1.1 " ++ decimalInt w.status ++ bytes " " ++ reason),
    hstart, hn, Nat.cast_inj]
  refine and_congr_left fun _ ↦ ⟨fun ⟨reason, hreason⟩ ↦ ?_, fun heq ↦ ⟨httpReason n, ?_⟩⟩
  · rw [append_assoc, append_assoc, append_cancel_left_eq] at hreason
    replace hreason : decimal w.status ++ 32 :: reason = decimal n ++ 32 :: httpReason n :=
      hreason.symm
    have hblank : ∀ k, 32 ∉ decimal k := fun k ↦ notMem_decimal (by decide) k
    have hsplit := splitFirst_eq_some_iff.2 ⟨hreason, hblank n⟩
    rw [splitFirst_eq_some_iff.2 ⟨rfl, hblank w.status⟩] at hsplit
    exact (decimal_injective (congrArg Prod.fst (Option.some.inj hsplit))).symm
  · rw [heq, append_assoc, append_assoc]
    rfl

end

/-! ## The tools -/

variable {request : Message}

theorem applyRewrites_of_forall {rules : List RewriteRule} {stage : RewriteRule → Bool}
    (h : ∀ rule ∈ rules, (rule.applies request && stage rule) = false) (m : Message) :
    applyRewrites rules stage request m = m := by
  rw [applyRewrites]
  induction rules with
  | nil => rfl
  | cons rule rules ih =>
    rw [foldl_cons, h rule mem_cons_self, if_neg (by decide)]
    exact ih fun r hr ↦ h r (mem_cons_of_mem rule hr)

theorem breakpointFor_of_forall {rules : List BreakpointRule} {stage : BreakpointRule → Bool}
    (h : ∀ rule ∈ rules, (rule.applies request && stage rule) = false) :
    breakpointFor rules stage request = none :=
  find?_eq_none.2 fun rule hrule ↦ Bool.eq_false_iff.1 (h rule hrule)

section

variable {tools : Option Tools} (h : Untouched tools m)

include h

theorem Untouched.processRequest : processRequest tools m = .ok (.forward m) := by
  have hstage : ∀ a b c : Bool, (a && (b || c)) = false → (a && b) = false := by decide
  cases tools with
  | none => rfl
  | some t =>
    rw [Proxy.processRequest]
    dsimp only
    cases henabled : t.enabled with
    | false => rfl
    | true =>
      rw [if_neg (by decide), applyRewrites_of_forall fun rule hrule ↦
        hstage _ _ _ (h.rewrites t rfl henabled rule hrule)]
      rw [breakpointFor_of_forall fun rule hrule ↦
        hstage _ _ _ (h.breakpoints t rfl henabled rule hrule)]
      have hmaps : t.mapRules.find? (·.applies m) = none :=
        find?_eq_none.2 fun rule hrule ↦ by simp [h.maps t rfl henabled rule hrule]
      simp [h.noCache t rfl henabled, hmaps]

theorem Untouched.processResponse (response : Message) :
    processResponse tools m response = .forward response := by
  have hstage : ∀ a b c : Bool, (a && (b || c)) = false → (a && c) = false := by decide
  cases tools with
  | none => rfl
  | some t =>
    rw [Proxy.processResponse]
    dsimp only
    cases henabled : t.enabled with
    | false => rfl
    | true =>
      rw [if_neg (by decide), applyRewrites_of_forall fun rule hrule ↦
        hstage _ _ _ (h.rewrites t rfl henabled rule hrule)]
      rw [breakpointFor_of_forall fun rule hrule ↦
        hstage _ _ _ (h.breakpoints t rfl henabled rule hrule)]
      simp [h.noCache t rfl henabled]

/-- An exchange that no tool touches writes the request that was read to one side, and the reply
that is read, if one is, to the other. -/
theorem Untouched.forwardMessage {upstream : Upstream} {request : Bytes}
    (hforward : (forwardMessage tools upstream m).upstream = some request) :
    serializeMessage m false = some request ∧
      (Proxy.forwardMessage tools upstream m).client =
        (parseMessage true none none upstream.reads).toOption.bind (serializeMessage · true) := by
  rw [Proxy.forwardMessage, h.processRequest] at hforward ⊢
  dsimp only at hforward ⊢
  rw [forwardRequest] at hforward ⊢
  split at hforward
  · cases hforward
  split at hforward
  · cases hforward
  · cases hforward
  split at hforward
  · cases hforward
  next text htext =>
  split at hforward
  · next hwritable =>
    rw [if_pos hwritable]
    rw [forwardResponse] at hforward ⊢
    split at hforward
    · next hparse =>
      cases hforward
      rw [hparse]
      exact ⟨htext, rfl⟩
    next hparse =>
    rw [h.processResponse] at hforward ⊢
    cases hforward
    rw [hparse]
    exact ⟨htext, rfl⟩
  · cases hforward

end

/-- With nothing behind the body of a message but its end, only its framing counts. -/
theorem untraced_iff_framed {response : Bool} (hfinal : (response && interim w.status) = false) :
    Untraced w response [.messageComplete] ↔ Framed w [] := by
  have hspill : w.spill response [.messageComplete] =
      { w.ended response with complete := true } := by
    cases response with
    | true => simpa [Wire.spill, Wire.ended, advance] using hfinal
    | false => rfl
  rw [untraced_iff, hspill]
  cases response <;> simp [Wire.ended]

/-! ### Two replies to one request -/

def getPage : Wire where
  method := bytes "GET"
  target := bytes "/page"
  headers := [⟨bytes "Host", bytes "example.org"⟩, ⟨bytes "Connection", bytes "keep-alive"⟩]

def page : Wire where
  status := 200
  headers := [⟨bytes "Transfer-Encoding", bytes "chunked"⟩, ⟨bytes "ETag", bytes "v1"⟩]
  body := bytes "hello"

def pageNotModified : Wire where
  status := 304
  headers := [⟨bytes "ETag", bytes "v1"⟩, ⟨bytes "Content-Length", bytes "1234"⟩]

/-- The calls for headers and for a message that come in one piece each. -/
def headerCalls (hs : List Header) : List Event :=
  hs.flatMap fun h ↦ [.headerField h.name, .headerValue h.value]

def Wire.calls (w : Wire) : List Event :=
  .url w.target :: headerCalls w.headers ++ [.headersComplete w.method w.status, .body w.body]

theorem headerEvents_headerCalls (hs : List Header) : HeaderEvents hs (headerCalls hs) := by
  induction hs with
  | nil => exact .nil
  | cons h hs ih =>
    exact @HeaderEvents.cons h hs [h.name] [h.value] _ (by simp) (by simp) (by simp) (by simp) ih

theorem delivered_calls (w : Wire) : Delivered w w.calls :=
  ⟨[w.target], [w.body], _, by simp, headerEvents_headerCalls _, by simp, by simp [Wire.calls]⟩

def originOf (w : Wire) : Upstream where
  reach := fun _ ↦ .connected
  writable := true
  reads := [w.calls ++ [.messageComplete]]

theorem ends_calls (w : Wire) :
    Ends w.calls [.messageComplete] [w.calls ++ [.messageComplete]] :=
  ⟨by simp [Event.Valid], [], [], [], w.calls, [], rfl, by simp, by simp, rfl⟩

theorem replied_originOf {v : Wire} (h : interim v.status = false)
    (hmethod : w.method ≠ bytes "HEAD") :
    Replied w v [.messageComplete] (originOf v).reads :=
  ⟨[], v.calls, .nil, delivered_calls v, h, .inr ⟨fun hawaited ↦ hmethod hawaited.1, ends_calls v⟩⟩

def pageRequest : Message where
  method := bytes "GET"
  url := bytes "http://example.org/page"
  host := bytes "example.org"
  path := bytes "/page"
  headers := [⟨bytes "Host", bytes "example.org"⟩, ⟨bytes "Connection", bytes "keep-alive"⟩]

theorem parseMessage_getPage :
    parseMessage false none none [getPage.calls ++ [.messageComplete]] = .ok pageRequest := by
  decide

theorem requested_getPage :
    Requested getPage [.messageComplete] [getPage.calls ++ [.messageComplete]] :=
  ⟨getPage.calls, delivered_calls _, ends_calls _⟩

theorem valid_of_decide (hmethod : 13 ∉ w.method ∧ 10 ∉ w.method)
    (htarget : 13 ∉ w.target ∧ 10 ∉ w.target)
    (hheaders : (w.headers.all fun h ↦ h.writable && !h.name.contains 58) = true) :
    w.Valid where
  method := hmethod
  target := htarget
  headers := by
    intro h hh
    have hall := all_eq_true.1 hheaders h hh
    simp only [writable, Bool.and_eq_true, bne_iff_ne, Bool.not_eq_true',
      contains_eq_mem, decide_eq_false_iff_not] at hall
    obtain ⟨⟨⟨⟨⟨hne, h₁⟩, h₂⟩, h₃⟩, h₄⟩, hcolon⟩ := hall
    exact ⟨hne, hcolon, ⟨h₁, h₂⟩, h₃, h₄⟩

theorem untouched_none (m : Message) : Untouched none m :=
  ⟨fun _ h ↦ by simp at h, fun _ h ↦ by simp at h, fun _ h ↦ by simp at h, fun _ h ↦ by simp at h⟩

theorem valid_getPage : getPage.Valid :=
  valid_of_decide (by decide) (by decide) (by decide)

/-- Two requests in one read become one. -/
example : (parseMessage false none none
    [getPage.calls ++ .messageComplete :: getPage.calls ++ [.messageComplete]]).toOption.map
      Message.path = some (bytes "/page/page") := by
  decide

theorem not_sameReply_of_receive {r : Received}
    (h : receive text = some r) (hsized : ¬ w.Unsized)
    (hkeys : r.headers.map key ≠ w.endToEnd.map key) : ¬ SameReply w text := by
  rintro ⟨r', hr', -, hheaders, -⟩
  rw [h] at hr'
  cases hr'
  exact hkeys (hheaders.sized hsized)

end ClambHook.Proxy
