import ClambHook.Developer.Curl

/-!
# A reply in pieces

`ch_developer_capture_response` is called with what the upstream sent so far, and the network cuts a
reply where it likes.  What is recorded of it should not depend on the cuts.

It depends on them in two ways.  `developer_capture_response_headers` holds each piece against the
limit for the headers, also the part of it that is body: a reply of more than 1 MiB is not recorded
when it comes at once, and is recorded when its headers come first.  And `sscanf` reads the status
from all that is there, so that it goes on into the body if the first line has no number.  Without
these, a run over any pieces ends as the run over the whole (`Capture.Fresh.foldl_response`).
-/

namespace ClambHook.Developer

open CString List Option Capture

/-- The head of a reply in a buffer, if the empty line behind it is there. -/
def foundEnd (buffer : Bytes) : Option Bytes :=
  (strstr [13, 10, 13, 10] (untilNul buffer)).map Prod.fst

/-- The status that is read from a buffer, if it is one. -/
def readStatus (buffer : Bytes) : Option Int :=
  (scanStatus (untilNul buffer)).filter fun status ↦ 100 ≤ status ∧ status ≤ 999

/-- What is captured of a reply: its status, its headers, the preview and the size of its body, and
whether the preview is not all of it. -/
structure Seen where
  status : Int
  headers : List Header
  preview : Bytes
  size : Nat
  truncated : Bool
deriving DecidableEq

def Capture.seen (c : Capture) : Seen where
  status := c.entry.status
  headers := c.entry.responseHeaders
  preview := c.entry.responseBody.preview
  size := c.entry.responseBody.size
  truncated := c.entry.responseBody.cut

/-- A capture of which no reply has come. -/
structure Capture.Fresh (c : Capture) : Prop where
  buffer : c.responseHeaderBuffer = []
  incomplete : c.responseHeadersComplete = false
  status : c.entry.status = 0
  body : c.entry.responseBody = {}

/-- However a reply is cut, the same is captured of it. -/
def Capture.Independent (c : Capture) (reply : Bytes) : Prop :=
  ∀ a b : List Bytes, a.flatten = reply → b.flatten = reply →
    (a.foldl response c).seen = (b.foldl response c).seen

/-! ## Heads -/

theorem untilNul_append (q x : Bytes) : ∃ y, untilNul (q ++ x) = untilNul q ++ y := by
  rw [untilNul, takeWhile_append]
  split
  case isTrue h =>
    rw [untilNul, (List.takeWhile_prefix _).eq_of_length h]
    exact ⟨_, rfl⟩
  case isFalse => exact ⟨[], (append_nil _).symm⟩

variable {q head : Bytes}

variable (h : foundEnd q = some head)

include h

theorem foundEnd_append (x : Bytes) :
    foundEnd (q ++ x) = some head := by
  obtain ⟨⟨_, rest⟩, hfound, rfl⟩ := map_eq_some_iff.1 h
  obtain ⟨y, hy⟩ := untilNul_append q x
  rw [foundEnd, hy, strstr_append_of_some hfound]
  rfl

/-- The head and the empty line stand at the start of the buffer. -/
theorem exists_of_foundEnd :
    ∃ rest, q = head ++ [13, 10, 13, 10] ++ rest ∧ 0 ∉ head := by
  obtain ⟨⟨_, b⟩, hfound, rfl⟩ := map_eq_some_iff.1 h
  obtain ⟨hq, rest, rfl⟩ := strstr_spec hfound
  obtain ⟨rest', hrest⟩ : untilNul q <+: q := takeWhile_prefix _
  refine ⟨rest ++ rest', ?_, fun hzero ↦ ?_⟩
  · rw [← hrest, hq]
    simp only [append_assoc]
  · exact zero_notMem_untilNul q (hq ▸ mem_append_left _ hzero)

theorem length_le_of_foundEnd :
    head.length + 4 ≤ q.length := by
  obtain ⟨rest, rfl, -⟩ := exists_of_foundEnd h
  simp only [length_append, length_cons, length_nil]
  omega

omit h

/-- The head is found as soon as the empty line has come. -/
theorem foundEnd_take {r : Bytes} (h : foundEnd r = some head) {n : Nat}
    (hn : head.length + 4 ≤ n) : foundEnd (r.take n) = some head := by
  obtain ⟨rest, rfl, hzero⟩ := exists_of_foundEnd h
  have hstart : untilNul (head ++ [13, 10, 13, 10]) = head ++ [13, 10, 13, 10] := by
    refine untilNul_eq_self fun hmem ↦ ?_
    rcases mem_append.1 hmem with hmem | hmem
    · exact hzero hmem
    · exact absurd hmem (by decide)
  obtain ⟨p, hp⟩ := exists_strstr (prefix_refl [13, 10, 13, 10]) head
  have hfound : foundEnd (head ++ [13, 10, 13, 10]) = some p.1 := by
    rw [foundEnd, hstart, hp]
    rfl
  have heq : p.1 = head := Option.some.inj ((foundEnd_append hfound rest).symm.trans h)
  rw [take_append, take_of_length_le (by simpa using hn)]
  exact foundEnd_append (heq ▸ hfound) _

/-! ## Bodies -/

theorem Body.write_write (body : Body) (x y : Bytes) :
    (body.write x).write y = body.write (x ++ y) := by
  by_cases h : body.initialized
  · simp only [Body.write, h, if_true, length_append, Body.mk.injEq, true_and]
    refine ⟨by omega, ?_⟩
    rw [take_append, length_take, append_assoc]
    congr 3
    omega
  · simp only [Body.write, h, Bool.false_eq_true, if_false]

theorem Entry.withStatus_eq (e : Entry) (text : Bytes) :
    e.withStatus (untilNul text) = { e with status := (readStatus text).getD e.status } := by
  rw [Entry.withStatus, readStatus]
  cases scanStatus (untilNul text) with
  | none => rfl
  | some status =>
    dsimp only
    split
    case isTrue h => rw [filter_some, if_pos (decide_eq_true h)]; rfl
    case isFalse h => rw [filter_some, if_neg (by simpa using h)]; rfl

/-! ## Pieces -/

variable {c : Capture}

/-- A capture behind the head of a reply, of which `reply` has come and `buffer` was there when the
head was read. -/
def Capture.replied (c : Capture) (head buffer reply : Bytes) : Capture :=
  { c with
    responseHeaderBuffer := buffer
    responseHeadersComplete := true
    entry := { c.entry with
      status := (readStatus buffer).getD c.entry.status
      responseHeaders := ((((splitLines (head ++ [13, 10])).drop 1).takeWhile (· ≠ [])).filterMap
        (parseHeader c.redactHeaders c.headerValueLimit)).insertionSort (headerLe · ·)
      responseBody := (Body.initializeWith c.entry.responseBody c.entry.requestBody.limit).write
        (reply.drop (head.length + 4)) } }

variable {p : Bytes}

theorem Capture.Fresh.response_of_none (hc : c.Fresh) (hp : p.length ≤ maxHeaderBytes)
    (h : foundEnd p = none) : c.response p = { c with responseHeaderBuffer := p } := by
  rw [foundEnd, map_eq_none_iff] at h
  simp only [response, hc.incomplete, responseHeaders, hc.buffer, length_nil,
    Nat.sub_zero, not_lt.2 hp, nil_append, h, Bool.false_eq_true, if_false]

theorem Capture.Fresh.response_of_some (hc : c.Fresh)
    (hp : p.length ≤ maxHeaderBytes) (h : foundEnd p = some head) :
    c.response p = c.replied head p p := by
  obtain ⟨⟨_, rest⟩, hstrstr, rfl⟩ := map_eq_some_iff.1 h
  simp only [response, hc.incomplete, responseHeaders, hc.buffer, length_nil,
    Nat.sub_zero, not_lt.2 hp, nil_append, hstrstr, Bool.false_eq_true, if_false,
    Entry.withStatus_eq]
  rfl

/-- As long as the head is not complete, the next piece counts as one with what came before. -/
theorem Capture.Fresh.response_response (hc : c.Fresh) {t : Bytes}
    (hlength : (p ++ t).length ≤ maxHeaderBytes) (h : foundEnd p = none) :
    (c.response p).response t = c.response (p ++ t) := by
  rw [length_append] at hlength
  rw [hc.response_of_none (by omega) h]
  have hnot : ¬ maxHeaderBytes - p.length < t.length := by omega
  have hnot' : ¬ maxHeaderBytes < (p ++ t).length := by
    rw [length_append]
    omega
  simp only [response, hc.incomplete, responseHeaders, hc.buffer, length_nil,
    Nat.sub_zero, hnot, hnot', nil_append, Bool.false_eq_true, if_false]

variable {reply : Bytes}

theorem Capture.response_replied (h : head.length + 4 ≤ reply.length)
    (buffer t : Bytes) :
    (c.replied head buffer reply).response t = c.replied head buffer (reply ++ t) := by
  simp only [response, replied, if_true, Body.write_write,
    drop_append_of_le_length h]

/-- **Pieces.**  A reply within the limit leaves its capture with the head not read, or as behind a
head that was read when some of the reply was there. -/
theorem Capture.Fresh.foldl_response (hc : c.Fresh) (pieces : List Bytes)
    (hlength : pieces.flatten.length ≤ maxHeaderBytes) :
    (foundEnd pieces.flatten = none ∧ pieces.foldl response c = c.response pieces.flatten) ∨
      ∃ head buffer, foundEnd buffer = some head ∧ buffer <+: pieces.flatten ∧
        pieces.foldl response c = c.replied head buffer pieces.flatten := by
  induction pieces using List.reverseRecOn with
  | nil =>
    refine .inl ⟨rfl, ?_⟩
    rw [flatten_nil, hc.response_of_none (Nat.zero_le _) rfl, ← hc.buffer]
    rfl
  | append_singleton pieces t ih =>
    rw [flatten_append, flatten_singleton] at hlength ⊢
    rw [foldl_append, foldl_cons, foldl_nil]
    have hshort : pieces.flatten.length ≤ maxHeaderBytes := by
      rw [length_append] at hlength
      omega
    rcases ih hshort with ⟨hnone, hrun⟩ | ⟨head, buffer, hfound, hbuffer, hrun⟩
    · rw [hrun, hc.response_response hlength hnone]
      cases hfound : foundEnd (pieces.flatten ++ t) with
      | none => exact .inl ⟨rfl, rfl⟩
      | some head =>
        exact .inr ⟨head, _, hfound, prefix_rfl, hc.response_of_some hlength hfound⟩
    · have hle := (length_le_of_foundEnd hfound).trans hbuffer.length_le
      refine .inr ⟨head, buffer, hfound, hbuffer.trans (prefix_append _ t), ?_⟩
      rw [hrun, response_replied hle]

/-- The capture of a reply that has a head, from any pieces. -/
theorem Capture.Fresh.foldl_response_of_some (hc : c.Fresh)
    (hfound : foundEnd reply = some head) (hlength : reply.length ≤ maxHeaderBytes)
    {pieces : List Bytes} (h : pieces.flatten = reply) :
    ∃ n, head.length + 4 ≤ n ∧
      pieces.foldl response c = c.replied head (reply.take n) reply := by
  subst h
  rcases hc.foldl_response pieces hlength with ⟨hnone, -⟩ | ⟨head', buffer, hfound', hbuffer, hrun⟩
  · cases hnone.symm.trans hfound
  obtain ⟨x, hx⟩ := hbuffer
  obtain rfl : head' = head :=
    Option.some.inj ((foundEnd_append hfound' x).symm.trans (hx ▸ hfound))
  refine ⟨buffer.length, length_le_of_foundEnd hfound', ?_⟩
  rw [hrun, ← hx, take_left]

/-- A reply that is cut behind its head. -/
theorem Capture.Fresh.response_cut (hc : c.Fresh)
    (hfound : foundEnd reply = some head) {n : Nat} (hn : head.length + 4 ≤ n)
    (hlimit : n ≤ maxHeaderBytes) :
    [reply.take n, reply.drop n].foldl response c =
      c.replied head (reply.take n) reply := by
  have htake := foundEnd_take hfound hn
  rw [foldl_cons, foldl_cons, foldl_nil,
    hc.response_of_some ((length_take_le n reply).trans hlimit) htake,
    response_replied (length_le_of_foundEnd htake), take_append_drop]

theorem flatten_cut (reply : Bytes) (n : Nat) : [reply.take n, reply.drop n].flatten = reply := by
  rw [flatten_cons, flatten_singleton, take_append_drop]

/-! ## What is captured -/

theorem Capture.Fresh.length_le_of_independent (hc : c.Fresh)
    (hfound : foundEnd reply = some head) (hhead : head.length + 4 ≤ maxHeaderBytes)
    (h : c.Independent reply) : reply.length ≤ maxHeaderBytes := by
  by_contra hlong
  rw [not_le] at hlong
  have hsize := congrArg Seen.size
    (h [reply] _ flatten_singleton (flatten_cut reply (head.length + 4)))
  rw [hc.response_cut hfound (le_refl _) hhead, foldl_cons, foldl_nil, response,
    hc.incomplete, if_neg Bool.false_ne_true, responseHeaders, hc.buffer, length_nil,
    Nat.sub_zero, if_pos hlong] at hsize
  simp only [seen, replied, hc.body, Body.write, Body.initializeWith, if_true,
    length_drop, ulongMax] at hsize
  omega

theorem Capture.Fresh.status_replied (hc : c.Fresh) {head' buffer buffer' reply' : Bytes}
    (h : (c.replied head buffer reply).seen = (c.replied head' buffer' reply').seen) :
    readStatus buffer = readStatus buffer' := by
  have hstatus : (readStatus buffer).getD c.entry.status =
      (readStatus buffer').getD c.entry.status := congrArg Seen.status h
  rw [hc.status] at hstatus
  have hpositive : ∀ {text : Bytes} {status : Int}, readStatus text = some status → 100 ≤ status :=
    fun h ↦ (of_decide_eq_true (filter_eq_some_iff.1 h).2).1
  cases hleft : readStatus buffer <;> cases hright : readStatus buffer' <;>
    simp only [hleft, hright, getD_none, getD_some] at hstatus
  · rfl
  · exact absurd (hpositive hright) (by omega)
  · exact absurd (hpositive hleft) (by omega)
  · rw [hstatus]

theorem fresh_captureBegin (m : Manager) (metadata : Metadata) (now : Int) :
    (captureBegin m metadata now).Fresh :=
  ⟨rfl, rfl, rfl, rfl⟩

/-- **Cuts of a reply.**  For a reply with a head within the limit, the same is captured from all
its pieces exactly if the whole reply is within the limit and the status that is read behind the
head does not depend on how much of the body is there.  A reply whose head has no end is captured
alike if it is within the limit. -/
theorem independent_iff (m : Manager) (metadata : Metadata) (now : Int) (reply : Bytes) :
    (∀ head, foundEnd reply = some head → head.length + 4 ≤ maxHeaderBytes →
      ((captureBegin m metadata now).Independent reply ↔
        reply.length ≤ maxHeaderBytes ∧
          ∀ n, head.length + 4 ≤ n → readStatus (reply.take n) = readStatus reply)) ∧
    (foundEnd reply = none → reply.length ≤ maxHeaderBytes →
      (captureBegin m metadata now).Independent reply) := by
  have hc := fresh_captureBegin m metadata now
  generalize captureBegin m metadata now = c at hc
  refine ⟨fun head hfound hhead ↦ ⟨fun h ↦ ?_, fun h ↦ ?_⟩, fun hnone hlength ↦ ?_⟩
  · have hlength := hc.length_le_of_independent hfound hhead h
    refine ⟨hlength, fun n hn ↦ ?_⟩
    rcases le_or_gt reply.length n with hle | hlt
    · rw [take_of_length_le hle]
    have hseen := h _ [reply] (flatten_cut reply n) flatten_singleton
    rw [hc.response_cut hfound hn (hlt.le.trans hlength), foldl_cons, foldl_nil,
      hc.response_of_some hlength hfound] at hseen
    exact hc.status_replied hseen
  · obtain ⟨hlength, hstatus⟩ := h
    intro a b ha hb
    obtain ⟨n, hn, ha⟩ := hc.foldl_response_of_some hfound hlength ha
    obtain ⟨k, hk, hb⟩ := hc.foldl_response_of_some hfound hlength hb
    simp only [ha, hb, seen, replied, hstatus n hn, hstatus k hk]
  · intro a b ha hb
    have hrun : ∀ pieces : List Bytes, pieces.flatten = reply →
        pieces.foldl response c = c.response reply := by
      rintro pieces rfl
      rcases hc.foldl_response pieces hlength with ⟨-, hrun⟩ | ⟨head, buffer, hfound, ⟨x, hx⟩, -⟩
      · exact hrun
      · cases hnone.symm.trans (hx ▸ foundEnd_append hfound x)
    rw [hrun a ha, hrun b hb]

/-- A reply without a status, whose body starts with a number. -/
def numberedBody : Bytes :=
  bytes "HTTP/1.1 \r\n\r\n204"

/-- When it comes at once, the number becomes its status. -/
theorem number_of_body_captured : ∃ (m : Manager) (metadata : Metadata),
    ((captureBegin m metadata 0).response numberedBody).seen.status = 204 ∧
      ([numberedBody.take 13, numberedBody.drop 13].foldl response
        (captureBegin m metadata 0)).seen.status = 0 :=
  ⟨{ settings := ⟨true, 1, 1024, 1024, [], []⟩ },
    { flowId := 1, profile := none, clientAddress := none, chainName := none, method := bytes "GET",
      url := bytes "http://a/", scheme := none, host := none, requestHeaders := [] },
    by decide +kernel⟩

end ClambHook.Developer
