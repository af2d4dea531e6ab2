import ClambHook.Lib.Machine
import ClambHook.Events.Query

/-!
# Polling the event log

A client polls the log: it asks for what came after its cursor and takes the `next_sequence` of each
answer as its next cursor.  Other threads append in the meantime, also between the two moments at
which a query looks at the ring: when it copies the events, and when it reads the total.

An event that is appended between these two moments is behind the new cursor and in no answer,
unless the limit has ended the answer before.  Without such events polling loses nothing
(`lossless_iff`).
-/

namespace ClambHook.Events

open CString Machine List Json

/-! ## The client -/

/-- The filters of a client, as it puts them into its requests. -/
structure Client where
  types : Option Json := none
  connIds : Option Json := none

/-- The request of a client; the limit may change from one to the next. -/
def Client.request (c : Client) (limit : Option Json) (cursor : Nat) : Json :=
  .object ((c.types.toList.map fun v ↦ (bytes "types", v)) ++
    (c.connIds.toList.map fun v ↦ (bytes "conn_ids", v)) ++
    (limit.toList.map fun v ↦ (bytes "limit", v)) ++
    [(bytes "after_sequence", ofInt cursor)])

/-- The events that pass the client's filters. -/
def Client.wants (c : Client) (parse : Bytes → Option Json) (e : Event) : Bool :=
  eventTypeMatches (items c.types) e.type &&
    eventConnectionMatches parse (items c.connIds) e.dataJson

/-- A query between its two looks at the ring. -/
structure Pending where
  request : Request
  snapshot : List Event
  /-- The total when the snapshot was taken, and how many events were overwritten by then. -/
  seen : Nat
  overwritten : Nat

/-- An answered query. -/
structure Answer where
  after : Nat
  response : Response
  /-- The total that the query has read, and how many events were overwritten before its
  snapshot. -/
  total : Nat
  overwritten : Nat

structure System where
  ring : EventRing
  /-- Everything that was ever appended. -/
  log : List Event := []
  cursor : Nat
  pending : Option Pending := none
  answers : List Answer := []

inductive Action where
  | append (e : NewEvent)
  /-- The client sends a request and the query takes its snapshot. -/
  | ask (limit : Option Json)
  /-- The query reads the total and answers. -/
  | answer
  /-- The query fails for want of memory. -/
  | fail

def System.start (capacity : Nat) (h : 0 < capacity) (cursor : Nat) : System :=
  { ring := .create capacity h, cursor := cursor }

section Runs

variable (parse : Bytes → Option Json) (c : Client)

def step (s : System) : Action → System
  | .append e =>
    { s with ring := s.ring.append e, log := s.log ++ [e.copy (s.ring.total + 1)] }
  | .ask limit =>
    match s.pending, readRequest (c.request limit s.cursor) with
    | none, .ok req =>
      { s with
        pending := some
          { request := req
            snapshot := s.ring.snapshot
            seen := s.ring.total
            overwritten := s.ring.total - s.ring.ring.size } }
    | _, _ => s
  | .answer =>
    match s.pending with
    | none => s
    | some p =>
      let response := queryEvents parse p.snapshot s.ring.total p.request
      { s with
        cursor := response.nextSequence
        pending := none
        answers := s.answers ++ [⟨s.cursor, response, s.ring.total, p.overwritten⟩] }
  | .fail => { s with pending := none }

end Runs

/-! ## The client's requests are read as they are meant -/

/-- A query for the client `c` behind the cursor. -/
structure Request.For (req : Request) (c : Client) (cursor : Nat) : Prop where
  types : req.types = items c.types
  connIds : req.connIds = items c.connIds
  since : req.since = []
  after : req.after = some cursor
  limit : 0 < req.limit

theorem lookup_singleton (k key : Bytes) (v : Json) :
    [(k, v)].lookup key = if key = k then some v else none := by
  by_cases h : key = k
  · simp [h]
  · rw [lookup_cons, beq_eq_false_iff_ne.2 h, if_neg h]
    rfl

theorem lookup_member (o : Option Json) (k key : Bytes) :
    (o.toList.map fun v ↦ (k, v)).lookup key = if key = k then o else none := by
  cases o with
  | none => simp
  | some v => exact lookup_singleton k key v

theorem Client.objectGet_request (c : Client) (limit : Option Json) (cursor : Nat) (key : Bytes) :
    objectGet (some (c.request limit cursor)) key =
      (((if key = bytes "types" then c.types else none).or
        (if key = bytes "conn_ids" then c.connIds else none)).or
        (if key = bytes "limit" then limit else none)).or
        (if key = bytes "after_sequence" then some (ofInt cursor) else none) := by
  rw [Client.request, objectGet, lookup_append, lookup_append, lookup_append,
    lookup_member, lookup_member, lookup_member, lookup_singleton]

variable {cursor : Nat}

theorem readAfter_ofInt {after : Option Nat}
    (h : readAfter (some (ofInt cursor)) = .ok after) : after = some cursor := by
  rw [readAfter, if_neg (by simp), ofInt, int64Value] at h
  by_cases hrange : longMin ≤ (cursor : Int) ∧ (cursor : Int) ≤ longMax
  · rw [if_pos hrange] at h
    simpa using h.symm
  · rw [if_neg hrange] at h
    cases h

theorem pos_of_readLimit {value : Option Json} {limit : Nat} (h : readLimit value = .ok limit) :
    0 < limit := by
  rw [readLimit] at h
  split at h
  · cases h
    decide
  split at h
  · split at h
    · cases h
    · cases h
      omega
  · cases h

theorem Request.For.of_readRequest {c : Client} {limit : Option Json} {req : Request}
    (h : readRequest (c.request limit cursor) = .ok req) : req.For c cursor := by
  rw [readRequest, if_neg (by simp [Client.request, isObject])] at h
  simp +decide only [c.objectGet_request, if_true, if_false, Option.or_none, Option.none_or] at h
  split at h
  · cases h
  cases ha : readAfter (some (ofInt cursor)) with
  | error => rw [ha] at h; cases h
  | ok after =>
    cases hl : readLimit limit with
    | error => rw [ha, hl] at h; cases h
    | ok l =>
      rw [ha, hl] at h
      cases h
      exact ⟨rfl, rfl, rfl, readAfter_ofInt ha, pos_of_readLimit hl⟩

/-! ## What holds in every state -/

section Invariant

variable {parse : Bytes → Option Json} {c : Client}

/-- The query in progress asks for the client and has the part of the log that was in the ring. -/
structure Pending.Valid (p : Pending) (c : Client) (s : System) : Prop where
  request : p.request.For c s.cursor
  seen : p.seen ≤ s.log.length
  overwritten : p.overwritten ≤ p.seen
  snapshot : p.snapshot = (s.log.take p.seen).drop p.overwritten
  empty : p.snapshot = [] → p.seen = 0

/-- What holds in every run.  The ring is the end of the log.  Since the first answer the cursor has
been inside the log, and what was returned is not behind it; the intervals of the answers leave
nothing out between the first cursor and the last. -/
structure Inv (parse : Bytes → Option Json) (c : Client) (start : Nat) (s : System) : Prop where
  numbered : Numbered s.log
  holds : s.ring.ring.Holds s.log
  total : s.ring.total = s.log.length
  pending : ∀ p, s.pending = some p → p.Valid c s
  inside : s.answers ≠ [] → s.cursor ≤ s.log.length
  next : ∀ a ∈ s.answers, a.response.nextSequence ≤ s.log.length
  returned : ∀ a ∈ s.answers, ∀ e ∈ a.response.events,
    e ∈ s.log ∧ c.wants parse e = true ∧ e.sequence ≤ s.cursor
  once : (s.answers.flatMap fun a ↦ a.response.events).Nodup
  intervals : ∀ k, start < k → k ≤ s.cursor →
    ∃ a ∈ s.answers, a.after < k ∧ k ≤ a.response.nextSequence
  progress : ∀ a ∈ s.answers,
    a.response.nextSequence = a.total ∨ a.after < a.response.nextSequence

variable {capacity : Nat}

theorem inv_start (h : 0 < capacity) (start : Nat) :
    Inv parse c start (.start capacity h start) where
  numbered := numbered_nil
  holds := RingBuffer.holds_create capacity _ h
  total := rfl
  pending := nofun
  inside := fun h ↦ absurd rfl h
  next := nofun
  returned := nofun
  once := nodup_nil
  intervals := fun _ h₁ h₂ ↦ absurd (Nat.lt_of_lt_of_le h₁ h₂) (Nat.lt_irrefl _)
  progress := nofun

variable {start : Nat} {s : System}

variable (hs : Inv parse c start s)

include hs

theorem Inv.append (e : NewEvent) :
    Inv parse c start (step parse c s (.append e)) where
  numbered := hs.numbered.concat (by rw [← hs.total]; rfl)
  holds := hs.holds.push _
  total := by
    rw [step, length_append, ← hs.total]
    rfl
  pending := by
    intro p hp
    have hv := hs.pending p hp
    refine ⟨hv.request, ?_, hv.overwritten, ?_, hv.empty⟩
    · exact Nat.le_trans hv.seen (by simp [step])
    · rw [step, take_append_of_le_length hv.seen]
      exact hv.snapshot
  inside h := Nat.le_trans (hs.inside h) (by simp [step])
  next a ha := Nat.le_trans (hs.next a ha) (by simp [step])
  returned a ha e he := by
    obtain ⟨hlog, h⟩ := hs.returned a ha e he
    exact ⟨mem_append_left _ hlog, h⟩
  once := hs.once
  intervals := hs.intervals
  progress := hs.progress

theorem Inv.ask (limit : Option Json) :
    Inv parse c start (step parse c s (.ask limit)) := by
  rw [step]
  split
  · rename_i req _ hreq
    have hsize := hs.holds.size_eq
    have hlost : s.ring.total - s.ring.ring.size = s.log.length - s.ring.ring.capacity := by
      rw [hs.total, hsize]
      omega
    refine { hs with pending := ?_ }
    rintro p ⟨⟩
    refine ⟨.of_readRequest hreq, Nat.le_of_eq hs.total, Nat.sub_le _ _, ?_, fun hempty ↦ ?_⟩
    · dsimp only
      rw [hlost, hs.total, take_length]
      exact hs.holds
    · have hzero : s.ring.ring.size = 0 := by
        rw [← RingBuffer.length_toList]
        exact length_eq_zero_iff.2 hempty
      have := s.ring.ring.capacity_pos
      dsimp only
      rw [hs.total]
      omega
  · exact hs

omit hs

/-! ## Answers -/

variable {p : Pending}

/-- The snapshot holds the events that were appended before it and not overwritten. -/
theorem Pending.Valid.mem_snapshot (hp : p.Valid c s)
    (hs : Numbered s.log) {e : Event} :
    e ∈ p.snapshot ↔ e ∈ s.log ∧ p.overwritten < e.sequence ∧ e.sequence ≤ p.seen := by
  rw [hp.snapshot, (hs.take p.seen).mem_drop, hs.mem_take]
  tauto

/-- A snapshot that starts at the cursor misses nothing behind it. -/
theorem Pending.Valid.overwritten_le (hp : p.Valid c s)
    (hs : Numbered s.log) {after : Nat} (h : sequenceComplete p.snapshot (some after) = true) :
    p.overwritten ≤ after := by
  cases hsnapshot : p.snapshot with
  | nil =>
    have := hp.empty hsnapshot
    have := hp.overwritten
    omega
  | cons e es =>
    have he := (hp.mem_snapshot hs).1 (hsnapshot ▸ mem_cons_self : e ∈ p.snapshot)
    rw [hsnapshot, sequenceComplete] at h
    simp only [gt_iff_lt, Bool.not_eq_true', decide_eq_false_iff_not] at h
    omega

theorem Request.For.asksFor_eq {req : Request} (h : req.For c cursor) :
    req.asksFor parse cursor = fun e ↦ decide (cursor < e.sequence) && c.wants parse e := by
  funext e
  rw [Request.asksFor, Request.accepts, h.types, h.connIds, Client.wants]

/-- The answer to the query `p`. -/
def System.respond (parse : Bytes → Option Json) (s : System) (p : Pending) : Answer :=
  ⟨s.cursor, queryEvents parse p.snapshot s.ring.total p.request, s.ring.total, p.overwritten⟩

/-- Does the limit end the answer to the query `p`? -/
def Pending.Full (p : Pending) (parse : Bytes → Option Json) (c : Client) (cursor : Nat) : Prop :=
  p.request.limit <
    (p.snapshot.filter fun e ↦ decide (cursor < e.sequence) && c.wants parse e).length

/-- What an answer has to do with the log. -/
structure Answer.Spec (parse : Bytes → Option Json) (c : Client) (s : System) (p : Pending)
    (a : Answer) : Prop where
  mem_events : ∀ e, e ∈ a.response.events ↔
    e ∈ p.snapshot ∧ c.wants parse e = true ∧ s.cursor < e.sequence ∧
      e.sequence ≤ a.response.nextSequence
  nodup : a.response.events.Nodup
  complete : a.response.complete = true → p.overwritten ≤ s.cursor
  next : (¬ p.Full parse c s.cursor ∧ a.response.nextSequence = s.ring.total) ∨
    (p.Full parse c s.cursor ∧ s.cursor < a.response.nextSequence ∧
      a.response.nextSequence < p.seen)

theorem Inv.respond (hs : Inv parse c start s)
    (hp : p.Valid c s) : (s.respond parse p).Spec parse c s p := by
  have hmem := fun e ↦ hp.mem_snapshot hs.numbered (e := e)
  have hsorted : p.snapshot.Pairwise fun e e' ↦ e.sequence < e'.sequence := by
    rw [hp.snapshot]
    exact ((hs.numbered.take p.seen).pairwise).sublist (drop_sublist _ _)
  have htotal : ∀ e ∈ p.snapshot, e.sequence ≤ s.ring.total := fun e he ↦
    hs.total ▸ (hs.numbered.le_length ((hmem e).1 he).1).2
  obtain ⟨events, complete, next, hquery, hevents, hcomplete, hnext⟩ :=
    queryEvents_spec parse hp.request.after hp.request.since hp.request.limit hsorted
      htotal
  rw [hp.request.asksFor_eq] at hevents hnext
  have hanswer : s.respond parse p = ⟨s.cursor, ⟨events, complete, next⟩, s.ring.total,
    p.overwritten⟩ := by rw [System.respond, hquery]
  rw [hanswer]
  refine ⟨fun e ↦ ?_, ?_, fun h ↦ ?_, ?_⟩
  · dsimp only
    rw [hevents, mem_filter]
    simp only [Bool.and_eq_true, decide_eq_true_eq]
    tauto
  · dsimp only
    rw [hevents]
    exact (hsorted.imp fun h he ↦ by simp [he] at h).filter _
  · exact hp.overwritten_le hs.numbered (hcomplete h)
  rcases hnext with ⟨hcount, hnext⟩ | ⟨hcount, hlt, e, he, hbehind⟩
  · exact .inl ⟨Nat.not_lt.2 hcount, hnext⟩
  · have := ((hmem e).1 he).2.2
    exact .inr ⟨hcount, hlt, by dsimp only; omega⟩

theorem step_answer (hp : s.pending = some p) :
    step parse c s .answer = { s with
      cursor := (s.respond parse p).response.nextSequence
      pending := none
      answers := s.answers ++ [s.respond parse p] } := by
  rw [step, hp]
  rfl

include hs

theorem Answer.Spec.next_le (hp : p.Valid c s) {a : Answer} (ha : a.Spec parse c s p) :
    a.response.nextSequence ≤ s.log.length := by
  have := hp.seen
  have := hs.total
  rcases ha.next with ⟨-, h⟩ | ⟨-, -, h⟩ <;> omega

/-- The cursor does not move back, except when it was beyond the log before the first answer. -/
theorem Answer.Spec.cursor_le {a : Answer} (ha : a.Spec parse c s p) (hanswers : s.answers ≠ []) :
    s.cursor ≤ a.response.nextSequence := by
  have := hs.inside hanswers
  have := hs.total
  rcases ha.next with ⟨-, h⟩ | ⟨-, h, -⟩ <;> omega

omit hs

theorem mem_concat {α : Type*} {a b : α} {l : List α} : a ∈ l ++ [b] ↔ a ∈ l ∨ a = b := by
  rw [mem_append, mem_singleton]

include hs

theorem Inv.answer (hp : s.pending = some p) : Inv parse c start (step parse c s .answer) := by
  have hv := hs.pending p hp
  have ha := hs.respond hv
  have hle := ha.next_le hs hv
  rw [step_answer hp]
  refine ⟨hs.numbered, hs.holds, hs.total, nofun, fun _ ↦ hle, ?_, ?_, ?_, ?_, ?_⟩
  · intro a hmem
    rcases mem_concat.1 hmem with h | rfl
    · exact hs.next a h
    · exact hle
  · intro a hmem e he
    rcases mem_concat.1 hmem with h | rfl
    · obtain ⟨hlog, hwants, hcursor⟩ := hs.returned a h e he
      exact ⟨hlog, hwants, Nat.le_trans hcursor (ha.cursor_le hs (ne_nil_of_mem h))⟩
    · obtain ⟨hsnapshot, hwants, -, hnext⟩ := (ha.mem_events e).1 he
      exact ⟨((hv.mem_snapshot hs.numbered).1 hsnapshot).1, hwants, hnext⟩
  · rw [flatMap_append, flatMap_singleton]
    refine nodup_append.2 ⟨hs.once, ha.nodup, fun e he e' he' heq ↦ ?_⟩
    -- What was returned before is not behind the cursor.
    obtain ⟨a, hmem, he⟩ := mem_flatMap.1 he
    have hbefore := (hs.returned a hmem e he).2.2
    have hbehind := ((ha.mem_events e').1 he').2.2.1
    rw [heq] at hbefore
    omega
  · intro k hstart hk
    rcases Nat.lt_or_ge s.cursor k with h | h
    · exact ⟨_, mem_concat_self, h, hk⟩
    · obtain ⟨a, hmem, hinterval⟩ := hs.intervals k hstart h
      exact ⟨a, mem_append_left _ hmem, hinterval⟩
  · intro a hmem
    rcases mem_concat.1 hmem with h | rfl
    · exact hs.progress a h
    · rcases ha.next with ⟨-, h⟩ | ⟨-, h, -⟩
      · exact .inl h
      · exact .inr h

theorem inv_step (x : Action) :
    Inv parse c start (step parse c s x) := by
  cases x with
  | append e => exact hs.append e
  | ask limit => exact hs.ask limit
  | answer =>
    cases hp : s.pending with
    | none => rw [step, hp]; exact hs
    | some p => exact hs.answer hp
  | fail => exact { hs with pending := nofun }

/-! ## Runs -/

/-- The query that answers finds no event of the client appended since its snapshot, unless the
limit ends its answer. -/
def NoLateEvent (parse : Bytes → Option Json) (c : Client) (s : System) : Action → Prop
  | .answer => ∀ p, s.pending = some p → p.Full parse c s.cursor ∨
      ∀ e ∈ s.log.drop p.seen, c.wants parse e = true → e.sequence ≤ s.cursor
  | _ => True

/-- The cursor of no answer has moved past an event of the client that was not returned, unless the
event was overwritten and the answer says so. -/
def NonePassed (parse : Bytes → Option Json) (c : Client) (s : System) : Prop :=
  ∀ a ∈ s.answers, ∀ e ∈ s.log, c.wants parse e = true → a.after < e.sequence →
    e.sequence ≤ a.response.nextSequence →
    e ∈ a.response.events ∨ (a.response.complete = false ∧ e.sequence ≤ a.overwritten)

theorem nonePassed_step (h : NonePassed parse c s) (x : Action) (hx : NoLateEvent parse c s x) :
    NonePassed parse c (step parse c s x) := by
  cases x with
  | append e =>
    intro a ha e' he' hwants hafter hnext
    rcases mem_concat.1 he' with he' | rfl
    · exact h a ha e' he' hwants hafter hnext
    have := hs.next a ha
    have := hs.total
    rw [NewEvent.copy] at hnext
    dsimp only at hnext
    omega
  | ask limit =>
    rw [step]
    split <;> exact h
  | answer =>
    cases hp : s.pending with
    | none => rw [step, hp]; exact h
    | some p =>
      have hv := hs.pending p hp
      have ha := hs.respond hv
      rw [step_answer hp]
      intro a hmem e he hwants hafter hnext
      rcases mem_concat.1 hmem with h' | rfl
      · exact h a h' e he hwants hafter hnext
      by_cases hlost : e.sequence ≤ p.overwritten
      · refine .inr ⟨Bool.eq_false_iff.2 fun hcomplete ↦ ?_, hlost⟩
        exact absurd (Nat.lt_of_lt_of_le hafter hlost) (Nat.not_lt.2 (ha.complete hcomplete))
      -- The event was there at the snapshot: later ones are behind `next_sequence`.
      have hseen : e.sequence ≤ p.seen := by
        rcases ha.next with ⟨hfull, -⟩ | ⟨-, -, hseen⟩
        · refine Nat.not_lt.1 fun hlate ↦ ?_
          have hmem := (hs.numbered.mem_drop).2 ⟨he, hlate⟩
          have := ((hx p hp).resolve_left hfull) e hmem hwants
          exact absurd hafter (Nat.not_lt.2 this)
        · omega
      have hsnapshot := (hv.mem_snapshot hs.numbered).2 ⟨he, by omega, hseen⟩
      exact .inl ((ha.mem_events e).2 ⟨hsnapshot, hwants, hafter, hnext⟩)
  | fail => exact h

/-- An answer that passes a late event leaves it out. -/
theorem NoLateEvent.of_nonePassed {x : Action} (h : NonePassed parse c (step parse c s x)) :
    NoLateEvent parse c s x := by
  cases x with
  | answer =>
    intro p hp
    refine or_iff_not_imp_left.2 fun hfull e he hwants ↦ Nat.not_lt.1 fun hafter ↦ ?_
    have hv := hs.pending p hp
    have ha := hs.respond hv
    obtain ⟨hlog, hlate⟩ := hs.numbered.mem_drop.1 he
    have hnext := (ha.next.resolve_right fun h ↦ hfull h.1).2
    have hle := (hs.numbered.le_length hlog).2
    rw [step_answer hp] at h
    rcases h _ mem_concat_self e hlog hwants hafter (by rw [hnext, hs.total]; exact hle) with
      h | ⟨-, h⟩
    · have := ((hv.mem_snapshot hs.numbered).1 ((ha.mem_events e).1 h).1).2.2
      omega
    · have := hv.overwritten
      have : e.sequence ≤ p.overwritten := h
      omega
  | append | ask | fail => trivial

/-- Polling from the cursor `start` loses nothing: every event of the client up to the cursor is in
an answer, or an answer that passed it reports that it was overwritten; no event is returned twice,
only the client's events are, and no cursor passes one that was not returned.  Each answer reaches
the total or moves the cursor. -/
structure Lossless (parse : Bytes → Option Json) (c : Client) (start : Nat) (s : System) :
    Prop where
  covered : ∀ e ∈ s.log, c.wants parse e = true → start < e.sequence → e.sequence ≤ s.cursor →
    (∃ a ∈ s.answers, e ∈ a.response.events) ∨
      ∃ a ∈ s.answers, a.after < e.sequence ∧ e.sequence ≤ a.response.nextSequence ∧
        a.response.complete = false ∧ e.sequence ≤ a.overwritten
  once : (s.answers.flatMap fun a ↦ a.response.events).Nodup
  returned : ∀ a ∈ s.answers, ∀ e ∈ a.response.events,
    e ∈ s.log ∧ c.wants parse e = true ∧ e.sequence ≤ s.cursor
  passed : NonePassed parse c s
  progress : ∀ a ∈ s.answers,
    a.response.nextSequence = a.total ∨ a.after < a.response.nextSequence

theorem Inv.lossless_iff :
    Lossless parse c start s ↔ NonePassed parse c s := by
  refine ⟨fun h ↦ h.passed, fun h ↦ ⟨fun e he hwants hstart hcursor ↦ ?_, hs.once, hs.returned, h,
    hs.progress⟩⟩
  obtain ⟨a, ha, hafter, hnext⟩ := hs.intervals e.sequence hstart hcursor
  rcases h a ha e he hwants hafter hnext with h | ⟨hcomplete, hlost⟩
  · exact .inl ⟨a, ha, h⟩
  · exact .inr ⟨a, ha, hafter, hnext, hcomplete, hlost⟩

omit hs

variable (parse c)

/-- **Polling**: whatever the filters, the limits, the size of the ring and the interleaving with
appends, a client that follows `next_sequence` loses nothing in any state of a run if and only if,
in every query of the run, no event of the client is appended between the two looks at the ring, or
the limit ends the answer before. -/
theorem lossless_run_iff (spare start : Nat) (xs : List Action) :
    (∀ pre, pre <+: xs →
        Lossless parse c start
          (run (step parse c) (.start (spare + 1) (Nat.succ_pos spare) start) pre)) ↔
      Along (step parse c) (NoLateEvent parse c)
        (.start (spare + 1) (Nat.succ_pos spare) start) xs := by
  have hstart := @inv_start parse c (spare + 1) (Nat.succ_pos spare) start
  refine forall_prefix_iff (I := Inv parse c start) (fun s x hs h _ ↦ ⟨inv_step hs x, ?_⟩) xs hstart
    (hstart.lossless_iff.2 nofun) (along_true xs)
  rw [(inv_step hs x).lossless_iff]
  exact ⟨.of_nonePassed hs, nonePassed_step hs h.passed x⟩

end Invariant

/-- A client without filters asks in an empty log; an event is appended between the snapshot and the
total, and the answer, complete and without events, puts the cursor behind it. -/
theorem late_event_lost :
    ¬ Lossless (fun _ ↦ none) {} 0
      (run (step (fun _ ↦ none) {}) (.start 4 (by decide) 0) [.ask none, .append {}, .answer]) := by
  intro h
  have hanswers : (run (step (fun _ ↦ none) {}) (.start 4 (by decide) 0)
      [.ask none, .append {}, .answer]).answers = [⟨0, ⟨[], true, 1⟩, 1, 0⟩] := rfl
  have hlog : (run (step (fun _ ↦ none) {}) (.start 4 (by decide) 0)
      [.ask none, .append {}, .answer]).log = [NewEvent.copy {} 1] := rfl
  have hpassed := h.passed
  rw [NonePassed, hanswers, hlog] at hpassed
  rcases hpassed _ mem_cons_self _ mem_cons_self rfl (by decide) (by decide) with h | h
  · cases h
  · cases h.1

end ClambHook.Events
