import ClambHook.IpStack.Upload

/-!
# Downloads over the TUN stack, and what is reported of a flow

What the outgoing socket receives must go to the client in order, all of it before the client's side
is shut, and the traffic store must learn how many bytes went each way.

Bytes for which lwIP has no memory wait in `remote_pending`.  The part of the tick that hands them
over later does not report them, so that the totals are right exactly as long as no bytes that
waited are handed over.
-/

namespace ClambHook.IpStack

open CString Window Net Machine List

/-! ## What a tick reads -/

/-- The bytes that the reading loop takes from the socket, over the answers that `readLoop` gets. -/
def readBytes : Nat → List Round → Bytes
  | _, [] => []
  | attempt, r :: rs =>
    if attempt ≥ 4 ∨ r.sndbuf = 0 then []
    else
      match r.recv with
      | .interrupted => readBytes attempt rs
      | .wouldBlock | .failed => []
      | .data bs =>
        let received := bs.take (min r.sndbuf 16384)
        if received = [] ∨ r.write ≠ .ok ∨ !r.output then received
        else received ++ readBytes (attempt + 1) rs

/-- A tick moves no bytes of the flow. -/
def Flow.idle (f : Flow) : Bool :=
  f.dead || !f.descriptor || !f.client

/-- The bytes that a tick takes from the socket. -/
def tickRead (f : Flow) (t : TickFate) : Bytes :=
  if f.idle then []
  else
    match sendLoop t.sends f with
    | (_, false) => []
    | (f, true) =>
      match flushRemote { f with pending := f.pending.rewind } t.write with
      | (_, false) => []
      | (f, true) => if f.remoteEof then [] else readBytes 0 t.rounds

/-- A step, together with all that was read so far. -/
def watch (s : System × Bytes) (e : Event) : System × Bytes :=
  (step s.1 e, match e with
    | .tick t => s.2 ++ tickRead s.1.flow t
    | _ => s.2)

/-- What holds of a flow that has read some bytes, and has handed over a number of bytes without a
report. -/
structure Accounts (f : Flow) (read : Bytes) (unreported : Nat) : Prop where
  /-- What was read is with the client or waits. -/
  bytes : f.aborted = false → f.clientOut ++ f.remotePending.content = read
  /-- The client's side is shut behind the end of the stream, with nothing left to hand over. -/
  shut : f.clientShut = true → f.remoteEof = true ∧ f.remotePending.content = []
  received : f.observedReceived + unreported = f.clientOut.length
  sent : f.observedSent = f.socketSent.length

/-- No bytes that waited are handed over: there are none, or lwIP does not take them. -/
def NothingResumed (s : System × Bytes) : Event → Prop
  | .tick t => s.1.flow.idle ∨ s.1.flow.remotePending.length = 0 ∨ t.write.sndbuf = 0 ∨
      t.write.write = .mem
  | _ => True

/-! ## The parts of a tick -/

variable {f : Flow} {read : Bytes} {unreported : Nat}

theorem Accounts.abort (h : Accounts f read unreported) (read' : Bytes) :
    Accounts f.abort read' unreported :=
  ⟨fun halive ↦ Bool.noConfusion halive, h.shut, h.received, h.sent⟩

theorem sendLoop_accounts (rs : List SendResult) : ∀ {f : Flow}, Accounts f read unreported →
    Accounts (sendLoop rs f).1 read unreported ∧
      (sendLoop rs f).1.remotePending = f.remotePending ∧
      ((sendLoop rs f).2 = false → (sendLoop rs f).1.aborted = true) := by
  induction rs with
  | nil => exact fun h ↦ ⟨h, rfl, fun h ↦ by cases h⟩
  | cons r rs ih =>
    intro f h
    rw [sendLoop.eq_def]
    dsimp only
    split
    · exact ⟨h, rfl, by simp⟩
    cases r with
    | wrote n =>
      dsimp only
      split
      · exact ⟨h.abort read, rfl, fun _ ↦ rfl⟩
      · refine ih ⟨h.bytes, h.shut, h.received, ?_⟩
        simp [h.sent, Queue.length_content]
    | interrupted => exact ih h
    | wouldBlock => exact ⟨h, rfl, by simp⟩
    | failed => exact ⟨h.abort read, rfl, fun _ ↦ rfl⟩

/-- The second part of the tick gives the flow up or hands over bytes that waited, maybe none. -/
theorem flushRemote_accounts (h : Accounts f read 0) (w : WriteFate) :
    (flushRemote f w).1.aborted = true ∧ (flushRemote f w).2 = false ∨
      ∃ handed, Accounts (flushRemote f w).1 read handed ∧
        ((flushRemote f w).2 = true → (flushRemote f w).1.remotePending.content = []) ∧
        (handed = 0 ↔ f.remotePending.length = 0 ∨ w.sndbuf = 0 ∨ w.write = .mem) := by
  rw [flushRemote]
  split_ifs with hlength hsndbuf hmem herror
  · exact .inr ⟨0, h, fun _ ↦ Queue.content_eq_nil.2 hlength, by simp [hlength]⟩
  · exact .inr ⟨0, h, by simp, by simp [hsndbuf]⟩
  · exact .inr ⟨0, h, by simp, by simp [hmem]⟩
  · exact .inl ⟨rfl, rfl⟩
  refine .inr ⟨min f.remotePending.length w.sndbuf, ⟨fun halive ↦ ?_, fun hshut ↦ ?_, ?_, h.sent⟩,
    fun hall ↦ ?_, ?_⟩
  · rw [← h.bytes halive]
    simp [append_assoc]
  · exact absurd (Queue.content_eq_nil.1 (h.shut hshut).2) hlength
  · simp [← h.received, Queue.length_content]
  · have hle : f.remotePending.length ≤ w.sndbuf := by simpa using hall
    simpa [Queue.length_content] using hle
  · simp only [hlength, hsndbuf, hmem, or_self, iff_false]
    omega

theorem readLoop_accounts (rs : List Round) : ∀ (attempt : Nat) {f : Flow} {read : Bytes},
    Accounts f read unreported → f.remotePending.content = [] → f.remoteEof = false →
      Accounts (readLoop attempt rs f).1 (read ++ readBytes attempt rs) unreported := by
  induction rs with
  | nil => exact fun _ _ _ h _ _ ↦ by rwa [readBytes, append_nil]
  | cons r rs ih =>
    intro attempt f read h hnil heof
    have hopen : f.clientShut ≠ true := fun hshut ↦ absurd (h.shut hshut).1 (by simp [heof])
    rw [readLoop, readBytes]
    simp only [heof, Bool.false_eq_true, false_or]
    split
    · rwa [append_nil]
    cases r.recv with
    | interrupted => exact ih attempt h hnil heof
    | wouldBlock => rwa [append_nil]
    | failed => exact h.abort _
    | data bs =>
      dsimp only
      generalize bs.take (min r.sndbuf 16384) = received
      by_cases hend : received = []
      · subst hend
        simp only [if_true, true_or, append_nil]
        have hshut : Accounts { f with remoteEof := true } read unreported :=
          ⟨h.bytes, fun _ ↦ ⟨rfl, hnil⟩, h.received, h.sent⟩
        split
        · exact hshut.abort _
        · exact ⟨h.bytes, fun _ ↦ ⟨rfl, hnil⟩, h.received, h.sent⟩
      rw [if_neg hend]
      by_cases hmem : r.write = .mem
      · rw [if_pos hmem, if_pos (by simp [hmem])]
        split
        · exact h.abort _
        rename_i q hq
        refine ⟨fun halive ↦ ?_, fun hshut ↦ absurd hshut hopen, h.received, h.sent⟩
        rw [content_write_of_reserve hq, ← h.bytes halive, hnil]
        simp [Queue.content]
      rw [if_neg hmem]
      by_cases herror : r.write ≠ .ok ∨ (!r.output) = true
      · rw [if_pos herror]
        exact h.abort _
      rw [if_neg herror, if_neg (by simpa [hend] using herror), ← append_assoc]
      refine ih _ ⟨fun halive ↦ ?_, fun hshut ↦ absurd hshut hopen, ?_, h.sent⟩ hnil rfl
      · rw [← h.bytes halive, hnil, append_nil, append_nil]
      · rw [length_append, ← h.received, Nat.add_right_comm]

/-- A tick hands over what it reads, and reports it; what waited it hands over without a report. -/
theorem tick_accounts (h : Accounts f read 0) (t : TickFate) (halive : (tick f t).aborted = false) :
    ∃ handed, Accounts (tick f t) (read ++ tickRead f t) handed ∧
      (handed = 0 ↔ f.idle ∨ f.remotePending.length = 0 ∨ t.write.sndbuf = 0 ∨
        t.write.write = .mem) := by
  rw [tick] at halive ⊢
  rw [tickRead]
  by_cases hidle : f.idle = true
  · refine ⟨0, ?_, iff_of_true rfl (.inl hidle)⟩
    rw [if_pos hidle, append_nil]
    split_ifs with hdead hlate hlive
    · exact h
    · exact h.abort read
    · exact h
    · simp_all [Flow.idle]
  rw [or_iff_right hidle, if_neg hidle]
  simp only [Flow.idle, Bool.or_eq_true, not_or, Bool.not_eq_true] at hidle
  simp only [hidle, Bool.false_eq_true, false_and, or_self, if_false] at halive ⊢
  obtain ⟨hsend, hqueue, hfailed⟩ := sendLoop_accounts t.sends h
  rcases hs : sendLoop t.sends f with ⟨g, _ | _⟩ <;> rw [hs] at hsend hqueue hfailed halive <;>
    dsimp only at hsend hqueue hfailed halive ⊢
  · simp [hfailed rfl] at halive
  replace hsend : Accounts { g with pending := g.pending.rewind } read 0 :=
    ⟨hsend.bytes, hsend.shut, hsend.received, hsend.sent⟩
  have hflush := flushRemote_accounts hsend t.write
  rcases hf : flushRemote { g with pending := g.pending.rewind } t.write with ⟨g', flag⟩
  rw [hf] at hflush halive
  rw [hqueue] at hflush
  obtain ⟨haborted, rfl⟩ | ⟨handed, hflush, hnil, hhanded⟩ := hflush
  · cases haborted.symm.trans halive
  refine ⟨handed, ?_, hhanded⟩
  cases flag with
  | false => rwa [append_nil]
  | true =>
    have hread : Accounts (readLoop 0 t.rounds g').1
        (read ++ if g'.remoteEof then [] else readBytes 0 t.rounds) handed := by
      split
      · rename_i heof
        rw [append_nil]
        cases hrounds : t.rounds with
        | nil => exact hflush
        | cons r rs => rwa [readLoop, if_pos (.inr (.inl heof))]
      · exact readLoop_accounts t.rounds 0 hflush (hnil rfl) (Bool.eq_false_iff.2 ‹_›)
    dsimp only
    rcases hr : readLoop 0 t.rounds g' with ⟨g'', _ | _⟩ <;> rw [hr] at hread
    · exact hread
    · dsimp only [finish]
      split
      · exact ⟨hread.bytes, hread.shut, hread.received, hread.sent⟩
      · exact hread

/-! ## Runs -/

theorem Accounts.receive (h : Accounts f read unreported) (packet : Option Bytes) (alloc : Bool) :
    Accounts (tcpReceive f packet .ok alloc).1 read unreported := by
  rw [tcpReceive.eq_def]
  repeat' split
  all_goals exact ⟨h.bytes, h.shut, h.received, h.sent⟩

/-- **Downloads and totals**: along a run in which the flow is not given up, the client gets what
was read, and the totals are right, exactly as long as no bytes that waited are handed over. -/
theorem accounts_run_iff (es : List Event)
    (halive : Along watch (fun s e ↦ (step s.1 e).flow.aborted = false) ({}, []) es) :
    (∀ pre, pre <+: es → Accounts (run watch ({}, []) pre).1.flow (run watch ({}, []) pre).2 0) ↔
      Along watch NothingResumed ({}, []) es := by
  refine forall_prefix_iff (I := fun _ ↦ True) (P := fun s ↦ Accounts s.1.flow s.2 0)
    (fun s e _ h halive ↦ ⟨trivial, ?_⟩) es trivial
    ⟨fun _ ↦ rfl, fun h ↦ Bool.noConfusion h, rfl, rfl⟩ halive
  cases e with
  | tick t =>
    obtain ⟨handed, hafter, hiff⟩ := tick_accounts h t halive
    rw [NothingResumed, ← hiff]
    constructor
    · exact fun h' ↦ Nat.add_left_cancel (hafter.received.trans h'.received.symm)
    · rintro rfl
      exact hafter
  | segment | redeliver | fin =>
    refine iff_of_true ?_ trivial
    simp only [watch, step]
    repeat' split
    all_goals first | exact h | exact h.receive _ _
  | error =>
    refine iff_of_true ?_ trivial
    simp only [watch, step]
    split
    · exact ⟨fun halive ↦ Bool.noConfusion halive, h.shut, h.received, h.sent⟩
    · exact h

/-- What is read is handed over and reported at once. -/
theorem direct_accounts :
    Accounts (run watch ({}, []) [.tick { rounds := [{ recv := .data [42] }] }]).1.flow [42] 0 :=
  (accounts_run_iff [.tick { rounds := [{ recv := .data [42] }] }] (by decide)).2
    ⟨.inr (.inl rfl), trivial⟩ _ (List.prefix_refl _)

/-- lwIP has no memory for a byte in one tick, and takes it in the next: nobody reports it. -/
theorem resumed_unreported :
    ¬Accounts (run watch ({}, [])
      [.tick { rounds := [{ recv := .data [42], write := .mem }] }, .tick {}]).1.flow [42] 0 :=
  fun h ↦ absurd h.received (by decide +kernel)

end ClambHook.IpStack
