import ClambHook.TunnelStack.FlowControl

/-!
# The end of a tunnel TCP flow

When both directions of a flow have ended and its queues are empty, the tick marks the flow dead and
`ch_tunnel_flow_sweep` destroys it.  By then the local bytes are with lwIP, but the peer need not
have acknowledged them.  `ch_tunnel_flow_release_pcb` can close the connection, after which lwIP
goes on sending them, or abort it, which discards them; and `ch_tunnel_flow_destroy` always aborts.

So a flow without errors loses nothing exactly if the peer has acknowledged everything whenever a
sweep finds the flow dead (`graceful_run_iff`).  The other direction is fine: the write side of the
bridge is shut behind the last byte.
-/

namespace ClambHook.TunnelStack

open CString Window Net Machine List

/-- A flow, and how many of the bytes that lwIP was handed the peer has acknowledged. -/
structure Link where
  system : System
  acked : Nat := 0

inductive Action where
  | event (e : Event)
  /-- The peer acknowledges more bytes. -/
  | ack (n : Nat)

def Link.start (wnd : Nat) : Link :=
  { system := .start wnd }

/-- One action.  Behind an abort lwIP knows nothing of the connection any more. -/
def Link.step (l : Link) : Action → Link
  | .event e => { l with system := TunnelStack.step l.system e }
  | .ack n =>
    if l.system.flow.release = some .aborted then l
    else { l with acked := min (l.acked + n) l.system.flow.handed.length }

/-- A tick that meets no error: the calls on the bridge do not fail, there is memory for what is
read from it, and the connection is not too late. -/
structure TickFate.Fine (t : TickFate) (f : Flow) : Prop where
  send : t.send ≠ .failed
  recv : t.recv ≠ .failed
  memory : ∀ bs, t.recv = .data bs → (tunnelBufferAppend f.toRemote (bs.take 16384) t.alloc).isSome
  inTime : f.connected = true ∨ t.now - f.createdAt < 30000

/-- No error is reported. -/
def NoError (l : Link) : Action → Prop
  | .event (.connected result sockets) => result = .ok ∧ sockets = true
  | .event (.tick t) => t.Fine l.system.flow
  | .event .error => False
  | _ => True

/-- Nothing is lost: a connection is given back only when lwIP has all bytes of the local side and
the local side has all bytes of the peer, it is aborted only when the peer has acknowledged
everything, and the write side of the bridge is shut behind the last byte. -/
structure Graceful (l : Link) : Prop where
  handed : l.system.flow.release ≠ none → l.system.flow.handed = l.system.flow.accepted
  kept : l.system.flow.release = some .aborted → l.system.flow.handed.length ≤ l.acked
  released : l.system.flow.release ≠ none → l.system.flow.delivered = l.system.received
  shut : l.system.flow.bridgeShut = true → l.system.flow.delivered = l.system.received

/-- A sweep finds a dead flow only when everything is acknowledged. -/
def AckedAtSweep (l : Link) : Action → Prop
  | .event .sweep => l.system.flow.dead = true → l.system.flow.pcb = true →
      l.system.flow.handed.length ≤ l.acked
  | _ => True

/-! ## Where the bytes are -/

/-- What holds as long as no error is reported. -/
structure Whole (s : System) : Prop where
  upload : s.flow.accepted = s.flow.handed ++ s.flow.toRemote.content
  download : s.received = s.flow.delivered ++ s.flow.toLocal.content ++ s.refused.getD []
  ended : s.flow.remoteEof = true → s.finned = true ∧ s.refused = none
  shut : s.flow.bridgeShut = true → s.flow.remoteEof = true ∧ s.flow.toLocal.length = 0
  dead : s.flow.dead = true →
    s.flow.remoteEof = true ∧ s.flow.toLocal.length = 0 ∧ s.flow.toRemote.length = 0
  release : s.flow.release ≠ none → s.flow.dead = true

/-- A step that is no sweep. -/
structure Advances (s t : System) : Prop where
  whole : Whole t
  release : t.flow.release = s.flow.release
  handed : s.flow.dead = true → t.flow.handed = s.flow.handed

variable {s t : System} {wnd : Nat}

theorem not_of_eq_false {b : Bool} (h : b = false) {p : Prop} (h' : b = true) : p :=
  absurd (h.symm.trans h') Bool.false_ne_true

variable (hs : Whole s)

include hs

theorem Whole.refl : Advances s s :=
  ⟨hs, rfl, fun _ ↦ rfl⟩

/-- The peer's stream has not ended while lwIP can offer bytes. -/
theorem Whole.alive (h : s.finned = false ∨ s.refused ≠ none) :
    s.flow.remoteEof = false ∧ s.flow.dead = false := by
  have heof : s.flow.remoteEof = false := by
    refine Bool.eq_false_iff.2 fun heof ↦ ?_
    obtain ⟨hfinned, hrefused⟩ := hs.ended heof
    rcases h with h | h
    · exact not_of_eq_false h hfinned
    · exact h hrefused
  exact ⟨heof, Bool.eq_false_iff.2 fun hdead ↦ not_of_eq_false heof (hs.dead hdead).1⟩

theorem Whole.offer (heof : s.flow.remoteEof = false) (hdead : s.flow.dead = false)
    {bs received : Bytes} (rcvWnd : Nat) (alloc : Bool)
    (hbytes : received = s.flow.delivered ++ s.flow.toLocal.content ++ bs) :
    Advances s { s with
      flow := (tcpReceive { s.flow with rcvWnd := rcvWnd } (some bs) .ok alloc).1
      received := received
      refused := if (tcpReceive { s.flow with rcvWnd := rcvWnd } (some bs) .ok alloc).2 = .mem
        then some bs else none } := by
  rcases tcpReceive_cases (f := { s.flow with rcvWnd := rcvWnd }) hdead bs alloc with
    hr | ⟨q, hq, hr⟩
  · rw [hr]
    exact ⟨⟨hs.upload, hbytes, not_of_eq_false heof, hs.shut, hs.dead, hs.release⟩, rfl,
      fun _ ↦ rfl⟩
  rw [hr]
  refine ⟨⟨hs.upload, ?_, not_of_eq_false heof, fun h ↦ not_of_eq_false heof (hs.shut h).1,
    not_of_eq_false hdead, hs.release⟩, rfl, fun _ ↦ rfl⟩
  simp [hbytes, hq]

omit hs

/-! ## The tick -/

/-- A part of a tick that leaves the flow alive. -/
structure Passes (s t : System) : Prop where
  whole : Whole t
  release : t.flow.release = s.flow.release
  dead : t.flow.dead = false

theorem Whole.sendLocal (hs : Whole s) (hdead : s.flow.dead = false) {r : SendResult}
    (hr : r ≠ .failed) : Passes s { s with flow := sendLocal s.flow r } := by
  rw [sendLocal.eq_def]
  split
  case isTrue => exact ⟨hs, rfl, hdead⟩
  case isFalse hqueued =>
  cases r with
  | wrote n =>
    have hshut : ∀ {p : Prop}, s.flow.bridgeShut = true → p := fun h ↦ absurd (hs.shut h).2 hqueued
    have hbytes : s.received = s.flow.delivered ++
        s.flow.toLocal.content.take (s.flow.taken (.wrote n)) ++
        (s.flow.toLocal.advance (s.flow.taken (.wrote n))).rewind.content ++ s.refused.getD [] := by
      rw [Queue.content_rewind, Queue.content_advance, append_assoc s.flow.delivered,
        take_append_drop]
      exact hs.download
    dsimp only
    split
    all_goals exact ⟨⟨hs.upload, hbytes, hs.ended, hshut, not_of_eq_false hdead, hs.release⟩, rfl,
      hdead⟩
  | interrupted | wouldBlock => exact ⟨hs, rfl, hdead⟩
  | failed => exact absurd rfl hr

theorem toRemote_sendLocal (f : Flow) (r : SendResult) : (sendLocal f r).toRemote = f.toRemote := by
  rw [sendLocal.eq_def]
  split
  case isTrue => rfl
  case isFalse =>
  cases r with
  | wrote n =>
    dsimp only
    split <;> rfl
  | interrupted | wouldBlock | failed => rfl

include hs

theorem Whole.receiveLocal (hdead : s.flow.dead = false) {r : RecvResult} {alloc : Bool}
    (hr : r ≠ .failed)
    (hmemory : ∀ bs, r = .data bs →
      (tunnelBufferAppend s.flow.toRemote (bs.take 16384) alloc).isSome) :
    Passes s { s with flow := receiveLocal s.flow r alloc } := by
  rw [receiveLocal.eq_def]
  split
  case isTrue => exact ⟨hs, rfl, hdead⟩
  case isFalse =>
  cases r with
  | data bs =>
    dsimp only
    split
    case isTrue =>
      exact ⟨⟨hs.upload, hs.download, hs.ended, hs.shut, not_of_eq_false hdead, hs.release⟩, rfl,
        hdead⟩
    case isFalse =>
    obtain ⟨q, hq⟩ := Option.isSome_iff_exists.1 (hmemory bs rfl)
    rw [hq]
    refine ⟨⟨?_, hs.download, hs.ended, hs.shut, not_of_eq_false hdead, hs.release⟩, rfl, hdead⟩
    obtain ⟨q', hq', rfl⟩ := Option.map_eq_some_iff.1 hq
    dsimp only
    rw [hs.upload, content_write_of_reserve hq', append_assoc]
  | interrupted | wouldBlock => exact ⟨hs, rfl, hdead⟩
  | failed => exact absurd rfl hr

theorem Whole.writeRemote (hdead : s.flow.dead = false) (sndbuf : UInt16) (write : Bool) :
    Passes s { s with flow := writeRemote s.flow sndbuf write } := by
  rw [TunnelStack.writeRemote]
  dsimp only
  split_ifs
  · refine ⟨⟨?_, hs.download, hs.ended, hs.shut, not_of_eq_false hdead, hs.release⟩, rfl, hdead⟩
    dsimp only
    rw [Queue.content_rewind, Queue.content_advance, append_assoc, take_append_drop]
    exact hs.upload
  · exact ⟨hs, rfl, hdead⟩
  · exact ⟨hs, rfl, hdead⟩

theorem Whole.shutEnds (hdead : s.flow.dead = false) (shutdown : Bool) :
    Advances s { s with flow := shutEnds s.flow shutdown } := by
  rw [TunnelStack.shutEnds]
  split_ifs <;> refine ⟨⟨hs.upload, hs.download, hs.ended, ?_, ?_, ?_⟩, rfl, fun _ ↦ rfl⟩ <;>
    have := hs.shut <;> have := hs.release <;> simp_all

theorem Whole.tick {t : TickFate} (ht : t.Fine s.flow) :
    Advances s { s with flow := tick s.flow t } := by
  rw [TunnelStack.tick]
  split
  case isTrue => exact hs.refl
  case isFalse hdead =>
  rw [Bool.not_eq_true] at hdead
  split
  case isTrue hnot =>
    have hlate := ht.inTime.resolve_left (by simpa using hnot)
    rw [if_neg (UInt32.not_le.2 hlate)]
    exact hs.refl
  case isFalse =>
  have hsend := hs.sendLocal hdead ht.send
  have hreceive := hsend.whole.receiveLocal hsend.dead ht.recv
    (by rw [toRemote_sendLocal]; exact ht.memory)
  have hwrite := hreceive.whole.writeRemote hreceive.dead t.sndbuf t.write
  have hshut := hwrite.whole.shutEnds hwrite.dead t.shutdown
  exact ⟨hshut.whole, hshut.release.trans (hwrite.release.trans (hreceive.release.trans
    hsend.release)), not_of_eq_false hdead⟩

/-! ## Runs -/

theorem Whole.event {acked : Nat} {e : Event} (he : NoError ⟨s, acked⟩ (.event e))
    (hsweep : e ≠ .sweep) : Advances s (step s e) := by
  cases e with
  | connected result sockets =>
    obtain ⟨rfl, rfl⟩ := he
    rw [step]
    split
    case isFalse => exact hs.refl
    case isTrue =>
    rw [tcpConnected]
    split
    case isTrue hdead =>
      have hdead : s.flow.dead = true := by simpa using hdead
      rw [Flow.signalError]
      split <;> exact ⟨⟨hs.upload, hs.download, hs.ended, hs.shut, fun _ ↦ hs.dead hdead,
        fun _ ↦ rfl⟩, rfl, fun _ ↦ rfl⟩
    case isFalse =>
    exact ⟨⟨hs.upload, hs.download, hs.ended, hs.shut, hs.dead, hs.release⟩, rfl, fun _ ↦ rfl⟩
  | segment bs alloc =>
    rw [step]
    split
    case isFalse => exact hs.refl
    case isTrue h =>
    simp only [System.open, Bool.and_eq_true, Bool.not_eq_true', Option.isNone_iff_eq_none] at h
    obtain ⟨heof, hdead⟩ := hs.alive (.inl h.1.1.2)
    refine hs.offer heof hdead _ alloc ?_
    rw [hs.download, h.1.2, Option.getD_none, append_nil]
  | redeliver alloc =>
    rw [step]
    split
    case h_1 => exact hs.refl
    case h_2 bs hrefused =>
    split
    case isFalse => exact hs.refl
    case isTrue =>
    obtain ⟨heof, hdead⟩ := hs.alive (.inr (by simp [hrefused]))
    refine hs.offer heof hdead _ alloc ?_
    rw [hs.download, hrefused, Option.getD_some]
  | fin =>
    rw [step]
    split
    case isFalse => exact hs.refl
    case isTrue h =>
    simp only [System.open, Bool.and_eq_true, Bool.not_eq_true', Option.isNone_iff_eq_none] at h
    obtain ⟨heof, hdead⟩ := hs.alive (.inl h.1.2)
    rw [tcpReceive, if_neg (by simp [hdead]), if_neg (by simp)]
    exact ⟨⟨hs.upload, hs.download, fun _ ↦ ⟨rfl, h.2⟩, fun hshut ↦ not_of_eq_false heof
      (hs.shut hshut).1, not_of_eq_false hdead, hs.release⟩, rfl, fun _ ↦ rfl⟩
  | tick t => exact hs.tick he
  | error => exact he.elim
  | sweep => exact absurd rfl hsweep

theorem Whole.sweep : Whole (step s .sweep) ∧
    (step s .sweep).flow.handed = s.flow.handed ∧
    (step s .sweep).flow.release =
      if s.flow.dead = true ∧ s.flow.pcb = true then some .aborted else s.flow.release := by
  rw [step]
  split
  case isFalse hdead => exact ⟨hs, rfl, by rw [if_neg fun h ↦ hdead h.1]⟩
  case isTrue hdead =>
  rw [Flow.destroy, Flow.signalError, Flow.releasePcb]
  cases hpcb : s.flow.pcb <;> dsimp only <;> split <;>
    exact ⟨⟨hs.upload, hs.download, hs.ended, hs.shut, hs.dead, fun _ ↦ hdead⟩, rfl,
      by simp [hdead]⟩

omit hs

/-- Only an abort can lose something. -/
def Kept (l : Link) : Prop :=
  l.system.flow.release = some .aborted → l.system.flow.handed.length ≤ l.acked

variable {l : Link} {a : Action}

theorem Whole.step (hs : Whole l.system) (ha : NoError l a) : Whole (l.step a).system := by
  cases a with
  | ack n =>
    rw [Link.step]
    split <;> exact hs
  | event e =>
    by_cases hsweep : e = .sweep
    · rw [hsweep]
      exact hs.sweep.1
    · exact (@Whole.event l.system hs l.acked e ha hsweep).whole

/-- One action loses something only if it is the sweep of a flow with bytes on their way. -/
theorem Whole.kept_step_iff (hs : Whole l.system) (hkept : Kept l) (ha : NoError l a) :
    Kept (l.step a) ↔ AckedAtSweep l a := by
  cases a with
  | ack n =>
    rw [Link.step]
    split
    case isTrue => exact iff_of_true hkept trivial
    case isFalse hnot => exact iff_of_true (fun h ↦ absurd h hnot) trivial
  | event e =>
    by_cases hsweep : e = .sweep
    · subst hsweep
      obtain ⟨-, hhanded, hrelease⟩ := hs.sweep
      rw [Kept, Link.step, AckedAtSweep, hhanded, hrelease]
      by_cases hpcb : l.system.flow.dead = true ∧ l.system.flow.pcb = true
      · rw [if_pos hpcb]
        exact ⟨fun h _ _ ↦ h rfl, fun h _ ↦ h hpcb.1 hpcb.2⟩
      · rw [if_neg hpcb]
        exact iff_of_true hkept fun h h' ↦ absurd ⟨h, h'⟩ hpcb
    · have h := @Whole.event l.system hs l.acked e ha hsweep
      refine iff_of_true (fun hrelease ↦ ?_) ?_
      · have hrelease : l.system.flow.release = some .aborted := h.release.symm.trans hrelease
        have hdead := hs.release (by rw [hrelease]; exact Option.some_ne_none _)
        exact (congrArg List.length (h.handed hdead)).trans_le (hkept hrelease)
      · cases e <;> first | exact trivial | exact absurd rfl hsweep

theorem Whole.graceful_iff (hs : Whole l.system) : Graceful l ↔ Kept l := by
  have hall : l.system.flow.remoteEof = true → l.system.flow.toLocal.length = 0 →
      l.system.flow.delivered = l.system.received := by
    intro heof hempty
    rw [hs.download, (hs.ended heof).2, Queue.content_eq_nil.2 hempty]
    simp
  refine ⟨fun h ↦ h.kept, fun h ↦ ⟨fun hne ↦ ?_, h, fun hne ↦ ?_, fun hshut ↦ ?_⟩⟩
  · rw [hs.upload, Queue.content_eq_nil.2 (hs.dead (hs.release hne)).2.2, append_nil]
  · obtain ⟨heof, hempty, -⟩ := hs.dead (hs.release hne)
    exact hall heof hempty
  · exact hall (hs.shut hshut).1 (hs.shut hshut).2

theorem whole_start (wnd : Nat) : Whole (System.start wnd) :=
  ⟨rfl, rfl, not_of_eq_false rfl, not_of_eq_false rfl, not_of_eq_false rfl, fun h ↦ absurd rfl h⟩

/-- **Graceful close**: a run without errors loses nothing, in any state, if and only if each sweep
of it that finds the flow dead finds everything acknowledged. -/
theorem graceful_run_iff (wnd : Nat) (as : List Action)
    (h : Along Link.step NoError (.start wnd) as) :
    (∀ pre, pre <+: as → Graceful (run Link.step (.start wnd) pre)) ↔
      Along Link.step AckedAtSweep (.start wnd) as := by
  refine forall_prefix_iff (I := fun l ↦ Whole l.system) (fun l a hl hg ha ↦ ⟨hl.step ha, ?_⟩) as
    (whole_start wnd) ?_ h
  · rw [(hl.step ha).graceful_iff]
    exact hl.kept_step_iff hg.kept ha
  · refine (Whole.graceful_iff (whole_start wnd)).2 fun hrelease ↦ ?_
    cases hrelease

/-- The local side sends a byte and closes, and so does the peer, which acknowledges `n` bytes. -/
def exchange (n : Nat) : List Action :=
  [.event (.connected .ok true), .event (.tick { recv := .data [1] }), .event .fin,
    .event (.tick { recv := .data [] }), .ack n, .event .sweep]

theorem noError_exchange (n : Nat) : Along Link.step NoError (.start tcpWnd) (exchange n) := by
  refine ⟨⟨rfl, rfl⟩, ⟨by decide, by decide, ?_, .inl rfl⟩, trivial,
    ⟨by decide, by decide, ?_, .inl (by decide +kernel)⟩, trivial, trivial, trivial⟩
  · rintro bs ⟨⟩
    decide +kernel
  · rintro bs ⟨⟩
    decide +kernel

theorem acknowledged_byte_kept : Along Link.step NoError (.start tcpWnd) (exchange 1) ∧
    Graceful (run Link.step (.start tcpWnd) (exchange 1)) :=
  ⟨noError_exchange 1, (graceful_run_iff tcpWnd _ (noError_exchange 1)).2
    ⟨trivial, trivial, trivial, trivial, trivial, fun _ _ ↦ by decide +kernel, trivial⟩ _
    prefix_rfl⟩

/-- Without the acknowledgement, the byte is discarded. -/
theorem unacknowledged_byte_lost : Along Link.step NoError (.start tcpWnd) (exchange 0) ∧
    ¬ Graceful (run Link.step (.start tcpWnd) (exchange 0)) :=
  ⟨noError_exchange 0, fun h ↦ absurd (h.kept (by decide +kernel)) (by decide +kernel)⟩

end ClambHook.TunnelStack
