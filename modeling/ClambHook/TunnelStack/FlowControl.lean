import ClambHook.Lib.Machine
import ClambHook.TunnelStack.TcpFlow

/-!
# Flow control of tunnel TCP flows

lwIP takes no more from the peer than its receive window, and the window grows again only by what
the flow gives back with `tcp_recved`.  The flow should give back exactly what it has delivered to
the bridge; then the window is back at its initial size when everything is delivered.

`tcp_recved` takes 16 bits and the tick cuts the number of bytes to them.  `Delivers` says what an
event does to the bytes on their way to the bridge, with the cut in it; credit and delivered bytes
agree as long as no `send` takes `2 ^ 16` bytes or more at once.  The window of lwIP, `TCP_WND`,
just allows `2 ^ 16` bytes in the queue.
-/

namespace ClambHook.TunnelStack

open CString Window Net Machine List

/-! ## What a tick delivers -/

/-- From `f` to `g`, the first `n` bytes of the queue went to the bridge. -/
structure Delivers (f g : Flow) (n : Nat) : Prop where
  le : n ≤ f.toLocal.length
  delivered : g.delivered = f.delivered ++ f.toLocal.content.take n
  content : g.toLocal.content = f.toLocal.content.drop n
  credited : g.credited = f.credited + n % 2 ^ 16
  rcvWnd : g.rcvWnd = f.rcvWnd + n % 2 ^ 16
  pcb : g.dead = false → g.pcb = f.pcb
  dead : g.dead = false → f.dead = false

variable {f g : Flow} {n : Nat}

theorem Delivers.length_delivered (h : Delivers f g n) :
    g.delivered.length = f.delivered.length + n := by
  rw [h.delivered, length_append, length_take, Queue.length_content, Nat.min_eq_left h.le]

/-- Changes to the other direction and to the marks at the ends deliver nothing. -/
theorem delivers_zero (h₁ : g.toLocal = f.toLocal) (h₂ : g.delivered = f.delivered)
    (h₃ : g.credited = f.credited) (h₄ : g.rcvWnd = f.rcvWnd)
    (h₅ : (g.pcb = f.pcb ∧ g.dead = f.dead) ∨ g.dead = true) : Delivers f g 0 := by
  have h₆ : g.dead = false → g.pcb = f.pcb ∧ g.dead = f.dead := fun h ↦
    h₅.resolve_right (by simp [h])
  exact ⟨Nat.zero_le _, by simp [h₂], by simp [h₁], h₃, h₄, fun h ↦ (h₆ h).1,
    fun h ↦ (h₆ h).2 ▸ h⟩

theorem Delivers.refl (f : Flow) : Delivers f f 0 :=
  delivers_zero rfl rfl rfl rfl (.inl ⟨rfl, rfl⟩)

theorem Delivers.trans_zero {h : Flow} (hfg : Delivers f g n)
    (hgh : Delivers g h 0) : Delivers f h n := by
  refine ⟨hfg.le, ?_, ?_, hgh.credited.trans hfg.credited, hgh.rcvWnd.trans hfg.rcvWnd,
    fun h ↦ (hgh.pcb h).trans (hfg.pcb (hgh.dead h)), fun h ↦ hfg.dead (hgh.dead h)⟩
  · rw [hgh.delivered, hfg.delivered, take_zero, append_nil]
  · rw [hgh.content, hfg.content, drop_zero]

theorem signalError_delivers (f : Flow) (message : String) :
    Delivers f { f.signalError message with dead := true } 0 := by
  rw [Flow.signalError]
  split <;> exact delivers_zero rfl rfl rfl rfl (.inr rfl)

theorem sendLocal_delivers (hpcb : f.pcb = true) (r : SendResult) :
    Delivers f (sendLocal f r) (f.taken r) := by
  rw [sendLocal.eq_def]
  split
  · rename_i h
    have hzero : f.taken r = 0 := by cases r <;> simp [Flow.taken, h]
    exact hzero ▸ .refl f
  · cases r with
    | wrote n =>
      dsimp only
      refine ⟨Nat.min_le_right _ _, rfl, ?_, ?_, ?_, fun _ ↦ rfl, id⟩
      all_goals simp [Flow.tcpRecved]
    | interrupted | wouldBlock => exact .refl f
    | failed => exact delivers_zero rfl rfl rfl rfl (.inr rfl)

theorem receiveLocal_delivers (f : Flow) (r : RecvResult) (alloc : Bool) :
    Delivers f (receiveLocal f r alloc) 0 := by
  rw [receiveLocal.eq_def]
  split
  · exact .refl f
  cases r with
  | data bs =>
    dsimp only
    split
    · exact delivers_zero rfl rfl rfl rfl (.inl ⟨rfl, rfl⟩)
    · split
      · exact delivers_zero rfl rfl rfl rfl (.inr rfl)
      · exact delivers_zero rfl rfl rfl rfl (.inl ⟨rfl, rfl⟩)
  | interrupted | wouldBlock => exact .refl f
  | failed => exact delivers_zero rfl rfl rfl rfl (.inr rfl)

theorem writeRemote_delivers (f : Flow) (sndbuf : UInt16) (write : Bool) :
    Delivers f (writeRemote f sndbuf write) 0 := by
  rw [writeRemote]
  dsimp only
  split_ifs <;> exact delivers_zero rfl rfl rfl rfl (.inl ⟨rfl, rfl⟩)

theorem shutEnds_delivers (f : Flow) (shutdown : Bool) : Delivers f (shutEnds f shutdown) 0 := by
  rw [shutEnds]
  split_ifs <;> exact delivers_zero rfl rfl rfl rfl (by simp)

/-- The number of bytes that a tick sends on the bridge. -/
def Flow.sends (f : Flow) (t : TickFate) : Nat :=
  if f.dead ∨ !f.connected then 0 else f.taken t.send

theorem tick_delivers (hpcb : f.dead = false → f.pcb = true) (t : TickFate) :
    Delivers f (tick f t) (f.sends t) := by
  rw [tick]
  by_cases hdead : f.dead = true
  · rw [if_pos hdead, Flow.sends, if_pos (.inl hdead)]
    exact .refl f
  rw [if_neg hdead]
  by_cases hconnected : f.connected = true
  · rw [if_neg (by simp [hconnected]), Flow.sends, if_neg (by simp [hdead, hconnected])]
    have hsend := sendLocal_delivers (hpcb (Bool.eq_false_iff.2 hdead)) t.send
    exact ((hsend.trans_zero (receiveLocal_delivers _ _ _)).trans_zero
      (writeRemote_delivers _ _ _)).trans_zero (shutEnds_delivers _ _)
  · have hzero : f.sends t = 0 := if_pos (.inr (by simp [hconnected]))
    rw [if_pos (by simp [hconnected]), hzero]
    split
    · exact signalError_delivers f _
    · exact .refl f

/-! ## Where the peer's bytes are -/

/-- What holds in every state of a flow that started with the window `wnd`: the window is what
credit has brought back, and a live flow has the peer's bytes delivered, queued, or refused and kept
by lwIP. -/
structure Inv (wnd : Nat) (s : System) : Prop where
  pcb : s.flow.dead = false → s.flow.pcb = true
  window : s.flow.rcvWnd + s.received.length = wnd + s.flow.credited
  bytes : s.flow.dead = false →
    s.received = s.flow.delivered ++ s.flow.toLocal.content ++ s.refused.getD []
  credited : s.flow.credited ≤ s.flow.delivered.length

theorem inv_start (wnd : Nat) : Inv wnd (.start wnd) :=
  ⟨fun _ ↦ rfl, rfl, fun _ ↦ rfl, Nat.le_refl _⟩

/-- Bytes offered to a live flow are refused or queued. -/
theorem tcpReceive_cases (hdead : f.dead = false) (bs : Bytes) (alloc : Bool) :
    tcpReceive f (some bs) .ok alloc = (f, .mem) ∨
      ∃ q : Queue UInt8, q.content = f.toLocal.content ++ bs ∧
        tcpReceive f (some bs) .ok alloc = ({ f with toLocal := q }, .ok) := by
  rw [tcpReceive, if_neg (by simp [hdead]), if_neg (by simp)]
  split
  · exact .inl rfl
  cases hq : tunnelBufferReserve f.toLocal bs.length alloc with
  | none => exact .inl rfl
  | some q =>
    exact .inr ⟨q.write bs, content_write_of_reserve hq, rfl⟩

/-- The step from `s` to `t` delivers `n` bytes, and gives credit for them. -/
structure Sends (s t : System) (n : Nat) : Prop where
  credited : t.flow.credited = s.flow.credited + n % 2 ^ 16
  delivered : t.flow.delivered.length = s.flow.delivered.length + n

variable {wnd : Nat} {s : System}

/-- Offering bytes of the peer that are nowhere else. -/
theorem Inv.offer {t : System} (hs : Inv wnd s) {bs received : Bytes} {rcvWnd : Nat}
    (alloc : Bool) (hwindow : rcvWnd + received.length = wnd + s.flow.credited)
    (hbytes : s.flow.dead = false →
      received = s.flow.delivered ++ s.flow.toLocal.content ++ bs)
    (ht : t = { s with
      flow := (tcpReceive { s.flow with rcvWnd := rcvWnd } (some bs) .ok alloc).1
      received := received
      refused := if (tcpReceive { s.flow with rcvWnd := rcvWnd } (some bs) .ok alloc).2 = .mem
        then some bs else none }) : Inv wnd t ∧ Sends s t 0 := by
  subst ht
  cases hdead : s.flow.dead with
  | true =>
    rw [tcpReceive, if_pos (by exact hdead)]
    exact ⟨⟨hs.pcb, hwindow, fun h ↦ by simp [hdead] at h, hs.credited⟩, rfl, rfl⟩
  | false =>
    rcases tcpReceive_cases (f := { s.flow with rcvWnd := rcvWnd }) hdead bs alloc with
      hr | ⟨q, hq, hr⟩
    · rw [hr]
      exact ⟨⟨hs.pcb, hwindow, hbytes, hs.credited⟩, rfl, rfl⟩
    · rw [hr]
      refine ⟨⟨hs.pcb, hwindow, fun _ ↦ ?_, hs.credited⟩, rfl, rfl⟩
      simp [hbytes hdead, hq]

/-- A tick, or anything else that only takes bytes out of the queue. -/
theorem Inv.delivers (hs : Inv wnd s)
    (hg : Delivers s.flow g n) :
    Inv wnd { s with flow := g } ∧ Sends s { s with flow := g } n := by
  refine ⟨⟨fun h ↦ (hg.pcb h).trans (hs.pcb (hg.dead h)), ?_, fun h ↦ ?_, ?_⟩, hg.credited,
    hg.length_delivered⟩
  · have := hs.window
    dsimp only
    rw [hg.rcvWnd, hg.credited]
    omega
  · dsimp only
    rw [hs.bytes (hg.dead h), hg.delivered, hg.content, append_assoc _ (List.take _ _),
      take_append_drop]
  · have := hs.credited
    have := Nat.mod_le n (2 ^ 16)
    dsimp only
    rw [hg.credited, hg.length_delivered]
    omega

/-! ## Runs -/

/-- The number of bytes that an event sends on the bridge. -/
def sent (s : System) : Event → Nat
  | .tick t => s.flow.sends t
  | _ => 0

theorem tcpConnected_delivers (f : Flow) (result : Err) (sockets : Bool) :
    Delivers f (tcpConnected f result sockets) 0 := by
  rw [tcpConnected]
  split_ifs
  · exact signalError_delivers f _
  · exact signalError_delivers f _
  · exact delivers_zero rfl rfl rfl rfl (.inl ⟨rfl, rfl⟩)

theorem tcpError_delivers (f : Flow) : Delivers f (tcpError f) 0 := by
  rw [tcpError, Flow.signalError]
  split <;> exact delivers_zero rfl rfl rfl rfl (.inr rfl)

theorem destroy_delivers (hdead : f.dead = true) : Delivers f f.destroy 0 := by
  rw [Flow.destroy, Flow.signalError, Flow.releasePcb]
  split_ifs <;> split <;> exact delivers_zero rfl rfl rfl rfl (.inr hdead)

/-- One event keeps the invariant. -/
theorem inv_step (hs : Inv wnd s) (e : Event) :
    Inv wnd (step s e) ∧ Sends s (step s e) (sent s e) := by
  have hstill : Inv wnd s ∧ Sends s s 0 := ⟨hs, rfl, rfl⟩
  cases e with
  | connected result sockets =>
    rw [step]
    split
    · exact hs.delivers (tcpConnected_delivers _ _ _)
    · exact hstill
  | segment bs alloc =>
    rw [step]
    split
    · rename_i h
      simp only [System.open, Bool.and_eq_true, Option.isNone_iff_eq_none] at h
      refine hs.offer alloc ?_ (fun hdead ↦ ?_) rfl
      · have := hs.window
        rw [length_append]
        omega
      · rw [hs.bytes hdead, h.1.2]
        simp
    · exact hstill
  | redeliver alloc =>
    rw [step]
    split
    · exact hstill
    rename_i bs hrefused
    split
    · refine hs.offer alloc hs.window (fun hdead ↦ ?_) rfl
      rw [hs.bytes hdead, hrefused]
      rfl
    · exact hstill
  | fin =>
    rw [step]
    split
    · rw [tcpReceive]
      split_ifs
      · exact ⟨⟨hs.pcb, hs.window, hs.bytes, hs.credited⟩, rfl, rfl⟩
      · rename_i h
        exact absurd rfl h
      · exact ⟨⟨hs.pcb, hs.window, hs.bytes, hs.credited⟩, rfl, rfl⟩
    · exact hstill
  | tick t => exact hs.delivers (tick_delivers hs.pcb t)
  | error =>
    rw [step]
    split
    · exact hs.delivers (tcpError_delivers _)
    · exact hstill
  | sweep =>
    rw [step]
    split
    · exact hs.delivers (destroy_delivers ‹_›)
    · exact hstill

theorem inv_run (wnd : Nat) (es : List Event) : Inv wnd (run step (.start wnd) es) :=
  run_inv_all (I := Inv wnd) (fun _ e hs ↦ (inv_step hs e).1) es (inv_start wnd)

theorem Inv.held (hs : Inv wnd s) (hdead : s.flow.dead = false) :
    s.flow.rcvWnd + s.flow.toLocal.content.length + (s.refused.getD []).length ≤ wnd := by
  have hlength := congrArg length (hs.bytes hdead)
  rw [length_append, length_append] at hlength
  have hwindow := hs.window
  have hcredited := hs.credited
  omega

/-- **The window bounds what is held**, in every run: the window of a live flow and the peer's bytes
that are not delivered yet are together at most the window at the start. -/
theorem held_run (wnd : Nat) (es : List Event) :
    let s := run step (.start wnd) es
    s.flow.dead = true ∨
      s.flow.rcvWnd + s.flow.toLocal.content.length + (s.refused.getD []).length ≤ wnd := by
  intro s
  cases hdead : s.flow.dead with
  | true => exact .inl rfl
  | false => exact .inr ((inv_run wnd es).held hdead)

/-- The credit is what has been delivered; and once everything is delivered, the window is back at
its initial size. -/
def Conserved (wnd : Nat) (s : System) : Prop :=
  s.flow.credited = s.flow.delivered.length ∧
    (s.flow.delivered = s.received → s.flow.rcvWnd = wnd)

theorem Inv.conserved_iff (hs : Inv wnd s) :
    Conserved wnd s ↔ s.flow.credited = s.flow.delivered.length := by
  refine ⟨fun h ↦ h.1, fun h ↦ ⟨h, fun hall ↦ ?_⟩⟩
  have hwindow := hs.window
  rw [← hall] at hwindow
  omega

/-- An event sends fewer than `2 ^ 16` bytes on the bridge. -/
def SmallSend (s : System) (e : Event) : Prop :=
  sent s e < 2 ^ 16

theorem Sends.conserved_iff {t : System} (h : Sends s t n)
    (hs : s.flow.credited = s.flow.delivered.length) :
    t.flow.credited = t.flow.delivered.length ↔ n < 2 ^ 16 := by
  rw [h.credited, h.delivered, hs, Nat.add_left_cancel_iff]
  constructor
  · intro hmod
    rw [← hmod]
    exact Nat.mod_lt n (by decide)
  · exact Nat.mod_eq_of_lt

theorem credited_run {es : List Event} (hes : Along step SmallSend (.start wnd) es) :
    (run step (.start wnd) es).flow.credited = (run step (.start wnd) es).flow.delivered.length :=
  run_inv₂ (I := fun s ↦ s.flow.credited = s.flow.delivered.length) (J := Inv wnd)
    (fun _ e hs ↦ (inv_step hs e).1)
    (fun _ e hs h he ↦ ((inv_step hs e).2.conserved_iff h).2 he) es (inv_start wnd) rfl hes

theorem Inv.smallSend (hs : Inv wnd s) (hwnd : wnd < 2 ^ 16) (e : Event) : SmallSend s e := by
  cases e with
  | tick t =>
    rw [SmallSend, sent]
    have hle := (tick_delivers hs.pcb t).le
    cases hdead : s.flow.dead with
    | true =>
      rw [Flow.sends, if_pos (.inl hdead)]
      exact Nat.two_pow_pos 16
    | false =>
      have hheld := hs.held hdead
      rw [Queue.length_content] at hheld
      omega
  | connected | segment | redeliver | fin | error | sweep => exact Nat.two_pow_pos 16

/-- A smaller window than `TCP_WND` never holds so much. -/
theorem conserved_of_small_window (hwnd : wnd < 2 ^ 16) (es : List Event) :
    Conserved wnd (run step (.start wnd) es) := by
  have hall : Along step SmallSend (.start wnd) es :=
    (along_congr (I := Inv wnd) (fun _ e hs ↦ (inv_step hs e).1)
      (fun _ e hs ↦ iff_of_true trivial (hs.smallSend hwnd e)) es (inv_start wnd)).1 (along_true es)
  exact (inv_run wnd es).conserved_iff.2 (credited_run hall)

/-- **Flow control**: for every receive window, a run gives back exactly the credit for what it has
delivered, in every state, if and only if no tick of it sends `2 ^ 16` bytes or more at once. -/
theorem conserved_run_iff (wnd : Nat) (es : List Event) :
    (∀ pre, pre <+: es → Conserved wnd (run step (.start wnd) pre)) ↔
      Along step SmallSend (.start wnd) es := by
  refine forall_prefix_iff (I := Inv wnd) (fun s e hs h _ ↦ ⟨(inv_step hs e).1, ?_⟩) es
    (inv_start wnd) ((inv_start wnd).conserved_iff.2 rfl) (along_true es)
  rw [(inv_step hs e).1.conserved_iff]
  exact (inv_step hs e).2.conserved_iff h.1

/-! ## A full window -/

/-- A connected flow with `queued` bytes on their way to the bridge and the receive window
`room`. -/
structure Ready (s : System) (queued room : Nat) : Prop where
  isOpen : s.open = true
  dead : s.flow.dead = false
  connected : s.flow.connected = true
  queued : s.flow.toLocal.length = queued
  capacity : s.flow.toLocal.capacity ≤ queueLimit
  room : s.flow.rcvWnd = room

/-- A segment is queued as long as the window and the limit of the queue allow it. -/
theorem Ready.segment {queued room : Nat} (hs : Ready s queued room) {bs : Bytes}
    (hn : bs.length = n) (hroom : n ≤ room) (hbs : n ≤ 65535)
    (hlimit : queued + n ≤ queueLimit) :
    Ready (step s (.segment bs true)) (queued + n) (room - n) := by
  subst hn
  obtain ⟨hopen, hdead, hconnected, rfl, hcapacity, rfl⟩ := hs
  obtain ⟨q, hq, hle⟩ := exists_bufferReserve hcapacity hlimit
  rw [step, if_pos ⟨hopen, hroom, hbs⟩, tcpReceive, if_neg (by simp [hdead]), if_neg (by simp)]
  simp only [if_neg (show ¬ s.flow.toLocal.length > queueLimit - bs.length by omega),
    tunnelBufferReserve, hq]
  simp only [System.open, Bool.and_eq_true, Bool.not_eq_true'] at hopen
  refine ⟨by simp [System.open, hopen], hdead, hconnected, ?_, ?_, rfl⟩
  · have hcontent := congrArg List.length (content_write_of_reserve hq)
    rwa [length_append, Queue.length_content, Queue.length_content] at hcontent
  · rwa [Queue.capacity_write]

/-- The peer fills the window `TCP_WND` between two ticks. -/
def fullWindow : List Event :=
  [.connected .ok true, .segment (List.replicate 65535 0) true, .segment [0] true]

theorem ready_fullWindow : Ready (run step (.start tcpWnd) fullWindow) (2 ^ 16) 0 := by
  have hconnected : Ready (step (.start tcpWnd) (.connected .ok true)) 0 tcpWnd :=
    ⟨rfl, rfl, rfl, rfl, Nat.zero_le _, rfl⟩
  have hlength : (List.replicate 65535 (0 : UInt8)).length = 65535 := length_replicate
  have hfirst := hconnected.segment hlength (by decide) (by decide) (by decide)
  have hlength' : [(0 : UInt8)].length = 1 := rfl
  have hsecond := hfirst.segment hlength' (by decide) (by decide) (by decide)
  rw [fullWindow, run_cons, run_cons, run_cons, run_nil]
  have hqueued : 0 + 65535 + 1 = 2 ^ 16 := by norm_num
  have hroom : tcpWnd - 65535 - 1 = 0 := by decide
  rwa [hqueued, hroom] at hsecond

/-- The bridge takes a full window at once: all bytes are delivered, no credit is given back, and
the window stays closed. -/
theorem full_window_stalls :
    ¬ Conserved tcpWnd
      (run step (.start tcpWnd) (fullWindow ++ [.tick { send := .wrote 65535 }])) := by
  intro h
  have hs := ready_fullWindow
  have hsent : sent (run step (.start tcpWnd) fullWindow) (.tick { send := .wrote 65535 }) =
      2 ^ 16 := by
    rw [sent, Flow.sends, if_neg (by simp [hs.dead, hs.connected]), Flow.taken, hs.queued]
    rfl
  have hcredited : (run step (.start tcpWnd) fullWindow).flow.credited =
      (run step (.start tcpWnd) fullWindow).flow.delivered.length := by
    refine credited_run ⟨?_, ?_, ?_, trivial⟩ <;> exact Nat.two_pow_pos 16
  rw [run_concat] at h
  have hstep := (inv_step (inv_run tcpWnd fullWindow) (.tick { send := .wrote 65535 })).2
  rw [hsent] at hstep
  exact absurd ((hstep.conserved_iff hcredited).1 h.1) (Nat.lt_irrefl _)

end ClambHook.TunnelStack
