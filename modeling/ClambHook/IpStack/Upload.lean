import ClambHook.Lib.Machine
import ClambHook.IpStack.TcpFlow

/-!
# Uploads over the TUN stack

What the client sends must come out of the outgoing socket in order, and the socket's write side
must stay open until the last byte in front of the client's FIN is through.

The bytes are always where they should be: sent, queued, or refused and kept by lwIP
(`Inv.bytes`).  But `ch_ip_stack_tcp_receive` shuts the socket as soon as the FIN arrives, queue or
no queue.  So an upload is complete exactly when the FIN finds the queue empty.

`Progress` says what a tick can do to the upload direction of a flow that is not given up.
-/

namespace ClambHook.IpStack

open CString Window Net Machine List

/-! ## What a tick does to the upload -/

/-- From `f` to `g`, bytes went from the queue to the socket, and the socket was shut only behind
the client's FIN with nothing left in the queue. -/
structure Progress (f g : Flow) : Prop where
  aborted : g.aborted = f.aborted
  bytes : g.socketSent ++ g.pending.content = f.socketSent ++ f.pending.content
  drained : f.pending.content = [] → g.pending.content = []
  shut : g.writeShut = true → f.writeShut = true ∨ (f.clientEof = true ∧ g.pending.content = [])
  eof : g.clientEof = f.clientEof
  live : g.client = true → f.client = true ∧ g.descriptor = f.descriptor ∧ g.dead = f.dead

/-- The flow has been given up. -/
def GivenUp (f : Flow) : Prop :=
  f.aborted = true ∧ f.client = false

theorem Progress.refl (f : Flow) : Progress f f :=
  ⟨rfl, rfl, fun h ↦ h, .inl, rfl, fun h ↦ ⟨h, rfl, rfl⟩⟩

variable {f g : Flow}

theorem Progress.trans {h : Flow} (hfg : Progress f g) (hgh : Progress g h) :
    Progress f h := by
  refine ⟨hgh.aborted.trans hfg.aborted, hgh.bytes.trans hfg.bytes,
    fun hf ↦ hgh.drained (hfg.drained hf), fun hs ↦ ?_, hgh.eof.trans hfg.eof, fun hc ↦ ?_⟩
  · rcases hgh.shut hs with hs | ⟨he, hc⟩
    · rcases hfg.shut hs with hs | ⟨he, hc⟩
      · exact .inl hs
      · exact .inr ⟨he, hgh.drained hc⟩
    · exact .inr ⟨hfg.eof ▸ he, hc⟩
  · obtain ⟨hg, hd, hl⟩ := hgh.live hc
    obtain ⟨hf, hd', hl'⟩ := hfg.live hg
    exact ⟨hf, hd.trans hd', hl.trans hl'⟩

/-- What a part of the tick can do. -/
def Outcome (f g : Flow) : Prop :=
  GivenUp g ∨ Progress f g

theorem Outcome.refl (f : Flow) : Outcome f f := .inr (.refl f)

theorem Outcome.trans {h : Flow} (hfg : Outcome f g) (hgh : Outcome g h) : Outcome f h := by
  rcases hgh with hgh | hgh
  · exact .inl hgh
  rcases hfg with hfg | hfg
  · refine .inl ⟨hgh.aborted.trans hfg.1, ?_⟩
    exact Bool.eq_false_iff.2 fun hc ↦ absurd (hgh.live hc).1 (Bool.eq_false_iff.1 hfg.2)
  · exact .inr (hfg.trans hgh)

theorem outcome_abort (f g : Flow) : Outcome f g.abort := .inl ⟨rfl, rfl⟩

/-- Changes to the download direction are no change to the upload. -/
theorem outcome_download (f : Flow) (remotePending : Queue UInt8) (clientOut : Bytes)
    (observedReceived : Nat) (remoteEof clientShut : Bool) :
    Outcome f { f with
      remotePending := remotePending
      clientOut := clientOut
      observedReceived := observedReceived
      remoteEof := remoteEof
      clientShut := clientShut } :=
  .inr ⟨rfl, rfl, fun h ↦ h, .inl, rfl, fun h ↦ ⟨h, rfl, rfl⟩⟩

/-- Bytes taken by `send` leave the queue at its front. -/
theorem progress_wrote (f : Flow) (amount observed : Nat) :
    Progress f { f with
      pending := f.pending.advance amount
      socketSent := f.socketSent ++ f.pending.content.take amount
      observedSent := observed } := by
  refine ⟨rfl, ?_, fun h ↦ ?_, .inl, rfl, fun h ↦ ⟨h, rfl, rfl⟩⟩
  · rw [Queue.content_advance, append_assoc, take_append_drop]
  · rw [Queue.content_advance, h, drop_nil]

theorem sendLoop_outcome (rs : List SendResult) : ∀ f : Flow, Outcome f (sendLoop rs f).1 := by
  induction rs with
  | nil => exact .refl
  | cons r rs ih =>
    intro f
    rw [sendLoop.eq_def]
    dsimp only
    split
    · exact .refl f
    cases r with
    | wrote n =>
      dsimp only
      split
      · exact outcome_abort f f
      · exact Outcome.trans (.inr (progress_wrote f _ _)) (ih _)
    | interrupted => exact ih f
    | wouldBlock => exact .refl f
    | failed => exact outcome_abort f f

theorem flushRemote_outcome (f : Flow) (w : WriteFate) : Outcome f (flushRemote f w).1 := by
  rw [flushRemote]
  split_ifs
  · exact .refl f
  · exact .refl f
  · exact .refl f
  · exact outcome_abort f f
  · exact outcome_download f _ _ _ _ _

theorem readLoop_outcome (rs : List Round) :
    ∀ (attempt : Nat) (f : Flow), Outcome f (readLoop attempt rs f).1 := by
  induction rs with
  | nil => exact fun _ ↦ .refl
  | cons r rs ih =>
    intro attempt f
    rw [readLoop]
    split
    · exact .refl f
    cases r.recv with
    | interrupted => exact ih attempt f
    | wouldBlock => exact .refl f
    | failed => exact outcome_abort f f
    | data bs =>
      dsimp only
      split_ifs
      · exact outcome_abort f _
      · exact outcome_download f _ _ _ _ _
      · split
        · exact outcome_abort f f
        · exact outcome_download f _ _ _ _ _
      · exact outcome_abort f f
      · refine Outcome.trans ?_ (ih (attempt + 1) _)
        exact outcome_download f _ _ _ _ _

/-- Closing a flow shuts the socket, with the FIN seen and the queue empty. -/
theorem finish_outcome (f : Flow) (close : Bool) : Outcome f (finish f close) := by
  rw [finish]
  split
  · rename_i h
    have hnil := Queue.content_eq_nil.2 h.2.2.1
    exact .inr ⟨rfl, rfl, fun h ↦ h, fun _ ↦ .inr ⟨h.1, hnil⟩, rfl, nofun⟩
  · exact .refl f

theorem outcome_rewind (f : Flow) : Outcome f { f with pending := f.pending.rewind } :=
  .inr ⟨rfl, by simp, by simp, .inl, rfl, fun h ↦ ⟨h, rfl, rfl⟩⟩

theorem tick_outcome (f : Flow) (t : TickFate) : Outcome f (tick f t) := by
  rw [tick]
  split_ifs
  · exact .refl f
  · exact outcome_abort f f
  · exact .refl f
  have hsend := sendLoop_outcome t.sends f
  split
  · rename_i g hg
    rwa [hg] at hsend
  rename_i g hg
  rw [hg] at hsend
  have hflush := flushRemote_outcome { g with pending := g.pending.rewind } t.write
  replace hflush := hsend.trans ((outcome_rewind g).trans hflush)
  split
  · rename_i g hg
    rwa [hg] at hflush
  rename_i g' hg'
  rw [hg'] at hflush
  have hread := hflush.trans (readLoop_outcome t.rounds 0 g')
  split
  · rename_i g hg
    rwa [hg] at hread
  rename_i g'' hg''
  rw [hg''] at hread
  exact hread.trans (finish_outcome g'' t.close)

/-! ## Where the client's bytes are -/

/-- What holds in every state: the client's bytes have been sent, or are queued, or have been
refused and are kept by lwIP. -/
structure Inv (s : System) : Prop where
  live : s.flow.client = true →
    s.flow.descriptor = true ∧ s.flow.dead = false ∧ s.flow.aborted = false
  bytes : s.flow.aborted = false →
    s.clientSent = s.flow.socketSent ++ s.flow.pending.content ++ s.refused.getD []
  eof : s.flow.aborted = false → s.flow.clientEof = true → s.finned = true
  fin : s.finned = true → s.refused = none

theorem inv_init : Inv {} :=
  ⟨fun _ ↦ ⟨rfl, rfl, rfl⟩, fun _ ↦ rfl, fun _ ↦ nofun, nofun⟩

/-- Bytes offered to a live flow are refused or queued. -/
theorem tcpReceive_cases (hdead : f.dead = false) (bs : Bytes) (alloc : Bool) :
    tcpReceive f (some bs) .ok alloc = (f, .mem) ∨
      ∃ q : Queue UInt8, ∃ credited, q.content = f.pending.content ++ bs ∧
        tcpReceive f (some bs) .ok alloc =
          ({ f with pending := q, credited := credited }, .ok) := by
  rw [tcpReceive, if_neg (by simp [hdead])]
  split
  · rename_i hbs
    exact .inr ⟨f.pending, f.credited, by simp [hbs], rfl⟩
  cases hq : ipStackBufferReserve f.pending bs.length alloc with
  | none => exact .inl rfl
  | some q =>
    exact .inr ⟨q.write bs, _, content_write_of_reserve hq, rfl⟩

/-- The socket is shut only behind the FIN, with nothing left in the queue. -/
def ShutAtEnd (s : System) : Prop :=
  s.flow.aborted = false → s.flow.writeShut = true →
    s.finned = true ∧ s.flow.pending.content = []

variable {s : System}

/-- Offering bytes of the client that are nowhere else. -/
theorem Inv.offer (hs : Inv s) {bs sent : Bytes} (alloc : Bool)
    (hclient : s.flow.client = true) (hfin : s.finned = false)
    (hsent : sent = s.flow.socketSent ++ s.flow.pending.content ++ bs) {t : System}
    (ht : t = { s with
      flow := (tcpReceive s.flow (some bs) .ok alloc).1
      clientSent := sent
      refused := if (tcpReceive s.flow (some bs) .ok alloc).2 = .mem then some bs else none }) :
    Inv t ∧ (ShutAtEnd s → ShutAtEnd t) := by
  subst ht
  obtain ⟨_, hdead, haborted⟩ := hs.live hclient
  -- A socket that is already shut would have seen the FIN.
  have hshut : ShutAtEnd s → s.flow.writeShut = false := fun h ↦
    Bool.eq_false_iff.2 fun hw ↦ absurd (h haborted hw).1 (by simp [hfin])
  rcases tcpReceive_cases hdead bs alloc with hr | ⟨q, credited, hq, hr⟩
  · rw [hr]
    refine ⟨⟨hs.live, fun _ ↦ hsent, hs.eof, fun h ↦ by simp [hfin] at h⟩, fun h _ hw ↦ ?_⟩
    simp [hshut h] at hw
  · rw [hr]
    refine ⟨⟨hs.live, fun _ ↦ ?_, hs.eof, fun _ ↦ rfl⟩, fun h _ hw ↦ ?_⟩
    · simp [hsent, hq]
    · simp [hshut h] at hw

/-- A tick or an error of the client connection. -/
theorem Inv.outcome (hs : Inv s) (hg : Outcome s.flow g) :
    Inv { s with flow := g } ∧ (ShutAtEnd s → ShutAtEnd { s with flow := g }) := by
  rcases hg with ⟨haborted, hclient⟩ | hg
  · have halive : g.aborted ≠ false := by simp [haborted]
    exact ⟨⟨fun h ↦ by simp [hclient] at h, fun h ↦ absurd h halive, fun h ↦ absurd h halive,
      hs.fin⟩, fun _ h ↦ absurd h halive⟩
  · refine ⟨⟨fun h ↦ ?_, fun h ↦ ?_, fun h he ↦ ?_, hs.fin⟩, fun hshut h hw ↦ ?_⟩
    · obtain ⟨hc, hd, hl⟩ := hg.live h
      obtain ⟨hd', hl', ha⟩ := hs.live hc
      exact ⟨hd.trans hd', hl.trans hl', hg.aborted.trans ha⟩
    · rw [hs.bytes (hg.aborted ▸ h), ← hg.bytes]
    · exact hs.eof (hg.aborted ▸ h) (hg.eof ▸ he)
    rcases hg.shut hw with hw | ⟨he, hnil⟩
    · obtain ⟨hfin, hnil⟩ := hshut (hg.aborted ▸ h) hw
      exact ⟨hfin, hg.drained hnil⟩
    · exact ⟨hs.eof (hg.aborted ▸ h) he, hnil⟩

/-! ## Runs -/

/-- The client's FIN finds nothing queued. -/
def FinAfterDrain (s : System) : Event → Prop
  | .fin => s.open = true → s.flow.pending.length = 0
  | _ => True

/-- One event keeps the invariant; a FIN in front of queued bytes cuts them off. -/
theorem inv_step (hs : Inv s) (e : Event) :
    Inv (step s e) ∧ (ShutAtEnd s → (ShutAtEnd (step s e) ↔ FinAfterDrain s e)) := by
  have hkept : ∀ {t : System}, Inv t ∧ (ShutAtEnd s → ShutAtEnd t) → FinAfterDrain s e →
      Inv t ∧ (ShutAtEnd s → (ShutAtEnd t ↔ FinAfterDrain s e)) :=
    fun h he ↦ ⟨h.1, fun hshut ↦ iff_of_true (h.2 hshut) he⟩
  cases e with
  | segment bs alloc =>
    rw [step]
    split
    · rename_i h
      simp only [System.open, Bool.and_eq_true, Bool.not_eq_true', Option.isNone_iff_eq_none] at h
      obtain ⟨⟨⟨hclient, hfin⟩, hrefused⟩, _⟩ := h
      have hsent : s.clientSent ++ bs = s.flow.socketSent ++ s.flow.pending.content ++ bs := by
        rw [hs.bytes (hs.live hclient).2.2, hrefused]; simp
      exact hkept (hs.offer alloc hclient hfin hsent rfl) trivial
    · exact hkept ⟨hs, id⟩ trivial
  | redeliver alloc =>
    rw [step]
    split
    · exact hkept ⟨hs, id⟩ trivial
    rename_i bs hrefused
    split
    · rename_i hclient
      have hfin : s.finned = false := Bool.eq_false_iff.2 fun h ↦ by simp [hs.fin h] at hrefused
      have hsent := hs.bytes (hs.live hclient).2.2
      rw [hrefused] at hsent
      exact hkept (hs.offer alloc hclient hfin hsent rfl) trivial
    · exact hkept ⟨hs, id⟩ trivial
  | fin =>
    by_cases hopen : s.open = true
    · have hparts := hopen
      simp only [System.open, Bool.and_eq_true, Option.isNone_iff_eq_none] at hparts
      obtain ⟨hdescriptor, hdead, haborted⟩ := hs.live hparts.1.1
      -- the FIN is delivered, and shuts the socket
      rw [step, if_pos hopen, tcpReceive, if_neg (by simp [hdead])]
      simp only [show (s.flow.writeShut || s.flow.descriptor) = true by simp [hdescriptor]]
      refine ⟨⟨hs.live, hs.bytes, fun _ _ ↦ rfl, fun _ ↦ hparts.2⟩, fun _ ↦ ⟨fun h _ ↦ ?_,
        fun hdrain _ _ ↦ ⟨rfl, Queue.content_eq_nil.2 (hdrain hopen)⟩⟩⟩
      exact Queue.content_eq_nil.1 (h haborted rfl).2
    · rw [step, if_neg hopen]
      exact hkept ⟨hs, id⟩ fun h ↦ absurd h hopen
  | tick t => exact hkept (hs.outcome (tick_outcome s.flow t)) trivial
  | error =>
    rw [step]
    split
    · exact hkept (hs.outcome (g := s.flow.tcpError) (.inl ⟨rfl, rfl⟩)) trivial
    · exact hkept ⟨hs, id⟩ trivial

/-- The upload of a flow that is not given up: what was sent on the socket is the beginning of what
the client sent, and the socket is shut only behind the FIN and the last byte. -/
def Complete (s : System) : Prop :=
  s.flow.aborted = false →
    s.flow.socketSent <+: s.clientSent ∧
      (s.flow.writeShut = true → s.finned = true ∧ s.flow.socketSent = s.clientSent)

theorem Inv.complete_iff (hs : Inv s) : Complete s ↔ ShutAtEnd s := by
  constructor
  · intro h halive hshut
    obtain ⟨hfin, hsent⟩ := (h halive).2 hshut
    have hbytes := hs.bytes halive
    rw [← hsent, append_assoc] at hbytes
    have hnil := self_eq_append_right.1 hbytes
    exact ⟨hfin, (append_eq_nil_iff.1 hnil).1⟩
  · intro h halive
    have hbytes := hs.bytes halive
    refine ⟨⟨s.flow.pending.content ++ s.refused.getD [], ?_⟩, fun hshut ↦ ?_⟩
    · rw [hbytes, append_assoc]
    · obtain ⟨hfin, hnil⟩ := h halive hshut
      rw [hbytes, hnil, hs.fin hfin]
      exact ⟨hfin, by simp⟩

/-- **No byte is lost, doubled or moved**, in every run of a flow that is not given up. -/
theorem accounted_run (es : List Event) :
    let s := run step {} es
    s.flow.aborted = true ∨
      s.clientSent = s.flow.socketSent ++ s.flow.pending.content ++ s.refused.getD [] := by
  intro s
  have hs : Inv s := run_inv_all (I := Inv) (fun _ e hs ↦ (inv_step hs e).1) es inv_init
  cases haborted : s.flow.aborted with
  | true => exact .inl rfl
  | false => exact .inr (hs.bytes haborted)

/-- **Uploads**: in a run of segments, partial and blocked sends, ticks and the client's FIN, the
upload is complete in every state exactly when the FIN finds the flow's queue empty. -/
theorem complete_run_iff (es : List Event) :
    (∀ pre, pre <+: es → Complete (run step {} pre)) ↔ Along step FinAfterDrain {} es := by
  refine forall_prefix_iff (I := Inv) (fun s e hs h _ ↦ ⟨(inv_step hs e).1, ?_⟩) es inv_init
    (inv_init.complete_iff.2 fun _ ↦ nofun) (along_true es)
  rw [(inv_step hs e).1.complete_iff]
  exact (inv_step hs e).2 (hs.complete_iff.1 h)

/-- The client sends one byte and its FIN before the first tick: the socket is shut with the byte
still in the queue. -/
theorem fin_cuts_queue :
    ¬ Complete (run step {} [.segment [42] true, .fin]) := by
  intro h
  have := (h (by decide)).2 (by decide)
  exact absurd this.2 (by decide)

end ClambHook.IpStack
