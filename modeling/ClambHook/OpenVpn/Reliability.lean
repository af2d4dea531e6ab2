import Mathlib.Data.List.Nodup
import ClambHook.Lib.Machine
import ClambHook.OpenVpn.Control

/-!
# Reliability of the OpenVPN control channel

A number that the client has put in an ACK is gone at the peer.  So its payload must be in the
stream to TLS already, or wait in the reorder list; and the stream must be the peer's payloads in
the order of their numbers.  The source queues a number for acknowledgement before it looks at the
reorder window, and before it has the memory to keep the packet, so this is not true of every run.

* `Inv` is the invariant, over the peer's packets `peer`: queued and sent acknowledgements are
  covered (`Covered`), waiting packets are the peer's and lie ahead, and the stream is what the
  numbers below `next_expected_id` carry.
* `Kept` is the guard of a step: the packet at hand is not too far ahead, and if it is new, there is
  memory for it.
-/

namespace ClambHook.OpenVpn

open CString Window Machine List

/-! ## The stream as a queue -/

@[simp] theorem Stream.content_empty : Stream.empty.content = [] := rfl

theorem Stream.content_append (s : Stream) (bs : Bytes) (h : bs ≠ []) :
    (s.append bs h).content = s.content ++ bs := by
  have hs := s.fits
  -- In both cases the bytes in front of the payload are the old content.
  have key : ∀ buf : Bytes, buf.take s.length = s.content →
      window (buf.take s.length ++ bs) 0 (s.length + bs.length) = s.content ++ bs := by
    intro buf hbuf
    rw [hbuf, window, drop_zero, take_of_length_le]
    rw [length_append, Stream.content, length_window s.fits]
  unfold Stream.content at key ⊢
  unfold Stream.append
  by_cases hmove : s.offset > 0 ∧ s.length > 0
  · simp only [if_pos hmove]
    exact key _ (window_moveToFront s.fits)
  have h0 : s.offset = 0 := by
    by_contra h0
    exact h0 (s.rewound (by omega))
  simp only [h0] at key ⊢
  exact key _ rfl

/-- What TLS reads, followed by what is left, is what was there. -/
theorem Stream.read_content (s : Stream) (capacity : Nat) :
    (s.read capacity).1 ++ (s.read capacity).2.content = s.content := by
  have hmin : min s.length capacity ≤ s.length := Nat.min_le_left _ _
  have htake : window s.buffer s.offset (min s.length capacity) =
      s.content.take (min s.length capacity) := window_take hmin
  simp only [Stream.read]
  rw [htake]
  split
  · rename_i h
    rw [Stream.content_empty, append_nil, take_of_length_le]
    rw [Stream.content, length_window s.fits]
    omega
  · unfold Stream.content at *
    dsimp only
    rw [window_drop, take_append_drop]

/-! ## What the peer sends -/

/-- What a packet adds to the stream: only `P_CONTROL_V1` packets carry TLS bytes. -/
def contribution (p : Opcode × Bytes) : Bytes :=
  if p.1 = .controlV1 then p.2 else []

/-- The payloads of the numbers below `n`, in order. -/
def streamUpTo (peer : Nat → Opcode × Bytes) (n : Nat) : Bytes :=
  (List.range n).flatMap fun i ↦ contribution (peer i)

theorem streamUpTo_succ (peer : Nat → Opcode × Bytes) (n : Nat) :
    streamUpTo peer (n + 1) = streamUpTo peer n ++ contribution (peer n) := by
  simp [streamUpTo, range_succ]

/-- The numbers that the client has put in an ACK. -/
def acked (s : Session) : List Nat :=
  s.socket.flatMap (·.acks)

/-- The numbered packet that `ch_ovpn_handle_control` finds in a datagram which passes its
checks. -/
def numbered (s : Session) (bytes : Bytes) : Option Reorder :=
  match parseHeader s bytes with
  | none => none
  | some h =>
    if h.opcode = .ackV1 ∨ h.rest.length < 4 then none
    else some ⟨readU32 h.rest, h.opcode, h.rest.drop 4⟩

/-- The datagram is one of the peer's: retransmissions of a number carry the same packet. -/
def FromPeer (peer : Nat → Opcode × Bytes) (s : System) : Event → Prop
  | .receive bytes _ => ∀ p ∈ numbered s.session bytes, peer p.id = (p.opcode, p.payload)
  | _ => True

/-- The packet at hand is less than 64 numbers ahead; and if it is neither old nor waiting already,
there is memory to keep it and to deliver what it completes, and its number is not the last one. -/
def Kept (s : System) : Event → Prop
  | .receive bytes fate =>
    ∀ p ∈ numbered s.session bytes,
      p.id < s.session.nextExpectedId + 64 ∧
        (s.session.nextExpectedId ≤ p.id → (∀ e ∈ s.session.reorder, e.id ≠ p.id) →
          p.id + 1 < 2 ^ 32 ∧ fate.packet = true ∧ (p.payload ≠ [] → fate.payload = true) ∧
            ∀ n, fate.append n = true)
  | _ => True

/-! ## Sending takes acknowledgements from the queue -/

/-- Every packet kept for retransmission has been sent. -/
def Tracked (s : Session) : Prop :=
  ∀ o ∈ s.outstanding, o.datagram ∈ s.socket

/-- From `s` to `t` nothing happened to the receiving side, and only queued numbers were
acknowledged. -/
structure Sends (s t : Session) : Prop where
  reorder : t.reorder = s.reorder
  next : t.nextExpectedId = s.nextExpectedId
  stream : t.stream = s.stream
  queued : ∀ id ∈ t.pendingAcks, id ∈ s.pendingAcks
  sent : ∀ id ∈ acked t, id ∈ acked s ∨ id ∈ s.pendingAcks
  tracked : Tracked t

variable {s : Session}

theorem Sends.refl (hs : Tracked s) : Sends s s :=
  ⟨rfl, rfl, rfl, fun _ h ↦ h, fun _ h ↦ .inl h, hs⟩

variable {id : Nat}

theorem mem_acked_sendRaw {d : Datagram} :
    id ∈ acked (s.sendRaw d) ↔ id ∈ acked s ∨ id ∈ d.acks := by
  simp [acked, Session.sendRaw]

/-- An encoded packet takes its acknowledgements from the front of the queue.  When it is tracked
it is in the list of outstanding packets, which otherwise stays as it was. -/
theorem controlEncode_sends (hs : Tracked s) (opcode : Opcode) (payload : Bytes)
    (track : Bool) (now : Nat) (fate : SendFate) :
    match controlEncode s opcode payload track now fate with
    | (t, none) => Sends s t
    | (t, some d) => Sends s (t.sendRaw d) := by
  have hdrop : ∀ id ∈ s.pendingAcks.drop 4, id ∈ s.pendingAcks := fun _ h ↦ mem_of_mem_drop h
  have hout : ∀ d o, o ∈ s.outstanding → o.datagram ∈ s.socket ++ [d] :=
    fun d o ho ↦ mem_append_left _ (hs o ho)
  have hsent : ∀ (t : Session) (d : Datagram), t.socket = s.socket → d.acks = s.pendingAcks.take 4 →
      ∀ id ∈ acked (t.sendRaw d), id ∈ acked s ∨ id ∈ s.pendingAcks := by
    intro t d ht hd id hid
    rcases mem_acked_sendRaw.1 hid with h | h
    · exact .inl (by rwa [acked, ht] at h)
    · exact .inr (mem_of_mem_take (hd ▸ h))
  unfold controlEncode
  split_ifs with hbytes hack htrack hmem
  · exact .refl hs
  · exact ⟨rfl, rfl, rfl, hdrop, hsent _ _ rfl rfl, hout _⟩
  · exact ⟨rfl, rfl, rfl, hdrop, hsent _ _ rfl rfl, hout _⟩
  · exact ⟨rfl, rfl, rfl, hdrop, fun id h ↦ .inl h, hs⟩
  refine ⟨rfl, rfl, rfl, hdrop, hsent _ _ rfl rfl, fun o ho ↦ ?_⟩
  rcases mem_cons.1 ho with rfl | ho
  · exact mem_append_right _ mem_cons_self
  · exact hout _ o ho

theorem sendControl_sends (hs : Tracked s) (opcode : Opcode) (payload : Bytes)
    (now : Nat) (fate : SendFate) : Sends s (sendControl s opcode payload now fate).1 := by
  have h := controlEncode_sends hs opcode payload true now fate
  unfold sendControl
  split <;> simp_all

theorem sendAck_sends (hs : Tracked s) (fate : SendFate) :
    Sends s (sendAck s fate).1 := by
  have h := controlEncode_sends hs .ackV1 [] false 0 fate
  unfold sendAck
  split
  · exact .refl hs
  · split <;> simp_all

/-- A retransmission keeps the packets that wait for it, and sends no others. -/
theorem retransmitLoop_spec (now : Nat) (sent : Nat → Bool) (os : List Outstanding) :
    (retransmitLoop now sent os).1.map (·.datagram) = os.map (·.datagram) ∧
      (retransmitLoop now sent os).2.1 ⊆ os.map (·.datagram) := by
  induction os with
  | nil => exact ⟨rfl, nil_subset _⟩
  | cons o os ih =>
    unfold retransmitLoop
    split_ifs with hearly hretries hsent
    · exact ⟨by rw [map_cons, ih.1, map_cons], subset_cons_of_subset _ ih.2⟩
    · exact ⟨rfl, nil_subset _⟩
    · exact ⟨rfl, by simp⟩
    · exact ⟨by rw [map_cons, ih.1, map_cons], cons_subset_cons _ ih.2⟩

/-- A retransmission repeats acknowledgements, and adds none. -/
theorem retransmit_sends (hs : Tracked s) (now : Nat) (sent : Nat → Bool) :
    Sends s (retransmit s now sent).1 := by
  obtain ⟨h₁, h₂⟩ := retransmitLoop_spec now sent s.outstanding
  have hsent : ∀ d ∈ s.outstanding.map (·.datagram), d ∈ s.socket := forall_mem_map.2 hs
  refine ⟨rfl, rfl, rfl, fun _ h ↦ h, fun id hid ↦ .inl ?_, fun o ho ↦ ?_⟩
  · obtain ⟨d, hd, hdi⟩ := mem_flatMap.1 hid
    rcases mem_append.1 hd with hd | hd
    · exact mem_flatMap.2 ⟨d, hd, hdi⟩
    · exact mem_flatMap.2 ⟨d, hsent d (h₂ hd), hdi⟩
  · exact mem_append_left _ (hsent _ (h₁ ▸ mem_map_of_mem ho))

theorem removeOutstanding_sublist (acks : List Nat) :
    ∀ os, (acks.foldl removeOutstanding os).Sublist os := by
  induction acks with
  | nil => exact .refl
  | cons id acks ih => exact fun _ ↦ (ih _).trans eraseP_sublist

theorem acceptHeader_sends (hs : Tracked s) (h : Header) :
    Sends s (s.acceptHeader h) :=
  ⟨rfl, rfl, rfl, fun _ h ↦ h, fun _ h ↦ .inl h,
    fun o ho ↦ hs o ((removeOutstanding_sublist _ _).subset ho)⟩

/-! ## Delivery in order -/

section

variable {peer : Nat → Opcode × Bytes} {consumed : Bytes}

/-- The payload of a number is in the stream, or its packet waits in the reorder list. -/
def Covered (peer : Nat → Opcode × Bytes) (s : Session) (id : Nat) : Prop :=
  id < s.nextExpectedId ∨ ⟨id, (peer id).1, (peer id).2⟩ ∈ s.reorder

/-- The receiving side: the waiting packets are the peer's and lie ahead, and the stream holds what
the numbers so far carry. -/
structure InOrder (peer : Nat → Opcode × Bytes) (consumed : Bytes) (s : Session) : Prop where
  ahead : ∀ e ∈ s.reorder,
    s.nextExpectedId ≤ e.id ∧ e.id + 1 < 2 ^ 32 ∧ peer e.id = (e.opcode, e.payload)
  nodup : (s.reorder.map (·.id)).Nodup
  stream : consumed ++ s.stream.content = streamUpTo peer s.nextExpectedId

variable {append : Nat → Bool}

theorem accept_eq (s : Session) (e : Reorder) (h : append e.id = true) :
    ∃ stream saw, s.accept e append = some { s with stream := stream, sawServerReset := saw } ∧
      stream.content = s.stream.content ++ contribution (e.opcode, e.payload) := by
  unfold Session.accept
  split_ifs with hreset hctl
  · exact ⟨s.stream, true, rfl, by simp [contribution, hreset]⟩
  · exact ⟨_, s.sawServerReset, rfl, by simp [Stream.content_append, contribution, hctl.1]⟩
  refine ⟨s.stream, s.sawServerReset, rfl, ?_⟩
  by_cases hop : e.opcode = .controlV1
  · have hnil : e.payload = [] := by_contra fun h ↦ hctl ⟨hop, h⟩
    simp [contribution, hnil]
  · simp [contribution, hop]

/-- One round of the delivery loop. -/
theorem InOrder.round (hs : InOrder peer consumed s) {e : Reorder}
    (he : s.reorder.find? (fun e ↦ e.id = s.nextExpectedId) = some e) {stream : Stream}
    (saw : Bool)
    (hc : stream.content = s.stream.content ++ contribution (e.opcode, e.payload)) :
    let t := { s with
      reorder := s.reorder.eraseP fun e ↦ e.id = s.nextExpectedId
      stream := stream
      sawServerReset := saw
      nextExpectedId := (s.nextExpectedId + 1) % 2 ^ 32 }
    InOrder peer consumed t ∧ ∀ id, Covered peer s id → Covered peer t id := by
  have hmem := mem_of_find?_eq_some he
  have hid : e.id = s.nextExpectedId := by simpa using List.find?_some he
  obtain ⟨-, hmax, hpeer⟩ := hs.ahead e hmem
  have hnext : (s.nextExpectedId + 1) % 2 ^ 32 = s.nextExpectedId + 1 :=
    Nat.mod_eq_of_lt (by omega)
  -- Numbers are unique in the list, so no other entry carries the number taken out.
  have hother : ∀ e' ∈ s.reorder.eraseP fun e ↦ e.id = s.nextExpectedId,
      e'.id ≠ s.nextExpectedId := by
    intro e' he' h
    obtain ⟨d, l₁, l₂, -, hd, hl, hl'⟩ := exists_of_eraseP
      (p := fun e : Reorder ↦ e.id = s.nextExpectedId) hmem (by simpa using hid)
    have hnd := hs.nodup
    rw [hl, map_append, map_cons, nodup_middle, nodup_cons, ← map_append] at hnd
    exact hnd.1 (mem_map.2 ⟨e', hl' ▸ he', h.trans (of_decide_eq_true hd).symm⟩)
  dsimp only
  rw [hnext]
  refine ⟨⟨fun e' he' ↦ ?_, hs.nodup.sublist (eraseP_sublist.map _), ?_⟩, fun id hcov ↦ ?_⟩
  · obtain ⟨h₁, h₂, h₃⟩ := hs.ahead e' (mem_of_mem_eraseP he')
    have := hother e' he'
    exact ⟨by dsimp only; omega, h₂, h₃⟩
  · dsimp only
    rw [streamUpTo_succ, ← hs.stream, append_assoc, hc, ← hpeer, hid]
  rcases hcov with h | h
  · exact .inl (by dsimp only; omega)
  by_cases hidn : id = s.nextExpectedId
  · exact .inl (by dsimp only; omega)
  · exact .inr ((mem_eraseP_of_neg (by simpa using hidn)).2 h)

/-- The delivery loop keeps the order and loses nothing, as long as there is memory. -/
theorem deliver_inOrder (happ : ∀ n, append n = true) (n : Nat) :
    ∀ {s : Session}, InOrder peer consumed s → ∃ t, deliver append n s = (t, true) ∧
      InOrder peer consumed t ∧ (∀ id, Covered peer s id → Covered peer t id) ∧
      t.pendingAcks = s.pendingAcks ∧ t.socket = s.socket ∧ t.outstanding = s.outstanding := by
  induction n with
  | zero => exact fun {s} hs ↦ ⟨s, rfl, hs, fun _ h ↦ h, rfl, rfl, rfl⟩
  | succ n ih =>
    intro s hs
    unfold deliver
    cases he : s.reorder.find? fun e ↦ e.id = s.nextExpectedId with
    | none => exact ⟨s, rfl, hs, fun _ h ↦ h, rfl, rfl, rfl⟩
    | some e =>
      obtain ⟨stream, saw, hacc, hc⟩ := accept_eq
        { s with reorder := s.reorder.eraseP fun e ↦ e.id = s.nextExpectedId } e (happ e.id)
      obtain ⟨hround, hcov⟩ := hs.round he saw hc
      obtain ⟨t, hdel, ht, htc, h₁, h₂, h₃⟩ := ih hround
      simp only [hacc]
      exact ⟨t, hdel, ht, fun id h ↦ htc id (hcov id h), h₁, h₂, h₃⟩

/-! ## The invariant -/

/-- What holds in every state of a run that loses no acknowledged packet. -/
structure Inv (peer : Nat → Opcode × Bytes) (consumed : Bytes) (s : Session) : Prop where
  inOrder : InOrder peer consumed s
  queued : ∀ id ∈ s.pendingAcks, Covered peer s id
  sent : ∀ id ∈ acked s, Covered peer s id
  tracked : Tracked s

variable (hs : Inv peer consumed s)

include hs

theorem Inv.sends {t : Session} (h : Sends s t) :
    Inv peer consumed t := by
  have hcov : ∀ id, Covered peer s id → Covered peer t id := by
    intro id hid
    unfold Covered
    rw [h.next, h.reorder]
    exact hid
  refine ⟨⟨?_, ?_, ?_⟩, fun id hid ↦ hcov id (hs.queued id (h.queued id hid)), fun id hid ↦ ?_,
    h.tracked⟩
  · rw [h.reorder, h.next]; exact hs.inOrder.ahead
  · rw [h.reorder]; exact hs.inOrder.nodup
  · rw [h.stream, h.next]; exact hs.inOrder.stream
  · rcases h.sent id hid with h | h
    · exact hcov id (hs.sent id h)
    · exact hcov id (hs.queued id h)

/-- Queueing a covered number for acknowledgement. -/
theorem Inv.queue (h : Covered peer s id) :
    Inv peer consumed { s with pendingAcks := s.pendingAcks ++ [id] } := by
  refine ⟨⟨hs.inOrder.ahead, hs.inOrder.nodup, hs.inOrder.stream⟩, fun i hi ↦ ?_, hs.sent,
    hs.tracked⟩
  rcases mem_append.1 hi with hi | hi
  · exact hs.queued i hi
  · rw [mem_singleton.1 hi]; exact h

omit hs

/-- A waiting packet with a number is the peer's packet with that number. -/
theorem InOrder.covered (hs : InOrder peer consumed s) {e : Reorder}
    (he : e ∈ s.reorder) : Covered peer s e.id := by
  refine .inr ?_
  rw [(hs.ahead e he).2.2]
  exact he

include hs

/-- A new packet of the peer's joins the reorder list. -/
theorem Inv.hold {opcode : Opcode} {payload : Bytes} (hpeer : peer id = (opcode, payload))
    (hnext : s.nextExpectedId ≤ id) (hmax : id + 1 < 2 ^ 32) (hnew : ∀ e ∈ s.reorder, e.id ≠ id) :
    Inv peer consumed { s with reorder := ⟨id, opcode, payload⟩ :: s.reorder } := by
  have hcov : ∀ i, Covered peer s i →
      Covered peer { s with reorder := ⟨id, opcode, payload⟩ :: s.reorder } i :=
    fun i hi ↦ hi.imp (fun h ↦ h) fun h ↦ mem_cons_of_mem _ h
  refine ⟨⟨fun e he ↦ ?_, ?_, hs.inOrder.stream⟩, fun i hi ↦ hcov i (hs.queued i hi),
    fun i hi ↦ hcov i (hs.sent i hi), hs.tracked⟩
  · rcases mem_cons.1 he with rfl | he
    · exact ⟨hnext, hmax, hpeer⟩
    · exact hs.inOrder.ahead e he
  · rw [map_cons, nodup_cons]
    refine ⟨fun h ↦ ?_, hs.inOrder.nodup⟩
    obtain ⟨e, he, hid⟩ := mem_map.1 h
    exact hnew e he hid

theorem Inv.deliver (happ : ∀ n, append n = true) (n : Nat) :
    ∃ t, deliver append n s = (t, true) ∧ Inv peer consumed t := by
  obtain ⟨t, ht, hin, hcov, h₁, h₂, h₃⟩ := deliver_inOrder happ n hs.inOrder
  refine ⟨t, ht, hin, fun id hid ↦ hcov id (hs.queued id (h₁ ▸ hid)), fun id hid ↦ ?_,
    fun o ho ↦ ?_⟩
  · rw [acked, h₂] at hid
    exact hcov id (hs.sent id hid)
  · rw [h₂]
    exact hs.tracked o (h₃ ▸ ho)

theorem receivePacket_inv {opcode : Opcode} {payload : Bytes} {fate : Fate}
    (hpeer : peer id = (opcode, payload)) (hwindow : id < s.nextExpectedId + 64)
    (hkeep : s.nextExpectedId ≤ id → (∀ e ∈ s.reorder, e.id ≠ id) → id + 1 < 2 ^ 32 ∧
      fate.packet = true ∧ (payload ≠ [] → fate.payload = true) ∧ ∀ n, fate.append n = true) :
    Inv peer consumed (receivePacket s opcode id payload fate).1 := by
  rw [receivePacket]
  dsimp only
  -- The number is queued if there is room; either way the receiving side is that of `s`.
  generalize hq : (if s.pendingAcks.length < 256 then
    { s with pendingAcks := s.pendingAcks ++ [id] } else s) = q
  have hreorder : q.reorder = s.reorder := by rw [← hq]; split <;> rfl
  have hnext : q.nextExpectedId = s.nextExpectedId := by rw [← hq]; split <;> rfl
  split
  · rename_i hdrop
    rw [hreorder, hnext] at hdrop
    have hcov : Covered peer s id := by
      rcases hdrop with h | h | h
      · exact .inl h
      · omega
      obtain ⟨e, he, hid⟩ := any_eq_true.1 h
      simp only [decide_eq_true_eq] at hid
      subst hid
      exact hs.inOrder.covered he
    have hinv : Inv peer consumed q := by
      rw [← hq]
      split
      · exact hs.queue hcov
      · exact hs
    exact hinv.sends (sendAck_sends hinv.tracked _)
  · rename_i hdrop
    rw [hreorder, hnext] at hdrop
    simp only [not_or, not_lt, any_eq_true, decide_eq_true_eq, not_exists, not_and] at hdrop
    obtain ⟨hge, -, hnew⟩ := hdrop
    obtain ⟨hmax, hpacket, hpayload, happ⟩ := hkeep hge hnew
    have hinv : Inv peer consumed { q with reorder := ⟨id, opcode, payload⟩ :: q.reorder } := by
      have hhold := hs.hold hpeer hge hmax hnew
      rw [← hq]
      split
      · refine hhold.queue (.inr ?_)
        rw [hpeer]
        exact mem_cons_self
      · exact hhold
    rw [if_neg (by simp [hpacket]), if_neg (by rintro ⟨h, h'⟩; simp [hpayload h] at h')]
    obtain ⟨t, ht, htinv⟩ := hinv.deliver happ
      ((⟨id, opcode, payload⟩ :: q.reorder : List Reorder).length + 1)
    rw [ht]
    exact htinv.sends (sendAck_sends htinv.tracked _)

omit hs

theorem handleControl_inv {s : System} (hs : Inv peer s.consumed s.session) {bytes : Bytes}
    {fate : Fate} (hpeer : FromPeer peer s (.receive bytes fate))
    (hkept : Kept s (.receive bytes fate)) :
    Inv peer s.consumed (handleControl s.session bytes fate).1 := by
  unfold handleControl
  cases hp : parseHeader s.session bytes with
  | none => exact hs
  | some h =>
    have hinv := hs.sends (acceptHeader_sends hs.tracked h)
    by_cases hack : h.opcode = .ackV1
    · simp only [hack, if_true]
      exact hinv
    by_cases hlen : h.rest.length < 4
    · simp only [hack, hlen, if_true, if_false]
      exact hinv
    have hn : numbered s.session bytes = some ⟨readU32 h.rest, h.opcode, h.rest.drop 4⟩ := by
      simp [numbered, hp, hack, hlen]
    have hk := hkept _ hn
    simp only [hack, hlen, if_false]
    exact receivePacket_inv hinv (hpeer _ hn) hk.1 hk.2

theorem Inv.step {s : System} {e : Event} (hs : Inv peer s.consumed s.session)
    (hpeer : FromPeer peer s e) (hkept : Kept s e) :
    Inv peer (step s e).consumed (step s e).session := by
  cases e with
  | receive bytes fate => exact handleControl_inv hs hpeer hkept
  | send opcode payload now fate => exact hs.sends (sendControl_sends hs.tracked _ _ _ _)
  | retransmit now sent => exact hs.sends (retransmit_sends hs.tracked _ _)
  | read | discard =>
    refine ⟨⟨hs.inOrder.ahead, hs.inOrder.nodup, ?_⟩, hs.queued, hs.sent, hs.tracked⟩
    simp only [OpenVpn.step, append_assoc, Stream.read_content, Stream.content_empty, append_nil]
    exact hs.inOrder.stream

theorem inv_init (localSession : Bytes) (keyId : Nat) :
    Inv peer [] { localSession := localSession, keyId := keyId } :=
  ⟨⟨by simp, nodup_nil, rfl⟩, by simp, by simp [acked], fun _ h ↦ by simp at h⟩

end

/-! ## Reliability -/

/-- What the peer and TLS rely on: every number in an ACK is covered, and the stream so far is the
payloads of the numbers 0, 1, 2, … without a gap or a repeat. -/
structure Reliable (peer : Nat → Opcode × Bytes) (s : System) : Prop where
  acks : ∀ id ∈ acked s.session, Covered peer s.session id
  stream : s.consumed ++ s.session.stream.content = streamUpTo peer s.session.nextExpectedId

/-- **The control channel is reliable while packets stay inside the window**: over every order,
duplication and loss of the peer's packets, in every state of a run in which no packet is 64 or more
numbers ahead and there is memory for new packets. -/
theorem reliable_run (peer : Nat → Opcode × Bytes) (localSession : Bytes) (keyId : Nat)
    (es : List Event)
    (hpeer : Along step (FromPeer peer) ⟨{ localSession := localSession, keyId := keyId }, []⟩ es)
    (hkept : Along step Kept ⟨{ localSession := localSession, keyId := keyId }, []⟩ es) :
    Reliable peer (run step ⟨{ localSession := localSession, keyId := keyId }, []⟩ es) := by
  have h : Inv peer _
      (run step ⟨{ localSession := localSession, keyId := keyId }, []⟩ es).session :=
    run_inv (I := fun s ↦ Inv peer s.consumed s.session)
      (G := fun s e ↦ FromPeer peer s e ∧ Kept s e)
      (fun s e hs hG ↦ hs.step hG.1 hG.2) es (inv_init localSession keyId) (hpeer.and hkept)
  exact ⟨h.sent, h.inOrder.stream⟩

/-- A peer whose packets all carry the byte "x". -/
def peerX : Nat → Opcode × Bytes := fun _ ↦ (.controlV1, bytes "x")

/-- The datagram with the peer's packet of a given number. -/
def datagramX (id : Nat) : Bytes :=
  Datagram.toBytes ⟨.controlV1, 0, bytes "servers.", [], [], some (id, bytes "x")⟩

/-- The packet arrives, and no call fails. -/
def arrival (id : Nat) : Event := .receive (datagramX id) {}

/-- A fresh session. -/
def fresh : System := ⟨{ localSession := bytes "clients." }, []⟩

section

variable {s : System} (hn : numbered s.session (datagramX id) = some ⟨id, .controlV1, bytes "x"⟩)

include hn

theorem fromPeer_arrival : FromPeer peerX s (arrival id) := by
  intro p hp
  obtain rfl := Option.some.inj (hn.symm.trans hp)
  rfl

theorem kept_arrival (hw : id < s.session.nextExpectedId + 64) (hmax : id + 1 < 2 ^ 32) :
    Kept s (arrival id) := by
  intro p hp
  obtain rfl := Option.some.inj (hn.symm.trans hp)
  exact ⟨hw, fun _ _ ↦ ⟨hmax, rfl, fun _ ↦ rfl, fun _ ↦ rfl⟩⟩

end

/-- Packets 1, 0 and 1 again arrive in this order: the hypotheses of `reliable_run` hold. -/
theorem reliable_run_reordered :
    Reliable peerX (run step fresh [arrival 1, arrival 0, arrival 1]) := by
  refine reliable_run peerX (bytes "clients.") 0 [arrival 1, arrival 0, arrival 1] ?_ ?_
  · exact ⟨fromPeer_arrival (by decide), fromPeer_arrival (by decide),
      fromPeer_arrival (by decide), trivial⟩
  · exact ⟨kept_arrival (by decide) (by decide) (by decide),
      kept_arrival (by decide) (by decide) (by decide),
      kept_arrival (by decide) (by decide) (by decide), trivial⟩

/-- The peer's packet 64 overtakes all the others.  It is acknowledged, but neither delivered nor
kept. -/
theorem overtaking_lost :
    Along step (FromPeer peerX) fresh [arrival 64] ∧
      acked (run step fresh [arrival 64]).session = [64] ∧
      (run step fresh [arrival 64]).session.nextExpectedId = 0 ∧
      (run step fresh [arrival 64]).session.reorder = [] ∧
      ¬Reliable peerX (run step fresh [arrival 64]) := by
  have hacked : acked (run step fresh [arrival 64]).session = [64] := by decide
  have hnext : (run step fresh [arrival 64]).session.nextExpectedId = 0 := by decide
  have hreorder : (run step fresh [arrival 64]).session.reorder = [] := by decide
  refine ⟨⟨fromPeer_arrival (by decide), trivial⟩, hacked, hnext, hreorder, fun h ↦ ?_⟩
  rcases h.acks 64 (by rw [hacked]; exact mem_singleton_self _) with h | h
  · rw [hnext] at h
    omega
  · rw [hreorder] at h
    exact absurd h not_mem_nil

end ClambHook.OpenVpn
