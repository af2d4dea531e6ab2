import ClambHook.OpenVpn.Reliability

/-!
# Control packets that are rejected

`ch_ovpn_handle_control` adopts the peer's session and forgets acknowledged packets as soon as the
header is read.  It looks at what follows the header only then, so that a packet can still be
rejected when it has had its effect.
-/

namespace ClambHook.OpenVpn

open CString List

variable {s : Session} {packet : Bytes} {h : Header}

/-- The handler fails because of the packet: it does although every allocation and every `send`
succeeds. -/
def Rejected (s : Session) (packet : Bytes) : Prop :=
  (handleControl s packet {}).2 = false
deriving Decidable

/-- What follows the header is not what the opcode asks for: an ACK goes on, or any other packet
ends inside its number. -/
def Header.Misshapen (h : Header) : Prop :=
  if h.opcode = .ackV1 then h.rest ≠ [] else h.rest.length < 4

theorem handleControl_of_misshapen (hh : parseHeader s packet = some h) (hbad : h.Misshapen)
    (fate : Fate) : handleControl s packet fate = (s.acceptHeader h, false) := by
  rw [Header.Misshapen] at hbad
  simp only [handleControl, hh]
  split_ifs at hbad ⊢
  · rw [isEmpty_eq_false_iff.2 hbad]
  · rfl

theorem deliver_succeeds (n : Nat) : ∀ s : Session, (deliver (fun _ ↦ true) n s).2 = true := by
  induction n with
  | zero => exact fun _ ↦ rfl
  | succ n ih =>
    intro s
    unfold deliver
    cases s.reorder.find? fun e ↦ e.id = s.nextExpectedId with
    | none => rfl
    | some e =>
      obtain ⟨_, _, hacc, -⟩ := @accept_eq (fun _ ↦ true)
        { s with reorder := s.reorder.eraseP fun e ↦ e.id = s.nextExpectedId } e rfl
      simp only [hacc]
      exact ih _

theorem sendAck_succeeds (s : Session) : (sendAck s {}).2 = true := by
  unfold sendAck
  split
  · rfl
  · rfl

theorem receivePacket_succeeds (s : Session) (opcode : Opcode) (id : Nat) (payload : Bytes) :
    (receivePacket s opcode id payload {}).2 = true := by
  unfold receivePacket
  extract_lets s₁ s₂
  split
  · rfl
  have hdel := deliver_succeeds (s₂.reorder.length + 1) s₂
  generalize deliver (fun _ ↦ true) (s₂.reorder.length + 1) s₂ = r at hdel
  obtain ⟨t, _⟩ := r
  obtain rfl : _ = true := hdel
  simp only [Bool.not_true, Bool.false_eq_true, and_false, if_false]
  exact sendAck_succeeds t

/-- A packet is rejected for its header or for what follows it, and for nothing else. -/
theorem rejected_iff :
    Rejected s packet ↔ ∀ h, parseHeader s packet = some h → h.Misshapen := by
  constructor
  · intro hrej h hh
    by_contra hok
    rw [Rejected, handleControl] at hrej
    rw [Header.Misshapen] at hok
    simp only [hh] at hrej
    split_ifs at hok hrej
    · rw [not_not.1 hok] at hrej
      cases hrej
    · rw [receivePacket_succeeds] at hrej
      cases hrej
  · intro hall
    cases hh : parseHeader s packet with
    | none => simp only [Rejected, handleControl, hh]
    | some h => rw [Rejected, handleControl_of_misshapen hh (hall h hh)]

/-- Forgetting acknowledged packets leaves the list as it is if none of them is in it. -/
theorem foldl_removeOutstanding_eq_self (acks : List Nat) (os : List Outstanding) :
    acks.foldl removeOutstanding os = os ↔ ∀ id ∈ acks, ∀ o ∈ os, o.id ≠ id := by
  induction acks with
  | nil => simp
  | cons id acks ih =>
    rw [foldl_cons, forall_mem_cons]
    constructor
    · intro heq
      -- The rest of the loop only removes, so the first step has removed nothing.
      have hsub := removeOutstanding_sublist acks (removeOutstanding os id)
      rw [heq] at hsub
      have hfirst : removeOutstanding os id = os := (eraseP_sublist).antisymm hsub
      rw [hfirst] at heq
      refine ⟨fun o ho ↦ ?_, ih.1 heq⟩
      simpa using eraseP_eq_self_iff.1 hfirst o ho
    · rintro ⟨hid, hrest⟩
      have hfirst : removeOutstanding os id = os := eraseP_of_forall_not (by simpa using hid)
      rw [hfirst, ih.2 hrest]

/-- The header of a packet has no effect if the peer is known and nothing it acknowledges waits for
retransmission. -/
theorem acceptHeader_eq_self :
    s.acceptHeader h = s ↔
      s.haveRemoteSession = true ∧ ∀ id ∈ h.acks, ∀ o ∈ s.outstanding, o.id ≠ id := by
  rw [← foldl_removeOutstanding_eq_self]
  constructor
  · intro heq
    exact ⟨(congrArg Session.haveRemoteSession heq).symm, congrArg Session.outstanding heq⟩
  · rintro ⟨hhave, hos⟩
    rw [Session.acceptHeader, hos, if_pos hhave, ← hhave]

/-- **Rejected packets are inert exactly if their header is.**  A packet that the handler rejects
leaves the session as it is, unless the packet has a good header, does not go on as its opcode asks
for, and comes first from the peer or acknowledges a packet that waits for retransmission. -/
theorem rejected_inert_iff (s : Session) (packet : Bytes) :
    (Rejected s packet → ∀ fate, (handleControl s packet fate).1 = s) ↔
      ∀ h, parseHeader s packet = some h → h.Misshapen →
        s.haveRemoteSession = true ∧ ∀ id ∈ h.acks, ∀ o ∈ s.outstanding, o.id ≠ id := by
  constructor
  · intro hinert h hh hbad
    have hrej : Rejected s packet := by
      rw [Rejected, handleControl_of_misshapen hh hbad]
    have heq := hinert hrej {}
    rw [handleControl_of_misshapen hh hbad] at heq
    exact acceptHeader_eq_self.1 heq
  · intro hall hrej fate
    cases hh : parseHeader s packet with
    | none => simp only [handleControl, hh]
    | some h =>
      have hbad := rejected_iff.1 hrej h hh
      rw [handleControl_of_misshapen hh hbad]
      exact acceptHeader_eq_self.2 (hall h hh hbad)

/-- A fresh session that has sent its first packet, number 0. -/
def opened : Session := (sendControl fresh.session .hardResetClientV2 [] 0 {}).1

/-- An ACK of packet 0, with one byte too many. -/
def longAck : Bytes :=
  Datagram.toBytes ⟨.ackV1, 0, bytes "servers.", [0], bytes "clients.", none⟩ ++ [0]

/-- The packet is rejected, but the session has adopted its sender and forgotten packet 0. -/
theorem longAck_forgets :
    Rejected opened longAck ∧ opened.outstanding.map (·.id) = [0] ∧
      opened.haveRemoteSession = false ∧ (handleControl opened longAck {}).1.outstanding = [] ∧
      (handleControl opened longAck {}).1.haveRemoteSession = true := by
  decide

end ClambHook.OpenVpn
