import ClambHook.WireGuard.Session

/-!
# Forged transport data

Whoever can send a UDP packet to the client can send it a transport-data packet with any index, any
counter and any bytes behind them.  Unless its tag verifies under the keypair it names, such a
packet is meant to leave no trace.

`processData` checks the limits of the keypair in front of the tag, and destroys the keypair of a
packet that fails them.  So a forged packet leaves no trace exactly when it is within the limits of
the keypair that it names.
-/

namespace ClambHook.WireGuard

open CString

/-- The packet's tag does not verify under the keypair it names, if it names one. -/
def Forged (aead : Aead) (s : Session) (packet : Bytes) : Prop :=
  ∀ n ∈ s.named packet,
    aead.decrypt (packet.drop 16) (counterOf packet) (n.protocol.keypair n.key).receivingKey = none

variable {s : Session} {packet : Bytes}

theorem named_eq_some {n : Named} (h : s.named packet = some n) :
    s.device[n.slot]? = some n.protocol ∧
      n.protocol.keypairForIdx (receiverOf packet) = some n.key := by
  simp only [Session.named, Option.bind_eq_bind, Option.bind_eq_some_iff, Option.pure_def,
    Option.some.injEq] at h
  obtain ⟨slot, -, peer, -, protocol, hprotocol, key, hkey, rfl⟩ := h
  exact ⟨hprotocol, hkey⟩

theorem length_of_transportData
    (h : getMessageType packet = some .transportData) : 32 ≤ packet.length := by
  simp only [getMessageType] at h
  split at h
  · rename_i type rest
    split_ifs at h with h₁ h₂ h₃ h₄
    · cases h
    · cases h
    · cases h
    · exact h₄.2
  · cases h

/-- Destroying a keypair that a packet names changes the session: the keypair was valid. -/
theorem destroy_ne {n : Named} (h : s.named packet = some n) :
    s.modifyProtocol n.slot (fun p ↦ p.setKeypair n.key .destroyed) ≠ s := by
  obtain ⟨hprotocol, hkey⟩ := named_eq_some h
  intro heq
  have hdevice : (s.device.modify n.slot fun p ↦ p.setKeypair n.key .destroyed)[n.slot]? =
      some n.protocol := by
    rw [← hprotocol]
    exact congrArg (fun s : Session ↦ s.device[n.slot]?) heq
  rw [List.getElem?_modify_eq, hprotocol] at hdevice
  have hset : n.protocol.setKeypair n.key .destroyed = n.protocol := Option.some.inj hdevice
  have hvalid := Protocol.valid_of_keypairForIdx hkey
  rw [← hset, Protocol.keypair_setKeypair] at hvalid
  cases hvalid

/-- What a forged packet does: nothing, or it destroys the keypair it names. -/
theorem processData_forged {aead : Aead} (fate : Fate) (source : Endpoint)
    (hforged : Forged aead s packet) (hlength : 32 ≤ packet.length) :
    processData aead fate source s packet =
      match s.named packet with
      | none => (s, none)
      | some n =>
        if withinLimits (n.protocol.keypair n.key) (counterOf packet) fate.now then (s, none)
        else (s.modifyProtocol n.slot fun p ↦ p.setKeypair n.key .destroyed, none) := by
  rw [processData, if_neg (by omega)]
  cases hn : s.named packet with
  | none => rfl
  | some n =>
    have htag := hforged n hn
    by_cases hlimits : withinLimits (n.protocol.keypair n.key) (counterOf packet) fate.now = true
    · simp only [hlimits, Bool.not_true, Bool.false_eq_true, if_false, if_true, htag]
      split <;> rfl
    · simp only [hlimits, Bool.not_false, if_true, if_false, Bool.false_eq_true]

/-- **Forged transport data is inert exactly within the limits**: a transport-data packet whose tag
does not verify leaves the whole session as it was and delivers nothing iff the session is stopping,
or the keypair that the packet names, if any, is valid for receiving, not expired, and not past its
last counter. -/
theorem forged_inert_iff (aead : Aead) (handshakes : Handshakes) (fate : Fate) (source : Endpoint)
    (s : Session) (packet : Bytes) (htype : getMessageType packet = some .transportData)
    (hforged : Forged aead s packet) :
    processOuter aead handshakes fate source s packet = (s, []) ↔
      s.stopping = true ∨ ∀ n ∈ s.named packet,
        withinLimits (n.protocol.keypair n.key) (counterOf packet) fate.now = true := by
  rw [processOuter]
  cases hstop : s.stopping with
  | true => simp
  | false =>
    have hdata := processData_forged fate source hforged (length_of_transportData htype)
    simp only [Bool.false_eq_true, if_false, htype, hdata, false_or]
    cases hn : s.named packet with
    | none => simp
    | some n =>
      by_cases hlimits : withinLimits (n.protocol.keypair n.key) (counterOf packet) fate.now = true
      · simp [hlimits]
      · simp [hlimits, destroy_ne hn]

/-- An AEAD that has never seen an authentic packet. -/
def rejecting : Aead := ⟨fun _ _ _ ↦ [], fun _ _ _ ↦ none⟩

/-- Handshake handlers that do nothing. -/
def silent : Handshakes := ⟨fun _ _ s _ ↦ s, fun _ _ s _ ↦ s, fun _ _ s _ ↦ s⟩

/-- A session with one peer, whose current keypair is young and answers to the index 7. -/
def established : Session where
  device := [youngProtocol]
  peers := [{ protocol := 0, endpoint := somewhere }]

/-- A transport-data packet for the index 7 with a given counter and a tag of zeros. -/
def forgery (counter : Nat) : Bytes :=
  [4, 0, 0, 0] ++ toLittleEndian 4 7 ++ toLittleEndian 8 counter ++ List.replicate 16 0

/-- With an ordinary counter the forgery is inert. -/
theorem forgery_inert :
    processOuter rejecting silent { now := 2000 } somewhere established (forgery 5) =
      (established, []) :=
  (forged_inert_iff rejecting silent { now := 2000 } somewhere established (forgery 5) (by decide)
    (fun _ _ ↦ rfl)).2 (.inr (by decide))

/-- With the largest counter it destroys the session's current keypair. -/
theorem forgery_destroys :
    getMessageType (forgery (2 ^ 64 - 1)) = some .transportData ∧
      Forged rejecting established (forgery (2 ^ 64 - 1)) ∧
      (established.device.map fun p ↦ p.curr.valid) = [true] ∧
      ((processOuter rejecting silent { now := 2000 } somewhere established
        (forgery (2 ^ 64 - 1))).1.device.map fun p ↦ p.curr) = [.destroyed] ∧
      processOuter rejecting silent { now := 2000 } somewhere established
        (forgery (2 ^ 64 - 1)) ≠ (established, []) :=
  ⟨by decide, fun _ _ ↦ rfl, by decide, by decide, by decide⟩

end ClambHook.WireGuard
