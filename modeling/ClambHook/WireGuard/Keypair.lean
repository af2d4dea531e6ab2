import ClambHook.Basic

/-!
# WireGuard keypairs

The vendored protocol library keeps three session keypairs for each peer: the current one, the
previous one, and the next one, which becomes current with the first packet received under it.  The
functions here are those of `wireguard.c` that the data path of `protocol_wireguard.c` calls.

The clock `wireguard_sys_now` counts milliseconds in 32 bits and wraps; it is an argument.
-/

namespace ClambHook.WireGuard

open CString

/-- `REKEY_AFTER_MESSAGES` and `REJECT_AFTER_MESSAGES`, in packets. -/
def rekeyAfterMessages : UInt64 := (1 : UInt64) <<< 60
def rejectAfterMessages : UInt64 := (0xFFFFFFFFFFFFFFFF : UInt64) - (1 : UInt64) <<< 13

/-- `REKEY_AFTER_TIME`, `REJECT_AFTER_TIME` and `REKEY_TIMEOUT`, in seconds. -/
def rekeyAfterTime : UInt32 := 120
def rejectAfterTime : UInt32 := 180
def rekeyTimeout : UInt32 := 5

/-- `struct wireguard_keypair`. -/
structure Keypair where
  valid : Bool
  initiator : Bool
  keypairMillis : UInt32
  sendingKey : Bytes
  sendingValid : Bool
  sendingCounter : UInt64
  receivingKey : Bytes
  receivingValid : Bool
  lastTx : UInt32
  lastRx : UInt32
  replayBitmap : UInt64
  replayCounter : UInt64
  localIndex : UInt32
  remoteIndex : UInt32
deriving DecidableEq, Repr

/-- What `keypair_destroy` leaves behind: all bytes zero. -/
def Keypair.destroyed : Keypair where
  valid := false
  initiator := false
  keypairMillis := 0
  sendingKey := List.replicate 32 0
  sendingValid := false
  sendingCounter := 0
  receivingKey := List.replicate 32 0
  receivingValid := false
  lastTx := 0
  lastRx := 0
  replayBitmap := 0
  replayCounter := 0
  localIndex := 0
  remoteIndex := 0

/-- The part of `struct wireguard_peer` that the data path uses. -/
structure Protocol where
  valid : Bool
  curr : Keypair
  prev : Keypair
  next : Keypair
  lastTx : UInt32 := 0
  lastRx : UInt32 := 0
  sendHandshake : Bool := false
deriving DecidableEq, Repr

/-- A pointer to one of a peer's keypairs. -/
inductive KeySlot where
  | curr
  | next
  | prev
deriving DecidableEq, Repr

/-- Reading through the pointer. -/
def Protocol.keypair (p : Protocol) : KeySlot → Keypair
  | .curr => p.curr
  | .next => p.next
  | .prev => p.prev

/-- Writing through the pointer. -/
def Protocol.setKeypair (p : Protocol) : KeySlot → Keypair → Protocol
  | .curr, k => { p with curr := k }
  | .next, k => { p with next := k }
  | .prev, k => { p with prev := k }

@[simp] theorem Protocol.keypair_setKeypair (p : Protocol) (slot : KeySlot) (k : Keypair) :
    (p.setKeypair slot k).keypair slot = k := by
  cases slot <;> rfl

/-- `wireguard_expired`: the difference wraps with the clock. -/
def expired (now created validSeconds : UInt32) : Bool :=
  now - created ≥ validSeconds * 1000

/-- A keypair answers to an index. -/
def Keypair.named (k : Keypair) (index : UInt32) : Bool :=
  k.valid && k.localIndex == index

/-- `peer_lookup_by_receiver`: the first valid peer with a keypair of that index. -/
def peerLookupByReceiver (device : List Protocol) (receiver : UInt32) : Option Nat :=
  device.findIdx? fun p ↦
    p.valid && (p.curr.named receiver || p.next.named receiver || p.prev.named receiver)

/-- `get_peer_keypair_for_idx`. -/
def Protocol.keypairForIdx (p : Protocol) (index : UInt32) : Option KeySlot :=
  if p.curr.named index then some .curr
  else if p.next.named index then some .next
  else if p.prev.named index then some .prev
  else none

/-- A keypair found by its index is valid. -/
theorem Protocol.valid_of_keypairForIdx {p : Protocol} {index : UInt32} {slot : KeySlot}
    (h : p.keypairForIdx index = some slot) : (p.keypair slot).valid = true := by
  have key : ∀ {k : Keypair}, k.named index = true → k.valid = true :=
    fun hk ↦ (Bool.and_eq_true_iff.1 hk).1
  unfold Protocol.keypairForIdx at h
  split_ifs at h with hc hn hp
  · obtain rfl := Option.some.inj h; exact key hc
  · obtain rfl := Option.some.inj h; exact key hn
  · obtain rfl := Option.some.inj h; exact key hp

/-- `wireguard_check_replay`: the window of RFC 2401 over the last 64 counters.  Counters are
shifted by one, so that the last counter of all is never accepted. -/
def checkReplay (k : Keypair) (counter : UInt64) : Keypair × Bool :=
  let seq := counter + 1
  if seq = 0 then (k, false)
  else if seq > k.replayCounter then
    let diff := seq - k.replayCounter
    let bitmap := if diff < 64 then k.replayBitmap <<< diff ||| 1 else 1
    ({ k with replayBitmap := bitmap, replayCounter := seq }, true)
  else
    let diff := k.replayCounter - seq
    if diff < 64 then
      if k.replayBitmap &&& (1 <<< diff) ≠ 0 then (k, false)
      else ({ k with replayBitmap := k.replayBitmap ||| (1 <<< diff) }, true)
    else (k, false)

/-- `keypair_update`: the next keypair becomes the current one when it is used. -/
def Protocol.keypairUpdate (p : Protocol) (received : KeySlot) : Protocol :=
  if received = .next then { p with prev := p.curr, curr := p.next, next := .destroyed } else p

end ClambHook.WireGuard
