import ClambHook.Net.Buffer

/-!
# TCP flows of a tunnel

A TCP flow of `tunnel_stack.c` joins a connection through a tunnel, which lwIP makes, to one end of
a local socket pair, the bridge.  `ch_tunnel_tcp_receive` queues what lwIP receives, and the
periodic `ch_tunnel_flow_tick` sends it on the bridge and gives lwIP the window back with
`tcp_recved`; in the other direction the tick reads the bridge and writes to lwIP.

The two ends are part of a flow's state: `delivered` and `bridgeShut` are the bridge, `handed`,
`credited`, `rcvWnd` and `release` are lwIP's control block.  The results of `send`, `recv` and of
the calls into lwIP are inputs.
-/

namespace ClambHook.TunnelStack

open CString Window Net

/-- What the command that asked for the connection has been told. -/
inductive Dial where
  | waiting
  | connected
  | failed (message : Bytes)
deriving DecidableEq, Repr

/-- How the control block was given back to lwIP. -/
inductive Release where
  | closed
  | aborted
deriving DecidableEq, Repr

/-- A `ch_tunnel_flow`. -/
structure Flow where
  pcb : Bool := true
  dial : Dial := .waiting
  bridge : Bool := false
  toLocal : Queue UInt8 := .empty
  toRemote : Queue UInt8 := .empty
  createdAt : UInt32 := 0
  connected : Bool := false
  localEof : Bool := false
  remoteEof : Bool := false
  txShutdown : Bool := false
  dead : Bool := false
  /-- The bytes the bridge has taken, and whether its write side is shut. -/
  delivered : Bytes := []
  bridgeShut : Bool := false
  /-- The bytes read from the bridge, and those of them that `tcp_write` has taken. -/
  accepted : Bytes := []
  handed : Bytes := []
  /-- The receive window of the control block, and the sum of the arguments of `tcp_recved`. -/
  rcvWnd : Nat
  credited : Nat := 0
  release : Option Release := none
deriving DecidableEq

/-- lwIP's `tcp_recved`: its argument is added to the window. -/
def Flow.tcpRecved (f : Flow) (length : UInt16) : Flow :=
  { f with rcvWnd := f.rcvWnd + length.toNat, credited := f.credited + length.toNat }

/-- `ch_tunnel_flow_signal_error`. -/
def Flow.signalError (f : Flow) (message : String) : Flow :=
  match f.dial with
  | .waiting => { f with dial := .failed (bytes message) }
  | .connected | .failed _ => f

/-- `ch_tunnel_flow_release_pcb`; `close` is the outcome of `tcp_close`. -/
def Flow.releasePcb (f : Flow) (aborting close : Bool) : Flow :=
  if !f.pcb then f
  else { f with pcb := false, release := some (if aborting ∨ !close then .aborted else .closed) }

/-- `ch_tunnel_flow_destroy`. -/
def Flow.destroy (f : Flow) : Flow :=
  { ((f.releasePcb true true).signalError "tunnel TCP connection closed") with bridge := false }

/-- `ch_tunnel_tcp_connected`; `sockets` tells whether the bridge could be made. -/
def tcpConnected (f : Flow) (result : Err) (sockets : Bool) : Flow :=
  if f.dead ∨ result ≠ .ok then { f.signalError "tunnel TCP connect failed" with dead := true }
  else if !sockets then { f.signalError "create tunnel TCP bridge failed" with dead := true }
  else { f with bridge := true, connected := true, dial := .connected }

/-- `ch_tunnel_tcp_receive`: a chain of bytes, or `none` for the end of the stream. -/
def tcpReceive (f : Flow) (packet : Option Bytes) (result : Err) (alloc : Bool) : Flow × Err :=
  if f.dead then (f, .abrt)
  else if result ≠ .ok then ({ f with dead := true }, result)
  else
    match packet with
    | none => ({ f with remoteEof := true }, .ok)
    | some bs =>
      if f.toLocal.length > queueLimit - bs.length then (f, .mem)
      else
        match tunnelBufferReserve f.toLocal bs.length alloc with
        | none => (f, .mem)
        | some q => ({ f with toLocal := q.write bs }, .ok)

/-- `ch_tunnel_tcp_error`. -/
def tcpError (f : Flow) : Flow :=
  { { f with pcb := false }.signalError "tunnel TCP connection failed" with dead := true }

/-! ## The tick -/

/-- The number of queued bytes that a `send` on the bridge takes. -/
def Flow.taken (f : Flow) : SendResult → Nat
  | .wrote n => min (n + 1) f.toLocal.length
  | .interrupted | .wouldBlock | .failed => 0

/-- The first part of the tick: one `send` of everything that is queued.  The number of bytes is cut
to 16 bits for `tcp_recved`. -/
def sendLocal (f : Flow) (r : SendResult) : Flow :=
  if f.toLocal.length = 0 then f
  else
    match r with
    | .wrote n =>
      let amount := f.taken (.wrote n)
      let f' := { f with
        toLocal := (f.toLocal.advance amount).rewind
        delivered := f.delivered ++ f.toLocal.content.take amount }
      if f.pcb then f'.tcpRecved amount.toUInt16 else f'
    | .interrupted | .wouldBlock => f
    | .failed => { f with localEof := true, dead := true }

/-- The second part of the tick: the bridge is read only when nothing waits for lwIP. -/
def receiveLocal (f : Flow) (r : RecvResult) (alloc : Bool) : Flow :=
  if f.localEof ∨ f.toRemote.length ≠ 0 then f
  else
    match r with
    | .data bs =>
      let received := bs.take 16384
      if received = [] then { f with localEof := true }
      else
        let f' := { f with accepted := f.accepted ++ received }
        match tunnelBufferAppend f.toRemote received alloc with
        | none => { f' with dead := true }
        | some q => { f' with toRemote := q }
    | .interrupted | .wouldBlock => f
    | .failed => { f with localEof := true, dead := true }

/-- The third part of the tick; `write` is the outcome of `tcp_write`. -/
def writeRemote (f : Flow) (sndbuf : UInt16) (write : Bool) : Flow :=
  if f.pcb ∧ f.toRemote.length > 0 then
    let amount := min (min f.toRemote.length sndbuf.toNat) 65535
    if amount > 0 ∧ write then
      { f with
        toRemote := (f.toRemote.advance amount).rewind
        handed := f.handed ++ f.toRemote.content.take amount }
    else f
  else f

/-- The end of the tick: each direction is shut behind its last byte, and a flow with both
directions at their end is dead. -/
def shutEnds (f : Flow) (shutdown : Bool) : Flow :=
  let f := if f.pcb ∧ f.localEof ∧ f.toRemote.length = 0 ∧ !f.txShutdown ∧ shutdown then
      { f with txShutdown := true } else f
  let f := if f.remoteEof ∧ f.toLocal.length = 0 then { f with bridgeShut := true } else f
  if f.localEof ∧ f.remoteEof ∧ f.toLocal.length = 0 ∧ f.toRemote.length = 0 then
    { f with dead := true }
  else f

/-- What a tick meets. -/
structure TickFate where
  now : UInt32 := 0
  send : SendResult := .wouldBlock
  recv : RecvResult := .wouldBlock
  alloc : Bool := true
  sndbuf : UInt16 := 65535
  write : Bool := true
  shutdown : Bool := true
deriving DecidableEq, Repr

/-- `ch_tunnel_flow_tick`. -/
def tick (f : Flow) (t : TickFate) : Flow :=
  if f.dead then f
  else if !f.connected then
    if t.now - f.createdAt ≥ 30000 then
      { f.signalError "tunnel TCP connect timed out" with dead := true }
    else f
  else
    shutEnds (writeRemote (receiveLocal (sendLocal f t.send) t.recv t.alloc) t.sndbuf t.write)
      t.shutdown

/-! ## The connection through the tunnel -/

/-- `TCP_WND`: the receive window of a connection whose ends agree on window scaling. -/
def tcpWnd : Nat := 64 * 1024

/-- A flow and what lwIP does in front of it: it takes the peer's bytes in order and within the
window, keeps a chain that was refused for want of memory, and takes nothing else until that chain
has been delivered. -/
structure System where
  flow : Flow
  /-- The bytes lwIP has taken from the peer, and whether the end of the stream is delivered. -/
  received : Bytes := []
  finned : Bool := false
  refused : Option Bytes := none
deriving DecidableEq

inductive Event where
  | connected (result : Err) (sockets : Bool)
  /-- New bytes of the peer, at most 65535 of them. -/
  | segment (bs : Bytes) (alloc : Bool)
  /-- lwIP offers a refused chain again. -/
  | redeliver (alloc : Bool)
  | fin
  | tick (t : TickFate)
  /-- The connection fails. -/
  | error
  /-- `ch_tunnel_flow_sweep` destroys a dead flow. -/
  | sweep

/-- A flow as `ch_tunnel_process_dial` makes it, with the receive window `wnd`. -/
def System.start (wnd : Nat) : System :=
  { flow := { rcvWnd := wnd } }

/-- lwIP may deliver something new. -/
def System.open (s : System) : Bool :=
  s.flow.pcb && !s.finned && s.refused.isNone

def step (s : System) : Event → System
  | .connected result sockets =>
    if s.flow.pcb ∧ !s.flow.connected then { s with flow := tcpConnected s.flow result sockets }
    else s
  | .segment bs alloc =>
    if s.open ∧ bs.length ≤ s.flow.rcvWnd ∧ bs.length ≤ 65535 then
      let r := tcpReceive { s.flow with rcvWnd := s.flow.rcvWnd - bs.length } (some bs) .ok alloc
      { s with
        flow := r.1
        received := s.received ++ bs
        refused := if r.2 = .mem then some bs else none }
    else s
  | .redeliver alloc =>
    match s.refused with
    | none => s
    | some bs =>
      if s.flow.pcb then
        let r := tcpReceive s.flow (some bs) .ok alloc
        { s with flow := r.1, refused := if r.2 = .mem then some bs else none }
      else s
  | .fin =>
    if s.open then { s with flow := (tcpReceive s.flow none .ok true).1, finned := true } else s
  | .tick t => { s with flow := tick s.flow t }
  | .error => if s.flow.pcb then { s with flow := tcpError s.flow } else s
  | .sweep => if s.flow.dead then { s with flow := s.flow.destroy } else s

end ClambHook.TunnelStack
