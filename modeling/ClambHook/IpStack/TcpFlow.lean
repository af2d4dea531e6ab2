import ClambHook.Net.Buffer

/-!
# TCP flows of the TUN stack

A TCP flow of `ip_stack.c` joins a client connection, which lwIP terminates, to an outgoing socket.
lwIP hands the client's bytes to `ch_ip_stack_tcp_receive`, which queues them; the periodic
`ch_ip_stack_tcp_flow_tick` sends them on, and moves what the socket receives to lwIP.

The two ends are part of a flow's state: `socketSent` and `writeShut` are the outgoing socket,
`clientOut` and `clientShut` are what lwIP has been given.  The results of `send`, `recv` and of the
calls into lwIP are inputs.
-/

namespace ClambHook.IpStack

open CString Window Net

/-- A `ch_ip_stack_tcp_flow` behind its handshake.  The queue of the source ends at
`pending_length`; here `pending.length` is the number of queued bytes. -/
structure Flow where
  /-- The client's control block and the outgoing socket are there. -/
  client : Bool := true
  descriptor : Bool := true
  createdAt : UInt32 := 0
  pending : Queue UInt8 := .empty
  remotePending : Queue UInt8 := .empty
  clientEof : Bool := false
  remoteEof : Bool := false
  dead : Bool := false
  closeObserved : Option Bytes := none
  /-- The bytes that `send` has taken, and whether the write side of the socket is shut. -/
  socketSent : Bytes := []
  writeShut : Bool := false
  /-- The bytes given to `tcp_write`, whether `tcp_shutdown` has been called, and the sum of the
  arguments of `tcp_recved`. -/
  clientOut : Bytes := []
  clientShut : Bool := false
  credited : Nat := 0
  /-- The totals reported to the traffic store. -/
  observedReceived : Nat := 0
  observedSent : Nat := 0
  /-- The flow has been given up: by an abort, or by an error of the client connection. -/
  aborted : Bool := false
deriving DecidableEq

/-- `ch_ip_stack_tcp_observe_close`: the first reason counts. -/
def Flow.observeClose (f : Flow) (reason : String) : Flow :=
  { f with closeObserved := f.closeObserved.or (some (bytes reason)) }

/-- `ch_ip_stack_tcp_close_descriptor`: both directions are shut and the socket is closed. -/
def Flow.closeDescriptor (f : Flow) : Flow :=
  { f with descriptor := false, writeShut := f.writeShut || f.descriptor }

/-- `ch_ip_stack_tcp_flow_abort`. -/
def Flow.abort (f : Flow) : Flow :=
  { ({ f with client := false }.closeDescriptor.observeClose "TCP flow aborted") with
    dead := true, aborted := true }

/-- `ch_ip_stack_tcp_error`: lwIP has dropped the client connection. -/
def Flow.tcpError (f : Flow) : Flow :=
  { ({ f with client := false, dead := true }.observeClose "TCP stack error").closeDescriptor with
    aborted := true }

/-- `ch_ip_stack_tcp_receive`: a chain of bytes, or `none` for the client's FIN.  The FIN shuts the
write side of the socket at once. -/
def tcpReceive (f : Flow) (packet : Option Bytes) (error : Err) (alloc : Bool) : Flow × Err :=
  if f.dead ∨ error ≠ .ok then (f, if error = .ok then .abrt else error)
  else
    match packet with
    | none => ({ f with clientEof := true, writeShut := f.writeShut || f.descriptor }, .ok)
    | some bs =>
      if bs = [] then (f, .ok)
      else
        match ipStackBufferReserve f.pending bs.length alloc with
        | none => (f, .mem)
        | some q => ({ f with pending := q.write bs, credited := f.credited + bs.length }, .ok)

/-! ## The tick -/

/-- The sending loop of `ch_ip_stack_tcp_flow_tick`, over the results of its calls to `send`; when
they run out, the socket would block.  The flag tells whether the tick goes on.  A socket whose
write side is shut answers `EPIPE`. -/
def sendLoop : List SendResult → Flow → Flow × Bool
  | [], f => (f, true)
  | r :: rs, f =>
    if f.pending.length = 0 then (f, true)
    else
      match r with
      | .wrote n =>
        if f.writeShut then (f.abort, false)
        else
          let amount := min (n + 1) f.pending.length
          sendLoop rs
            { f with
              pending := f.pending.advance amount
              socketSent := f.socketSent ++ f.pending.content.take amount
              observedSent := f.observedSent + amount }
      | .interrupted => sendLoop rs f
      | .wouldBlock => (f, true)
      | .failed => (f.abort, false)

/-- What lwIP answers when queued remote bytes are written: the send buffer, and the results of
`tcp_write` and `tcp_output`. -/
structure WriteFate where
  sndbuf : Nat := 65535
  write : Err := .ok
  output : Bool := true
deriving DecidableEq, Repr

/-- The second part of the tick: remote bytes that lwIP had no memory for.  They are not reported to
the traffic store. -/
def flushRemote (f : Flow) (w : WriteFate) : Flow × Bool :=
  if f.remotePending.length = 0 then (f, true)
  else if w.sndbuf = 0 then (f, false)
  else
    let amount := min f.remotePending.length w.sndbuf
    if w.write = .mem then (f, false)
    else if w.write ≠ .ok ∨ !w.output then (f.abort, false)
    else
      let f' := { f with
        remotePending := (f.remotePending.advance amount).compact
        clientOut := f.clientOut ++ f.remotePending.content.take amount }
      (f', amount = f.remotePending.length)

/-- One round of the reading loop: the send buffer, `recv`, `tcp_write` and `tcp_output`, the room
for bytes that lwIP has no memory for, and `tcp_shutdown`. -/
structure Round where
  sndbuf : Nat := 65535
  recv : RecvResult
  write : Err := .ok
  output : Bool := true
  alloc : Bool := true
  shutdown : Bool := true
deriving DecidableEq, Repr

/-- The reading loop of the tick, over the answers it gets; `attempt` counts the rounds that were
not interrupted.  The flag tells whether the tick goes on. -/
def readLoop : Nat → List Round → Flow → Flow × Bool
  | _, [], f => (f, true)
  | attempt, r :: rs, f =>
    if attempt ≥ 4 ∨ f.remoteEof ∨ r.sndbuf = 0 then (f, true)
    else
      match r.recv with
      | .interrupted => readLoop attempt rs f
      | .wouldBlock => (f, true)
      | .failed => (f.abort, false)
      | .data bs =>
        let received := bs.take (min r.sndbuf 16384)
        if received = [] then
          if !r.shutdown then ({ f with remoteEof := true }.abort, false)
          else ({ f with remoteEof := true, clientShut := true }, true)
        else if r.write = .mem then
          match ipStackBufferReserve
              { f.remotePending with offset := 0, length := 0, fits := by simp }
              received.length r.alloc with
          | none => (f.abort, false)
          | some q => ({ f with remotePending := q.write received }, true)
        else if r.write ≠ .ok ∨ !r.output then (f.abort, false)
        else
          readLoop (attempt + 1) rs
            { f with
              clientOut := f.clientOut ++ received
              observedReceived := f.observedReceived + received.length }

/-- The end of the tick: a flow with both ends of stream and nothing queued is closed. -/
def finish (f : Flow) (close : Bool) : Flow :=
  if f.clientEof ∧ f.remoteEof ∧ f.pending.length = 0 ∧ f.remotePending.length = 0 ∧ f.client ∧
      close then ({ f with client := false, dead := true }.observeClose "closed").closeDescriptor
  else f

/-- What a tick meets. -/
structure TickFate where
  now : UInt32 := 0
  sends : List SendResult := []
  write : WriteFate := {}
  rounds : List Round := []
  close : Bool := true
deriving DecidableEq, Repr

/-- `ch_ip_stack_tcp_flow_tick`. -/
def tick (f : Flow) (t : TickFate) : Flow :=
  if f.dead then f
  else if !f.client ∧ t.now - f.createdAt ≥ 30000 then f.abort
  else if !f.descriptor ∨ !f.client then f
  else
    match sendLoop t.sends f with
    | (f, false) => f
    | (f, true) =>
      match flushRemote { f with pending := f.pending.rewind } t.write with
      | (f, false) => f
      | (f, true) =>
        match readLoop 0 t.rounds f with
        | (f, false) => f
        | (f, true) => finish f t.close

/-! ## The client connection -/

/-- A flow and what lwIP does in front of it: it delivers the client's bytes in order, keeps a chain
that was refused for want of memory, and delivers nothing else until that chain has been taken. -/
structure System where
  flow : Flow := {}
  /-- The bytes the client has sent, and whether its FIN has been delivered. -/
  clientSent : Bytes := []
  finned : Bool := false
  refused : Option Bytes := none
deriving DecidableEq

inductive Event where
  /-- New bytes of the client, at most 65535 of them. -/
  | segment (bs : Bytes) (alloc : Bool)
  /-- lwIP offers a refused chain again. -/
  | redeliver (alloc : Bool)
  | fin
  | tick (t : TickFate)
  /-- The client connection fails. -/
  | error

/-- lwIP may deliver something new from the client. -/
def System.open (s : System) : Bool :=
  s.flow.client && !s.finned && s.refused.isNone

def step (s : System) : Event → System
  | .segment bs alloc =>
    if s.open ∧ bs.length ≤ 65535 then
      let r := tcpReceive s.flow (some bs) .ok alloc
      { s with
        flow := r.1
        clientSent := s.clientSent ++ bs
        refused := if r.2 = .mem then some bs else none }
    else s
  | .redeliver alloc =>
    match s.refused with
    | none => s
    | some bs =>
      if s.flow.client then
        let r := tcpReceive s.flow (some bs) .ok alloc
        { s with flow := r.1, refused := if r.2 = .mem then some bs else none }
      else s
  | .fin =>
    if s.open then { s with flow := (tcpReceive s.flow none .ok true).1, finned := true } else s
  | .tick t => { s with flow := tick s.flow t }
  | .error => if s.flow.client then { s with flow := s.flow.tcpError } else s

end ClambHook.IpStack
