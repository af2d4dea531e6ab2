import ClambHook.Config.Table

/-!
# The prompt manager

`prompt.c` holds up a connection until the user allows or blocks it.  Callers of
`ch_prompt_manager_await` with the same key share one pending prompt; each of them sits in a loop
around `pthread_cond_timedwait` until the prompt is marked resolved, and returns the verdict that
the prompt then carries.

All of this happens under one mutex, which a caller gives up only inside the timed wait.  So the
code between two waits is one atomic step, and the functions below are those steps: `awaitEnter`
up to the first wait, `awaitWake` from the end of a wait to the next wait or to the return, and
one function for each other entry point.
-/

namespace ClambHook.Prompt

open CString Config

/-- A `ch_prompt_request`.  A null field and an empty one are treated alike throughout. -/
structure Request where
  connId : Bytes := []
  profile : Bytes := []
  network : Bytes := []
  target : Bytes := []
  targetHost : Bytes := []
  targetPort : Bytes := []
  processPid : Int := 0
  processName : Bytes := []
  processPath : Bytes := []
  codeSignId : Bytes := []
  codeSignStatus : Bytes := []
  wouldUseChain : Bytes := []
  wouldUseGroup : Bytes := []
  source : Bytes := []
deriving DecidableEq, Repr

/-- A `ch_prompt_snapshot`: a copy of the request with the prompt's identifier, its times and the
number of callers waiting on it. -/
structure Snapshot where
  id : Bytes
  request : Request
  createdNs : Int
  expiresNs : Int
  waiters : Nat
deriving DecidableEq, Repr

/-- A `prompt_pending`.  The handle stands for the address of the object: no two objects that the
manager ever allocates have the same one. -/
structure Pending where
  handle : Nat
  snapshot : Snapshot
  key : Bytes
  resolved : Bool
  allow : Bool
deriving DecidableEq, Repr

/-- A `prompt_silent`. -/
structure Silent where
  snapshot : Snapshot
  allow : Bool
deriving DecidableEq, Repr

/-- A `ch_prompt_manager`.  The lists are linked lists with the newest entry in front, and
`silent_count` is the length of `silent`. -/
structure Manager where
  enabled : Bool := false
  defaultAllow : Bool := false
  timeoutSeconds : Int := 30
  silentMode : Bytes := []
  sequence : UInt64 := 0
  pending : List Pending := []
  silent : List Silent := []
  /-- The handle of the next `prompt_pending` to be allocated. -/
  nextHandle : Nat := 0
deriving DecidableEq, Repr

/-- `prompt_key`.  The process is the path, or else the name, or else a text made of the process
identifier and the source and cut off at 63 bytes. -/
def promptKey (r : Request) : Bytes :=
  let fallback := (bytes "pid:" ++ decimalInt r.processPid ++ bytes "|source:" ++ r.source).take 63
  let process :=
    if r.processPath ≠ [] then r.processPath
    else if r.processName ≠ [] then r.processName
    else fallback
  r.profile ++ bytes "|" ++ process ++ bytes "|" ++ r.network ++ bytes "|" ++ r.targetHost
    ++ bytes "|" ++ r.targetPort

/-- `prompt_snapshot_from_request`. -/
def snapshotFromRequest (r : Request) (id : Bytes) (now timeoutSeconds : Int) : Snapshot :=
  ⟨id, r, now, now + timeoutSeconds * 1000000000, 0⟩

/-- Which of the allocations on the way fails, if any. -/
inductive Fault where
  | key
  | object
  | condition
  | copy
deriving DecidableEq, Repr

/-- `prompt_record_silent_locked`: without memory for the record nothing is recorded, and a copy
that fails has already used up a number.  At most 256 records are kept. -/
def recordSilent (m : Manager) (r : Request) (allow : Bool) (now : Int) (fault : Option Fault) :
    Manager :=
  if fault = some .object then m
  else
    let sequence := m.sequence + 1
    if fault = some .copy then { m with sequence := sequence }
    else
      let id := bytes "silent-" ++ decimal sequence.toNat
      let snapshot := { snapshotFromRequest r id now 0 with expiresNs := 0 }
      let silent := ⟨snapshot, allow⟩ :: m.silent
      { m with
        sequence := sequence
        silent := if silent.length ≤ 256 then silent else silent.dropLast }

/-- `prompt_pending_key`: the first unresolved prompt with the key. -/
def pendingKey (m : Manager) (key : Bytes) : Option Pending :=
  m.pending.find? fun p ↦ !p.resolved && p.key == key

/-- Writing through a pointer to a pending prompt. -/
def Manager.set (m : Manager) (p : Pending) : Manager :=
  { m with pending := m.pending.map fun q ↦ if q.handle = p.handle then p else q }

/-- What a caller of `ch_prompt_manager_await` does when it gives the mutex up for the first time:
it returns (whether the connection is gated at all, and the verdict), or it waits on a prompt. -/
inductive Entry where
  | returns (result : Except Error (Bool × Bool))
  | waits (handle : Nat)
deriving DecidableEq

def outOfMemory (message : String) : Entry :=
  .returns (.error (.set .outOfMemory (bytes message)))

/-- `ch_prompt_manager_await`, up to the first timed wait.  A prompt found or made here is
unresolved, so the loop around the wait is always entered. -/
def awaitEnter (m : Manager) (r : Request) (now : Int) (fault : Option Fault) : Manager × Entry :=
  if !m.enabled then (m, .returns (.ok (false, false)))
  else if m.silentMode ≠ [] then
    let allow := m.silentMode == bytes "allow"
    (recordSilent m r allow now fault, .returns (.ok (true, allow)))
  else if fault = some .key then (m, outOfMemory "allocate prompt key")
  else
    match pendingKey m (promptKey r) with
    | some p =>
      let snapshot := { p.snapshot with waiters := p.snapshot.waiters + 1 }
      (m.set { p with snapshot := snapshot }, .waits p.handle)
    | none =>
      let m := { m with sequence := m.sequence + 1 }
      match fault with
      | some .condition => (m, outOfMemory "initialize pending prompt")
      | some .copy => (m, outOfMemory "copy pending prompt")
      | some _ => (m, outOfMemory "allocate pending prompt")
      | none =>
        let id := bytes "prompt-" ++ decimal m.sequence.toNat
        let snapshot := { snapshotFromRequest r id now m.timeoutSeconds with waiters := 1 }
        let p : Pending := ⟨m.nextHandle, snapshot, promptKey r, false, false⟩
        ({ m with pending := p :: m.pending, nextHandle := m.nextHandle + 1 }, .waits p.handle)

/-- What `pthread_cond_timedwait` returns: zero, `EINTR`, `ETIMEDOUT` or another error. -/
inductive WaitStatus where
  | signalled
  | interrupted
  | timedOut
  | failed
deriving DecidableEq, Repr

/-- The body of the loop in `ch_prompt_manager_await`, behind the timed wait.  The second branch
is also taken by a wait that timed out and finds its prompt resolved by someone else. -/
def Pending.afterWait (p : Pending) (defaultAllow : Bool) (status : WaitStatus) : Pending :=
  if status = .timedOut ∧ p.resolved = false then
    { p with resolved := true, allow := defaultAllow }
  else if status ≠ .signalled ∧ status ≠ .interrupted then
    { p with resolved := true, allow := false }
  else p

/-- `ch_prompt_manager_await` from the end of a timed wait on a prompt: the loop body, and then
either the next wait (`none`; the body has then left the prompt as it was) or the return, which
frees the prompt behind its last caller. -/
def awaitWake (m : Manager) (p : Pending) (status : WaitStatus) : Manager × Option Bool :=
  let p := p.afterWait m.defaultAllow status
  if p.resolved then
    let waiters := p.snapshot.waiters - 1
    let m := m.set { p with snapshot := { p.snapshot with waiters := waiters } }
    if waiters = 0 then
      ({ m with pending := m.pending.eraseP fun q ↦ q.handle = p.handle }, some p.allow)
    else (m, some p.allow)
  else (m, none)

/-- `prompt_resolve_all_locked`. -/
def resolveAll (m : Manager) (allow : Bool) : Manager :=
  { m with pending := m.pending.map fun p ↦
      if p.resolved then p else { p with resolved := true, allow := allow } }

/-- The prompt that `ch_prompt_manager_resolve` acts on: the first unresolved one with the
identifier. -/
def pendingId (m : Manager) (id : Bytes) : Option Pending :=
  m.pending.find? fun p ↦ !p.resolved && p.snapshot.id == id

/-- `ch_prompt_manager_resolve`; `copied` tells whether there was memory for the snapshot. -/
def resolve (m : Manager) (id : Bytes) (allow copied : Bool) : Manager × Except Error Snapshot :=
  if id = [] then
    (m, .error (.set .invalidArgument (bytes "prompt identifier and snapshot are required")))
  else
    match pendingId m id with
    | none => (m, .error (.set .notFound (bytes "prompt not found")))
    | some p =>
      if copied then (m.set { p with resolved := true, allow := allow }, .ok p.snapshot)
      else (m, .error (.set .outOfMemory (bytes "copy resolved prompt")))

/-- The settings that `ch_prompt_manager_configure` reads from the table `prompt`. -/
structure Settings where
  enabled : Bool := false
  defaultAllow : Bool := false
  timeoutSeconds : Int := 30
  silentMode : Bytes := []
deriving DecidableEq, Repr

/-- An optional field: its default when the key is missing, an error when it has another type. -/
def fieldOr {α : Type} (t : Table) (key : Bytes) (default : α)
    (get : Table → Bytes → Except Error α) : Except Error α :=
  if tableHas t key then get t key else .ok default

/-- The first half of `ch_prompt_manager_configure`.  A timeout that is not positive keeps the
default, and one above an hour is an hour. -/
def readSettings (config : Option Table) : Except Error Settings :=
  match config.bind fun root ↦ getTable root (bytes "prompt") with
  | none => .ok {}
  | some t => do
    let enabled ← fieldOr t (bytes "enabled") false getBool
    let defaultAllow ← fieldOr t (bytes "default_allow") false getBool
    let timeout ← fieldOr t (bytes "timeout_seconds") 0 getInt
    let silentMode ← fieldOr t (bytes "silent_mode") [] getString
    return { enabled, defaultAllow, silentMode,
             timeoutSeconds := if timeout > 0 then min timeout 3600 else 30 }

/-- `ch_prompt_manager_configure`.  The silent mode is kept in six bytes, NUL included. -/
def configure (m : Manager) (config : Option Table) : Manager × Except Error Unit :=
  match readSettings config with
  | .error e => (m, .error e)
  | .ok s =>
    ({ resolveAll m false with
        enabled := s.enabled
        defaultAllow := s.defaultAllow
        timeoutSeconds := s.timeoutSeconds
        silentMode := s.silentMode.take 5 }, .ok ())

/-- `ch_prompt_manager_destroy` up to its wait for the callers to leave. -/
def destroyBegin (m : Manager) : Manager :=
  resolveAll { m with enabled := false } false

/-! ## Interleavings -/

/-- A call of `ch_prompt_manager_await` that is inside its timed wait. -/
structure Call where
  id : Nat
  handle : Nat
deriving DecidableEq, Repr

/-- The return of a call that waited on a prompt. -/
structure Return where
  call : Nat
  handle : Nat
  allow : Bool
deriving DecidableEq, Repr

/-- The manager together with its callers. -/
structure System where
  manager : Manager := {}
  calls : List Call := []
  /-- What the calls that waited have returned, the latest first. -/
  returns : List Return := []
  nextCall : Nat := 0
  /-- `ch_prompt_manager_destroy` has been called, and has freed the manager. -/
  destroying : Bool := false
  freed : Bool := false
deriving DecidableEq, Repr

/-- One atomic step of some thread. -/
inductive Event where
  | await (request : Request) (now : Int) (fault : Option Fault)
  | wake (call : Nat) (status : WaitStatus)
  | resolve (id : Bytes) (allow copied : Bool)
  | configure (config : Option Table)
  | cancelAll
  | destroyBegin
  | destroyEnd

/-- The prompt that a waiting call holds a pointer to. -/
def System.promptOf (s : System) (call : Nat) : Option (Call × Pending) := do
  let c ← s.calls.find? fun c ↦ c.id = call
  let p ← s.manager.pending.find? fun p ↦ p.handle = c.handle
  return (c, p)

/-- A call has gone through `awaitEnter`: it has returned, or it waits from now on. -/
def System.entered (s : System) : Manager × Entry → System
  | (m, .returns _) => { s with manager := m }
  | (m, .waits handle) =>
    { s with
      manager := m
      calls := ⟨s.nextCall, handle⟩ :: s.calls
      nextCall := s.nextCall + 1 }

/-- A call has gone through `awaitWake`: it waits again, or it has returned a verdict. -/
def System.woken (s : System) (c : Call) : Manager × Option Bool → System
  | (m, none) => { s with manager := m }
  | (m, some allow) =>
    { s with
      manager := m
      calls := s.calls.eraseP fun d ↦ d.id = c.id
      returns := ⟨c.id, c.handle, allow⟩ :: s.returns }

/-- A thread's step.  Only a waiting call can wake up, `ch_prompt_manager_destroy` comes to its end
once no call waits, and nobody enters a manager that has been freed. -/
def step (s : System) : Event → System
  | .await r now fault => if s.freed then s else s.entered (awaitEnter s.manager r now fault)
  | .wake call status =>
    match s.promptOf call with
    | none => s
    | some (c, p) => s.woken c (awaitWake s.manager p status)
  | .resolve id allow copied => { s with manager := (resolve s.manager id allow copied).1 }
  | .configure config => { s with manager := (configure s.manager config).1 }
  | .cancelAll => { s with manager := resolveAll s.manager false }
  | .destroyBegin => { s with manager := destroyBegin s.manager, destroying := true }
  | .destroyEnd =>
    if s.destroying ∧ ∀ p ∈ s.manager.pending, p.snapshot.waiters = 0 then
      { s with manager := { s.manager with pending := [], silent := [] }, freed := true }
    else s

end ClambHook.Prompt
