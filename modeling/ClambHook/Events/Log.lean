import ClambHook.Json
import ClambHook.Lib.RingBuffer

/-!
# The event log

`events.c` keeps the last events of the core in a ring and numbers them in the order in which they
are appended.  `ch_event_ring_query_json` answers a client that asks for what came after a sequence
number or after the logical clocks of shards, with filters and a limit.

The query takes the lock of the ring twice: once for a snapshot of the events and once for the
total.  So `queryEvents` has both as arguments.  The JSON parser is a parameter `parse`
(`ch_json_parse`), which is applied to the data of events.  The counters are natural numbers:
`2 ^ 63` events are never appended.
-/

namespace ClambHook.Events

open CString Json

/-- A `ch_event` in the ring. -/
structure Event where
  sequence : Nat
  shardId : Nat
  lamport : Nat
  timestampNs : Int
  type : Bytes
  dataJson : Bytes
deriving DecidableEq, Repr

/-- An event as it is given to `ch_event_ring_append`; the texts may be `NULL`. -/
structure NewEvent where
  shardId : Nat := 0
  lamport : Nat := 0
  timestampNs : Int := 0
  type : Option Bytes := none
  dataJson : Option Bytes := none
deriving DecidableEq, Repr

/-- `ch_event_copy`, with the sequence number that the ring assigns. -/
def NewEvent.copy (e : NewEvent) (sequence : Nat) : Event where
  sequence := sequence
  shardId := e.shardId
  lamport := e.lamport
  timestampNs := e.timestampNs
  type := e.type.getD []
  dataJson := e.dataJson.getD (bytes "null")

/-- A `ch_event_ring`. -/
structure EventRing where
  ring : RingBuffer Event
  total : Nat

/-- `ch_event_ring_create`: the slots are zero. -/
def EventRing.create (capacity : Nat) (h : 0 < capacity) : EventRing where
  ring := .create capacity ⟨0, 0, 0, 0, [], []⟩ h
  total := 0

/-- `ch_event_ring_append`. -/
def EventRing.append (r : EventRing) (e : NewEvent) : EventRing where
  ring := r.ring.push (e.copy (r.total + 1))
  total := r.total + 1

/-- `ch_event_ring_snapshot`. -/
def EventRing.snapshot (r : EventRing) : List Event :=
  r.ring.toList

/-- `ch_event_ring_since`: the events with clocks above `since`, and whether the ring begins early
enough to have all of them. -/
def EventRing.since (r : EventRing) (since : Nat) : List Event × Bool :=
  match r.snapshot with
  | [] => ([], true)
  | oldest :: rest =>
    ((oldest :: rest).filter fun e ↦ decide (since < e.lamport),
      decide (since = 2 ^ 64 - 1) || decide (oldest.lamport ≤ since + 1))

/-! ## Filters -/

/-- A pattern of the `types` filter: a final star stands for any ending. -/
def patternMatches (pattern eventType : Bytes) : Bool :=
  if pattern.getLast? = some 42 then pattern.dropLast.isPrefixOf eventType
  else pattern == eventType

/-- The loop of `event_type_matches`.  A pattern that is no string ends it. -/
def typeMatchesLoop (eventType : Bytes) : List Json → Bool
  | [] => false
  | p :: ps =>
    match stringValue (some p) with
    | none => false
    | some pattern => patternMatches pattern eventType || typeMatchesLoop eventType ps

/-- `event_type_matches`. -/
def eventTypeMatches (types : List Json) (eventType : Bytes) : Bool :=
  types.isEmpty || typeMatchesLoop eventType types

/-- `event_connection_matches`: the `conn_id` in the event's data is one of those asked for. -/
def eventConnectionMatches (parse : Bytes → Option Json) (connIds : List Json) (dataJson : Bytes) :
    Bool :=
  connIds.isEmpty ||
    match stringValue (objectGet (parse dataJson) (bytes "conn_id")) with
    | none => false
    | some connId => connIds.any fun c ↦ stringValue (some c) == some connId

/-- The members of a cursor of the `since` list, when both are non-negative integers. -/
def readCursor (cursor : Json) : Option (Nat × Nat) := do
  let shard ← int64Value (objectGet (some cursor) (bytes "shard_id"))
  let lamport ← int64Value (objectGet (some cursor) (bytes "lamport"))
  if shard < 0 ∨ lamport < 0 then none else some (shard.toNat, lamport.toNat)

/-- `event_cursor`: the clock of the first good cursor for the shard. -/
def eventCursor (cursors : List Json) (shardId : Nat) : Option Nat :=
  (cursors.filterMap readCursor).lookup shardId

/-! ## Requests -/

/-- A request that has been read.  A filter that is missing is like one without elements. -/
structure Request where
  types : List Json
  connIds : List Json
  since : List Json
  after : Option Nat
  limit : Nat

def isArrayOrMissing (value : Option Json) : Bool :=
  value.all isArray

def badAfter : Error :=
  .set .invalidArgument (bytes "after_sequence must be a non-negative integer")

def readAfter (value : Option Json) : Except Error (Option Nat) :=
  if value.isNone then .ok none
  else
    match int64Value value with
    | some i => if i ≥ 0 then .ok (some i.toNat) else .error badAfter
    | none => .error badAfter

def badLimit : Error :=
  .set .invalidArgument (bytes "event limit must be between 1 and 4096")

def readLimit (value : Option Json) : Except Error Nat :=
  if value.isNone then .ok 256
  else
    match int64Value value with
    | some i => if i ≤ 0 ∨ i > 4096 then .error badLimit else .ok i.toNat
    | none => .error badLimit

/-- The first part of `ch_event_ring_query_json`: reading the request. -/
def readRequest (request : Json) : Except Error Request :=
  let types := objectGet (some request) (bytes "types")
  let connIds := objectGet (some request) (bytes "conn_ids")
  let cursors := objectGet (some request) (bytes "since")
  if !request.isObject then
    .error (.set .invalidArgument (bytes "event request must be a JSON object"))
  else if !isArrayOrMissing types || !isArrayOrMissing connIds || !isArrayOrMissing cursors then
    .error (.set .invalidArgument (bytes "event filters must be arrays"))
  else do
    let after ← readAfter (objectGet (some request) (bytes "after_sequence"))
    let limit ← readLimit (objectGet (some request) (bytes "limit"))
    return ⟨items types, items connIds, items cursors, after, limit⟩

/-! ## Answers -/

structure Response where
  events : List Event
  complete : Bool
  nextSequence : Nat
deriving DecidableEq, Repr

/-- The events after the cursors of the request. -/
def Request.eligible (req : Request) (e : Event) : Bool :=
  req.after.any (fun after ↦ e.sequence > after) ||
    (eventCursor req.since e.shardId).any fun cursor ↦ e.lamport > cursor

def Request.accepts (parse : Bytes → Option Json) (req : Request) (e : Event) : Bool :=
  eventTypeMatches req.types e.type && eventConnectionMatches parse req.connIds e.dataJson

/-- The loop that collects the answer.  The second result is the sequence number behind which the
next request has to continue, when the limit ends the loop. -/
def scan (parse : Bytes → Option Json) (req : Request) :
    List Event → List Event → Nat → List Event × Option Nat
  | [], emitted, _ => (emitted, none)
  | e :: es, emitted, lastScanned =>
    if !req.eligible e then scan parse req es emitted lastScanned
    else
      let scanned := if req.after.isSome then e.sequence else lastScanned
      if !req.accepts parse e then scan parse req es emitted scanned
      else if emitted.length = req.limit then (emitted, some lastScanned)
      else scan parse req es (emitted ++ [e]) scanned

/-- The clock of a shard's oldest event in the snapshot, or `UINT64_MAX`. -/
def oldestLamport (snapshot : List Event) (shard : Nat) : Nat :=
  snapshot.foldl
    (fun oldest e ↦ if e.shardId = shard ∧ e.lamport < oldest then e.lamport else oldest)
    (2 ^ 64 - 1)

/-- Has nothing behind the cursor been overwritten, as far as the snapshot shows? -/
def cursorComplete (snapshot : List Event) (cursor : Json) : Bool :=
  match readCursor cursor with
  | none => false
  | some (shard, lamport) =>
    let oldest := oldestLamport snapshot shard
    !(oldest = 2 ^ 64 - 1 || (oldest > 0 && oldest > lamport + 1))

def sequenceComplete (snapshot : List Event) (after : Option Nat) : Bool :=
  match after, snapshot with
  | some after, e :: _ => !(e.sequence > after + 1)
  | _, _ => true

/-- The rest of `ch_event_ring_query_json`: the answer from the snapshot and the total. -/
def queryEvents (parse : Bytes → Option Json) (snapshot : List Event) (total : Nat)
    (req : Request) : Response :=
  let complete := sequenceComplete snapshot req.after && req.since.all (cursorComplete snapshot)
  match scan parse req snapshot [] (req.after.getD 0) with
  | (emitted, none) => ⟨emitted, complete, total⟩
  | (emitted, some lastScanned) => ⟨emitted, false, lastScanned⟩

end ClambHook.Events
