import ClambHook.Basic
import ClambHook.Lib.Binary64

/-!
# The traffic store

`traffic.c` keeps an entry for every connection, the newest in front, and a history file of those
that are closed.  A connection is named by the flow id that `ch_traffic_open` returns; the ids come
from a counter, and from the file when a history is loaded.

What a caller passes about a connection (`ch_traffic_open_info`, and the place that is looked up for
it) is only copied, so it is a type `ι` here.  The history file is the list of its records; that the
JSON text of a record is read back is `Json.RoundTrip`.  Rates, events and the queue of geographic
lookups are left out, and so is memory that runs out.

Every function takes the readings of the clock that it makes, in their order.
-/

namespace ClambHook.TrafficStore

open CString

variable {ι : Type}

/-! ## Entries -/

/-- A `ch_traffic_entry`. -/
structure Entry (ι : Type) where
  flowId : Nat
  connId : Bytes
  info : ι
  closeReason : Bytes
  active : Bool
  startNs : Int
  updatedNs : Int
  endNs : Int
  rateSampleNs : Int
  rxTotal : Nat
  txTotal : Nat
deriving DecidableEq, Repr

/-- The identifier of a connection for a flow id. -/
def identifier (flowId : Nat) : Bytes :=
  bytes "native-" ++ decimal flowId

/-- `traffic_entry_initialize`. -/
def entryInitialize (flowId : Nat) (info : ι) (now : Int) : Entry ι where
  flowId := flowId
  connId := identifier flowId
  info := info
  closeReason := []
  active := true
  startNs := now
  updatedNs := now
  endNs := 0
  rateSampleNs := now
  rxTotal := 0
  txTotal := 0

/-- `traffic_close_entry`; no reason is `NULL`. -/
def closeEntry (reason : Option Bytes) (now : Int) (entry : Entry ι) : Entry ι :=
  if entry.active then
    { entry with
      closeReason := reason.getD (bytes "closed")
      active := false
      endNs := now
      updatedNs := now }
  else entry

/-- The update of an entry in `ch_traffic_bytes`. -/
def addBytes (rxDelta txDelta : Nat) (now : Int) (entry : Entry ι) : Entry ι :=
  { entry with
    rxTotal := (entry.rxTotal + rxDelta) % 2 ^ 64
    txTotal := (entry.txTotal + txDelta) % 2 ^ 64
    updatedNs := now
    rateSampleNs := now }

/-! ## The history file -/

/-- A record of the history file, as far as it is read back. -/
structure Record (ι : Type) where
  connId : Bytes
  info : ι
  closeReason : Bytes
  startNs : Int
  updatedNs : Int
  endNs : Int
  rxTotal : Nat
  txTotal : Nat
deriving DecidableEq, Repr

/-- The record that `ch_traffic_store_flush` writes for an entry. -/
def Entry.record (entry : Entry ι) : Record ι where
  connId := entry.connId
  info := entry.info
  closeReason := entry.closeReason
  startNs := entry.startNs
  updatedNs := entry.updatedNs
  endNs := entry.endNs
  rxTotal := entry.rxTotal
  txTotal := entry.txTotal

/-- `traffic_history_uint64`: a number that is no `int64_t` was read as a `double`. -/
def historyUint64 (n : Nat) : Nat :=
  if n < 2 ^ 63 then n else ⌊Binary64.round n⌋.toNat % 2 ^ 64

/-- The flow id in the identifier of a record, or 0. -/
def recordFlowId (connId : Bytes) : Nat :=
  if (bytes "native-").isPrefixOf connId then
    let number := strtoul (connId.drop 7)
    if number.erange = false ∧ number.rest ≠ connId.drop 7 ∧ number.rest = [] then number.value
    else 0
  else 0

/-- `traffic_history_entry_load`. -/
def historyEntryLoad (record : Record ι) : Entry ι where
  flowId := recordFlowId record.connId
  connId := record.connId
  info := record.info
  closeReason := record.closeReason
  active := false
  startNs := record.startNs
  updatedNs := record.updatedNs
  endNs := record.endNs
  rateSampleNs := record.updatedNs
  rxTotal := historyUint64 record.rxTotal
  txTotal := historyUint64 record.txTotal

/-- The files that have been written, by their paths. -/
abbrev Files (ι : Type) := Bytes → Option (List (Record ι))

/-- `traffic_history_load` for a file that can be read: at most `limit` entries, and the largest of
their flow ids.  A file that does not exist has none. -/
def historyLoad (limit : Nat) (file : Option (List (Record ι))) : List (Entry ι) × Nat :=
  let entries := ((file.getD []).take limit).map historyEntryLoad
  (entries, entries.foldl (fun sequence entry ↦ max sequence entry.flowId) 0)

/-! ## The store -/

/-- `CH_TRAFFIC_MAX_LIMIT`. -/
def maxLimit : Nat := 4096

/-- The room for entries: closed ones, and the reserve for active ones. -/
def capacity : Nat := maxLimit + 1024

/-- A `ch_traffic_store`. -/
structure Store (ι : Type) where
  entries : List (Entry ι)
  limit : Nat
  sequence : Nat
  enabled : Bool
  historyLoaded : Bool
  historyMaxAgeNs : Int
  historyPath : Bytes

/-- `CH_TRAFFIC_DEFAULT_MAX_AGE_NS`, seven days. -/
def defaultMaxAgeNs : Int := 604800000000000

/-- `ch_traffic_store_create`. -/
def create (limit : Nat) : Store ι where
  entries := []
  limit := if limit = 0 then 512 else limit
  sequence := 0
  enabled := true
  historyLoaded := false
  historyMaxAgeNs := defaultMaxAgeNs
  historyPath := []

/-- The loop of `traffic_prune_locked`, with the closed entries it has kept. -/
def pruneLoop (limit : Nat) (cutoff : Int) : Nat → List (Entry ι) → List (Entry ι)
  | _, [] => []
  | closed, entry :: entries =>
    if entry.active then entry :: pruneLoop limit cutoff closed entries
    else if closed < limit ∧ (cutoff = 0 ∨ entry.endNs = 0 ∨ entry.endNs ≥ cutoff) then
      entry :: pruneLoop limit cutoff (closed + 1) entries
    else pruneLoop limit cutoff closed entries

/-- `traffic_prune_locked`. -/
def prune (now : Int) (store : Store ι) : Store ι :=
  let cutoff :=
    if store.historyMaxAgeNs > 0 ∧ now > store.historyMaxAgeNs then now - store.historyMaxAgeNs
    else 0
  { store with entries := pruneLoop store.limit cutoff 0 store.entries }

/-- The next flow id: 0 is none. -/
def nextFlowId (sequence : Nat) : Nat :=
  if (sequence + 1) % 2 ^ 64 = 0 then 1 else (sequence + 1) % 2 ^ 64

/-- `ch_traffic_open`: the flow id, or 0 when the store is disabled. -/
def openFlow (now : Nat → Int) (info : ι) (store : Store ι) : Except Error Nat × Store ι :=
  if !store.enabled then (.ok 0, store)
  else
    let store := prune (now 0) store
    if store.entries.length = capacity then
      (.error <| .set .invalidState (bytes "traffic active connection capacity reached"), store)
    else
      let flowId := nextFlowId store.sequence
      (.ok flowId, { store with
        entries := entryInitialize flowId info (now 1) :: store.entries
        sequence := flowId })

/-- An update of the entry that `traffic_find_flow` finds. -/
def updateFlow (flowId : Nat) (update : Entry ι → Entry ι) : List (Entry ι) → List (Entry ι)
  | [] => []
  | entry :: entries =>
    if entry.flowId = flowId then update entry :: entries
    else entry :: updateFlow flowId update entries

/-- `ch_traffic_bytes`. -/
def trafficBytes (now : Nat → Int) (flowId rxDelta txDelta : Nat) (store : Store ι) : Store ι :=
  if flowId = 0 ∨ (rxDelta = 0 ∧ txDelta = 0) then store
  else { store with entries := updateFlow flowId (addBytes rxDelta txDelta (now 0)) store.entries }

/-- `ch_traffic_store_flush`.  The file is replaced unless a system call fails. -/
def flush (now : Nat → Int) (written : Bool) (files : Files ι) (store : Store ι) :
    Files ι × Store ι :=
  let store := prune (now 0) store
  if !store.enabled ∨ store.historyPath = [] ∨ !written then (files, store)
  else
    let records := (store.entries.filter (!·.active)).map Entry.record
    (fun path ↦ if path = store.historyPath then some records else files path, store)

/-- `ch_traffic_close`. -/
def closeFlow (now : Nat → Int) (written : Bool) (flowId : Nat) (reason : Option Bytes)
    (files : Files ι) (store : Store ι) : Files ι × Store ι :=
  if flowId = 0 then (files, store)
  else
    let entries := updateFlow flowId (closeEntry reason (now 0)) store.entries
    flush (fun k ↦ now (k + 2)) written files (prune (now 1) { store with entries := entries })

/-- `ch_traffic_close_all`. -/
def closeAll (now : Nat → Int) (written : Bool) (reason : Option Bytes) (files : Files ι)
    (store : Store ι) : Files ι × Store ι :=
  let entries := store.entries.map (closeEntry reason (now 0))
  flush (fun k ↦ now (k + 1)) written files (prune (now 0) { store with entries := entries })

/-- The table `traffic` of a configuration that is accepted. -/
structure Settings where
  enabled : Bool
  limit : { n : Nat // n ≤ maxLimit }
  maxAgeNs : Int
  path : Bytes

/-- The store with new settings.  Another path starts with no entries, and so does a store that is
disabled. -/
def applySettings (settings : Settings) (store : Store ι) : Store ι where
  entries := if store.historyPath ≠ settings.path ∨ !settings.enabled then [] else store.entries
  limit := settings.limit.1
  sequence := store.sequence
  enabled := settings.enabled
  historyLoaded := if store.historyPath ≠ settings.path then false else store.historyLoaded
  historyMaxAgeNs := settings.maxAgeNs
  historyPath := settings.path

/-- The entries of a history file behind those of the store. -/
def appendHistory (now : Int) (history : List (Entry ι) × Nat) (store : Store ι) : Store ι :=
  prune now { store with
    entries := store.entries ++ history.1.take (capacity - store.entries.length)
    sequence := max store.sequence history.2 }

/-- `ch_traffic_store_configure`, for a configuration that is accepted; `loaded` says if the history
file can be read. -/
def configure (now : Nat → Int) (written loaded : Bool) (settings : Settings) (files : Files ι)
    (store : Store ι) : Files ι × Store ι :=
  let (files, store) := flush now written files store
  let store := prune (now 3) (applySettings settings store)
  if settings.enabled ∧ settings.path ≠ [] ∧ !store.historyLoaded then
    let store := { store with historyLoaded := true }
    if loaded then
      (files, appendHistory (now 4) (historyLoad settings.limit.1 (files settings.path)) store)
    else (files, store)
  else (files, store)

end ClambHook.TrafficStore
