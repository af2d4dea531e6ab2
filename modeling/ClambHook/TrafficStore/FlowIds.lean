import ClambHook.TrafficStore.History
import ClambHook.Lib.CStringLemmas
import ClambHook.Lib.Machine

/-!
# Flow identity

A flow id names one connection: the ids of the entries in the store are distinct, and what is
reported for an id goes to the entry of the connection that was opened with it.

The system here is the program over its whole life: the history files, which only it writes, and the
store of the running process, which is lost when the process ends.  Every connection that is opened
has a number of its own, which its entry carries along with what the caller passed, through history
files and restarts too.  So `run_flowIds`: in a run in which the counter does not wrap around and no
history is loaded that has an id of this process for another connection, ids name connections.

Without the second condition it fails, since a history is loaded into a store whose ids are already
in use: `foreign_entry_changed`.
-/

namespace ClambHook.TrafficStore

open CString Machine List

variable {κ : Type}

/-! ## The system -/

/-- The files, the store of the process, the number of connections that were opened ever, and the
flow ids that `ch_traffic_open` has returned in this process, with the numbers of their
connections. -/
structure System (κ : Type) where
  files : Files (Nat × κ)
  store : Store (Nat × κ)
  opened : Nat
  handles : List (Nat × Nat)

/-- The program before it has written any file. -/
def System.init (κ : Type) : System κ where
  files := fun _ ↦ none
  store := create 512
  opened := 0
  handles := []

/-- An operation on the store, or the start of a new process. -/
inductive Event (κ : Type) where
  | openFlow (now : Nat → Int) (info : κ)
  | bytes (now : Nat → Int) (flowId rxDelta txDelta : Nat)
  | close (now : Nat → Int) (written : Bool) (flowId : Nat) (reason : Option Bytes)
  | closeAll (now : Nat → Int) (written : Bool) (reason : Option Bytes)
  | flush (now : Nat → Int) (written : Bool)
  | configure (now : Nat → Int) (written loaded : Bool) (settings : Settings)
  | restart

/-- The system with new files and a new store. -/
def System.update (s : System κ) (result : Files (Nat × κ) × Store (Nat × κ)) : System κ :=
  { s with files := result.1, store := result.2 }

def step (s : System κ) : Event κ → System κ
  | .openFlow now info =>
    let result := TrafficStore.openFlow now (s.opened, info) s.store
    { s with
      store := result.2
      opened := s.opened + 1
      handles :=
        match result.1 with
        | .ok flowId => if flowId = 0 then s.handles else (flowId, s.opened) :: s.handles
        | .error _ => s.handles }
  | .bytes now flowId rxDelta txDelta =>
    { s with store := trafficBytes now flowId rxDelta txDelta s.store }
  | .close now written flowId reason =>
    s.update (closeFlow now written flowId reason s.files s.store)
  | .closeAll now written reason =>
    s.update (TrafficStore.closeAll now written reason s.files s.store)
  | .flush now written => s.update (TrafficStore.flush now written s.files s.store)
  | .configure now written loaded settings =>
    s.update (TrafficStore.configure now written loaded settings s.files s.store)
  | .restart => { s with store := create 512, handles := [] }

/-! ## What is claimed -/

/-- One list of entries comes from another by a change of the entries of one connection. -/
def Touches (connection : Nat) (entries entries' : List (Entry (Nat × κ))) : Prop :=
  List.Forall₂ (fun e e' ↦ e' = e ∨ (e.info.1 = connection ∧ e'.info.1 = connection)) entries
    entries'

/-- Flow ids name connections: those in the store are distinct, and a report for an id that was
returned changes the entry of its connection only.  Closing a flow also drops old entries. -/
structure Identified (s : System κ) : Prop where
  distinct : (s.store.entries.map Entry.flowId).Nodup
  bytes : ∀ flowId connection, (flowId, connection) ∈ s.handles → ∀ now rxDelta txDelta,
    Touches connection s.store.entries (trafficBytes now flowId rxDelta txDelta s.store).entries
  close : ∀ flowId connection, (flowId, connection) ∈ s.handles → ∀ now written reason,
    ∃ entries, Touches connection s.store.entries entries ∧
      (closeFlow now written flowId reason s.files s.store).2.entries.Sublist entries

/-- Does a configuration load the history file? -/
def Loads (store : Store (Nat × κ)) (settings : Settings) : Prop :=
  settings.enabled = true ∧ settings.path ≠ [] ∧
    (store.historyPath ≠ settings.path ∨ store.historyLoaded = false)

/-- An event that keeps flow ids apart: the counter does not wrap around, and a history that is
loaded has no id of this process for another connection. -/
def Apart (s : System κ) : Event κ → Prop
  | .openFlow _ _ => s.store.sequence + 1 < 2 ^ 64
  | .configure _ _ _ settings => Loads s.store settings →
    ∀ records, s.files settings.path = some records → ∀ record ∈ records,
      ∀ flowId connection, (flowId, connection) ∈ s.handles →
        recordFlowId record.connId = flowId → record.info.1 = connection
  | _ => True

/-! ## The invariant -/

/-- What every entry of a store is like. -/
structure Named (sequence : Nat) (handles : List (Nat × Nat)) (entry : Entry (Nat × κ)) : Prop where
  pos : 0 < entry.flowId
  le : entry.flowId ≤ sequence
  connId : entry.connId = identifier entry.flowId
  owner : ∀ connection, (entry.flowId, connection) ∈ handles → entry.info.1 = connection

/-- What a store is like, in a process that has returned the given flow ids. -/
structure StoreInv (handles : List (Nat × Nat)) (store : Store (Nat × κ)) : Prop where
  distinct : (store.entries.map Entry.flowId).Nodup
  named : ∀ entry ∈ store.entries, Named store.sequence handles entry
  sequence : store.sequence < 2 ^ 64
  handles : ∀ flowId connection, (flowId, connection) ∈ handles → flowId ≤ store.sequence
  disabled : store.enabled = false → store.entries = []

/-- What a history file is like. -/
structure FileOk (records : List (Record (Nat × κ))) : Prop where
  distinct : (records.map fun r ↦ recordFlowId r.connId).Nodup
  named : ∀ record ∈ records, 0 < recordFlowId record.connId ∧
    recordFlowId record.connId < 2 ^ 64 ∧
    record.connId = identifier (recordFlowId record.connId)

/-- The invariant of the system. -/
structure Inv (s : System κ) : Prop where
  store : StoreInv s.handles s.store
  files : ∀ path records, s.files path = some records → FileOk records
  unloaded : s.store.historyLoaded = false → s.store.enabled = false ∨ s.store.historyPath = []

/-! ## Identifiers -/

theorem recordFlowId_identifier {n : Nat} (h : n < 2 ^ 64) : recordFlowId (identifier n) = n := by
  have hprefix : (bytes "native-").isPrefixOf (identifier n) = true :=
    isPrefixOf_iff_prefix.2 (prefix_append _ _)
  have hdrop : (identifier n).drop 7 = decimal n := by
    rw [identifier, drop_left' (by decide)]
  rw [recordFlowId, if_pos hprefix]
  rw [hdrop, strtoul_decimal (by rw [ulongMax]; omega)]
  exact if_pos ⟨rfl, (decimal_ne_nil n).symm, rfl⟩

/-! ## Entries that keep their names -/

/-- What identifies an entry. -/
def Entry.name (entry : Entry (Nat × κ)) : Nat × Bytes × Nat × κ :=
  (entry.flowId, entry.connId, entry.info)

@[simp] theorem name_closeEntry (reason : Option Bytes) (now : Int) (entry : Entry (Nat × κ)) :
    (closeEntry reason now entry).name = entry.name := by
  rw [closeEntry]
  split <;> rfl

@[simp] theorem name_addBytes (rxDelta txDelta : Nat) (now : Int) (entry : Entry (Nat × κ)) :
    (addBytes rxDelta txDelta now entry).name = entry.name := rfl

variable {update : Entry (Nat × κ) → Entry (Nat × κ)}

theorem names_updateFlow
    (hupdate : ∀ entry, (update entry).name = entry.name) (flowId : Nat)
    (entries : List (Entry (Nat × κ))) :
    (updateFlow flowId update entries).map Entry.name = entries.map Entry.name := by
  induction entries with
  | nil => rfl
  | cons entry entries ih =>
    rw [updateFlow]
    split
    · rw [map_cons, map_cons, hupdate]
    · rw [map_cons, map_cons, ih]

theorem pruneLoop_sublist (limit : Nat) (cutoff : Int) (closed : Nat)
    (entries : List (Entry (Nat × κ))) :
    (pruneLoop limit cutoff closed entries).Sublist entries := by
  induction entries generalizing closed with
  | nil => exact .slnil
  | cons entry entries ih =>
    rw [pruneLoop]
    split
    · exact (ih closed).cons_cons entry
    · split
      · exact (ih (closed + 1)).cons_cons entry
      · exact (ih closed).cons entry

section

variable {handles : List (Nat × Nat)} {store : Store (Nat × κ)} {entries : List (Entry (Nat × κ))}

variable (h : StoreInv handles store)

include h

/-- A store keeps its invariant when entries change in other things than their names, and when some
are dropped. -/
theorem StoreInv.of_names
    (hnames : (entries.map Entry.name).Sublist (store.entries.map Entry.name)) :
    StoreInv handles { store with entries := entries } where
  distinct := by
    have hids : ∀ l : List (Entry (Nat × κ)),
        l.map Entry.flowId = (l.map Entry.name).map Prod.fst := fun l ↦ by
      rw [map_map]
      rfl
    rw [hids]
    exact (hnames.map Prod.fst).nodup (hids store.entries ▸ h.distinct)
  named entry hentry := by
    obtain ⟨entry', hentry', hname⟩ :=
      mem_map.1 (hnames.subset (mem_map_of_mem hentry))
    obtain ⟨hpos, hle, hconn, howner⟩ := h.named entry' hentry'
    obtain ⟨hid, hconn', hinfo⟩ : entry'.flowId = entry.flowId ∧ entry'.connId = entry.connId ∧
        entry'.info = entry.info := by
      simpa [Entry.name] using hname
    exact ⟨hid ▸ hpos, hid ▸ hle, by rw [← hconn', hconn, hid],
      by rw [← hid, ← hinfo]; exact howner⟩
  sequence := h.sequence
  handles := h.handles
  disabled hdisabled := by
    have hnil := h.disabled hdisabled
    rw [hnil] at hnames
    simpa using hnames

theorem StoreInv.prune (now : Int) :
    StoreInv handles (prune now store) :=
  h.of_names ((pruneLoop_sublist _ _ _ _).map Entry.name)

theorem StoreInv.trafficBytes (now : Nat → Int) (flowId rxDelta txDelta : Nat) :
    StoreInv handles (trafficBytes now flowId rxDelta txDelta store) := by
  rw [TrafficStore.trafficBytes]
  split
  · exact h
  · refine h.of_names ?_
    rw [names_updateFlow fun entry ↦ name_addBytes _ _ _ entry]

omit h

/-! ## Flushing -/

variable {files : Files (Nat × κ)}

theorem store_flush (now : Nat → Int) (written : Bool) :
    (flush now written files store).2 = prune (now 0) store := by
  simp only [flush]
  split <;> rfl

include h

theorem fileOk_records :
    FileOk ((store.entries.filter (!·.active)).map Entry.record) := by
  have hid : ∀ entry ∈ store.entries, recordFlowId entry.record.connId = entry.flowId := by
    intro entry hentry
    have hnamed := h.named entry hentry
    rw [Entry.record, hnamed.connId, recordFlowId_identifier (hnamed.le.trans_lt h.sequence)]
  constructor
  · have hids : ((store.entries.filter (!·.active)).map Entry.record).map
        (fun r ↦ recordFlowId r.connId) = (store.entries.filter (!·.active)).map Entry.flowId := by
      rw [map_map]
      exact map_congr_left fun entry hentry ↦ hid entry (mem_of_mem_filter hentry)
    rw [hids]
    exact (filter_sublist.map _).nodup h.distinct
  · intro record hrecord
    obtain ⟨entry, hentry, rfl⟩ := mem_map.1 hrecord
    have hmem := mem_of_mem_filter hentry
    have hnamed := h.named entry hmem
    rw [hid entry hmem]
    exact ⟨hnamed.pos, hnamed.le.trans_lt h.sequence, hnamed.connId⟩

theorem files_flush (hfiles : ∀ path records, files path = some records → FileOk records)
    (now : Nat → Int) (written : Bool) :
    ∀ path records, (flush now written files store).1 path = some records → FileOk records := by
  intro path records hrecords
  simp only [flush] at hrecords
  split at hrecords
  · exact hfiles path records hrecords
  simp only at hrecords
  split at hrecords
  · cases hrecords
    exact fileOk_records (h.prune (now 0))
  · exact hfiles path records hrecords

omit h

/-! ## Opening -/

theorem nextFlowId_eq {sequence : Nat} (h : sequence + 1 < 2 ^ 64) :
    nextFlowId sequence = sequence + 1 := by
  rw [nextFlowId, Nat.mod_eq_of_lt h, if_neg (by omega)]

include h

/-- The new entry has an id that no entry and no handle has. -/
theorem StoreInv.cons (hwrap : store.sequence + 1 < 2 ^ 64) (henabled : store.enabled = true)
    (connection : Nat) (info : κ) (now : Int) :
    StoreInv ((store.sequence + 1, connection) :: handles)
      { store with
        entries := entryInitialize (store.sequence + 1) (connection, info) now :: store.entries
        sequence := store.sequence + 1 } where
  distinct := by
    refine nodup_cons.2 ⟨fun hmem ↦ ?_, h.distinct⟩
    obtain ⟨entry, hentry, hid⟩ := mem_map.1 hmem
    have hle := (h.named entry hentry).le
    rw [hid, entryInitialize] at hle
    exact absurd hle (Nat.not_succ_le_self _)
  named entry hentry := by
    rcases mem_cons.1 hentry with rfl | hentry
    · refine ⟨Nat.succ_pos _, le_refl _, rfl, fun connection' hmem ↦ ?_⟩
      rcases mem_cons.1 hmem with heq | hmem
      · exact (congrArg Prod.snd heq).symm
      · exact absurd (h.handles _ _ hmem) (Nat.not_succ_le_self _)
    · obtain ⟨hpos, hle, hconn, howner⟩ := h.named entry hentry
      refine ⟨hpos, Nat.le_succ_of_le hle, hconn, fun connection' hmem ↦ ?_⟩
      rcases mem_cons.1 hmem with heq | hmem
      · have hid : entry.flowId = store.sequence + 1 := congrArg Prod.fst heq
        omega
      · exact howner connection' hmem
  sequence := hwrap
  handles flowId connection' hmem := by
    rcases mem_cons.1 hmem with heq | hmem
    · exact (congrArg Prod.fst heq).le
    · exact Nat.le_succ_of_le (h.handles _ _ hmem)
  disabled hdisabled := by
    rw [henabled] at hdisabled
    cases hdisabled

/-! ## Configuring -/

theorem StoreInv.applySettings (settings : Settings) :
    StoreInv handles (applySettings settings store) := by
  rw [TrafficStore.applySettings]
  split
  · exact ⟨nodup_nil, fun _ hentry ↦ absurd hentry not_mem_nil, h.sequence, h.handles, fun _ ↦ rfl⟩
  · next hkept =>
    refine ⟨h.distinct, h.named, h.sequence, h.handles, fun hdisabled ↦ absurd (.inr ?_) hkept⟩
    exact (Bool.not_eq_true' _).mpr hdisabled

omit h

theorem foldl_max_lt_iff {sequence bound : Nat} :
    entries.foldl (fun sequence entry ↦ max sequence entry.flowId) sequence < bound ↔
      sequence < bound ∧ ∀ entry ∈ entries, entry.flowId < bound := by
  induction entries generalizing sequence with
  | nil => simp
  | cons entry entries ih => rw [foldl_cons, ih, max_lt_iff, forall_mem_cons, and_assoc]

/-- An empty store keeps its invariant when a history is loaded that has no id of this process for
another connection. -/
theorem StoreInv.appendHistory (h : StoreInv handles store) (hempty : store.entries = [])
    (henabled : store.enabled = true) {file : Option (List (Record (Nat × κ)))}
    (hfile : FileOk (file.getD []))
    (howner : ∀ record ∈ file.getD [], ∀ connection,
      (recordFlowId record.connId, connection) ∈ handles → record.info.1 = connection)
    (limit : Nat) (now : Int) :
    StoreInv handles (appendHistory now (historyLoad limit file) store) := by
  refine StoreInv.prune ?_ now
  generalize hrecords : file.getD [] = records at hfile howner
  have hlt : ∀ entry ∈ (records.take limit).map historyEntryLoad, entry.flowId < 2 ^ 64 :=
    forall_mem_map.2 fun record hrecord ↦ (hfile.named record (mem_of_mem_take hrecord)).2.1
  have hnew : store.entries ++ ((records.take limit).map historyEntryLoad).take
      (capacity - store.entries.length) =
      ((records.take limit).map historyEntryLoad).take capacity := by
    rw [hempty, nil_append, length_nil, Nat.sub_zero]
  constructor
  · have hids : ((records.take limit).map historyEntryLoad).map Entry.flowId =
        (records.take limit).map fun r ↦ recordFlowId r.connId := by
      rw [map_map]
      rfl
    simp only [historyLoad, hrecords, hnew]
    refine Sublist.nodup ((take_sublist _ _).map _) ?_
    rw [hids]
    exact ((take_sublist _ _).map _).nodup hfile.distinct
  · intro entry hentry
    simp only [historyLoad, hrecords, hnew] at hentry ⊢
    have hmem := mem_of_mem_take hentry
    obtain ⟨record, hrecord, rfl⟩ := mem_map.1 hmem
    have hrecord := mem_of_mem_take hrecord
    obtain ⟨hpos, -, hconn⟩ := hfile.named record hrecord
    refine ⟨hpos, le_max_of_le_right (Nat.lt_succ_iff.1 ?_), hconn, howner record hrecord⟩
    exact (foldl_max_lt_iff.1 (Nat.lt_succ_self _)).2 _ hmem
  · simp only [historyLoad, hrecords]
    exact max_lt h.sequence (foldl_max_lt_iff.2 ⟨Nat.two_pow_pos 64, hlt⟩)
  · intro flowId connection hmem
    exact (h.handles flowId connection hmem).trans (le_max_left _ _)
  · intro hdisabled
    rw [henabled] at hdisabled
    cases hdisabled

end

/-! ## Steps -/

theorem storeInv_create (limit : Nat) : StoreInv [] (create limit : Store (Nat × κ)) where
  distinct := nodup_nil
  named entry hentry := by cases hentry
  sequence := Nat.two_pow_pos 64
  handles flowId connection hmem := by cases hmem
  disabled _ := rfl

variable {s : System κ}

variable (h : Inv s)

include h

variable (now : Nat → Int) (written : Bool)

theorem Inv.flush {store : Store (Nat × κ)} (hstore : StoreInv s.handles store)
    (henabled : store.enabled = s.store.enabled)
    (hloaded : store.historyLoaded = s.store.historyLoaded)
    (hpath : store.historyPath = s.store.historyPath) :
    Inv (s.update (TrafficStore.flush now written s.files store)) where
  store := by
    simp only [System.update, store_flush]
    exact hstore.prune (now 0)
  files := files_flush hstore h.files now written
  unloaded := by
    simp only [System.update, store_flush, prune, henabled, hloaded, hpath]
    exact h.unloaded

theorem inv_openFlow (info : κ) (hwrap : s.store.sequence + 1 < 2 ^ 64) :
    Inv (step s (.openFlow now info)) := by
  have hpruned := h.store.prune (now 0)
  simp only [step, openFlow]
  split
  · exact ⟨h.store, h.files, h.unloaded⟩
  next henabled =>
  split
  · exact ⟨hpruned, h.files, h.unloaded⟩
  have hnext : nextFlowId (prune (now 0) s.store).sequence = s.store.sequence + 1 :=
    nextFlowId_eq hwrap
  simp only [hnext]
  rw [if_neg (by omega)]
  have henabled : s.store.enabled = true := by simpa using henabled
  exact ⟨hpruned.cons hwrap henabled s.opened info (now 1), h.files, h.unloaded⟩

theorem inv_close (flowId : Nat) (reason : Option Bytes) :
    Inv (step s (.close now written flowId reason)) := by
  simp only [step, closeFlow]
  split
  · exact h
  · refine h.flush _ written (StoreInv.prune (h.store.of_names ?_) _) rfl rfl rfl
    rw [names_updateFlow fun entry ↦ name_closeEntry _ _ entry]

theorem inv_closeAll (reason : Option Bytes) : Inv (step s (.closeAll now written reason)) := by
  refine h.flush _ written (StoreInv.prune (h.store.of_names ?_) _) rfl rfl rfl
  have hnames : Entry.name ∘ closeEntry reason (now 0) = Entry.name (κ := κ) :=
    funext fun entry ↦ name_closeEntry reason (now 0) entry
  rw [map_map, hnames]

/-- A flush does not touch the file that is loaded next. -/
theorem files_flush_of_loads {settings : Settings} (hloads : Loads s.store settings) :
    (TrafficStore.flush now written s.files s.store).1 settings.path = s.files settings.path := by
  simp only [TrafficStore.flush]
  split
  · rfl
  next hwrites =>
  refine if_neg fun hpath ↦ hwrites ?_
  rcases hloads.2.2 with hne | hunloaded
  · exact absurd hpath.symm hne
  · rcases h.unloaded hunloaded with hdisabled | hnil
    · exact .inl (by simp [prune, hdisabled])
    · exact .inr (.inl hnil)

/-- A store that loads a history has no entries. -/
theorem entries_of_loads {settings : Settings} (hloads : Loads s.store settings) (now now' : Int) :
    (prune now (applySettings settings (prune now' s.store))).entries = [] := by
  have hempty : (applySettings settings (prune now' s.store)).entries = [] := by
    by_cases hpath : s.store.historyPath = settings.path
    · have hunloaded := hloads.2.2.resolve_left (not_not.2 hpath)
      rcases h.unloaded hunloaded with hdisabled | hnil
      · have hnone := h.store.disabled hdisabled
        simp [applySettings, prune, hnone, pruneLoop]
      · exact absurd (hpath.symm.trans hnil) hloads.2.1
    · exact if_pos (.inl hpath)
  simp only [prune] at hempty ⊢
  rw [hempty]
  rfl

theorem inv_configure (loaded : Bool) (settings : Settings)
    (hapart : Apart s (.configure now written loaded settings)) :
    Inv (step s (.configure now written loaded settings)) := by
  have hstore := ((h.store.prune (now 0)).applySettings settings).prune (now 3)
  have hfiles := files_flush h.store h.files now written
  simp only [step, configure, store_flush]
  split
  · next hload =>
    have hloads : Loads s.store settings := by
      refine ⟨hload.1, hload.2.1, or_iff_not_imp_left.2 fun hpath ↦ ?_⟩
      simpa [prune, applySettings, not_not.1 hpath] using hload.2.2
    have hloaded : StoreInv s.handles
        { prune (now 3) (applySettings settings (prune (now 0) s.store)) with
          historyLoaded := true } :=
      ⟨hstore.distinct, hstore.named, hstore.sequence, hstore.handles, hstore.disabled⟩
    split
    · have hfile : FileOk ((s.files settings.path).getD []) ∧
          ∀ record ∈ (s.files settings.path).getD [], ∀ connection,
            (recordFlowId record.connId, connection) ∈ s.handles → record.info.1 = connection := by
        cases hfile : s.files settings.path with
        | none => exact ⟨⟨nodup_nil, nofun⟩, nofun⟩
        | some records =>
          exact ⟨h.files settings.path records hfile, fun record hrecord connection hhandle ↦
            hapart hloads records hfile record hrecord _ connection hhandle rfl⟩
      rw [← files_flush_of_loads h now written hloads] at hfile
      exact ⟨hloaded.appendHistory (entries_of_loads h hloads (now 3) (now 0)) hload.1 hfile.1
        hfile.2 _ _, hfiles, nofun⟩
    · exact ⟨hloaded, hfiles, nofun⟩
  · next hload =>
    refine ⟨hstore, hfiles, fun hunloaded ↦ ?_⟩
    by_contra hready
    obtain ⟨henabled, hpath⟩ := not_or.1 hready
    exact hload ⟨Bool.of_not_eq_false henabled, hpath, by rw [Bool.not_eq_true']; exact hunloaded⟩

omit h

theorem inv_step (s : System κ) (event : Event κ) (h : Inv s) (hapart : Apart s event) :
    Inv (step s event) := by
  cases event with
  | openFlow now info => exact inv_openFlow h now info hapart
  | bytes now flowId rxDelta txDelta =>
    refine ⟨h.store.trafficBytes now flowId rxDelta txDelta, h.files, ?_⟩
    simp only [step, trafficBytes]
    split <;> exact h.unloaded
  | close now written flowId reason => exact inv_close h now written flowId reason
  | closeAll now written reason => exact inv_closeAll h now written reason
  | flush now written => exact h.flush now written h.store rfl rfl rfl
  | configure now written loaded settings =>
    exact inv_configure h now written loaded settings hapart
  | restart => exact ⟨storeInv_create 512, h.files, fun _ ↦ .inr rfl⟩

theorem inv_init : Inv (System.init κ) where
  store := storeInv_create 512
  files path records hrecords := by cases hrecords
  unloaded _ := .inr rfl

/-! ## Flow ids name connections -/

theorem touches_refl (connection : Nat) (entries : List (Entry (Nat × κ))) :
    Touches connection entries entries :=
  forall₂_same.2 fun _ _ ↦ .inl rfl

theorem touches_updateFlow {connection flowId : Nat}
    (hupdate : ∀ entry, (update entry).name = entry.name)
    (howner : ∀ entry ∈ entries, entry.flowId = flowId → entry.info.1 = connection) :
    Touches connection entries (updateFlow flowId update entries) := by
  induction entries with
  | nil => exact .nil
  | cons entry entries ih =>
    obtain ⟨hentry, hentries⟩ := forall_mem_cons.1 howner
    rw [updateFlow]
    split
    · next hid =>
      have hinfo : (update entry).info = entry.info :=
        congrArg (fun name ↦ name.2.2) (hupdate entry)
      refine .cons (.inr ⟨hentry hid, ?_⟩) (touches_refl _ _)
      rw [hinfo, hentry hid]
    · exact .cons (.inl rfl) (ih hentries)

theorem identified_of_inv (h : Inv s) : Identified s where
  distinct := h.store.distinct
  bytes flowId connection hhandle now rxDelta txDelta := by
    rw [trafficBytes]
    split
    · exact touches_refl _ _
    · refine touches_updateFlow (fun entry ↦ name_addBytes _ _ _ entry) fun entry hentry hid ↦ ?_
      exact (h.store.named entry hentry).owner connection (hid ▸ hhandle)
  close flowId connection hhandle now written reason := by
    rw [closeFlow]
    split
    · exact ⟨_, touches_refl _ _, .refl _⟩
    refine ⟨_, touches_updateFlow (fun entry ↦ name_closeEntry reason (now 0) entry)
      fun entry hentry hid ↦ (h.store.named entry hentry).owner connection (hid ▸ hhandle), ?_⟩
    rw [store_flush]
    exact (pruneLoop_sublist _ _ _ _).trans (pruneLoop_sublist _ _ _ _)

/-- **Flow ids name connections** at the end of every run in which the counter does not wrap around
and no history is loaded that has an id of the process for another connection. -/
theorem run_flowIds (events : List (Event κ)) (h : Along step Apart (System.init κ) events) :
    Identified (run step (System.init κ) events) :=
  identified_of_inv (run_inv inv_step events inv_init h)

/-! ## Two processes and one history -/

theorem limit_le : 16 ≤ maxLimit := by
  decide

/-- A clock that stands still. -/
def stopped : Nat → Int := fun _ ↦ 1

/-- A configuration with the history file `h`. -/
def historyAtH : Settings := ⟨true, ⟨16, limit_le⟩, 0, bytes "h"⟩

/-- A process with a history that has one closed connection, with the flow id 1. -/
def firstProcess : List (Event Unit) :=
  [.configure stopped true true historyAtH, .openFlow stopped (), .close stopped true 1 none]

/-- The next process loads the history before it opens a connection. -/
def loadThenOpen : List (Event Unit) :=
  firstProcess ++
    [.restart, .configure stopped true true historyAtH, .openFlow stopped (), .bytes stopped 2 5 0]

/-- The next process opens a connection before it loads the history. -/
def openThenLoad : List (Event Unit) :=
  firstProcess ++ [.restart, .openFlow stopped (), .configure stopped true true historyAtH]

theorem loadThenOpen_identified :
    Along step Apart (System.init Unit) loadThenOpen ∧
      Identified (run step (System.init Unit) loadThenOpen) := by
  have halong : Along step Apart (System.init Unit) loadThenOpen := by
    refine ⟨fun _ records hrecords ↦ ?_, ?_, trivial, trivial, fun _ _ _ _ _ _ _ hhandle ↦ ?_, ?_,
      trivial, trivial⟩
    · cases hrecords
    · change (_ + 1 : Nat) < 2 ^ 64
      decide
    · cases hhandle
    · change (_ + 1 : Nat) < 2 ^ 64
      decide
  exact ⟨halong, run_flowIds loadThenOpen halong⟩

/-- The system after the second process has loaded the history. -/
def collided : System Unit :=
  run step (System.init Unit) openThenLoad

/-- The entry of the connection 0, from the history. -/
def foreignEntry : Entry (Nat × Unit) :=
  { entryInitialize 1 (0, ()) 1 with active := false, closeReason := bytes "closed", endNs := 1 }

/-- The second process has opened the connection 1 with the flow id 1.  After it has loaded the
history, bytes that it reports for that flow are counted for the connection 0 of the first
process. -/
theorem foreign_entry_changed :
    (1, 1) ∈ collided.handles ∧ collided.store.entries = [foreignEntry] ∧
      (trafficBytes stopped 1 5 0 collided.store).entries = [{ foreignEntry with rxTotal := 5 }] ∧
      ¬ Identified collided := by
  have hhandle : (1, 1) ∈ collided.handles := by decide
  have hentries : collided.store.entries = [foreignEntry] := by decide
  have hbytes : (trafficBytes stopped 1 5 0 collided.store).entries =
      [{ foreignEntry with rxTotal := 5 }] := by decide
  refine ⟨hhandle, hentries, hbytes, fun h ↦ ?_⟩
  have htouches := h.bytes 1 1 hhandle stopped 5 0
  rw [hentries, hbytes] at htouches
  rcases (forall₂_cons.1 htouches).1 with heq | ⟨hconnection, -⟩
  · exact absurd heq (by decide)
  · exact absurd hconnection (by decide)

end ClambHook.TrafficStore
