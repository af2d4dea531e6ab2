import ClambHook.ConfigFile.Write
import ClambHook.Lib.CStringLemmas

/-!
# The promises of a configuration write

Whatever fails, an error leaves the configuration file as it was, success leaves the new document,
no temporary file stays behind, and the backup of a file that was replaced can be read.  `Keeps` is
that promise.  It does not hold for every state of the world; `keeps_iff` says for which.

The exceptions are: a backup that is older by its timestamp than five others is removed at once; an
old file that cannot be opened is replaced without a backup; a temporary file cannot be removed; and
a configuration file whose own name is that of a temporary file.
-/

namespace ClambHook.ConfigFile

open CString Retention List Option AList

/-! ## The promise -/

/-- The backup that a write makes if no call fails. -/
def newBackup (world : World) (base : Bytes) (dir : Directory) : Option Bytes :=
  if needsBackup world base dir then
    (uniqueBackupFrom (fun _ ↦ none) base world.timestamp dir 1024 0).toOption
  else none

/-- No file stays behind but the configuration and its backup. -/
def NoTemporary (world : World) (base : Bytes) (before after : Directory) : Prop :=
  ∀ name ∈ after, name ∈ before ∨ name = base ∨ newBackup world base before = some name

/-- What a write promises about the directory, from its result. -/
def Keeps (world : World) (base toml : Bytes) (before : Directory) :
    Except Error (Option Bytes) × Directory → Prop
  | (.error _, after) =>
    after.lookup base = before.lookup base ∧ NoTemporary world base before after
  | (.ok backupPath, after) =>
    after.lookup base = some toml ∧ NoTemporary world base before after ∧
      ∀ old, before.lookup base = some old → old ≠ [] →
        ∃ name, backupPath = some name ∧ after.lookup name = some old

/-! ## When it holds -/

/-- The document is accepted, and there is a name for the backup if one is needed. -/
def Accepted (parse : Bytes → Except Error Unit) (world : World) (base toml : Bytes)
    (dir : Directory) : Prop :=
  parse toml = .ok () ∧
    (needsBackup world base dir = true → (newBackup world base dir).isSome = true)

/-- There is a name for the temporary file. -/
def HasTemporary (world : World) (base : Bytes) (dir : Directory) : Prop :=
  ∃ six : Bytes, six.length = 6 ∧ temporaryName six ∉ dir ∧
    newBackup world base dir ≠ some (temporaryName six)

/-- Is the file a backup of `base` that is as new as a timestamp? -/
def isNewer (base : Bytes) (timestamp : Int) (name : Bytes) : Bool :=
  (backupTimestamp base name).any (timestamp ≤ ·)

/-- The states of the world in which a write keeps its promise, whatever the other calls do. -/
structure Safe (parse : Bytes → Except Error Unit) (world : World) (base toml : Bytes)
    (dir : Directory) : Prop where
  /-- The configuration file does not have the name of a temporary file. -/
  distinct : Accepted parse world base toml dir → base ∈ dir → world.unlinkTemporary = true →
    ∀ six : Bytes, six.length = 6 → temporaryName six ≠ base
  /-- The temporary file can be removed. -/
  removable : Accepted parse world base toml dir → HasTemporary world base dir →
    world.unlinkTemporary = true
  /-- An old file with content can be opened. -/
  readable : Accepted parse world base toml dir → HasTemporary world base dir →
    (dir.lookup base).any (· ≠ []) = true → needsBackup world base dir = true
  /-- Fewer than five backups are as new as the new one. -/
  newest : Accepted parse world base toml dir → HasTemporary world base dir →
    ∀ name timestamp, newBackup world base dir = some name →
      backupTimestamp base name = some timestamp →
      (dir.keys.filter (isNewer base timestamp)).length < 5

/-! ## Copying -/

theorem writeAll_eq_ok {operation : String} {writes : List Written} {data : Bytes}
    (h : (writeAll operation writes data).2.2 = .ok ()) :
    (writeAll operation writes data).1 = data := by
  fun_induction writeAll operation writes data with
  | case1 => rfl
  | case2 => rfl
  | case3 writes data hdata ih => exact ih h
  | case4 => cases h
  | case5 => cases h
  | case6 count writes data hdata hcount rest ih =>
    rw [ih h, take_append_drop]

theorem writeAll_nil (operation : String) (data : Bytes) :
    writeAll operation [] data = (data, [], .ok ()) := by
  cases data <;> rfl

theorem copyChunks_eq_ok {fuel : Nat} {reads : List (Option (Nat × Bytes))} {writes : List Written}
    {source : Bytes} (hfuel : source.length < 16384 * fuel)
    (h : (copyChunks fuel reads writes source).2 = .ok ()) :
    (copyChunks fuel reads writes source).1 = source := by
  induction fuel generalizing reads writes source with
  | zero => omega
  | succ fuel ih =>
    rw [copyChunks] at h ⊢
    cases hread : reads.head?.join with
    | some failure =>
      -- a read that fails is the last one
      simp only [hread] at h ⊢
      have hshort : (source.take (min failure.1 16383)).length < 16384 := by
        rw [length_take]
        omega
      split at h
      · cases h
      · rw [if_pos hshort] at h
        cases h
    | none =>
      simp only [hread] at h ⊢
      split at h
      · cases h
      next hstatus =>
      have hcopied := writeAll_eq_ok hstatus
      split at h
      · next hlast =>
        rw [if_pos hlast, hcopied]
        rw [length_take] at hlast
        exact take_of_length_le (by omega)
      · next hfull =>
        rw [if_neg hfull, hcopied]
        rw [length_take] at hfull
        rw [ih (by rw [length_drop]; omega) h, take_append_drop]

theorem copyChunks_nil {fuel : Nat} {source : Bytes} (hfuel : source.length < 16384 * fuel) :
    copyChunks fuel [] [] source = (source, .ok ()) := by
  induction fuel generalizing source with
  | zero => omega
  | succ fuel ih =>
    rw [copyChunks]
    simp only [List.head?_nil, join_none, writeAll_nil, tail_nil]
    split
    · next hlast =>
      rw [length_take] at hlast
      rw [take_of_length_le (by omega)]
    · next hfull =>
      rw [length_take] at hfull
      rw [ih (by rw [length_drop]; omega), take_append_drop]

/-! ## The backup -/

theorem candidate_ne_base (base : Bytes) (timestamp : Int) (attempt : Nat) :
    candidate base timestamp attempt ≠ base := by
  intro h
  have hlength := congrArg List.length h
  simp only [candidate, backupName, length_take, length_append] at hlength
  have hbak : (bytes ".bak").length = 4 := by decide
  omega

theorem uniqueBackupFrom_eq_ok {lstat : Nat → Option Bytes} {base : Bytes} {timestamp : Int}
    {dir : Directory} {left attempt : Nat} {name : Bytes}
    (h : uniqueBackupFrom lstat base timestamp dir left attempt = .ok name) :
    uniqueBackupFrom (fun _ ↦ none) base timestamp dir left attempt = .ok name ∧ name ∉ dir ∧
      name ≠ base := by
  induction left generalizing attempt with
  | zero => cases h
  | succ left ih =>
    rw [uniqueBackupFrom] at h ⊢
    split at h
    · cases h
    split at h
    · next hmem =>
      rw [if_pos hmem]
      exact ih h
    · next hfree =>
      cases h
      rw [if_neg hfree]
      exact ⟨rfl, hfree, candidate_ne_base base timestamp attempt⟩

section

variable {parse : Bytes → Except Error Unit} {world : World} {calls : Calls} {base toml : Bytes}
  {dir dir' : Directory}

theorem exists_old_of_needsBackup (h : needsBackup world base dir = true) :
    ∃ old, dir.lookup base = some old ∧ old ≠ [] := by
  simp only [needsBackup, Bool.and_eq_true, Option.any_eq_true] at h
  obtain ⟨⟨-, old, hold, hne⟩, -⟩ := h
  exact ⟨old, hold, of_decide_eq_true hne⟩

variable {name : Bytes}

theorem newBackup_eq_some_iff : newBackup world base dir = some name ↔
    needsBackup world base dir = true ∧
      uniqueBackupFrom (fun _ ↦ none) base world.timestamp dir 1024 0 = .ok name := by
  rw [newBackup, ite_none_right_eq_some]
  refine and_congr_right fun _ ↦ ?_
  cases uniqueBackupFrom (fun _ ↦ none) base world.timestamp dir 1024 0 <;> simp [Except.toOption]

theorem newBackup_eq_some (h : newBackup world base dir = some name) :
    needsBackup world base dir = true ∧ name ∉ dir ∧ name ≠ base := by
  obtain ⟨hneeds, hunique⟩ := newBackup_eq_some_iff.1 h
  exact ⟨hneeds, (uniqueBackupFrom_eq_ok hunique).2⟩

theorem newBackup_of_uniqueBackupPath (hneeds : needsBackup world base dir = true)
    (h : uniqueBackupPath world calls base dir = .ok name) :
    newBackup world base dir = some name := by
  rw [uniqueBackupPath] at h
  split at h
  · cases h
  · exact newBackup_eq_some_iff.2 ⟨hneeds, (uniqueBackupFrom_eq_ok h).1⟩

theorem length_lt_chunks (source : Bytes) :
    source.length < 16384 * (source.length / 16384 + 1) := by
  omega

/-! ## The new file -/

/-- What the creation of the temporary file can do. -/
theorem createTemporary_cases {result : Except Error Unit}
    (h : createTemporary calls toml dir = (result, dir')) :
    (dir' = dir ∨ temporaryName calls.temporary.1 ∉ dir ∧ ∃ content,
        dir' = dir.insert (temporaryName calls.temporary.1) content) ∧
      (result = .ok () → temporaryName calls.temporary.1 ∉ dir ∧
        dir' = dir.insert (temporaryName calls.temporary.1) toml) := by
  rw [createTemporary] at h
  simp only at h
  split at h
  · cases h
    exact ⟨.inl rfl, nofun⟩
  split at h
  · cases h
    exact ⟨.inl rfl, nofun⟩
  next hfree =>
  split at h
  · cases h
    exact ⟨.inr ⟨hfree, _, rfl⟩, nofun⟩
  split at h
  · cases h
    exact ⟨.inr ⟨hfree, _, rfl⟩, nofun⟩
  · cases h
    exact ⟨.inr ⟨hfree, _, rfl⟩, nofun⟩
  · cases h
    exact ⟨.inr ⟨hfree, _, rfl⟩, nofun⟩
  · next hstatus _ _ =>
    cases h
    exact ⟨.inr ⟨hfree, _, rfl⟩, fun _ ↦ ⟨hfree, by rw [writeAll_eq_ok hstatus]⟩⟩

/-- A replacement that fails removes the temporary file, if there is one. -/
theorem replace_error {e : Error} (h : replace world calls base toml dir = (.error e, dir')) :
    ∃ mid : Directory, dir' = cleanup world calls mid ∧
      (mid = dir ∨ temporaryName calls.temporary.1 ∉ dir ∧ ∃ content,
        mid = dir.insert (temporaryName calls.temporary.1) content) := by
  rw [replace] at h
  split at h
  · next mid hcreate =>
    cases h
    exact ⟨mid, rfl, (createTemporary_cases hcreate).1⟩
  next mid hcreate =>
  split at h
  · cases h
    exact ⟨mid, rfl, (createTemporary_cases hcreate).1⟩
  · cases h

/-- A replacement that succeeds puts the document in the place of the old file. -/
theorem replace_ok (h : replace world calls base toml dir = (.ok (), dir')) :
    temporaryName calls.temporary.1 ∉ dir ∧
      ∀ name, dir'.lookup name = if name = base then some toml else dir.lookup name := by
  rw [replace] at h
  split at h
  · cases h
  next mid hcreate =>
  obtain ⟨hfree, rfl⟩ := (createTemporary_cases hcreate).2 rfl
  split at h
  · cases h
  cases h
  refine ⟨hfree, fun name ↦ ?_⟩
  rw [lookup_insert]
  split
  · next hname =>
    rw [hname, lookup_insert]
    rfl
  · next hname =>
    rw [lookup_insert_ne hname]
    by_cases htemporary : name = temporaryName calls.temporary.1
    · rw [htemporary, lookup_erase, lookup_eq_none.2 hfree]
    · rw [lookup_erase_ne htemporary, lookup_insert_ne htemporary]

/-! ## Old backups -/

theorem backupTimestamp_self (base : Bytes) : backupTimestamp base base = none := by
  rw [backupTimestamp, if_pos (.inl (by omega))]

theorem mem_findBackups {entry : Bytes × Int} :
    entry ∈ findBackups calls base dir ↔
      entry.1 ∈ dir ∧ calls.readdir entry.1 = true ∧
        backupTimestamp base entry.1 = some entry.2 := by
  rw [findBackups, mem_filterMap]
  constructor
  · rintro ⟨name, hname, hentry⟩
    obtain ⟨timestamp, htimestamp, rfl⟩ := map_eq_some_iff.1 hentry
    obtain ⟨hmem, hseen⟩ := mem_filter.1 hname
    exact ⟨mem_keys.2 hmem, hseen, htimestamp⟩
  · rintro ⟨hmem, hseen, htimestamp⟩
    exact ⟨entry.1, mem_filter.2 ⟨mem_keys.1 hmem, hseen⟩, by rw [htimestamp]; rfl⟩

theorem nodup_findBackups : (findBackups calls base dir).Nodup := by
  refine (dir.keys_nodup.filter _).filterMap fun a b entry ha hb ↦ ?_
  obtain ⟨_, -, rfl⟩ := map_eq_some_iff.1 ha
  obtain ⟨_, -, heq⟩ := map_eq_some_iff.1 hb
  exact (congrArg Prod.fst heq).symm

theorem sorted_findBackups :
    prunedNames calls base dir =
      (((calls.qsort.sort (findBackups calls base dir)).take
        ((findBackups calls base dir).length - 5)).map Prod.fst).filter calls.unlinkBackup := by
  rw [prunedNames]
  split
  · rfl
  next hfew =>
  -- nothing is removed from a list that is not sorted
  have hzero : (findBackups calls base dir).length - 5 = 0 := by omega
  rw [hzero, take_zero, take_zero]

theorem timestamp_of_mem_prunedNames (h : name ∈ prunedNames calls base dir) :
    ∃ timestamp, backupTimestamp base name = some timestamp ∧
      (name, timestamp) ∈ (calls.qsort.sort (findBackups calls base dir)).take
        ((findBackups calls base dir).length - 5) := by
  rw [sorted_findBackups] at h
  obtain ⟨⟨name', timestamp⟩, hentry, rfl⟩ := mem_map.1 (mem_filter.1 h).1
  have hmem := (calls.qsort.perm _).mem_iff.1 (mem_of_mem_take hentry)
  exact ⟨timestamp, (mem_findBackups.1 hmem).2.2, hentry⟩

theorem lookup_pruneBackups (name : Bytes) :
    (pruneBackups calls base dir).lookup name =
      if name ∈ prunedNames calls base dir then none else dir.lookup name := by
  rw [pruneBackups]
  generalize prunedNames calls base dir = names
  induction names generalizing dir with
  | nil => simp
  | cons first names ih =>
    rw [foldl_cons, ih]
    by_cases hname : name = first
    · subst hname
      simp
    · simp [hname, lookup_erase_ne hname]

/-- A backup with fewer than five others as new stays. -/
theorem notMem_prunedNames (h : ∀ timestamp, backupTimestamp base name = some timestamp →
      (dir.keys.filter fun other ↦ other ≠ name ∧ isNewer base timestamp other).length < 5) :
    name ∉ prunedNames calls base dir := by
  intro hmem
  obtain ⟨timestamp, htimestamp, hentry⟩ := timestamp_of_mem_prunedNames hmem
  have hperm := calls.qsort.perm (findBackups calls base dir)
  rw [← hperm.length_eq] at hentry
  refine notMem_take_of_rivals (calls.qsort.sorted _) (hperm.nodup_iff.2 nodup_findBackups) ?_
    hentry
  refine lt_of_le_of_lt ?_ (h timestamp htimestamp)
  rw [(hperm.filter _).length_eq, ← length_map Prod.fst]
  -- the rivals among the entries have different names
  refine (Nodup.subperm ?_ fun other hother ↦ ?_).length_le
  · refine (nodup_findBackups.filter _).map_on fun a ha b hb heq ↦ ?_
    have ha' := (mem_findBackups.1 (mem_filter.1 ha).1).2.2
    have hb' := (mem_findBackups.1 (mem_filter.1 hb).1).2.2
    rw [heq, hb'] at ha'
    exact Prod.ext heq (Option.some.inj ha').symm
  · obtain ⟨entry, hentry, rfl⟩ := mem_map.1 hother
    obtain ⟨hfound, hrival⟩ := mem_filter.1 hentry
    obtain ⟨hne, hle⟩ := of_decide_eq_true hrival
    obtain ⟨hdir, -, hstamp⟩ := mem_findBackups.1 hfound
    refine mem_filter.2 ⟨mem_keys.1 hdir, decide_eq_true ⟨fun heq ↦ hne ?_, ?_⟩⟩
    · rw [heq, htimestamp] at hstamp
      exact Prod.ext heq (Option.some.inj hstamp).symm
    · rw [isNewer, hstamp]
      exact decide_eq_true hle

/-- A sort can remove a backup with five others as new. -/
theorem mem_prunedNames {timestamp : Int} (hname : name ∈ dir)
    (htimestamp : backupTimestamp base name = some timestamp)
    (hnewer : 5 ≤ (dir.keys.filter fun other ↦ other ≠ name ∧ isNewer base timestamp other).length)
    (hseen : ∀ other, calls.readdir other = true) (hunlink : calls.unlinkBackup name = true)
    (hqsort : calls.qsort = sortBefore backupKey (name, timestamp)) :
    name ∈ prunedNames calls base dir := by
  have hentry : (name, timestamp) ∈ findBackups calls base dir :=
    mem_findBackups.2 ⟨hname, hseen name, htimestamp⟩
  rw [sorted_findBackups, hqsort]
  refine mem_filter.2 ⟨mem_map.2 ⟨_, mem_take_sortBefore hentry ?_, rfl⟩, hunlink⟩
  refine hnewer.trans ?_
  rw [← length_map Prod.fst]
  refine ((dir.keys_nodup.filter _).subperm fun other hother ↦ ?_).length_le
  obtain ⟨hmem, hother⟩ := mem_filter.1 hother
  obtain ⟨hne, hnew⟩ := of_decide_eq_true hother
  obtain ⟨stamp, hstamp, hle⟩ := (any_eq_true _ _).1 hnew
  refine mem_map.2 ⟨(other, stamp), mem_filter.2 ⟨?_, decide_eq_true ⟨?_, ?_⟩⟩, rfl⟩
  · exact mem_findBackups.2 ⟨mem_keys.2 hmem, hseen other, hstamp⟩
  · exact fun heq ↦ hne (congrArg Prod.fst heq)
  · exact of_decide_eq_true hle

/-- The configuration file is no backup. -/
theorem lookup_base_pruneBackups :
    (pruneBackups calls base dir).lookup base = dir.lookup base := by
  rw [lookup_pruneBackups, if_neg]
  refine notMem_prunedNames fun timestamp h ↦ ?_
  rw [backupTimestamp_self] at h
  cases h

/-! ## The promise is kept -/

/-- The directory behind the backup: nothing has changed but that there may be the new backup. -/
def Grown (world : World) (base : Bytes) (before mid : Directory) : Prop :=
  mid = before ∨ ∃ name copied, newBackup world base before = some name ∧
    mid = before.insert name copied

section

variable (h : Grown world base dir dir')

include h

theorem Grown.lookup_base : dir'.lookup base = dir.lookup base := by
  rcases h with rfl | ⟨name, copied, hname, rfl⟩
  · rfl
  · exact lookup_insert_ne (newBackup_eq_some hname).2.2.symm

theorem Grown.of_mem (hname : name ∈ dir') :
    name ∈ dir ∨ newBackup world base dir = some name := by
  rcases h with rfl | ⟨name', copied, hname', rfl⟩
  · exact .inl hname
  · rcases (mem_insert dir).1 hname with rfl | hname
    · exact .inr hname'
    · exact .inl hname

theorem Grown.mem (hname : name ∈ dir) : name ∈ dir' := by
  rcases h with rfl | ⟨name', copied, -, rfl⟩
  · exact hname
  · exact (mem_insert dir).2 (.inr hname)

theorem Grown.noTemporary : NoTemporary world base dir dir' := by
  intro name hname
  rcases h.of_mem hname with hname | hname
  · exact .inl hname
  · exact .inr (.inr hname)

end

/-- The outcome of a backup that succeeds: a directory with the backup, if one is needed. -/
structure BackedUp (world : World) (base : Bytes) (before mid : Directory)
    (backupPath : Option Bytes) : Prop where
  grown : Grown world base before mid
  path : backupPath = newBackup world base before
  needed : needsBackup world base before = true → (newBackup world base before).isSome = true
  copied : ∀ name, backupPath = some name → mid.lookup name = before.lookup base

variable {backupPath : Option Bytes}

/-- What the backup of the old file does. -/
theorem backup_spec {result : Except Error (Option Bytes)}
    (h : backup world calls base dir = (result, dir')) :
    Grown world base dir dir' ∧
      ∀ backupPath, result = .ok backupPath → BackedUp world base dir dir' backupPath := by
  rw [backup] at h
  split at h
  · next hneeds =>
    split at h
    · cases h
      exact ⟨.inl rfl, nofun⟩
    next name hname =>
    split at h
    · cases h
      exact ⟨.inl rfl, nofun⟩
    cases hcopy : copyChunks (((dir.lookup base).getD []).length / 16384 + 1) calls.reads
      calls.backupWrites ((dir.lookup base).getD []) with | mk copied status =>
    have hnew := newBackup_of_uniqueBackupPath hneeds hname
    have hgrown : Grown world base dir (dir.insert name copied) := .inr ⟨name, copied, hnew, rfl⟩
    simp only [hcopy] at h
    split at h
    · cases h
      exact ⟨hgrown, nofun⟩
    · cases h
      exact ⟨hgrown, nofun⟩
    cases h
    refine ⟨hgrown, fun backupPath hpath ↦ ?_⟩
    cases hpath
    refine ⟨hgrown, hnew.symm, fun _ ↦ by rw [hnew]; rfl, fun name' hname' ↦ ?_⟩
    cases hname'
    have hcopied := copyChunks_eq_ok (length_lt_chunks _) (congrArg Prod.snd hcopy)
    rw [hcopy] at hcopied
    obtain ⟨old, hold, -⟩ := exists_old_of_needsBackup hneeds
    rw [hold] at hcopied ⊢
    rw [lookup_insert]
    exact congrArg some hcopied
  · next hneeds =>
    cases h
    refine ⟨.inl rfl, fun backupPath hpath ↦ ?_⟩
    cases hpath
    exact ⟨.inl rfl, by rw [newBackup, if_neg hneeds], fun h ↦ absurd h hneeds, nofun⟩

theorem BackedUp.hasTemporary {six : { six : Bytes // six.length = 6 }}
    (h : BackedUp world base dir dir' backupPath) (hfree : temporaryName six.1 ∉ dir') :
    HasTemporary world base dir := by
  refine ⟨six.1, six.2, fun hmem ↦ hfree ?_, fun hname ↦ hfree ?_⟩
  · exact h.grown.mem hmem
  have hlookup := h.copied _ (h.path.trans hname)
  obtain ⟨old, hold, -⟩ := exists_old_of_needsBackup (newBackup_eq_some hname).1
  rw [hold] at hlookup
  exact lookup_isSome.1 (by rw [hlookup]; rfl)

section

variable (hsafe : Safe parse world base toml dir) (haccepted : Accepted parse world base toml dir)
  (hbackup : BackedUp world base dir dir' backupPath) {after : Directory}

include hsafe haccepted hbackup

/-- A replacement that fails leaves what was there, without the temporary file. -/
theorem keeps_of_replace_error {e : Error}
    (h : replace world calls base toml dir' = (.error e, after)) :
    Keeps world base toml dir (.error e, after) := by
  have hgrown := hbackup.grown
  obtain ⟨mid, rfl, hmid⟩ := replace_error h
  rw [cleanup]
  cases hunlink : world.unlinkTemporary with
  | false =>
    rcases hmid with rfl | ⟨hfree, -⟩
    · exact ⟨hgrown.lookup_base, hgrown.noTemporary⟩
    · cases hunlink.symm.trans (hsafe.removable haccepted (hbackup.hasTemporary hfree))
  | true =>
    replace hmid : ∀ name ≠ temporaryName calls.temporary.1,
        mid.lookup name = dir'.lookup name := by
      rcases hmid with rfl | ⟨-, content, rfl⟩
      · exact fun name _ ↦ rfl
      · exact fun name ↦ lookup_insert_ne
    rw [if_pos rfl]
    refine ⟨?_, fun name hname ↦ ?_⟩
    · by_cases hbase : base = temporaryName calls.temporary.1
      · have hnone : base ∉ dir := fun hmem ↦
          hsafe.distinct haccepted hmem hunlink _ calls.temporary.2 hbase.symm
        rw [lookup_eq_none.2 hnone, hbase, lookup_erase]
      · rw [lookup_erase_ne hbase, hmid base hbase, hgrown.lookup_base]
    · obtain ⟨hne, hmem⟩ := mem_erase.1 hname
      refine hgrown.noTemporary name (lookup_isSome.1 ?_)
      rw [← hmid name hne]
      exact lookup_isSome.2 hmem

/-- A replacement that succeeds leaves the new document, and a backup of the old one. -/
theorem keeps_of_replace_ok (h : replace world calls base toml dir' = (.ok (), after)) :
    Keeps world base toml dir (.ok backupPath, pruneBackups calls base after) := by
  obtain ⟨hfree, hafter⟩ := replace_ok h
  have hmem : ∀ name ∈ after, name = base ∨ name ∈ dir' := by
    intro name hname
    have hsome := lookup_isSome.2 hname
    rw [hafter] at hsome
    split at hsome
    · next hbase => exact .inl hbase
    · exact .inr (lookup_isSome.1 hsome)
  refine ⟨?_, fun name hname ↦ ?_, fun old hold hne ↦ ?_⟩
  · rw [lookup_base_pruneBackups, hafter, if_pos rfl]
  · have hsome := lookup_isSome.2 hname
    rw [lookup_pruneBackups] at hsome
    split at hsome
    · cases hsome
    · rcases hmem name (lookup_isSome.1 hsome) with hbase | hmem
      · exact .inr (.inl hbase)
      · exact hbackup.grown.noTemporary name hmem
  · have htemporary := hbackup.hasTemporary hfree
    have hneeds := hsafe.readable haccepted htemporary (by rw [hold]; exact decide_eq_true hne)
    obtain ⟨name, hname⟩ := isSome_iff_exists.1 (hbackup.needed hneeds)
    have hpath := hbackup.path.trans hname
    refine ⟨name, hpath, ?_⟩
    have hkept : name ∉ prunedNames calls base after := notMem_prunedNames fun timestamp h ↦ by
      refine lt_of_le_of_lt ?_ (hsafe.newest haccepted htemporary name timestamp hname h)
      refine ((after.keys_nodup.filter _).subperm fun other hother ↦ ?_).length_le
      obtain ⟨hother, hnewer⟩ := mem_filter.1 hother
      obtain ⟨hne, hnewer⟩ := of_decide_eq_true hnewer
      refine mem_filter.2 ⟨mem_keys.1 ?_, hnewer⟩
      rcases hmem other (mem_keys.2 hother) with rfl | hother
      · rw [isNewer, backupTimestamp_self] at hnewer
        cases hnewer
      · rcases hbackup.grown.of_mem hother with hother | hother
        · exact hother
        · exact absurd (Option.some.inj (hother.symm.trans hname)) hne
    rw [lookup_pruneBackups, if_neg hkept, hafter, if_neg (newBackup_eq_some hname).2.2,
      hbackup.copied name hpath, hold]

end

theorem keeps_of_safe (hsafe : Safe parse world base toml dir) (calls : Calls) :
    Keeps world base toml dir (writeAtomicDocument parse world calls base toml dir) := by
  have hself : ∀ e, Keeps world base toml dir (.error e, dir) :=
    fun e ↦ ⟨rfl, fun name hname ↦ .inl hname⟩
  rw [writeAtomicDocument]
  split
  · exact hself _
  · exact hself _
  next hparse _ =>
  split
  · next e mid hbackup =>
    have hgrown := (backup_spec hbackup).1
    exact ⟨hgrown.lookup_base, hgrown.noTemporary⟩
  next backupPath mid hbackup =>
  have hbackup := (backup_spec hbackup).2 backupPath rfl
  have haccepted : Accepted parse world base toml dir := ⟨hparse, hbackup.needed⟩
  rcases hreplace : replace world calls base toml mid with ⟨e | _, after⟩
  · exact keeps_of_replace_error hsafe haccepted hbackup hreplace
  · exact keeps_of_replace_ok hsafe haccepted hbackup hreplace

/-! ## The promise is broken -/

/-- No call fails up to the creation of the temporary file. -/
structure Calls.Smooth (calls : Calls) : Prop where
  mkdir : calls.mkdir = none
  clockGettime : calls.clockGettime = none
  lstat : calls.lstat = fun _ ↦ none
  openBackup : calls.openBackup = none
  reads : calls.reads = []
  backupWrites : calls.backupWrites = []
  closeBackup : calls.closeBackup = none
  fchmod : calls.fchmod = none
  writes : calls.writes = []
  fsync : calls.fsync = none
  closeTemporary : calls.closeTemporary = none

theorem backup_of_smooth (hcalls : calls.Smooth) (haccepted : Accepted parse world base toml dir) :
    ∃ mid, backup world calls base dir = (.ok (newBackup world base dir), mid) := by
  cases hneeds : needsBackup world base dir with
  | false => exact ⟨dir, by simp [backup, newBackup, hneeds]⟩
  | true =>
    obtain ⟨name, hname⟩ := isSome_iff_exists.1 (haccepted.2 hneeds)
    have hunique : uniqueBackupPath world calls base dir = .ok name := by
      rw [uniqueBackupPath, hcalls.clockGettime, hcalls.lstat]
      exact (newBackup_eq_some_iff.1 hname).2
    rw [backup, if_pos hneeds, hunique]
    simp only [hcalls.openBackup, hcalls.reads, hcalls.backupWrites, hcalls.closeBackup,
      copyChunks_nil (length_lt_chunks _), hname]
    exact ⟨_, rfl⟩

theorem createTemporary_of_smooth (hcalls : calls.Smooth) (hmkstemp : calls.mkstemp = none)
    (hfree : temporaryName calls.temporary.1 ∉ dir) :
    createTemporary calls toml dir =
      (.ok (), dir.insert (temporaryName calls.temporary.1) toml) := by
  simp only [createTemporary, hmkstemp, if_neg hfree, hcalls.fchmod, hcalls.writes, writeAll_nil,
    hcalls.fsync, hcalls.closeTemporary]

/-- The calls of a run in which none fails. -/
def Calls.succeed (six : { six : Bytes // six.length = 6 }) (qsort : KeySort backupKey) :
    Calls where
  mkdir := none
  clockGettime := none
  lstat := fun _ ↦ none
  openBackup := none
  reads := []
  backupWrites := []
  closeBackup := none
  mkstemp := none
  temporary := six
  fchmod := none
  writes := []
  fsync := none
  closeTemporary := none
  rename := none
  readdir := fun _ ↦ true
  qsort := qsort
  unlinkBackup := fun _ ↦ true

theorem smooth_succeed (six : { six : Bytes // six.length = 6 }) (qsort : KeySort backupKey) :
    (Calls.succeed six qsort).Smooth :=
  ⟨rfl, rfl, rfl, rfl, rfl, rfl, rfl, rfl, rfl, rfl, rfl⟩

/-- A run that comes to the replacement of the old file. -/
theorem writeAtomicDocument_of_smooth (hcalls : calls.Smooth)
    (haccepted : Accepted parse world base toml dir) :
    ∃ mid, BackedUp world base dir mid (newBackup world base dir) ∧
      writeAtomicDocument parse world calls base toml dir =
        finish calls base (newBackup world base dir) (replace world calls base toml mid) := by
  obtain ⟨mid, hmid⟩ := backup_of_smooth hcalls haccepted
  refine ⟨mid, (backup_spec hmid).2 _ rfl, ?_⟩
  simp only [writeAtomicDocument, haccepted.1, hcalls.mkdir, hmid]

/-- A temporary name that is free stays free when the backup is made. -/
theorem BackedUp.notMem (h : BackedUp world base dir dir' backupPath) (hfree : name ∉ dir)
    (hbackup : newBackup world base dir ≠ some name) : name ∉ dir' := by
  intro hmem
  rcases h.grown.of_mem hmem with hmem | hname
  · exact hfree hmem
  · exact hbackup hname

section

variable (h : ∀ calls, Keeps world base toml dir
  (writeAtomicDocument parse world calls base toml dir))
  (haccepted : Accepted parse world base toml dir)

include h haccepted

theorem distinct_of_keeps (hbase : base ∈ dir) (hunlink : world.unlinkTemporary = true)
    (six : Bytes) (hsix : six.length = 6) : temporaryName six ≠ base := by
  intro heq
  -- `mkstemp` fails, and the file with its name is removed
  let calls : Calls := { Calls.succeed ⟨six, hsix⟩ (sortBefore backupKey ([], 0)) with
    mkstemp := some [] }
  have hcalls : calls.Smooth := ⟨rfl, rfl, rfl, rfl, rfl, rfl, rfl, rfl, rfl, rfl, rfl⟩
  obtain ⟨mid, -, hrun⟩ := writeAtomicDocument_of_smooth hcalls haccepted
  have hreplace : replace world calls base toml mid =
      (.error (callError "create temporary config" []), mid.erase base) := by
    simp only [replace, createTemporary, calls, cleanup, hunlink, if_true, Calls.succeed, heq]
  have hkeeps := h calls
  rw [hrun, hreplace] at hkeeps
  have hlookup := hkeeps.1
  rw [lookup_erase] at hlookup
  exact lookup_eq_none.1 hlookup.symm hbase

theorem removable_of_keeps (htemporary : HasTemporary world base dir) :
    world.unlinkTemporary = true := by
  obtain ⟨six, hsix, hfree, hbackup⟩ := htemporary
  by_contra hunlink
  -- the temporary file cannot be renamed
  let calls : Calls := { Calls.succeed ⟨six, hsix⟩ (sortBefore backupKey ([], 0)) with
    rename := some [] }
  have hcalls : calls.Smooth := ⟨rfl, rfl, rfl, rfl, rfl, rfl, rfl, rfl, rfl, rfl, rfl⟩
  obtain ⟨mid, hmid, hrun⟩ := writeAtomicDocument_of_smooth hcalls haccepted
  have hreplace : replace world calls base toml mid =
      (.error (callError "replace config" []), mid.insert (temporaryName six) toml) := by
    rw [replace, createTemporary_of_smooth hcalls rfl (hmid.notMem hfree hbackup)]
    simp only [calls, cleanup, if_neg hunlink, Calls.succeed]
  have hkeeps := h calls
  rw [hrun, hreplace] at hkeeps
  rcases hkeeps.2 (temporaryName six) ((mem_insert mid).2 (.inl rfl)) with hmem | rfl | hname
  · exact hfree hmem
  · have hlookup := hkeeps.1
    rw [lookup_insert, lookup_eq_none.2 hfree] at hlookup
    cases hlookup
  · exact hbackup hname

omit h in
/-- A run in which no call fails. -/
theorem writeAtomicDocument_succeed (six : { six : Bytes // six.length = 6 })
    (qsort : KeySort backupKey) (hfree : temporaryName six.1 ∉ dir)
    (hbackup : newBackup world base dir ≠ some (temporaryName six.1)) :
    ∃ mid after, BackedUp world base dir mid (newBackup world base dir) ∧
      (∀ name, after.lookup name = if name = base then some toml else mid.lookup name) ∧
      writeAtomicDocument parse world (Calls.succeed six qsort) base toml dir =
        (.ok (newBackup world base dir), pruneBackups (Calls.succeed six qsort) base after) := by
  have hcalls := smooth_succeed six qsort
  obtain ⟨mid, hmid, hrun⟩ := writeAtomicDocument_of_smooth hcalls haccepted
  have hcreate : createTemporary (Calls.succeed six qsort) toml mid = _ :=
    createTemporary_of_smooth hcalls rfl (hmid.notMem hfree hbackup)
  obtain ⟨after, hafter⟩ : ∃ after,
      replace world (Calls.succeed six qsort) base toml mid = (.ok (), after) := by
    rw [replace, hcreate]
    exact ⟨_, rfl⟩
  exact ⟨mid, after, hmid, (replace_ok hafter).2, by rw [hrun, hafter]; rfl⟩

theorem readable_of_keeps (htemporary : HasTemporary world base dir)
    (hold : (dir.lookup base).any (· ≠ []) = true) : needsBackup world base dir = true := by
  obtain ⟨six, hsix, hfree, hbackup⟩ := htemporary
  by_contra hneeds
  obtain ⟨mid, after, -, -, hrun⟩ :=
    writeAtomicDocument_succeed haccepted ⟨six, hsix⟩ (sortBefore backupKey ([], 0)) hfree hbackup
  obtain ⟨old, hold, hne⟩ := (any_eq_true _ _).1 hold
  have hkeeps := h (.succeed ⟨six, hsix⟩ (sortBefore backupKey ([], 0)))
  rw [hrun] at hkeeps
  obtain ⟨name, hname, -⟩ := hkeeps.2.2 old hold (of_decide_eq_true hne)
  rw [newBackup, if_neg hneeds] at hname
  cases hname

theorem newest_of_keeps (htemporary : HasTemporary world base dir) (name : Bytes) (timestamp : Int)
    (hname : newBackup world base dir = some name)
    (htimestamp : backupTimestamp base name = some timestamp) :
    (dir.keys.filter (isNewer base timestamp)).length < 5 := by
  obtain ⟨six, hsix, hfree, hbackup⟩ := htemporary
  by_contra hnewer
  -- the sort that has the new backup in front of the others of its time
  obtain ⟨mid, after, hmid, hafter, hrun⟩ :=
    writeAtomicDocument_succeed haccepted ⟨six, hsix⟩ (sortBefore backupKey (name, timestamp)) hfree
      hbackup
  obtain ⟨hneeds, hnew, hbase⟩ := newBackup_eq_some hname
  have hlookup : after.lookup name = dir.lookup base := by
    rw [hafter, if_neg hbase, hmid.copied name hname]
  obtain ⟨old, hold, hne⟩ := exists_old_of_needsBackup hneeds
  have hpruned : name ∈ prunedNames (.succeed ⟨six, hsix⟩ (sortBefore backupKey (name, timestamp)))
      base after := by
    refine mem_prunedNames ?_ htimestamp ?_ (fun _ ↦ rfl) rfl rfl
    · exact lookup_isSome.1 (by rw [hlookup, hold]; rfl)
    refine (not_lt.1 hnewer).trans ?_
    refine ((dir.keys_nodup.filter _).subperm fun other hother ↦ ?_).length_le
    obtain ⟨hother, hnewer⟩ := mem_filter.1 hother
    have hmem := mem_keys.2 hother
    refine mem_filter.2 ⟨mem_keys.1 (lookup_isSome.1 ?_), decide_eq_true
      ⟨fun heq ↦ hnew (heq ▸ hmem), hnewer⟩⟩
    rw [hafter]
    split
    · rfl
    · exact lookup_isSome.2 (hmid.grown.mem hmem)
  have hkeeps := h (.succeed ⟨six, hsix⟩ (sortBefore backupKey (name, timestamp)))
  rw [hrun] at hkeeps
  obtain ⟨name', hname', hkept⟩ := hkeeps.2.2 old hold hne
  cases hname.symm.trans hname'
  rw [lookup_pruneBackups, if_pos hpruned] at hkept
  cases hkept

end

/-- **A configuration write keeps its promise**, whatever the other calls do, exactly if the state
of the world is safe. -/
theorem keeps_iff :
    (∀ calls, Keeps world base toml dir (writeAtomicDocument parse world calls base toml dir)) ↔
      Safe parse world base toml dir := by
  constructor
  · intro h
    exact ⟨distinct_of_keeps h, removable_of_keeps h, readable_of_keeps h, newest_of_keeps h⟩
  · exact keeps_of_safe

end

/-! ## A clock that was set back -/

/-- A parser that takes every document. -/
def acceptAll : Bytes → Except Error Unit :=
  fun _ ↦ .ok ()

/-- A configuration file and five backups, with short timestamps. -/
def fiveBackups : Directory :=
  List.toAList [⟨bytes "c", bytes "old"⟩, ⟨bytes "c.21.bak", []⟩, ⟨bytes "c.22.bak", []⟩,
    ⟨bytes "c.23.bak", []⟩, ⟨bytes "c.24.bak", []⟩, ⟨bytes "c.25.bak", []⟩]

/-- A clock, and a file system that works. -/
def workingAt (timestamp : Int) : World := ⟨timestamp, true, true, true⟩

theorem length_letters : (bytes "a1b2c3").length = 6 := by
  decide

/-- A write in which no call fails. -/
def writeAt (timestamp : Int) : Except Error (Option Bytes) × Directory :=
  writeAtomicDocument acceptAll (workingAt timestamp)
    (.succeed ⟨bytes "a1b2c3", length_letters⟩ (sortBefore backupKey ([], 0))) (bytes "c")
    (bytes "new") fiveBackups

/-- At the time 20 the write succeeds, and the backup that it returns is gone. -/
theorem new_backup_removed :
    (writeAt 20).1 = .ok (some (bytes "c.20.bak")) ∧
      (writeAt 20).2.lookup (bytes "c.20.bak") = none ∧
      ¬ Keeps (workingAt 20) (bytes "c") (bytes "new") fiveBackups (writeAt 20) := by
  have hpath : (writeAt 20).1 = .ok (some (bytes "c.20.bak")) := by decide
  have hgone : (writeAt 20).2.lookup (bytes "c.20.bak") = none := by decide
  have hrun : writeAt 20 = (.ok (some (bytes "c.20.bak")), (writeAt 20).2) := Prod.ext hpath rfl
  refine ⟨hpath, hgone, fun hkeeps ↦ ?_⟩
  rw [hrun] at hkeeps
  obtain ⟨name, hname, hlookup⟩ := hkeeps.2.2 (bytes "old") (by decide) (by decide)
  cases hname
  rw [hgone] at hlookup
  cases hlookup

end ClambHook.ConfigFile
