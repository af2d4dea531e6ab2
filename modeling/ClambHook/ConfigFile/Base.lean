import ClambHook.ConfigFile.Atomic

/-!
# The configuration file under a write

`ClambHook.ConfigFile.Atomic` is about the whole directory.  Those who only want to know what is in
the configuration file after a write find it here: the document if the write succeeds, and what was
there before if it fails.  The one exception is a configuration file with the name that the
temporary file was going to have.  The write cannot create that file, and removes it all the same.
-/

namespace ClambHook.ConfigFile

open CString

variable {parse : Bytes → Except Error Unit} {world : World} {calls : Calls} {base toml : Bytes}
  {dir after : Directory}

/-- A write that comes to the temporary file, which has the name of the configuration file. -/
structure Clobbers (parse : Bytes → Except Error Unit) (world : World) (calls : Calls)
    (base toml : Bytes) (dir : Directory) : Prop where
  accepted : parse toml = .ok ()
  mkdir : calls.mkdir = none
  backup : ∃ backupPath, (backup world calls base dir).1 = .ok backupPath
  unlink : world.unlinkTemporary = true
  name : base = temporaryName calls.temporary.1

variable {backupPath : Option Bytes}

variable (h : writeAtomicDocument parse world calls base toml dir = (.ok backupPath, after))

include h

/-- What a write that succeeds has done: the old file was saved, and then replaced. -/
theorem exists_replace_of_ok :
    ∃ mid replaced, backup world calls base dir = (.ok backupPath, mid) ∧
      replace world calls base toml mid = (.ok (), replaced) ∧
      after = pruneBackups calls base replaced := by
  rw [writeAtomicDocument] at h
  split at h
  · cases h
  · cases h
  split at h
  · cases h
  next mid hbackup =>
  rcases hreplace : replace world calls base toml mid with ⟨e | _, replaced⟩
  · rw [hreplace] at h
    cases h
  · rw [hreplace] at h
    cases h
    exact ⟨mid, replaced, hbackup, hreplace, rfl⟩

/-- A write that succeeds leaves the document in the file. -/
theorem lookup_base_of_ok :
    after.lookup base = some toml := by
  obtain ⟨mid, replaced, -, hreplace, rfl⟩ := exists_replace_of_ok h
  rw [lookup_base_pruneBackups, (replace_ok hreplace).2, if_pos rfl]

omit h

/-- A write of a file that is there cannot succeed if it is taken for the temporary file. -/
theorem not_clobbers_of_ok (hmem : base ∈ dir)
    (h : writeAtomicDocument parse world calls base toml dir = (.ok backupPath, after)) :
    ¬Clobbers parse world calls base toml dir := by
  obtain ⟨mid, replaced, hbackup, hreplace, -⟩ := exists_replace_of_ok h
  have hfree := (replace_ok hreplace).1
  intro hclobbers
  rw [← hclobbers.name, ← AList.lookup_eq_none, (backup_spec hbackup).1.lookup_base] at hfree
  exact AList.lookup_eq_none.1 hfree hmem

/-- A failed replacement of a file that is there removes it exactly if it is taken for the temporary
file. -/
theorem lookup_base_of_replace_error {e : Error} (hmem : base ∈ dir)
    (h : replace world calls base toml dir = (.error e, after)) :
    after.lookup base = dir.lookup base ↔
      ¬(world.unlinkTemporary = true ∧ base = temporaryName calls.temporary.1) := by
  have hsome : dir.lookup base ≠ none := fun hnone ↦ AList.lookup_eq_none.1 hnone hmem
  obtain ⟨mid, rfl, hcases⟩ := replace_error h
  have hmid : mid.lookup base = dir.lookup base := by
    rcases hcases with rfl | ⟨hfree, content, rfl⟩
    · rfl
    · refine AList.lookup_insert_ne ?_
      rintro rfl
      exact hfree hmem
  rw [cleanup]
  cases hunlink : world.unlinkTemporary with
  | false => simp [hmid]
  | true =>
    by_cases hname : base = temporaryName calls.temporary.1
    · refine iff_of_false ?_ fun hnot ↦ hnot ⟨rfl, hname⟩
      rw [if_pos rfl, ← hname, AList.lookup_erase]
      exact fun hnone ↦ hsome hnone.symm
    · refine iff_of_true ?_ fun hboth ↦ hname hboth.2
      rw [if_pos rfl, AList.lookup_erase_ne hname, hmid]

/-- **A write that fails** leaves the file as it was, unless it has the name of the temporary
file. -/
theorem lookup_base_of_error_iff {e : Error} (hmem : base ∈ dir)
    (h : writeAtomicDocument parse world calls base toml dir = (.error e, after)) :
    after.lookup base = dir.lookup base ↔ ¬Clobbers parse world calls base toml dir := by
  rw [writeAtomicDocument] at h
  split at h
  · next e' hparse =>
    cases h
    refine iff_of_true rfl fun hclobbers ↦ ?_
    cases hparse.symm.trans hclobbers.accepted
  · next strerror hparse hmkdir =>
    cases h
    refine iff_of_true rfl fun hclobbers ↦ ?_
    cases hmkdir.symm.trans hclobbers.mkdir
  next hparse hmkdir =>
  split at h
  · next e' mid hbackup =>
    cases h
    refine iff_of_true (backup_spec hbackup).1.lookup_base fun hclobbers ↦ ?_
    obtain ⟨path, hpath⟩ := hclobbers.backup
    simp [hbackup] at hpath
  next backupPath mid hbackup =>
  have hbase := (backup_spec hbackup).1.lookup_base
  have hmid : base ∈ mid := by
    rw [← AList.lookup_isSome, hbase]
    exact AList.lookup_isSome.2 hmem
  rcases hreplace : replace world calls base toml mid with ⟨e' | _, replaced⟩
  · rw [hreplace] at h
    cases h
    rw [← hbase, lookup_base_of_replace_error hmid hreplace]
    refine not_congr ⟨fun hboth ↦ ?_, fun hclobbers ↦ ⟨hclobbers.unlink, hclobbers.name⟩⟩
    exact ⟨hparse, hmkdir, ⟨backupPath, by rw [hbackup]⟩, hboth.1, hboth.2⟩
  · rw [hreplace] at h
    cases h

end ClambHook.ConfigFile
