import Mathlib.Data.List.AList
import ClambHook.Basic
import ClambHook.Lib.Retention

/-!
# Writing the configuration file

`ch_config_write_atomic_document` and the functions it is made of.  A document is checked, the file
that is there is copied to a backup with the time in its name, the document is written to a
temporary file, and that file is renamed.  At the end old backups are removed.

All files are in one directory, so a path is a name in it, and `base` is the name of the
configuration file.  Every system call may fail: `World` holds the outcomes of the calls on which
the promises of the function turn out to depend, and `Calls` those of the others.  A call that fails
has the text of `strerror`.  Memory is never exhausted here.
-/

namespace ClambHook.ConfigFile

open CString

/-- The files of a directory, with their contents. -/
abbrev Directory := AList fun _ : Bytes ↦ Bytes

/-- What `write` returns: it was interrupted (`EINTR`), it failed, or it wrote some bytes. -/
inductive Written where
  | interrupted
  | failed (strerror : Bytes)
  | wrote (count : Nat)
deriving DecidableEq, Repr

/-- The order of `config_backup_compare`: the name and the timestamp of a backup, by the latter. -/
abbrev backupKey (entry : Bytes × Int) : Int := entry.2

/-- The state of the clock, and the outcomes of the calls whose failure the function does not
report. -/
structure World where
  timestamp : Int
  /-- `stat` and `fopen` of the configuration file succeed if it exists. -/
  stat : Bool
  fopen : Bool
  /-- `unlink` of the temporary file succeeds. -/
  unlinkTemporary : Bool

/-- The outcomes of the other calls. -/
structure Calls where
  mkdir : Option Bytes
  clockGettime : Option Bytes
  /-- A failure of `lstat` at an attempt, other than that there is no such file. -/
  lstat : Nat → Option Bytes
  openBackup : Option Bytes
  /-- The reads of the old file: one that fails has delivered some bytes before. -/
  reads : List (Option (Nat × Bytes))
  backupWrites : List Written
  closeBackup : Option Bytes
  mkstemp : Option Bytes
  /-- The characters that `mkstemp` puts in the place of `XXXXXX`, also when it fails. -/
  temporary : { six : Bytes // six.length = 6 }
  fchmod : Option Bytes
  writes : List Written
  fsync : Option Bytes
  closeTemporary : Option Bytes
  rename : Option Bytes
  /-- Does `readdir` come to an entry before it fails? -/
  readdir : Bytes → Bool
  qsort : Retention.KeySort backupKey
  unlinkBackup : Bytes → Bool

/-- `config_write_all`: what was written, the outcomes that are left, and the status.  Behind the
given outcomes every write is complete. -/
def writeAll (operation : String) :
    List Written → Bytes → Bytes × List Written × Except Error Unit
  | writes, [] => ([], writes, .ok ())
  | [], data => (data, [], .ok ())
  | .interrupted :: writes, data => writeAll operation writes data
  | .failed strerror :: writes, _ => ([], writes, .error (callError operation strerror))
  | .wrote count :: writes, data =>
    if count = 0 then ([], writes, .error (callError operation (bytes "short write")))
    else
      let rest := writeAll operation writes (data.drop count)
      (data.take count ++ rest.1, rest.2)

/-! ## The backup -/

/-- The name of a backup for a timestamp. -/
def backupName (base : Bytes) (timestamp : Int) : Bytes :=
  base ++ bytes "." ++ decimalInt timestamp ++ bytes ".bak"

/-- The candidate of an attempt, in a buffer for the length of the first one. -/
def candidate (base : Bytes) (timestamp : Int) (attempt : Nat) : Bytes :=
  (backupName base (timestamp + attempt)).take (backupName base timestamp).length

/-- The loop of `config_unique_backup_path`, with the attempts that are left. -/
def uniqueBackupFrom (lstat : Nat → Option Bytes) (base : Bytes) (timestamp : Int)
    (dir : Directory) : Nat → Nat → Except Error Bytes
  | 0, _ => .error <| .set .io (bytes "unable to allocate config backup path")
  | left + 1, attempt =>
    match lstat attempt with
    | some strerror => .error (callError "stat config backup" strerror)
    | none =>
      if candidate base timestamp attempt ∈ dir then
        uniqueBackupFrom lstat base timestamp dir left (attempt + 1)
      else .ok (candidate base timestamp attempt)

/-- `config_unique_backup_path`. -/
def uniqueBackupPath (world : World) (calls : Calls) (base : Bytes) (dir : Directory) :
    Except Error Bytes :=
  match calls.clockGettime with
  | some strerror => .error (callError "read backup timestamp" strerror)
  | none => uniqueBackupFrom calls.lstat base world.timestamp dir 1024 0

/-- The loop that copies the old file in chunks of 16384 bytes: what was copied, and the status.  A
read that fails delivers less than a chunk. -/
def copyChunks : Nat → List (Option (Nat × Bytes)) → List Written → Bytes →
    Bytes × Except Error Unit
  | 0, _, _, _ => ([], .ok ())
  | fuel + 1, reads, writes, source =>
    let failed := reads.head?.join
    let chunk := source.take (match failed with
      | some (count, _) => min count 16383
      | none => 16384)
    let (copied, writes, status) := writeAll "write config backup" writes chunk
    match status with
    | .error e => (copied, .error e)
    | .ok () =>
      if chunk.length < 16384 then
        match failed with
        | some (_, strerror) => (copied, .error (callError "read existing config" strerror))
        | none => (copied, .ok ())
      else
        let rest := copyChunks fuel reads.tail writes (source.drop 16384)
        (copied ++ rest.1, rest.2)

/-- Is there an old file to be saved, and can it be opened? -/
def needsBackup (world : World) (base : Bytes) (dir : Directory) : Bool :=
  world.stat && (dir.lookup base).any (· ≠ []) && world.fopen

/-- The backup of the old file: the name of the backup if one was made. -/
def backup (world : World) (calls : Calls) (base : Bytes) (dir : Directory) :
    Except Error (Option Bytes) × Directory :=
  if needsBackup world base dir then
    match uniqueBackupPath world calls base dir with
    | .error e => (.error e, dir)
    | .ok name =>
      match calls.openBackup with
      | some strerror => (.error (callError "write config backup" strerror), dir)
      | none =>
        let source := (dir.lookup base).getD []
        let (copied, status) :=
          copyChunks (source.length / 16384 + 1) calls.reads calls.backupWrites source
        let dir := dir.insert name copied
        match status, calls.closeBackup with
        | .error e, _ => (.error e, dir)
        | .ok (), some strerror => (.error (callError "close config backup" strerror), dir)
        | .ok (), none => (.ok (some name), dir)
  else (.ok none, dir)

/-! ## The new file -/

def temporaryName (six : Bytes) : Bytes :=
  bytes ".clambhook-" ++ six

/-- The temporary file with the document in it. -/
def createTemporary (calls : Calls) (toml : Bytes) (dir : Directory) :
    Except Error Unit × Directory :=
  let name := temporaryName calls.temporary.1
  match calls.mkstemp with
  | some strerror => (.error (callError "create temporary config" strerror), dir)
  | none =>
    -- `mkstemp` does not open a file that is there
    if name ∈ dir then (.error (callError "create temporary config" (bytes "File exists")), dir)
    else
      match calls.fchmod with
      | some strerror =>
        (.error (callError "create temporary config" strerror), dir.insert name [])
      | none =>
        let (content, _, status) := writeAll "write temporary config" calls.writes toml
        let dir := dir.insert name content
        match status, calls.fsync, calls.closeTemporary with
        | .error e, _, _ => (.error e, dir)
        | .ok (), some strerror, _ => (.error (callError "sync temporary config" strerror), dir)
        | .ok (), none, some strerror =>
          (.error (callError "close temporary config" strerror), dir)
        | .ok (), none, none => (.ok (), dir)

/-- The end of the function for a temporary file that was not renamed. -/
def cleanup (world : World) (calls : Calls) (dir : Directory) : Directory :=
  if world.unlinkTemporary then dir.erase (temporaryName calls.temporary.1) else dir

/-- The temporary file in the place of the old one. -/
def replace (world : World) (calls : Calls) (base toml : Bytes) (dir : Directory) :
    Except Error Unit × Directory :=
  match createTemporary calls toml dir with
  | (.error e, dir) => (.error e, cleanup world calls dir)
  | (.ok (), dir) =>
    match calls.rename with
    | some strerror => (.error (callError "replace config" strerror), cleanup world calls dir)
    | none =>
      let name := temporaryName calls.temporary.1
      (.ok (), (dir.erase name).insert base ((dir.lookup name).getD []))

/-! ## Old backups -/

/-- The timestamp in the name of a backup of `base`. -/
def backupTimestamp (base name : Bytes) : Option Int :=
  if name.length ≤ base.length + 5 ∨ name.take base.length ≠ base ∨
      name[base.length]? ≠ some 46 ∨ name.drop (name.length - 4) ≠ bytes ".bak" then none
  else
    let number := strtol (name.drop (base.length + 1))
    if number.erange ∨ number.rest.length ≠ 4 then none else some number.value

/-- The backups that `config_prune_backups` finds. -/
def findBackups (calls : Calls) (base : Bytes) (dir : Directory) : List (Bytes × Int) :=
  (dir.keys.filter calls.readdir).filterMap fun name ↦
    (backupTimestamp base name).map fun timestamp ↦ (name, timestamp)

/-- The names that `config_prune_backups` removes: all but the last five, as far as `unlink` does
not fail. -/
def prunedNames (calls : Calls) (base : Bytes) (dir : Directory) : List Bytes :=
  let backups := findBackups calls base dir
  let sorted := if backups.length > 1 then calls.qsort.sort backups else backups
  ((sorted.take (backups.length - 5)).map Prod.fst).filter calls.unlinkBackup

/-- `config_prune_backups`. -/
def pruneBackups (calls : Calls) (base : Bytes) (dir : Directory) : Directory :=
  (prunedNames calls base dir).foldl (fun dir name ↦ dir.erase name) dir

/-! ## The whole function -/

/-- The end of a write: old backups are removed after a replacement. -/
def finish (calls : Calls) (base : Bytes) (backupPath : Option Bytes) :
    Except Error Unit × Directory → Except Error (Option Bytes) × Directory
  | (.error e, dir) => (.error e, dir)
  | (.ok (), dir) => (.ok backupPath, pruneBackups calls base dir)

/-- `ch_config_write_atomic_document`: the path of the backup or the error, and the directory
afterwards. -/
def writeAtomicDocument (parse : Bytes → Except Error Unit) (world : World) (calls : Calls)
    (base toml : Bytes) (dir : Directory) : Except Error (Option Bytes) × Directory :=
  match parse toml, calls.mkdir with
  | .error e, _ => (.error e, dir)
  | .ok (), some strerror => (.error (callError "create config directory" strerror), dir)
  | .ok (), none =>
    match backup world calls base dir with
    | (.error e, dir) => (.error e, dir)
    | (.ok backupPath, dir) => finish calls base backupPath (replace world calls base toml dir)

end ClambHook.ConfigFile
