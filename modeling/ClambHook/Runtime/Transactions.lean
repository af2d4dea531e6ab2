import ClambHook.ConfigFile.Base
import ClambHook.Runtime.Services

/-!
# Edits of the file as transactions

Four commands write the configuration file: one makes a profile the active one, one imports reviewed
profiles, one carries out a mutation, and one refreshes rule feeds.  A command of this kind is a
transaction if, when it succeeds, the file has the requested edit of the document that was in it,
and if, when it fails, the file, the configuration and the active profile are as before.

The commands differ in where the edited document comes from and in what they do when the new
document cannot be applied, and `Sound` lists what has to be the case for a command to be a
transaction:

* the import and the refresh edit the configuration that is loaded, not the document in the file;
* the refresh does not write the old document back;
* a document that is written back has lost what was behind a NUL;
* a mutation reports an error if its result cannot be described, and stays;
* a file with the name of a temporary file is lost when the write fails.
-/

namespace ClambHook.Runtime

open CString Config ConfigFile

/-! ## The commands -/

/-- The commands that write the file. -/
inductive Persist where
  | activeProfile (name : Bytes)
  | reviewedImport (payload : Bytes)
  | mutation (mutation : Mutation) (query : Query) (request : Bytes) (includeBackup : Bool)
  | ruleFeeds

namespace Persist

variable (lib : Library) (env : Environment) (s : State)

/-- The command, as `ch_command_process` carries it out. -/
def run : Persist → Outcome
  | activeProfile name => persistActiveProfile lib env s name
  | reviewedImport payload => (process lib env s (.configImportReviewed payload))
  | mutation m query request includeBackup =>
    persistConfigMutation lib env s m query request includeBackup
  | ruleFeeds => refreshRuleFeeds lib env s

/-- The edit that the command is asked for. -/
def edit : Persist → Parsed → Except Error Bytes
  | activeProfile name, old => lib.setActive old name
  | reviewedImport payload, old => lib.mergeReviewedImport (some old) payload
  | mutation m _ request _, old => lib.mutate old s.activeProfile m request
  | ruleFeeds, old => lib.setActive old s.activeProfile

end Persist

/-- The document that is in the file, whether or not the command gets to read it. -/
def onDisk (lib : Library) (s : State) : Except Error Parsed :=
  loadConfig lib none s.configPath s.disk

/-- A transaction on the file. -/
def Transacts (lib : Library) (s : State) (edit : Parsed → Except Error Bytes) : Outcome → Prop
  | (.ok _, after) => ∃ old document, onDisk lib s = .ok old ∧ edit old = .ok document ∧
      after.disk.lookup s.configPath = some document
  | (.error _, after) => after.disk.lookup s.configPath = s.disk.lookup s.configPath ∧
      after.config = s.config ∧ after.activeProfile = s.activeProfile

/-! ## When it is one -/

/-- The document that the command is going to write, if it comes to that. -/
def Persist.proposal (lib : Library) (env : Environment) (s : State) : Persist → Except Error Bytes
  | activeProfile name => do
    let old ← loadConfig lib env.read s.configPath s.disk
    lib.setActive old name
  | reviewedImport payload => do
    let document ← lib.mergeReviewedImport s.config payload
    checkImport s document
    let _ ← loadConfig lib env.read s.configPath s.disk
    let _ ← lib.parse document
    return document
  | mutation m _ request _ => do
    let old ← loadConfig lib env.read s.configPath s.disk
    lib.mutate old s.activeProfile m request
  | ruleFeeds => do
    let config ← feedConfig s
    let _ ← env.prepared
    lib.setActive config s.activeProfile

/-- `ch_config_parse` as the check in front of a write. -/
def accepts (lib : Library) (text : Bytes) : Except Error Unit :=
  (lib.parse text).map fun _ ↦ ()

/-- The write of a document succeeds, and leaves the directory. -/
def Written (lib : Library) (env : Environment) (s : State) (document : Bytes) (disk : Directory) :
    Prop :=
  ∃ backup, writeAtomicDocument (accepts lib) env.world env.calls s.configPath document s.disk =
    (.ok backup, disk)

/-- The document in the directory can be applied, as a configuration with a profile. -/
def Applies (lib : Library) (env : Environment) (s : State) (disk : Directory)
    (config : Option Parsed) (profile : Bytes) : Prop :=
  nextConfig lib env s.configPath disk = .ok (config, profile) ∧
    ¬Refused env s.running config profile

/-- The document that the command writes is that of the file with the edit.  The import and the
refresh edit the loaded configuration instead. -/
def Persist.UpToDate (lib : Library) (s : State) (document : Bytes) : Persist → Prop
  | .reviewedImport payload =>
    ∃ old, onDisk lib s = .ok old ∧ lib.mergeReviewedImport (some old) payload = .ok document
  | .ruleFeeds => ∃ old, onDisk lib s = .ok old ∧ lib.setActive old s.activeProfile = .ok document
  | _ => True

/-- A command comes back to a file with some content if its document cannot be applied. -/
def Persist.Undone (document content : Bytes) : Persist → Prop
  | .ruleFeeds => content = document
  | _ => 0 ∉ content

/-- The response to a command can be made. -/
def Persist.Described (lib : Library) (config : Option Parsed) (profile : Bytes) : Persist → Prop
  | .mutation _ query request _ => ∃ text, queryPayload lib config profile query request = .ok text
  | _ => True

/-- What makes a command a transaction that proposes a document, for a file with some content. -/
structure SoundFor (lib : Library) (env : Environment) (s : State) (content : Bytes) (p : Persist)
    (document : Bytes) : Prop where
  /-- The file does not have the name of a temporary file. -/
  kept : ¬Clobbers (accepts lib) env.world env.calls s.configPath document s.disk
  /-- A document that is written and cannot be applied is taken back. -/
  undone : ∀ disk, Written lib env s document disk →
    (∀ config profile, ¬Applies lib env s disk config profile) → p.Undone document content
  /-- A document that is written and applied comes from what was in the file. -/
  upToDate : ∀ disk config profile, Written lib env s document disk →
    Applies lib env s disk config profile → p.Described lib config profile →
    p.UpToDate lib s document
  /-- The response can be made, unless nothing has changed. -/
  described : ∀ disk config profile, Written lib env s document disk →
    Applies lib env s disk config profile → ¬p.Described lib config profile →
    content = document ∧ config = s.config ∧ profile = s.activeProfile

/-- What makes a command a transaction. -/
def Sound (lib : Library) (env : Environment) (s : State) (content : Bytes) (p : Persist) : Prop :=
  ∀ document, p.proposal lib env s = .ok document → SoundFor lib env s content p document

/-- Writing the old document back succeeds. -/
def Restores (lib : Library) (env : Environment) (s : State) (p : Persist) : Prop :=
  ∀ document disk old, p.proposal lib env s = .ok document → Written lib env s document disk →
    onDisk lib s = .ok old → ∃ backup after,
      writeAtomicDocument (accepts lib) env.restoreWorld env.restoreCalls s.configPath old.document
        disk = (.ok backup, after)

/-! ## What the commands do -/

section

variable {lib : Library} {env : Environment} {s : State}

/-- What `replaceDocument` can do. -/
inductive Replaced (lib : Library) (env : Environment) (s : State) (old : Parsed)
    (document : Bytes) : Except Error (Option Bytes) × State → Prop where
  | unwritten (e : Error) (disk : Directory)
      (h : writeAtomicDocument (accepts lib) env.world env.calls s.configPath document s.disk =
        (.error e, disk)) : Replaced lib env s old document (.error e, { s with disk := disk })
  | refused (e : Error) (disk : Directory) (after : State)
      (hwritten : Written lib env s document disk)
      (hrefused : ∀ config profile, ¬Applies lib env s disk config profile)
      (hdisk : after.disk = (writeAtomicDocument (accepts lib) env.restoreWorld env.restoreCalls
        s.configPath old.document disk).2)
      (hconfig : after.config = s.config) (hprofile : after.activeProfile = s.activeProfile) :
      Replaced lib env s old document (.error e, after)
  | applied (backup : Option Bytes) (disk : Directory) (config : Option Parsed) (profile : Bytes)
      (after : State) (hwritten : Written lib env s document disk)
      (happlies : Applies lib env s disk config profile) (hdisk : after.disk = disk)
      (hconfig : after.config = config) (hprofile : after.activeProfile = profile) :
      Replaced lib env s old document (.ok backup, after)

variable {disk : Directory}

/-- Applying what was written to a directory: the state afterwards as far as transactions see it. -/
theorem applyWritten_cases (lib : Library) (env : Environment) (s : State) (disk : Directory) :
    (∃ e after, applyConfig lib env { s with disk := disk } s.configPath s.running =
          (.error e, after) ∧ (∀ config profile, ¬Applies lib env s disk config profile) ∧
        after.disk = disk ∧ after.config = s.config ∧ after.activeProfile = s.activeProfile ∧
        after.configPath = s.configPath) ∨
      ∃ config profile after, applyConfig lib env { s with disk := disk } s.configPath s.running =
          (.ok (), after) ∧ Applies lib env s disk config profile ∧
        after.disk = disk ∧ after.config = config ∧ after.activeProfile = profile := by
  have hcases := applyConfig_cases lib env { s with disk := disk } s.configPath s.running
  generalize applyConfig lib env { s with disk := disk } s.configPath s.running = r at hcases
  cases hcases with
  | unloaded e hnext =>
    refine .inl ⟨e, _, rfl, fun config profile happlies ↦ ?_, rfl, rfl, rfl, rfl⟩
    cases hnext.symm.trans happlies.1
  | refused e config profile prompts hnext hrefused =>
    obtain ⟨services, leaked, heq⟩ :=
      rollBack_withdrawn env { s with disk := disk } s.running prompts
    rw [heq]
    refine .inl ⟨e, _, rfl, fun config' profile' happlies ↦ ?_, rfl, rfl, rfl, rfl⟩
    cases hnext.symm.trans happlies.1
    exact happlies.2 hrefused
  | adopted config profile prompts services hnext haccepted =>
    refine .inr ⟨config, profile, _, rfl, ⟨hnext, haccepted⟩, ?_, rfl, rfl⟩
    cases s.running <;> rfl

theorem writeDocument_eq (lib : Library) (world : World) (calls : Calls) (s : State)
    (document : Bytes) : writeDocument lib world calls s document =
      ((writeAtomicDocument (accepts lib) world calls s.configPath document s.disk).1,
        { s with disk := (writeAtomicDocument (accepts lib) world calls s.configPath document
            s.disk).2 }) :=
  rfl

theorem replaceDocument_cases (lib : Library) (env : Environment) (s : State) (old : Parsed)
    (document : Bytes) :
    Replaced lib env s old document (replaceDocument lib env s old document) := by
  rw [replaceDocument, writeDocument_eq]
  rcases hresult : writeAtomicDocument (accepts lib) env.world env.calls s.configPath document
    s.disk with ⟨e | backup, disk⟩
  · exact .unwritten e disk hresult
  have hwritten : Written lib env s document disk := ⟨backup, hresult⟩
  dsimp only [andThen]
  obtain ⟨e, after, happly, hrefused, hdisk, hconfig, hprofile, hpath⟩ |
    ⟨config, profile, after, happly, happlies, hdisk, hconfig, hprofile⟩ :=
    applyWritten_cases lib env s disk
  · rw [happly]
    refine .refused _ disk _ hwritten hrefused ?_ hconfig hprofile
    rw [← hdisk, ← hpath]
    rfl
  · rw [happly]
    exact .applied backup disk config profile after hwritten happlies hdisk hconfig hprofile

/-- What a command does with the document that it proposes, for a file with some content. -/
inductive Committed (lib : Library) (env : Environment) (s : State) (content : Bytes) (p : Persist)
    (document : Bytes) : Outcome → Prop where
  | unwritten (e : Error) (disk : Directory)
      (h : writeAtomicDocument (accepts lib) env.world env.calls s.configPath document s.disk =
        (.error e, disk)) :
      Committed lib env s content p document (.error e, { s with disk := disk })
  | refused (e : Error) (disk : Directory) (after : State)
      (hwritten : Written lib env s document disk)
      (hrefused : ∀ config profile, ¬Applies lib env s disk config profile)
      (hdisk : after.disk.lookup s.configPath = some content ↔ p.Undone document content)
      (hconfig : after.config = s.config) (hprofile : after.activeProfile = s.activeProfile) :
      Committed lib env s content p document (.error e, after)
  | undescribed (e : Error) (disk : Directory) (config : Option Parsed) (profile : Bytes)
      (after : State) (hwritten : Written lib env s document disk)
      (happlies : Applies lib env s disk config profile)
      (hdescribed : ¬p.Described lib config profile) (hdisk : after.disk = disk)
      (hconfig : after.config = config) (hprofile : after.activeProfile = profile) :
      Committed lib env s content p document (.error e, after)
  | done (response : Response) (disk : Directory) (config : Option Parsed) (profile : Bytes)
      (after : State) (hwritten : Written lib env s document disk)
      (happlies : Applies lib env s disk config profile)
      (hdescribed : p.Described lib config profile) (hdisk : after.disk = disk) :
      Committed lib env s content p document (.ok response, after)

variable {document : Bytes}

theorem Written.lookup (h : Written lib env s document disk) :
    disk.lookup s.configPath = some document := by
  obtain ⟨backup, h⟩ := h
  exact lookup_base_of_ok h

theorem Written.eq {disk' : Directory}
    (h : Written lib env s document disk) (h' : Written lib env s document disk') :
    disk' = disk := by
  obtain ⟨backup, h⟩ := h
  obtain ⟨backup', h'⟩ := h'
  exact congrArg Prod.snd (h'.symm.trans h)

theorem Applies.eq {config config' : Option Parsed} {profile profile' : Bytes}
    (h : Applies lib env s disk config profile) (h' : Applies lib env s disk config' profile') :
    config' = config ∧ profile' = profile := by
  cases h'.1.symm.trans h.1
  exact ⟨rfl, rfl⟩

variable {content : Bytes} {p : Persist} {old : Parsed} {r : Outcome}

theorem onDisk_of_loadConfig {read : Option Error}
    (h : loadConfig lib read s.configPath s.disk = .ok old) : onDisk lib s = .ok old := by
  cases read with
  | none => exact h
  | some e => cases h

/-- A step in front of the write may fail, and else the rest decides. -/
theorem transacts_andThen_iff {α : Type} {x : Except Error α} {f : α → State → Outcome}
    {g : α → Except Error Bytes} (hproposal : p.proposal lib env s = x >>= g)
    (h : ∀ a, x = .ok a → p.proposal lib env s = g a →
      (Transacts lib s (p.edit lib s) (f a s) ↔ Sound lib env s content p)) :
    Transacts lib s (p.edit lib s) (andThen (x, s) f) ↔ Sound lib env s content p := by
  cases x with
  -- a command that stops in front of the write has done nothing
  | error e => exact iff_of_true ⟨rfl, rfl, rfl⟩ fun _ h ↦ by cases hproposal.symm.trans h
  | ok a => exact h a rfl hproposal

variable (hcontent : s.disk.lookup s.configPath = some content)

include hcontent

/-- **Exactness**: a command whose document is committed is a transaction exactly if it is sound. -/
theorem Committed.transacts_iff (hproposal : p.proposal lib env s = .ok document)
    (hedit : p.UpToDate lib s document ↔
      ∃ old, onDisk lib s = .ok old ∧ p.edit lib s old = .ok document)
    (h : Committed lib env s content p document r) :
    Transacts lib s (p.edit lib s) r ↔ Sound lib env s content p := by
  have hone : Sound lib env s content p ↔ SoundFor lib env s content p document := by
    refine ⟨fun hsound ↦ hsound document hproposal, fun hsound document' hproposal' ↦ ?_⟩
    cases hproposal.symm.trans hproposal'
    exact hsound
  rw [hone]
  have hmem : s.configPath ∈ s.disk := by
    rw [← AList.lookup_isSome, hcontent]
    rfl
  have hkept : ∀ {disk}, Written lib env s document disk →
      ¬Clobbers (accepts lib) env.world env.calls s.configPath document s.disk := by
    rintro disk ⟨backup, hwrite⟩
    exact not_clobbers_of_ok hmem hwrite
  cases h with
  | unwritten e disk hwrite =>
    have hnever : ∀ disk', ¬Written lib env s document disk' := by
      rintro disk' ⟨backup, hwrite'⟩
      cases hwrite.symm.trans hwrite'
    have hlookup := lookup_base_of_error_iff hmem hwrite
    constructor
    · rintro ⟨hsame, -, -⟩
      exact ⟨hlookup.1 hsame, fun disk' h ↦ absurd h (hnever disk'),
        fun disk' _ _ h ↦ absurd h (hnever disk'), fun disk' _ _ h ↦ absurd h (hnever disk')⟩
    · exact fun hsound ↦ ⟨hlookup.2 hsound.kept, rfl, rfl⟩
  | refused e disk after hwritten hrefused hdisk hconfig hprofile =>
    rw [Transacts, hcontent, hdisk]
    constructor
    · rintro ⟨hundone, -, -⟩
      refine ⟨hkept hwritten, fun _ _ _ ↦ hundone, fun disk' config profile hwritten' happlies ↦ ?_,
        fun disk' config profile hwritten' happlies ↦ ?_⟩ <;>
        rw [hwritten.eq hwritten'] at happlies <;> exact absurd happlies (hrefused config profile)
    · exact fun hsound ↦ ⟨hsound.undone disk hwritten hrefused, hconfig, hprofile⟩
  | undescribed e disk config profile after hwritten happlies hdescribed hdisk hconfig hprofile =>
    rw [Transacts, hcontent, hdisk, hwritten.lookup, hconfig, hprofile]
    constructor
    · rintro ⟨hsame, hconfig, hprofile⟩
      refine ⟨hkept hwritten, fun disk' hwritten' hrefused ↦ ?_,
        fun disk' config' profile' hwritten' happlies' hdescribed' ↦ ?_,
        fun disk' config' profile' hwritten' happlies' _ ↦ ?_⟩ <;> cases hwritten.eq hwritten'
      · exact absurd happlies (hrefused config profile)
      · obtain ⟨rfl, rfl⟩ := happlies.eq happlies'
        exact absurd hdescribed' hdescribed
      · obtain ⟨rfl, rfl⟩ := happlies.eq happlies'
        exact ⟨(Option.some.inj hsame).symm, hconfig, hprofile⟩
    · intro hsound
      obtain ⟨hsame, hconfig, hprofile⟩ := hsound.described disk config profile hwritten happlies
        hdescribed
      exact ⟨congrArg some hsame.symm, hconfig, hprofile⟩
  | done response disk config profile after hwritten happlies hdescribed hdisk =>
    rw [Transacts, hdisk, hwritten.lookup]
    constructor
    · rintro ⟨old, document', hold, hdocument, hsame⟩
      cases hsame
      refine ⟨hkept hwritten, fun disk' hwritten' hrefused ↦ ?_,
        fun _ _ _ _ _ _ ↦ hedit.2 ⟨old, hold, hdocument⟩,
        fun disk' config' profile' hwritten' happlies' hdescribed' ↦ ?_⟩ <;>
        cases hwritten.eq hwritten'
      · exact absurd happlies (hrefused config profile)
      · obtain ⟨rfl, rfl⟩ := happlies.eq happlies'
        exact absurd hdescribed hdescribed'
    · intro hsound
      obtain ⟨old, hold, hdocument⟩ := hedit.1
        (hsound.upToDate disk config profile hwritten happlies hdescribed)
      exact ⟨old, document, hold, hdocument, rfl⟩

theorem document_of_onDisk (h : onDisk lib s = .ok old) :
    old.document = content.takeWhile (· ≠ 0) := by
  simp only [onDisk, loadConfig, hcontent] at h
  obtain ⟨root, -, rfl⟩ := map_eq_ok_iff.1 h
  rfl

/-- A command that replaces the document of the file and then responds. -/
theorem Replaced.committed
    {r : Except Error (Option Bytes) × State} {rest : Option Bytes → State → Outcome}
    (hold : onDisk lib s = .ok old)
    (hproposal : p.proposal lib env s = .ok document) (hrestore : Restores lib env s p)
    (hundone : p.Undone document content ↔ 0 ∉ content)
    (hok : ∀ backup after, p.Described lib after.config after.activeProfile →
      ∃ response, rest backup after = (.ok response, after))
    (herror : ∀ backup after, ¬p.Described lib after.config after.activeProfile →
      ∃ e, rest backup after = (.error e, after))
    (h : Replaced lib env s old document r) :
    Committed lib env s content p document (andThen r rest) := by
  cases h with
  | unwritten e disk hwrite => exact .unwritten e disk hwrite
  | refused e disk after hwritten hrefused hdisk hconfig hprofile =>
    obtain ⟨backup, restored, hwrite⟩ := hrestore document disk old hproposal hwritten hold
    refine .refused e disk after hwritten hrefused ?_ hconfig hprofile
    rw [hdisk, hwrite, lookup_base_of_ok hwrite, document_of_onDisk hcontent hold,
      Option.some_inj, takeWhile_ne_eq_self_iff, hundone]
  | applied backup disk config profile after hwritten happlies hdisk hconfig hprofile =>
    by_cases hdescribed : p.Described lib config profile
    · obtain ⟨response, hresponse⟩ := hok backup after (by rwa [hconfig, hprofile])
      rw [andThen, hresponse]
      exact .done response disk config profile after hwritten happlies hdescribed hdisk
    · obtain ⟨e, he⟩ := herror backup after (by rwa [hconfig, hprofile])
      rw [andThen, he]
      exact .undescribed e disk config profile after hwritten happlies hdescribed hdisk hconfig
        hprofile

/-! ## The four commands -/

theorem transacts_activeProfile_iff (name : Bytes) (hpath : s.configPath ≠ [])
    (hrestore : Restores lib env s (.activeProfile name)) :
    Transacts lib s (Persist.edit lib s (.activeProfile name))
        (Persist.run lib env s (.activeProfile name)) ↔
      Sound lib env s content (.activeProfile name) := by
  rw [Persist.run, persistActiveProfile, if_neg hpath]
  refine transacts_andThen_iff rfl fun old hload hbind ↦ ?_
  refine transacts_andThen_iff (hbind.trans (bind_pure _).symm) fun document hset hproposal ↦ ?_
  have hold := onDisk_of_loadConfig hload
  refine Committed.transacts_iff hcontent hproposal ?_ <|
    (replaceDocument_cases lib env s old document).committed hcontent hold hproposal hrestore
      Iff.rfl (fun backup after _ ↦ ⟨_, rfl⟩) fun _ _ h ↦ absurd trivial h
  exact iff_of_true trivial ⟨old, hold, hset⟩

theorem transacts_reviewedImport_iff (payload : Bytes)
    (hrestore : Restores lib env s (.reviewedImport payload)) :
    Transacts lib s (Persist.edit lib s (.reviewedImport payload))
        (Persist.run lib env s (.reviewedImport payload)) ↔
      Sound lib env s content (.reviewedImport payload) := by
  refine transacts_andThen_iff rfl fun document _ hmerged ↦ ?_
  refine transacts_andThen_iff hmerged fun _ _ hchecked ↦ ?_
  refine transacts_andThen_iff hchecked fun old hload hloaded ↦ ?_
  refine transacts_andThen_iff hloaded fun _ _ hproposal ↦ ?_
  exact Committed.transacts_iff hcontent hproposal Iff.rfl <|
    (replaceDocument_cases lib env s old document).committed hcontent (onDisk_of_loadConfig hload)
      hproposal hrestore Iff.rfl (fun backup after _ ↦ ⟨_, rfl⟩) fun _ _ h ↦ absurd trivial h

theorem transacts_mutation_iff (mutation : Mutation) (query : Query)
    (request : Bytes) (includeBackup : Bool) (hpath : s.configPath ≠ [])
    (hrestore : Restores lib env s (.mutation mutation query request includeBackup)) :
    Transacts lib s (Persist.edit lib s (.mutation mutation query request includeBackup))
        (Persist.run lib env s (.mutation mutation query request includeBackup)) ↔
      Sound lib env s content (.mutation mutation query request includeBackup) := by
  rw [Persist.run, persistConfigMutation, if_neg hpath]
  refine transacts_andThen_iff rfl fun old hload hbind ↦ ?_
  refine transacts_andThen_iff (hbind.trans (bind_pure _).symm) fun document hmutate hproposal ↦ ?_
  have hold := onDisk_of_loadConfig hload
  refine Committed.transacts_iff hcontent hproposal ?_ <|
    (replaceDocument_cases lib env s old document).committed hcontent hold hproposal hrestore
      Iff.rfl ?_ ?_
  · exact iff_of_true trivial ⟨old, hold, hmutate⟩
  · rintro backup after ⟨text, htext⟩
    exact ⟨_, by rw [htext]; rfl⟩
  intro backup after hnone
  cases hquery : queryPayload lib after.config after.activeProfile query request with
  | error e => exact ⟨e, rfl⟩
  | ok text => exact absurd ⟨text, hquery⟩ hnone

theorem transacts_ruleFeeds_iff :
    Transacts lib s (Persist.edit lib s .ruleFeeds) (Persist.run lib env s .ruleFeeds) ↔
      Sound lib env s content .ruleFeeds := by
  refine transacts_andThen_iff rfl fun config _ hconfig ↦ ?_
  refine transacts_andThen_iff hconfig fun response _ hprepared ↦ ?_
  refine transacts_andThen_iff (hprepared.trans (bind_pure _).symm) fun document _ hproposal ↦ ?_
  refine Committed.transacts_iff hcontent hproposal Iff.rfl ?_
  rw [writeDocument_eq]
  rcases hwrite : writeAtomicDocument (accepts lib) env.world env.calls s.configPath document s.disk
    with ⟨e | backup, disk⟩
  · exact .unwritten e disk hwrite
  have hwritten : Written lib env s document disk := ⟨backup, hwrite⟩
  rw [andThen]
  obtain ⟨e, after, happly, hrefused, hdisk, hconfig, hprofile, -⟩ |
    ⟨config, profile, after, happly, happlies, hdisk, -⟩ := applyWritten_cases lib env s disk
  · rw [happly]
    refine .refused e disk after hwritten hrefused ?_ hconfig hprofile
    rw [hdisk, hwritten.lookup, Option.some_inj]
    exact eq_comm
  · rw [happly]
    exact .done _ disk config profile after hwritten happlies trivial hdisk

end

/-- **Transactions**: for a configuration file with some content, and if the old document can be
written back, a command that writes the file is a transaction exactly if it is sound. -/
theorem persist_transacts_iff (lib : Library) (env : Environment) (s : State) (p : Persist)
    (content : Bytes) (hpath : s.configPath ≠ [])
    (hcontent : s.disk.lookup s.configPath = some content) (hrestore : Restores lib env s p) :
    Transacts lib s (p.edit lib s) (p.run lib env s) ↔ Sound lib env s content p := by
  cases p with
  | activeProfile name => exact transacts_activeProfile_iff hcontent name hpath hrestore
  | reviewedImport payload => exact transacts_reviewedImport_iff hcontent payload hrestore
  | mutation m query request includeBackup =>
    exact transacts_mutation_iff hcontent m query request includeBackup hpath hrestore
  | ruleFeeds => exact transacts_ruleFeeds_iff hcontent

/-! ## A refresh of an edited file -/

/-- A configuration with one profile, which is the active one. -/
def homeDocument : Bytes :=
  bytes "active = \"home\"\n[[profile]]\nname = \"home\"\n"

def homeRoot : Table :=
  [(bytes "active", .string (bytes "home")),
    (bytes "profile", .array [.table [(bytes "name", .string (bytes "home"))]])]

/-- The same document after an edit. -/
def editedDocument : Bytes :=
  homeDocument ++ bytes "# edited\n"

/-- Making "home" the active profile of these documents changes nothing. -/
def homeLibrary : Library :=
  { readingAs homeRoot with setActive := fun config _ ↦ .ok config.document }

/-- A runtime whose file was edited after it was loaded. -/
def editedState : State where
  config := some ⟨homeDocument, homeRoot⟩
  configPath := bytes "config.toml"
  activeProfile := bytes "home"
  disk := AList.singleton (bytes "config.toml") editedDocument

/-- A refresh of rule feeds writes the document that was loaded, and the edit is lost. -/
theorem refresh_loses_edit :
    ¬Transacts homeLibrary editedState (Persist.edit homeLibrary editedState .ruleFeeds)
      (Persist.run homeLibrary fairWeather editedState .ruleFeeds) := by
  have hok : (Persist.run homeLibrary fairWeather editedState .ruleFeeds).1.isOk = true := by decide
  have hlookup : (Persist.run homeLibrary fairWeather editedState .ruleFeeds).2.disk.lookup
      editedState.configPath = some homeDocument := by decide
  have hcontent : editedState.disk.lookup editedState.configPath = some editedDocument := rfl
  intro h
  rcases hrun : Persist.run homeLibrary fairWeather editedState .ruleFeeds with
    ⟨e | response, after⟩
  · rw [hrun] at hok
    cases hok
  rw [hrun] at h hlookup
  obtain ⟨old, document, hold, hedit, hafter⟩ := h
  have hdocument := document_of_onDisk hcontent hold
  cases hlookup.symm.trans hafter
  have hedit : old.document = homeDocument := Except.ok.inj hedit
  exact absurd (hdocument.symm.trans hedit) (by decide)

/-- The same runtime makes its profile the active one in the file, and the edit stays. -/
theorem activeProfile_transacts :
    Transacts homeLibrary editedState
      (Persist.edit homeLibrary editedState (.activeProfile (bytes "home")))
      (Persist.run homeLibrary fairWeather editedState (.activeProfile (bytes "home"))) := by
  have hcontent : editedState.disk.lookup editedState.configPath = some editedDocument := rfl
  have hpath : editedState.configPath ≠ [] := by decide
  have hrestore : Restores homeLibrary fairWeather editedState (.activeProfile (bytes "home")) := by
    rintro document disk old hproposal ⟨backup, hwrite⟩ hold
    have hproposal' : Persist.proposal homeLibrary fairWeather editedState
        (.activeProfile (bytes "home")) = .ok editedDocument := rfl
    cases hproposal.symm.trans hproposal'
    have hdisk := congrArg Prod.snd hwrite
    dsimp only at hdisk
    rw [document_of_onDisk hcontent hold, ← hdisk]
    refine ⟨some (bytes "config.toml.2.bak"), _, Prod.ext ?_ rfl⟩
    decide
  refine (persist_transacts_iff homeLibrary fairWeather editedState _ editedDocument hpath hcontent
    hrestore).2 fun document _ ↦ ?_
  have hfile : 0 ∉ editedDocument := by decide
  exact ⟨fun hclobbers ↦ absurd hclobbers.name (by decide), fun _ _ _ ↦ hfile,
    fun _ _ _ _ _ _ ↦ trivial, fun _ _ _ _ _ h ↦ absurd trivial h⟩

end ClambHook.Runtime
