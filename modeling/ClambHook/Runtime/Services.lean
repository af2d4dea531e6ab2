import ClambHook.ConfigFile.Atomic
import ClambHook.Runtime.Apply

/-!
# The running flag and the services

The services of a runtime should exist only while the running flag is set, should come from the
configuration and the profile that the runtime has, and should be stopped before others take their
place.  Every command keeps this except one: a start that fails behind the loading of the
configuration puts services back that were not there.  They are built from the configuration of the
stopped runtime, and nothing stops them; a later "connect" puts other services in their place.

So the property holds along a run exactly if no start of a stopped runtime fails in this way.
-/

namespace ClambHook.Runtime

open CString Config Machine

/-! ## Agreement -/

/-- All services come from one configuration and profile. -/
def Services.From (services : Services) (origin : Origin) : Prop :=
  ∀ o, services.listeners = some o ∨ services.dns = some o ∨ services.ipStack = some o → o = origin

/-- The services agree with the rest of a runtime. -/
structure Agrees (running : Bool) (origin : Origin) (services : Services) : Prop where
  running_of_live : services.live = true → running = true
  built : services.From origin

/-- The services agree with the runtime, and none was lost. -/
def Consistent (s : State) : Prop :=
  Agrees s.running ⟨s.config, s.activeProfile⟩ s.services ∧ s.leaked = false

theorem Services.from_empty (origin : Origin) : ({} : Services).From origin := by
  rintro o (h | h | h) <;> cases h

theorem Agrees.empty (running : Bool) (origin : Origin) : Agrees running origin {} :=
  ⟨nofun, Services.from_empty origin⟩

variable {services : Services} {b : Building}

/-- Services that were built are there, and come from what they were built for. -/
theorem live_of_buildServices {config : Option Parsed} {profile : Bytes}
    (h : buildServices b config profile = .ok services) :
    services.live = true ∧ services.From ⟨config, profile⟩ := by
  simp only [buildServices, bind_eq_ok_iff] at h
  obtain ⟨-, -, dns, -, ipStack, -, h⟩ := h
  cases h
  refine ⟨rfl, fun o ho ↦ ?_⟩
  cases dns <;> cases ipStack <;> simp_all

theorem Services.eq_empty_of_live (h : services.live = false) :
    services = {} := by
  obtain ⟨listeners, dns, ipStack⟩ := services
  cases listeners <;> cases dns <;> cases ipStack <;> first | rfl | cases h

/-! ## Single operations -/

section

variable {lib : Library} {env : Environment} {s : State} {name document path : Bytes}
  {mutation : Mutation} {query : Query} {includeBackup : Bool}

section

variable (hdead : s.services = {}) (hleaked : s.leaked = false)

include hdead hleaked

/-- A runtime is consistent when it has no services. -/
theorem consistent_of_services_eq : Consistent s := by
  rw [Consistent, hdead]
  exact ⟨.empty _ _, hleaked⟩

/-- Services that were built in the place of none belong to a runtime that is running. -/
theorem consistent_install (hrunning : s.running = true)
    (hbuild : buildServices b s.config s.activeProfile = .ok services) :
    Consistent (s.install services) := by
  refine ⟨⟨fun _ ↦ hrunning, (live_of_buildServices hbuild).2⟩, ?_⟩
  simp [State.install, hdead, hleaked, Services.live]

theorem consistent_startListeners (hrunning : s.running = true) :
    Consistent (startListeners b s s.activeProfile).2 := by
  obtain ⟨e, -, heq⟩ | ⟨services, hbuild, heq⟩ := startListeners_cases b s s.activeProfile <;>
    rw [heq]
  · exact consistent_of_services_eq hdead hleaked
  · exact consistent_install hdead hleaked hrunning hbuild

end

variable (h : Consistent s)

include h

theorem Consistent.services_eq (hstopped : s.running = false) : s.services = {} := by
  apply Services.eq_empty_of_live
  cases hlive : s.services.live with
  | false => rfl
  | true => exact absurd (h.1.running_of_live hlive) (by simp [hstopped])

theorem Consistent.stop (running : Bool) :
    Consistent (stopListeners { s with running := running }) :=
  consistent_of_services_eq rfl h.2

/-- A profile switch stops the services of the old profile before it starts those of the new. -/
theorem Consistent.switchProfile : Consistent (switchProfile env s name).2 := by
  rw [Runtime.switchProfile]
  cases hrunning : s.running with
  | false => exact consistent_of_services_eq (h.services_eq hrunning) h.2
  | true =>
    rw [if_pos rfl]
    obtain ⟨e, -, heq⟩ | ⟨services, hbuild, heq⟩ :=
      startListeners_cases env.build (stopListeners s) name <;> rw [heq]
    · exact consistent_startListeners rfl h.2 hrunning
    · exact consistent_install (s := { stopListeners s with activeProfile := name }) rfl h.2
        hrunning hbuild

/-- A configuration that is applied with services exactly if the runtime is running. -/
theorem Consistent.applyConfig : Consistent (applyConfig lib env s path s.running).2 := by
  have hcases := applyConfig_cases lib env s path s.running
  cases hrunning : s.running with
  | false =>
    have hdead := h.services_eq hrunning
    rw [hrunning] at hcases
    generalize Runtime.applyConfig lib env s path false = r at hcases ⊢
    cases hcases with
    | unloaded | refused => exact h
    | adopted config profile prompts services _ _ hservices =>
      have hservices : services = {} := hservices
      refine consistent_of_services_eq hservices ?_
      simp [adopt, State.install, withdrawn, h.2, hdead, Services.live]
  | true =>
    rw [hrunning] at hcases
    generalize Runtime.applyConfig lib env s path true = r at hcases ⊢
    cases hcases with
    | unloaded => exact h
    | refused e config profile prompts => exact consistent_startListeners rfl h.2 hrunning
    | adopted config profile prompts services _ _ hservices =>
      exact consistent_install (b := env.build)
        (s := { stopListeners s with
          config := config, activeProfile := profile, prompts := prompts })
        rfl h.2 hrunning hservices

theorem Consistent.replaceDocument {old : Parsed} :
    Consistent (replaceDocument lib env s old document).2 :=
  replaceDocument_inv (fun _ _ h ↦ h) (fun _ _ h ↦ h.applyConfig) h

/-! ## Commands -/

theorem Consistent.persistActiveProfile :
    Consistent (persistActiveProfile lib env s name).2 := by
  rw [Runtime.persistActiveProfile]
  split
  · refine andThen_inv h fun _ s₁ _ h₁ ↦ ?_
    exact andThen_inv h₁.switchProfile fun _ _ _ h₂ ↦ h₂
  · refine andThen_inv h fun old s₁ _ h₁ ↦ andThen_inv h₁ fun document s₂ _ h₂ ↦ ?_
    exact andThen_inv h₂.replaceDocument fun _ _ _ h₃ ↦ h₃

theorem Consistent.importConfig : Consistent (importConfig lib env s document).2 := by
  refine andThen_inv h fun _ s₁ _ h₁ ↦ andThen_inv h₁ fun old s₂ _ h₂ ↦ ?_
  refine andThen_inv h₂ fun _ s₃ _ h₃ ↦ ?_
  exact andThen_inv h₃.replaceDocument fun _ _ _ h₄ ↦ h₄

theorem Consistent.persistConfigMutation {request : Bytes} :
    Consistent (persistConfigMutation lib env s mutation query request includeBackup).2 :=
  persistConfigMutation_inv (fun _ _ h ↦ h) (fun _ _ h ↦ h.applyConfig) h

theorem Consistent.persistPrepared :
    Consistent (persistPrepared lib env s mutation query includeBackup).2 :=
  andThen_inv h fun _ _ _ h' ↦ h'.persistConfigMutation

theorem Consistent.refreshRuleFeeds : Consistent (refreshRuleFeeds lib env s).2 := by
  refine andThen_inv h fun config s₁ _ h₁ ↦ andThen_inv h₁ fun response s₂ _ h₂ ↦ ?_
  refine andThen_inv h₂ fun document s₃ _ h₃ ↦ ?_
  refine andThen_inv (I := Consistent) h₃ fun backup s₄ _ h₄ ↦ ?_
  exact andThen_inv h₄.applyConfig fun _ _ _ h₅ ↦ h₅

theorem Consistent.promptAction {payload : Bytes} {promoteSilent : Bool} :
    Consistent (promptAction lib env s payload promoteSilent).2 := by
  refine andThen_inv h fun o s₁ _ h₁ ↦ andThen_inv ?_ fun taken s₂ _ h₂ ↦ ?_
  · rw [takePrompt]
    split
    · refine andThen_inv h₁ fun silent s₂ _ h₂ ↦ ?_
      split
      · exact h₂
      · exact h₂
    · exact h₁
  · rw [rememberPrompt]
    split
    · exact h₂
    split
    · exact h₂
    refine andThen_inv h₂ fun request s₃ _ h₃ ↦ ?_
    split
    · exact h₃.persistConfigMutation
    · exact andThen_inv h₃ fun _ _ _ h₄ ↦ h₄

theorem Consistent.networkObservation {info : NetworkInfo} :
    Consistent (networkObservation env s info) := by
  rw [Runtime.networkObservation]
  split
  · split
    · exact h
    · exact h.switchProfile
  · exact h

/-- Services are started by "connect" only in a runtime that is stopped, and then there are none. -/
theorem Consistent.connect (hstopped : s.running = false) : Consistent (connect lib env s).2 := by
  have hrefreshed : Consistent (refreshOutlineBeforeConnect lib env s) ∧
      (refreshOutlineBeforeConnect lib env s).running = false := by
    rw [refreshOutlineBeforeConnect]
    split
    · exact ⟨h, hstopped⟩
    refine ⟨h.persistPrepared, ?_⟩
    refine andThen_inv (I := fun t ↦ t.running = false) hstopped fun request s' _ h' ↦ ?_
    refine persistConfigMutation_inv (I := fun t ↦ t.running = false) (fun _ _ h ↦ h) ?_ h'
    exact fun t path h ↦ (running_applyConfig lib env t path t.running).trans h
  rw [Runtime.connect]
  generalize refreshOutlineBeforeConnect lib env s = s' at hrefreshed
  obtain ⟨h', hstopped'⟩ := hrefreshed
  have hdead := h'.services_eq hstopped'
  obtain ⟨e, -, heq⟩ | ⟨services, hbuild, heq⟩ := startListeners_cases env.build s' s'.activeProfile
  · rw [heq]
    exact h'
  · rw [heq]
    exact consistent_install (s := { s' with running := true }) hdead h'.2 rfl hbuild

/-! ## Starts -/

/-- A runtime that is stopped fails to start with a configuration that was loaded, and services for
the configuration that it had can be built. -/
def FailedStart (lib : Library) (s : State) (event : Command × Environment) : Prop :=
  ∃ path config profile services, event.1 = .start path ∧ s.running = false ∧
    nextConfig lib event.2 path s.disk = .ok (config, profile) ∧
    Refused event.2 true config profile ∧
    buildServices event.2.rebuild s.config s.activeProfile = .ok services

theorem consistent_start_iff (hstopped : s.running = false) :
    Consistent (start lib env s path).2 ↔ ¬FailedStart lib s (.start path, env) := by
  have hcases := applyConfig_cases lib env s path true
  rw [start]
  generalize applyConfig lib env s path true = r at hcases
  cases hcases with
  | unloaded e hnext =>
    refine iff_of_true h ?_
    rintro ⟨path', config, profile, services, hpath, -, hnext', -⟩
    cases hpath
    simp [hnext] at hnext'
  | refused e config profile prompts hnext hrefused =>
    obtain ⟨e', hbuild, heq⟩ | ⟨services, hbuild, heq⟩ :=
      startListeners_cases env.rebuild (withdrawn s true prompts) s.activeProfile
    · refine iff_of_true ?_ ?_
      · show Consistent (startListeners env.rebuild (withdrawn s true prompts) s.activeProfile).2
        rw [heq]
        exact consistent_of_services_eq rfl h.2
      · rintro ⟨_, _, _, services, -, -, -, -, hbuild'⟩
        cases hbuild.symm.trans hbuild'
    · refine iff_of_false ?_ ?_
      · show ¬Consistent (startListeners env.rebuild (withdrawn s true prompts) s.activeProfile).2
        rw [heq]
        intro hconsistent
        have hrunning := hconsistent.1.running_of_live (live_of_buildServices hbuild).1
        cases hstopped.symm.trans hrunning
      · exact fun hfailed ↦
          hfailed ⟨path, config, profile, services, rfl, hstopped, hnext, hrefused, hbuild⟩
  | adopted config profile prompts services hnext haccepted hservices =>
    refine iff_of_true ?_ ?_
    · exact consistent_install (b := env.build) (s := { stopListeners s with
        running := true, config := config, activeProfile := profile }) rfl h.2 rfl hservices
    rintro ⟨path', config', profile', _, hpath, -, hnext', hrefused, -⟩
    cases hpath
    cases hnext.symm.trans hnext'
    exact haccepted hrefused

/-- **One command**: every command but a start that fails keeps the agreement. -/
theorem consistent_step_iff (event : Command × Environment) :
    Consistent (step lib s event) ↔ ¬FailedStart lib s event := by
  obtain ⟨command, env⟩ := event
  rw [step]
  have hother : Consistent (process lib env s command).2 → (∀ path, command ≠ .start path) →
      (Consistent (process lib env s command).2 ↔ ¬FailedStart lib s (command, env)) := by
    refine fun hconsistent hne ↦ iff_of_true hconsistent ?_
    rintro ⟨path, _, _, _, hpath, -⟩
    exact hne path hpath
  cases command with
  | start path =>
    rw [process]
    cases hrunning : s.running with
    | false => exact consistent_start_iff h hrunning
    | true =>
      refine iff_of_true h ?_
      rintro ⟨_, _, _, _, -, hstopped, -⟩
      simp [hrunning] at hstopped
  | stop | disconnect | shutdown => exact hother (h.stop false) nofun
  | reload path =>
    exact hother (andThen_inv h.applyConfig fun _ _ _ h' ↦ h') nofun
  | connect =>
    refine hother ?_ nofun
    rw [process]
    cases hrunning : s.running with
    | false => exact h.connect hrunning
    | true => exact h
  | setActiveProfile payload =>
    refine hother (andThen_inv h fun name s' _ h' ↦ ?_) nofun
    split
    · exact andThen_inv h'.switchProfile fun _ _ _ h'' ↦ h''
    · exact h'
  | persistActiveProfile payload =>
    exact hother (andThen_inv h fun name _ _ h' ↦ h'.persistActiveProfile) nofun
  | configImport document => exact hother h.importConfig nofun
  | profileConverterImport payload | configImportReviewed payload =>
    exact hother (andThen_inv h fun document _ _ h' ↦ h'.importConfig) nofun
  | outlineImport | createRuleFromConnection | cleanupRuleFromTraffic =>
    exact hother h.persistPrepared nofun
  | outlineRefresh =>
    refine hother ?_ nofun
    rw [process]
    split
    · exact h
    · exact h.persistPrepared
  | createTemporaryRule payload =>
    exact hother (andThen_inv h fun _ _ _ h' ↦ andThen_inv h' fun _ _ _ h'' ↦ h'') nofun
  | removeTemporaryRule payload => exact hother (andThen_inv h fun _ _ _ h' ↦ h') nofun
  | resolvePrompt payload | promoteSilentDecision payload => exact hother h.promptAction nofun
  | mutate mutation payload =>
    refine hother ?_ nofun
    rw [process]
    split
    · exact h
    · exact h.persistConfigMutation
  | refreshRuleFeeds => exact hother h.refreshRuleFeeds nofun
  | networkObservation info => exact hother h.networkObservation nofun
  | other result | meanwhile prompts temporaryRules disk => exact hother h nofun

end

/-- The runtime that `ch_runtime_create` makes. -/
def created (disk : ConfigFile.Directory) : State :=
  { disk := disk }

/-- **Running flag and services**: along a run of the runtime the services agree with the running
flag, the configuration and the profile, and none is lost, exactly if no start of the stopped
runtime fails behind the loading of its configuration while the services of the old one can be
built. -/
theorem services_agree_iff (lib : Library) (disk : ConfigFile.Directory)
    (events : List (Command × Environment)) :
    Along (step lib) (fun s event ↦ Consistent (step lib s event)) (created disk) events ↔
      Along (step lib) (fun s event ↦ ¬FailedStart lib s event) (created disk) events := by
  have hcreated : Consistent (created disk) := consistent_of_services_eq rfl rfl
  exact along_step_iff (I := Consistent) (fun s event h ↦ consistent_step_iff h event) events
    hcreated

/-! ## A start that fails -/

/-- A library that reads every document as one table, and knows no edits. -/
def readingAs (root : Table) : Library where
  parse _ := .ok root
  setActive _ _ := .error (.set .unsupported [])
  mutate _ _ _ _ := .error (.set .unsupported [])
  payload _ _ _ _ := .error (.set .unsupported [])
  mergeReviewedImport _ _ := .error (.set .unsupported [])
  convertImport _ _ := .error (.set .unsupported [])

/-- Every call succeeds. -/
def fairWeather : Environment :=
  let calls := ConfigFile.Calls.succeed ⟨bytes "abcdef", by decide⟩
    (Retention.sortBefore ConfigFile.backupKey ([], 0))
  { world := ConfigFile.workingAt 1, calls := calls
    restoreWorld := ConfigFile.workingAt 2, restoreCalls := calls }

/-- The configuration `[prompt] enabled = 1` with one profile.  The validation lets it pass, and the
prompt manager does not take an integer for a Boolean. -/
def promptedRoot : Table :=
  [(bytes "prompt", .table [(bytes "enabled", .integer 1)]),
    (bytes "profile", .array [.table [(bytes "name", .string (bytes "home"))]])]

/-- A new runtime that fails to start with this configuration has listeners, and is not running. -/
theorem start_leaves_services :
    ¬Along (step (readingAs promptedRoot))
      (fun s event ↦ Consistent (step (readingAs promptedRoot) s event))
      (created (AList.singleton (bytes "config.toml") (bytes "[prompt]")))
      [(.start (bytes "config.toml"), fairWeather)] := by
  rintro ⟨h, -⟩
  have hrunning := h.1.running_of_live (by decide)
  exact absurd hrunning (by decide)

end ClambHook.Runtime
