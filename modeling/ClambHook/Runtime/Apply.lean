import ClambHook.Runtime.Model

/-!
# What applying a configuration can do

`ch_runtime_apply_config` is behind most commands, and each of its failures is handled in a place of
its own.  Here its outcomes are listed once: the configuration cannot be loaded, it is loaded and
refused later, or it is adopted.  The proofs about commands go through this list.
-/

namespace ClambHook.Runtime

open CString Config Prompt

/-! ## Parts of commands -/

/-- A command keeps a property of the state that each of its parts keeps. -/
theorem andThen_inv {α β : Type} {I : State → Prop} {part : Except Error α × State}
    {rest : α → State → Except Error β × State} (hpart : I part.2)
    (hrest : ∀ a s, part = (.ok a, s) → I s → I (rest a s).2) : I (andThen part rest).2 := by
  obtain ⟨result, s⟩ := part
  cases result with
  | error e => exact hpart
  | ok a => exact hrest a s rfl hpart

/-- What `ch_runtime_start_listeners` can do. -/
theorem startListeners_cases (b : Building) (s : State) (profile : Bytes) :
    (∃ e, buildServices b s.config profile = .error e ∧
        startListeners b s profile = (.error e, s)) ∨
      ∃ services, buildServices b s.config profile = .ok services ∧
        startListeners b s profile = (.ok (), s.install services) := by
  rw [startListeners]
  cases hbuild : buildServices b s.config profile with
  | error e => exact .inl ⟨e, rfl, rfl⟩
  | ok services => exact .inr ⟨services, rfl, rfl⟩

/-! ## Prompts that were answered -/

/-- The prompts that have a verdict keep it. -/
def Settled (before after : Manager) : Prop :=
  ∀ p ∈ before.pending, p.resolved = true → p ∈ after.pending

theorem Settled.refl (m : Manager) : Settled m m :=
  fun _ h _ ↦ h

theorem Settled.trans {a b c : Manager} (h : Settled a b) (h' : Settled b c) : Settled a c :=
  fun p hp hresolved ↦ h' p (h p hp hresolved) hresolved

theorem settled_resolveAll (m : Manager) (allow : Bool) :
    Settled m (resolveAll m allow) := by
  intro p hp hresolved
  refine List.mem_map.2 ⟨p, hp, ?_⟩
  rw [if_pos hresolved]

theorem settled_configure (m : Manager) (config : Option Table) :
    Settled m (configure m config).1 := by
  rw [configure]
  cases readSettings config with
  | error e => exact .refl m
  | ok settings => exact settled_resolveAll m false

theorem configure_eq_error_iff (m : Manager) (config : Option Table) (e : Error) :
    (configure m config).2 = .error e ↔ readSettings config = .error e := by
  rw [configure]
  cases readSettings config <;> simp

/-! ## The outcomes -/

/-- What can stop a configuration that was loaded. -/
inductive Refused (env : Environment) (start : Bool) (config : Option Parsed) (profile : Bytes) :
    Prop where
  | traffic (h : env.traffic.isSome = true)
  | prompts (e : Error) (h : readSettings (config.map Parsed.root) = .error e)
  | developer (h : env.developer.isSome = true)
  | services (e : Error) (hstart : start = true)
      (h : buildServices env.build config profile = .error e)

/-- The state in which a configuration is adopted or given up: services are stopped if others are to
be started, and prompts may have been resolved. -/
def withdrawn (s : State) (start : Bool) (prompts : Manager) : State :=
  { (if start then stopListeners s else s) with prompts := prompts }

/-- What `ch_runtime_apply_config` can do. -/
inductive Applied (lib : Library) (env : Environment) (s : State) (path : Bytes) (start : Bool) :
    Except Error Unit × State → Prop where
  | unloaded (e : Error) (h : nextConfig lib env path s.disk = .error e) :
      Applied lib env s path start (.error e, s)
  | refused (e : Error) (config : Option Parsed) (profile : Bytes) (prompts : Manager)
      (h : nextConfig lib env path s.disk = .ok (config, profile))
      (hrefused : Refused env start config profile) (hprompts : Settled s.prompts prompts) :
      Applied lib env s path start (.error e, rollBack env start (withdrawn s start prompts))
  | adopted (config : Option Parsed) (profile : Bytes) (prompts : Manager)
      (services : Services) (h : nextConfig lib env path s.disk = .ok (config, profile))
      (haccepted : ¬Refused env start config profile)
      (hservices : if start then buildServices env.build config profile = .ok services
        else services = {})
      (hprompts : Settled s.prompts prompts) :
      Applied lib env s path start
        (.ok (), adopt (withdrawn s start prompts) config path profile services)

section

variable (lib : Library) (env : Environment) (s : State) (path : Bytes) (start : Bool)

theorem settled_withdrawn :
    Settled s.prompts (if start then stopListeners s else s).prompts := by
  cases start with
  | false => exact .refl _
  | true => exact settled_resolveAll _ _

theorem applyConfig_cases : Applied lib env s path start (applyConfig lib env s path start) := by
  have hstopped := settled_withdrawn s start
  rw [applyConfig]
  cases hnext : nextConfig lib env path s.disk with
  | error e => exact .unloaded e hnext
  | ok next =>
    obtain ⟨config, profile⟩ := next
    dsimp only
    generalize hs : (if start then stopListeners s else s) = stopped at hstopped ⊢
    have hwithdrawn : ∀ prompts, withdrawn s start prompts =
        { stopped with prompts := prompts } := by
      intro prompts
      rw [withdrawn, hs]
    have hrefuse : ∀ (e : Error) (prompts : Manager), Refused env start config profile →
        Settled stopped.prompts prompts → Applied lib env s path start
          (.error e, rollBack env start { stopped with prompts := prompts }) := by
      intro e prompts hrefused hprompts
      rw [← hwithdrawn]
      exact .refused e config profile prompts hnext hrefused (hstopped.trans hprompts)
    cases htraffic : env.traffic with
    | some e => exact hrefuse e stopped.prompts (.traffic (by rw [htraffic]; rfl)) (.refl _)
    | none =>
      dsimp only
      have hconfigured := settled_configure stopped.prompts (config.map Parsed.root)
      cases hconfigure : configure stopped.prompts (config.map Parsed.root) with
      | mk prompts result =>
        rw [hconfigure] at hconfigured
        cases result with
        | error e =>
          have hread := (configure_eq_error_iff ..).1 (congrArg Prod.snd hconfigure)
          exact hrefuse e _ (.prompts e hread) (settled_configure _ _)
        | ok _ =>
          have hback : Settled stopped.prompts
              (reconfigurePrompts { stopped with prompts := prompts }).prompts :=
            hconfigured.trans (settled_configure _ _)
          dsimp only
          cases hdeveloper : env.developer with
          | some e => exact hrefuse e _ (.developer (by rw [hdeveloper]; rfl)) hback
          | none =>
            dsimp only
            have hadopt : ∀ services : Services,
                (if start then buildServices env.build config profile = .ok services
                  else services = {}) →
                Applied lib env s path start
                  (.ok (), adopt { stopped with prompts := prompts } config path profile
                    services) := by
              intro services hservices
              rw [← hwithdrawn]
              refine .adopted config profile prompts services hnext ?_ hservices
                (hstopped.trans hconfigured)
              rintro (h | ⟨e, h⟩ | h | ⟨e, hstart, h⟩)
              · simp [htraffic] at h
              · rw [← configure_eq_error_iff stopped.prompts, hconfigure] at h
                cases h
              · simp [hdeveloper] at h
              · rw [if_pos hstart, h] at hservices
                cases hservices
            cases start with
            | false => exact hadopt {} rfl
            | true =>
              cases hbuild : buildServices env.build config profile with
              | error e => exact hrefuse e _ (.services e rfl hbuild) hback
              | ok services => exact hadopt services hbuild

/-! ## Frames -/

/-- A configuration that was given up leaves the state as it was, but for the services and the
prompts. -/
theorem rollBack_withdrawn (prompts : Manager) :
    ∃ services leaked, rollBack env start (withdrawn s start prompts) =
      { s with services := services, leaked := leaked, prompts := prompts } := by
  cases start with
  | false => exact ⟨s.services, s.leaked, rfl⟩
  | true =>
    obtain ⟨e, -, heq⟩ | ⟨services, -, heq⟩ :=
      startListeners_cases env.rebuild (withdrawn s true prompts) s.activeProfile
    all_goals exact ⟨_, _, congrArg Prod.snd heq⟩

theorem running_withdrawn (prompts : Manager) :
    (withdrawn s start prompts).running = s.running := by
  cases start <;> rfl

/-- Only the commands that start and stop the runtime set the running flag. -/
theorem running_applyConfig : (applyConfig lib env s path start).2.running = s.running := by
  have hcases := applyConfig_cases lib env s path start
  generalize applyConfig lib env s path start = r at hcases
  cases hcases with
  | unloaded => rfl
  | refused e config profile prompts =>
    obtain ⟨services, leaked, heq⟩ := rollBack_withdrawn env s start prompts
    rw [heq]
  | adopted config profile prompts services => exact running_withdrawn s start prompts

end

section

variable {lib : Library} {env : Environment} {I : State → Prop}
  (hdisk : ∀ s disk, I s → I { s with disk := disk })
  (happly : ∀ s path, I s → I (applyConfig lib env s path s.running).2) {s : State} (h : I s)

include hdisk happly h

/-- A document is replaced by a write, an application, and a second write if that fails. -/
theorem replaceDocument_inv {old : Parsed} {document : Bytes} :
    I (replaceDocument lib env s old document).2 := by
  refine andThen_inv (hdisk _ _ h) fun backup s' _ h' ↦ ?_
  have hafter := happly s' s'.configPath h'
  split
  · next s'' heq =>
    rw [heq] at hafter
    exact hafter
  · next e s'' heq =>
    rw [heq] at hafter
    exact hdisk _ _ hafter

theorem persistConfigMutation_inv {mutation : Mutation} {query : Query} {request : Bytes}
    {includeBackup : Bool} :
    I (persistConfigMutation lib env s mutation query request includeBackup).2 := by
  rw [persistConfigMutation]
  split
  · exact h
  · refine andThen_inv h fun old s₁ _ h₁ ↦ andThen_inv h₁ fun document s₂ _ h₂ ↦ ?_
    refine andThen_inv (replaceDocument_inv hdisk happly h₂) fun backup s₃ _ h₃ ↦ ?_
    exact andThen_inv h₃ fun _ _ _ h₄ ↦ h₄

end

end ClambHook.Runtime
