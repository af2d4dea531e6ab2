import ClambHook.Runtime.Transactions

/-!
# Answers to prompts, all or nothing

An answer to a prompt gives the verdict to the connections that wait for it and, unless it is meant
for this once, stores a rule.  It should do both or none: a command that reports an error should
leave the prompt pending.

`ch_runtime_prompt_action` resolves the prompt first.  Whatever fails behind that (the process is
not known, the rule cannot be made, the file cannot be edited) is reported as an error, and the
verdict has been given.  So an answer is all or nothing exactly if it is for this once or everything
behind the resolution succeeds, and `Remembers` says what that takes.
-/

namespace ClambHook.Runtime

open CString Config ConfigFile Prompt List TemporaryRules Json

/-! ## The property -/

/-- The action of a rule says the same as a verdict. -/
def Carries (action : Bytes) (allow : Bool) : Prop :=
  action = bytes "block" ↔ allow = false

/-- The one rule that an answer to a prompt has stored. -/
def Stored (lib : Library) (s : State) (o : ActionOptions) (p : Pending) (after : State) : Prop :=
  match o.scope with
  | .once => True
  | .session | .untilQuit => after.disk = s.disk ∧ ∃ rule rest,
      after.temporaryRules.items = rule :: rest ∧ rest.Sublist s.temporaryRules.items ∧
        Carries rule.action o.allow
  | .forever => after.temporaryRules = s.temporaryRules ∧ ∃ config old document,
      s.config = some config ∧ onDisk lib s = .ok old ∧
        Carries (ruleAction p.snapshot.request config.root o.allow) o.allow ∧
        lib.mutate old s.activeProfile .createRule
          (appendValue (ruleRequest p.snapshot.request config.root o o.allow)) =
            .ok document ∧
        after.disk.lookup s.configPath = some document

/-- The answer to a prompt was given and stored, or the prompt is as it was. -/
def AllOrNothing (lib : Library) (s : State) (o : ActionOptions) (p : Pending) : Outcome → Prop
  | (.ok _, after) =>
    { p with resolved := true, allow := o.allow } ∈ after.prompts.pending ∧ Stored lib s o p after
  | (.error _, after) =>
    p ∈ after.prompts.pending ∧
      (∀ q ∈ after.prompts.pending, q.handle = p.handle → q.resolved = false) ∧
      after.temporaryRules = s.temporaryRules ∧
      after.disk.lookup s.configPath = s.disk.lookup s.configPath

/-- What a request asks for, and the prompt that it is about. -/
def addressed (s : State) (payload : Bytes) : Option (ActionOptions × Pending) :=
  match actionOptionsParse payload true with
  | .error _ => none
  | .ok o => (pendingId s.prompts o.id).map fun p ↦ (o, p)

/-- A request is all or nothing: one that is about no prompt does nothing. -/
def Whole (lib : Library) (s : State) (payload : Bytes) (r : Outcome) : Prop :=
  (addressed s payload = none → ∃ e, r = (.error e, s)) ∧
    ∀ o p, addressed s payload = some (o, p) → AllOrNothing lib s o p r

/-! ## When it holds -/

/-- A mutation of the file goes through, and can be described. -/
def Persists (lib : Library) (env : Environment) (s : State) (mutation : Mutation) (query : Query)
    (request : Bytes) : Prop :=
  s.configPath ≠ [] ∧ ∃ old document disk config profile text,
    loadConfig lib env.read s.configPath s.disk = .ok old ∧
    lib.mutate old s.activeProfile mutation request = .ok document ∧
    Written lib env s document disk ∧ Applies lib env s disk config profile ∧
    queryPayload lib config profile query request = .ok text

/-- What it takes to remember the answer to a prompt. -/
structure Remembers (lib : Library) (env : Environment) (s : State) (o : ActionOptions)
    (r : Request) : Prop where
  /-- There is a process, and for some answers it has a number. -/
  process : ruleProcess r ≠ []
  pid : o.scope = .untilQuit → 0 < r.processPid
  /-- There is a configuration, and the prompt has a profile. -/
  loaded : s.config.isSome = true
  profile : o.scope ≠ .forever → r.profile ≠ []
  /-- A rule that is there to stay can be written to the file. -/
  persists : o.scope = .forever → ∀ config, s.config = some config →
    Persists lib env s .createRule .rulesPersistence
      (appendValue (ruleRequest r config.root o o.allow))

/-! ## Temporary rules -/

theorem carries_ruleAction (r : Request) (root : Table) (allow : Bool) :
    Carries (ruleAction r root allow) allow := by
  rw [Carries, ruleAction]
  cases allow with
  | false => simp
  | true =>
    refine iff_of_false ?_ nofun
    rw [if_pos rfl]
    split
    · intro h
      have hhead : some (99 : UInt8) = some 98 := congrArg List.head? h
      exact absurd hhead (by decide)
    · decide

theorem ruleAction_ne_nil (r : Request) (root : Table) (allow : Bool) :
    ruleAction r root allow ≠ [] := by
  rw [ruleAction]
  split
  · split
    · exact fun h ↦ absurd (congrArg List.head? h) nofun
    · decide
  · decide

theorem ruleTtl_eq_ok {ttl : Int} (hmin : 0 ≤ ttl) (hmax : ttl ≤ 86400) (pid : Int) :
    ∃ seconds, ruleTtl ttl pid = .ok seconds ∧ 0 < seconds ∧ seconds ≤ 86400 := by
  rw [ruleTtl]
  simp only [maxTtl, defaultTtl]
  split
  · split
    · exact ⟨86400, rfl, by decide, by decide⟩
    · exact ⟨900, rfl, by decide, by decide⟩
  · next hpos =>
    refine ⟨ttl, if_neg (by omega), by omega, hmax⟩

theorem requestTtl_of_seconds {seconds : Int} (hpos : 0 < seconds) (hmax : seconds ≤ 86400)
    (members : List (Bytes × Json))
    (h : members.lookup (bytes "ttl_seconds") = some (.ofInt seconds)) :
    requestTtl (.object members) = .ok seconds := by
  have hpos' : ¬((seconds : Rat) ≤ 0) := by exact_mod_cast hpos.not_ge
  have hmax' : ¬seconds > maxTtl := by
    rw [maxTtl]
    omega
  simp only [requestTtl, objectGet, h, ofInt, numberValue, if_neg hpos',
    Rat.floor_intCast, if_neg hmax']

theorem temporaryFirstPort_ruleMembers (r : Request) (root : Table) (o : ActionOptions)
    (allow : Bool) :
    ∃ port, temporaryFirstPort (some (.object (ruleMembers r root o allow))) =
      some port := by
  have hlookup := lookup_ports_ruleMembers r root o allow
  rw [temporaryFirstPort, objectGet, hlookup]
  cases hport : (if o.matchPort then rulePort r.targetPort else none) with
  | none => exact ⟨[], rfl⟩
  | some port =>
    have hbounds : 1 ≤ port ∧ port ≤ 65535 := by
      split at hport
      · exact rulePort_eq_some hport
      · cases hport
    simp only [Option.map_some, items, head?_cons,
      numberValue_newInt64 hbounds.1 hbounds.2, Rat.den_intCast]
    refine ⟨decimal (port : Rat).num.toNat, if_neg ?_⟩
    rintro (h | h | h)
    · exact absurd hbounds.1 (not_le.2 (by exact_mod_cast h))
    · exact absurd hbounds.2 (not_le.2 (by exact_mod_cast h))
    · exact h rfl

/-- A remembered rule is stored as a temporary one if the prompt has a profile. -/
theorem createFromRule_ruleRequest (store : Store) {r : Request} (root : Table)
    {o : ActionOptions} (allow : Bool) (pid : Int) (connId target targetHost : Bytes)
    (clock : Clock) (hprocess : ruleProcess r ≠ []) (hmin : 0 ≤ o.ttlSeconds)
    (hmax : o.ttlSeconds ≤ 86400) :
    (r.profile = [] → ∃ e, createFromRule store (ruleRequest r root o allow)
        o.ttlSeconds pid connId target targetHost clock = .error e) ∧
      (r.profile ≠ [] → ∃ rule seconds, rule.action = ruleAction r root allow ∧
        createFromRule store (ruleRequest r root o allow) o.ttlSeconds pid connId
          target targetHost clock =
            .ok (temporaryInsert store rule seconds pid clock)) := by
  obtain ⟨seconds, hseconds, hpos, hle⟩ := ruleTtl_eq_ok hmin hmax pid
  obtain ⟨port, hport⟩ := temporaryFirstPort_ruleMembers r root o allow
  have hrequest := requestTtl_of_seconds hpos hle [(bytes "conn_id", .string connId),
    (bytes "source_target", .string target), (bytes "source_target_host", .string targetHost),
    (bytes "ttl_seconds", .ofInt seconds)] rfl
  have hrule : mutationRule (ruleRequest r root o allow) =
      .ok (.object (ruleMembers r root o allow)) := rfl
  have hnext : ∃ next : TemporaryRule, next.profile = r.profile ∧
      next.name = ruleName r allow o.matchHost ∧ next.action = ruleAction r root allow ∧
      next.process = ruleProcess r ∧
      temporaryRuleFromRequest (ruleRequest r root o allow) (.object
        [(bytes "conn_id", .string connId), (bytes "source_target", .string target),
          (bytes "source_target_host", .string targetHost),
          (bytes "ttl_seconds", .ofInt seconds)]) none =
        (checkRule next).map fun _ ↦ (next, seconds) := by
    rw [temporaryRuleFromRequest, hrule, ok_bind, requestSource,
      ok_bind, hrequest, ok_bind, hport, checkPort, ok_bind]
    exact ⟨_, rfl, rfl, rfl, rfl, rfl⟩
  obtain ⟨next, hprofile, hname, haction, hnextProcess, hnext⟩ := hnext
  rw [createFromRule, hseconds, ok_bind, hnext, checkRule, hprofile,
    hname, haction, hnextProcess]
  have hnameNe : ruleName r allow o.matchHost ≠ [] := fun h ↦ absurd (congrArg List.head? h) nofun
  have hactionNe : ruleAction r root allow ≠ [] := ruleAction_ne_nil r root allow
  constructor
  · intro hempty
    rw [if_pos (.inl hempty)]
    exact ⟨_, rfl⟩
  · intro hne
    refine ⟨next, seconds, haction, ?_⟩
    rw [if_neg]
    · rfl
    rintro (h | h | h | ⟨-, h⟩)
    · exact hne h
    · exact hnameNe h
    · exact hactionNe h
    · exact hprocess h

theorem sublist_temporaryInsert (store : Store) (rule : TemporaryRule)
    (seconds pid : Int) (clock : Clock) :
    ∃ stamped rest, (temporaryInsert store rule seconds pid clock).items =
      stamped :: rest ∧ rest.Sublist store.items ∧ stamped.action = rule.action := by
  refine ⟨_, _, rfl, ?_, rfl⟩
  have hpruned : (temporaryPrune store clock).items.Sublist store.items :=
    filter_sublist
  split
  · exact (dropLast_sublist _).trans hpruned
  · exact hpruned

/-! ## Permanent rules -/

section

variable {lib : Library} {env : Environment} {s : State}

/-- A mutation leaves temporary rules and given verdicts alone. -/
def Untouched (s after : State) : Prop :=
  Settled s.prompts after.prompts ∧ after.temporaryRules = s.temporaryRules

theorem untouched_applyConfig (lib : Library) (env : Environment) (s : State) (path : Bytes)
    (start : Bool) : Untouched s (applyConfig lib env s path start).2 := by
  have hcases := applyConfig_cases lib env s path start
  generalize applyConfig lib env s path start = r at hcases
  cases hcases with
  | unloaded => exact ⟨.refl _, rfl⟩
  | refused e config profile prompts _ _ hprompts =>
    obtain ⟨services, leaked, heq⟩ := rollBack_withdrawn env s start prompts
    rw [heq]
    exact ⟨hprompts, rfl⟩
  | adopted config profile prompts services _ _ _ hprompts =>
    refine ⟨hprompts, ?_⟩
    cases start <;> rfl

theorem untouched_persistConfigMutation {mutation : Mutation} {query : Query} {request : Bytes}
    {includeBackup : Bool} :
    Untouched s (persistConfigMutation lib env s mutation query request includeBackup).2 := by
  refine persistConfigMutation_inv (fun _ _ h ↦ h) (fun s' path h ↦ ?_) ⟨.refl _, rfl⟩
  have happly := untouched_applyConfig lib env s' path s'.running
  exact ⟨h.1.trans happly.1, happly.2.trans h.2⟩

theorem of_andThen_ok {α β : Type} {x : Except Error α} {rest : α → State → Except Error β × State}
    {b : β} {after : State} (h : andThen (x, s) rest = (.ok b, after)) :
    ∃ a, x = .ok a ∧ rest a s = (.ok b, after) := by
  cases x with
  | error e => cases h
  | ok a => exact ⟨a, rfl, h⟩

section

variable {mutation : Mutation} {query : Query} {request : Bytes} {includeBackup : Bool}

/-- A mutation that goes through and can be described reports success. -/
theorem Persists.ok (h : Persists lib env s mutation query request) :
    ∃ response after,
      persistConfigMutation lib env s mutation query request includeBackup =
        (.ok response, after) := by
  obtain ⟨hpath, old, document, disk, config, profile, text, hload, hmutate, hwritten, happlies,
    hquery⟩ := h
  rw [persistConfigMutation, if_neg hpath, hload, andThen, hmutate, andThen]
  have hreplaced := replaceDocument_cases lib env s old document
  generalize replaceDocument lib env s old document = r at hreplaced
  cases hreplaced with
  | unwritten e disk hwrite =>
    obtain ⟨backup, hwrite'⟩ := hwritten
    cases hwrite.symm.trans hwrite'
  | refused e disk after hwritten' hrefused =>
    cases hwritten.eq hwritten'
    exact absurd happlies (hrefused config profile)
  | applied backup disk config profile after hwritten' happlies' _ hconfig hprofile =>
    cases hwritten.eq hwritten'
    obtain ⟨rfl, rfl⟩ := happlies.eq happlies'
    rw [andThen, hconfig, hprofile, hquery]
    exact ⟨_, after, rfl⟩

/-- A mutation that reports success goes through and can be described; the file then has its
document. -/
theorem persists_of_ok {response : Response} {after : State}
    (h : persistConfigMutation lib env s mutation query request includeBackup =
      (.ok response, after)) :
    Persists lib env s mutation query request ∧ ∃ old document, onDisk lib s = .ok old ∧
      lib.mutate old s.activeProfile mutation request = .ok document ∧
      after.disk.lookup s.configPath = some document := by
  rw [persistConfigMutation] at h
  split at h
  · cases h
  next hpath =>
  obtain ⟨old, hload, h⟩ := of_andThen_ok h
  obtain ⟨document, hmutate, h⟩ := of_andThen_ok h
  have hreplaced := replaceDocument_cases lib env s old document
  generalize replaceDocument lib env s old document = r at hreplaced h
  obtain ⟨backup, hok, h⟩ := of_andThen_ok h
  obtain ⟨text, hquery, h⟩ := of_andThen_ok h
  cases h
  cases hreplaced with
  | unwritten | refused => cases hok
  | applied _ disk config profile _ hwritten happlies hdisk hconfig hprofile =>
    rw [hconfig, hprofile] at hquery
    refine ⟨⟨hpath, old, document, disk, config, profile, text, hload, hmutate, hwritten, happlies,
      hquery⟩, old, document, onDisk_of_loadConfig hload, hmutate, ?_⟩
    rw [hdisk, hwritten.lookup]

end

/-! ## Answers -/

/-- The prompt with its verdict. -/
def answered (o : ActionOptions) (p : Pending) : Pending :=
  { p with resolved := true, allow := o.allow }

/-- The state behind the resolution of a prompt. -/
def resolved (s : State) (o : ActionOptions) (p : Pending) : State :=
  { s with prompts := s.prompts.set (answered o p) }

variable {o : ActionOptions} {p : Pending}

theorem answered_mem (hp : pendingId s.prompts o.id = some p) :
    answered o p ∈ (resolved s o p).prompts.pending :=
  mem_map.2 ⟨p, mem_of_find?_eq_some hp, if_pos rfl⟩

theorem not_allOrNothing_error {e : Error} {after : State}
    (h : answered o p ∈ after.prompts.pending) : ¬AllOrNothing lib s o p (.error e, after) := by
  rintro ⟨-, hnone, -⟩
  cases hnone _ h rfl

/-- An answer behind the resolution of its prompt. -/
theorem rememberPrompt_allOrNothing_iff (lib : Library) (env : Environment)
    (hp : pendingId s.prompts o.id = some p) (hmin : 0 ≤ o.ttlSeconds)
    (hmax : o.ttlSeconds ≤ 86400) :
    AllOrNothing lib s o p (rememberPrompt lib env (resolved s o p) o p.snapshot o.allow) ↔
      o.scope = .once ∨ Remembers lib env s o p.snapshot.request := by
  have hanswered := answered_mem hp
  rw [rememberPrompt]
  by_cases honce : o.scope = .once
  · rw [if_pos honce]
    refine iff_of_true ⟨hanswered, ?_⟩ (.inl honce)
    rw [Stored, honce]
    trivial
  rw [if_neg honce, or_iff_right honce]
  by_cases hpid : o.scope = .untilQuit ∧ p.snapshot.request.processPid ≤ 0
  · rw [if_pos hpid]
    refine iff_of_false (not_allOrNothing_error hanswered) fun h ↦ ?_
    exact absurd (h.pid hpid.1) (not_lt.2 hpid.2)
  rw [if_neg hpid]
  have hpid' : o.scope = .untilQuit → 0 < p.snapshot.request.processPid := fun hscope ↦
    not_le.1 fun hle ↦ hpid ⟨hscope, hle⟩
  have hconfig : (resolved s o p).config = s.config := rfl
  rw [hconfig]
  cases hloaded : s.config with
  | none =>
    refine iff_of_false (not_allOrNothing_error hanswered) fun h ↦ ?_
    exact absurd h.loaded (by simp [hloaded])
  | some config =>
    rw [ruleRequestJson]
    by_cases hprocess : ruleProcess p.snapshot.request = []
    · simp only [if_pos hprocess]
      exact iff_of_false (not_allOrNothing_error hanswered) fun h ↦ h.process hprocess
    simp only [if_neg hprocess, andThen]
    by_cases hforever : o.scope = .forever
    · rw [if_pos hforever]
      rcases heq : persistConfigMutation lib env (resolved s o p) .createRule .rulesPersistence
        (appendValue (ruleRequest p.snapshot.request config.root o o.allow)) true
        with ⟨e | response, after⟩
      all_goals have huntouched := heq ▸ untouched_persistConfigMutation
      · have hstays := huntouched.1 _ hanswered rfl
        refine iff_of_false (not_allOrNothing_error hstays) fun h ↦ ?_
        obtain ⟨_, _, hok⟩ := Persists.ok (s := resolved s o p) (h.persists hforever config hloaded)
        cases heq.symm.trans hok
      · obtain ⟨hpersists, old, document, hold, hmutate, hafter⟩ := persists_of_ok heq
        refine iff_of_true ⟨huntouched.1 _ hanswered rfl, ?_⟩ ⟨hprocess, hpid', ?_, ?_, ?_⟩
        · rw [Stored, hforever]
          exact ⟨huntouched.2, config, old, document, hloaded, hold, carries_ruleAction _ _ _,
            hmutate, hafter⟩
        · rw [hloaded]
          rfl
        · exact fun hne ↦ absurd hforever hne
        · intro _ config' hconfig'
          cases hloaded.symm.trans hconfig'
          exact hpersists
    · rw [if_neg hforever, createTemporary]
      have hcreate := createFromRule_ruleRequest s.temporaryRules config.root o.allow
        (if o.scope = .untilQuit then p.snapshot.request.processPid else 0)
        p.snapshot.request.connId p.snapshot.request.target p.snapshot.request.targetHost env.clock
        hprocess hmin hmax
      have hstore : (resolved s o p).temporaryRules = s.temporaryRules := rfl
      by_cases hprofile : p.snapshot.request.profile = []
      · obtain ⟨e, he⟩ := hcreate.1 hprofile
        simp only [hstore, he, andThen]
        exact iff_of_false (not_allOrNothing_error hanswered) fun h ↦ h.profile hforever hprofile
      · obtain ⟨rule, seconds, haction, hok⟩ := hcreate.2 hprofile
        simp only [hstore, hok, andThen]
        obtain ⟨stamped, rest, hitems, hrest, hstamped⟩ :=
          sublist_temporaryInsert s.temporaryRules rule
          seconds (if o.scope = .untilQuit then p.snapshot.request.processPid else 0) env.clock
        have hcarries : Carries stamped.action o.allow := by
          rw [hstamped, haction]
          exact carries_ruleAction _ _ _
        refine iff_of_true ⟨hanswered, ?_⟩ ⟨hprocess, hpid', ?_, fun _ ↦ hprofile, ?_⟩
        · rw [Stored]
          cases hscope : o.scope with
          | once => exact absurd hscope honce
          | forever => exact absurd hscope hforever
          | session => exact ⟨rfl, stamped, rest, hscope ▸ hitems, hrest, hcarries⟩
          | untilQuit => exact ⟨rfl, stamped, rest, hscope ▸ hitems, hrest, hcarries⟩
        · rw [hloaded]
          rfl
        · exact fun hscope ↦ absurd hscope hforever

end

theorem takePrompt_cases (s : State) {o : ActionOptions} (hid : o.id ≠ []) :
    (pendingId s.prompts o.id = none ∧ ∃ e, takePrompt s o false = (.error e, s)) ∨
      ∃ p, pendingId s.prompts o.id = some p ∧
        takePrompt s o false = (.ok (p.snapshot, o.allow), resolved s o p) := by
  have htake : takePrompt s o false =
      ((resolve s.prompts o.id o.allow true).2.map fun snapshot ↦ (snapshot, o.allow),
        { s with prompts := (resolve s.prompts o.id o.allow true).1 }) := rfl
  rw [htake, resolve, if_neg hid]
  cases hp : pendingId s.prompts o.id with
  | none => exact .inl ⟨rfl, _, rfl⟩
  | some p => exact .inr ⟨p, rfl, rfl⟩

/-- A request that is about no prompt, and does nothing. -/
theorem whole_of_addressed_none {lib : Library} {env : Environment} {s : State} {payload : Bytes}
    (hnone : addressed s payload = none) (e : Error) :
    Whole lib s payload (.error e, s) ↔ ∀ o p, addressed s payload = some (o, p) →
      o.scope = .once ∨ Remembers lib env s o p.snapshot.request := by
  have hnever : ∀ o p, addressed s payload ≠ some (o, p) := by
    intro o p h
    rw [hnone] at h
    cases h
  exact iff_of_true ⟨fun _ ↦ ⟨e, rfl⟩, fun o p h ↦ absurd h (hnever o p)⟩
    fun o p h ↦ absurd h (hnever o p)

/-- **All or nothing**: an answer to a prompt is all or nothing exactly if it is for this once or
can be remembered. -/
theorem answer_whole_iff (lib : Library) (env : Environment) (s : State) (payload : Bytes) :
    Whole lib s payload (process lib env s (.resolvePrompt payload)) ↔
      ∀ o p, addressed s payload = some (o, p) →
        o.scope = .once ∨ Remembers lib env s o p.snapshot.request := by
  have hprocess : process lib env s (.resolvePrompt payload) =
      andThen (actionOptionsParse payload true, s) fun o s ↦
      andThen (takePrompt s o false) fun taken s ↦
      rememberPrompt lib env s o taken.1 taken.2 := rfl
  rw [hprocess]
  cases hparse : actionOptionsParse payload true with
  | error e => exact whole_of_addressed_none (by rw [addressed, hparse]) e
  | ok o =>
    obtain ⟨hid, hmin, hmax⟩ := actionOptionsParse_eq_ok hparse
    have hrequest : addressed s payload = (pendingId s.prompts o.id).map fun p ↦ (o, p) := by
      rw [addressed, hparse]
    rw [andThen]
    obtain ⟨hnone, e, htake⟩ | ⟨p, hp, htake⟩ := takePrompt_cases s hid
    · rw [htake, andThen]
      exact whole_of_addressed_none (by rw [hrequest, hnone]; rfl) e
    have haddressed : addressed s payload = some (o, p) := by
      rw [hrequest, hp]
      rfl
    have hiff := rememberPrompt_allOrNothing_iff lib env hp hmin hmax
    rw [htake, andThen, Whole, haddressed]
    constructor
    · rintro ⟨-, h⟩ o' p' heq
      cases heq
      exact hiff.1 (h o p rfl)
    · intro h
      refine ⟨fun hnone ↦ absurd hnone (Option.some_ne_none _), fun o' p' heq ↦ ?_⟩
      cases heq
      exact hiff.2 (h o p rfl)

/-! ## An answer without a process -/

/-- A prompt for a connection whose process has a name and no number. -/
def namedPrompt : Pending where
  handle := 0
  snapshot := ⟨bytes "prompt-1", { profile := bytes "home", processName := bytes "curl" }, 0, 0, 1⟩
  key := bytes "home|curl|||"
  resolved := false
  allow := false

def promptedState : State :=
  { editedState with prompts := { enabled := true, pending := [namedPrompt] } }

/-- A request to allow the connection until its process quits. -/
def untilQuitRequest : Bytes :=
  appendValue (.object [(bytes "id", .string (bytes "prompt-1")),
    (bytes "action", .string (bytes "allow")), (bytes "scope", .string (bytes "until_quit"))])

/-- The request is refused, and the connection is allowed all the same. -/
theorem untilQuit_resolves_prompt :
    ¬Whole homeLibrary promptedState untilQuitRequest
      (process homeLibrary fairWeather promptedState (.resolvePrompt untilQuitRequest)) := by
  have herror : (process homeLibrary fairWeather promptedState
      (.resolvePrompt untilQuitRequest)).1.isOk = false := by decide +kernel
  have hresolved : (process homeLibrary fairWeather promptedState
      (.resolvePrompt untilQuitRequest)).2.prompts.pending =
        [{ namedPrompt with resolved := true, allow := true }] := by decide +kernel
  have haddressed : ((addressed promptedState untilQuitRequest).map fun x ↦ x.2) =
      some namedPrompt := by decide +kernel
  rintro ⟨-, h⟩
  obtain ⟨⟨o, p⟩, hrequest, rfl⟩ := Option.map_eq_some_iff.1 haddressed
  have hwhole := h o _ hrequest
  generalize process homeLibrary fairWeather promptedState _ = r at herror hresolved hwhole
  obtain ⟨e | response, after⟩ := r
  · cases hwhole.2.1 { namedPrompt with resolved := true, allow := true }
      (hresolved ▸ mem_singleton_self _) rfl
  · cases herror

end ClambHook.Runtime
