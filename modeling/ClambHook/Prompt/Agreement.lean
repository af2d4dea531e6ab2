import Mathlib.Data.List.Nodup
import ClambHook.Lib.Machine
import ClambHook.Prompt.Model

/-!
# Agreement of the verdicts on a prompt

Callers that share a pending prompt are meant to return one verdict.  What can go wrong is in the
loop behind the timed wait: a wait that ends with `ETIMEDOUT` or with an error on a prompt that
somebody else has resolved overwrites the verdict with "deny".  The development says for which
interleavings the verdicts agree.

* `Moves` lists what a step can do to the prompts, the waiting calls and the returns;
  `step_moves` is the inversion lemma of `step`, and every invariant below is read off it.
* `WellFormed` is the bookkeeping: every waiting call's prompt is alive, and counts it.
* `Settled h v` says that the verdict on the prompt `h` is `v` for good, in the prompt itself and in
  all returns.
* `VerdictAgreement` collects what callers may rely on over a whole interleaving.
-/

namespace ClambHook.Prompt

open CString Config Machine List

/-! ## What a step does -/

/-- The effect of a step on the prompts, the calls and the returns. -/
inductive Moves (s : System) : Event → System → Prop
  /-- Nothing happens to them. -/
  | quiet (e : Event) (m : Manager) (hp : m.pending = s.manager.pending)
      (hn : m.nextHandle = s.manager.nextHandle) : Moves s e { s with manager := m }
  /-- A call joins an unresolved prompt. -/
  | join (e : Event) (p : Pending) (hp : p ∈ s.manager.pending) (hr : p.resolved = false) :
      Moves s e { s with
        manager := s.manager.set
          { p with snapshot := { p.snapshot with waiters := p.snapshot.waiters + 1 } }
        calls := ⟨s.nextCall, p.handle⟩ :: s.calls
        nextCall := s.nextCall + 1 }
  /-- A call opens a prompt. -/
  | opens (e : Event) (m : Manager) (p : Pending) (hf : s.freed = false)
      (hp : m.pending = p :: s.manager.pending) (hn : m.nextHandle = s.manager.nextHandle + 1)
      (hh : p.handle = s.manager.nextHandle) (hr : p.resolved = false)
      (hw : p.snapshot.waiters = 1) :
      Moves s e { s with
        manager := m
        calls := ⟨s.nextCall, p.handle⟩ :: s.calls
        nextCall := s.nextCall + 1 }
  /-- A call wakes up, finds its prompt resolved or resolves it, and returns. -/
  | leave (c : Call) (p p' : Pending) (status : WaitStatus) (m : Manager)
      (hc : s.promptOf c.id = some (c, p))
      (hp' : p' = p.afterWait s.manager.defaultAllow status) (hr : p'.resolved = true)
      (hn : m.nextHandle = s.manager.nextHandle)
      (hm : m.pending =
        let left := { p' with snapshot := { p'.snapshot with waiters := p'.snapshot.waiters - 1 } }
        if p'.snapshot.waiters - 1 = 0 then
          (s.manager.set left).pending.eraseP fun q ↦ q.handle = p'.handle
        else (s.manager.set left).pending) :
      Moves s (.wake c.id status) { s with
        manager := m
        calls := s.calls.eraseP fun d ↦ d.id = c.id
        returns := ⟨c.id, c.handle, p'.allow⟩ :: s.returns }
  /-- The user resolves a prompt. -/
  | verdict (e : Event) (p : Pending) (allow : Bool) (hp : p ∈ s.manager.pending)
      (hr : p.resolved = false) :
      Moves s e { s with manager := s.manager.set { p with resolved := true, allow := allow } }
  /-- Every unresolved prompt is denied. -/
  | deny (e : Event) (m : Manager) (destroying : Bool)
      (hp : m.pending = (resolveAll s.manager false).pending)
      (hn : m.nextHandle = s.manager.nextHandle) :
      Moves s e { s with manager := m, destroying := destroying }
  /-- The manager is freed. -/
  | free (e : Event) (m : Manager) (hw : ∀ p ∈ s.manager.pending, p.snapshot.waiters = 0)
      (hp : m.pending = []) (hn : m.nextHandle = s.manager.nextHandle) :
      Moves s e { s with manager := m, freed := true }

theorem recordSilent_frame (m : Manager) (r : Request) (allow : Bool) (now : Int)
    (fault : Option Fault) :
    (recordSilent m r allow now fault).pending = m.pending ∧
      (recordSilent m r allow now fault).nextHandle = m.nextHandle := by
  unfold recordSilent
  split
  · exact ⟨rfl, rfl⟩
  · dsimp only
    split <;> exact ⟨rfl, rfl⟩

variable {p : Pending}

/-- Both searches for a prompt look at unresolved prompts only. -/
theorem find_unresolved {l : List Pending} {f : Pending → Bool}
    (h : (l.find? fun p ↦ !p.resolved && f p) = some p) : p ∈ l ∧ p.resolved = false := by
  refine ⟨mem_of_find?_eq_some h, ?_⟩
  have hp := find?_some h
  simp only [Bool.and_eq_true, Bool.not_eq_eq_eq_not, Bool.not_true] at hp
  exact hp.1

variable {s : System} {c : Call}

theorem promptOf_eq_some {call : Nat}
    (h : s.promptOf call = some (c, p)) :
    c ∈ s.calls ∧ c.id = call ∧ p ∈ s.manager.pending ∧ p.handle = c.handle := by
  unfold System.promptOf at h
  simp only [Option.bind_eq_bind, Option.bind_eq_some_iff, Option.pure_def, Option.some.injEq,
    Prod.mk.injEq] at h
  obtain ⟨c', hc, p', hp, rfl, rfl⟩ := h
  exact ⟨mem_of_find?_eq_some hc, by simpa using find?_some hc,
    mem_of_find?_eq_some hp, by simpa using find?_some hp⟩

/-- A call that enters the manager returns at once, joins an unresolved prompt, or opens one. -/
theorem awaitEnter_moves (s : System) (e : Event) (r : Request) (now : Int)
    (fault : Option Fault) (hf : s.freed = false) :
    Moves s e (s.entered (awaitEnter s.manager r now fault)) := by
  unfold awaitEnter
  split
  · exact .quiet e _ rfl rfl
  split
  · have hs := recordSilent_frame s.manager r (s.manager.silentMode == bytes "allow") now fault
    exact .quiet e _ hs.1 hs.2
  split
  · exact .quiet e _ rfl rfl
  cases hk : pendingKey s.manager (promptKey r) with
  | some p =>
    have hp := find_unresolved hk
    exact .join e p hp.1 hp.2
  | none =>
    rcases fault with _ | _ | _ | _ | _
    · exact .opens e _ _ hf rfl rfl rfl rfl rfl
    all_goals exact .quiet e _ rfl rfl

/-- A call that wakes up returns, or waits again and changes nothing. -/
theorem awaitWake_moves (s : System) (c : Call) (p : Pending) (status : WaitStatus)
    (hc : s.promptOf c.id = some (c, p)) :
    Moves s (.wake c.id status) (s.woken c (awaitWake s.manager p status)) := by
  unfold awaitWake
  dsimp only
  split
  · rename_i hr
    split
    · rename_i h0
      exact .leave c p _ status _ hc rfl hr rfl (by rw [if_pos h0])
    · rename_i h0
      exact .leave c p _ status _ hc rfl hr rfl (by rw [if_neg h0])
  · exact .quiet _ _ rfl rfl

theorem resolve_moves (s : System) (e : Event) (id : Bytes) (allow copied : Bool) :
    Moves s e { s with manager := (resolve s.manager id allow copied).1 } := by
  unfold resolve
  split
  · exact .quiet e _ rfl rfl
  cases hid : pendingId s.manager id with
  | none => exact .quiet e _ rfl rfl
  | some p =>
    have hp := find_unresolved hid
    cases copied with
    | false => exact .quiet e _ rfl rfl
    | true => exact .verdict e p allow hp.1 hp.2

theorem configure_moves (s : System) (e : Event) (config : Option Table) :
    Moves s e { s with manager := (configure s.manager config).1 } := by
  unfold configure
  cases readSettings config with
  | error _ => exact .quiet e _ rfl rfl
  | ok _ => exact .deny e _ s.destroying rfl rfl

/-- The inversion lemma of `step`. -/
theorem step_moves (s : System) (e : Event) : Moves s e (step s e) := by
  cases e with
  | await r now fault =>
    simp only [step]
    split
    · exact .quiet _ s.manager rfl rfl
    · rename_i hf
      exact awaitEnter_moves s _ r now fault (by simpa using hf)
  | wake call status =>
    simp only [step]
    cases hc : s.promptOf call with
    | none => exact .quiet _ s.manager rfl rfl
    | some cp =>
      obtain ⟨c, p⟩ := cp
      obtain rfl := (promptOf_eq_some hc).2.1
      exact awaitWake_moves s c p status hc
  | resolve id allow copied => exact resolve_moves s _ id allow copied
  | configure config => exact configure_moves s _ config
  | cancelAll => exact .deny _ _ s.destroying rfl rfl
  | destroyBegin => exact .deny _ _ true rfl rfl
  | destroyEnd =>
    simp only [step]
    split
    · rename_i h
      exact .free _ _ h.2 rfl rfl
    · exact .quiet _ s.manager rfl rfl

/-! ## Writing to a prompt -/

variable {m : Manager}

theorem mem_set {q : Pending} (h : q ∈ (m.set p).pending) :
    q = p ∨ (q ∈ m.pending ∧ q.handle ≠ p.handle) := by
  obtain ⟨r, hr, rfl⟩ := mem_map.1 h
  by_cases hp : r.handle = p.handle
  · exact .inl (if_pos hp)
  · rw [if_neg hp]; exact .inr ⟨hr, hp⟩

theorem set_handles (m : Manager) (p : Pending) :
    (m.set p).pending.map (·.handle) = m.pending.map (·.handle) := by
  unfold Manager.set
  rw [map_map]
  refine map_congr_left fun q _ ↦ ?_
  by_cases hq : q.handle = p.handle
  · simp [hq]
  · simp [hq]

theorem afterWait_same (p : Pending) (d : Bool) (status : WaitStatus) :
    (p.afterWait d status).handle = p.handle ∧ (p.afterWait d status).snapshot = p.snapshot := by
  unfold Pending.afterWait
  split
  · exact ⟨rfl, rfl⟩
  · split <;> exact ⟨rfl, rfl⟩

variable {d : Bool} {status : WaitStatus}

/-- Behind a wait that ended by a signal or an interruption, a prompt is what it was. -/
theorem afterWait_of_woken
    (h : status = .signalled ∨ status = .interrupted) : p.afterWait d status = p := by
  rcases h with rfl | rfl <;> simp [Pending.afterWait]

/-- A wait that ends in any other way on a resolved prompt turns the verdict into "deny". -/
theorem afterWait_of_late (hr : p.resolved = true)
    (h : ¬(status = .signalled ∨ status = .interrupted)) :
    p.afterWait d status = { p with resolved := true, allow := false } := by
  unfold Pending.afterWait
  rw [if_neg (by simp [hr]), if_pos (not_or.1 h)]

/-- A wait that times out on an unresolved prompt gives it the configured verdict. -/
theorem afterWait_of_timedOut (hr : p.resolved = false) :
    p.afterWait d .timedOut = { p with resolved := true, allow := d } := by
  simp [Pending.afterWait, hr]

/-- Of what is left behind a returning call, every prompt is the one it returned from, or another
prompt that was there before. -/
theorem mem_left {m' : Manager} {q : Pending} {n : Nat}
    (hm : m'.pending = if n = 0 then (m.set p).pending.eraseP fun q ↦ q.handle = p.handle
      else (m.set p).pending) (h : q ∈ m'.pending) :
    q = p ∨ (q ∈ m.pending ∧ q.handle ≠ p.handle) := by
  rw [hm] at h
  split at h
  · exact mem_set (mem_of_mem_eraseP h)
  · exact mem_set h

/-! ## The verdict of a resolved prompt -/

/-- The verdict on the prompt `h` is `v`, in the prompt while it lives and in every return. -/
structure Settled (h : Nat) (v : Bool) (s : System) : Prop where
  below : h < s.manager.nextHandle
  prompt : ∀ p ∈ s.manager.pending, p.handle = h → p.resolved = true ∧ p.allow = v
  returned : ∀ r ∈ s.returns, r.handle = h → r.allow = v

/-- A timed wait on a prompt that has been resolved with "allow" ends by a signal or by an
interruption: not by the timeout, and not by an error. -/
def NoLateFailure (s : System) : Event → Prop
  | .wake call status =>
    match s.promptOf call with
    | some (_, p) =>
      p.resolved = true → p.allow = true → status = .signalled ∨ status = .interrupted
    | none => True
  | _ => True

/-- Under the guard, the loop body keeps the verdict of a resolved prompt. -/
theorem afterWait_allow
    (hc : s.promptOf c.id = some (c, p)) (hG : NoLateFailure s (.wake c.id status))
    (hr : p.resolved = true) (d : Bool) : (p.afterWait d status).allow = p.allow := by
  by_cases hs : status = .signalled ∨ status = .interrupted
  · rw [afterWait_of_woken hs]
  simp only [NoLateFailure, hc] at hG
  rw [afterWait_of_late hr hs]
  cases ha : p.allow with
  | false => rfl
  | true => exact absurd (hG hr ha) hs

variable {t : System} {e : Event}

/-- **A verdict is final**: no step that meets the guard changes the verdict on a resolved
prompt. -/
theorem Settled.moves {h : Nat} {v : Bool} (hs : Settled h v s)
    (hG : NoLateFailure s e) (hm : Moves s e t) : Settled h v t := by
  obtain ⟨below, prompt, returned⟩ := hs
  -- An unresolved prompt is not the one with the verdict.
  have other : ∀ p ∈ s.manager.pending, p.resolved = false → p.handle ≠ h := by
    intro p hp hr hh
    rw [(prompt p hp hh).1] at hr
    cases hr
  cases hm with
  | quiet _ m hp hn => exact ⟨hn ▸ below, hp ▸ prompt, returned⟩
  | join _ p hp hr | verdict _ p _ hp hr =>
    refine ⟨below, fun q hq hh ↦ ?_, returned⟩
    rcases mem_set hq with rfl | hq
    · exact absurd hh (other p hp hr)
    · exact prompt q hq.1 hh
  | opens _ m p _ hp hn hh hr hw =>
    refine ⟨by dsimp only; omega, fun q hq hq' ↦ ?_, returned⟩
    rw [hp] at hq
    rcases mem_cons.1 hq with rfl | hq
    · omega
    · exact prompt q hq hq'
  | leave c p p' status m hc hp' hr hn hm =>
    obtain ⟨-, -, hp, hh⟩ := promptOf_eq_some hc
    have hallow : c.handle = h → p'.allow = v := by
      intro hch
      obtain ⟨hres, hv⟩ := prompt p hp (hh.trans hch)
      rw [hp', afterWait_allow hc hG hres, hv]
    have hph : p'.handle = c.handle := by rw [hp', (afterWait_same ..).1, hh]
    refine ⟨hn ▸ below, fun q hq hqh ↦ ?_, fun r hr' hrh ↦ ?_⟩
    · rcases mem_left hm hq with rfl | hq
      · exact ⟨hr, hallow (hph.symm.trans hqh)⟩
      · exact prompt q hq.1 hqh
    · rcases mem_cons.1 hr' with rfl | hr'
      · exact hallow hrh
      · exact returned r hr' hrh
  | deny _ m d hp hn =>
    refine ⟨hn ▸ below, fun q hq hh ↦ ?_, returned⟩
    rw [hp] at hq
    obtain ⟨p, hp, rfl⟩ := mem_map.1 hq
    have hph : p.handle = h := by
      rw [← hh]
      split <;> rfl
    have hpr := prompt p hp hph
    rw [if_pos hpr.1]
    exact hpr
  | free _ m hw hp hn => exact ⟨hn ▸ below, fun q hq ↦ by simp [hp] at hq, returned⟩

theorem Settled.run {h : Nat} {v : Bool} {es : List Event} (hs : Settled h v s)
    (hG : Along step NoLateFailure s es) : Settled h v (run step s es) :=
  run_inv (fun s e hs hG ↦ hs.moves hG (step_moves s e)) es hs hG

theorem Moves.mem_returns {r : Return} (hm : Moves s e t)
    (h : r ∈ s.returns) : r ∈ t.returns := by
  cases hm with
  | leave => exact mem_cons_of_mem _ h
  | _ => exact h

/-- What has been returned stays returned. -/
theorem mem_returns_run {r : Return} (h : r ∈ s.returns) (es : List Event) :
    r ∈ (run step s es).returns :=
  run_inv_all (I := fun s ↦ r ∈ s.returns) (fun s e ↦ (step_moves s e).mem_returns) es h

/-! ## The bookkeeping of calls and prompts -/

/-- Every waiting call has a live prompt, which counts it. -/
structure WellFormed (s : System) : Prop where
  nodup : (s.manager.pending.map (·.handle)).Nodup
  below : ∀ p ∈ s.manager.pending, p.handle < s.manager.nextHandle
  ids : (s.calls.map (·.id)).Nodup
  idsBelow : ∀ c ∈ s.calls, c.id < s.nextCall
  waiting : ∀ c ∈ s.calls, c.handle ∈ s.manager.pending.map (·.handle)
  counted : ∀ p ∈ s.manager.pending,
    p.snapshot.waiters = s.calls.countP fun c ↦ c.handle = p.handle

theorem wellFormed_init : WellFormed {} :=
  ⟨nodup_nil, by simp, nodup_nil, by simp, by simp, by simp⟩

variable (hs : WellFormed s)

include hs

/-- Changing prompts without touching their handles and counts keeps the books. -/
theorem WellFormed.relabel (f : Pending → Pending) (hf : ∀ p, (f p).handle = p.handle)
    (hw : ∀ p ∈ s.manager.pending, (f p).snapshot.waiters = p.snapshot.waiters)
    (hp : m.pending = s.manager.pending.map f) (hn : m.nextHandle = s.manager.nextHandle) :
    WellFormed { s with manager := m, destroying := d } := by
  have hhandles : m.pending.map (·.handle) = s.manager.pending.map (·.handle) := by
    rw [hp, map_map]
    exact map_congr_left fun p _ ↦ hf p
  refine ⟨hhandles ▸ hs.nodup, fun q hq ↦ ?_, hs.ids, hs.idsBelow, hhandles ▸ hs.waiting,
    fun q hq ↦ ?_⟩
  all_goals
    rw [hp] at hq
    obtain ⟨p, hp, rfl⟩ := mem_map.1 hq
  · rw [hf, hn]
    exact hs.below p hp
  · rw [hf, hw p hp]
    exact hs.counted p hp

/-- The books behind a returning call: it was counted, and a prompt that counts nobody any more is
unlinked. -/
theorem WellFormed.leave (left : Pending) (hc : s.promptOf c.id = some (c, p))
    (hh : left.handle = p.handle) (hw : left.snapshot.waiters = p.snapshot.waiters - 1)
    (hn : m.nextHandle = s.manager.nextHandle)
    (hm : m.pending = if left.snapshot.waiters = 0 then
        (s.manager.set left).pending.eraseP fun q ↦ q.handle = left.handle
      else (s.manager.set left).pending) (rs : List Return) :
    WellFormed { s with
      manager := m
      calls := s.calls.eraseP fun d ↦ d.id = c.id
      returns := rs } := by
  obtain ⟨hcs, -, hp, hph⟩ := promptOf_eq_some hc
  obtain ⟨d, l₁, l₂, -, hd, hl, hl'⟩ := exists_of_eraseP (p := fun d : Call ↦ d.id = c.id) hcs
    (by simp)
  -- Identifiers are unique, so the call taken out is the one that returns.
  have hdc : d = c := inj_on_of_nodup_map hs.ids (by rw [hl]; simp) hcs (by simpa using hd)
  subst hdc
  have hcount : ∀ h, s.calls.countP (fun e ↦ e.handle = h) =
      (s.calls.eraseP fun e ↦ e.id = d.id).countP (fun e ↦ e.handle = h) +
        if d.handle = h then 1 else 0 := by
    intro h
    rw [hl', hl]
    simp only [countP_append, countP_cons, decide_eq_true_eq]
    omega
  have hhandles := set_handles s.manager left
  have hsub : ∀ e ∈ s.calls.eraseP fun e ↦ e.id = d.id, e ∈ s.calls :=
    fun e he ↦ mem_of_mem_eraseP he
  have hcounted : ∀ q ∈ (s.manager.set left).pending, q.snapshot.waiters =
      (s.calls.eraseP fun e ↦ e.id = d.id).countP fun e ↦ e.handle = q.handle := by
    intro q hq
    rcases mem_set hq with rfl | ⟨hq, hne⟩
    · have h := hcount q.handle
      rw [hh, ← hs.counted p hp, if_pos hph.symm] at h
      rw [hw, hh]
      omega
    · have h := hcount q.handle
      rw [← hs.counted q hq, if_neg (by rw [← hph, ← hh]; exact hne.symm)] at h
      exact h
  have hbelow : ∀ q ∈ m.pending, q.handle < m.nextHandle := by
    intro q hq
    rw [hn]
    rcases mem_left hm hq with rfl | hq
    · exact hh ▸ hs.below p hp
    · exact hs.below q hq.1
  have hids : ((s.calls.eraseP fun e ↦ e.id = d.id).map (·.id)).Nodup :=
    hs.ids.sublist (eraseP_sublist.map _)
  have hidsBelow := fun e he ↦ hs.idsBelow e (hsub e he)
  have hkept : m.pending.Sublist (s.manager.set left).pending := by
    rw [hm]
    split
    · exact eraseP_sublist
    · exact .refl _
  refine ⟨(hhandles ▸ hs.nodup).sublist (hkept.map _), hbelow, hids, hidsBelow, fun e he ↦ ?_,
    fun q hq ↦ hcounted q (hkept.mem hq)⟩
  obtain ⟨q, hq, hqe⟩ := mem_map.1 (hhandles ▸ hs.waiting e (hsub e he))
  refine mem_map.2 ⟨q, ?_, hqe⟩
  rw [hm]
  split
  · rename_i h0
    -- No other call waits on the unlinked prompt: it would still be counted.
    have hne : e.handle ≠ left.handle := by
      intro heq
      have hmem : left ∈ (s.manager.set left).pending :=
        mem_map.2 ⟨p, hp, if_pos hh.symm⟩
      have hzero := hcounted left hmem
      rw [h0, eq_comm, countP_eq_zero] at hzero
      exact hzero e he (by simpa using heq)
    exact (mem_eraseP_of_neg (by simpa [hqe] using hne)).2 hq
  · exact hq

/-- The next call has an identifier of its own. -/
theorem WellFormed.newCall (h : Nat) :
    ((⟨s.nextCall, h⟩ :: s.calls : List Call).map (·.id)).Nodup ∧
      ∀ c ∈ (⟨s.nextCall, h⟩ :: s.calls : List Call), c.id < s.nextCall + 1 := by
  constructor
  · rw [map_cons, nodup_cons]
    refine ⟨fun h ↦ ?_, hs.ids⟩
    obtain ⟨c, hc, hid⟩ := mem_map.1 h
    exact absurd (hs.idsBelow c hc) (by simp [hid])
  · intro c hc
    rcases mem_cons.1 hc with rfl | hc
    · exact Nat.lt_succ_self _
    · exact Nat.lt_succ_of_lt (hs.idsBelow c hc)

theorem WellFormed.moves (hm : Moves s e t) :
    WellFormed t := by
  cases hm with
  | quiet _ m hp hn =>
    exact ⟨hp ▸ hs.nodup, hp ▸ hn ▸ hs.below, hs.ids, hs.idsBelow, hp ▸ hs.waiting,
      hp ▸ hs.counted⟩
  | join _ p hp hr =>
    refine ⟨?_, fun q hq ↦ ?_, (hs.newCall p.handle).1, (hs.newCall p.handle).2, fun c hc ↦ ?_,
      fun q hq ↦ ?_⟩
    · rw [set_handles]; exact hs.nodup
    · rcases mem_set hq with rfl | hq
      · exact hs.below p hp
      · exact hs.below q hq.1
    · rw [set_handles]
      rcases mem_cons.1 hc with rfl | hc
      · exact mem_map_of_mem hp
      · exact hs.waiting c hc
    · rw [countP_cons]
      rcases mem_set hq with rfl | ⟨hq, hne⟩
      · simp [hs.counted p hp]
      · have hne : p.handle ≠ q.handle := fun h ↦ hne h.symm
        simp [hs.counted q hq, hne]
  | opens _ m p _ hp hn hh hr hw =>
    have hfresh : ∀ q ∈ s.manager.pending, q.handle ≠ p.handle := by
      intro q hq h
      have := hs.below q hq
      omega
    refine ⟨?_, fun q hq ↦ ?_, (hs.newCall p.handle).1, (hs.newCall p.handle).2, fun c hc ↦ ?_,
      fun q hq ↦ ?_⟩
    · rw [hp, map_cons, nodup_cons]
      refine ⟨fun h ↦ ?_, hs.nodup⟩
      obtain ⟨q, hq, hqp⟩ := mem_map.1 h
      exact hfresh q hq hqp
    · rw [hp] at hq
      rw [hn]
      rcases mem_cons.1 hq with rfl | hq
      · omega
      · exact Nat.lt_succ_of_lt (hs.below q hq)
    · rw [hp, map_cons]
      rcases mem_cons.1 hc with rfl | hc
      · exact mem_cons_self
      · exact mem_cons_of_mem _ (hs.waiting c hc)
    · rw [hp] at hq
      rw [countP_cons]
      rcases mem_cons.1 hq with rfl | hq
      · -- Nobody can have waited on a prompt that was not there.
        have hnone : s.calls.countP (fun c ↦ c.handle = q.handle) = 0 := by
          refine countP_eq_zero.2 fun c hc h ↦ ?_
          obtain ⟨q', hq', hqc⟩ := mem_map.1 (hs.waiting c hc)
          exact hfresh q' hq' (hqc.trans (by simpa using h))
        simp [hnone, hw]
      · have hne : p.handle ≠ q.handle := fun h ↦ hfresh q hq h.symm
        simp [hs.counted q hq, hne]
  | leave c p p' status m hc hp' hr hn hm =>
    obtain ⟨hh, hw⟩ := afterWait_same p s.manager.defaultAllow status
    rw [← hp'] at hh hw
    exact hs.leave
      { p' with snapshot := { p'.snapshot with waiters := p'.snapshot.waiters - 1 } }
      hc hh (by rw [hw]) hn hm _
  | verdict _ p allow hp hr =>
    refine hs.relabel
      (fun q ↦ if q.handle = p.handle then { p with resolved := true, allow := allow } else q)
      (fun q ↦ ?_) (fun q hq ↦ ?_) rfl rfl
    · split
      · rename_i h; exact h.symm
      · rfl
    · split
      · rename_i h
        rw [inj_on_of_nodup_map hs.nodup hp hq h.symm]
      · rfl
  | deny _ m d hp hn =>
    refine hs.relabel _ (fun q ↦ ?_) (fun q _ ↦ ?_) hp hn
    all_goals split <;> rfl
  | free _ m hw hp hn =>
    -- A waiting call would be counted by its prompt.
    have hcalls : s.calls = [] := by
      refine eq_nil_iff_forall_not_mem.2 fun c hc ↦ ?_
      obtain ⟨p, hp, hph⟩ := mem_map.1 (hs.waiting c hc)
      have hzero := hs.counted p hp
      rw [hw p hp, eq_comm, countP_eq_zero] at hzero
      exact hzero c hc (by simpa using hph.symm)
    refine ⟨by simp [hp], by simp [hp], hs.ids, hs.idsBelow, ?_, by simp [hp]⟩
    simp [hcalls]

omit hs

theorem wellFormed_run (es : List Event) : WellFormed (run step {} es) :=
  run_inv_all (fun s e hs ↦ hs.moves (step_moves s e)) es wellFormed_init

/-- A waiting call always finds its prompt. -/
theorem WellFormed.promptOf (hs : WellFormed s) (hc : c ∈ s.calls) :
    ∃ p, s.promptOf c.id = some (c, p) := by
  have hfind : s.calls.find? (fun d ↦ d.id = c.id) = some c := by
    cases hf : s.calls.find? fun d ↦ d.id = c.id with
    | none => exact absurd (find?_eq_none.1 hf c hc) (by simp)
    | some d =>
      have hd : d.id = c.id := by simpa using find?_some hf
      rw [inj_on_of_nodup_map hs.ids (mem_of_find?_eq_some hf) hc hd]
  obtain ⟨q, hq, hqc⟩ := mem_map.1 (hs.waiting c hc)
  cases hf : s.manager.pending.find? fun p ↦ p.handle = c.handle with
  | none => exact absurd (find?_eq_none.1 hf q hq) (by simp [hqc])
  | some p => exact ⟨p, by simp [System.promptOf, hfind, hf]⟩

/-! ## Agreement -/

/-- What callers rely on over an interleaving, from a fresh manager on. -/
structure VerdictAgreement (es : List Event) : Prop where
  /-- All calls on one prompt return one verdict. -/
  agree : ∀ r₁ ∈ (run step {} es).returns, ∀ r₂ ∈ (run step {} es).returns,
    r₁.handle = r₂.handle → r₁.allow = r₂.allow
  /-- The verdict of a resolved prompt never changes. -/
  final : ∀ pre post, es = pre ++ post → ∀ p ∈ (run step {} pre).manager.pending,
    p.resolved = true → Settled p.handle p.allow (run step {} es)
  /-- The answer of a `ch_prompt_manager_resolve` that succeeded is the verdict. -/
  user : ∀ pre id allow copied post snapshot, es = pre ++ .resolve id allow copied :: post →
    (resolve (run step {} pre).manager id allow copied).2 = .ok snapshot →
    ∃ p ∈ (run step {} pre).manager.pending, p.snapshot = snapshot ∧
      Settled p.handle allow (run step {} es)
  /-- Where the timeout comes first, the default configured at that time is the verdict. -/
  timeout : ∀ pre call post c p, es = pre ++ .wake call .timedOut :: post →
    (run step {} pre).promptOf call = some (c, p) → p.resolved = false →
    Settled p.handle (run step {} pre).manager.defaultAllow (run step {} es)
  /-- A call still waiting on a resolved prompt returns the verdict when it is woken. -/
  woken : ∀ c ∈ (run step {} es).calls, ∃ p, (run step {} es).promptOf c.id = some (c, p) ∧
    (p.resolved = true →
      ⟨c.id, c.handle, p.allow⟩ ∈ (step (run step {} es) (.wake c.id .signalled)).returns)

/-- Every return is a verdict for good. -/
def Agreed (s : System) : Prop :=
  ∀ r ∈ s.returns, Settled r.handle r.allow s

theorem Agreed.moves (hw : WellFormed s) (hs : Agreed s)
    (hG : NoLateFailure s e) (hm : Moves s e t) : Agreed t := by
  intro r hr
  by_cases hold : r ∈ s.returns
  · exact (hs r hold).moves hG hm
  cases hm with
  | leave c p p' status m hc hp' hres hn hm =>
    rcases mem_cons.1 hr with rfl | hr
    · obtain ⟨-, -, hp, hh⟩ := promptOf_eq_some hc
      have hph : p'.handle = c.handle := by rw [hp', (afterWait_same ..).1, hh]
      refine ⟨by rw [hn, ← hh]; exact hw.below p hp, fun q hq hqh ↦ ?_, fun r' hr' hrh ↦ ?_⟩
      · rcases mem_left hm hq with rfl | hq
        · exact ⟨hres, rfl⟩
        · exact absurd (hqh.trans hph.symm) hq.2
      · rcases mem_cons.1 hr' with rfl | hr'
        · rfl
        · -- An earlier return has fixed the verdict that this call found.
          obtain ⟨hpr, hpa⟩ := (hs r' hr').prompt p hp (hh.trans hrh.symm)
          rw [hp', afterWait_allow hc hG hpr, hpa]
    · exact absurd hr hold
  | _ => exact absurd hr hold

theorem agreed_run {es : List Event} (hG : Along step NoLateFailure {} es) :
    Agreed (run step {} es) :=
  run_inv₂ (fun s e hs ↦ hs.moves (step_moves s e))
    (fun s e hw hs hG ↦ hs.moves hw hG (step_moves s e)) es wellFormed_init
    (fun _ h ↦ by simp at h) hG

/-- A resolved prompt carries the verdict of all its calls. -/
theorem Agreed.settled (hs : Agreed s) (hw : WellFormed s)
    (hp : p ∈ s.manager.pending) (hr : p.resolved = true) : Settled p.handle p.allow s := by
  refine ⟨hw.below p hp, fun q hq hqp ↦ ?_, fun r hr' hrp ↦ ?_⟩
  · rw [inj_on_of_nodup_map hw.nodup hq hp hqp]
    exact ⟨hr, rfl⟩
  · exact (((hs r hr').prompt p hp hrp.symm).2).symm

theorem resolve_eq_ok {id : Bytes} {allow copied : Bool} {snapshot : Snapshot}
    (h : (resolve m id allow copied).2 = .ok snapshot) :
    ∃ p ∈ m.pending, p.snapshot = snapshot ∧
      (resolve m id allow copied).1 = m.set { p with resolved := true, allow := allow } := by
  unfold resolve at h ⊢
  split at h
  · cases h
  rename_i hid
  rw [if_neg hid]
  cases hp : pendingId m id with
  | none => rw [hp] at h; cases h
  | some p =>
    rw [hp] at h
    cases copied with
    | false => cases h
    | true =>
      obtain rfl : p.snapshot = snapshot := by simpa using h
      exact ⟨p, (find_unresolved hp).1, rfl, rfl⟩

/-- A call that is woken on a resolved prompt returns the prompt's verdict. -/
theorem mem_returns_signalled (hc : s.promptOf c.id = some (c, p)) (hr : p.resolved = true) :
    ⟨c.id, c.handle, p.allow⟩ ∈ (step s (.wake c.id .signalled)).returns := by
  have hp : p.afterWait s.manager.defaultAllow .signalled = p := afterWait_of_woken (.inl rfl)
  simp only [step, hc, awaitWake, hp, hr, if_true]
  split <;> exact mem_cons_self

/-- A wait that ends neither by a signal nor by an interruption makes its call return. -/
theorem mem_returns_failed
    (hc : s.promptOf c.id = some (c, p)) (h : ¬(status = .signalled ∨ status = .interrupted)) :
    ⟨c.id, c.handle, (p.afterWait s.manager.defaultAllow status).allow⟩ ∈
      (step s (.wake c.id status)).returns := by
  have hp : (p.afterWait s.manager.defaultAllow status).resolved = true := by
    unfold Pending.afterWait
    split
    · rfl
    · rw [if_pos (not_or.1 h)]
  simp only [step, hc, awaitWake, hp, if_true]
  split <;> exact mem_cons_self

/-- **Verdicts agree exactly when no wait fails late**: over any interleaving, callers get what
they rely on iff no timed wait on a prompt that has been resolved with "allow" ends by the timeout
or by an error. -/
theorem verdictAgreement_iff (es : List Event) :
    VerdictAgreement es ↔ Along step NoLateFailure {} es := by
  constructor
  · intro h
    refine (along_iff es).2 fun pre e post hes ↦ ?_
    cases e with
    | wake call status =>
      simp only [NoLateFailure]
      cases hc : (run step {} pre).promptOf call with
      | none => trivial
      | some cp =>
        obtain ⟨c, p⟩ := cp
        obtain ⟨-, rfl, hp, hh⟩ := promptOf_eq_some hc
        intro hr ha
        by_contra hlate
        -- The late failure makes its call return "deny", against the verdict that stood before.
        have hret := mem_returns_run (mem_returns_failed hc hlate) post
        rw [afterWait_of_late hr hlate, ← run_cons, ← run_append, ← hes] at hret
        have := (h.final pre _ hes p hp hr).returned _ hret hh.symm
        rw [ha] at this
        cases this
    | _ => trivial
  · intro hG
    have split : ∀ {pre post : List Event}, es = pre ++ post →
        Agreed (run step {} pre) ∧ Along step NoLateFailure (run step {} pre) post ∧
          run step {} es = run step (run step {} pre) post := by
      rintro pre post rfl
      obtain ⟨hpre, hpost⟩ := (along_append pre post).1 hG
      exact ⟨agreed_run hpre, hpost, run_append pre post⟩
    refine ⟨?_, ?_, ?_, ?_, ?_⟩
    · intro r₁ h₁ r₂ h₂ heq
      exact (((agreed_run hG) r₁ h₁).returned r₂ h₂ heq.symm).symm
    · intro pre post hes p hp hr
      obtain ⟨hA, hpost, hrun⟩ := split hes
      exact hrun ▸ (hA.settled (wellFormed_run pre) hp hr).run hpost
    · intro pre id allow copied post snapshot hes hok
      obtain ⟨hA, ⟨hguard, hpost⟩, hrun⟩ := split hes
      obtain ⟨p, hp, hsnap, hset⟩ := resolve_eq_ok hok
      refine ⟨p, hp, hsnap, hrun ▸ ?_⟩
      have hw := wellFormed_run pre
      have hmem : { p with resolved := true, allow := allow } ∈
          (step (run step {} pre) (.resolve id allow copied)).manager.pending := by
        simp only [step, hset]
        exact mem_map.2 ⟨p, hp, if_pos rfl⟩
      have hA' := hA.moves hw hguard (step_moves _ _)
      exact (hA'.settled (hw.moves (step_moves _ _)) hmem rfl).run hpost
    · intro pre call post c p hes hc hr
      obtain ⟨hA, ⟨hguard, hpost⟩, hrun⟩ := split hes
      obtain ⟨-, rfl, hp, hh⟩ := promptOf_eq_some hc
      have hlate : ¬(WaitStatus.timedOut = .signalled ∨ WaitStatus.timedOut = .interrupted) := by
        simp
      have hA' := hA.moves (wellFormed_run pre) hguard (step_moves _ _)
      have hset := hA' _ (mem_returns_failed hc hlate)
      rw [afterWait_of_timedOut hr] at hset
      exact hrun ▸ hh ▸ hset.run hpost
    · intro c hc
      obtain ⟨p, hp⟩ := (wellFormed_run es).promptOf hc
      exact ⟨p, hp, mem_returns_signalled hp⟩

/-- Two calls share a prompt whose default is "allow", and both waits time out. -/
def lateTimeout : List Event :=
  [.configure (some [(bytes "prompt", .table
      [(bytes "enabled", .boolean true), (bytes "default_allow", .boolean true)])]),
    .await {} 0 none, .await {} 0 none, .wake 0 .timedOut, .wake 1 .timedOut]

/-- The first of the two calls returns the default, the second one returns "deny". -/
theorem lateTimeout_disagrees :
    (run step {} lateTimeout).returns = [⟨1, 0, false⟩, ⟨0, 0, true⟩] ∧
      ¬VerdictAgreement lateTimeout := by
  have h : (run step {} lateTimeout).returns = [⟨1, 0, false⟩, ⟨0, 0, true⟩] := by decide
  refine ⟨h, fun hv ↦ ?_⟩
  have := hv.agree ⟨1, 0, false⟩ (by simp [h]) ⟨0, 0, true⟩ (by simp [h]) rfl
  cases this

end ClambHook.Prompt
