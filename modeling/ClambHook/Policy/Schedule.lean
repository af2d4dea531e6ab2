import ClambHook.Policy.Group
import ClambHook.Lib.Machine

/-!
# The schedule of the probes

A thread of the policy manager probes every group that selects by health when it starts, and from
then on once in the group's interval.  `ch_policy_thread_main` adds the interval to the monotonic
clock and, to wait, the time that is left to the real-time clock.  Nothing bounds the two sums.
They are stored in an `int64_t`, and here they wrap around.
-/

namespace ClambHook.Policy.Schedule

open Machine List

def int64Max : Int := 2 ^ 63 - 1

/-- A number as an `int64_t` stores it. -/
def int64 (i : Int) : Int := Int.bmod i (2 ^ 64)

/-- A reading of a clock, or an interval that `validate_duration_field` accepts. -/
abbrev Time := { t : Int // 0 ≤ t ∧ t ≤ int64Max }

/-- The part of a `ch_policy_group_state` that the thread reads, and when the group was last
probed. -/
structure Timed where
  type : GroupType
  interval : Time
  next : Int := 0
  probed : Option Time := none

/-- The group uses health, and its time has come. -/
def Timed.Due (g : Timed) (now : Time) : Prop :=
  g.type ≠ .select ∧ g.next ≤ now

instance (g : Timed) (now : Time) : Decidable (g.Due now) :=
  inferInstanceAs (Decidable (_ ∧ _))

def Timed.probe (g : Timed) (now : Time) : Timed :=
  { g with next := int64 (now + g.interval), probed := some now }

/-- `ch_policy_manager_start`. -/
def managerStart (s : List Timed) : List Timed :=
  s.map fun g ↦ { g with next := 0, probed := none }

/-- The groups after a turn of the loop, which probes the first group that is due. -/
def probeFirst (now : Time) : List Timed → List Timed
  | [] => []
  | g :: s => if g.Due now then g.probe now :: s else g :: probeFirst now s

/-- The time that a turn of the loop finds to wait for, if no group is due. -/
def scan (now : Time) : List Timed → Int → Option Int
  | [], next => some next
  | g :: s, next =>
    if g.Due now then none
    else scan now s (if g.type ≠ .select ∧ g.next < next then g.next else next)

/-- The time that the thread waits for.  It does not wait for `INT64_MAX`. -/
def target (s : List Timed) (now : Time) : Option Int :=
  (scan now s int64Max).filter (· ≠ int64Max)

/-- The time that `ch_policy_wait_until_locked` has in its deadline. -/
def targetReal (target : Int) (mono real : Time) : Int :=
  int64 (real + max (int64 (target - mono)) 0)

/-- The seconds and the nanoseconds of the deadline. -/
def deadline (target : Int) (mono real : Time) : Int × Int :=
  ((targetReal target mono real).tdiv 1000000000, (targetReal target mono real).tmod 1000000000)

inductive Event where
  /-- A turn of the loop, with the clock that it starts at and the clocks that a wait reads. -/
  | turn (now mono real : Time)
  /-- The end of `ch_policy_refresh_index`, for the thread or for a request. -/
  | refreshed (index : Nat) (now : Time)

def step (s : List Timed) : Event → List Timed
  | .turn now _ _ => probeFirst now s
  | .refreshed index now => s.modify index fun g ↦ if g.type = .select then g else g.probe now

/-! ## What the schedule should do -/

/-- The group is not due before its interval is over, or the largest time is reached. -/
def Timed.Rests (g : Timed) : Prop :=
  ∀ t ∈ g.probed, ∀ now, g.Due now → min (t + g.interval : Int) int64Max ≤ now

/-- A deadline that is a valid time, and not before `now`. -/
def ValidDeadline (d : Int × Int) (now : Time) : Prop :=
  0 ≤ d.2 ∧ d.2 < 1000000000 ∧ now ≤ d.1 * 1000000000 + d.2

/-- Behind the event no group is due too early, and a deadline that it computes is valid. -/
def Sound (s : List Timed) (e : Event) : Prop :=
  (∀ g ∈ step s e, g.Rests) ∧
    ∀ now mono real, e = .turn now mono real → ∀ t ∈ target s now,
      ValidDeadline (deadline t mono real) real

/-- The sums that the event computes are numbers of 64 bits. -/
def Fits (s : List Timed) : Event → Prop
  | .turn now mono real =>
    (∀ g ∈ s.find? (·.Due now), (now + g.interval : Int) ≤ int64Max) ∧
      ∀ t ∈ target s now, real + (t - mono) ≤ int64Max
  | .refreshed index now =>
    ∀ g ∈ s[index]?, g.type ≠ .select → (now + g.interval : Int) ≤ int64Max

variable {s : List Timed} {g : Timed} {now mono real : Time}

theorem int64_of_le {i : Int} (hmin : -int64Max ≤ i) (hmax : i ≤ int64Max) : int64 i = i := by
  rw [int64Max] at hmin hmax
  exact Int.bmod_eq_of_le (by omega) (by omega)

theorem int64_of_gt {i : Int} (hmin : int64Max < i) (hmax : i ≤ 2 * int64Max) : int64 i < 0 := by
  rw [int64Max] at hmin hmax
  rw [int64, Int.bmod_def]
  split <;> omega

theorem probe_rests_iff (hg : g.type ≠ .select) :
    (g.probe now).Rests ↔ (now + g.interval : Int) ≤ int64Max := by
  have hnow := now.2
  have hinterval := g.interval.2
  constructor
  · intro h
    by_contra hlarge
    have hzero : min (now + g.interval : Int) int64Max ≤ 0 :=
      h now rfl ⟨0, by decide⟩ ⟨hg, (int64_of_gt (not_le.1 hlarge) (by omega)).le⟩
    rw [min_eq_right (not_le.1 hlarge).le] at hzero
    exact absurd hzero (by decide)
  · rintro h t ht later ⟨-, hdue⟩
    cases ht
    rw [Timed.probe, int64_of_le (by omega) h] at hdue
    exact (min_le_left _ _).trans hdue

/-- A group that is probed rests exactly if the sum fits, and the others are as they were. -/
theorem probeFirst_rests_iff (hs : ∀ g ∈ s, g.Rests) :
    (∀ g ∈ probeFirst now s, g.Rests) ↔
      ∀ g ∈ s.find? (·.Due now), (now + g.interval : Int) ≤ int64Max := by
  induction s with
  | nil => simp [probeFirst]
  | cons g s ih =>
    rw [forall_mem_cons] at hs
    rw [probeFirst, find?_cons]
    by_cases hdue : g.Due now
    · simpa [hdue, probe_rests_iff hdue.1] using fun _ ↦ hs.2
    · simpa [hdue, hs.1] using ih hs.2

theorem modify_rests_iff (hs : ∀ g ∈ s, g.Rests) (index : Nat) :
    (∀ g ∈ s.modify index fun g ↦ if g.type = .select then g else g.probe now, g.Rests) ↔
      ∀ g ∈ s[index]?, g.type ≠ .select → (now + g.interval : Int) ≤ int64Max := by
  induction s generalizing index with
  | nil => simp
  | cons g s ih =>
    rw [forall_mem_cons] at hs
    cases index with
    | zero =>
      by_cases hg : g.type = .select
      · simpa [hg] using hs
      · simpa [hg, probe_rests_iff hg] using fun _ ↦ hs.2
    | succ index => simpa [hs.1] using ih hs.2 index

theorem scan_bounds {next t : Int} (h : scan now s next = some t) (hnext : now ≤ next) :
    now ≤ t ∧ t ≤ next := by
  induction s generalizing next with
  | nil =>
    cases h
    exact ⟨hnext, le_rfl⟩
  | cons g s ih =>
    rw [scan] at h
    split at h
    · cases h
    rename_i hdue
    split at h
    · rename_i hless
      have hnow := not_le.1 fun hle ↦ hdue ⟨hless.1, hle⟩
      exact (ih h hnow.le).imp_right (·.trans hless.2.le)
    · exact ih h hnext

/-- The deadline for a time is valid exactly if that time, on the real-time clock, fits. -/
theorem validDeadline_iff {t : Int} (ht : t ∈ target s now) :
    ValidDeadline (deadline t mono real) real ↔ real + (t - mono) ≤ int64Max := by
  have hnow := now.2
  have hmono := mono.2
  have hreal := real.2
  obtain ⟨hmin, hmax⟩ := scan_bounds (Option.filter_eq_some_iff.1 ht).1 hnow.2
  have hsplit := Int.tdiv_mul_add_tmod (targetReal t mono real) 1000000000
  simp only [ValidDeadline, deadline, hsplit]
  rw [targetReal, int64_of_le (i := t - mono) (by omega) (by omega)]
  by_cases hfits : real + max (t - mono) 0 ≤ int64Max
  · rw [int64_of_le (by omega) hfits]
    have hlt := Int.tmod_lt_of_pos (real + max (t - mono) 0) (b := 1000000000) (by decide)
    have hnonneg := Int.tmod_nonneg 1000000000 (a := real + max (t - mono) 0) (by omega)
    exact iff_of_true ⟨hnonneg, hlt, by omega⟩ (by omega)
  · have hneg := int64_of_gt (not_le.1 hfits) (by omega)
    exact iff_of_false (fun h ↦ by omega) (by omega)

theorem sound_iff_fits (hs : ∀ g ∈ s, g.Rests) (e : Event) : Sound s e ↔ Fits s e := by
  cases e with
  | turn now mono real =>
    refine and_congr (probeFirst_rests_iff hs) ⟨fun h t ht ↦ ?_, ?_⟩
    · exact (validDeadline_iff ht).1 (h now mono real rfl t ht)
    · rintro h _ _ _ ⟨⟩ t ht
      exact (validDeadline_iff ht).2 (h t ht)
  | refreshed index now =>
    refine Iff.trans (and_iff_left ?_) (modify_rests_iff hs index)
    rintro _ _ _ ⟨⟩

/-- **Schedule of the probes**: behind every event of a run no group is due before its interval is
over and every deadline is valid, exactly if every sum of the run is a number of 64 bits. -/
theorem schedule_sound_iff (s : List Timed) (events : List Event) :
    Along step Sound (managerStart s) events ↔ Along step Fits (managerStart s) events := by
  have hstart : ∀ g ∈ managerStart s, g.Rests := by
    intro g hg t ht
    obtain ⟨g, -, rfl⟩ := mem_map.1 hg
    cases ht
  revert hstart
  generalize managerStart s = s
  induction events generalizing s with
  | nil => exact fun _ ↦ Iff.rfl
  | cons e events ih =>
    intro hs
    rw [along_cons, along_cons, ← sound_iff_fits hs e]
    exact and_congr_right fun hsound ↦ ih _ hsound.1

/-- A group that should be probed once in 292 years. -/
def rareGroup : Timed where
  type := .urlTest
  interval := ⟨int64Max, by decide⟩

def turnAt (now : Time) : Event := .turn now now now

/-- The group is probed at the time 1, and again at the time 2. -/
theorem rareGroup_probed_twice :
    (run step (managerStart [rareGroup]) [turnAt ⟨1, by decide⟩, turnAt ⟨2, by decide⟩]).map
        Timed.probed = [some ⟨2, by decide⟩] ∧
      ¬ Along step Sound (managerStart [rareGroup]) [turnAt ⟨1, by decide⟩] := by
  refine ⟨by decide, fun h ↦ ?_⟩
  have hearly := h.1.1 _ (mem_singleton.2 rfl) _ rfl ⟨2, by decide⟩ (by decide)
  exact absurd hearly (by decide)

end ClambHook.Policy.Schedule
