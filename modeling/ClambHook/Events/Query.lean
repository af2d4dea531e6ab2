import ClambHook.Events.Log

/-!
# What a query of the event log answers

The answer to a request with `after_sequence` is cut out of the snapshot by the interval from the
cursor to `next_sequence` (`queryEvents_spec`).  When the limit does not end it, `next_sequence` is
the total, which is read later than the snapshot.
-/

namespace ClambHook.Events

open CString List

/-! ## Numbered logs -/

/-- A log whose events carry the sequence numbers `1, 2, …`. -/
def Numbered (log : List Event) : Prop :=
  ∀ i e, log[i]? = some e → e.sequence = i + 1

theorem numbered_nil : Numbered [] := fun _ _ h ↦ by simp at h

variable {log : List Event} {e : Event}

section

variable (h : Numbered log)

include h

theorem Numbered.concat (he : e.sequence = log.length + 1) : Numbered (log ++ [e]) := by
  intro i e' hi
  rcases Nat.lt_trichotomy i log.length with hlt | rfl | hgt
  · rw [getElem?_append_left hlt] at hi
    exact h i e' hi
  · rw [getElem?_concat_length, Option.some.injEq] at hi
    exact hi ▸ he
  · rw [getElem?_eq_none (by simp; omega)] at hi
    cases hi

theorem Numbered.le_length (he : e ∈ log) : 0 < e.sequence ∧ e.sequence ≤ log.length := by
  obtain ⟨i, hi, rfl⟩ := getElem_of_mem he
  rw [h i _ (getElem?_eq_getElem hi)]
  omega

theorem Numbered.mem_drop {k : Nat} : e ∈ log.drop k ↔ e ∈ log ∧ k < e.sequence := by
  constructor
  · intro he
    refine ⟨mem_of_mem_drop he, ?_⟩
    obtain ⟨i, hi⟩ := getElem?_of_mem he
    rw [getElem?_drop] at hi
    rw [h _ _ hi]
    omega
  · rintro ⟨he, hk⟩
    obtain ⟨i, hi⟩ := getElem?_of_mem he
    rw [h i e hi] at hk
    refine mem_of_getElem? (i := i - k) ?_
    rw [getElem?_drop, Nat.add_sub_cancel' (by omega), hi]

theorem Numbered.take (k : Nat) : Numbered (log.take k) := by
  intro i e hi
  rw [getElem?_take] at hi
  split at hi
  · exact h i e hi
  · cases hi

theorem Numbered.mem_take {k : Nat} : e ∈ log.take k ↔ e ∈ log ∧ e.sequence ≤ k := by
  constructor
  · intro he
    have hle := ((h.take k).le_length he).2
    rw [length_take] at hle
    exact ⟨mem_of_mem_take he, by omega⟩
  · rintro ⟨he, hk⟩
    obtain ⟨i, hi⟩ := getElem?_of_mem he
    rw [h i e hi] at hk
    refine mem_of_getElem? (i := i) ?_
    rw [getElem?_take, if_pos (by omega), hi]

/-- The sequence numbers increase. -/
theorem Numbered.pairwise : log.Pairwise fun e e' ↦ e.sequence < e'.sequence := by
  rw [pairwise_iff_getElem]
  intro i j hi hj hij
  rw [h i _ (getElem?_eq_getElem hi), h j _ (getElem?_eq_getElem hj)]
  omega

end

/-! ## What a query answers -/

section Query

variable {parse : Bytes → Option Json} {req : Request} {after : Nat}

/-- An event that a request with nothing but `after_sequence` asks for. -/
def Request.asksFor (parse : Bytes → Option Json) (req : Request) (after : Nat) (e : Event) :
    Bool :=
  decide (after < e.sequence) && req.accepts parse e

theorem eligible_eq (hafter : req.after = some after) (hsince : req.since = []) (e : Event) :
    req.eligible e = decide (after < e.sequence) := by
  simp [Request.eligible, hafter, hsince, eventCursor]

/-- The results of the loop over `es`, when `emitted` is already collected: everything that `p` asks
for, or what there is of it up to the sequence number `k`, when the limit ends the loop. -/
inductive ScanResult (p : Event → Bool) (limit : Nat) (es emitted : List Event) (last : Nat) :
    List Event × Option Nat → Prop where
  | all (hlimit : emitted.length + (es.filter p).length ≤ limit) :
      ScanResult p limit es emitted last (emitted ++ es.filter p, none)
  | cut (k : Nat) (hlimit : limit < emitted.length + (es.filter p).length) (hlast : last ≤ k)
      (hbehind : ∃ e ∈ es, k < e.sequence)
      (hfull : (emitted ++ es.filter fun e ↦ p e && decide (e.sequence ≤ k)).length = limit) :
      ScanResult p limit es emitted last
        (emitted ++ es.filter fun e ↦ p e && decide (e.sequence ≤ k), some k)

namespace ScanResult

variable {p : Event → Bool} {limit : Nat} {e : Event} {es emitted : List Event} {last last' : Nat}
  {r : List Event × Option Nat}

theorem skip (hp : p e = false) (hle : last ≤ last') (h : ScanResult p limit es emitted last' r) :
    ScanResult p limit (e :: es) emitted last r := by
  have hfilter : (e :: es).filter p = es.filter p := filter_cons_of_neg (by simp [hp])
  cases h with
  | all hlimit => rw [← hfilter] at hlimit ⊢; exact .all hlimit
  | cut k hlimit hlast hbehind hfull =>
    have hcut : (e :: es).filter (fun e ↦ p e && decide (e.sequence ≤ k)) =
        es.filter fun e ↦ p e && decide (e.sequence ≤ k) :=
      filter_cons_of_neg (by simp [hp])
    obtain ⟨e', he', hk⟩ := hbehind
    rw [← hfilter] at hlimit
    rw [← hcut] at hfull ⊢
    exact .cut k hlimit (by omega) ⟨e', mem_cons_of_mem e he', hk⟩ hfull

theorem take (hp : p e = true) (hle : last ≤ e.sequence)
    (h : ScanResult p limit es (emitted ++ [e]) e.sequence r) :
    ScanResult p limit (e :: es) emitted last r := by
  have hfilter : (e :: es).filter p = e :: es.filter p := filter_cons_of_pos hp
  cases h with
  | all hlimit =>
    rw [append_assoc, singleton_append, ← hfilter]
    refine .all ?_
    rw [hfilter, length_cons]
    simp only [length_append, length_singleton] at hlimit
    omega
  | cut k hlimit hlast hbehind hfull =>
    have hcut : (e :: es).filter (fun e ↦ p e && decide (e.sequence ≤ k)) =
        e :: es.filter fun e ↦ p e && decide (e.sequence ≤ k) :=
      filter_cons_of_pos (by simp [hp, hlast])
    obtain ⟨e', he', hk⟩ := hbehind
    rw [append_assoc, singleton_append, ← hcut] at hfull ⊢
    refine .cut k ?_ (by omega) ⟨e', mem_cons_of_mem e he', hk⟩ hfull
    rw [hfilter, length_cons]
    simp only [length_append, length_singleton] at hlimit
    omega

theorem stop (hp : p e = true) (hfull : emitted.length = limit)
    (hlast : ∀ e' ∈ e :: es, p e' = true → last < e'.sequence) :
    ScanResult p limit (e :: es) emitted last (emitted, some last) := by
  have hnone : (e :: es).filter (fun e ↦ p e && decide (e.sequence ≤ last)) = [] := by
    rw [filter_eq_nil_iff]
    intro e' he' h
    simp only [Bool.and_eq_true, decide_eq_true_eq] at h
    exact absurd (hlast e' he' h.1) (by omega)
  have hcut : ScanResult p limit (e :: es) emitted last
      (emitted ++ (e :: es).filter fun e ↦ p e && decide (e.sequence ≤ last), some last) := by
    refine .cut last ?_ (Nat.le_refl last) ⟨e, mem_cons_self, ?_⟩ ?_
    · rw [filter_cons_of_pos hp, length_cons]
      omega
    · exact hlast e mem_cons_self hp
    · rw [hnone, append_nil, hfull]
  rwa [hnone, append_nil] at hcut

end ScanResult

/-- The loop collects what is asked for, up to where the limit ends it. -/
theorem scan_spec (hafter : req.after = some after) (hsince : req.since = []) :
    ∀ (es emitted : List Event) (last : Nat), es.Pairwise (fun e e' ↦ e.sequence < e'.sequence) →
      (∀ e ∈ es, after < e.sequence → last < e.sequence) → emitted.length ≤ req.limit →
      ScanResult (req.asksFor parse after) req.limit es emitted last
        (scan parse req es emitted last)
  | [], emitted, last, _, _, hlimit => by
    have hall : ScanResult (req.asksFor parse after) req.limit [] emitted last
        (emitted ++ [], none) :=
      .all (by simpa using hlimit)
    rwa [append_nil] at hall
  | e :: es, emitted, last, hsorted, hlast, hlimit => by
    obtain ⟨hfirst, hsorted⟩ := pairwise_cons.1 hsorted
    rw [scan, eligible_eq hafter hsince, hafter, Option.isSome_some, if_pos rfl]
    dsimp only
    by_cases heligible : after < e.sequence
    · rw [if_neg (by simp [heligible])]
      have hscanned : ∀ e' ∈ es, after < e'.sequence → e.sequence < e'.sequence :=
        fun e' he' _ ↦ hfirst e' he'
      have hle := hlast e mem_cons_self heligible
      by_cases haccepts : req.accepts parse e = true
      · rw [if_neg (by simp [haccepts])]
        have hp : req.asksFor parse after e = true := by
          simp [Request.asksFor, heligible, haccepts]
        split
        · refine .stop hp ‹_› fun e' he' hp' ↦ hlast e' he' ?_
          simp only [Request.asksFor, Bool.and_eq_true, decide_eq_true_eq] at hp'
          exact hp'.1
        · refine .take hp (by omega) (scan_spec hafter hsince es _ _ hsorted hscanned ?_)
          rw [length_append, length_singleton]
          omega
      · rw [if_pos (by simp [haccepts])]
        exact .skip (by simp [Request.asksFor, haccepts]) (by omega)
          (scan_spec hafter hsince es _ _ hsorted hscanned hlimit)
    · rw [if_pos (by simp [heligible])]
      exact .skip (by simp [Request.asksFor, heligible]) (Nat.le_refl last)
        (scan_spec hafter hsince es _ _ hsorted
          (fun e' he' ↦ hlast e' (mem_cons_of_mem e he')) hlimit)

/-- **A query** answers with what is asked for in its snapshot, up to `next_sequence`; and that is
the total, unless the limit ends the answer inside the snapshot. -/
theorem queryEvents_spec (parse : Bytes → Option Json) (hafter : req.after = some after)
    (hsince : req.since = []) (hlimit : 0 < req.limit) {snapshot : List Event} {total : Nat}
    (hsorted : snapshot.Pairwise fun e e' ↦ e.sequence < e'.sequence)
    (htotal : ∀ e ∈ snapshot, e.sequence ≤ total) :
    ∃ events complete next, queryEvents parse snapshot total req = ⟨events, complete, next⟩ ∧
      events = snapshot.filter (fun e ↦ req.asksFor parse after e && decide (e.sequence ≤ next)) ∧
      (complete = true → sequenceComplete snapshot (some after) = true) ∧
      (((snapshot.filter (req.asksFor parse after)).length ≤ req.limit ∧ next = total) ∨
        (req.limit < (snapshot.filter (req.asksFor parse after)).length ∧ after < next ∧
          ∃ e ∈ snapshot, next < e.sequence)) := by
  have hscan : ScanResult (req.asksFor parse after) req.limit snapshot [] after
      (scan parse req snapshot [] after) :=
    scan_spec hafter hsince snapshot [] after hsorted (fun _ _ h ↦ h) (Nat.zero_le _)
  rw [queryEvents, hafter, Option.getD_some]
  generalize scan parse req snapshot [] after = result at hscan
  cases hscan with
  | all hcount =>
    refine ⟨_, _, total, rfl, ?_, fun h ↦ (Bool.and_eq_true_iff.1 h).1, .inl ⟨?_, rfl⟩⟩
    · rw [nil_append]
      refine filter_congr fun e he ↦ ?_
      rw [decide_eq_true (htotal e he), Bool.and_true]
    · simpa using hcount
  | cut k hcount hlast hbehind hfull =>
    refine ⟨_, _, k, rfl, nil_append _, nofun, .inr ⟨by simpa using hcount, ?_, hbehind⟩⟩
    -- The limit is at least one, so something has been collected up to `k`.
    obtain ⟨e, he⟩ := exists_mem_of_length_pos (hfull ▸ hlimit)
    simp only [nil_append, mem_filter, Request.asksFor, Bool.and_eq_true,
      decide_eq_true_eq] at he
    omega

end Query

end ClambHook.Events
