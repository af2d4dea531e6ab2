import Mathlib.Logic.Basic
import Mathlib.Data.List.Basic

/-!
# Runs of a deterministic machine

A machine is a step function `step : σ → α → σ`: the event `a` takes the state `s` to
`step s a`.  Everything that is not determined by the state (which thread runs next, what the
kernel answers, whether an allocation succeeds) is part of the event, so that the runs of the
machine are exactly the finite lists of events.

Invariants of runs are proved here once:

* `run_inv`: a property that every step keeps, provided the step meets the guard `G`, holds at the
  end of every run whose steps all meet `G`;
* `run_inv₂`: the same, when the step lemma may also use a second invariant that needs no guard;
* `along_step_iff`: a property that a step keeps exactly if it meets `G` holds all along a run
  exactly if the run meets `G`;
* `forall_prefix_iff`: the same for the states of a run, relative to an invariant;
* `along_congr`: guards that agree under an invariant are met by the same runs;
* `along_iff`: the guard of a whole run, read off the states in front of each event.
-/

set_option autoImplicit false

namespace Machine

open List

variable {σ α : Type*} (step : σ → α → σ)

/-- The state that the events `as` lead to from `s`. -/
def run (s : σ) (as : List α) : σ :=
  as.foldl step s

/-- Every event of the run from `s` meets `G` in the state that it finds. -/
def Along (G : σ → α → Prop) : σ → List α → Prop
  | _, [] => True
  | s, a :: as => G s a ∧ Along G (step s a) as

instance Along.instDecidable (G : σ → α → Prop) [∀ s a, Decidable (G s a)] :
    ∀ (s : σ) (as : List α), Decidable (Along step G s as)
  | _, [] => isTrue trivial
  | s, a :: as =>
    have := Along.instDecidable G (step s a) as
    inferInstanceAs (Decidable (G s a ∧ Along step G (step s a) as))

variable {step} {G : σ → α → Prop} {s : σ}

@[simp] theorem run_nil : run step s [] = s := rfl

@[simp] theorem run_cons (a : α) (as : List α) : run step s (a :: as) = run step (step s a) as :=
  rfl

theorem run_append (as bs : List α) : run step s (as ++ bs) = run step (run step s as) bs :=
  foldl_append

theorem run_concat (as : List α) (a : α) : run step s (as ++ [a]) = step (run step s as) a := by
  rw [run_append]; rfl

@[simp] theorem along_nil : Along step G s [] ↔ True := Iff.rfl

@[simp] theorem along_cons (a : α) (as : List α) :
    Along step G s (a :: as) ↔ G s a ∧ Along step G (step s a) as := Iff.rfl

theorem along_append (as bs : List α) :
    Along step G s (as ++ bs) ↔ Along step G s as ∧ Along step G (run step s as) bs := by
  induction as generalizing s with
  | nil => simp
  | cons a as ih => simp [ih, and_assoc]

theorem Along.and {H : σ → α → Prop} : ∀ {s : σ} {as : List α}, Along step G s as →
    Along step H s as → Along step (fun s a ↦ G s a ∧ H s a) s as
  | _, [], _, _ => trivial
  | _, _ :: _, hG, hH => ⟨⟨hG.1, hH.1⟩, hG.2.and hH.2⟩

/-- A run meets its guard iff each event does, in the state the events before it lead to. -/
theorem along_iff (as : List α) :
    Along step G s as ↔ ∀ pre a post, as = pre ++ a :: post → G (run step s pre) a := by
  induction as generalizing s with
  | nil => simp
  | cons b bs ih =>
    rw [along_cons, ih]
    constructor
    · rintro ⟨hb, hbs⟩ pre a post h
      cases pre with
      | nil => simp only [nil_append, List.cons.injEq] at h; exact h.1 ▸ hb
      | cons c pre =>
        simp only [cons_append, List.cons.injEq] at h
        exact h.1 ▸ hbs pre a post h.2
    · exact fun h ↦ ⟨h [] b bs rfl, fun pre a post e ↦ h (b :: pre) a post (by rw [e]; rfl)⟩

variable {I : σ → Prop}

/-- **Invariant rule**: what every guarded step keeps holds at the end of every guarded run. -/
theorem run_inv (hstep : ∀ s a, I s → G s a → I (step s a)) :
    ∀ {s : σ} (as : List α), I s → Along step G s as → I (run step s as)
  | _, [], hs, _ => hs
  | s, a :: as, hs, h => run_inv hstep as (hstep s a hs h.1) h.2

/-- **Exact guards**: if a step keeps a property exactly when it meets the guard, then the property
holds behind every step of a run exactly when the run meets the guard. -/
theorem along_step_iff (hstep : ∀ s a, I s → (I (step s a) ↔ G s a)) :
    ∀ {s : σ} (as : List α), I s →
      (Along step (fun s a ↦ I (step s a)) s as ↔ Along step G s as)
  | _, [], _ => Iff.rfl
  | s, a :: as, hs => by
    rw [along_cons, along_cons, hstep s a hs]
    exact and_congr_right fun hG ↦ along_step_iff hstep as ((hstep s a hs).2 hG)

/-- **Exact guards, state by state**: in a run that meets `G` and so keeps `I`, every state has the
property `P` exactly when the run meets `C`, provided that is so of each step. -/
theorem forall_prefix_iff {P : σ → Prop} {C : σ → α → Prop}
    (hstep : ∀ s a, I s → P s → G s a → I (step s a) ∧ (P (step s a) ↔ C s a)) :
    ∀ {s : σ} (as : List α), I s → P s → Along step G s as →
      ((∀ pre, pre <+: as → P (run step s pre)) ↔ Along step C s as)
  | _, [], _, hP, _ => by simp [hP]
  | s, a :: as, hI, hP, hG => by
    obtain ⟨hI', hiff⟩ := hstep s a hI hP hG.1
    rw [along_cons, ← hiff]
    constructor
    · intro h
      have hP' := h [a] ⟨as, rfl⟩
      refine ⟨hP', (forall_prefix_iff hstep as hI' hP' hG.2).1 fun pre hpre ↦ ?_⟩
      exact h (a :: pre) (cons_prefix_cons.2 ⟨rfl, hpre⟩)
    · rintro ⟨hP', h⟩ (_ | ⟨b, pre⟩) hpre
      · exact hP
      · obtain ⟨rfl, htail⟩ := cons_prefix_cons.1 hpre
        exact (forall_prefix_iff hstep as hI' hP' hG.2).2 h pre htail

theorem along_true : ∀ {s : σ} (as : List α), Along step (fun _ _ ↦ True) s as
  | _, [] => trivial
  | _, _ :: as => ⟨trivial, along_true as⟩

/-- The invariant rule for steps that need no guard. -/
theorem run_inv_all (hstep : ∀ s a, I s → I (step s a)) :
    ∀ {s : σ} (as : List α), I s → I (run step s as)
  | _, [], hs => hs
  | s, a :: as, hs => run_inv_all hstep as (hstep s a hs)

/-- Guards that agree wherever the invariant holds are met by the same runs. -/
theorem along_congr {H : σ → α → Prop} (hstep : ∀ s a, I s → I (step s a))
    (h : ∀ s a, I s → (G s a ↔ H s a)) :
    ∀ {s : σ} (as : List α), I s → (Along step G s as ↔ Along step H s as)
  | _, [], _ => Iff.rfl
  | s, a :: as, hs => and_congr (h s a hs) (along_congr hstep h as (hstep s a hs))

/-- The invariant rule relative to an invariant `J` of all runs, which the step lemma for `I` may
use. -/
theorem run_inv₂ {J : σ → Prop} (hJ : ∀ s a, J s → J (step s a))
    (hI : ∀ s a, J s → I s → G s a → I (step s a)) {s : σ} (as : List α) (hs : J s) (h : I s)
    (hG : Along step G s as) : I (run step s as) :=
  (run_inv (I := fun s ↦ J s ∧ I s)
    (fun s a h hG ↦ ⟨hJ s a h.1, hI s a h.1 h.2 hG⟩) as ⟨hs, h⟩ hG).2

end Machine
