import Mathlib.Data.List.Sort

/-!
# Keeping the newest

To keep the `n` newest of the elements of a list one sorts it by age and drops all but the last `n`.
Elements of the same age may come in any order, so whether an element `x` is kept can depend on the
sort; it is kept by every sort exactly if fewer than `n` of the others are as new as `x`.
-/

set_option autoImplicit false

namespace Retention

open List

variable {α : Type} {key : α → ℤ}

/-- A sort by a key, in the order that it likes among elements with the same key. -/
structure KeySort (key : α → ℤ) where
  sort : List α → List α
  perm : ∀ l, (sort l).Perm l
  sorted : ∀ l, (sort l).Pairwise fun a b ↦ key a ≤ key b

section

variable [DecidableEq α]

/-- Is `y` another element than `x`, and as new? -/
def Rival (key : α → ℤ) (x y : α) : Bool :=
  y ≠ x ∧ key x ≤ key y

variable {x : α}

theorem length_rivals_of_sorted {front back : List α}
    (hsorted : (front ++ x :: back).Pairwise fun a b ↦ key a ≤ key b)
    (hnodup : (front ++ x :: back).Nodup) :
    back.length ≤ ((front ++ x :: back).filter (Rival key x)).length := by
  have hback : back.filter (Rival key x) = back := by
    refine filter_eq_self.2 fun y hy ↦ ?_
    have hle := (pairwise_append.1 hsorted).2.1
    have hne := (nodup_append.1 hnodup).2.1
    refine decide_eq_true ⟨?_, rel_of_pairwise_cons hle hy⟩
    rintro rfl
    exact (nodup_cons.1 hne).1 hy
  rw [filter_append, filter_cons]
  split <;> simp only [length_append, length_cons, hback] <;> omega

/-- With fewer than `n` rivals an element is among the last `n`. -/
theorem notMem_take_of_rivals {l : List α} {n : ℕ}
    (hsorted : l.Pairwise fun a b ↦ key a ≤ key b) (hnodup : l.Nodup)
    (hrivals : (l.filter (Rival key x)).length < n) : x ∉ l.take (l.length - n) := by
  intro hmem
  obtain ⟨front, back, htake⟩ := append_of_mem hmem
  have hl : l = front ++ x :: (back ++ l.drop (l.length - n)) := by
    rw [← cons_append, ← append_assoc, ← htake, take_append_drop]
  have hlength := congrArg List.length htake
  rw [hl] at hsorted hnodup
  have hback := length_rivals_of_sorted hsorted hnodup
  rw [← hl] at hback
  simp only [length_take, length_append, length_cons, length_drop] at *
  omega

/-- The order by the key that has `x` in front of the others with its key. -/
def Before (key : α → ℤ) (x a b : α) : Prop :=
  key a < key b ∨ (key a = key b ∧ (b = x → a = x))

instance (x : α) : DecidableRel (Before key x) :=
  fun _ _ ↦ inferInstanceAs (Decidable (_ ∨ _))

instance (x : α) : IsTrans α (Before key x) where
  trans a b c hab hbc := by
    rcases hab with hab | ⟨hab, hb⟩ <;> rcases hbc with hbc | ⟨hbc, hc⟩
    · exact .inl (hab.trans hbc)
    · exact .inl (hbc ▸ hab)
    · exact .inl (hab ▸ hbc)
    · exact .inr ⟨hab.trans hbc, fun h ↦ hb (hc h)⟩

instance (x : α) : Std.Total (Before key x) where
  total a b := by
    rcases lt_trichotomy (key a) (key b) with h | h | h
    · exact .inl (.inl h)
    · by_cases ha : a = x
      · exact .inl (.inr ⟨h, fun _ ↦ ha⟩)
      · exact .inr (.inr ⟨h.symm, fun h ↦ absurd h ha⟩)
    · exact .inr (.inl h)

/-- The sort that has `x` in front of the others with its key. -/
def sortBefore (key : α → ℤ) (x : α) : KeySort key where
  sort := List.insertionSort (Before key x)
  perm := perm_insertionSort (Before key x)
  sorted l := (pairwise_insertionSort (Before key x) l).imp fun h ↦ by
    rcases h with h | ⟨h, -⟩
    · exact h.le
    · exact h.le

/-- With `n` rivals or more an element can fail to be among the last `n`. -/
theorem mem_take_sortBefore {l : List α} {n : ℕ} (hx : x ∈ l)
    (hrivals : n ≤ (l.filter (Rival key x)).length) :
    x ∈ ((sortBefore key x).sort l).take (l.length - n) := by
  have hperm := (sortBefore key x).perm l
  have hsorted := pairwise_insertionSort (Before key x) l
  obtain ⟨front, back, hsort⟩ := append_of_mem (hperm.mem_iff.2 hx)
  have hlength := hperm.length_eq
  have hcount := (hperm.filter (Rival key x)).length_eq
  simp only [sortBefore] at hsort hlength hcount ⊢
  rw [hsort] at hsorted hlength hcount ⊢
  -- no rival stands in front of `x`
  have hfront : front.filter (Rival key x) = [] := by
    refine filter_eq_nil_iff.2 fun y hy hrival ↦ ?_
    obtain ⟨hne, hle⟩ := of_decide_eq_true hrival
    rcases (pairwise_append.1 hsorted).2.2 y hy x mem_cons_self with hlt | ⟨-, heq⟩
    · exact absurd hle (not_le.2 hlt)
    · exact hne (heq rfl)
  have hself : Rival key x x = false := decide_eq_false fun h ↦ h.1 rfl
  have hback := length_filter_le (Rival key x) back
  rw [filter_append, hfront, filter_cons, hself] at hcount
  simp only [length_append, length_cons, nil_append, Bool.false_eq_true,
    if_false] at hlength hcount
  rw [take_append]
  refine mem_append_right _ ?_
  obtain ⟨k, hk⟩ : ∃ k, l.length - n - front.length = k + 1 := ⟨_, (Nat.succ_pred (by omega)).symm⟩
  rw [hk]
  exact mem_cons_self

end

end Retention
