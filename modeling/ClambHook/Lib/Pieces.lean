import Mathlib

/-!
# Pieces of a sequence

A piece has a part of a sequence and says where it belongs.  Pieces that do not overlap and that all
end in front of `n` cover everything in front of `n` exactly if their lengths add up to `n`:
`forall_covers_iff`.  Where a piece may end behind `n` the lengths say nothing.
-/

set_option autoImplicit false

namespace Pieces

open List

/-- A part of a sequence, with its place. -/
structure Piece (α : Type*) where
  offset : Nat
  content : List α
deriving DecidableEq

variable {α : Type*}

namespace Piece

/-- Where a piece ends. -/
def stop (p : Piece α) : Nat :=
  p.offset + p.content.length

/-- Is the place in the piece? -/
def Covers (p : Piece α) (i : Nat) : Prop :=
  p.offset ≤ i ∧ i < p.stop

instance (p : Piece α) (i : Nat) : Decidable (p.Covers i) :=
  inferInstanceAs (Decidable (_ ∧ _))

/-- The element of a piece at a place. -/
def at? (p : Piece α) (i : Nat) : Option α :=
  p.content[i - p.offset]?

/-- Two pieces have no place in common. -/
def Apart (p q : Piece α) : Prop :=
  ∀ i, p.Covers i → ¬q.Covers i

end Piece

/-- The number of elements in pieces. -/
def total (l : List (Piece α)) : Nat :=
  (l.map fun p ↦ p.content.length).sum

@[simp] theorem total_nil : total ([] : List (Piece α)) = 0 := rfl

@[simp] theorem total_cons (p : Piece α) (l : List (Piece α)) :
    total (p :: l) = p.content.length + total l := by
  rw [total, total, map_cons, sum_cons]

@[simp] theorem total_append (l l' : List (Piece α)) : total (l ++ l') = total l + total l' := by
  rw [total, total, total, map_append, sum_append]

/-- The places in pieces. -/
def places : List (Piece α) → Finset Nat
  | [] => ∅
  | p :: l => Finset.Ico p.offset p.stop ∪ places l

variable {l : List (Piece α)}

theorem mem_places {i : Nat} : i ∈ places l ↔ ∃ p ∈ l, p.Covers i := by
  induction l with
  | nil => simp [places]
  | cons p l ih => simp [places, ih, Piece.Covers]

theorem card_places (h : l.Pairwise Piece.Apart) :
    (places l).card = total l := by
  induction l with
  | nil => rfl
  | cons p l ih =>
    obtain ⟨hp, hl⟩ := pairwise_cons.1 h
    have hdisjoint : Disjoint (Finset.Ico p.offset p.stop) (places l) := by
      refine Finset.disjoint_left.2 fun i hi hmem ↦ ?_
      obtain ⟨q, hq, hcovers⟩ := mem_places.1 hmem
      exact hp q hq i (Finset.mem_Ico.1 hi) hcovers
    rw [places, Finset.card_union_of_disjoint hdisjoint, Nat.card_Ico, ih hl, total_cons,
      Piece.stop, Nat.add_sub_cancel_left]

/-- **Coverage by counting.** -/
theorem forall_covers_iff {n : Nat} (h : l.Pairwise Piece.Apart)
    (hstop : ∀ p ∈ l, p.stop ≤ n) : (∀ i < n, ∃ p ∈ l, p.Covers i) ↔ total l = n := by
  have hsubset : places l ⊆ Finset.range n := by
    intro i hi
    obtain ⟨p, hp, hcovers⟩ := mem_places.1 hi
    exact Finset.mem_range.2 (hcovers.2.trans_le (hstop p hp))
  rw [← card_places h]
  constructor
  · intro hcovers
    have hall : places l = Finset.range n :=
      hsubset.antisymm fun i hi ↦ mem_places.2 (hcovers i (Finset.mem_range.1 hi))
    rw [hall, Finset.card_range]
  · intro hcard i hi
    have hall := Finset.eq_of_subset_of_card_le hsubset (by rw [hcard, Finset.card_range])
    exact mem_places.1 (hall ▸ Finset.mem_range.2 hi)

end Pieces
