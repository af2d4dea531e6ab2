import Mathlib.Data.List.MinMax
import Mathlib.Order.Basic

/-!
# The first best element of a list

A loop that keeps the best candidate so far and replaces it only by a strictly better one finds the
first of the best ones: `List.argmax` and `List.argmin`.  Where the list is ordered by a relation,
"first" can be said by that relation instead of by positions.
-/

set_option autoImplicit false

namespace ArgMax

open List

variable {α β : Type*} [LinearOrder β] {f : α → β} {R : α → α → Prop} {l : List α} {m n : α}

/-- In a list ordered by `R`, the element that `List.argmax` finds is in front of the others that
are as good. -/
theorem lt_or_of_mem_argmax (hR : ∀ a, R a a) (hl : l.Pairwise R) (hm : m ∈ l.argmax f)
    (hn : n ∈ l) : f n < f m ∨ f n = f m ∧ R m n := by
  classical
  rcases (le_of_mem_argmax hn hm).lt_or_eq with hlt | heq
  · exact .inl hlt
  refine .inr ⟨heq, ?_⟩
  have hmem := argmax_mem hm
  rcases (index_of_argmax hm hn heq.ge).lt_or_eq with hindex | hindex
  · have hpair := pairwise_iff_getElem.1 hl _ _ (idxOf_lt_length_of_mem hmem)
      (idxOf_lt_length_of_mem hn) hindex
    simpa using hpair
  · rw [(idxOf_inj hmem).1 hindex]
    exact hR n

end ArgMax
