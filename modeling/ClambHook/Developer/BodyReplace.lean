import ClambHook.Lib.CStringLemmas
import ClambHook.Proxy.Message

/-!
# Replacing a text in a body

`developer_body_replace` goes over the body twice.  The first loop counts the occurrences of a text,
and the second one copies the body with each of them replaced, into a buffer of the size that
follows from the count.  Both go on behind an occurrence, so that occurrences do not overlap.

`Replaced` says what is meant without a scan, and `bodyReplace_spec` that the code does it.
Allocations succeed.
-/

namespace ClambHook.Developer

open CString List Proxy

/-! ## The loops -/

/-- The loop that counts, from a position on.  The needle is not empty. -/
def countOccurrences (needle : Bytes) : Bytes → Nat
  | [] => 0
  | c :: rest =>
    if needle.isPrefixOf (c :: rest) then
      countOccurrences needle (rest.drop (needle.length - 1)) + 1
    else countOccurrences needle rest
termination_by rest => rest.length
decreasing_by
  · exact Nat.lt_succ_of_le (drop_sublist _ _).length_le
  · exact Nat.lt_succ_self _

/-- The loop that copies: what it writes. -/
def copyReplaced (needle replacement : Bytes) : Bytes → Bytes
  | [] => []
  | c :: rest =>
    if needle.isPrefixOf (c :: rest) then
      replacement ++ copyReplaced needle replacement (rest.drop (needle.length - 1))
    else c :: copyReplaced needle replacement rest
termination_by rest => rest.length
decreasing_by
  · exact Nat.lt_succ_of_le (drop_sublist _ _).length_le
  · exact Nat.lt_succ_self _

/-- The size of the buffer, unless it is more than `SIZE_MAX`. -/
def replacedLength (length count needle replacement : Nat) : Option Nat :=
  if needle < replacement ∧ (2 ^ 64 - 1 - length) / (replacement - needle) < count then none
  else if needle ≤ replacement then some (length + count * (replacement - needle))
  else some (length - count * (needle - replacement))

/-- `developer_body_set`. -/
def bodySet (m : Message) (body : Bytes) (length : Nat) : Message :=
  let m := { m with body := body.take length, bodySet := true }
  messageHeaderAdd (messageHeaderRemove m "Content-Length") (bytes "Content-Length")
    (decimal length)

/-- `developer_body_replace`. -/
def bodyReplace (m : Message) (needle replacement : Bytes) : Option Message :=
  let count := countOccurrences needle m.body
  if needle = [] ∨ count = 0 then some m
  else
    (replacedLength m.body.length count needle.length replacement.length).map
      (bodySet m (copyReplaced needle replacement m.body))

/-! ## What is meant -/

/-- A body with a text replaced, and how often: where it occurs first, and then in the rest
behind. -/
inductive Replaced (needle replacement : Bytes) : Bytes → Nat → Bytes → Prop
  | rest {body : Bytes} (h : ¬ needle <:+: body) : Replaced needle replacement body 0 body
  | next {front back out : Bytes} {n : Nat} (hfirst : ∀ shorter,
        shorter ++ needle <+: front ++ needle ++ back → front.length ≤ shorter.length)
      (h : Replaced needle replacement back n out) :
      Replaced needle replacement (front ++ needle ++ back) (n + 1) (front ++ replacement ++ out)

variable {needle replacement body out : Bytes} {n : Nat} {c : UInt8}

theorem Replaced.cons (h : Replaced needle replacement body n out)
    (hc : ¬ needle <+: c :: body) : Replaced needle replacement (c :: body) n (c :: out) := by
  cases h with
  | rest h => exact .rest (mt infix_cons_iff.1 (not_or.2 ⟨hc, h⟩))
  | @next front back out n hfirst h =>
    refine @Replaced.next _ _ (c :: front) _ _ _ (fun shorter hprefix ↦ ?_) h
    cases shorter with
    | nil => exact absurd hprefix hc
    | cons d shorter => exact Nat.succ_le_succ (hfirst shorter (cons_prefix_cons.1 hprefix).2)

/-- **The loops replace** what they find. -/
theorem replaced_copyReplaced (first : UInt8) (more replacement body : Bytes) :
    Replaced (first :: more) replacement body (countOccurrences (first :: more) body)
      (copyReplaced (first :: more) replacement body) := by
  induction body using countOccurrences.induct (first :: more) with
  | case1 =>
    rw [countOccurrences, copyReplaced]
    exact .rest (mt infix_nil.1 (cons_ne_nil _ _))
  | case2 c rest hprefix ih =>
    rw [countOccurrences, copyReplaced, if_pos hprefix, if_pos hprefix]
    obtain ⟨back, hback⟩ := isPrefixOf_iff_prefix.1 hprefix
    cases hback
    change Replaced _ _ (drop more.length (more ++ back)) _ _ at ih
    rw [drop_left] at ih
    exact @Replaced.next _ _ [] _ _ _ (fun _ _ ↦ Nat.zero_le _) ih
  | case3 c rest hprefix ih =>
    rw [countOccurrences, copyReplaced, if_neg hprefix, if_neg hprefix]
    exact ih.cons (mt isPrefixOf_iff_prefix.2 hprefix)

theorem Replaced.length_eq (h : Replaced needle replacement body n out) :
    out.length + n * needle.length = body.length + n * replacement.length := by
  induction h with
  | rest => simp
  | next _ _ ih =>
    simp only [length_append, Nat.succ_mul]
    omega

/-- The buffer has the size of what is written.  A body that does not grow fits anyway. -/
theorem Replaced.replacedLength_eq (h : Replaced needle replacement body n out) (hn : n ≠ 0) :
    replacedLength body.length n needle.length replacement.length =
      if needle.length < replacement.length ∧ 2 ^ 64 ≤ out.length then none
      else some out.length := by
  have hlength := h.length_eq
  rw [replacedLength]
  rcases Nat.lt_or_ge needle.length replacement.length with hlt | hge
  · obtain ⟨d, hd⟩ := Nat.exists_eq_add_of_lt hlt
    have hpos : 0 < n * (d + 1) := Nat.mul_pos (Nat.pos_of_ne_zero hn) (Nat.succ_pos d)
    have hout : out.length = body.length + n * (d + 1) := by
      rw [hd, Nat.add_assoc, Nat.mul_add] at hlength
      omega
    have hsize : (2 ^ 64 - 1 - body.length) / (d + 1) < n ↔ 2 ^ 64 ≤ out.length := by
      rw [Nat.div_lt_iff_lt_mul d.succ_pos, Nat.succ_eq_add_one]
      omega
    simp only [show replacement.length - needle.length = d + 1 by omega, hsize, if_pos hlt.le, hout]
  · obtain ⟨d, hd⟩ := Nat.exists_eq_add_of_le hge
    rw [hd, Nat.mul_add] at hlength
    simp only [hge.not_gt, false_and, if_false]
    split
    · rw [show d = 0 by omega, Nat.mul_zero] at hlength
      rw [show replacement.length - needle.length = 0 by omega, Option.some_inj]
      omega
    · rw [show needle.length - replacement.length = d by omega, Option.some_inj]
      omega

/-! ## The message -/

/-- The message has a new body, and one header field with its length. -/
structure Rewritten (m m' : Message) (out : Bytes) : Prop where
  body : m'.body = out
  set : m'.bodySet = true
  length : m'.headers.filter (·.named "Content-Length") =
    [⟨bytes "Content-Length", decimal out.length⟩]
  others : m'.headers.filter (!·.named "Content-Length") =
    m.headers.filter (!·.named "Content-Length")

theorem bodySet_rewritten (m : Message) (body : Bytes) :
    Rewritten m (bodySet m body body.length) body := by
  refine ⟨take_length, rfl, ?_, ?_⟩
  all_goals simp [bodySet, messageHeaderAdd, messageHeaderRemove, Header.named, strcaseeq]

/-- **Replacing is exact**: every occurrence that does not overlap an earlier one is replaced, the
buffer has the size of what is written, and only a result of more than `SIZE_MAX` bytes fails. -/
theorem bodyReplace_spec (m : Message) (first : UInt8) (more replacement : Bytes) :
    ∃ n out, Replaced (first :: more) replacement m.body n out ∧
      copyReplaced (first :: more) replacement m.body = out ∧
      if n = 0 then bodyReplace m (first :: more) replacement = some m
      else if (first :: more).length < replacement.length ∧ 2 ^ 64 ≤ out.length then
        bodyReplace m (first :: more) replacement = none
      else
        replacedLength m.body.length n (first :: more).length replacement.length =
            some out.length ∧
          ∃ m' ∈ bodyReplace m (first :: more) replacement, Rewritten m m' out := by
  have h := replaced_copyReplaced first more replacement m.body
  refine ⟨_, _, h, rfl, ?_⟩
  split
  · next hn => exact if_pos (.inr hn)
  next hn =>
  rw [bodyReplace, if_neg (not_or.2 ⟨cons_ne_nil _ _, hn⟩), h.replacedLength_eq hn]
  split
  · rfl
  · exact ⟨rfl, _, rfl, bodySet_rewritten m _⟩

end ClambHook.Developer
