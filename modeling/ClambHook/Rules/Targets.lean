import ClambHook.Lib.CStringLemmas
import ClambHook.Rules.Match

/-!
# Targets with a port

`ch_split_target` trims a target and takes it apart at the colon in front of a port.  A port ends in
a digit, so only the front of such a target is trimmed: what the engine reads is the host in the
brackets as it stands (`splitTarget_bracketed`), or the trimmed host in front of the colon
(`splitTarget_plain`).
-/

namespace ClambHook.Rules

open CString List

variable {text host : Bytes}

variable (h : isNumber text = true)

include h

theorem rest_of_isNumber : (strtol text).rest = [] := by
  simp only [isNumber, Bool.and_eq_true, beq_iff_eq] at h
  exact h.2

theorem ne_nil_of_isNumber : text ≠ [] := by
  rintro rfl
  exact absurd h (by decide)

omit h

theorem isNumber_decimal {n : Nat} (hn : n ≤ 65535) : isNumber (decimal n) = true := by
  have hread : strtol (decimal n) = ⟨n, [], false⟩ := strtol_decimal (by rw [longMax]; omega)
  simp [isNumber, hread, (decimal_ne_nil n).symm]

include h

theorem notMem_of_isNumber {c : UInt8}
    (hc : isspace c = false ∧ c ≠ 43 ∧ c ≠ 45 ∧ isdigit c = false) : c ∉ text := by
  intro hmem
  rcases char_of_strtol (ne_nil_of_isNumber h) (rest_of_isNumber h) hmem with
    hspace | hplus | hminus | hdigit
  · exact absurd hspace (by simp [hc.1])
  · exact hc.2.1 hplus
  · exact hc.2.2.1 hminus
  · exact absurd hdigit (by simp [hc.2.2.2])

/-- A text that ends in a number is trimmed at its front only. -/
theorem trim_append_of_isNumber (front : Bytes) :
    trim (front ++ text) = trimLeft (front ++ text) := by
  refine trim_eq_trimLeft fun c hc ↦ ?_
  obtain ⟨d, hd, hdigit⟩ := exists_getLast?_of_strtol (ne_nil_of_isNumber h) (rest_of_isNumber h)
  rw [List.getLast?_append, hd, Option.some_or] at hc
  cases hc
  exact isspace_of_isdigit hdigit

omit h

theorem lower_splitTarget (target : Bytes) :
    lower (splitTarget target).1 = (splitTarget target).1 := by
  simp only [splitTarget]
  split
  · split <;> exact lower_lower _
  · exact lower_lower _

theorem splitTarget_of_separatePort {target front : Bytes}
    (h : separatePort (trim target) = some (front, text)) (htext : isNumber text = true) :
    splitTarget target = (normalizeHost front, text) := by
  rw [splitTarget, h]
  exact if_pos ⟨ne_nil_of_isNumber htext, htext⟩

theorem trimmed_bracketed (host : Bytes) : Trimmed (91 :: (host ++ [93])) :=
  trimmed_of_ends rfl rfl (c := 93) (by simp [List.getLast?_cons]) rfl

theorem normalizeHost_bracketed (host : Bytes) :
    normalizeHost (91 :: (host ++ [93])) = lower (stripFinalDot host) := by
  have hstrip : stripBrackets (91 :: (host ++ [93])) = host := stripBrackets_cons_append host
  rw [normalizeHost, trim_eq_self (trimmed_bracketed host), hstrip]

/-- What the engine reads in brackets, without trimming it. -/
theorem splitTarget_bracketed (htext : isNumber text = true) :
    splitTarget (91 :: (host ++ 93 :: 58 :: text)) = (lower (stripFinalDot host), text) := by
  have htrim : trim (91 :: (host ++ 93 :: 58 :: text)) = 91 :: (host ++ 93 :: 58 :: text) := by
    have hsplit : 91 :: (host ++ 93 :: 58 :: text) = (91 :: (host ++ [93, 58])) ++ text := by simp
    rw [hsplit, trim_append_of_isNumber htext]
    rfl
  have hlast : splitLast 93 (91 :: (host ++ 93 :: 58 :: text)) = some (91 :: host, 58 :: text) := by
    rw [splitLast_eq_some_iff]
    refine ⟨rfl, ?_⟩
    rw [mem_cons, not_or]
    exact ⟨by decide, notMem_of_isNumber htext (by decide)⟩
  have hseparate : separatePort (trim (91 :: (host ++ 93 :: 58 :: text))) =
      some (91 :: (host ++ [93]), text) := by
    rw [htrim, separatePort, hlast]
    rfl
  rw [splitTarget_of_separatePort hseparate htext, normalizeHost_bracketed]

theorem trim_plain (htext : isNumber text = true) :
    trim (host ++ 58 :: text) = trimLeft host ++ 58 :: text := by
  have hsplit : host ++ 58 :: text = (host ++ [58]) ++ text := by simp
  rw [hsplit, trim_append_of_isNumber htext, ← hsplit, trimLeft_append_cons (by decide)]

theorem trim_trimLeft (s : Bytes) : trim (trimLeft s) = trim s := by
  have hleft : trimLeft (trimLeft s) = trimLeft s := dropWhile_idempotent isspace s
  rw [trim, hleft, trim]

/-- What the engine reads in front of the colon, when that does not start with a bracket. -/
theorem splitTarget_plain (htext : isNumber text = true) (hhead : (trimLeft host).head? ≠ some 91) :
    splitTarget (host ++ 58 :: text) = (lower (stripFinalDot (trim host)), text) := by
  have hnone : (trimLeft host ++ 58 :: text).head? ≠ some 91 := by
    cases hleft : trimLeft host with
    | nil => simp
    | cons c rest =>
      rw [hleft] at hhead
      exact hhead
  have hseparate : separatePort (trim (host ++ 58 :: text)) = some (trimLeft host, text) := by
    rw [trim_plain htext, separatePort, if_neg hnone, splitLast_eq_some_iff]
    exact ⟨rfl, notMem_of_isNumber htext (by decide)⟩
  have hstrip : stripBrackets (trim host) = trim host := by
    refine stripBrackets_of_head fun hbracket ↦ ?_
    obtain ⟨rest, hrest⟩ : trim host <+: trimLeft host := rdropWhile_prefix isspace _
    rw [← hrest] at hhead
    cases htrim : trim host with
    | nil => simp [htrim] at hbracket
    | cons c s =>
      rw [htrim] at hbracket hhead
      exact hhead hbracket
  rw [splitTarget_of_separatePort hseparate htext, normalizeHost, trim_trimLeft, hstrip]

theorem length_stripFinalDot (s : Bytes) :
    (stripFinalDot s).length ≤ s.length ∧ s.length ≤ (stripFinalDot s).length + 1 := by
  rw [stripFinalDot]
  split
  · rw [length_dropLast]
    omega
  · omega

/-- A port behind a bracket in front is that behind the last colon, and the host has a bracket at
its end. -/
theorem exists_bracketed_of_separatePort (htext : isNumber text = true)
    (hhead : (trimLeft host).head? = some 91) {front port : Bytes}
    (hseparate : separatePort (trim (host ++ 58 :: text)) = some (front, port))
    (hport : isNumber port = true) :
    ∃ inner, front = 91 :: inner ++ [93] ∧ port = text ∧ trim host = 91 :: (inner ++ [93]) := by
  rw [trim_plain htext, separatePort,
    if_pos (by rw [List.head?_append, hhead]; rfl)] at hseparate
  split at hseparate
  · next inside _ hlast =>
    cases hseparate
    obtain ⟨hparts, -⟩ := splitLast_eq_some_iff.1 hlast
    have hassoc : inside ++ 93 :: 58 :: port = (inside ++ [93]) ++ 58 :: port := by simp
    -- neither port has a colon, so both are what stands behind the last one
    have hcolon := splitLast_eq_some_iff.2
      ⟨hparts.trans hassoc, notMem_of_isNumber hport (c := 58) (by decide)⟩
    rw [splitLast_eq_some_iff.2 ⟨rfl, notMem_of_isNumber htext (by decide)⟩] at hcolon
    obtain ⟨hfront, rfl⟩ := Prod.mk.inj (Option.some.inj hcolon)
    rw [hfront] at hhead
    cases inside with
    | nil => cases hhead
    | cons c inner =>
      cases hhead
      refine ⟨inner, rfl, rfl, ?_⟩
      rw [← trim_trimLeft, hfront]
      exact trim_eq_self (trimmed_bracketed inner)
  · cases hseparate

/-- A bracket in front hides the port, or goes with the bracket at the end. -/
theorem splitTarget_front_bracket (htext : isNumber text = true)
    (hhead : (trimLeft host).head? = some 91) :
    splitTarget (host ++ 58 :: text) = (normalizeHost (host ++ 58 :: text), []) ∨
      (splitTarget (host ++ 58 :: text)).1.length + 2 ≤ (trim host).length := by
  have hwhole : normalizeHost (trim (host ++ 58 :: text)) = normalizeHost (host ++ 58 :: text) := by
    rw [normalizeHost, normalizeHost, trim_trim]
  cases hseparate : separatePort (trim (host ++ 58 :: text)) with
  | none =>
    rw [splitTarget, hseparate, ← hwhole]
    exact .inl rfl
  | some split =>
    obtain ⟨front, port⟩ := split
    by_cases hport : isNumber port = true
    · obtain ⟨inner, rfl, rfl, hhost⟩ :=
        exists_bracketed_of_separatePort htext hhead hseparate hport
      have hle := (length_stripFinalDot inner).1
      rw [splitTarget_of_separatePort hseparate hport, cons_append, normalizeHost_bracketed,
        length_lower, hhost, length_cons, length_append, length_singleton]
      exact .inr (by omega)
    · rw [splitTarget, hseparate, ← hwhole]
      exact .inl (if_neg fun h ↦ hport h.2)

end ClambHook.Rules
