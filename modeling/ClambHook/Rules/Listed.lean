import ClambHook.Rules.Widening
import ClambHook.Socks.Address

/-!
# Names in rules match themselves

A name in the lists `domains` and `domain_suffixes` of a rule is normalised by
`ch_owned_strings_compile`, and the host of a connection by `ch_split_target`.  The first takes off
white space and, for a suffix, a dot in front.  The second also takes off brackets and a final dot.
So a rule for `example.com.` never sees the host `example.com.`, which is `example.com` by then.
-/

namespace ClambHook.Rules

open CString Config Socks List

/-- A rule with these names and no other matchers takes the connections to the target. -/
def NamesTake (domains suffixes : List Bytes) (target : Bytes) : Prop :=
  ∀ name action keywords known rule,
    compileRule { name := name, action := action, domains := domains, domainSuffixes := suffixes,
                  domainKeywords := keywords } known = .ok rule →
    ∀ context : MatchContext, context.target = target →
      (ruleMatches rule context (trimmedLower context.network false) (splitTarget target).1
        (splitTarget target).2).isSome = true

/-- One label of a host name. -/
structure IsLabel (label : Bytes) : Prop where
  nonempty : label ≠ []
  plain : ∀ c ∈ label, isspace c = false ∧ c ≠ 46 ∧ c ≠ 91

/-- Wherever a rule lists the name, it takes the connections to it, and a suffix also those to names
under it. -/
structure MatchesItself (name : Bytes) : Prop where
  domain : ∀ domains suffixes text port, name ∈ domains → PortText text port →
    NamesTake domains suffixes (name ++ 58 :: text)
  suffix : ∀ domains suffixes text port, name ∈ suffixes → PortText text port →
    NamesTake domains suffixes (name ++ 58 :: text)
  under : ∀ domains suffixes label text port, name ∈ suffixes → IsLabel label → PortText text port →
    NamesTake domains suffixes (label ++ 46 :: name ++ 58 :: text)

variable {name text host : Bytes} {port : UInt16} {domains suffixes : List Bytes}

theorem namesTake_of_namedBy {target : Bytes}
    (h : NamedBy (ownedStringsCompile domains false) (ownedStringsCompile suffixes true) []
      (splitTarget target).1) : NamesTake domains suffixes target := by
  intro name action keywords known rule hrule context _
  have hfrom := compileRule_eq_ok_iff.1 hrule
  have hcidrs := Except.ok.inj hfrom.cidrs
  have hsources := Except.ok.inj hfrom.sourceCidrs
  have hsets := Except.ok.inj hfrom.ruleSets
  rw [isSome_ruleMatches hfrom.valid]
  refine ⟨fun h ↦ absurd hfrom.networks h, fun h ↦ absurd hfrom.ports h,
    fun h ↦ absurd hsources.symm h, fun h ↦ absurd hfrom.processes h, fun _ ↦ ?_,
    fun h ↦ absurd hcidrs.symm h, fun h ↦ absurd hsets.symm h⟩
  rw [hfrom.domains, hfrom.suffixes]
  rcases h with h | h | ⟨_, h, -⟩
  · exact .inl h
  · exact .inr (.inl h)
  · cases h

/-- The host of a target whose name has neither a bracket in front nor a final dot. -/
theorem host_plain (htext : PortText text port) (hname : Trimmed host)
    (hhead : host.head? ≠ some 91) (hlast : host.getLast? ≠ some 46) :
    (splitTarget (host ++ 58 :: text)).1 = lower host := by
  have hleft : trimLeft host = host := trimLeft_eq_self_iff.2 hname.1
  rw [splitTarget_plain htext.isNumber (by rwa [hleft]), trim_eq_self hname,
    stripFinalDot_of_getLast hlast]

theorem length_host_bracket (hname : name.head? = some 91) :
    (splitTarget (name ++ 58 :: bytes "1")).1.length ≠ name.length := by
  have hone : isNumber (bytes "1") = true := by decide
  have hleft : trimLeft name = name := by
    refine trimLeft_eq_self_iff.2 fun c hc ↦ ?_
    rw [hname] at hc
    cases hc
    rfl
  have hlast : (name ++ 58 :: bytes "1").getLast? = some 49 := by
    rw [List.getLast?_append]
    rfl
  rcases splitTarget_front_bracket hone (by rwa [hleft]) with h | h
  · rw [h, normalizeHost, trim_plain hone, hleft, stripBrackets_of_getLast (by simp [hlast]),
      stripFinalDot_of_getLast (by simp [hlast]), length_lower, length_append]
    simp [bytes]
  · have := (trim_infix_self name).length_le
    omega

theorem host_ne (hname : Trimmed name) (h : name.head? = some 91 ∨ name.getLast? = some 46) :
    (splitTarget (name ++ 58 :: bytes "1")).1 ≠ lower name := by
  intro heq
  have hlength := congrArg List.length heq
  rw [length_lower] at hlength
  by_cases hhead : name.head? = some 91
  · exact length_host_bracket hhead hlength
  have hdot : name.getLast? = some 46 := h.resolve_left hhead
  have hleft : trimLeft name = name := trimLeft_eq_self_iff.2 hname.1
  have htext : PortText (bytes "1") 1 := ⟨by decide, by decide⟩
  rw [splitTarget_plain htext.isNumber (by rwa [hleft]), trim_eq_self hname, stripFinalDot,
    if_pos hdot, length_lower, length_dropLast] at hlength
  have hne : name ≠ [] := by
    rintro rfl
    cases hdot
  have := length_pos_of_ne_nil hne
  omega

/-- A suffix names every host that ends in it, at a dot or as a whole. -/
theorem namedBy_front (hname : Trimmed name) (hne : trimmedLower name true ≠ [])
    (hmem : name ∈ suffixes) {front : Bytes}
    (hfront : front = [] ∨ ∃ label, front = label ++ [46]) :
    NamedBy (ownedStringsCompile domains false) (ownedStringsCompile suffixes true) []
      (lower (front ++ name)) := by
  refine .inr (.inl ⟨_, mem_ownedStringsCompile.2 ⟨hne, name, hmem, rfl⟩, ?_⟩)
  have hcases := trimmedLower_true_eq name
  rw [trim_eq_self hname] at hcases
  rcases hcases with ⟨heq, -⟩ | ⟨hdot, heq⟩
  · rw [heq]
    rcases hfront with rfl | ⟨label, rfl⟩
    · exact .inl rfl
    · exact .inr ⟨lower label, by simp; rfl⟩
  · rw [heq, hdot]
    exact .inr ⟨lower front, by simp; rfl⟩

/-- **A listed name matches itself** exactly if it has no bracket in front and no final dot. -/
theorem matchesItself_iff (h : stringIsTrimmedNonempty name = true) :
    MatchesItself name ↔ name.head? ≠ some 91 ∧ name.getLast? ≠ some 46 := by
  have hs := stringIsTrimmedNonempty_iff.1 h
  constructor
  · intro hmatches
    by_contra hnot
    have htake := hmatches.domain [name] [] (bytes "1") 1 (mem_singleton_self name)
      ⟨by decide, by decide⟩ [] (bytes "direct") [] {} _ rfl ⟨[], _, [], [], []⟩ rfl
    have hrule : compileRule { action := bytes "direct", domains := [name] } {} = .ok _ := rfl
    have hnamed := ((isSome_ruleMatches (compileRule_eq_ok_iff.1 hrule).valid).1 htake).names
    rw [ownedStringsCompile_singleton, trimmedLower_false, trim_eq_self hs.2] at hnamed
    have hlower := mt lower_eq_nil.1 hs.1
    rcases hnamed (.inl (mt optionalText_eq_nil.1 hlower)) with h | ⟨_, h, -⟩ | ⟨_, h, -⟩
    · exact host_ne hs.2 (not_and_or.1 hnot |>.imp not_not.1 not_not.1) (mem_optionalText.1 h).1
    · cases h
    · cases h
  · rintro ⟨hhead, hlast⟩
    have hsuffix : trimmedLower name true ≠ [] := by
      refine trimmedLower_suffix_ne_nil hs ?_
      rintro rfl
      exact hlast rfl
    refine ⟨fun domains suffixes text port hmem htext ↦ namesTake_of_namedBy ?_,
      fun domains suffixes text port hmem htext ↦ namesTake_of_namedBy ?_,
      fun domains suffixes label text port hmem hlabel htext ↦ namesTake_of_namedBy ?_⟩
    · rw [host_plain htext hs.2 hhead hlast]
      refine .inl (mem_ownedStringsCompile.2 ⟨mt lower_eq_nil.1 hs.1, name, hmem, ?_⟩)
      rw [trimmedLower_false, trim_eq_self hs.2]
    · rw [host_plain htext hs.2 hhead hlast]
      exact namedBy_front hs.2 hsuffix hmem (.inl rfl)
    obtain ⟨c, label, rfl⟩ := exists_cons_of_ne_nil hlabel.nonempty
    obtain ⟨hspace, -, hbracket⟩ := hlabel.plain c mem_cons_self
    have hsplit : c :: label ++ 46 :: name = (c :: label ++ [46]) ++ name := by simp
    have hend := List.getLast?_append_of_ne_nil (c :: label ++ [46]) hs.1
    rw [hsplit, host_plain htext ⟨by simpa using hspace, hend ▸ hs.2.2⟩ (by simpa using hbracket)
      (hend ▸ hlast)]
    exact namedBy_front hs.2 hsuffix hmem (.inr ⟨c :: label, rfl⟩)

theorem example_com_listed : stringIsTrimmedNonempty (bytes "Example.com") = true ∧
    MatchesItself (bytes "Example.com") :=
  ⟨by decide, (matchesItself_iff (by decide)).2 (by decide)⟩

/-- A rule for `example.com.` misses the target `example.com.:443`. -/
theorem final_dot_unlisted : stringIsTrimmedNonempty (bytes "example.com.") = true ∧
    ∃ rule, compileRule { action := bytes "block", domains := [bytes "example.com."] } {} =
        .ok rule ∧
      ruleMatches rule { target := bytes "example.com.:443" } []
        (splitTarget (bytes "example.com.:443")).1 (bytes "443") = none :=
  ⟨by decide, _, rfl, by decide⟩

end ClambHook.Rules
