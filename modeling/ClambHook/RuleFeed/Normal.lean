import ClambHook.Rules.Single
import ClambHook.RuleFeed.Parse

/-!
# The entries of a parsed feed

What `ch_rule_feed_parse` returns has no entry twice, is sorted, and its entries are in normal form:
a network is the normal form of itself.  A domain is too, unless it ends in a dot.  Normalizing
takes one dot off, and a domain may be left with another one.
-/

namespace ClambHook.RuleFeed

open CString Inet Rules Option

/-! ## Domains -/

/-- A character of a domain. -/
def IsDomainChar (c : UInt8) : Prop :=
  isLabelChar c = true ∨ c = 46

instance (c : UInt8) : Decidable (IsDomainChar c) :=
  inferInstanceAs (Decidable (_ ∨ _))

variable {c : UInt8}

theorem IsDomainChar.facts : ∀ {c : UInt8}, IsDomainChar c →
    isspace c = false ∧ tolower c = c ∧ c ≠ 0 ∧ c ≠ 42 ∧ c ≠ 91 := by
  decide +kernel

theorem isLabelChar_of_labelValid {label : Bytes} (h : labelValid label = true)
    (hc : c ∈ label) : isLabelChar c = true := by
  simp only [labelValid, Bool.and_eq_true, List.all_eq_true] at h
  exact h.2 c hc

variable {value : Bytes}

theorem isDomainChar_of_countLabels {fuel labels : Nat}
    (h : countLabels fuel value = some labels) (hc : c ∈ value) : IsDomainChar c := by
  induction fuel generalizing value labels with
  | zero => cases h
  | succ fuel ih =>
    cases value with
    | nil => cases hc
    | cons b value =>
      rw [countLabels] at h
      · split at h
        · split at h
          · exact .inl (isLabelChar_of_labelValid ‹_› hc)
          · cases h
        · next label rest hsplit =>
          split at h
          · next hlabel =>
            obtain ⟨rest', hrest, -⟩ := map_eq_some_iff.1 h
            rw [(splitFirst_eq_some_iff.1 hsplit).1, List.mem_append, List.mem_cons] at hc
            rcases hc with hc | rfl | hc
            · exact .inl (isLabelChar_of_labelValid hlabel hc)
            · exact .inr rfl
            · exact ih hrest hc
          · cases h
      · exact nofun

/-- What a valid domain is like, as far as normalizing it again is concerned. -/
theorem domainValid_spec (h : domainValid value = true) :
    (∀ c ∈ value, IsDomainChar c) ∧ contains [46, 46] value = false := by
  simp only [domainValid, Bool.and_eq_true, Bool.not_eq_true'] at h
  obtain ⟨⟨⟨-, hdots⟩, -⟩, hlabels⟩ := h
  obtain ⟨labels, hcount, -⟩ := (any_eq_true _ _).1 hlabels
  exact ⟨fun c hc ↦ isDomainChar_of_countLabels hcount hc, hdots⟩

variable {raw : Bytes}

theorem normalizeDomain_valid (h : normalizeDomain raw = some value) :
    domainValid value = true := by
  simp only [normalizeDomain] at h
  split at h
  · cases h
    assumption
  · cases h

/-- Normalizing a valid domain again takes off a dot, if there is one left. -/
theorem normalizeDomain_of_valid (h : domainValid value = true) :
    normalizeDomain value =
      if domainValid (stripFinalDot value) then some (stripFinalDot value) else none := by
  obtain ⟨hchars, -⟩ := domainValid_spec h
  have htrim : trim value = value := by
    refine trim_eq_self ⟨fun c hc ↦ ?_, fun c hc ↦ ?_⟩
    · exact (hchars c (List.mem_of_mem_head? hc)).facts.1
    · exact (hchars c (List.mem_of_mem_getLast? hc)).facts.1
  have hbrackets : stripBrackets value = value :=
    stripBrackets_of_head fun hhead ↦
      (hchars 91 (List.mem_of_mem_head? hhead)).facts.2.2.2.2 rfl
  have hwildcard : stripWildcard value = value := by
    rw [stripWildcard, if_neg]
    rw [List.isPrefixOf_iff_prefix]
    rintro ⟨rest, rfl⟩
    exact (hchars 42 (by simp [bytes])).facts.2.2.2.1 rfl
  have hlower : lower (stripFinalDot value) = stripFinalDot value := by
    refine lower_eq_self_iff.2 fun c hc ↦ (hchars c ?_).facts.2.1
    rw [stripFinalDot] at hc
    split at hc
    · exact List.mem_of_mem_dropLast hc
    · exact hc
  simp only [normalizeDomain, htrim, hbrackets, hwildcard, hlower]

/-- There is only one dot to take off. -/
theorem getLast?_stripFinalDot (h : contains [46, 46] value = false) :
    (stripFinalDot value).getLast? ≠ some 46 := by
  rw [stripFinalDot]
  split
  · next hlast =>
    intro hdot
    have hvalue := List.dropLast_append_getLast? 46 hlast
    have hfront := List.dropLast_append_getLast? 46 hdot
    refine absurd (Rules.contains_iff.2 ⟨value.dropLast.dropLast, [], ?_⟩) (by rw [h]; decide)
    rw [List.append_nil, ← hvalue]
    nth_rewrite 2 [← hfront]
    simp
  · assumption

/-- **Domains**: a valid one is its own normal form iff it does not end in a dot. -/
theorem normalizeDomain_eq_self (h : domainValid value = true)
    (hdot : value.getLast? ≠ some 46) : normalizeDomain value = some value := by
  rw [normalizeDomain_of_valid h, stripFinalDot_of_getLast hdot, if_pos h]

theorem getLast?_normalizeDomain {again : Bytes} (h : domainValid value = true)
    (hagain : normalizeDomain value = some again) : again.getLast? ≠ some 46 := by
  rw [normalizeDomain_of_valid h] at hagain
  split at hagain
  · cases hagain
    exact getLast?_stripFinalDot (domainValid_spec h).2
  · cases hagain

/-! ## Networks -/

theorem length_maskAddress (remaining : Nat) (address : Bytes) :
    (maskAddress remaining address).length = address.length := by
  induction address generalizing remaining with
  | nil => rfl
  | cons byte address ih => rw [maskAddress, List.length_cons, List.length_cons, ih]

theorem maskAddress_maskAddress (remaining : Nat) (address : Bytes) :
    maskAddress remaining (maskAddress remaining address) = maskAddress remaining address := by
  induction address generalizing remaining with
  | nil => rfl
  | cons byte address ih =>
    rw [maskAddress, maskAddress, ih, UInt8.and_assoc, UInt8.and_self]

theorem pton_ntop {family : Family} {address : Bytes} (h : 8 * address.length = family.bits) :
    pton family (ntop family address) = some address := by
  cases family with
  | inet =>
    rw [Family.bits] at h
    exact pton4_ntop4 (by omega)
  | inet6 =>
    rw [Family.bits] at h
    exact pton6_ntop6 (by omega)

/-- The network that a text of a feed stands for.  An address without a prefix stands alone. -/
def Network (raw : Bytes) (family : Family) (address : Bytes) (n : Nat) : Prop :=
  CidrText (trim raw) family address n ∨ pton family (trim raw) = some address ∧ n = family.bits

/-- What a network that was accepted is like. -/
theorem normalizeCidr_eq_some (h : normalizeCidr raw = some value) :
    ∃ (family : Family) (length : Nat) (address : Bytes), Network raw family address length ∧
      length ≤ family.bits ∧ 8 * address.length = family.bits ∧
      value = ntop family (maskAddress length address) ++ 47 :: decimal length := by
  simp only [normalizeCidr] at h
  obtain ⟨⟨text, given⟩, hsplit, h⟩ := bind_eq_some_iff.1 h
  obtain ⟨⟨family, address⟩, haddress, h⟩ := bind_eq_some_iff.1 h
  simp only at h
  split at h
  · cases h
  next hlength =>
  cases h
  refine ⟨family, _, address, ?_, not_lt.1 hlength, length_parseAddress haddress, rfl⟩
  rw [parseAddress_eq_some_iff] at haddress
  rw [splitPrefix] at hsplit
  split at hsplit
  · cases hsplit
    exact .inr ⟨haddress, rfl⟩
  next hlast =>
  dsimp only at hsplit
  split at hsplit
  · cases hsplit
  next hread =>
  cases hsplit
  simp only [not_or, not_not, not_lt] at hread
  obtain ⟨-, hne, hrest, hnonneg, -⟩ := hread
  refine .inl ⟨text, _, hlast, haddress, fun hnil ↦ ?_, hrest, ?_, not_lt.1 hlength⟩
  · exact hne (hrest.trans hnil.symm)
  · exact (Int.toNat_of_nonneg hnonneg).symm

/-- The texts of both parts of a network can be told apart, and neither has white space. -/
theorem splitPrefix_ntop {family : Family} {address : Bytes} {length : Nat}
    (haddress : 8 * address.length = family.bits) (hlength : length ≤ family.bits) :
    trim (ntop family address ++ 47 :: decimal length) =
      ntop family address ++ 47 :: decimal length ∧
      splitPrefix (ntop family address ++ 47 :: decimal length) =
        some (ntop family address, some length) := by
  have hbits : family.bits ≤ 128 := by cases family <;> decide
  constructor
  · exact trim_eq_self (cidrText_of_pton (pton_ntop haddress) hlength).trimmed
  · have hslash : 47 ∉ decimal length := notMem_decimal (by decide) length
    rw [splitPrefix, splitLast_eq_some_iff.2 ⟨rfl, hslash⟩]
    simp only
    rw [strtol_decimal (by rw [longMax]; omega), if_neg]
    · rfl
    · simp only [not_or]
      refine ⟨by decide, (decimal_ne_nil length).symm, by simp, by omega, by omega⟩

/-- **Networks**: what was accepted is its own normal form. -/
theorem normalizeCidr_normalizeCidr (h : normalizeCidr raw = some value) :
    normalizeCidr value = some value := by
  obtain ⟨family, length, address, -, hlength, haddress, rfl⟩ := normalizeCidr_eq_some h
  have hmasked : 8 * (maskAddress length address).length = family.bits := by
    rw [length_maskAddress, haddress]
  obtain ⟨htrim, hsplit⟩ := splitPrefix_ntop hmasked hlength
  have hparse := parseAddress_eq_some_iff.2 (pton_ntop hmasked)
  simp only [normalizeCidr, htrim, hsplit, bind_eq_bind, bind_some, hparse,
    getD_some, maskAddress_maskAddress]
  rw [if_neg (not_lt.2 hlength)]

theorem zero_notMem_of_normalizeCidr (h : normalizeCidr raw = some value) :
    0 ∉ value := by
  obtain ⟨family, length, address, -, -, haddress, rfl⟩ := normalizeCidr_eq_some h
  have htext := addressText_of_pton
    (pton_ntop ((congrArg (8 * ·) (length_maskAddress length address)).trans haddress))
  rw [List.mem_append, List.mem_cons, not_or, not_or]
  exact ⟨fun hmem ↦ absurd (htext.chars 0 hmem) (by rw [IsAddressChar]; decide), by decide,
    notMem_decimal (by decide) length⟩

/-! ## The lists -/

/-- The entries that were found are in normal form, and none is there twice. -/
structure Entries.Normal (entries : Entries) : Prop where
  domains : ∀ domain ∈ entries.domains, domainValid domain = true
  cidrs : ∀ cidr ∈ entries.cidrs, normalizeCidr cidr = some cidr
  nodupDomains : entries.domains.Nodup
  nodupCidrs : entries.cidrs.Nodup

theorem Entries.normal_empty : Entries.empty.Normal where
  domains := by simp [Entries.empty]
  cidrs := by simp [Entries.empty]
  nodupDomains := List.nodup_nil
  nodupCidrs := List.nodup_nil

variable {strings : List Bytes}

theorem addUnique_eq_ok {after : List Bytes}
    (h : addUnique strings value = .ok after) :
    (value ∈ strings ∧ after = strings) ∨ (value ∉ strings ∧ after = strings ++ [value]) := by
  simp only [addUnique] at h
  split at h
  · cases h
    exact .inl ⟨‹_›, rfl⟩
  split at h
  · cases h
  · cases h
    exact .inr ⟨‹_›, rfl⟩

variable {P : Bytes → Prop}

/-- A list of distinct strings with a property stays one. -/
theorem addUnique_spec {after : List Bytes}
    (h : addUnique strings value = .ok after) (hvalue : P value) (hP : ∀ s ∈ strings, P s)
    (hnodup : strings.Nodup) : (∀ s ∈ after, P s) ∧ after.Nodup := by
  obtain ⟨-, rfl⟩ | ⟨hnew, rfl⟩ := addUnique_eq_ok h
  · exact ⟨hP, hnodup⟩
  rw [List.forall_mem_append, List.forall_mem_singleton, ← List.concat_eq_append]
  exact ⟨⟨hP, hvalue⟩, hnodup.concat hnew⟩

variable {after entries : Entries}

variable (h : entries.Normal)

include h

theorem Entries.Normal.addDomain {domain : Bytes} (hdomain : normalizeDomain raw = some domain)
    (hadd : entries.addDomain domain = .ok after) : after.Normal := by
  obtain ⟨domains, hdomains, hafter⟩ := bind_eq_ok_iff.1 hadd
  cases hafter
  obtain ⟨hvalid, hnodup⟩ := addUnique_spec (P := (domainValid · = true)) hdomains
    (normalizeDomain_valid hdomain) h.domains h.nodupDomains
  exact ⟨hvalid, h.cidrs, hnodup, h.nodupCidrs⟩

theorem Entries.Normal.addCidr {cidr : Bytes} (hcidr : normalizeCidr raw = some cidr)
    (hadd : entries.addCidr cidr = .ok after) : after.Normal := by
  obtain ⟨cidrs, hcidrs, hafter⟩ := bind_eq_ok_iff.1 hadd
  cases hafter
  obtain ⟨hvalid, hnodup⟩ := addUnique_spec (P := fun c ↦ normalizeCidr c = some c) hcidrs
    (normalizeCidr_normalizeCidr hcidr) h.cidrs h.nodupCidrs
  exact ⟨h.domains, hvalid, h.nodupDomains, hnodup⟩

variable {usable : Bool}

theorem Entries.Normal.addRuleDomain (host : Option Bytes)
    (hadd : RuleFeed.addRuleDomain (host.bind normalizeDomain) entries = .ok (usable, after)) :
    after.Normal := by
  cases hdomain : host.bind normalizeDomain with
  | none =>
    rw [hdomain] at hadd
    cases hadd
    exact h
  | some domain =>
    obtain ⟨raw, -, hraw⟩ := bind_eq_some_iff.1 hdomain
    rw [hdomain] at hadd
    obtain ⟨after', hafter', hresult⟩ := bind_eq_ok_iff.1 hadd
    cases hresult
    exact h.addDomain hraw hafter'

theorem Entries.Normal.addToken {accepted : Bool}
    (hadd : RuleFeed.addToken raw entries = .ok (accepted, after)) :
    after.Normal := by
  simp only [RuleFeed.addToken] at hadd
  split at hadd
  · next cidr hcidr =>
    obtain ⟨after', hafter', hresult⟩ := bind_eq_ok_iff.1 hadd
    cases hresult
    exact h.addCidr hcidr hafter'
  · split at hadd
    · next domain hdomain =>
      obtain ⟨after', hafter', hresult⟩ := bind_eq_ok_iff.1 hadd
      cases hresult
      split at hdomain
      · obtain ⟨host, -, hhost⟩ := bind_eq_some_iff.1 hdomain
        exact h.addDomain hhost hafter'
      · exact h.addDomain hdomain hafter'
    · cases hadd
      exact h

theorem Entries.Normal.addTokens {hosts : Bool} {tokens : List (Bytes × Bytes)}
    {index before accepted : Nat}
    (hadd : RuleFeed.addTokens hosts index tokens before entries = .ok (accepted, after)) :
    after.Normal := by
  induction tokens generalizing index before entries with
  | nil =>
    cases hadd
    exact h
  | cons token tokens ih =>
    obtain ⟨token, rest⟩ := token
    simp only [RuleFeed.addTokens] at hadd
    split at hadd
    · exact ih h hadd
    · obtain ⟨⟨ok, entries'⟩, htoken, hrest⟩ := bind_eq_ok_iff.1 hadd
      exact ih (h.addToken htoken) hrest

theorem Entries.Normal.parsePlain {hosts : Bool} {line : Bytes}
    (hparse : RuleFeed.parsePlain hosts line entries = .ok (usable, after)) :
    after.Normal := by
  simp only [RuleFeed.parsePlain] at hparse
  split at hparse
  · cases hparse
    exact h
  split at hparse
  · cases hparse
    exact h
  · obtain ⟨⟨accepted, entries'⟩, htokens, hresult⟩ := bind_eq_ok_iff.1 hparse
    cases hresult
    exact h.addTokens htokens

theorem Entries.Normal.parseAdblock {line : Bytes}
    (hparse : RuleFeed.parseAdblock line entries = .ok (usable, after)) :
    after.Normal := by
  simp only [RuleFeed.parseAdblock] at hparse
  split at hparse
  · cases hparse
    exact h
  split at hparse
  · cases hparse
    exact h
  split at hparse
  · exact h.addRuleDomain (some _) hparse
  split at hparse
  · exact h.addRuleDomain _ hparse
  · exact h.parsePlain hparse

/-- The loop keeps normal forms, and counts no more lines than there are. -/
theorem parseLines_spec {format : Format} {lines : List Bytes} {before skipped : Nat}
    (hbound : entries.domains.length + entries.cidrs.length ≤ maxEntries)
    (hparse : parseLines format lines before entries = .ok (skipped, after)) :
    after.Normal ∧ after.domains.length + after.cidrs.length ≤ maxEntries ∧
      skipped ≤ before + lines.length := by
  induction lines generalizing before entries with
  | nil =>
    cases hparse
    exact ⟨h, hbound, le_rfl⟩
  | cons line lines ih =>
    simp only [parseLines] at hparse
    split at hparse
    · obtain ⟨hnormal, hbound', hskipped⟩ := ih h hbound hparse
      exact ⟨hnormal, hbound', by rw [List.length_cons]; omega⟩
    obtain ⟨⟨usable, entries'⟩, hline, hrest⟩ := bind_eq_ok_iff.1 hparse
    have hnormal' : entries'.Normal := by
      cases format with
      | plain => exact h.parsePlain hline
      | hosts => exact h.parsePlain hline
      | adblock => exact h.parseAdblock hline
    simp only at hrest
    split at hrest
    · cases hrest
    next hcount =>
    obtain ⟨hnormal, hbound', hskipped⟩ := ih hnormal' (not_lt.1 hcount) hrest
    refine ⟨hnormal, hbound', ?_⟩
    rw [List.length_cons]
    split at hskipped <;> omega

omit h

/-! ## Feeds -/

/-- A sorted list of distinct strings, with a property and at most the allowed number of them. -/
structure Listed (P : Bytes → Prop) (strings : List Bytes) : Prop where
  all : ∀ s ∈ strings, P s
  nodup : strings.Nodup
  sorted : strings.Pairwise (· ≤ ·)
  length : strings.length ≤ maxEntries

/-- What a parsed feed is like. -/
structure Feed.Normal (feed : Feed) : Prop where
  format : 0 ∉ feed.format
  domains : Listed (domainValid · = true) feed.domainSuffixes
  cidrs : Listed (fun cidr ↦ normalizeCidr cidr = some cidr) feed.cidrs
  skipped : feed.skipped ≤ maxBytes + 1

theorem listed_sortStrings (h : ∀ s ∈ strings, P s)
    (hnodup : strings.Nodup) (hlength : strings.length ≤ maxEntries) :
    Listed P (sortStrings strings) where
  all := fun s hs ↦ h s ((List.mem_insertionSort _).1 hs)
  nodup := (List.perm_insertionSort _ strings).nodup_iff.2 hnodup
  sorted := List.pairwise_insertionSort _ strings
  length := (List.length_insertionSort _ strings).trans_le hlength

theorem Listed.sortStrings_eq (h : Listed P strings) :
    sortStrings strings = strings :=
  h.sorted.insertionSort_eq

theorem length_tokens_le (delimiters : Bytes) (fuel : Nat) (s : Bytes) :
    (tokens delimiters fuel s).length ≤ fuel := by
  induction fuel generalizing s with
  | zero => exact Nat.zero_le 0
  | succ fuel ih =>
    rw [tokens]
    split
    · exact Nat.zero_le _
    · exact Nat.succ_le_succ (ih _)

theorem Format.zero_notMem_text (format : Format) : 0 ∉ format.text := by
  cases format <;> decide

/-- **A feed that was accepted is in normal form.** -/
theorem parse_normal {body format : Bytes} {feed : Feed} (h : parse body format = .ok feed) :
    feed.Normal := by
  simp only [parse] at h
  split at h
  · cases h
  next hsize =>
  obtain ⟨format', -, h⟩ := bind_eq_ok_iff.1 h
  obtain ⟨⟨skipped, entries⟩, hlines, h⟩ := bind_eq_ok_iff.1 h
  simp only at h
  split at h
  · cases h
  cases h
  obtain ⟨hnormal, hbound, hskipped⟩ :=
    parseLines_spec Entries.normal_empty (by decide) hlines
  refine ⟨format'.zero_notMem_text, ?_, ?_, ?_⟩
  · exact listed_sortStrings hnormal.domains hnormal.nodupDomains (by omega)
  · exact listed_sortStrings hnormal.cidrs hnormal.nodupCidrs (by omega)
  have hcount := length_tokens_le [10] ((body.takeWhile (· ≠ 0)).length + 1)
    (body.takeWhile (· ≠ 0))
  have hdocument : (body.takeWhile (· ≠ 0)).length ≤ body.length :=
    (List.takeWhile_sublist _).length_le
  rw [lines, List.length_map] at hskipped
  simp only at hskipped ⊢
  omega

end ClambHook.RuleFeed
