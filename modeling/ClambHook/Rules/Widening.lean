import ClambHook.Config.Rules
import ClambHook.Rules.FirstMatch

/-!
# Rules do not widen

An empty class of matchers constrains nothing, so a rule widens when the entries that its table
gives for a class are all lost on the way to the compiled rule.  For a table that the validator
accepts there are two ways to lose them: a key whose value is not an array is neither checked nor
read, and the domain suffix "." is empty once its leading dot is stripped.  Without them (`Kept`) a
rule that matches has a matching entry for every key that its table gives.
-/

namespace ClambHook.Rules

open CString Config List

/-! ## What a table gives -/

/-- The keys of a rule table that constrain connections. -/
inductive Key where
  | domains
  | domainSuffixes
  | domainKeywords
  | cidrs
  | sourceCidrs
  | ports
  | networks
  | processes
  | ruleSets
deriving DecidableEq, Repr

def Key.text : Key → String
  | .domains => "domains"
  | .domainSuffixes => "domain_suffixes"
  | .domainKeywords => "domain_keywords"
  | .cidrs => "cidrs"
  | .sourceCidrs => "source_cidrs"
  | .ports => "ports"
  | .networks => "networks"
  | .processes => "processes"
  | .ruleSets => "rule_sets"

/-- The keys whose entries are alternatives to those of the key. -/
def Key.alternatives : Key → List Key
  | .domains | .domainSuffixes | .domainKeywords => [.domains, .domainSuffixes, .domainKeywords]
  | key => [key]

/-- The table gives the key, with a value other than an empty array. -/
def Given (t : Table) (key : Key) : Prop :=
  ∃ value, t.lookup (bytes key.text) = some value ∧ value ≠ .array []

/-- The entries of a key; a value that is not an array has none. -/
def entries (t : Table) (key : Key) : List Value :=
  (arrayIn t key.text).getD []

/-- What an entry of a key says about a connection.  A text that is empty once it is normalised says
nothing about any connection. -/
def EntryMatches (known : Known) (context : MatchContext) : Key → Value → Prop
  | .domains, .string s =>
    trimmedLower s false ≠ [] ∧ NamedBy [trimmedLower s false] [] [] (splitTarget context.target).1
  | .domainSuffixes, .string s =>
    trimmedLower s true ≠ [] ∧ NamedBy [] [trimmedLower s true] [] (splitTarget context.target).1
  | .domainKeywords, .string s =>
    trimmedLower s false ≠ [] ∧ NamedBy [] [] [trimmedLower s false] (splitTarget context.target).1
  | .cidrs, .string s => ∃ c, cidrCompile s = .ok c ∧ c.Covers (splitTarget context.target).1
  | .sourceCidrs, .string s => ∃ c, cidrCompile s = .ok c ∧ c.Covers (splitTarget context.source).1
  | .ports, .integer n => PortIs (splitTarget context.target).2 n
  | .networks, .string s =>
    trimmedLower s false ≠ [] ∧ trimmedLower s false = trimmedLower context.network false
  | .processes, .string s =>
    trimmedLower s false ≠ [] ∧ NamesProcess (trimmedLower s false) context
  | .ruleSets, .string s => ∃ spec set, findRuleSet known.ruleSets (trim s) = some spec ∧
      compileRuleSet spec = .ok set ∧ set.Holds (splitTarget context.target).1
  | _, _ => False

/-- Every key that the table gives has a matching entry, among its alternatives. -/
def GivenMatches (t : Table) (known : Known) (context : MatchContext) : Prop :=
  ∀ key, Given t key → ∃ key' ∈ key.alternatives, ∃ value ∈ entries t key',
    EntryMatches known context key' value

/-- Every key that the table gives has an entry other than the suffix ".", among its
alternatives. -/
def Kept (t : Table) : Prop :=
  ∀ key, Given t key → ∃ key' ∈ key.alternatives, ∃ value ∈ entries t key',
    ¬ (key' = .domainSuffixes ∧ value = .string (bytes "."))

/-- Does the engine take the rule for the connection, when it gets to it? -/
def CompiledRule.matchesContext (rule : CompiledRule) (context : MatchContext) : Bool :=
  (ruleMatches rule context (trimmedLower context.network false) (splitTarget context.target).1
    (splitTarget context.target).2).isSome

/-! ## From compiled entries back to the table -/

theorem trimmedLower_ne_nil {s : Bytes} (hs : s ≠ [] ∧ Trimmed s) : trimmedLower s false ≠ [] := by
  rw [trimmedLower, trim_eq_self hs.2]
  simpa [lower_eq_nil] using hs.1

/-- Of the trimmed texts, only "." is lost when a leading dot is stripped. -/
theorem trimmedLower_suffix_ne_nil {s : Bytes} (hs : s ≠ [] ∧ Trimmed s) (hdot : s ≠ bytes ".") :
    trimmedLower s true ≠ [] := by
  rw [trimmedLower, trim_eq_self hs.2, Ne, lower_eq_nil]
  cases s with
  | nil => exact absurd rfl hs.1
  | cons b s =>
    split
    · rename_i hhead
      rintro rfl
      exact hdot (by simpa [bytes] using hhead.2)
    · exact cons_ne_nil b s

/-- The entries of a key, as the specification has them. -/
def specEntries (spec : RuleSpec) : Key → List Value
  | .domains => spec.domains.map .string
  | .domainSuffixes => spec.domainSuffixes.map .string
  | .domainKeywords => spec.domainKeywords.map .string
  | .cidrs => spec.cidrs.map .string
  | .sourceCidrs => spec.sourceCidrs.map .string
  | .ports => spec.ports.map .integer
  | .networks => spec.networks.map .string
  | .processes => spec.processes.map .string
  | .ruleSets => spec.ruleSets.map .string

variable {t : Table} {spec : RuleSpec}

theorem entries_eq_specEntries (h : Loaded t spec) (key : Key) :
    entries t key = specEntries spec key := by
  cases key with
  | domains => exact h.domains
  | domainSuffixes => exact h.domainSuffixes
  | domainKeywords => exact h.domainKeywords
  | cidrs => exact h.cidrs
  | sourceCidrs => exact h.sourceCidrs
  | ports => exact h.ports
  | networks => exact h.networks
  | processes => exact h.processes
  | ruleSets => exact h.ruleSets

section Table

variable {known : Known} {rule : CompiledRule} {context : MatchContext}

/-- A host that the names of the compiled rule match is matched by an entry of the specification. -/
theorem exists_entry_of_namedBy (hfrom : rule.From spec known)
    (h : NamedBy rule.domains rule.suffixes rule.keywords (splitTarget context.target).1) :
    ∃ key ∈ [Key.domains, .domainSuffixes, .domainKeywords], ∃ value ∈ specEntries spec key,
      EntryMatches known context key value := by
  rcases h with h | ⟨n, h, hmatch⟩ | ⟨n, h, hmatch⟩
  · rw [hfrom.domains, mem_ownedStringsCompile] at h
    obtain ⟨hne, s, hs, hn⟩ := h
    refine ⟨.domains, by simp, .string s, mem_map_of_mem hs, hn ▸ hne, .inl ?_⟩
    rw [hn]
    exact mem_singleton_self _
  · rw [hfrom.suffixes, mem_ownedStringsCompile] at h
    obtain ⟨hne, s, hs, rfl⟩ := h
    exact ⟨.domainSuffixes, by simp, .string s, mem_map_of_mem hs, hne,
      .inr (.inl ⟨_, mem_singleton_self _, hmatch⟩)⟩
  · rw [hfrom.keywords, mem_ownedStringsCompile] at h
    obtain ⟨hne, s, hs, rfl⟩ := h
    exact ⟨.domainKeywords, by simp, .string s, mem_map_of_mem hs, hne,
      .inr (.inr ⟨_, mem_singleton_self _, hmatch⟩)⟩

/-- The texts of the specification are trimmed, where the validator sees to that. -/
def TrimmedTexts (spec : RuleSpec) : Prop :=
  ∀ key, key.text ∈ trimmedKeys → ∀ s, .string s ∈ specEntries spec key → s ≠ [] ∧ Trimmed s

variable {key : Key} {value : Value}

variable (htrimmed : TrimmedTexts spec)

include htrimmed

/-- An entry other than the suffix "." leaves a name in the compiled rule. -/
theorem names_ne_nil (hfrom : rule.From spec known)
    (hkey : key ∈ [Key.domains, .domainSuffixes, .domainKeywords])
    (hvalue : value ∈ specEntries spec key)
    (hkept : ¬ (key = .domainSuffixes ∧ value = .string (bytes "."))) :
    rule.domains ≠ [] ∨ rule.suffixes ≠ [] ∨ rule.keywords ≠ [] := by
  rw [hfrom.domains, hfrom.suffixes, hfrom.keywords]
  simp only [mem_cons, not_mem_nil, or_false] at hkey
  rcases hkey with rfl | rfl | rfl <;> obtain ⟨s, hs, rfl⟩ := mem_map.1 hvalue
  · have hne := trimmedLower_ne_nil (htrimmed .domains (by decide) s hvalue)
    exact .inl (ownedStringsCompile_ne_nil hs hne)
  · have hdot : s ≠ bytes "." := fun h ↦ hkept ⟨rfl, by rw [h]⟩
    have hne := trimmedLower_suffix_ne_nil (htrimmed .domainSuffixes (by decide) s hvalue) hdot
    exact .inr (.inl (ownedStringsCompile_ne_nil hs hne))
  · have hne := trimmedLower_ne_nil (htrimmed .domainKeywords (by decide) s hvalue)
    exact .inr (.inr (ownedStringsCompile_ne_nil hs hne))

/-- A key other than the names has a matching entry as soon as it has an entry. -/
theorem exists_entry_of_key (hfrom : rule.From spec known) (happlies : rule.AppliesTo context)
    (hkey : key ∉ [Key.domains, .domainSuffixes, .domainKeywords])
    (hvalue : value ∈ specEntries spec key) :
    ∃ value ∈ specEntries spec key, EntryMatches known context key value := by
  cases key with
  | domains | domainSuffixes | domainKeywords => exact absurd (by simp) hkey
  | cidrs =>
    obtain ⟨s, hs, rfl⟩ := mem_map.1 hvalue
    obtain ⟨c, hc, hcovers⟩ := happlies.cidrs (cidrListCompile_ne_nil hfrom.cidrs hs)
    obtain ⟨raw, hraw, hcompile⟩ := (mem_mapM_iff hfrom.cidrs).1 hc
    exact ⟨.string raw, mem_map_of_mem hraw, c, hcompile, hcovers⟩
  | sourceCidrs =>
    obtain ⟨s, hs, rfl⟩ := mem_map.1 hvalue
    obtain ⟨c, hc, hcovers⟩ := happlies.sources (cidrListCompile_ne_nil hfrom.sourceCidrs hs)
    obtain ⟨raw, hraw, hcompile⟩ := (mem_mapM_iff hfrom.sourceCidrs).1 hc
    exact ⟨.string raw, mem_map_of_mem hraw, c, hcompile, hcovers⟩
  | ports =>
    obtain ⟨n, hn, rfl⟩ := mem_map.1 hvalue
    obtain ⟨m, hm, hport⟩ := happlies.ports (hfrom.ports ▸ ne_nil_of_mem hn)
    exact ⟨.integer m, mem_map_of_mem (hfrom.ports ▸ hm), hport⟩
  | networks =>
    obtain ⟨s, hs, rfl⟩ := mem_map.1 hvalue
    have hne := trimmedLower_ne_nil (htrimmed .networks (by decide) s hvalue)
    have hmem := happlies.networks (hfrom.networks ▸ ownedStringsCompile_ne_nil hs hne)
    rw [hfrom.networks, mem_ownedStringsCompile] at hmem
    obtain ⟨hne', s', hs', heq⟩ := hmem
    exact ⟨.string s', mem_map_of_mem hs', heq ▸ hne', heq⟩
  | processes =>
    obtain ⟨s, hs, rfl⟩ := mem_map.1 hvalue
    have hne := trimmedLower_ne_nil (htrimmed .processes (by decide) s hvalue)
    obtain ⟨p, hp, hnames⟩ := happlies.processes
      (hfrom.processes ▸ ownedStringsCompile_ne_nil hs hne)
    rw [hfrom.processes, mem_ownedStringsCompile] at hp
    obtain ⟨hne', s', hs', rfl⟩ := hp
    exact ⟨.string s', mem_map_of_mem hs', hne', hnames⟩
  | ruleSets =>
    obtain ⟨s, hs, rfl⟩ := mem_map.1 hvalue
    obtain ⟨hne, htrim⟩ := htrimmed .ruleSets (by decide) s hvalue
    obtain ⟨hsets, hnonempty⟩ := ruleSetsLoop_spec hfrom.ruleSets
    obtain ⟨set, hset, hholds⟩ := happlies.ruleSets
      (hnonempty (.inr ⟨s, hs, by rwa [trim_eq_self htrim]⟩))
    rcases hsets set hset with hset | ⟨ref, href, setSpec, hfind, hcompile⟩
    · cases hset
    · exact ⟨.string ref, mem_map_of_mem href, setSpec, set, hfind, hcompile, hholds⟩

end Table

/-! ## The connection without attributes -/

theorem nil_notMem_ownedStringsCompile (input : List Bytes) (stripDot : Bool) :
    [] ∉ ownedStringsCompile input stripDot :=
  fun h ↦ (mem_ownedStringsCompile.1 h).1 rfl

theorem not_namedBy_nil {domains suffixes keywords : List Bytes} (hdomains : [] ∉ domains)
    (hsuffixes : [] ∉ suffixes) (hkeywords : [] ∉ keywords) :
    ¬ NamedBy domains suffixes keywords [] := by
  rintro (h | ⟨s, hs, rfl | ⟨label, hlabel⟩⟩ | ⟨k, hk, hinfix⟩)
  · exact hdomains h
  · exact hsuffixes hs
  · simp at hlabel
  · exact hkeywords (infix_nil.1 hinfix ▸ hk)

theorem not_covers_nil (c : Cidr) : ¬ c.Covers [] := by
  rintro ⟨address, ⟨-, h⟩, -⟩
  have hnone : parseAddress (stripBrackets []) = none := by decide
  rw [hnone] at h
  cases h

theorem not_holds_nil {spec : RuleSetSpec} {set : CompiledRuleSet}
    (h : compileRuleSet spec = .ok set) : ¬ set.Holds [] := by
  simp only [compileRuleSet, bind_eq_ok_iff] at h
  obtain ⟨cidrs, -, h⟩ := h
  cases h
  rintro (hnamed | ⟨c, -, hcovers⟩)
  · exact not_namedBy_nil (nil_notMem_ownedStringsCompile _ _) (nil_notMem_ownedStringsCompile _ _)
      (nil_notMem_ownedStringsCompile _ _) hnamed
  · exact not_covers_nil c hcovers

variable {known : Known}

/-- No entry matches the connection whose attributes are all empty.  A rule that matches it is a
rule for all traffic. -/
theorem not_entryMatches_empty {key : Key} {value : Value} :
    ¬ EntryMatches known {} key value := by
  rw [EntryMatches.eq_def]
  split
  · rintro ⟨hne, h⟩
    exact not_namedBy_nil (by simpa using hne) (by simp) (by simp) h
  · rintro ⟨hne, h⟩
    exact not_namedBy_nil (by simp) (by simpa using hne) (by simp) h
  · rintro ⟨hne, h⟩
    exact not_namedBy_nil (by simp) (by simp) (by simpa using hne) h
  · rintro ⟨c, -, h⟩
    exact not_covers_nil c h
  · rintro ⟨c, -, h⟩
    exact not_covers_nil c h
  · rintro ⟨h, -⟩
    exact h rfl
  · rintro ⟨hne, h⟩
    exact hne h
  · rintro ⟨hne, h | ⟨h, -⟩ | ⟨h, -⟩⟩
    · exact hne h
    · exact h rfl
    · exact h rfl
  · rintro ⟨spec, set, -, hset, h⟩
    exact not_holds_nil hset h
  · exact id

/-! ## Validated tables -/

theorem kept_of_givenMatches {context : MatchContext}
    (h : GivenMatches t known context) : Kept t := fun key hkey ↦ by
  obtain ⟨key', hkey', value, hvalue, hmatch⟩ := h key hkey
  refine ⟨key', hkey', value, hvalue, ?_⟩
  rintro ⟨rfl, rfl⟩
  exact hmatch.1 (by decide)

theorem givenMatches_of_kept {rule : CompiledRule}
    {context : MatchContext} (hload : Loaded t spec) (htrimmed : TrimmedTexts spec)
    (hfrom : rule.From spec known) (happlies : rule.AppliesTo context) (h : Kept t) :
    GivenMatches t known context := fun key hkey ↦ by
  obtain ⟨key', hkey', value, hvalue, hkept⟩ := h key hkey
  simp only [entries_eq_specEntries hload] at hvalue ⊢
  by_cases hname : key ∈ [Key.domains, .domainSuffixes, .domainKeywords]
  · have halternatives : key.alternatives = [.domains, .domainSuffixes, .domainKeywords] := by
      simp only [mem_cons, not_mem_nil, or_false] at hname
      rcases hname with rfl | rfl | rfl <;> rfl
    rw [halternatives] at hkey' ⊢
    exact exists_entry_of_namedBy hfrom
      (happlies.names (names_ne_nil htrimmed hfrom hkey' hvalue hkept))
  · have halternatives : key.alternatives = [key] := by
      cases key <;> first | rfl | simp at hname
    rw [halternatives] at hkey' ⊢
    cases mem_singleton.1 hkey'
    exact ⟨key, hkey', exists_entry_of_key htrimmed hfrom happlies hname hvalue⟩

/-- **Compiling does not widen a rule, exactly when its entries are kept.**  When a rule from a
table that the validator accepts matches a connection, every key that the table gives has a matching
entry if and only if every key has an entry other than the suffix ".", and such a rule is never one
for all traffic. -/
theorem givenMatches_iff_kept {t : Table} {chains groups sets : Option (List Value)}
    {spec : RuleSpec} {known : Known} {rule : CompiledRule}
    (hvalid : validateRule t chains groups sets = .ok ()) (hload : configLoadRule t = .ok spec)
    (hcompile : compileRule spec known = .ok rule) :
    (∀ context, rule.matchesContext context = true → (GivenMatches t known context ↔ Kept t)) ∧
      (Kept t → (∃ key, Given t key) → rule.matchesContext {} = false) := by
  have hloaded := loaded_of_configLoadRule hload
  have hfrom := compileRule_eq_ok_iff.1 hcompile
  have htrimmed : TrimmedTexts spec := fun key hkey s hs ↦ by
    rw [← entries_eq_specEntries hloaded] at hs
    exact trimmed_of_validateRule hvalid hkey hs
  have hiff : ∀ context, rule.matchesContext context = true →
      (GivenMatches t known context ↔ Kept t) := fun context hmatch ↦
    ⟨kept_of_givenMatches, givenMatches_of_kept hloaded htrimmed hfrom
      ((isSome_ruleMatches hfrom.valid).1 hmatch)⟩
  refine ⟨hiff, fun hkept ⟨key, hkey⟩ ↦ Bool.eq_false_iff.2 fun hmatch ↦ ?_⟩
  obtain ⟨_, _, _, _, hentry⟩ := (hiff {} hmatch).2 hkept key hkey
  exact not_entryMatches_empty hentry

/-- A rule that blocks a list of ports. -/
def portsTable : Table :=
  [(bytes "name", .string (bytes "web")), (bytes "action", .string (bytes "block")),
    (bytes "ports", .array [.integer 443])]

theorem portsTable_kept : ∃ spec rule, validateRule portsTable none none none = .ok () ∧
    configLoadRule portsTable = .ok spec ∧ compileRule spec {} = .ok rule ∧ Kept portsTable ∧
    rule.matchesContext { target := bytes "example.org:443" } = true ∧
    GivenMatches portsTable {} { target := bytes "example.org:443" } ∧
    rule.matchesContext {} = false := by
  have hvalid : validateRule portsTable none none none = .ok () := by decide
  have hload : configLoadRule portsTable =
      .ok { name := bytes "web", action := bytes "block", ports := [443] } := by decide
  have hcompile : compileRule { name := bytes "web", action := bytes "block", ports := [443] } {} =
      .ok ⟨bytes "web", .block, [], [], [], [], [], [443], [], [], []⟩ := by decide
  have hgiven : ∀ key, Given portsTable key → key = .ports := by
    rintro key ⟨value, hvalue, -⟩
    cases key with
    | ports => rfl
    | _ => cases hvalue
  have hkept : Kept portsTable := fun key hkey ↦ by
    rw [hgiven key hkey]
    exact ⟨.ports, mem_singleton_self _, .integer 443, mem_singleton_self _,
      fun h ↦ by cases h.1⟩
  have hmain := givenMatches_iff_kept hvalid hload hcompile
  exact ⟨_, _, hvalid, hload, hcompile, hkept, by decide, (hmain.1 _ (by decide)).2 hkept,
    hmain.2 hkept ⟨.ports, _, rfl, by rintro ⟨⟩⟩⟩

/-- A rule that blocks one port, which is not in an array. -/
def portTable : Table :=
  [(bytes "name", .string (bytes "web")), (bytes "action", .string (bytes "block")),
    (bytes "ports", .integer 443)]

/-- A rule that blocks the names under the suffix ".". -/
def dotTable : Table :=
  [(bytes "name", .string (bytes "web")), (bytes "action", .string (bytes "block")),
    (bytes "domain_suffixes", .array [.string (bytes ".")])]

theorem not_kept_portTable : ¬ Kept portTable := fun h ↦ by
  obtain ⟨key, hkey, value, hvalue, -⟩ := h .ports ⟨_, rfl, nofun⟩
  cases mem_singleton.1 hkey
  cases hvalue

theorem not_kept_dotTable : ¬ Kept dotTable := fun h ↦ by
  obtain ⟨key, hkey, value, hvalue, hkept⟩ := h .domainSuffixes ⟨_, rfl, nofun⟩
  simp only [Key.alternatives, mem_cons, not_mem_nil, or_false] at hkey
  rcases hkey with rfl | rfl | rfl
  · cases hvalue
  · exact hkept ⟨rfl, mem_singleton.1 hvalue⟩
  · cases hvalue

/-- The rule without matchers that both tables compile to. -/
def blockAll : CompiledRule :=
  ⟨bytes "web", .block, [], [], [], [], [], [], [], [], []⟩

/-- The rule is accepted, and matches every connection although no entry of the table does. -/
def LosesEntries (t : Table) : Prop :=
  ∃ spec, validateRule t none none none = .ok () ∧ configLoadRule t = .ok spec ∧
    compileRule spec {} = .ok blockAll ∧
    ∀ context, blockAll.matchesContext context = true ∧ ¬ GivenMatches t {} context

/-- A port that is no array, and a suffix that is a dot. -/
theorem lost_entries_match_all : LosesEntries portTable ∧ LosesEntries dotTable := by
  have hall : ∀ context, blockAll.matchesContext context = true := fun context ↦ rfl
  constructor
  · exact ⟨{ name := bytes "web", action := bytes "block" }, by decide, by decide, by decide,
      fun context ↦ ⟨hall context, fun h ↦ not_kept_portTable (kept_of_givenMatches h)⟩⟩
  · exact ⟨{ name := bytes "web", action := bytes "block", domainSuffixes := [bytes "."] },
      by decide, by decide, by decide,
      fun context ↦ ⟨hall context, fun h ↦ not_kept_dotTable (kept_of_givenMatches h)⟩⟩

end ClambHook.Rules
