import ClambHook.RuleFeed.Normal
import ClambHook.RuleFeed.Timestamp

/-!
# The document of a cache

The text that `ch_rule_feed_cache_write` puts together is that of a JSON object, so the parser reads
it back.  `decodeCache_encodeCache` says what `feed_decode_cache` then makes of it: the strings are
the same, the lists go through the loops of the reader once more, and the timestamp is the one that
the search in the text finds.
-/

namespace ClambHook.RuleFeed

open CString Json List

/-! ## The document -/

/-- The strings of a list, as JSON. -/
def stringsJson (strings : List Bytes) : Json :=
  .array (strings.map .string)

/-- The action that is written for a subscription. -/
def actionText (cache : Cache) : Bytes :=
  if cache.action = [] then bytes "block" else cache.action

/-- The members of the document, in its order.  One that is not written has no value. -/
def cacheFields (kind : Kind) (cache : Cache) : List (Bytes × Option Json) :=
  [(bytes "version", some (newInt64 1)),
    (bytes "profile", some (.string cache.identity.profile)),
    (bytes "name", some (.string cache.identity.name)),
    (bytes "url", some (.string cache.identity.url)),
    (bytes "format", some (.string cache.feed.format)),
    (bytes "action", if kind = .ruleSet then none else some (.string (actionText cache))),
    (bytes "networks",
      if kind = .ruleSet ∨ cache.networks = [] then none else some (stringsJson cache.networks)),
    (bytes "etag", if cache.etag = [] then none else some (.string cache.etag)),
    (bytes "last_modified",
      if cache.lastModified = [] then none else some (.string cache.lastModified)),
    (bytes "fetched_ts_ns", some (newInt64 cache.fetchedTsNs)),
    (bytes "domain_suffixes",
      if cache.feed.domainSuffixes = [] then none
      else some (stringsJson cache.feed.domainSuffixes)),
    (bytes "cidrs", if cache.feed.cidrs = [] then none else some (stringsJson cache.feed.cidrs)),
    (bytes "skipped", some (newInt64 cache.feed.skipped))]

/-- The members that are written. -/
def presentFields (fields : List (Bytes × Option Json)) : List (Bytes × Json) :=
  fields.filterMap fun field ↦ field.2.map fun value ↦ (field.1, value)

def cacheJson (kind : Kind) (cache : Cache) : Json :=
  .object (presentFields (cacheFields kind cache))

/-- A member with a comma in front of it. -/
def memberText (member : Bytes × Json) : Bytes :=
  44 :: appendString member.1 ++ 58 :: appendValue member.2

theorem appendMembers_cons (member : Bytes × Json) (members : List (Bytes × Json)) :
    44 :: appendMembers (member :: members) = (member :: members).flatMap memberText := by
  induction members generalizing member with
  | nil => simp [appendMembers, memberText]
  | cons next members ih =>
    rw [appendMembers_cons_cons, flatMap_cons, ← ih next, memberText]
    simp

theorem appendValue_stringsJson (strings : List Bytes) :
    appendValue (stringsJson strings) = appendStrings strings := by
  rw [stringsJson, appendValue, appendItems_eq_intercalate, map_map, appendStrings]
  rfl

/-- The text of a member that may be missing. -/
def fieldText (field : Bytes × Option Json) : Bytes :=
  (field.2.map fun value ↦ memberText (field.1, value)).getD []

theorem flatMap_presentFields (fields : List (Bytes × Option Json)) :
    (presentFields fields).flatMap memberText = fields.flatMap fieldText := by
  rw [presentFields, filterMap_eq_flatMap_toList, flatMap_assoc]
  refine flatMap_congr fun field _ ↦ ?_
  obtain ⟨key, _ | value⟩ := field
  · rfl
  · exact append_nil _

theorem fieldText_some (key : Bytes) (value : Json) :
    fieldText (key, some value) = memberText (key, value) := rfl

theorem fieldText_ite (key : Bytes) (c : Prop) [Decidable c] (value : Json) :
    fieldText (key, if c then none else some value) =
      if c then [] else memberText (key, value) := by
  split <;> rfl

/-- The texts in front of the values are those of the keys. -/
theorem memberText_eq (literal : Bytes) {key : Bytes} (h : literal = 44 :: appendString key ++ [58])
    (value : Json) : memberText (key, value) = literal ++ appendValue value := by
  rw [h, memberText]
  simp

theorem appendMembers_cacheFields (kind : Kind) (cache : Cache) :
    appendMembers (presentFields (cacheFields kind cache)) =
      bytes "\"version\":1" ++ (cacheFields kind cache).tail.flatMap fieldText := by
  have hversion : memberText (bytes "version", newInt64 1) = 44 :: bytes "\"version\":1" := by
    decide
  have hmembers : 44 :: appendMembers (presentFields (cacheFields kind cache)) =
      memberText (bytes "version", newInt64 1) ++
        (cacheFields kind cache).tail.flatMap fieldText := by
    rw [← flatMap_presentFields]
    exact appendMembers_cons _ _
  rw [hversion, cons_append] at hmembers
  exact (List.cons.inj hmembers).2

/-- The document is the text of the object. -/
theorem encodeCache_eq (kind : Kind) (cache : Cache) :
    encodeCache kind cache = appendValue (cacheJson kind cache) := by
  have hfront : bytes "\x7b\"version\":1,\"profile\":" =
      123 :: bytes "\"version\":1" ++ bytes ",\"profile\":" := by decide
  have hback : bytes "\x7d" = [125] := by decide
  rw [cacheJson, appendValue, appendMembers_cacheFields, cacheFields, tail_cons]
  simp only [flatMap_cons, flatMap_nil, append_nil, fieldText_some, fieldText_ite]
  rw [memberText_eq (bytes ",\"profile\":") (by decide),
    memberText_eq (bytes ",\"name\":") (by decide),
    memberText_eq (bytes ",\"url\":") (by decide),
    memberText_eq (bytes ",\"format\":") (by decide),
    memberText_eq (bytes ",\"action\":") (by decide),
    memberText_eq (bytes ",\"networks\":") (by decide),
    memberText_eq (bytes ",\"etag\":") (by decide),
    memberText_eq (bytes ",\"last_modified\":") (by decide),
    memberText_eq (bytes ",\"fetched_ts_ns\":") (by decide),
    memberText_eq (bytes ",\"domain_suffixes\":") (by decide),
    memberText_eq (bytes ",\"cidrs\":") (by decide),
    memberText_eq (bytes ",\"skipped\":") (by decide)]
  simp only [appendValue_stringsJson, appendValue, newInt64, actionText]
  cases kind with
  | ruleSet | subscription =>
    rw [encodeCache, hfront, hback]
    simp [decimalInt]

/-! ## Reading the members -/

/-- The strings of a cache are C strings, and its numbers fit. -/
structure Cache.Terminated (cache : Cache) : Prop where
  profile : 0 ∉ cache.identity.profile
  name : 0 ∉ cache.identity.name
  url : 0 ∉ cache.identity.url
  action : 0 ∉ cache.action
  networks : ∀ network ∈ cache.networks, 0 ∉ network
  etag : 0 ∉ cache.etag
  lastModified : 0 ∉ cache.lastModified
  fetchedTsNs : longMin ≤ cache.fetchedTsNs ∧ cache.fetchedTsNs ≤ longMax
  feed : cache.feed.Normal

theorem zero_notMem_domain {domain : Bytes} (h : domainValid domain = true) : 0 ∉ domain :=
  fun hmem ↦ ((domainValid_spec h).1 0 hmem).facts.2.2.1 rfl

variable {s : Bytes}

variable {strings : List Bytes}

theorem writable_stringsJson (h : ∀ s ∈ strings, 0 ∉ s) : Writable 2 (stringsJson strings) := by
  refine .array fun item hitem ↦ ?_
  obtain ⟨s, hs, rfl⟩ := mem_map.1 hitem
  exact .string (h s hs)

variable {cache : Cache}

variable (h : cache.Terminated)

include h

/-- Every member of the document has a value that the writer is for. -/
theorem writable_cacheFields (kind : Kind) :
    ∀ field ∈ cacheFields kind cache, 0 ∉ field.1 ∧ ∀ value ∈ field.2, Writable 2 value := by
  have hsome : ∀ {value : Json}, Writable 2 value → ∀ v ∈ some value, Writable 2 v := by
    intro value hvalue v hv
    cases hv
    exact hvalue
  have hite : ∀ {c : Prop} [Decidable c] {value : Json}, Writable 2 value →
      ∀ v ∈ (if c then none else some value), Writable 2 v := by
    intro c _ value hvalue v hv
    split at hv <;> cases hv
    exact hvalue
  have haction : 0 ∉ actionText cache := by
    rw [actionText]
    split
    · decide
    · exact h.action
  have hskipped : (cache.feed.skipped : Int) ≤ longMax := by
    have hskipped := h.feed.skipped
    have hlong : ((maxBytes + 1 : Nat) : Int) ≤ longMax := by decide
    omega
  have hdomains := writable_stringsJson fun d hd ↦ zero_notMem_domain (h.feed.domains.all d hd)
  have hcidrs := writable_stringsJson fun c hc ↦
    zero_notMem_of_normalizeCidr (h.feed.cidrs.all c hc)
  simp only [cacheFields, forall_mem_cons]
  exact ⟨⟨by decide, hsome (.newInt64 (by decide) (by decide))⟩,
    ⟨by decide, hsome (.string h.profile)⟩, ⟨by decide, hsome (.string h.name)⟩,
    ⟨by decide, hsome (.string h.url)⟩, ⟨by decide, hsome (.string h.feed.format)⟩,
    ⟨by decide, hite (.string haction)⟩,
    ⟨by decide, hite (writable_stringsJson h.networks)⟩,
    ⟨by decide, hite (.string h.etag)⟩, ⟨by decide, hite (.string h.lastModified)⟩,
    ⟨by decide, hsome (.newInt64 h.fetchedTsNs.1 h.fetchedTsNs.2)⟩,
    ⟨by decide, hite hdomains⟩, ⟨by decide, hite hcidrs⟩,
    ⟨by decide, hsome (.newInt64 (by rw [longMin]; omega) hskipped)⟩, by simp⟩

theorem writable_presentFields (kind : Kind) :
    ∀ member ∈ presentFields (cacheFields kind cache), 0 ∉ member.1 ∧ Writable 2 member.2 := by
  intro member hmember
  obtain ⟨field, hfield, hpresent⟩ := mem_filterMap.1 hmember
  obtain ⟨value, hvalue, rfl⟩ := Option.map_eq_some_iff.1 hpresent
  obtain ⟨hkey, hwritable⟩ := writable_cacheFields h kind field hfield
  exact ⟨hkey, hwritable value hvalue⟩

theorem writable_cacheJson (kind : Kind) :
    Writable 3 (cacheJson kind cache) :=
  .object (writable_presentFields h kind)

theorem zero_notMem_encodeCache (kind : Kind) :
    0 ∉ encodeCache kind cache := by
  rw [encodeCache_eq]
  exact (writable_cacheJson h kind).1.zero_notMem_appendValue

/-- **The document is read back.** -/
theorem parse_encodeCache (kind : Kind) :
    Json.parse (encodeCache kind cache) = .ok (cacheJson kind cache) := by
  rw [encodeCache_eq]
  exact (writable_cacheJson h kind).parse (by decide)

omit h

theorem lookup_presentFields {fields : List (Bytes × Option Json)}
    (h : (fields.map Prod.fst).Nodup) (key : Bytes) :
    (presentFields fields).lookup key = (fields.lookup key).join := by
  induction fields with
  | nil => rfl
  | cons field fields ih =>
    obtain ⟨name, value⟩ := field
    rw [map_cons, nodup_cons] at h
    have ih := ih h.2
    rw [presentFields] at ih ⊢
    by_cases hkey : key = name
    · subst hkey
      cases value with
      | some value => simp
      | none =>
        have hnone : fields.lookup key = none := by
          rw [lookup_eq_none_iff]
          intro p hp
          simp only [bne_iff_ne, ne_eq]
          exact fun heq ↦ h.1 (mem_map.2 ⟨p, hp, heq.symm⟩)
        simp [ih, hnone]
    · have hbeq : (key == name) = false := by simpa using hkey
      cases value with
      | some value => simp [lookup_cons, hbeq, ih]
      | none => simp [lookup_cons, hbeq, ih]

theorem objectGet_cacheJson (kind : Kind) (cache : Cache) (key : Bytes) :
    objectGet (cacheJson kind cache) key = ((cacheFields kind cache).lookup key).join := by
  refine lookup_presentFields ?_ key
  simp only [cacheFields, map_cons, map_nil]
  decide

variable {kind : Kind} (key : String)

theorem copyJsonString_some
    {required : Bool} (h : (cacheFields kind cache).lookup (bytes key) = some (some (.string s))) :
    copyJsonString (cacheJson kind cache) key required = .ok s := by
  simp only [copyJsonString, objectGet_cacheJson, h]
  rfl

/-- A string that is written unless it is empty. -/
theorem copyJsonString_ite
    (h : (cacheFields kind cache).lookup (bytes key) =
      some (if s = [] then none else some (.string s))) :
    copyJsonString (cacheJson kind cache) key false = .ok s := by
  simp only [copyJsonString, objectGet_cacheJson, h]
  cases s with
  | nil => rfl
  | cons c s => rfl

/-- Strings that are written unless there are none. -/
theorem loadJsonStrings_ite
    (normalize : Bytes → Option Bytes)
    (h : (cacheFields kind cache).lookup (bytes key) =
      some (if strings = [] then none else some (stringsJson strings))) :
    loadJsonStrings (cacheJson kind cache) key normalize =
      loadItems key normalize (strings.map .string) [] := by
  simp only [loadJsonStrings, objectGet_cacheJson, h]
  cases strings with
  | nil => rfl
  | cons s strings => rfl

/-- The networks that are written. -/
def writtenNetworks (kind : Kind) (cache : Cache) : List Bytes :=
  if kind = .ruleSet then [] else cache.networks

theorem loadNetworks_cacheJson (kind : Kind) (cache : Cache) :
    loadNetworks (cacheJson kind cache) =
      loadNetworkItems ((writtenNetworks kind cache).map .string) [] := by
  have hlookup : (cacheFields kind cache).lookup (bytes "networks") =
      some (if kind = .ruleSet ∨ cache.networks = [] then none
        else some (stringsJson cache.networks)) := rfl
  simp only [loadNetworks, objectGet_cacheJson, hlookup, writtenNetworks]
  cases kind with
  | ruleSet => rfl
  | subscription =>
    cases cache.networks with
    | nil => rfl
    | cons network networks => rfl

/-- The document, decoded: the lists go through the loops of the reader, and the timestamp through
the search. -/
theorem decodeCache_encodeCache (h : cache.Terminated) (kind : Kind) :
    decodeCache cache.identity (encodeCache kind cache) = (do
      let domains ← loadItems "domain_suffixes" normalizeDomain
        (cache.feed.domainSuffixes.map .string) []
      let cidrs ← loadItems "cidrs" normalizeCidr (cache.feed.cidrs.map .string) []
      let networks ← loadNetworkItems ((writtenNetworks kind cache).map .string) []
      return some
        { identity := cache.identity
          feed := ⟨cache.feed.format, sortStrings domains, sortStrings cidrs, cache.feed.skipped⟩
          action := if kind = .ruleSet then [] else actionText cache
          networks := sortStrings networks
          etag := cache.etag
          lastModified := cache.lastModified
          fetchedTsNs := fetchedTimestamp ((encodeCache kind cache).takeWhile (· ≠ 0)) }) := by
  have haction : copyJsonString (cacheJson kind cache) "action" false =
      .ok (if kind = .ruleSet then [] else actionText cache) := by
    have hlookup : (cacheFields kind cache).lookup (bytes "action") =
        some (if kind = .ruleSet then none else some (.string (actionText cache))) := rfl
    simp only [copyJsonString, objectGet_cacheJson, hlookup]
    cases kind <;> rfl
  have hversion : numberValue (objectGet (cacheJson kind cache) (bytes "version")) 0 = 1 := by
    rw [objectGet_cacheJson]
    exact Binary64.round_intCast (i := 1) (by decide)
  have hskipped : (numberValue (objectGet (cacheJson kind cache) (bytes "skipped")) 0).floor.toNat =
      cache.feed.skipped := by
    have hbound := h.feed.skipped
    have hround : Binary64.round ((cache.feed.skipped : Int) : Rat) =
        (cache.feed.skipped : Int) := by
      refine Binary64.round_intCast ?_
      rw [maxBytes] at hbound
      rw [abs_of_nonneg (by omega)]
      omega
    rw [objectGet_cacheJson]
    refine (congrArg (fun q : Rat ↦ q.floor.toNat) hround).trans ?_
    rw [Rat.floor_intCast, Int.toNat_natCast]
  have hobject : (cacheJson kind cache).isObject = true := rfl
  simp only [decodeCache, parse_encodeCache h kind, ok_bind, hversion, hskipped, hobject, haction]
  rw [copyJsonString_some "profile" rfl, copyJsonString_some "name" rfl,
    copyJsonString_some "url" rfl, copyJsonString_some "format" rfl, copyJsonString_ite "etag" rfl,
    copyJsonString_ite "last_modified" rfl, loadJsonStrings_ite "domain_suffixes" _ rfl,
    loadJsonStrings_ite "cidrs" _ rfl, loadNetworks_cacheJson]
  simp only [ok_bind]
  rw [if_neg (by decide), if_neg (not_not.2 rfl)]

/-! ## The lists -/

/-- Strings without repetitions, each in the place where it came first. -/
def firsts (strings : List Bytes) : List Bytes :=
  strings.reverse.dedup.reverse

theorem mem_firsts {s : Bytes} : s ∈ firsts strings ↔ s ∈ strings := by
  rw [firsts, mem_reverse, mem_dedup, mem_reverse]

theorem firsts_of_nodup (h : strings.Nodup) : firsts strings = strings := by
  rw [firsts, (nodup_reverse.2 h).dedup, reverse_reverse]

theorem addUnique_firsts (h : strings.dedup.length ≤ maxEntries) (value : Bytes) :
    addUnique (firsts strings) value =
      if (strings ++ [value]).dedup.length ≤ maxEntries then .ok (firsts (strings ++ [value]))
      else .error tooManyEntries := by
  have hlength := (reverse_perm strings).dedup.length_eq
  rw [addUnique, firsts, firsts, ← (reverse_perm (strings ++ [value])).dedup.length_eq,
    length_reverse, reverse_append, reverse_singleton, singleton_append]
  by_cases hmem : value ∈ strings.reverse
  · rw [if_pos (by simpa using hmem), dedup_cons_of_mem hmem, if_pos (by omega)]
  · rw [if_neg (by simpa using hmem), dedup_cons_of_notMem hmem, reverse_cons, length_cons]
    split
    · rw [if_neg (by omega)]
    · rw [if_pos (by omega)]

/-- The strings that are collected, unless there are too many of them. -/
theorem foldlM_addUnique (h : strings.dedup.length ≤ maxEntries) (values : List Bytes) :
    values.foldlM addUnique (firsts strings) =
      if (strings ++ values).dedup.length ≤ maxEntries then .ok (firsts (strings ++ values))
      else .error tooManyEntries := by
  induction values generalizing strings with
  | nil =>
    rw [append_nil, if_pos h]
    rfl
  | cons value values ih =>
    rw [foldlM_cons, addUnique_firsts h, append_cons strings value values]
    split
    · exact ih ‹_›
    · have hle : (strings ++ [value]).dedup.length ≤ (strings ++ [value] ++ values).dedup.length :=
        ((nodup_dedup _).subperm fun s hs ↦
          mem_dedup.2 (mem_append_left values (mem_dedup.1 hs))).length_le
      rw [if_neg (by omega)]
      rfl

/-- The loop over the entries collects their normal forms. -/
theorem loadItems_eq (normalize : Bytes → Option Bytes) (strings : List Bytes) :
    loadItems key normalize (strings.map .string) [] =
      if (strings.filterMap normalize).dedup.length ≤ maxEntries then
        .ok (firsts (strings.filterMap normalize))
      else .error tooManyEntries := by
  have hfold : ∀ out, loadItems key normalize (strings.map .string) out =
      (strings.filterMap normalize).foldlM addUnique out := by
    induction strings with
    | nil => exact fun out ↦ rfl
    | cons raw strings ih =>
      intro out
      simp only [map_cons, loadItems, stringValue]
      cases hraw : normalize raw with
      | none => rw [filterMap_cons_none hraw, ih]
      | some value => simp only [filterMap_cons_some hraw, foldlM_cons, ih]
  exact (hfold []).trans (@foldlM_addUnique [] (Nat.zero_le _) _)

/-- The loop over the networks collects them in lower case, each cut at 15 bytes. -/
theorem loadNetworkItems_eq (strings : List Bytes) :
    loadNetworkItems (strings.map .string) [] =
      if (strings.map fun network ↦ lower (network.take 15)).dedup.length ≤ maxEntries then
        .ok (firsts (strings.map fun network ↦ lower (network.take 15)))
      else .error tooManyEntries := by
  have hfold : ∀ out, loadNetworkItems (strings.map .string) out =
      (strings.map fun network ↦ lower (network.take 15)).foldlM addUnique out := by
    induction strings with
    | nil => exact fun out ↦ rfl
    | cons network strings ih =>
      intro out
      simp only [map_cons, loadNetworkItems, stringValue, foldlM_cons, ih]
  exact (hfold []).trans (@foldlM_addUnique [] (Nat.zero_le _) _)

/-! ## The timestamp -/

/-- The members in front of the timestamp. -/
def frontMembers (kind : Kind) (cache : Cache) : List Front :=
  [.text (bytes "profile") cache.identity.profile, .text (bytes "name") cache.identity.name,
      .text (bytes "url") cache.identity.url, .text (bytes "format") cache.feed.format] ++
    (if kind = .ruleSet then [] else [.text (bytes "action") (actionText cache)]) ++
    (if kind = .ruleSet ∨ cache.networks = [] then []
      else [.texts (bytes "networks") cache.networks]) ++
    (if cache.etag = [] then [] else [.text (bytes "etag") cache.etag]) ++
    if cache.lastModified = [] then [] else [.text (bytes "last_modified") cache.lastModified]

theorem isFrontKey_frontMembers (kind : Kind) (cache : Cache) :
    ∀ front ∈ frontMembers kind cache, IsFrontKey front.key := by
  have hite : ∀ {c : Prop} [Decidable c] {front : Front}, IsFrontKey front.key →
      ∀ f ∈ (if c then [] else [front]), IsFrontKey f.key := by
    intro c _ front hfront f hf
    split at hf
    · cases hf
    · rw [mem_singleton.1 hf]
      exact hfront
  simp only [frontMembers, forall_mem_append, forall_mem_cons, Front.key]
  have haction : IsFrontKey (bytes "action") := by decide
  have hnetworks : IsFrontKey (bytes "networks") := by decide
  have hetag : IsFrontKey (bytes "etag") := by decide
  have hlastModified : IsFrontKey (bytes "last_modified") := by decide
  exact ⟨⟨⟨⟨⟨by decide, by decide, by decide, by decide, by simp⟩, hite haction⟩, hite hnetworks⟩,
    hite hetag⟩, hite hlastModified⟩

theorem flatMap_ite (c : Prop) [Decidable c] (front : Front) :
    (if c then [] else [front]).flatMap Front.encode = if c then [] else front.encode := by
  split <;> simp

theorem encode_text (key s : Bytes) : (Front.text key s).encode = memberText (key, .string s) := by
  rw [Front.encode, memberText, appendValue]
  rfl

theorem encode_texts (key : Bytes) (strings : List Bytes) :
    (Front.texts key strings).encode = memberText (key, stringsJson strings) := by
  rw [Front.encode, memberText, appendValue_stringsJson]
  rfl

/-- The document, from its front to the timestamp. -/
theorem encodeCache_fronts (kind : Kind) (cache : Cache) :
    ∃ rest, encodeCache kind cache = bytes "\x7b\"version\":1" ++
      ((frontMembers kind cache).flatMap Front.encode ++
        (44 :: (appendString (bytes "fetched_ts_ns") ++ 58 :: (decimalInt cache.fetchedTsNs ++
          44 :: rest)))) := by
  have hfront : bytes "\x7b\"version\":1" = 123 :: bytes "\"version\":1" := by decide
  have hskipped : ∀ text, ∃ rest,
      memberText (bytes "skipped", newInt64 cache.feed.skipped) ++ text = 44 :: rest :=
    fun text ↦ ⟨_, rfl⟩
  have hmember : ∀ (c : Prop) [Decidable c] (member : Bytes × Json) (text rest : Bytes),
      text = 44 :: rest → ∃ rest', (if c then [] else memberText member) ++ text = 44 :: rest' := by
    intro c _ member text rest htext
    split
    · exact ⟨rest, htext⟩
    · exact ⟨_, rfl⟩
  -- what follows the timestamp begins with a comma,
  -- since the count of skipped lines is always there
  obtain ⟨rest₁, h₁⟩ := hskipped [125]
  obtain ⟨rest₂, h₂⟩ := hmember (cache.feed.cidrs = [])
    (bytes "cidrs", stringsJson cache.feed.cidrs) _ rest₁ h₁
  obtain ⟨rest₃, h₃⟩ := hmember (cache.feed.domainSuffixes = [])
    (bytes "domain_suffixes", stringsJson cache.feed.domainSuffixes) _ rest₂ h₂
  refine ⟨rest₃, ?_⟩
  rw [encodeCache_eq, cacheJson, appendValue, appendMembers_cacheFields, cacheFields, tail_cons,
    hfront, frontMembers, ← h₃]
  simp only [flatMap_append, flatMap_cons, flatMap_nil, append_nil, flatMap_ite,
    encode_text, encode_texts, fieldText_some, fieldText_ite]
  have htimestamp : memberText (bytes "fetched_ts_ns", newInt64 cache.fetchedTsNs) =
      44 :: (appendString (bytes "fetched_ts_ns") ++ 58 :: decimalInt cache.fetchedTsNs) := by
    rw [memberText, newInt64, appendValue]
    rfl
  rw [htimestamp]
  simp

/-- **The timestamp of the document**, as it is read. -/
theorem fetchedTimestamp_encodeCache (h : cache.Terminated) (kind : Kind) :
    fetchedTimestamp ((encodeCache kind cache).takeWhile (· ≠ 0)) =
      (stray (frontMembers kind cache)).getD cache.fetchedTsNs := by
  have hwhole := takeWhile_ne_eq_self_iff.2 (zero_notMem_encodeCache h kind)
  obtain ⟨rest, hdocument⟩ := encodeCache_fronts kind cache
  have hnumber := readTimestamp_decimalInt rest h.fetchedTsNs.1 h.fetchedTsNs.2
  have hnext : behindColon (44 :: (appendString (bytes "fetched_ts_ns") ++
      58 :: (decimalInt cache.fetchedTsNs ++ 44 :: rest))) =
        some (decimalInt cache.fetchedTsNs ++ 44 :: rest) := by
    rw [behindColon_cons (by decide), behindColon_string (by decide), behindColon_colon]
  have hfound : search (44 :: (appendString (bytes "fetched_ts_ns") ++
      58 :: (decimalInt cache.fetchedTsNs ++ 44 :: rest))) =
        some (decimalInt cache.fetchedTsNs ++ 44 :: rest) := by
    rw [search_cons_of_ne (by decide), search_appendString (by simp), if_pos (by decide),
      behindColon_colon]
  have hversion : ∀ text, search (bytes "\x7b\"version\":1" ++ text) = search text := by
    intro text
    have hsplit : bytes "\x7b\"version\":1" ++ text =
        [123] ++ (appendString (bytes "version") ++ ([58, 49] ++ text)) := rfl
    rw [hsplit, search_append (by decide), search_appendString (by simp), if_neg (by decide),
      search_append (by decide)]
  rw [hwhole, fetchedTimestamp_eq, hdocument, hversion]
  refine readFound_members (isFrontKey_frontMembers kind cache) rfl ?_ ?_
  · rw [readFound, hfound]
    exact hnumber
  · rw [readNext, hnext]
    exact hnumber

end ClambHook.RuleFeed
