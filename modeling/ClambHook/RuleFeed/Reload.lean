import ClambHook.RuleFeed.Document

/-!
# The cache is read back

What `storeResponse` has written is what `load` returns, for every feed, every other file in the
directory and every order in which `readdir` returns the names, under a condition that `reload_iff`
makes exact.

Five things can go wrong.  The reader takes no document of more than 5 MiB and 64 KiB, which the
writer may exceed.  It takes no more than 200,000 networks of a subscription, which the writer does
not count.  A domain that ends in a dot loses it.  The search for the timestamp may end at a string
that was fetched or configured.  And a file with the same front of its name that `readdir` returns
first is decisive if it can be opened and is not the document of another feed: what cannot be read
or parsed ends the search, and the document of an older version is taken for the feed's own.
-/

namespace ClambHook.RuleFeed

open CString Json List

/-! ## Specification -/

/-- The width of a character in a JSON string. -/
def escapeWidth (c : UInt8) : Nat :=
  if c ∈ ([34, 92, 8, 9, 10, 12, 13] : Bytes) then 2 else if c < 32 then 6 else 1

/-- The size of a string in a document. -/
def quotedSize (s : Bytes) : Nat :=
  2 + (s.map escapeWidth).sum

/-- The size of a list in a document, with its brackets and commas. -/
def listSize (strings : List Bytes) : Nat :=
  if strings = [] then 2 else 1 + (strings.map fun s ↦ quotedSize s + 1).sum

/-- The size of a member, with its comma and its colon. -/
def memberSize (key : String) (size : Nat) : Nat :=
  quotedSize (bytes key) + 2 + size

/-- The size of the document of a cache. -/
def documentSize (kind : Kind) (cache : Cache) : Nat :=
  (bytes "\x7b\"version\":1\x7d").length +
    memberSize "profile" (quotedSize cache.identity.profile) +
    memberSize "name" (quotedSize cache.identity.name) +
    memberSize "url" (quotedSize cache.identity.url) +
    memberSize "format" (quotedSize cache.feed.format) +
    (if kind = .ruleSet then 0 else memberSize "action" (quotedSize (actionText cache))) +
    (if kind = .ruleSet ∨ cache.networks = [] then 0
      else memberSize "networks" (listSize cache.networks)) +
    (if cache.etag = [] then 0 else memberSize "etag" (quotedSize cache.etag)) +
    (if cache.lastModified = [] then 0
      else memberSize "last_modified" (quotedSize cache.lastModified)) +
    memberSize "fetched_ts_ns" (decimalInt cache.fetchedTsNs).length +
    (if cache.feed.domainSuffixes = [] then 0
      else memberSize "domain_suffixes" (listSize cache.feed.domainSuffixes)) +
    (if cache.feed.cidrs = [] then 0 else memberSize "cidrs" (listSize cache.feed.cidrs)) +
    memberSize "skipped" (decimal cache.feed.skipped).length

/-- What a cache must be like to be read back from its document. -/
structure Readable (kind : Kind) (cache : Cache) : Prop where
  size : documentSize kind cache ≤ maxBytes + 65536
  networks : kind = .subscription →
    (cache.networks.map fun network ↦ lower (network.take 15)).dedup.length ≤ maxEntries
  domains : ∀ domain ∈ cache.feed.domainSuffixes, domain.getLast? ≠ some 46
  timestamp : ∀ other ∈ stray (frontMembers kind cache), other = cache.fetchedTsNs

/-- A file that is passed over: it cannot be opened, or it is the document of another feed. -/
def Foreign (identity : Identity) : File → Prop
  | .closed => True
  | .broken => False
  | .contents text => text.length ≤ maxBytes + 65536 ∧ ∃ root, Json.parse text = .ok root ∧
      root.isObject = true ∧ numberValue (objectGet root (bytes "version")) 0 = 1 ∧
      ∃ profile name url, stringValue (objectGet root (bytes "profile")) = some profile ∧
        stringValue (objectGet root (bytes "name")) = some name ∧
        stringValue (objectGet root (bytes "url")) = some url ∧ identity ≠ ⟨profile, name, url⟩

/-- The first file of a list that is not passed over. -/
def Decides (identity : Identity) (files : List (Bytes × File)) (file : Bytes × File) : Prop :=
  ∃ front back, files = front ++ file :: back ∧ (∀ f ∈ front, Foreign identity f.2) ∧
    ¬Foreign identity file.2

/-- The files of a feed that `readdir` returns before the one that was written. -/
def earlierFiles (options : Options) (dir : Directory) (names : List Bytes) : List (Bytes × File) :=
  matchingFiles options.configPath options.kind options.identity dir
    (names.takeWhile (· ≠ cacheName options.identity))

/-- What a round trip is to keep. -/
structure Same (cache loaded : Cache) : Prop where
  domains : loaded.feed.domainSuffixes = cache.feed.domainSuffixes
  cidrs : loaded.feed.cidrs = cache.feed.cidrs
  url : loaded.identity.url = cache.identity.url
  etag : loaded.etag = cache.etag
  lastModified : loaded.lastModified = cache.lastModified
  fetchedTsNs : loaded.fetchedTsNs = cache.fetchedTsNs

/-- The condition on the other files and on what is stored. -/
structure Reloadable (options : Options) (cache : Cache) (dir : Directory) (names : List Bytes) :
    Prop where
  earlier : ∀ file, Decides options.identity (earlierFiles options dir names) file →
    ∃ loaded, loadFile options.identity file.1 file.2 = .ok (some loaded) ∧ Same cache loaded
  readable : (∀ file ∈ earlierFiles options dir names, Foreign options.identity file.2) →
    Readable options.kind cache

/-- The strings of a request are C strings. -/
structure Options.Terminated (options : Options) : Prop where
  profile : 0 ∉ options.identity.profile
  name : 0 ∉ options.identity.name
  url : 0 ∉ options.identity.url
  action : ∀ action ∈ options.action, 0 ∉ action
  networks : ∀ network ∈ options.networks, 0 ∉ network

/-! ## The size of the document -/

theorem length_escapeChar (c : UInt8) : (escapeChar c).length = escapeWidth c := by
  rw [escapeChar, escapeWidth]
  split_ifs <;> simp_all

theorem length_appendString (s : Bytes) : (appendString s).length = quotedSize s := by
  have hwidths : s.map (fun c ↦ (escapeChar c).length) = s.map escapeWidth :=
    map_congr_left fun c _ ↦ length_escapeChar c
  rw [appendString, length_append, length_cons, length_flatMap, hwidths, quotedSize,
    length_singleton]
  omega

theorem length_appendStrings (strings : List Bytes) :
    (appendStrings strings).length = listSize strings := by
  cases strings with
  | nil => rfl
  | cons s rest =>
    have hbrackets : (bytes "[").length = 1 ∧ (bytes "]").length = 1 := by decide
    have hparts : ((rest.map appendString).flatMap ([44] ++ ·)).length =
        (rest.map fun s ↦ quotedSize s + 1).sum := by
      simp [length_flatMap, Function.comp_def, length_appendString]
    rw [appendStrings, length_append, length_append, hbrackets.1, hbrackets.2, listSize,
      if_neg (cons_ne_nil s rest), map_cons, intercalate_eq_flatMap, length_append, hparts,
      length_appendString, map_cons, sum_cons]
    omega

theorem length_memberText (key : String) (value : Json) :
    (memberText (bytes key, value)).length = memberSize key (appendValue value).length := by
  rw [memberText, length_append, length_cons, length_cons, length_appendString,
    memberSize]
  simp only
  omega

/-- The size of the document is the length of its text. -/
theorem length_encodeCache (kind : Kind) (cache : Cache) :
    (encodeCache kind cache).length = documentSize kind cache := by
  have hfront : (bytes "\"version\":1").length + 2 = (bytes "\x7b\"version\":1\x7d").length := by
    decide
  rw [encodeCache_eq, cacheJson, appendValue, appendMembers_cacheFields, cacheFields, tail_cons]
  simp only [flatMap_cons, flatMap_nil, append_nil, fieldText_some, fieldText_ite,
    length_append, length_cons, length_nil, apply_ite List.length, length_memberText,
    appendValue_stringsJson, length_appendStrings, newInt64, appendValue, length_appendString]
  rw [documentSize, ← hfront]
  simp only [decimalInt]
  omega

/-! ## The feed's own file -/

variable {cache : Cache}

theorem not_foreign_encodeCache (h : cache.Terminated) (kind : Kind) :
    ¬Foreign cache.identity (.contents (encodeCache kind cache)) := by
  rintro ⟨-, root, hparse, -, -, profile, name, url, hprofile, hname, hurl, hne⟩
  rw [parse_encodeCache h kind] at hparse
  cases hparse
  rw [objectGet_cacheJson] at hprofile hname hurl
  cases hprofile
  cases hname
  cases hurl
  exact hne rfl

variable {feed : Feed}

theorem filterMap_eq_self {f : Bytes → Option Bytes} {strings : List Bytes}
    (h : ∀ s ∈ strings, f s = some s) : strings.filterMap f = strings :=
  (filterMap_congr h).trans filterMap_some

/-- The domains are loaded as they are iff none ends in a dot. -/
theorem loadItems_domains (h : feed.Normal) :
    ∃ domains, loadItems "domain_suffixes" normalizeDomain (feed.domainSuffixes.map .string) [] =
        .ok domains ∧
      (sortStrings domains = feed.domainSuffixes ↔
        ∀ domain ∈ feed.domainSuffixes, domain.getLast? ≠ some 46) := by
  have hlength : (feed.domainSuffixes.filterMap normalizeDomain).dedup.length ≤ maxEntries :=
    ((dedup_sublist _).length_le.trans (length_filterMap_le _ _)).trans h.domains.length
  rw [loadItems_eq, if_pos hlength]
  refine ⟨_, rfl, fun heq domain hdomain ↦ ?_, fun hdots ↦ ?_⟩
  · rw [← heq] at hdomain
    obtain ⟨raw, hraw, hnormal⟩ :=
      mem_filterMap.1 (mem_firsts.1 ((mem_insertionSort _).1 hdomain))
    exact getLast?_normalizeDomain (h.domains.all raw hraw) hnormal
  · have hself : feed.domainSuffixes.filterMap normalizeDomain = feed.domainSuffixes :=
      filterMap_eq_self fun domain hdomain ↦
        normalizeDomain_eq_self (h.domains.all domain hdomain) (hdots domain hdomain)
    rw [hself, firsts_of_nodup h.domains.nodup]
    exact h.domains.sortStrings_eq

theorem loadItems_cidrs (h : feed.Normal) :
    loadItems "cidrs" normalizeCidr (feed.cidrs.map .string) [] = .ok feed.cidrs := by
  have hself := filterMap_eq_self h.cidrs.all
  rw [loadItems_eq, hself, h.cidrs.nodup.dedup, if_pos h.cidrs.length,
    firsts_of_nodup h.cidrs.nodup]

theorem loadNetworkItems_written (kind : Kind) (cache : Cache) :
    (∃ networks, loadNetworkItems ((writtenNetworks kind cache).map .string) [] = .ok networks) ↔
      (kind = .subscription →
        (cache.networks.map fun network ↦ lower (network.take 15)).dedup.length ≤ maxEntries) := by
  cases kind with
  | ruleSet => exact iff_of_true ⟨[], rfl⟩ fun h ↦ by cases h
  | subscription =>
    rw [loadNetworkItems_eq, forall_prop_of_true rfl]
    split
    · next hlength => exact iff_of_true ⟨_, rfl⟩ hlength
    · next hlength => exact iff_of_false (by rintro ⟨_, ⟨⟩⟩) hlength

theorem loadFile_contents (identity : Identity) (path text : Bytes) :
    loadFile identity path (.contents text) =
      if text.length > maxBytes + 65536 then
        .error <| .set .invalidArgument (bytes "rule feed cache is too large")
      else decodeCache identity text := by
  rw [loadFile]
  by_cases hsize : text.length > maxBytes + 65536
  · have hread : readFile path (.contents text) =
        .error (.set .invalidArgument (bytes "rule feed cache is too large")) := if_pos hsize
    rw [hread, if_pos hsize]
    rfl
  · have hread : readFile path (.contents text) = .ok (some text) := if_neg hsize
    rw [hread, if_neg hsize, ok_bind]

/-- **The feed's own file** has what was stored in it iff the cache is readable. -/
theorem loadFile_encodeCache_iff (h : cache.Terminated) (kind : Kind) (path : Bytes) :
    (∃ loaded, loadFile cache.identity path (.contents (encodeCache kind cache)) =
        .ok (some loaded) ∧ Same cache loaded) ↔ Readable kind cache := by
  obtain ⟨domains, hdomains, hdots⟩ := loadItems_domains h.feed
  have hcidrs := loadItems_cidrs h.feed
  have htimestamp := fetchedTimestamp_encodeCache h kind
  by_cases hsize : documentSize kind cache ≤ maxBytes + 65536
  · rw [loadFile_contents, length_encodeCache, if_neg (not_lt.2 hsize),
      decodeCache_encodeCache h kind, hdomains, hcidrs, ok_bind, ok_bind]
    constructor
    · rintro ⟨loaded, hloaded, hsame⟩
      obtain ⟨networks, hnetworks, hresult⟩ := bind_eq_ok_iff.1 hloaded
      cases hresult
      have hfetched := hsame.fetchedTsNs
      refine ⟨hsize, (loadNetworkItems_written kind cache).1 ⟨networks, hnetworks⟩,
        hdots.1 hsame.domains, fun other hother ↦ ?_⟩
      rw [Option.mem_def] at hother
      simp only [htimestamp, hother, Option.getD_some] at hfetched
      exact hfetched
    · intro hreadable
      obtain ⟨networks, hnetworks⟩ := (loadNetworkItems_written kind cache).2 hreadable.networks
      rw [hnetworks]
      refine ⟨_, rfl, hdots.2 hreadable.domains, h.feed.cidrs.sortStrings_eq, rfl, rfl, rfl, ?_⟩
      simp only [htimestamp]
      cases hstray : stray (frontMembers kind cache) with
      | none => rfl
      | some other => exact hreadable.timestamp other hstray
  · refine iff_of_false ?_ fun hreadable ↦ hsize hreadable.size
    rintro ⟨loaded, hloaded, -⟩
    rw [loadFile_contents, length_encodeCache, if_pos (not_le.1 hsize)] at hloaded
    cases hloaded

/-! ## The other files -/

theorem copyJsonString_required {root : Json} {key : String} {text : Bytes} :
    copyJsonString root key true = .ok text ↔
      stringValue (objectGet root (bytes key)) = some text := by
  rw [copyJsonString]
  cases hvalue : stringValue (objectGet root (bytes key)) with
  | some s => simp
  | none => cases objectGet root (bytes key) <;> simp

variable {identity : Identity}

/-- A document is passed over iff it names another feed. -/
theorem decodeCache_eq_none_iff {json : Bytes} (hsize : json.length ≤ maxBytes + 65536) :
    decodeCache identity json = .ok none ↔ Foreign identity (.contents json) := by
  rw [Foreign, and_iff_right hsize, decodeCache, bind_eq_ok_iff]
  refine exists_congr fun root ↦ and_congr_right fun hroot ↦ ⟨fun h ↦ ?_, ?_⟩
  · split at h
    · cases h
    next hversion =>
    simp only [Bool.or_eq_true, Bool.not_eq_true', bne_iff_ne, ne_eq, not_or, Bool.not_eq_false,
      not_not] at hversion
    simp only [bind_eq_ok_iff] at h
    obtain ⟨profile, hprofile, name, hname, url, hurl, h⟩ := h
    split at h
    · next hidentity =>
      exact ⟨hversion.1, hversion.2, profile, name, url, copyJsonString_required.1 hprofile,
        copyJsonString_required.1 hname, copyJsonString_required.1 hurl, hidentity⟩
    · -- a document that names the feed has a cache, or fails
      simp only [bind_eq_ok_iff] at h
      obtain ⟨_, -, _, -, _, -, _, -, _, -, _, -, _, -, h⟩ := h
      cases h
  · rintro ⟨hobject, hversion, profile, name, url, hprofile, hname, hurl, hidentity⟩
    rw [if_neg (by simp [hobject, hversion]), copyJsonString_required.2 hprofile,
      copyJsonString_required.2 hname, copyJsonString_required.2 hurl, ok_bind, ok_bind, ok_bind,
      if_pos hidentity]
    rfl

theorem loadFile_eq_none_iff (path : Bytes) {file : File} :
    loadFile identity path file = .ok none ↔ Foreign identity file := by
  cases file with
  | closed => exact iff_of_true rfl trivial
  | broken => exact iff_of_false (fun h ↦ by cases h) id
  | contents text =>
    rw [loadFile_contents]
    split
    · next hsize =>
      exact iff_of_false (fun h ↦ by cases h) fun h ↦ absurd h.1 (not_le.2 hsize)
    · next hsize => exact decodeCache_eq_none_iff (not_lt.1 hsize)

variable {file : Bytes × File} {files : List (Bytes × File)}

open Classical in
theorem decides_iff_find? :
    Decides identity files file ↔ files.find? (fun f ↦ ¬Foreign identity f.2) = some file := by
  rw [find?_eq_some_iff_append]
  simp only [decide_not, Bool.not_not, Bool.not_eq_true', decide_eq_false_iff_not,
    decide_eq_true_eq]
  constructor
  · rintro ⟨front, back, hsplit, hfront, hfile⟩
    exact ⟨hfile, front, back, hsplit, hfront⟩
  · rintro ⟨hfile, front, back, hsplit, hfront⟩
    exact ⟨front, back, hsplit, hfront, hfile⟩

open Classical in
theorem all_foreign_iff : (∀ f ∈ files, Foreign identity f.2) ↔
    files.find? (fun f ↦ ¬Foreign identity f.2) = none := by
  simp only [find?_eq_none, decide_eq_true_iff, not_not]

open Classical in
/-- The first file that is not passed over is loaded. -/
theorem loadFiles_eq_ok_iff {loaded : Cache} :
    loadFiles identity files = .ok loaded ↔
      ∃ file ∈ files.find? (fun f ↦ ¬Foreign identity f.2),
        loadFile identity file.1 file.2 = .ok (some loaded) := by
  induction files with
  | nil => simp [loadFiles]
  | cons file files ih =>
    obtain ⟨path, file⟩ := file
    rw [loadFiles]
    by_cases hforeign : Foreign identity file
    · rw [find?_cons_of_neg (by simpa using hforeign), (loadFile_eq_none_iff path).2 hforeign]
      exact ih
    rw [find?_cons_of_pos (by simpa using hforeign)]
    rw [← loadFile_eq_none_iff path] at hforeign
    cases hload : loadFile identity path file with
    | error e => simp [hload]
    | ok result =>
      cases result with
      | none => exact absurd hload hforeign
      | some cache => simp [hload]

open Classical in
/-- **The search**: a file behind others is loaded if they are passed over. -/
theorem loadFiles_append_eq_ok_iff {own : Bytes × File} (hown : ¬Foreign identity own.2)
    {earlier rest : List (Bytes × File)} {loaded : Cache} :
    loadFiles identity (earlier ++ own :: rest) = .ok loaded ↔
      ∃ file, (earlier.find? fun f ↦ ¬Foreign identity f.2).getD own = file ∧
        loadFile identity file.1 file.2 = .ok (some loaded) := by
  rw [loadFiles_eq_ok_iff, find?_append, find?_cons_of_pos (by simpa using hown)]
  cases earlier.find? fun f ↦ ¬Foreign identity f.2 with
  | none => simp
  | some file => simp

/-! ## The directory after the write -/

theorem writeDocument_eq_ok {writes : List Write} {document written : Bytes}
    (h : writeDocument writes document = (written, .ok ())) : written = document := by
  induction writes generalizing document written with
  | nil => cases document <;> cases h <;> rfl
  | cons write writes ih =>
    cases document with
    | nil =>
      cases h
      rfl
    | cons c document =>
      cases write with
      | interrupted => exact ih h
      | failed strerror => cases h
      | wrote more =>
        simp only [writeDocument, Prod.mk.injEq] at h
        obtain ⟨rfl, hstatus⟩ := h
        have hrest : (writeDocument writes ((c :: document).drop (more + 1))).1 =
            (c :: document).drop (more + 1) := ih (Prod.ext rfl hstatus)
        rw [hrest]
        exact take_append_drop (more + 1) (c :: document)

variable {calls : Calls} {dir dir' : Directory}

/-- The temporary file that is renamed has the document in it. -/
theorem writeTemporary_eq_ok {document : Bytes}
    (h : writeTemporary calls document dir = (.ok (), dir')) :
    temporaryName calls ∉ dir ∧ dir' = dir.insert (temporaryName calls) (.contents document) := by
  rw [writeTemporary] at h
  split at h
  · cases h
  split at h
  · cases h
  next hnew =>
  split at h
  · cases h
  cases hwritten : writeDocument calls.writes document with
  | mk written status =>
    simp only [hwritten] at h
    split at h
    · cases h
    · cases h
    · cases h
      rw [writeDocument_eq_ok hwritten]
      exact ⟨hnew, rfl⟩

/-- After a write the feed's own file has the document, and every other file is as it was. -/
theorem lookup_cacheWrite {configPath : Bytes} {kind : Kind}
    (h : cacheWrite calls configPath kind cache dir = (.ok (), dir')) :
    configPath ≠ [] ∧ ∀ name, dir'.lookup name =
      if name = cacheName cache.identity then some (.contents (encodeCache kind cache))
      else dir.lookup name := by
  rw [cacheWrite] at h
  split at h
  · cases h
  next hpath =>
  refine ⟨hpath, fun name ↦ ?_⟩
  split at h
  · cases h
  split at h
  · cases h
  next after htemporary =>
  obtain ⟨hnew, rfl⟩ := writeTemporary_eq_ok htemporary
  split at h
  · cases h
  cases h
  rw [AList.lookup_insert, Option.getD_some]
  split
  · next hname => rw [hname, AList.lookup_insert]
  next hname =>
  rw [AList.lookup_insert_ne hname]
  by_cases htemporary : name = temporaryName calls
  · rw [htemporary, AList.lookup_erase, AList.lookup_eq_none.2 hnew]
  · rw [AList.lookup_erase_ne htemporary, AList.lookup_insert_ne htemporary]

variable {options : Options} {etag lastModified : Option Bytes}

theorem storeResponse_eq_ok {body : Bytes} {fetchedTsNs : Int}
    (h : storeResponse calls options body etag lastModified fetchedTsNs dir = (.ok (), dir')) :
    ∃ feed, parse body options.format = .ok feed ∧
      cacheWrite calls options.configPath options.kind
        (responseCache options feed etag lastModified fetchedTsNs) dir = (.ok (), dir') := by
  rw [storeResponse] at h
  split at h
  · cases h
  · split at h
    · cases h
    · next feed hparse => exact ⟨feed, hparse, h⟩

theorem terminated_responseCache {body : Bytes} {fetchedTsNs : Int} (hoptions : options.Terminated)
    (hetag : ∀ s ∈ etag, 0 ∉ s) (hlastModified : ∀ s ∈ lastModified, 0 ∉ s)
    (hmin : longMin ≤ fetchedTsNs) (hmax : fetchedTsNs ≤ longMax)
    (hfeed : parse body options.format = .ok feed) :
    (responseCache options feed etag lastModified fetchedTsNs).Terminated := by
  have hgetD : ∀ {text : Option Bytes}, (∀ s ∈ text, 0 ∉ s) → 0 ∉ text.getD [] := by
    intro text htext
    cases text with
    | none => simp
    | some s => exact htext s rfl
  refine ⟨hoptions.profile, hoptions.name, hoptions.url, ?_, fun network hnetwork ↦ ?_, hgetD hetag,
    hgetD hlastModified, ⟨hmin, hmax⟩, parse_normal hfeed⟩
  · simp only [responseCache]
    split
    · decide
    · exact hgetD hoptions.action
  · exact hoptions.networks network ((mem_insertionSort _).1 hnetwork)

/-! ## Names -/

theorem length_shortHash (identity : Identity) : (shortHash identity).length = 12 := by
  rw [shortHash, length_flatMap]
  simp [Sha256.length_digest]

theorem nameMatches_cacheName (identity : Identity) :
    nameMatches identity (cacheName identity) = true := by
  have hjson : (bytes ".json").length = 5 := by decide
  have hlength : (cacheName identity).length = (namePrefix identity).length + 17 := by
    rw [cacheName, length_append, length_append, length_shortHash, hjson]
  have hdrop : (cacheName identity).drop ((cacheName identity).length - 5) = bytes ".json" := by
    refine drop_left' ?_
    rw [hlength, length_append, length_shortHash]
    omega
  rw [nameMatches, Bool.and_eq_true, Bool.and_eq_true, decide_eq_true_eq,
    isPrefixOf_iff_prefix, beq_iff_eq]
  refine ⟨⟨by omega, ?_⟩, hdrop⟩
  rw [cacheName, append_assoc]
  exact prefix_append _ _

theorem exists_takeWhile_ne_append {own : Bytes} {names : List Bytes} (h : own ∈ names) :
    ∃ back, names.takeWhile (· ≠ own) ++ own :: back = names := by
  induction names with
  | nil => cases h
  | cons name names ih =>
    by_cases hname : name = own
    · exact ⟨names, by simp [hname]⟩
    · obtain ⟨back, hback⟩ := ih ((mem_cons.1 h).resolve_left (Ne.symm hname))
      refine ⟨back, ?_⟩
      rw [takeWhile_cons_of_pos (by simpa using hname), cons_append, hback]

/-- The matching files: those in front of the feed's own one, that one, and the rest. -/
theorem matchingFiles_eq {names : List Bytes} {file : File}
    (hlookup : ∀ name, dir'.lookup name =
      if name = cacheName options.identity then some file else dir.lookup name)
    (hown : cacheName options.identity ∈ names) :
    ∃ path rest, matchingFiles options.configPath options.kind options.identity dir' names =
      earlierFiles options dir names ++ (path, file) :: rest := by
  obtain ⟨back, hback⟩ := exists_takeWhile_ne_append hown
  have hfront : matchingFiles options.configPath options.kind options.identity dir'
      (names.takeWhile (· ≠ cacheName options.identity)) = earlierFiles options dir names := by
    refine map_congr_left fun name hname ↦ ?_
    have hne : name ≠ cacheName options.identity := by
      simpa using mem_takeWhile_imp (mem_filter.1 hname).1
    rw [hlookup, if_neg hne]
  refine ⟨cacheDirectory options.configPath options.kind ++ 47 :: cacheName options.identity,
    matchingFiles options.configPath options.kind options.identity dir' back, ?_⟩
  rw [← hfront]
  nth_rewrite 1 [← hback]
  rw [matchingFiles, filter_append, map_append,
    filter_cons_of_pos (nameMatches_cacheName options.identity), map_cons, hlookup,
    if_pos rfl]
  rfl

/-- **The cache is read back**, with the same entries, URL, validators and timestamp, iff what was
stored is readable, or a file that comes first holds the same. -/
theorem reload_iff {calls : Calls} {options : Options} {body : Bytes}
    {etag lastModified : Option Bytes}
    {fetchedTsNs : Int} {dir dir' : Directory} {feed : Feed} {names : List Bytes}
    (hoptions : options.Terminated) (hetag : ∀ s ∈ etag, 0 ∉ s)
    (hlastModified : ∀ s ∈ lastModified, 0 ∉ s) (hmin : longMin ≤ fetchedTsNs)
    (hmax : fetchedTsNs ≤ longMax) (hfeed : parse body options.format = .ok feed)
    (hstore : storeResponse calls options body etag lastModified fetchedTsNs dir = (.ok (), dir'))
    (hnames : names.Perm dir'.keys) :
    (∃ loaded, load options.configPath options.kind options.identity dir' names = .ok loaded ∧
        Same (responseCache options feed etag lastModified fetchedTsNs) loaded) ↔
      Reloadable options (responseCache options feed etag lastModified fetchedTsNs) dir names := by
  obtain ⟨feed', hfeed', hwrite⟩ := storeResponse_eq_ok hstore
  rw [hfeed] at hfeed'
  cases hfeed'
  have hterminated := terminated_responseCache hoptions hetag hlastModified hmin hmax hfeed
  obtain ⟨hpath, hlookup⟩ := lookup_cacheWrite hwrite
  have hidentity : (responseCache options feed etag lastModified fetchedTsNs).identity =
      options.identity := rfl
  rw [hidentity] at hlookup
  have hmem : cacheName options.identity ∈ names := by
    rw [hnames.mem_iff, ← AList.mem_keys, ← AList.lookup_isSome, hlookup, if_pos rfl]
    rfl
  obtain ⟨path, rest, hfiles⟩ := matchingFiles_eq hlookup hmem
  rw [load, if_neg hpath, hfiles]
  have hown := not_foreign_encodeCache hterminated options.kind
  rw [hidentity] at hown
  simp only [@loadFiles_append_eq_ok_iff _ (path, _) hown, exists_eq_left']
  have hreadable := loadFile_encodeCache_iff hterminated options.kind path
  -- the first file that is not passed over decides, or the feed's own one
  generalize hfind : List.find? _ (earlierFiles options dir names) = found
  cases found with
  | none =>
    refine hreadable.trans ⟨fun h ↦ ⟨fun file hdecides ↦ ?_, fun _ ↦ h⟩, fun h ↦
      h.readable (all_foreign_iff.2 hfind)⟩
    cases hfind.symm.trans (decides_iff_find?.1 hdecides)
  | some file =>
    refine ⟨fun h ↦ ⟨fun other hdecides ↦ ?_, fun hall ↦ ?_⟩, fun h ↦
      h.earlier file (decides_iff_find?.2 hfind)⟩
    · cases hfind.symm.trans (decides_iff_find?.1 hdecides)
      exact h
    · cases hfind.symm.trans (all_foreign_iff.1 hall)

/-- A rule set, to be stored where all calls succeed. -/
def exampleOptions : Options where
  configPath := bytes "clambhook.toml"
  kind := .ruleSet
  identity := ⟨bytes "home", bytes "ads", bytes "https://feeds.example/ads.txt"⟩
  format := bytes "plain"
  action := none
  networks := []

def exampleCalls : Calls where
  mkdir := none
  mkstemp := none
  temporary := bytes "a1b2c3"
  fchmod := none
  writes := [.wrote 9, .interrupted]
  close := none
  rename := none

/-- An empty directory, after a response was stored in it. -/
def exampleStored (body : Bytes) : Directory :=
  (storeResponse exampleCalls exampleOptions body none none 1700000000 ∅).2

def exampleFeed (domain : Bytes) : Feed where
  format := bytes "plain"
  domainSuffixes := [domain]
  cidrs := []
  skipped := 0

theorem reload_example :
    ∃ loaded, load exampleOptions.configPath exampleOptions.kind exampleOptions.identity
        (exampleStored (bytes "ads.example")) (exampleStored (bytes "ads.example")).keys =
          .ok loaded ∧
      Same (responseCache exampleOptions (exampleFeed (bytes "ads.example")) none none 1700000000)
        loaded := by
  have hkeys : (exampleStored (bytes "ads.example")).keys = [cacheName exampleOptions.identity] :=
    rfl
  have hearlier : earlierFiles exampleOptions ∅ (exampleStored (bytes "ads.example")).keys =
      [] := by
    rw [earlierFiles, hkeys, takeWhile_cons_of_neg (by simp)]
    rfl
  have hoptions : exampleOptions.Terminated :=
    ⟨by decide, by decide, by decide, by simp [exampleOptions], by simp [exampleOptions]⟩
  have hfeed : parse (bytes "ads.example") exampleOptions.format =
      .ok (exampleFeed (bytes "ads.example")) := by decide +kernel
  have hstore : storeResponse exampleCalls exampleOptions (bytes "ads.example") none none
      1700000000 ∅ = (.ok (), exampleStored (bytes "ads.example")) :=
    Prod.ext (by decide +kernel) rfl
  refine (reload_iff hoptions (by simp) (by simp) (by decide) (by decide) hfeed hstore (.refl _)).2
    ⟨fun file hdecides ↦ ?_, fun _ ↦ ?_⟩
  · rw [hearlier, decides_iff_find?] at hdecides
    cases hdecides
  · exact ⟨by decide +kernel, nofun, by decide +kernel, by decide +kernel⟩

/-- A domain that is written with three dots at its end is stored with one and loaded with none. -/
theorem reload_trailing_dot :
    storeResponse exampleCalls exampleOptions (bytes "ads.example...") none none 1700000000 ∅ =
        (.ok (), exampleStored (bytes "ads.example...")) ∧
      parse (bytes "ads.example...") exampleOptions.format =
        .ok (exampleFeed (bytes "ads.example.")) ∧
      ∃ loaded, load exampleOptions.configPath exampleOptions.kind exampleOptions.identity
          (exampleStored (bytes "ads.example...")) (exampleStored (bytes "ads.example...")).keys =
            .ok loaded ∧
        ¬Same (responseCache exampleOptions (exampleFeed (bytes "ads.example.")) none none
          1700000000) loaded := by
  have hload : (load exampleOptions.configPath exampleOptions.kind exampleOptions.identity
      (exampleStored (bytes "ads.example...")) (exampleStored (bytes "ads.example...")).keys).map
        (·.feed.domainSuffixes) = .ok [bytes "ads.example"] := by decide +kernel
  obtain ⟨loaded, hloaded, hdomains⟩ := map_eq_ok_iff.1 hload
  refine ⟨Prod.ext (by decide +kernel) rfl, by decide +kernel, loaded, hloaded, fun hsame ↦ ?_⟩
  rw [hsame.domains] at hdomains
  exact absurd hdomains (by decide)

end ClambHook.RuleFeed
