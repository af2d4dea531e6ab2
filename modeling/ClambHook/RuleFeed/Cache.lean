import Mathlib.Data.List.AList
import ClambHook.Json.Text
import ClambHook.Lib.Sha256
import ClambHook.RuleFeed.Parse

/-!
# The cache of rule feeds

A feed that was fetched is kept in a JSON document next to the configuration, in a directory for its
kind.  `storeResponse` writes the document and `load` finds it again, by the front of its name and
the profile, name and URL in it.

The names that `readdir` returns are an argument of `load`, in any order.  System calls may fail:
the outcomes are arguments too.  Memory is never exhausted here.
-/

namespace ClambHook.RuleFeed

open CString Json

inductive Kind where
  | ruleSet
  | subscription
deriving DecidableEq, Repr

/-- What a feed is known by. -/
structure Identity where
  profile : Bytes
  name : Bytes
  url : Bytes
deriving DecidableEq, Repr

/-- A `ch_rule_feed_cache`. -/
structure Cache where
  identity : Identity
  feed : Feed
  action : Bytes
  networks : List Bytes
  etag : Bytes
  lastModified : Bytes
  fetchedTsNs : Int

/-- The part of `ch_rule_feed_refresh_options` that a response is stored with. -/
structure Options where
  configPath : Bytes
  kind : Kind
  identity : Identity
  format : Bytes
  action : Option Bytes
  networks : List Bytes

/-! ## Names -/

/-- A character in a file name. -/
def safeChar (c : UInt8) : UInt8 :=
  let c := tolower c
  if isLabelChar c then c else 45

/-- `feed_safe_name`. -/
def safeName (raw : Bytes) : Bytes :=
  let name := ((raw.map safeChar).dropWhile (· = 45)).rdropWhile (· = 45)
  if name = [] then bytes "unnamed" else name

/-- `feed_cache_directory`. -/
def cacheDirectory (configPath : Bytes) (kind : Kind) : Bytes :=
  let parent :=
    match splitLast 47 configPath with
    | none => bytes "."
    | some ([], _) => bytes "/"
    | some (parent, _) => parent
  parent ++ match kind with
    | .ruleSet => bytes "/.clambhook-rule-sets"
    | .subscription => bytes "/.clambhook-subscriptions"

/-- The front of the names of a feed's files. -/
def namePrefix (identity : Identity) : Bytes :=
  safeName identity.profile ++ 45 :: safeName identity.name ++ [45]

/-- Six bytes of the hash of a feed's identity, in hexadecimal digits. -/
def shortHash (identity : Identity) : Bytes :=
  let digest := Sha256.digest (identity.profile ++ 0 :: identity.name ++ 0 :: identity.url)
  (digest.take 6).flatMap fun byte ↦ [hexDigit (byte.toNat / 16), hexDigit (byte.toNat % 16)]

/-- `feed_cache_path`, without the directory. -/
def cacheName (identity : Identity) : Bytes :=
  namePrefix identity ++ shortHash identity ++ bytes ".json"

/-! ## Writing -/

/-- `feed_append_json_strings`. -/
def appendStrings (items : List Bytes) : Bytes :=
  bytes "[" ++ List.intercalate [44] (items.map appendString) ++ bytes "]"

/-- The document of `ch_rule_feed_cache_write`. -/
def encodeCache (kind : Kind) (cache : Cache) : Bytes :=
  bytes "\x7b\"version\":1,\"profile\":" ++ appendString cache.identity.profile ++
    bytes ",\"name\":" ++ appendString cache.identity.name ++
    bytes ",\"url\":" ++ appendString cache.identity.url ++
    bytes ",\"format\":" ++ appendString cache.feed.format ++
    (match kind with
      | .ruleSet => []
      | .subscription =>
        bytes ",\"action\":" ++
            appendString (if cache.action = [] then bytes "block" else cache.action) ++
          if cache.networks = [] then []
          else bytes ",\"networks\":" ++ appendStrings cache.networks) ++
    (if cache.etag = [] then [] else bytes ",\"etag\":" ++ appendString cache.etag) ++
    (if cache.lastModified = [] then []
      else bytes ",\"last_modified\":" ++ appendString cache.lastModified) ++
    bytes ",\"fetched_ts_ns\":" ++ decimalInt cache.fetchedTsNs ++
    (if cache.feed.domainSuffixes = [] then []
      else bytes ",\"domain_suffixes\":" ++ appendStrings cache.feed.domainSuffixes) ++
    (if cache.feed.cidrs = [] then [] else bytes ",\"cidrs\":" ++ appendStrings cache.feed.cidrs) ++
    bytes ",\"skipped\":" ++ decimal cache.feed.skipped ++ bytes "\x7d"

/-- A file of the directory: one with contents, one that cannot be opened, and one that cannot be
read. -/
inductive File where
  | contents (text : Bytes)
  | closed
  | broken

/-- The files of a directory. -/
abbrev Directory := AList fun _ : Bytes ↦ File

/-- What `write` returns: it was interrupted, it failed or wrote nothing, or it wrote `more + 1`
bytes. -/
inductive Write where
  | interrupted
  | failed (strerror : Bytes)
  | wrote (more : Nat)
deriving DecidableEq, Repr

/-- The outcomes of the calls; one that fails has the text of `strerror`. -/
structure Calls where
  mkdir : Option Bytes
  mkstemp : Option Bytes
  /-- The characters that `mkstemp` puts in the place of `XXXXXX`. -/
  temporary : Bytes
  fchmod : Option Bytes
  writes : List Write
  close : Option Bytes
  rename : Option Bytes

/-- The loop that writes the document: what was written, and the status.  Behind the given outcomes
every write is complete. -/
def writeDocument : List Write → Bytes → Bytes × Except Error Unit
  | _, [] => ([], .ok ())
  | [], data => (data, .ok ())
  | .interrupted :: writes, data => writeDocument writes data
  | .failed strerror :: _, _ => ([], .error (callError "write rule feed cache" strerror))
  | .wrote more :: writes, data =>
    let rest := writeDocument writes (data.drop (more + 1))
    (data.take (more + 1) ++ rest.1, rest.2)

def temporaryName (calls : Calls) : Bytes :=
  bytes ".rule-feed-" ++ calls.temporary

/-- The temporary file, with the document in it. -/
def writeTemporary (calls : Calls) (document : Bytes) (dir : Directory) :
    Except Error Unit × Directory :=
  match calls.mkstemp with
  | some strerror => (.error (callError "create rule feed cache" strerror), dir)
  | none =>
    -- `mkstemp` does not open a file that is there
    if temporaryName calls ∈ dir then
      (.error (callError "create rule feed cache" (bytes "File exists")), dir)
    else
      match calls.fchmod with
      | some strerror =>
        (.error (callError "create rule feed cache" strerror),
          dir.insert (temporaryName calls) (.contents []))
      | none =>
        let (written, status) := writeDocument calls.writes document
        let dir := dir.insert (temporaryName calls) (.contents written)
        match status, calls.close with
        | .error e, _ => (.error e, dir)
        | .ok (), some strerror => (.error (callError "close rule feed cache" strerror), dir)
        | .ok (), none => (.ok (), dir)

/-- `ch_rule_feed_cache_write`. -/
def cacheWrite (calls : Calls) (configPath : Bytes) (kind : Kind) (cache : Cache)
    (dir : Directory) : Except Error Unit × Directory :=
  if configPath = [] then
    (.error <| .set .invalidArgument (bytes "complete rule feed cache metadata is required"), dir)
  else
    match calls.mkdir with
    | some strerror => (.error (callError "create rule feed cache directory" strerror), dir)
    | none =>
      match writeTemporary calls (encodeCache kind cache) dir with
      | (.error e, dir) => (.error e, dir.erase (temporaryName calls))
      | (.ok (), dir) =>
        match calls.rename with
        | some strerror =>
          (.error (callError "replace rule feed cache" strerror), dir.erase (temporaryName calls))
        | none =>
          let file := (dir.lookup (temporaryName calls)).getD .closed
          (.ok (), (dir.erase (temporaryName calls)).insert (cacheName cache.identity) file)

/-- The cache for a response. -/
def responseCache (options : Options) (feed : Feed) (etag lastModified : Option Bytes)
    (fetchedTsNs : Int) : Cache where
  identity := options.identity
  feed := feed
  action := if options.action.getD [] = [] then bytes "block" else options.action.getD []
  networks := sortStrings options.networks
  etag := etag.getD []
  lastModified := lastModified.getD []
  fetchedTsNs := fetchedTsNs

/-- `ch_rule_feed_cache_store_response`. -/
def storeResponse (calls : Calls) (options : Options) (body : Bytes)
    (etag lastModified : Option Bytes) (fetchedTsNs : Int) (dir : Directory) :
    Except Error Unit × Directory :=
  if body.length > maxBytes then
    (.error <| .set .invalidArgument (bytes "complete rule feed response metadata is required"),
      dir)
  else
    match parse body options.format with
    | .error e => (.error e, dir)
    | .ok feed =>
      cacheWrite calls options.configPath options.kind
        (responseCache options feed etag lastModified fetchedTsNs) dir

/-! ## Reading -/

/-- `feed_read_file`: a file that cannot be opened is not there. -/
def readFile (path : Bytes) : File → Except Error (Option Bytes)
  | .closed => .ok none
  | .broken => .error <| .set .io (bytes "read rule feed cache " ++ path)
  | .contents text =>
    if text.length > maxBytes + 65536 then
      .error <| .set .invalidArgument (bytes "rule feed cache is too large")
    else .ok (some text)

/-- `feed_copy_json_string`. -/
def copyJsonString (root : Json) (key : String) (required : Bool) : Except Error Bytes :=
  match stringValue (objectGet root (bytes key)), objectGet root (bytes key) with
  | some text, _ => .ok text
  | none, none =>
    if required then
      .error <| .set .parse (bytes "rule feed cache " ++ bytes key ++ bytes " must be a string")
    else .ok []
  | none, some _ =>
    .error <| .set .parse (bytes "rule feed cache " ++ bytes key ++ bytes " must be a string")

/-- The loop of `feed_load_json_strings`: an entry without a normal form is passed over. -/
def loadItems (key : String) (normalize : Bytes → Option Bytes) :
    List Json → List Bytes → Except Error (List Bytes)
  | [], out => .ok out
  | item :: items, out =>
    match stringValue item with
    | none =>
      .error <| .set .parse
        (bytes "rule feed cache " ++ bytes key ++ bytes " entries must be strings")
    | some raw =>
      match normalize raw with
      | none => loadItems key normalize items out
      | some value => do
        let out ← addUnique out value
        loadItems key normalize items out

/-- `feed_load_json_strings`. -/
def loadJsonStrings (root : Json) (key : String) (normalize : Bytes → Option Bytes) :
    Except Error (List Bytes) :=
  match objectGet root (bytes key) with
  | none => .ok []
  | some (.array items) => loadItems key normalize items []
  | some _ =>
    .error <| .set .parse (bytes "rule feed cache " ++ bytes key ++ bytes " must be an array")

/-- The loop over the networks of a subscription, in a buffer for 15 characters. -/
def loadNetworkItems : List Json → List Bytes → Except Error (List Bytes)
  | [], out => .ok out
  | item :: items, out =>
    match stringValue item with
    | none => .error <| .set .parse (bytes "rule feed cache networks must be strings")
    | some network => do
      let out ← addUnique out (lower (network.take 15))
      loadNetworkItems items out

def loadNetworks (root : Json) : Except Error (List Bytes) :=
  match objectGet root (bytes "networks") with
  | none => .ok []
  | some (.array items) => loadNetworkItems items []
  | some _ => .error <| .set .parse (bytes "rule feed cache networks must be an array")

/-- The key of the timestamp, as it stands in a document. -/
def timestampKey : Bytes := bytes "\"fetched_ts_ns\""

/-- The number at the front of a text, or zero. -/
def readTimestamp (text : Bytes) : Int :=
  let timestamp := trimLeft text
  let parsed := strtol timestamp
  if parsed.erange ∨ parsed.rest = timestamp then 0 else parsed.value

/-- The timestamp is searched in the text of the document: behind the first colon from the first
occurrence of its key on. -/
def fetchedTimestamp (json : Bytes) : Int :=
  match strstr timestampKey json with
  | none => 0
  | some (_, found) =>
    match splitFirst 58 found with
    | none => 0
    | some (_, text) => readTimestamp text

/-- `feed_decode_cache`: nothing if the document is about another feed. -/
def decodeCache (identity : Identity) (json : Bytes) : Except Error (Option Cache) := do
  let root ← Json.parse json
  if !root.isObject || numberValue (objectGet root (bytes "version")) 0 != 1 then
    .error <| .set .parse (bytes "rule feed cache version is unsupported")
  else
    let profile ← copyJsonString root "profile" true
    let name ← copyJsonString root "name" true
    let url ← copyJsonString root "url" true
    if identity ≠ ⟨profile, name, url⟩ then return none
    else
      let format ← copyJsonString root "format" true
      let action ← copyJsonString root "action" false
      let etag ← copyJsonString root "etag" false
      let lastModified ← copyJsonString root "last_modified" false
      let domains ← loadJsonStrings root "domain_suffixes" normalizeDomain
      let cidrs ← loadJsonStrings root "cidrs" normalizeCidr
      let networks ← loadNetworks root
      let skipped := (numberValue (objectGet root (bytes "skipped")) 0).floor.toNat
      return some
        { identity := identity
          feed := ⟨format, sortStrings domains, sortStrings cidrs, skipped⟩
          action := action
          networks := sortStrings networks
          etag := etag
          lastModified := lastModified
          fetchedTsNs := fetchedTimestamp (json.takeWhile (· ≠ 0)) }

/-- Is a name one that a file of the feed may have? -/
def nameMatches (identity : Identity) (name : Bytes) : Bool :=
  let front := namePrefix identity
  front.length + 5 < name.length && front.isPrefixOf name &&
    name.drop (name.length - 5) == bytes ".json"

/-- A file, read and decoded: nothing if it is to be passed over. -/
def loadFile (identity : Identity) (path : Bytes) (file : File) : Except Error (Option Cache) := do
  match ← readFile path file with
  | none => return none
  | some json => decodeCache identity json

/-- The loop of `ch_rule_feed_cache_load` over the files whose names match. -/
def loadFiles (identity : Identity) : List (Bytes × File) → Except Error Cache
  | [] => .error <| .set .notFound (bytes "rule feed cache not found")
  | (path, file) :: files =>
    match loadFile identity path file with
    | .error e => .error e
    | .ok (some cache) => .ok cache
    | .ok none => loadFiles identity files

/-- The files that `readdir` returns and whose names match, with their paths. -/
def matchingFiles (configPath : Bytes) (kind : Kind) (identity : Identity) (dir : Directory)
    (names : List Bytes) : List (Bytes × File) :=
  (names.filter (nameMatches identity)).map fun name ↦
    (cacheDirectory configPath kind ++ 47 :: name, (dir.lookup name).getD .closed)

/-- `ch_rule_feed_cache_load`, with the names that `readdir` returns. -/
def load (configPath : Bytes) (kind : Kind) (identity : Identity) (dir : Directory)
    (names : List Bytes) : Except Error Cache :=
  if configPath = [] then .error <| .set .notFound (bytes "rule feed cache not found")
  else loadFiles identity (matchingFiles configPath kind identity dir names)

end ClambHook.RuleFeed
