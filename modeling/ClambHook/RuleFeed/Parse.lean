import ClambHook.Rules.Compile
import ClambHook.Lib.InetPrefix
import Mathlib.Data.List.Sort

/-!
# Rule feeds

`ch_rule_feed_parse` of `rule_feed.c`: the domains and networks in the body of a feed, which is a
list of names, a hosts file or a list of ad blocker rules.

The C code edits copies of its text in place; here every function returns what is left of the text.
A pointer that is `NULL` is `none`.
-/

namespace ClambHook.RuleFeed

open CString Inet Rules

def maxBytes : Nat := 5 * 1024 * 1024

def maxEntries : Nat := 200000

/-! ## Normal forms -/

/-- `feed_is_ip_address`. -/
def isIpAddress (text : Bytes) : Bool :=
  (pton4 text).isSome || (pton6 text).isSome

/-- A character that may stand in a label. -/
def isLabelChar (c : UInt8) : Bool :=
  (97 ≤ c && c ≤ 122) || (48 ≤ c && c ≤ 57) || c == 45 || c == 95

/-- The test of one label. -/
def labelValid (label : Bytes) : Bool :=
  label ≠ [] && label.head? != some 45 && label.getLast? != some 45 && label.all isLabelChar

/-- The loop over the labels of a domain: their number, if they are all valid.  Nothing is read
behind a dot at the end. -/
def countLabels : Nat → Bytes → Option Nat
  | 0, _ => none
  | _ + 1, [] => some 0
  | fuel + 1, cursor =>
    match splitFirst 46 cursor with
    | none => if labelValid cursor then some 1 else none
    | some (label, rest) =>
      if labelValid label then (countLabels fuel rest).map (· + 1) else none

/-- Is a text in lower case a domain? -/
def domainValid (value : Bytes) : Bool :=
  value ≠ [] && value.head? != some 46 && !contains [46, 46] value && !isIpAddress value &&
    (countLabels (value.length + 1) value).any (2 ≤ ·)

/-- The text without `*.` at its front. -/
def stripWildcard (value : Bytes) : Bytes :=
  if (bytes "*.").isPrefixOf value then value.drop 2 else value

/-- `feed_normalize_domain`. -/
def normalizeDomain (raw : Bytes) : Option Bytes :=
  let value := lower (stripFinalDot (stripWildcard (stripBrackets (trim raw))))
  if domainValid value then some value else none

/-- The loop that clears the bits of an address behind its prefix. -/
def maskAddress : Nat → Bytes → Bytes
  | _, [] => []
  | remaining, byte :: address =>
    (byte &&& leadingMask (min remaining 8)) :: maskAddress (remaining - 8) address

/-- `inet_ntop` for one family. -/
def ntop : Family → Bytes → Bytes
  | .inet => ntop4
  | .inet6 => ntop6

/-- The text in front of the slash and the prefix behind it, if there is one.  It fails if the
prefix is no number from 0 to 128. -/
def splitPrefix (value : Bytes) : Option (Bytes × Option Nat) :=
  match splitLast 47 value with
  | none => some (value, none)
  | some (address, digits) =>
    let parsed := strtol digits
    if parsed.erange ∨ parsed.rest = digits ∨ parsed.rest ≠ [] ∨ parsed.value < 0 ∨
        parsed.value > 128 then
      none
    else some (address, some parsed.value.toNat)

/-- `feed_normalize_cidr`. -/
def normalizeCidr (raw : Bytes) : Option Bytes := do
  let (text, given) ← splitPrefix (trim raw)
  let (family, address) ← parseAddress text
  let length := given.getD family.bits
  if length > family.bits then none
  else some (ntop family (maskAddress length address) ++ 47 :: decimal length)

/-- `feed_url_hostname`. -/
def urlHostname (url : Bytes) : Option Bytes := do
  let (_, found) ← strstr (bytes "://") url
  let authority := (found.drop 3).takeWhile fun c ↦ c ≠ 47 && c ≠ 63 && c ≠ 35
  let host := ((splitFirst 64 authority).map (·.2)).getD authority
  match host with
  | [] => none
  | 91 :: address => (splitFirst 93 address).map (·.1)
  | host => some (((splitFirst 58 host).map (·.1)).getD host)

/-! ## Lines -/

/-- The entries found so far: `feed_strings` for domains and for networks. -/
structure Entries where
  domains : List Bytes
  cidrs : List Bytes

def Entries.empty : Entries := ⟨[], []⟩

def tooManyEntries : Error :=
  .set .invalidArgument (bytes "rule feed has more than " ++ decimal maxEntries ++ bytes " entries")

/-- `feed_strings_add_unique`. -/
def addUnique (strings : List Bytes) (value : Bytes) : Except Error (List Bytes) :=
  if value ∈ strings then .ok strings
  else if strings.length ≥ maxEntries then .error tooManyEntries
  else .ok (strings ++ [value])

def Entries.addDomain (entries : Entries) (domain : Bytes) : Except Error Entries := do
  let domains ← addUnique entries.domains domain
  return { entries with domains := domains }

def Entries.addCidr (entries : Entries) (cidr : Bytes) : Except Error Entries := do
  let cidrs ← addUnique entries.cidrs cidr
  return { entries with cidrs := cidrs }

def isQuote (c : UInt8) : Bool :=
  c == 39 || c == 34

/-- The text of a token, without quotes and the marks of an ad blocker rule. -/
def stripToken (raw : Bytes) : Bytes :=
  let token := ((trim raw).dropWhile isQuote).rdropWhile isQuote
  let token :=
    if (bytes "||").isPrefixOf token then token.drop 2
    else if token.head? = some 124 then token.tail
    else token
  let token := stripWildcard token
  let token := if token.getLast? = some 94 then token.dropLast else token
  stripFinalDot token

/-- `strncasecmp(token, text, strlen(text)) == 0`. -/
def hasPrefixCase (text token : Bytes) : Bool :=
  text.isPrefixOf (lower token)

/-- `feed_add_token`: was the token accepted? -/
def addToken (raw : Bytes) (entries : Entries) : Except Error (Bool × Entries) := do
  let token := stripToken raw
  match normalizeCidr token with
  | some cidr =>
    let entries ← entries.addCidr cidr
    return (true, entries)
  | none =>
    let domain :=
      if hasPrefixCase (bytes "http://") token || hasPrefixCase (bytes "https://") token then
        (urlHostname token).bind normalizeDomain
      else normalizeDomain token
    match domain with
    | some domain =>
      let entries ← entries.addDomain domain
      return (true, entries)
    | none => return (false, entries)

/-- `strtok_r`: the next token, and the text behind its delimiter. -/
def strtok (delimiters : Bytes) (s : Bytes) : Option (Bytes × Bytes) :=
  match s.dropWhile (· ∈ delimiters) with
  | [] => none
  | s => some (s.takeWhile (· ∉ delimiters), (s.dropWhile (· ∉ delimiters)).drop 1)

/-- The tokens of a text, each with the text behind it. -/
def tokens (delimiters : Bytes) : Nat → Bytes → List (Bytes × Bytes)
  | 0, _ => []
  | fuel + 1, s =>
    match strtok delimiters s with
    | none => []
    | some (token, rest) => (token, rest) :: tokens delimiters fuel rest

/-- `" \t\r"`. -/
def blanks : Bytes := [32, 9, 13]

/-- `feed_detect_hosts`. -/
def detectHosts (line : Bytes) : Bool :=
  match tokens blanks 2 line with
  | (first, _) :: _ :: _ => isIpAddress first
  | _ => false

/-- The lines of a text that are not empty. -/
def lines (text : Bytes) : List Bytes :=
  (tokens [10] (text.length + 1) text).map (·.1)

inductive Format where
  | plain
  | hosts
  | adblock
deriving DecidableEq, Repr

def Format.text : Format → Bytes
  | .plain => bytes "plain"
  | .hosts => bytes "hosts"
  | .adblock => bytes "adblock"

/-- The loop of `feed_detect_format`. -/
def detectFormat : List Bytes → Format
  | [] => .plain
  | line :: rest =>
    let line := trim line
    if line = [] ∨ line.head? = some 33 ∨ line.head? = some 35 then detectFormat rest
    else if (bytes "||").isPrefixOf line || contains (bytes "##") line ||
        (bytes "@@").isPrefixOf line then
      .adblock
    else if detectHosts line then .hosts
    else detectFormat rest

/-- The loop over the tokens of a line: the number of accepted ones.  In a hosts file an address in
front of names is passed over. -/
def addTokens (hosts : Bool) : Nat → List (Bytes × Bytes) → Nat → Entries →
    Except Error (Nat × Entries)
  | _, [], accepted, entries => .ok (accepted, entries)
  | index, (token, rest) :: tokens, accepted, entries =>
    if hosts && index == 0 && isIpAddress token && trimLeft rest != [] then
      addTokens hosts (index + 1) tokens accepted entries
    else do
      let (ok, entries) ← addToken token entries
      addTokens hosts (index + 1) tokens (if ok then accepted + 1 else accepted) entries

/-- `feed_parse_plain`: was the line usable? -/
def parsePlain (hosts : Bool) (line : Bytes) (entries : Entries) :
    Except Error (Bool × Entries) := do
  if line.head? = some 35 ∨ line.head? = some 33 then return (true, entries)
  else
    let line := trim (((splitFirst 35 line).map (·.1)).getD line)
    if line = [] then return (true, entries)
    else
      let (accepted, entries) ←
        addTokens hosts 0 (tokens blanks (line.length + 1) line) 0 entries
      return (accepted != 0, entries)

/-- A domain that a rule of an ad blocker names. -/
def addRuleDomain (domain : Option Bytes) (entries : Entries) : Except Error (Bool × Entries) :=
  match domain with
  | none => .ok (false, entries)
  | some domain => do
    let entries ← entries.addDomain domain
    return (true, entries)

/-- `feed_parse_adblock`. -/
def parseAdblock (line : Bytes) (entries : Entries) : Except Error (Bool × Entries) :=
  let line := trim line
  if line = [] ∨ line.head? = some 33 ∨ line.head? = some 91 ∨ (bytes "@@").isPrefixOf line ∨
      contains (bytes "##") line ∨ contains (bytes "#@#") line ∨ contains (bytes "#$#") line then
    .ok (true, entries)
  else if line.length ≥ 2 ∧ line.head? = some 47 ∧ line.getLast? = some 47 then .ok (false, entries)
  else
    let line := ((splitFirst 36 line).map (·.1)).getD line
    if (bytes "||").isPrefixOf line then
      addRuleDomain (normalizeDomain ((line.drop 2).takeWhile (· ∉ bytes "^/:?&|"))) entries
    else if (bytes "|http://").isPrefixOf line || (bytes "|https://").isPrefixOf line then
      addRuleDomain ((urlHostname line.tail).bind normalizeDomain) entries
    else parsePlain false line entries

/-- The line without a byte order mark. -/
def stripMark (line : Bytes) : Bytes :=
  if [0xef, 0xbb, 0xbf].isPrefixOf line then line.drop 3 else line

/-- One line in a format: was it usable? -/
def parseLine (format : Format) (line : Bytes) (entries : Entries) :
    Except Error (Bool × Entries) :=
  match format with
  | .adblock => parseAdblock line entries
  | .hosts => parsePlain true line entries
  | .plain => parsePlain false line entries

/-- The loop over the lines: the entries, and the number of lines that were not usable. -/
def parseLines (format : Format) : List Bytes → Nat → Entries → Except Error (Nat × Entries)
  | [], skipped, entries => .ok (skipped, entries)
  | line :: rest, skipped, entries =>
    let line := stripMark (trim line)
    if line = [] then parseLines format rest skipped entries
    else do
      let (usable, entries) ← parseLine format line entries
      let skipped := if usable then skipped else skipped + 1
      if entries.domains.length + entries.cidrs.length > maxEntries then .error tooManyEntries
      else parseLines format rest skipped entries

/-! ## Feeds -/

/-- A `ch_rule_feed`. -/
structure Feed where
  format : Bytes
  domainSuffixes : List Bytes
  cidrs : List Bytes
  skipped : Nat
deriving DecidableEq, Repr

/-- `qsort` with `feed_string_compare`: the order of `strcmp` is total, so there is only one
result. -/
def sortStrings (strings : List Bytes) : List Bytes :=
  strings.insertionSort (· ≤ ·)

/-- The format that a name stands for, in a buffer for seven characters. -/
def parseFormat (format document : Bytes) : Except Error Format :=
  let name := lower ((trim format).take 7)
  if name = [] ∨ name = bytes "auto" then .ok (detectFormat (lines document))
  else if name = bytes "plain" then .ok .plain
  else if name = bytes "hosts" then .ok .hosts
  else if name = bytes "adblock" then .ok .adblock
  else .error <| .set .invalidArgument
    (bytes "rule feed format must be auto, plain, hosts, or adblock")

/-- `ch_rule_feed_parse`.  The text ends at a NUL in the body. -/
def parse (body format : Bytes) : Except Error Feed := do
  if body.length > maxBytes then
    .error <| .set .invalidArgument
      (bytes "rule feed exceeds " ++ decimal maxBytes ++ bytes " bytes")
  else
    let document := body.takeWhile (· ≠ 0)
    let format ← parseFormat format document
    let (skipped, entries) ← parseLines format (lines document) 0 .empty
    if entries.domains.length + entries.cidrs.length = 0 then
      .error <| .set .parse (bytes "rule feed produced no usable entries")
    else
      return ⟨format.text, sortStrings entries.domains, sortStrings entries.cidrs, skipped⟩

end ClambHook.RuleFeed
