import ClambHook.Basic
import ClambHook.Lib.Inet

/-!
# HTTP endpoints

`http_safety.c`: before a URL is fetched its host is resolved, every address that comes back is
checked, and the first of them is pinned for the request by an entry `HOST:PORT:ADDRESS` of
`CURLOPT_RESOLVE`.

The URL itself is taken apart by libcurl, which is a parameter here: `Curl` holds the function that
the code uses it for, and `Curl.Documented` what the manual says about the parts of a URL.  The
answers of `getaddrinfo` are arguments.
-/

namespace ClambHook.Http

open CString Inet

/-! ## libcurl -/

/-- The parts of a parsed URL, as `curl_url_get` returns them.  The port is the default port of the
scheme where the URL has none, and `url` is the whole URL again. -/
structure Url where
  scheme : Bytes
  host : Bytes
  port : Bytes
  url : Bytes
  user : Option Bytes
  password : Option Bytes
deriving DecidableEq, Repr

/-- The URL functions of libcurl. -/
structure Curl where
  /-- `curl_url_set` on a fresh handle, and the parts; `none` when one of the calls fails. -/
  parse : Bytes → Option Url

/-- The host of a URL: a name or an IPv4 address, without colons and brackets, or an IPv6 address in
brackets.  The text of an IPv6 address does not end with a dot. -/
def HostForm (host : Bytes) : Prop :=
  (58 ∉ host ∧ 91 ∉ host ∧ 93 ∉ host) ∨
    ∃ address, host = 91 :: address ++ [93] ∧ 58 ∈ address ∧ 91 ∉ address ∧ 93 ∉ address ∧
      address.getLast? ≠ some 46

/-- What the manual of libcurl says about the parts of a URL. -/
structure Curl.Documented (curl : Curl) : Prop where
  host : ∀ {s u}, curl.parse s = some u → HostForm u.host
  port : ∀ {s u}, curl.parse s = some u → ∀ c ∈ u.port, isdigit c = true
  /-- The whole URL has the host and the port that were read from the text it was made of. -/
  reparse : ∀ {s u}, curl.parse s = some u →
    ∃ v, curl.parse u.url = some v ∧ v.host = u.host ∧ v.port = u.port

/-! ## Addresses -/

/-- A `sockaddr` of `getaddrinfo`: the bytes of an IPv4 or IPv6 address, or another family. -/
inductive Sockaddr where
  | inet (address : { a : Bytes // a.length = 4 })
  | inet6 (address : { a : Bytes // a.length = 16 })
  | other
deriving DecidableEq, Repr

/-- `http_ipv4_unsafe`, on the four bytes at the front. -/
def ipv4Unsafe (address : Bytes) : Bool :=
  let a := address.getD 0 0
  let b := address.getD 1 0
  let c := address.getD 2 0
  a == 0 || a == 10 || a == 127 ||
    (a == 172 && b ≥ 16 && b ≤ 31) ||
    (a == 192 && b == 168) ||
    (a == 169 && b == 254) ||
    (a == 100 && b ≥ 64 && b ≤ 127) ||
    (a == 192 && b == 0 && c == 0) ||
    (a == 192 && b == 0 && c == 2) ||
    (a == 192 && b == 88 && c == 99) ||
    (a == 198 && b &&& 0xfe == 18) ||
    (a == 198 && b == 51 && c == 100) ||
    (a == 203 && b == 0 && c == 113) ||
    a ≥ 224

/-- The 96 bits in front of an IPv4-mapped address. -/
def mapped : Bytes := List.replicate 10 0 ++ [0xff, 0xff]

/-- The 96 bits in front of an IPv4-compatible address. -/
def compatible : Bytes := List.replicate 12 0

/-- The well-known NAT64 prefix. -/
def nat64 : Bytes := [0x00, 0x64, 0xff, 0x9b] ++ List.replicate 8 0

/-- The native part of `http_sockaddr_unsafe`: an IPv6 address that embeds no IPv4 address. -/
def ipv6Unsafe (address : Bytes) : Bool :=
  let a := address.getD 0 0
  let b := address.getD 1 0
  let c := address.getD 2 0
  let d := address.getD 3 0
  let unspecified := address.all (· == 0)
  let loopback := !unspecified && (address.take 15).all (· == 0) && address.getD 15 0 == 1
  if unspecified || loopback || a &&& 0xfe == 0xfc || (a == 0xfe && b &&& 0xc0 == 0x80) ||
      a == 0xff then true
  -- only native global unicast is left
  else if a &&& 0xe0 != 0x20 then true
  else
    (a == 0x20 && b == 0x01 && c == 0x00 && d == 0x00) ||
      (a == 0x20 && b == 0x01 && c == 0x00 && d == 0x02) ||
      (a == 0x20 && b == 0x01 && c == 0x0d && d == 0xb8) ||
      (a == 0x20 && b == 0x01 && c == 0x00 && (d &&& 0xf0 == 0x10 || d &&& 0xf0 == 0x20)) ||
      (a == 0x20 && b == 0x02)

/-- `http_sockaddr_unsafe`. -/
def sockaddrUnsafe : Sockaddr → Bool
  | .inet address => ipv4Unsafe address.1
  | .other => true
  | .inet6 address =>
    let front := address.1.take 12
    let back := address.1.drop 12
    if front = mapped then ipv4Unsafe back
    else if front = compatible ∧ (back.take 3 ≠ [0, 0, 0] ∨ back.getD 3 0 > 1) then
      ipv4Unsafe back
    else if front = nat64 then ipv4Unsafe back
    else ipv6Unsafe address.1

/-- `getnameinfo` with `NI_NUMERICHOST`. -/
def numericHost : Sockaddr → Option Bytes
  | .inet address => some (ntop4 address.1)
  | .inet6 address => some (ntop6 address.1)
  | .other => none

/-- An answer of `getaddrinfo`: the addresses, none of them when it fails, and the text that
`gai_strerror` has for its result. -/
structure Answer where
  addresses : List Sockaddr
  strerror : Bytes
deriving DecidableEq, Repr

/-! ## Preparation -/

/-- A `ch_http_endpoint`. -/
structure Endpoint where
  url : Bytes
  scheme : Bytes
  host : Bytes
  port : Bytes
  resolve : Bytes
deriving DecidableEq, Repr

/-- `http_host_is_metadata`. -/
def hostIsMetadata (host : Bytes) : Bool :=
  strcaseeq host (bytes "metadata") || strcaseeq host (bytes "instance-data") ||
    strcaseeq host (bytes "metadata.google.internal") ||
    strcaseeq host (bytes "metadata.azure.internal")

/-- `http_host_is_localhost`. -/
def hostIsLocalhost (host : Bytes) : Bool :=
  strcaseeq host (bytes "localhost") ||
    (host.length > 10 && strcaseeq (host.drop (host.length - 10)) (bytes ".localhost"))

/-- `http_url_has_userinfo`. -/
def urlHasUserinfo (url : Bytes) : Bool :=
  match strstr (bytes "://") url with
  | none => false
  | some (_, schemeEnd) =>
    ((schemeEnd.drop 3).takeWhile fun c ↦ c ∉ bytes "/?#").contains 64

/-- The host that is resolved: without brackets and without dots at its end. -/
def lookupHost (host : Bytes) : Bytes :=
  (stripBrackets host).rdropWhile (· == 46)

/-- The loop over the candidates: every one is checked, and `numeric` is the text of the first. -/
def checkAddresses (label host : Bytes) : List Sockaddr → Bytes → Except Error Bytes
  | [], numeric => .ok numeric
  | candidate :: candidates, numeric =>
    if sockaddrUnsafe candidate then
      .error <| .set .invalidArgument
        (label ++ bytes " host " ++ host ++ bytes " resolves to a non-public address")
    else if numeric = [] then
      match numericHost candidate with
      | none => .error <| .set .io (bytes "format " ++ label ++ bytes " address for " ++ host)
      | some text => checkAddresses label host candidates text
    else checkAddresses label host candidates numeric

/-- A text in brackets if it has a colon. -/
def bracketed (s : Bytes) : Bytes :=
  if 58 ∈ s then 91 :: s ++ [93] else s

/-- The entry of `CURLOPT_RESOLVE`. -/
def resolveEntry (host port numeric : Bytes) : Bytes :=
  bracketed host ++ 58 :: port ++ 58 :: bracketed numeric

/-- The part of `ch_http_endpoint_prepare` in front of the lookup: the parsed URL. -/
def acceptUrl (curl : Curl) (url label : Bytes) : Except Error Url :=
  if urlHasUserinfo url then
    .error <| .set .invalidArgument (label ++ bytes " URL must not contain credentials")
  else
    match curl.parse url with
    | none =>
      .error <| .set .invalidArgument (label ++ bytes " URL must be http or https with a host")
    | some parsed =>
      if (!strcaseeq parsed.scheme (bytes "http") && !strcaseeq parsed.scheme (bytes "https")) ||
          parsed.host == [] then
        .error <| .set .invalidArgument (label ++ bytes " URL must be http or https with a host")
      else if parsed.user.isSome || parsed.password.isSome then
        .error <| .set .invalidArgument (label ++ bytes " URL must not contain credentials")
      else .ok parsed

/-- What the messages call the request. -/
def requestLabel (purpose : Bytes) : Bytes :=
  if purpose = [] then bytes "request" else purpose

/-- `ch_http_endpoint_prepare`, with the answer for the host. -/
def prepare (curl : Curl) (url purpose : Bytes) (answer : Answer) : Except Error Endpoint := do
  let label := requestLabel purpose
  let parsed ← acceptUrl curl url label
  let host := lookupHost parsed.host
  if hostIsLocalhost host || hostIsMetadata host then
    .error <| .set .invalidArgument (label ++ bytes " host " ++ host ++ bytes " is not public")
  else if answer.addresses = [] then
    .error <| .set .io (bytes "resolve " ++ label ++ bytes " host " ++ host ++ bytes ": " ++
      answer.strerror)
  else
    let numeric ← checkAddresses label host answer.addresses []
    return ⟨parsed.url, parsed.scheme, host, parsed.port, resolveEntry host parsed.port numeric⟩

end ClambHook.Http
