import ClambHook.Basic
import ClambHook.Lib.InetText

/-!
# Where the API server listens

`ch_api_server_start` takes the listen address apart twice.  `ch_api_parse_address` finds the socket
address for the bind: the host ends at the last colon, or at a closing bracket that a colon follows,
and `localhost` in lower case stands for `127.0.0.1`.  `ch_api_is_loopback_host` says whether the
server may do without a token: `ch_split_authority` splits at the only colon or at the closing
bracket, and `localhost` may be spelled in any case.

The addresses are read by libuv, with one function for the check and two others for the bind.  They
are parameters of the model, together with the calls that open the socket; `Uv.Documented` says that
they read addresses as `inet_pton` does, IPv6 addresses up to a zone.  One detail of `uv_ip6_addr`
matters: it copies the address in front of a zone into 40 bytes, so that a longer one is not read as
the check reads it.  The text of `::1` always fits.
-/

namespace ClambHook.ApiServer

open CString Inet List

/-! ## The library below -/

/-- A socket address. -/
inductive SocketAddress where
  | ipv4 (address : Bytes) (port : Nat)
  | ipv6 (address : Bytes) (port : Nat)
deriving DecidableEq, Repr

/-- The address is in `127.0.0.0/8`, or it is `::1`. -/
def SocketAddress.Loopback : SocketAddress → Prop
  | .ipv4 address _ => address.head? = some 127
  | .ipv6 address _ => address = loopback6

/-- What the start of the server asks libuv for.  Codes are those of libuv, and zero is success. -/
structure Uv where
  inetPton4 : Bytes → Option Bytes
  inetPton6 : Bytes → Option Bytes
  ip4Addr : Bytes → Option Bytes
  ip6Addr : Bytes → Option Bytes
  tcpInit : Int
  tcpBind : SocketAddress → Int
  listen : SocketAddress → Int
  /-- The name of a bound socket; `none` is a family that is not an internet one. -/
  tcpGetsockname : SocketAddress → Except Int (Option SocketAddress)
  ip4Name : Bytes → Except Int Bytes
  ip6Name : Bytes → Except Int Bytes
  strerror : Int → Bytes

/-- The text in front of a zone. -/
def zoneless (host : Bytes) : Bytes :=
  host.takeWhile (· ≠ 37)

/-- Addresses are read as `inet_pton` reads them. -/
structure Uv.Documented (uv : Uv) : Prop where
  inetPton4 : ∀ host, uv.inetPton4 host = pton4 host
  inetPton6 : ∀ host, uv.inetPton6 host = pton6 (zoneless host)
  ip4Addr : ∀ host, uv.ip4Addr host = pton4 host
  ip6Addr : ∀ host, (zoneless host).length < 40 → uv.ip6Addr host = pton6 (zoneless host)

/-! ## The loopback check -/

/-- The loop of `ch_parse_port`. -/
def parsePortLoop : Bytes → Nat → Option Nat
  | [], value => some value
  | c :: text, value =>
    if !isdigit c then none
    else if value > 6553 ∨ (value = 6553 ∧ c > 53) then none
    else parsePortLoop text (value * 10 + (c.toNat - 48))

/-- `ch_parse_port`. -/
def parsePort (text : Bytes) : Option Nat :=
  if text = [] then none else parsePortLoop text 0

/-- The host and the port text of `ch_split_authority`. -/
def separateAuthority (authority : Bytes) : Option (Bytes × Option Bytes) :=
  if authority.head? = some 91 then
    match splitFirst 93 authority.tail with
    | some (host, 58 :: port) => some (host, some port)
    | some (host, []) => some (host, none)
    | _ => none
  else
    match splitFirst 58 authority with
    | some (host, port) => if 58 ∈ port then none else some (host, some port)
    | none => some (authority, none)

/-- `INET6_ADDRSTRLEN`. -/
def inet6Addrstrlen : Nat := 46

/-- `ch_split_authority`: the host, the port and whether there is one. -/
def splitAuthority (authority : Bytes) : Option (Bytes × Nat × Bool) :=
  if authority = [] then none
  else do
    let (host, portText) ← separateAuthority authority
    if host.length = 0 ∨ host.length ≥ inet6Addrstrlen then none
    else
      match portText with
      | none => some (host, 0, false)
      | some text => (parsePort text).map fun port ↦ (host, port, true)

/-- `ch_api_is_loopback_name`. -/
def isLoopbackName (uv : Uv) (host : Bytes) : Bool :=
  if strcaseeq host (bytes "localhost") then true
  else
    match uv.inetPton4 host with
    | some address => address.head? == some 127
    | none => uv.inetPton6 host == some loopback6

/-- `ch_api_is_loopback_host`. -/
def isLoopbackHost (uv : Uv) (authority : Bytes) : Bool :=
  match splitAuthority authority with
  | some (host, _, _) => isLoopbackName uv host
  | none => false

/-! ## The bind -/

/-- The host and the port text of `ch_api_parse_address`. -/
def separateAddress (address : Bytes) : Option (Bytes × Bytes) :=
  if address.head? = some 91 then
    match splitFirst 93 address with
    | some (front, 58 :: port) => some (front.tail, port)
    | _ => none
  else splitLast 58 address

def listenAddressError : Error :=
  .set .parse (bytes "invalid API listen address")

/-- The port of `ch_api_parse_address`. -/
def listenPort (text : Bytes) : Except Error Nat :=
  let read := strtol text
  if read.value < 0 ∨ read.value > 65535 ∨ read.rest = text ∨ read.rest ≠ [] then
    .error listenAddressError
  else .ok read.value.toNat

/-- The end of `ch_api_parse_address`: the host as an address. -/
def listenHost (uv : Uv) (host : Bytes) (port : Nat) : Except Error SocketAddress :=
  let host := if host = bytes "localhost" then bytes "127.0.0.1" else host
  match uv.ip4Addr host with
  | some address => .ok (.ipv4 address port)
  | none =>
    match uv.ip6Addr host with
    | some address => .ok (.ipv6 address port)
    | none => .error (.set .parse (bytes "invalid API listen host"))

/-- `ch_api_parse_address`. -/
def parseAddress (uv : Uv) (address : Bytes) : Except Error SocketAddress :=
  match separateAddress address with
  | none => .error listenAddressError
  | some (host, text) => do
    let port ← listenPort text
    listenHost uv host port

/-! ## The start -/

/-- What `ch_api_capture_bound_address` keeps of the name of the socket. -/
structure BoundName where
  address : Bytes
  bindHost : Bytes
  bindPort : Nat
  wildcardBind : Bool
deriving DecidableEq, Repr

/-- A started `ch_api_server`; `listener` is what its socket was bound to. -/
structure Server where
  authToken : Bytes
  licensePath : Bytes
  listener : SocketAddress
  name : BoundName
deriving DecidableEq, Repr

def formatError (uv : Uv) (code : Int) : Error :=
  .set .io (bytes "format bound API address: " ++ uv.strerror code)

/-- `ch_api_capture_bound_address`. -/
def captureBoundAddress (uv : Uv) (listener : SocketAddress) : Except Error BoundName :=
  match uv.tcpGetsockname listener with
  | .error code => .error (.set .io (bytes "read bound API address: " ++ uv.strerror code))
  | .ok none => .error (.set .internal (bytes "bound API address has an unknown family"))
  | .ok (some (.ipv4 address port)) =>
    match uv.ip4Name address with
    | .error code => .error (formatError uv code)
    | .ok host => .ok ⟨host ++ bytes ":" ++ decimal port, host, port, address = [0, 0, 0, 0]⟩
  | .ok (some (.ipv6 address port)) =>
    match uv.ip6Name address with
    | .error code => .error (formatError uv code)
    | .ok host =>
      .ok ⟨bytes "[" ++ host ++ bytes "]:" ++ decimal port, host, port,
        address = List.replicate 16 0⟩

/-- The code of the first call that fails. -/
def openListener (uv : Uv) (address : SocketAddress) : Int :=
  if uv.tcpInit ≠ 0 then uv.tcpInit
  else if uv.tcpBind address ≠ 0 then uv.tcpBind address
  else uv.listen address

/-- `ch_api_server_start`; the loop and the runtime are there. -/
def start (uv : Uv) (address authToken licensePath : Option Bytes) : Except Error Server :=
  match address with
  | none =>
    .error (.set .invalidArgument (bytes "loop, runtime, and API address are required"))
  | some address => do
    let listener ← parseAddress uv address
    if !isLoopbackHost uv address ∧ authToken.getD [] = [] then
      .error (.set .invalidArgument
        (bytes "non-loopback API listen requires an authentication token"))
    else
      let code := openListener uv listener
      if code ≠ 0 then
        .error (.set .io (bytes "bind API listener " ++ address ++ bytes ": " ++ uv.strerror code))
      else
        let name ← captureBoundAddress uv listener
        return ⟨authToken.getD [], licensePath.getD [], listener, name⟩

/-! ## The two splitters -/

/-- **Both splitters find the same host** wherever they find one. -/
theorem host_eq_of_separate {address host host' text : Bytes} {text' : Option Bytes}
    (hauthority : separateAuthority address = some (host', text'))
    (haddress : separateAddress address = some (host, text)) : host = host' := by
  rw [separateAuthority] at hauthority
  rw [separateAddress] at haddress
  split at hauthority
  · rename_i hhead
    rw [if_pos hhead] at haddress
    obtain ⟨rest, rfl⟩ : ∃ rest, address = 91 :: rest :=
      ⟨address.tail, (cons_head?_tail hhead).symm⟩
    rw [splitFirst, if_neg (by decide), tail_cons] at *
    cases hsplit : splitFirst 93 rest with
    | none =>
      rw [hsplit] at hauthority
      cases hauthority
    | some parts =>
      obtain ⟨inside, behind⟩ := parts
      rw [hsplit] at hauthority haddress
      rw [Option.map_some] at haddress
      split at haddress
      · rename_i heq
        cases heq
        cases haddress
        cases hauthority
        rfl
      · cases haddress
  · rename_i hhead
    rw [if_neg hhead] at haddress
    obtain ⟨rfl, -⟩ := splitLast_eq_some_iff.1 haddress
    cases hsplit : splitFirst 58 (host ++ 58 :: text) with
    | none =>
      rw [splitFirst_eq_none_iff] at hsplit
      simp at hsplit
    | some parts =>
      obtain ⟨front, behind⟩ := parts
      rw [hsplit] at hauthority
      obtain ⟨hparts, hfront⟩ := splitFirst_eq_some_iff.1 hsplit
      simp only at hauthority
      split at hauthority
      · cases hauthority
      cases hauthority
      rename_i hbehind
      have hlast := splitLast_eq_some_iff.2 ⟨hparts, hbehind⟩
      rw [haddress] at hlast
      cases hlast
      rfl

/-! ## The two readings of the host -/

section Documented

variable {uv : Uv} (huv : uv.Documented)
include huv

variable {listener : SocketAddress} {host : Bytes}

/-- `localhost` is bound to the loopback address, and its other spellings to nothing. -/
theorem loopback_of_localhost (h : lower host = bytes "localhost") {port : Nat}
    (hlisten : listenHost uv host port = .ok listener) :
    listener.Loopback := by
  rw [listenHost] at hlisten
  by_cases hhost : host = bytes "localhost"
  · rw [if_pos hhost, huv.ip4Addr,
      show pton4 (bytes "127.0.0.1") = some [127, 0, 0, 1] by decide] at hlisten
    cases hlisten
    rfl
  · have hpton4 : pton4 host = none := by
      rw [← pton4_lower, h]
      decide
    have hpton6 : pton6 (zoneless host) = none := by
      by_contra hsome
      obtain ⟨address, haddress⟩ := Option.ne_none_iff_exists'.1 hsome
      have hcolon : 58 ∈ host :=
        (takeWhile_subset _) (coloned_of_pton6 haddress).colon
      rw [← mem_lower_iff (.inl (by decide)), h] at hcolon
      exact absurd hcolon (by decide)
    have hlength : (zoneless host).length < 40 := by
      have hle : (zoneless host).length ≤ host.length := (takeWhile_sublist _).length_le
      rw [← length_lower host, h] at hle
      exact hle.trans_lt (by decide)
    rw [if_neg hhost, huv.ip4Addr, hpton4, huv.ip6Addr host hlength, hpton6] at hlisten
    cases hlisten

/-- A host that passes the check is bound to a loopback address, if it is bound. -/
theorem loopback_of_isLoopbackName (h : isLoopbackName uv host = true) {port : Nat}
    (hlisten : listenHost uv host port = .ok listener) :
    listener.Loopback := by
  rw [isLoopbackName] at h
  split at h
  · rename_i hname
    exact loopback_of_localhost huv (beq_iff_eq.1 hname) hlisten
  rename_i hname
  have hhost : host ≠ bytes "localhost" := by
    rintro rfl
    exact hname (by decide)
  rw [listenHost, if_neg hhost, huv.ip4Addr, ← huv.inetPton4] at hlisten
  cases haddress : uv.inetPton4 host with
  | some address =>
    rw [haddress] at h hlisten
    cases hlisten
    exact beq_iff_eq.1 h
  | none =>
    rw [haddress] at h hlisten
    have hpton6 : pton6 (zoneless host) = some loopback6 := by
      rw [← huv.inetPton6]
      exact beq_iff_eq.1 h
    have hlength := length_of_pton6_loopback hpton6
    rw [huv.ip6Addr host (by omega), hpton6] at hlisten
    cases hlisten
    rfl

theorem loopback_of_isLoopbackHost {address : Bytes} (h : isLoopbackHost uv address = true)
    (hlisten : parseAddress uv address = .ok listener) :
    listener.Loopback := by
  rw [isLoopbackHost] at h
  split at h
  · rename_i host port hasPort hsplit
    rw [splitAuthority] at hsplit
    split at hsplit
    · cases hsplit
    obtain ⟨⟨host', text'⟩, hauthority, hsplit⟩ := Option.bind_eq_some_iff.1 hsplit
    have hname : host' = host := by
      simp only at hsplit
      split at hsplit
      · cases hsplit
      split at hsplit
      · cases hsplit
        rfl
      · obtain ⟨_, -, heq⟩ := Option.map_eq_some_iff.1 hsplit
        cases heq
        rfl
    rw [parseAddress] at hlisten
    split at hlisten
    · cases hlisten
    rename_i host'' text haddress
    obtain ⟨port', -, hlisten⟩ := bind_eq_ok_iff.1 hlisten
    rw [host_eq_of_separate hauthority haddress, hname] at hlisten
    exact loopback_of_isLoopbackName huv h hlisten
  · cases h

end Documented

/-! ## The server -/

/-- What a started server went through. -/
theorem start_eq_ok {uv : Uv} {address authToken licensePath : Option Bytes} {server : Server}
    (h : start uv address authToken licensePath = .ok server) :
    ∃ text, address = some text ∧ parseAddress uv text = .ok server.listener ∧
      (isLoopbackHost uv text = true ∨ authToken.getD [] ≠ []) ∧
      openListener uv server.listener = 0 := by
  rw [start.eq_def] at h
  split at h
  · cases h
  rename_i text
  obtain ⟨listener, hlistener, h⟩ := bind_eq_ok_iff.1 h
  split at h
  · cases h
  rename_i hallowed
  simp only at h
  split at h
  · cases h
  rename_i hopen
  obtain ⟨name, -, h⟩ := bind_eq_ok_iff.1 h
  cases h
  refine ⟨text, rfl, hlistener, ?_, not_not.1 hopen⟩
  by_contra hboth
  simp only [not_or, Bool.not_eq_true, not_not] at hboth
  exact hallowed (by simp [hboth.1, hboth.2])

/-- **A server without a token is local**: whatever the listen address is, the socket of a server
that starts with an empty token is bound to a loopback address. -/
theorem start_loopback {uv : Uv} (huv : uv.Documented)
    {address authToken licensePath : Option Bytes} (htoken : authToken.getD [] = [])
    {server : Server}
    (h : start uv address authToken licensePath = .ok server) : server.listener.Loopback := by
  obtain ⟨text, -, hlistener, hallowed, -⟩ := start_eq_ok h
  rcases hallowed with hlocal | hnonempty
  · exact loopback_of_isLoopbackHost huv hlocal hlistener
  · exact absurd htoken hnonempty

/-- An IPv6 address, with room for 39 characters in front of a zone. -/
def bufferedPton6 (host : Bytes) : Option Bytes :=
  if 37 ∈ host then pton6 ((zoneless host).take 39) else pton6 host

theorem bufferedPton6_eq (h : (zoneless host).length < 40) :
    bufferedPton6 host = pton6 (zoneless host) := by
  rw [bufferedPton6]
  split
  · rw [take_of_length_le (by omega)]
  · rename_i hzone
    rw [zoneless, takeWhile_ne_eq_self_iff.2 hzone]

/-- A library that reads addresses as libuv does and opens every socket. -/
def sampleUv : Uv where
  inetPton4 := pton4
  inetPton6 host := pton6 (zoneless host)
  ip4Addr := pton4
  ip6Addr := bufferedPton6
  tcpInit := 0
  tcpBind _ := 0
  listen _ := 0
  tcpGetsockname address := .ok (some address)
  ip4Name address := .ok (ntop4 address)
  ip6Name address := .ok (ntop6 address)
  strerror _ := []

theorem sampleUv_documented : sampleUv.Documented where
  inetPton4 _ := rfl
  inetPton6 _ := rfl
  ip4Addr _ := rfl
  ip6Addr _ := bufferedPton6_eq

theorem start_loopback_zone : ∃ server, start sampleUv (some (bytes "[::1%lo]:9090")) none none =
    .ok server ∧ server.listener.Loopback := by
  have hstart : (start sampleUv (some (bytes "[::1%lo]:9090")) none none).toBool = true := by decide
  cases h : start sampleUv (some (bytes "[::1%lo]:9090")) none none with
  | error e =>
    rw [h] at hstart
    cases hstart
  | ok server => exact ⟨server, rfl, start_loopback sampleUv_documented rfl h⟩

end ClambHook.ApiServer
