import ClambHook.Rules.Single
import ClambHook.Rules.Targets

/-!
# SOCKS addresses

The address that is dialed is encoded by `ch_socks_encode_address`, and `ch_socks_split_address`
takes the text apart for it.  The rule engine takes the same text apart on its own, with
`ch_split_target`.  Both look for a host in brackets and for a port behind a colon, but the encoder
reads the text as it stands and takes the first closing bracket, and the engine trims it first and
takes the last one.

The two agree on every text the encoder accepts, except where white space meets a bracket: in front
of the text, or inside the brackets.  Then a rule is asked about another host than the one that is
dialed.
-/

namespace ClambHook.Socks

open CString Inet Rules List

/-! ## The encoder -/

def splitFailed : Error :=
  .set .parse (bytes "socks: split host/port failed")

/-- The first part of `ch_socks_split_address`: where the host ends and the port starts. -/
def separate (address : Bytes) : Except Error (Bytes × Bytes) :=
  if address.head? = some 91 then
    match splitFirst 93 address.tail with
    | some (host, 58 :: port) => if port = [] then .error splitFailed else .ok (host, port)
    | _ => .error splitFailed
  else
    match splitLast 58 address with
    | some (host, port) =>
      if host = [] ∨ port = [] ∨ 58 ∈ host then .error splitFailed else .ok (host, port)
    | none => .error splitFailed

/-- The port of `ch_socks_split_address`. -/
def parsePort (text : Bytes) : Except Error UInt16 :=
  let read := strtol text
  if read.erange ∨ read.rest = text ∨ read.rest ≠ [] ∨ read.value < 0 ∨ read.value > 65535 then
    .error (.set .parse (bytes "socks: invalid port"))
  else .ok read.value.toNat.toUInt16

/-- `ch_socks_split_address`. -/
def splitAddress (address : Bytes) : Except Error (Bytes × UInt16) := do
  let (host, text) ← separate address
  let port ← parsePort text
  if host.length = 0 ∨ host.length > 255 then
    .error (.set .parse (bytes "socks: domain length out of range"))
  else .ok (host, port)

/-- The three kinds of addresses. -/
inductive Form where
  | ipv4 (address : Bytes)
  | domain (name : Bytes)
  | ipv6 (address : Bytes)
deriving DecidableEq, Repr

/-- The kind that a host is encoded as. -/
def form (host : Bytes) : Form :=
  match pton4 host with
  | some address => .ipv4 address
  | none =>
    match pton6 host with
    | some address => .ipv6 address
    | none => .domain host

def Form.encode : Form → Bytes
  | .ipv4 address => 0x01 :: address
  | .domain name => 0x03 :: name.length.toUInt8 :: name
  | .ipv6 address => 0x04 :: address

/-- A port in network order. -/
def portBytes (port : UInt16) : Bytes :=
  [(port >>> 8).toUInt8, (port &&& 0xff).toUInt8]

/-- `ch_socks_encode_address`. -/
def encodeAddress (address : Option Bytes) : Except Error Bytes :=
  match address with
  | none =>
    .error (.set .invalidArgument (bytes "address and output pointers are required"))
  | some address => do
    let (host, port) ← splitAddress address
    return (form host).encode ++ portBytes port

/-! ## What the encoder accepts -/

/-- The texts that `separate` accepts, with what it makes of them. -/
inductive Separated (host port : Bytes) : Bytes → Prop where
  /-- The host is in brackets. -/
  | bracketed (hhost : 93 ∉ host) (hport : port ≠ []) :
      Separated host port (91 :: (host ++ 93 :: 58 :: port))
  /-- There is a single colon, with something on both sides. -/
  | plain (hhead : host.head? ≠ some 91) (hne : host ≠ []) (hhost : 58 ∉ host) (hport : port ≠ [])
      (hcolon : 58 ∉ port) : Separated host port (host ++ 58 :: port)

variable {address host : Bytes}

theorem separated_of_separate {port : Bytes}
    (h : separate address = .ok (host, port)) : Separated host port address := by
  rw [separate] at h
  split at h
  · rename_i hhead
    split at h
    · rename_i host' port' hsplit
      split at h
      · cases h
      cases h
      rename_i hne
      obtain ⟨htail, hmem⟩ := splitFirst_eq_some_iff.1 hsplit
      rw [← cons_head?_tail hhead, htail]
      exact .bracketed hmem hne
    · cases h
  · rename_i hhead
    split at h
    · rename_i host' port' hsplit
      split at h
      · cases h
      cases h
      rename_i hparts
      simp only [not_or] at hparts
      obtain ⟨rfl, hmem⟩ := splitLast_eq_some_iff.1 hsplit
      rw [head?_append_of_ne_nil _ hparts.1] at hhead
      exact .plain hhead hparts.1 hparts.2.2 hparts.2.1 hmem
    · cases h

/-- A text that `parsePort` accepts. -/
structure PortText (text : Bytes) (port : UInt16) : Prop where
  isNumber : isNumber text = true
  value : (strtol text).value = port.toNat

variable {port : UInt16} {text : Bytes}

theorem portText_of_parsePort (h : parsePort text = .ok port) :
    PortText text port := by
  simp only [parsePort] at h
  split at h
  · cases h
  cases h
  rename_i hread
  simp only [not_or, Bool.not_eq_true, ne_eq, not_not, not_lt, gt_iff_lt] at hread
  obtain ⟨herange, hrest, hempty, hmin, hmax⟩ := hread
  constructor
  · have hne : text ≠ [] := fun hnil ↦ hrest (hempty.trans hnil.symm)
    simp [Rules.isNumber, herange, hempty, hne]
  · rw [Nat.toUInt16, UInt16.toNat_ofNat']
    omega

theorem splitAddress_eq_ok (h : splitAddress address = .ok (host, port)) :
    ∃ text, Separated host text address ∧ PortText text port ∧ 0 < host.length ∧
      host.length ≤ 255 := by
  rw [splitAddress, bind_eq_ok_iff] at h
  obtain ⟨⟨host', text⟩, hseparate, h⟩ := h
  obtain ⟨port', hport, h⟩ := bind_eq_ok_iff.1 h
  split at h
  · cases h
  · cases h
    exact ⟨text, separated_of_separate hseparate, portText_of_parsePort hport, by omega⟩

/-! ## What the rule engine makes of it -/

/-- The rule engine reads a host and a port off the target, in the text and, for an address, in the
bytes that CIDRs are compared with. -/
structure Judged (target host : Bytes) (port : UInt16) : Prop where
  hostText : (splitTarget target).1 = lower (stripFinalDot (trim host))
  portText : PortText (splitTarget target).2 port
  ipv4 : ∀ address, form host = .ipv4 address → ∀ list : List Cidr,
    matchCidrs list (splitTarget target).1 =
      (list.find? fun cidr ↦ cidr.family = .inet && cidrContains cidr address).map Cidr.text
  ipv6 : ∀ address, form host = .ipv6 address → ∀ list : List Cidr,
    matchCidrs list (splitTarget target).1 =
      (list.find? fun cidr ↦ cidr.family = .inet6 && cidrContains cidr address).map Cidr.text

/-- No white space in front of a bracket, and none at the ends of what the brackets hold. -/
structure PlainBrackets (target : Bytes) : Prop where
  front : (trimLeft target).head? = some 91 → target.head? = some 91
  inside : ∀ host rest, target = 91 :: (host ++ 93 :: rest) → 93 ∉ host → Trimmed host

/-- Trimming is never undone by taking a dot away. -/
theorem trimmed_of_stripFinalDot
    (h : lower (stripFinalDot host) = lower (stripFinalDot (trim host))) : Trimmed host := by
  have hlength := congrArg List.length h
  rw [length_lower, length_lower] at hlength
  have hle : (trim host).length ≤ host.length := (trim_infix_self host).length_le
  by_cases hdot : host.getLast? = some 46
  · have hdot' : (trim host).getLast? = some 46 := by
      have hnonspace : ∀ c ∈ host.getLast?, isspace c = false := by
        rw [hdot]
        rintro c ⟨⟩
        decide
      have hne : trim host ≠ [] := trim_ne_nil hnonspace (by rintro rfl; cases hdot)
      have hmem := getLast?_eq_some_getLast hne
      have heq := mem_getLast?_of_suffix (trim_suffix hnonspace) hmem
      rw [hdot] at heq
      rw [hmem]
      exact heq.symm
    rw [stripFinalDot, stripFinalDot, if_pos hdot, if_pos hdot', length_dropLast,
      length_dropLast] at hlength
    have hpos : 0 < (trim host).length := by
      refine length_pos_of_ne_nil fun hnil ↦ ?_
      simp [hnil] at hdot'
    exact trimmed_of_length_eq (by omega)
  · rw [stripFinalDot, if_neg hdot] at hlength
    have hshort := (length_stripFinalDot (trim host)).1
    exact trimmed_of_length_eq (by omega)

/-! ## CIDRs -/

/-- The engine compares CIDRs with the address that the encoder writes. -/
theorem matchCidrs_normalized {family : Family}
    (h : pton family host = some address) (list : List Cidr) :
    matchCidrs list (lower (stripFinalDot (trim host))) =
      (list.find? fun cidr ↦ cidr.family = family && cidrContains cidr address).map Cidr.text := by
  have htext := addressText_of_pton h
  have hlower := addressText_of_pton ((pton_lower family host).trans h)
  have hparse : parseAddress (lower host) = some (family, address) :=
    parseAddress_eq_some_iff.2 ((pton_lower family host).trans h)
  have hlength := hlower.length
  have hdot : stripFinalDot host = host := if_neg htext.last
  rw [trim_eq_self htext.trimmed, hdot, matchCidrs, if_neg (by omega), hlower.stripBrackets, hparse]

theorem form_eq_ipv4 (h : form host = .ipv4 address) :
    pton .inet host = some address := by
  rw [form] at h
  split at h
  · cases h
    assumption
  · split at h <;> cases h

theorem form_eq_ipv6 (h : form host = .ipv6 address) :
    pton .inet6 host = some address := by
  rw [form] at h
  split at h
  · cases h
  split at h
  · cases h
    assumption
  · cases h

theorem judged_of_splitTarget {target : Bytes}
    (h : splitTarget target = (lower (stripFinalDot (trim host)), text))
    (htext : PortText text port) : Judged target host port := by
  constructor <;> rw [h]
  · exact htext
  · exact fun address hform ↦ matchCidrs_normalized (form_eq_ipv4 hform)
  · exact fun address hform ↦ matchCidrs_normalized (form_eq_ipv6 hform)

/-! ## Agreement -/

theorem plainBrackets_bracketed {rest : Bytes} (hhost : 93 ∉ host) (htrimmed : Trimmed host) :
    PlainBrackets (91 :: (host ++ 93 :: rest)) := by
  refine ⟨fun _ ↦ rfl, fun host' rest' heq hhost' ↦ ?_⟩
  have hfirst := splitFirst_eq_some_iff.2 ⟨(List.cons.inj heq).2, hhost'⟩
  rw [splitFirst_eq_some_iff.2 ⟨rfl, hhost⟩] at hfirst
  cases hfirst
  exact htrimmed

theorem judged_bracketed_iff (hhost : 93 ∉ host)
    (htext : PortText text port) :
    Judged (91 :: (host ++ 93 :: 58 :: text)) host port ↔
      PlainBrackets (91 :: (host ++ 93 :: 58 :: text)) := by
  have hsplit : splitTarget (91 :: (host ++ 93 :: 58 :: text)) =
      (lower (stripFinalDot host), text) := splitTarget_bracketed htext.isNumber
  constructor
  · intro h
    have heq := h.hostText
    rw [hsplit] at heq
    exact plainBrackets_bracketed hhost (trimmed_of_stripFinalDot heq)
  · intro h
    have htrimmed := h.inside host (58 :: text) rfl hhost
    refine judged_of_splitTarget ?_ htext
    rw [hsplit, trim_eq_self htrimmed]

theorem judged_plain_iff (hhead : host.head? ≠ some 91)
    (hne : host ≠ []) (htext : PortText text port) :
    Judged (host ++ 58 :: text) host port ↔ PlainBrackets (host ++ 58 :: text) := by
  have hstart : (host ++ 58 :: text).head? = host.head? := head?_append_of_ne_nil _ hne
  constructor
  · intro h
    refine ⟨fun hbracket ↦ ?_, fun host' rest heq _ ↦ ?_⟩
    · rw [trimLeft_append_cons (by decide)] at hbracket
      have hleft : (trimLeft host).head? = some 91 := by
        cases hhost : trimLeft host with
        | nil => simp [hhost] at hbracket
        | cons c rest =>
          rw [hhost] at hbracket
          exact hbracket
      rcases splitTarget_front_bracket htext.isNumber hleft with hport | hlength
      · exact absurd (congrArg Prod.snd hport) (ne_nil_of_isNumber h.portText.isNumber)
      · have hdot := (length_stripFinalDot (trim host)).2
        rw [h.hostText, length_lower] at hlength
        omega
    · rw [heq] at hstart
      exact absurd hstart.symm hhead
  · intro h
    refine judged_of_splitTarget (splitTarget_plain htext.isNumber fun hleft ↦ ?_) htext
    have hbracket : (trimLeft (host ++ 58 :: text)).head? = some 91 := by
      rw [trimLeft_append_cons (by decide)]
      exact (head?_append_of_ne_nil _ (by rintro hnil; simp [hnil] at hleft)).trans hleft
    exact hhead (hstart ▸ h.front hbracket)

/-- The encoded form of port 443 on the IPv6 loopback address. -/
def encodedLoopback : Bytes :=
  [4, 0, 0, 0, 0, 0, 0, 0, 0, 0, 0, 0, 0, 0, 0, 0, 1, 1, 187]

/-- **The rules judge the host that is dialed** exactly when no white space meets a bracket. -/
theorem judged_iff {target encoded : Bytes} (h : encodeAddress (some target) = .ok encoded) :
    (∃ host port, splitAddress target = .ok (host, port) ∧
        encoded = (form host).encode ++ portBytes port ∧ Judged target host port) ↔
      PlainBrackets target := by
  rw [encodeAddress, bind_eq_ok_iff] at h
  obtain ⟨⟨host, port⟩, hsplit, h⟩ := h
  cases h
  obtain ⟨text, hseparated, htext, -⟩ := splitAddress_eq_ok hsplit
  have hjudged : Judged target host port ↔ PlainBrackets target := by
    cases hseparated with
    | bracketed hhost _ => exact judged_bracketed_iff hhost htext
    | plain hhead hne _ _ _ => exact judged_plain_iff hhead hne htext
  rw [← hjudged]
  constructor
  · rintro ⟨host', port', hsplit', -, hj⟩
    rw [hsplit] at hsplit'
    cases hsplit'
    exact hj
  · exact fun hj ↦ ⟨host, port, hsplit, rfl, hj⟩

theorem judged_ipv6 : ∃ host port, splitAddress (bytes "[::1]:443") = .ok (host, port) ∧
    encodedLoopback = (form host).encode ++ portBytes port ∧
      Judged (bytes "[::1]:443") host port := by
  refine (judged_iff (by decide)).2 ?_
  have htarget : bytes "[::1]:443" = 91 :: (bytes "::1" ++ 93 :: bytes ":443") := by decide
  rw [htarget]
  exact plainBrackets_bracketed (by decide) (by decide)

/-- White space in front of a bracket, and inside the brackets: a rule for the host `a` governs the
connection that dials the name `[a]` in brackets, and one that dials ` a ` is judged by a name that
no rule can have. -/
theorem judged_spaced :
    splitAddress (bytes " [a]:80") = .ok (bytes " [a]", 80) ∧
      splitTarget (bytes " [a]:80") = (bytes "a", bytes "80") ∧
      lower (stripFinalDot (trim (bytes " [a]"))) = bytes "[a]" ∧
      splitAddress (bytes "[ a ]:80") = .ok (bytes " a ", 80) ∧
      splitTarget (bytes "[ a ]:80") = (bytes " a ", bytes "80") ∧
      lower (stripFinalDot (trim (bytes " a "))) = bytes "a" := by
  decide

end ClambHook.Socks
