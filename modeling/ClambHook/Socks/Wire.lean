import ClambHook.Socks.Address

/-!
# SOCKS addresses on the wire

`ch_socks_decode_address` reads an encoded address back.  `ch_socks_read_target` of the listener
reads the address that a client sends and writes it as text, which is encoded again for the next
hop.  The text does not say what kind of address it was.  A name that is an IP address, or that has
a NUL, a colon or an opening bracket in front, is encoded as another host or not at all.
-/

namespace ClambHook.Socks

open CString Inet Rules List

/-! ## Reading -/

/-- A port in network order. -/
def readPort : Bytes → UInt16
  | high :: low :: _ => (256 * high.toNat + low.toNat).toUInt16
  | _ => 0

def endOfInput (part : String) : Error :=
  .set .parse (bytes "socks: read " ++ bytes part ++ bytes ": unexpected end of input")

/-- `ch_socks_decode_address`: the host, the port and the number of bytes that are read. -/
def decodeAddress : Bytes → Except Error (Bytes × UInt16 × Nat)
  | [] => .error (endOfInput "atyp")
  | 0x01 :: rest =>
    if rest.length < 4 + 2 then .error (endOfInput "ipv4")
    else .ok (ntop4 (rest.take 4), readPort (rest.drop 4), 7)
  | 0x04 :: rest =>
    if rest.length < 16 + 2 then .error (endOfInput "ipv6")
    else .ok (ntop6 (rest.take 16), readPort (rest.drop 16), 19)
  | [0x03] => .error (endOfInput "domain len")
  | 0x03 :: length :: rest =>
    if length = 0 then .error (.set .parse (bytes "socks: empty domain"))
    else if rest.length < length.toNat + 2 then .error (endOfInput "domain")
    else .ok (untilNul (rest.take length.toNat), readPort (rest.drop length.toNat),
      length.toNat + 4)
  | kind :: _ => .error (.set .parse (bytes "socks: unsupported atyp 0x" ++
      [hexChar (kind.toNat / 16), hexChar (kind.toNat % 16)]))

/-- The host that the listener reads, and what is behind it, or the reply to refuse with. -/
def readHost : UInt8 → Bytes → Except UInt8 (Bytes × Bytes)
  | 0x01, rest =>
    if rest.length < 4 then .error 0x01 else .ok (ntop4 (rest.take 4), rest.drop 4)
  | 0x04, rest =>
    if rest.length < 16 then .error 0x01 else .ok (ntop6 (rest.take 16), rest.drop 16)
  | 0x03, [] => .error 0x01
  | 0x03, length :: rest =>
    if length = 0 ∨ rest.length < length.toNat then .error 0x01
    else .ok (untilNul (rest.take length.toNat), rest.drop length.toNat)
  | _, _ => .error 0x08

/-- `ch_socks_read_target`: the command and the target, or the reply to refuse with. -/
def readTarget : Bytes → Except UInt8 (UInt8 × Bytes)
  | 0x05 :: command :: _ :: kind :: rest => do
    let (host, rest) ← readHost kind rest
    let host := if kind = 0x04 then 91 :: (host ++ [93]) else host
    if rest.length < 2 then .error 0x01
    else .ok (command, host ++ 58 :: decimal (readPort rest).toNat)
  | _ => .error 0x01

/-! ## Addresses -/

namespace Form

/-- The address has the length of its kind. -/
def Sized : Form → Prop
  | ipv4 address => address.length = 4
  | domain name => 0 < name.length ∧ name.length ≤ 255
  | ipv6 address => address.length = 16

/-- The host that is read for the address. -/
def host : Form → Bytes
  | ipv4 address => ntop4 address
  | domain name => untilNul name
  | ipv6 address => ntop6 address

/-- The target that is written for the address. -/
def target (port : UInt16) : Form → Bytes
  | ipv4 address => ntop4 address ++ 58 :: decimal port.toNat
  | domain name => untilNul name ++ 58 :: decimal port.toNat
  | ipv6 address => 91 :: (ntop6 address ++ 93 :: 58 :: decimal port.toNat)

/-- The text of the address says what it is. -/
def Nameable : Form → Prop
  | domain name => 0 ∉ name ∧ 58 ∉ name ∧ name.head? ≠ some 91 ∧ form name = .domain name
  | _ => True

end Form

variable {f : Form} {host text address rest : Bytes} {port : UInt16}

theorem portBytes_eq (port : UInt16) : portBytes port = wordBytes port.toNat := by
  have hlow := Nat.and_two_pow_sub_one_eq_mod port.toNat 8
  simp only [portBytes, wordBytes, cons.injEq, and_true, ← UInt8.toNat_inj, UInt16.toNat_toUInt8,
    UInt16.toNat_shiftRight, UInt16.toNat_and, Nat.shiftRight_eq_div_pow]
  simp at hlow ⊢
  omega

theorem readPort_portBytes (port : UInt16) (rest : Bytes) :
    readPort (portBytes port ++ rest) = port := by
  have hport := port.toNat_lt
  rw [portBytes_eq, wordBytes, cons_append, cons_append, readPort, ← UInt16.toNat_inj]
  simp
  omega

theorem portBytes_readPort (h : ¬rest.length < 2) :
    portBytes (readPort rest) ++ rest.drop 2 = rest := by
  obtain ⟨high, low, rest, rfl⟩ : ∃ high low rest', rest = high :: low :: rest' := by
    rcases rest with - | ⟨high, - | ⟨low, rest⟩⟩
    · simp at h
    · simp at h
    · exact ⟨high, low, rest, rfl⟩
  have hhigh := high.toNat_lt
  have hlow := low.toNat_lt
  have hvalue : (readPort (high :: low :: rest)).toNat = 256 * high.toNat + low.toNat := by
    simp [readPort]
    omega
  rw [portBytes_eq, hvalue, wordBytes_word]
  rfl

theorem toNat_length {name : Bytes} (h : name.length ≤ 255) :
    name.length.toUInt8.toNat = name.length := by
  simp only [Nat.toUInt8_eq, UInt8.toNat_ofNat']
  omega

/-- An encoded address is decoded, whatever is behind it. -/
theorem decodeAddress_encode (h : f.Sized) (port : UInt16) (rest : Bytes) :
    decodeAddress (f.encode ++ portBytes port ++ rest) =
      .ok (f.host, port, (f.encode ++ portBytes port).length) := by
  have hport : (portBytes port).length = 2 := rfl
  rw [append_assoc]
  cases f with
  | ipv4 address | ipv6 address =>
    rw [Form.Sized] at h
    rw [Form.encode, cons_append, decodeAddress, if_neg (by simp [h, hport]; omega),
      take_left' h, drop_left' h, readPort_portBytes]
    simp [hport, h, Form.host]
  | domain name =>
    have hname := toNat_length h.2
    have hne : name.length.toUInt8 ≠ 0 := fun hzero ↦ by
      rw [hzero] at hname
      exact h.1.ne hname
    rw [Form.encode, cons_append, cons_append, decodeAddress, if_neg hne, hname,
      if_neg (by simp [hport]; omega), take_left, drop_left, readPort_portBytes]
    simp [hport, Form.host]

/-! ## Encoding what was read -/

theorem parsePort_decimal (port : UInt16) : parsePort (decimal port.toNat) = .ok port := by
  have hport := port.toNat_lt
  rw [parsePort, strtol_decimal (by simp only [longMax]; omega)]
  dsimp only
  rw [if_neg]
  · simp
  · simp [(decimal_ne_nil port.toNat).symm]
    omega

section

variable (hhost : 0 < host.length ∧ host.length ≤ 255)

include hhost

theorem splitAddress_of_separate (h : separate address = .ok (host, decimal port.toNat)) :
    splitAddress address = .ok (host, port) := by
  rw [splitAddress, h, ok_bind]
  dsimp only
  rw [parsePort_decimal, ok_bind, if_neg (by omega)]

theorem splitAddress_plain (hhead : host.head? ≠ some 91) (hcolon : 58 ∉ host) :
    splitAddress (host ++ 58 :: decimal port.toNat) = .ok (host, port) := by
  have hne : host ≠ [] := length_pos_iff.1 hhost.1
  have hsplit : splitLast 58 (host ++ 58 :: decimal port.toNat) = some (host, decimal port.toNat) :=
    splitLast_eq_some_iff.2 ⟨rfl, notMem_decimal (by decide) _⟩
  refine splitAddress_of_separate hhost ?_
  rw [separate, List.head?_append_of_ne_nil _ hne, if_neg hhead, hsplit]
  exact if_neg (by simp [hne, decimal_ne_nil, hcolon])

theorem splitAddress_bracketed (hbracket : 93 ∉ host) :
    splitAddress (91 :: (host ++ 93 :: 58 :: decimal port.toNat)) = .ok (host, port) := by
  have hsplit : splitFirst 93 (host ++ 93 :: 58 :: decimal port.toNat) =
      some (host, 58 :: decimal port.toNat) := splitFirst_eq_some_iff.2 ⟨rfl, hbracket⟩
  refine splitAddress_of_separate hhost ?_
  rw [separate, List.head?_cons, if_pos rfl, tail_cons, hsplit]
  exact if_neg (decimal_ne_nil _)

end

theorem form_eq_domain {name : Bytes} (h : form host = .domain name) : host = name := by
  rw [form] at h
  split at h
  · cases h
  · split at h
    · cases h
    · exact Form.domain.inj h

theorem sized_form (h : 0 < host.length ∧ host.length ≤ 255) : (form host).Sized := by
  cases hform : form host with
  | ipv4 address => exact length_pton4 (form_eq_ipv4 hform)
  | domain name => exact form_eq_domain hform ▸ h
  | ipv6 address => exact length_pton6 (form_eq_ipv6 hform)

theorem form_host (h : f.Sized)
    (hname : ∀ name, f = .domain name → 0 ∉ name ∧ form name = .domain name) :
    form f.host = f := by
  cases f with
  | ipv4 address => simp only [Form.host, form, pton4_ntop4 h]
  | domain name =>
    obtain ⟨hzero, hform⟩ := hname name rfl
    rw [Form.host, untilNul_eq_self hzero, hform]
  | ipv6 address =>
    have hpton := pton6_ntop6 h
    simp only [Form.host, form, hpton, pton4_eq_none_of_pton6 hpton]

theorem splitAddress_target (h : f.Sized) (hname : f.Nameable) :
    splitAddress (f.target port) = .ok (f.host, port) := by
  cases f with
  | ipv4 address =>
    have htext := @addressText_of_pton _ _ .inet (pton4_ntop4 h)
    have hdotted := dotted_of_pton4 (pton4_ntop4 h)
    exact splitAddress_plain ⟨length_pos_iff.2 hdotted.ne_nil, htext.length.trans (by decide)⟩
      (fun hhead ↦ (ne_bracket_of_isAddressChar (htext.chars 91 (mem_of_mem_head? hhead))).1 rfl)
      hdotted.colon_notMem
  | domain name =>
    rw [Form.target, Form.host, untilNul_eq_self hname.1]
    exact splitAddress_plain h hname.2.2.1 hname.2.1
  | ipv6 address =>
    have hcoloned := coloned_of_pton6 (pton6_ntop6 h)
    exact splitAddress_bracketed
      ⟨length_pos_iff.2 (ne_nil_of_mem hcoloned.colon), hcoloned.length.trans (by decide)⟩
      fun hmem ↦ (ne_bracket_of_isAddressChar (hcoloned.chars 93 hmem)).2 rfl

theorem Separated.mem {c : UInt8} (h : Separated host text address) (hc : c ∈ host) :
    c ∈ address := by
  cases h <;> simp [hc]

/-- A target is encoded as the address it was written for exactly if its text says what it is. -/
theorem encodeAddress_target_iff (h : f.Sized) :
    encodeAddress (some (f.target port)) = .ok (f.encode ++ portBytes port) ↔ f.Nameable := by
  refine ⟨fun hencode ↦ ?_, fun hname ↦ ?_⟩
  · cases f with
    | ipv4 address => trivial
    | ipv6 address => trivial
    | domain name =>
      rw [encodeAddress, bind_eq_ok_iff] at hencode
      obtain ⟨⟨host, port'⟩, hsplit, hencode⟩ := hencode
      have hbytes := Except.ok.inj hencode
      have hform : form host = .domain name := by
        cases hform : form host with
        | ipv4 address => simp [hform, Form.encode] at hbytes
        | ipv6 address => simp [hform, Form.encode] at hbytes
        | domain found =>
          simp only [hform, Form.encode, cons_append, List.cons.injEq] at hbytes
          rw [(append_inj' hbytes.2.2 rfl).1]
      obtain rfl := form_eq_domain hform
      obtain ⟨text, hseparated, -, -⟩ := splitAddress_eq_ok hsplit
      have hends : ∀ c : UInt8, isdigit c = false → c ≠ 58 → c ∉ untilNul host →
          c ∉ (Form.domain host).target port := by
        intro c hdigit hcolon hc
        simp [Form.target, hc, hcolon, notMem_decimal hdigit]
      have hzero : 0 ∉ host := fun hmem ↦
        hends 0 (by decide) (by decide) (zero_notMem_untilNul host) (hseparated.mem hmem)
      rw [untilNul_eq_self hzero] at hends
      generalize (Form.domain host).target port = target at hseparated hends
      cases hseparated with
      | bracketed hhost _ => exact absurd (by simp) (hends 93 (by decide) (by decide) hhost)
      | plain hhead _ hcolon _ _ => exact ⟨hzero, hcolon, hhead, hform⟩
  · rw [encodeAddress, splitAddress_target h hname, ok_bind]
    dsimp only
    rw [form_host h fun name hf ↦ ?_]
    · rfl
    · subst hf
      exact ⟨hname.1, hname.2.2.2⟩

/-- What the listener reads is an address, and the target is its text. -/
theorem exists_form {kind : UInt8} {rest' : Bytes} (h : readHost kind rest = .ok (host, rest')) :
    ∃ f : Form, f.Sized ∧ kind :: rest = f.encode ++ rest' ∧ ∀ port : UInt16,
      (if kind = 0x04 then 91 :: (host ++ [93]) else host) ++ 58 :: decimal port.toNat =
        f.target port := by
  unfold readHost at h
  split at h
  · split at h
    · cases h
    · cases h
      exact ⟨.ipv4 (rest.take 4), by simp [Form.Sized]; omega, by simp [Form.encode], fun _ ↦ rfl⟩
  · split at h
    · cases h
    · cases h
      exact ⟨.ipv6 (rest.take 16), by simp [Form.Sized]; omega, by simp [Form.encode],
        fun _ ↦ by simp [Form.target]⟩
  · cases h
  · next length rest =>
    split at h
    · cases h
    next hlength =>
    cases h
    have hlt := length.toNat_lt
    have hne : length.toNat ≠ 0 := fun hzero ↦ hlength (.inl (UInt8.toNat_inj.1 hzero))
    have htake : (rest.take length.toNat).length = length.toNat := by
      rw [length_take]
      omega
    refine ⟨.domain (rest.take length.toNat), by simp only [Form.Sized, htake]; omega, ?_,
      fun _ ↦ rfl⟩
    simp [Form.encode, htake]
  · cases h

/-- **The codec.**  An encoded target is decoded as the same host and port.  What a client sends is
encoded again as it was exactly if the text of the host says what it is. -/
theorem socks_codec_iff (text stream : Bytes) :
    (∀ encoded more, 0 ∉ text → encodeAddress (some text) = .ok encoded →
      ∃ host port found, splitAddress text = .ok (host, port) ∧
        decodeAddress (encoded ++ more) = .ok (found, port, encoded.length) ∧
        form found = form host) ∧
    (∀ command target, readTarget stream = .ok (command, target) →
      ∃ (f : Form) (port : UInt16) (more : Bytes), f.Sized ∧
        stream.drop 3 = f.encode ++ portBytes port ++ more ∧
        decodeAddress (stream.drop 3) = .ok (f.host, port, (f.encode ++ portBytes port).length) ∧
        (encodeAddress (some target) = .ok (f.encode ++ portBytes port) ↔ f.Nameable)) := by
  refine ⟨fun encoded more hzero hencode ↦ ?_, fun command target hread ↦ ?_⟩
  · rw [encodeAddress, bind_eq_ok_iff] at hencode
    obtain ⟨⟨host, port⟩, hsplit, hencode⟩ := hencode
    cases hencode
    obtain ⟨_, hseparated, -, hlength⟩ := splitAddress_eq_ok hsplit
    refine ⟨host, port, _, hsplit, decodeAddress_encode (sized_form hlength) port more,
      form_host (sized_form hlength) fun name hname ↦ ?_⟩
    obtain rfl := form_eq_domain hname
    exact ⟨fun hmem ↦ hzero (hseparated.mem hmem), hname⟩
  · unfold readTarget at hread
    split at hread
    · obtain ⟨⟨host, rest⟩, hhost, hread⟩ := bind_eq_ok_iff.1 hread
      dsimp only at hread
      split at hread
      · cases hread
      next hlength =>
      cases hread
      obtain ⟨f, hsized, hstream, htarget⟩ := exists_form hhost
      rw [← portBytes_readPort hlength, ← append_assoc] at hstream
      refine ⟨f, readPort rest, rest.drop 2, hsized, hstream, ?_, ?_⟩
      · rw [← decodeAddress_encode hsized _ (rest.drop 2), ← hstream]
        rfl
      · rw [htarget]
        exact encodeAddress_target_iff hsized
    · cases hread

/-- A client that asks for the name `1.2.3.4` gets the address, and one that asks for `a`, a NUL and
`b` gets `a`. -/
theorem name_becomes_other_host :
    readTarget ([5, 1, 0, 3, 7] ++ bytes "1.2.3.4" ++ [0, 80]) = .ok (1, bytes "1.2.3.4:80") ∧
      encodeAddress (some (bytes "1.2.3.4:80")) = .ok [1, 1, 2, 3, 4, 0, 80] ∧
      readTarget [5, 1, 0, 3, 3, 97, 0, 98, 0, 80] = .ok (1, bytes "a:80") ∧
      encodeAddress (some (bytes "a:80")) = .ok [3, 1, 97, 0, 80] := by
  decide

end ClambHook.Socks
