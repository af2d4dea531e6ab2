import ClambHook.Http.Endpoint
import ClambHook.Lib.InetText

/-!
# Pinned connections

A request may only reach an address that the preparation of its endpoint has checked, however the
answers of the resolver change from one call to the next.  The HTTP client connects to the pinned
address when the entry is for the host and the port of the URL, and otherwise asks the resolver
again.

The entry is made of the host that was looked up, which has lost the dots at its end; the URL keeps
them.  So `connects_vetted_iff`: the pin holds exactly for the URLs whose host does not end with a
dot.
-/

namespace ClambHook.Http

open CString Inet List

/-! ## The client -/

/-- The host in front of a resolve entry, with its brackets, and what stands behind the colon. -/
def entryHost (entry : Bytes) : Option (Bytes × Bytes) :=
  match entry with
  | 91 :: entry =>
    match splitFirst 93 entry with
    | some (address, 58 :: rest) => some (91 :: address ++ [93], rest)
    | _ => none
  | entry => splitFirst 58 entry

/-- A numeric address. -/
def readAddress (text : Bytes) : Option Sockaddr :=
  match h : pton4 text with
  | some address => some (.inet ⟨address, length_pton4 h⟩)
  | none =>
    match h : pton6 text with
    | some address => some (.inet6 ⟨address, length_pton6 h⟩)
    | none => none

/-- The address at the end of a resolve entry. -/
def entryAddress (text : Bytes) : Option Sockaddr :=
  readAddress (stripBrackets text)

/-- The address that a request for an endpoint connects to.  The client uses the pinned address when
the entry is for the host and the port of the URL, and otherwise the first address of a new answer
of the resolver. -/
def connects (curl : Curl) (endpoint : Endpoint) (again : Answer) : Option Sockaddr := do
  let parsed ← curl.parse endpoint.url
  let (host, rest) ← entryHost endpoint.resolve
  let (port, address) ← splitFirst 58 rest
  if strcaseeq host parsed.host && port == parsed.port then entryAddress address
  else again.addresses.head?

/-- The preparation has seen the address and classified it as public. -/
def Vetted (answer : Answer) (address : Sockaddr) : Prop :=
  address ∈ answer.addresses ∧ sockaddrUnsafe address = false

/-! ## The text of an entry -/

variable {text : Bytes}

theorem readAddress_of_pton4 {address : Bytes} (h : pton4 text = some address) :
    readAddress text = some (.inet ⟨address, length_pton4 h⟩) := by
  rw [readAddress]
  split
  · next a ha =>
    rw [h] at ha
    cases ha
    rfl
  · next hnone =>
    rw [h] at hnone
    cases hnone

theorem readAddress_of_pton6 {address : Bytes} (h : pton6 text = some address) :
    readAddress text = some (.inet6 ⟨address, length_pton6 h⟩) := by
  have hnot4 := pton4_eq_none_of_pton6 h
  rw [readAddress]
  split
  · next a ha =>
    rw [hnot4] at ha
    cases ha
  · split
    · next a ha =>
      rw [h] at ha
      cases ha
      rfl
    · next hnone =>
      rw [h] at hnone
      cases hnone

variable {s : Bytes}

theorem stripBrackets_of_notMem (h : 91 ∉ s) : stripBrackets s = s :=
  stripBrackets_of_head fun hhead ↦ h (mem_of_head? hhead)

variable {address : Sockaddr}

theorem readAddress_numericHost
    (h : numericHost address = some text) : readAddress text = some address := by
  cases address with
  | inet address =>
    cases h
    exact readAddress_of_pton4 (pton4_ntop4 address.2)
  | inet6 address =>
    cases h
    exact readAddress_of_pton6 (pton6_ntop6 address.2)
  | other => cases h

theorem stripBrackets_bracketed (h : 91 ∉ s) : stripBrackets (bracketed s) = s := by
  rw [bracketed]
  split
  · exact stripBrackets_cons_append s
  · exact stripBrackets_of_notMem h

theorem bracket_notMem_of_readAddress (h : readAddress text = some address) : 91 ∉ text := by
  intro hmem
  rw [readAddress] at h
  split at h
  · next a ha =>
    rcases (dotted_of_pton4 ha).chars 91 hmem with hchar | hchar
    · exact absurd hchar (by decide)
    · cases hchar
  · split at h
    · next a ha =>
      rcases (coloned_of_pton6 ha).chars 91 hmem with hchar | hchar | hchar
      · exact absurd hchar (by decide)
      · cases hchar
      · cases hchar
    · cases h

theorem entryAddress_numericHost
    (h : numericHost address = some text) : entryAddress (bracketed text) = some address := by
  have hread := readAddress_numericHost h
  rw [entryAddress, stripBrackets_bracketed (bracket_notMem_of_readAddress hread), hread]

theorem numericHost_ne_nil : numericHost address ≠ some [] := by
  intro h
  have hnil : readAddress [] = none := by decide
  have hread := readAddress_numericHost h
  rw [hnil] at hread
  cases hread

variable {host : Bytes}

/-- The host and the rest of an entry. -/
theorem entryHost_bracketed {rest : Bytes} (hopen : 91 ∉ host) (hclose : 93 ∉ host) :
    entryHost (bracketed host ++ 58 :: rest) = some (bracketed host, rest) := by
  rw [bracketed]
  split
  · next hcolon =>
    have hsplit : splitFirst 93 (host ++ 93 :: 58 :: rest) = some (host, 58 :: rest) :=
      splitFirst_eq_some_iff.2 ⟨rfl, hclose⟩
    simp only [cons_append, append_assoc, nil_append, entryHost, hsplit]
  · next hcolon =>
    have hsplit : splitFirst 58 (host ++ 58 :: rest) = some (host, rest) :=
      splitFirst_eq_some_iff.2 ⟨rfl, hcolon⟩
    cases host with
    | nil => exact hsplit
    | cons b host =>
      have hb : b ≠ 91 := fun heq ↦ hopen (heq ▸ mem_cons_self)
      rw [cons_append, entryHost]
      · exact hsplit
      · intro tail heq
        exact hb (List.cons.inj heq).1

theorem splitFirst_port {port rest : Bytes} (hport : ∀ c ∈ port, isdigit c = true) :
    splitFirst 58 (port ++ 58 :: rest) = some (port, rest) := by
  refine splitFirst_eq_some_iff.2 ⟨rfl, fun hmem ↦ ?_⟩
  exact absurd (hport 58 hmem) (by decide)

/-! ## The host of an entry -/

theorem lookupHost_of_notMem (h : 91 ∉ host) :
    lookupHost host = host.rdropWhile (· == 46) := by
  rw [lookupHost, stripBrackets_of_notMem h]

theorem lookupHost_subset (h : HostForm host) :
    91 ∉ lookupHost host ∧ 93 ∉ lookupHost host := by
  rcases h with ⟨-, hopen, hclose⟩ | ⟨address, rfl, -, hopen, hclose, -⟩
  on_goal 1 => rw [lookupHost_of_notMem hopen]
  on_goal 2 => rw [lookupHost, stripBrackets_cons_append]
  all_goals exact ⟨fun hmem ↦ hopen ((List.rdropWhile_prefix _ _).subset hmem),
    fun hmem ↦ hclose ((List.rdropWhile_prefix _ _).subset hmem)⟩

theorem length_eq_of_strcaseeq {t : Bytes} (h : strcaseeq s t = true) : s.length = t.length := by
  have heq : lower s = lower t := by simpa [strcaseeq] using h
  simpa [lower] using congrArg List.length heq

/-- The entry is for the host of the URL exactly if no dot was taken from it. -/
theorem strcaseeq_lookupHost_iff (h : HostForm host) :
    strcaseeq (bracketed (lookupHost host)) host = true ↔ host.getLast? ≠ some 46 := by
  rcases h with ⟨hcolon, hopen, -⟩ | ⟨address, rfl, hcolon, -, -, hlast⟩
  · have hsub := rdropWhile_prefix (· == 46) host
    rw [lookupHost_of_notMem hopen, bracketed, if_neg fun hmem ↦ hcolon (hsub.subset hmem),
      ← rdropWhile_eq_self_iff_getLast?]
    constructor
    · intro heq
      exact hsub.eq_of_length (length_eq_of_strcaseeq heq)
    · intro heq
      rw [heq]
      simp [strcaseeq]
  · rw [lookupHost, stripBrackets_cons_append, rdropWhile_eq_self_iff_getLast?.2 hlast, bracketed,
      if_pos hcolon, List.getLast?_concat]
    simp [strcaseeq]

/-! ## Preparation -/

/-- All candidates are public, and a text that was not set before is that of the first. -/
theorem checkAddresses_eq_ok {label : Bytes} {candidates : List Sockaddr} {numeric : Bytes}
    (h : checkAddresses label host candidates numeric = .ok text) :
    (∀ a ∈ candidates, sockaddrUnsafe a = false) ∧
      (numeric ≠ [] → text = numeric) ∧
      (numeric = [] → ∀ a ∈ candidates.head?, numericHost a = some text) := by
  induction candidates generalizing numeric with
  | nil =>
    cases h
    simp
  | cons candidate candidates ih =>
    rw [checkAddresses] at h
    split at h
    · cases h
    next hsafe =>
    split at h
    · next hnil =>
      split at h
      · cases h
      next first hfirst =>
      obtain ⟨hall, htext, -⟩ := ih h
      have hne : first ≠ [] := fun hnil ↦ numericHost_ne_nil (hnil ▸ hfirst)
      refine ⟨?_, fun hnumeric ↦ absurd hnil hnumeric, fun _ a ha ↦ ?_⟩
      · exact forall_mem_cons.2 ⟨by simpa using hsafe, hall⟩
      · cases ha
        rw [hfirst, htext hne]
    · next hne =>
      obtain ⟨hall, htext, -⟩ := ih h
      exact ⟨forall_mem_cons.2 ⟨by simpa using hsafe, hall⟩, htext,
        fun hnil ↦ absurd hnil hne⟩

theorem parse_of_acceptUrl {curl : Curl} {url label : Bytes} {parsed : Url}
    (h : acceptUrl curl url label = .ok parsed) : curl.parse url = some parsed := by
  rw [acceptUrl] at h
  split at h
  · cases h
  split at h
  · cases h
  next parsed' hparsed =>
  split at h
  · cases h
  split at h
  · cases h
  cases h
  exact hparsed

/-- What a successful preparation returns. -/
theorem prepare_eq_ok {curl : Curl} {url purpose : Bytes} {answer : Answer} {endpoint : Endpoint}
    (h : prepare curl url purpose answer = .ok endpoint) :
    ∃ parsed first numeric, curl.parse url = some parsed ∧ first ∈ answer.addresses ∧
      (∀ a ∈ answer.addresses, sockaddrUnsafe a = false) ∧ numericHost first = some numeric ∧
      endpoint = ⟨parsed.url, parsed.scheme, lookupHost parsed.host, parsed.port,
        resolveEntry (lookupHost parsed.host) parsed.port numeric⟩ := by
  simp only [prepare, bind_eq_ok_iff] at h
  obtain ⟨parsed, hparsed, h⟩ := h
  split at h
  · cases h
  split at h
  · cases h
  next haddresses =>
  rw [bind_eq_ok_iff] at h
  obtain ⟨numeric, hnumeric, h⟩ := h
  cases h
  obtain ⟨hsafe, -, hfirst⟩ := checkAddresses_eq_ok hnumeric
  obtain ⟨first, rest, hcons⟩ := exists_cons_of_ne_nil haddresses
  rw [hcons] at hfirst
  exact ⟨parsed, first, numeric, parse_of_acceptUrl hparsed, hcons ▸ mem_cons_self, hsafe,
    hfirst rfl first rfl, rfl⟩

section

variable {curl : Curl} {url purpose : Bytes} {answer : Answer} {endpoint : Endpoint}

/-- The client uses the pin of a prepared endpoint unless the host of the URL ends with a dot. -/
theorem connects_eq (hcurl : curl.Documented) (h : prepare curl url purpose answer = .ok endpoint) :
    ∃ parsed pinned, curl.parse url = some parsed ∧ Vetted answer pinned ∧
      ∀ again, connects curl endpoint again =
        if parsed.host.getLast? = some 46 then again.addresses.head? else some pinned := by
  obtain ⟨parsed, first, numeric, hparsed, hmem, hsafe, hnumeric, rfl⟩ := prepare_eq_ok h
  obtain ⟨sent, hsent, hhost, hport⟩ := hcurl.reparse hparsed
  have hform := hcurl.host hparsed
  obtain ⟨hopen, hclose⟩ := lookupHost_subset hform
  refine ⟨parsed, first, hparsed, ⟨hmem, hsafe first hmem⟩, fun again ↦ ?_⟩
  simp only [connects, hsent, resolveEntry, append_assoc, cons_append, Option.bind_eq_bind,
    Option.bind_some, entryHost_bracketed hopen hclose, splitFirst_port (hcurl.port hparsed), hhost,
    hport, beq_self_eq_true, Bool.and_true, entryAddress_numericHost hnumeric]
  by_cases hdot : parsed.host.getLast? = some 46
  · rw [if_pos hdot, if_neg fun heq ↦ (strcaseeq_lookupHost_iff hform).1 heq hdot]
  · rw [if_neg hdot, if_pos ((strcaseeq_lookupHost_iff hform).2 hdot)]

/-- **A request reaches vetted addresses only.**  Whatever the resolver answers when it is asked
again, the client connects to an address that the preparation has classified as public, exactly if
the host of the URL does not end with a dot. -/
theorem connects_vetted_iff (hcurl : curl.Documented)
    (h : prepare curl url purpose answer = .ok endpoint) :
    (∀ again a, connects curl endpoint again = some a → Vetted answer a) ↔
      ∀ parsed, curl.parse url = some parsed → parsed.host.getLast? ≠ some 46 := by
  obtain ⟨parsed, pinned, hparsed, hpinned, hconnects⟩ := connects_eq hcurl h
  constructor
  · intro hall parsed' hparsed' hdot
    cases hparsed.symm.trans hparsed'
    -- the resolver turns to the loopback address
    have hloopback := hall ⟨[.inet ⟨[127, 0, 0, 1], rfl⟩], []⟩ (.inet ⟨[127, 0, 0, 1], rfl⟩)
      (by rw [hconnects, if_pos hdot]; rfl)
    exact absurd hloopback.2 (by decide)
  · intro hdot again a ha
    rw [hconnects, if_neg (hdot parsed hparsed)] at ha
    cases ha
    exact hpinned

end

/-- A client for plain URLs `http://HOST/…`, enough for the cases below. -/
def plainCurl : Curl where
  parse s :=
    let host := (s.drop 7).takeWhile (· != 47)
    if (bytes "http://").isPrefixOf s ∧ 58 ∉ host ∧ 91 ∉ host ∧ 93 ∉ host then
      some ⟨bytes "http", host, bytes "80", s, none, none⟩
    else none

theorem plainCurl_eq_some {u : Url} (h : plainCurl.parse s = some u) :
    58 ∉ u.host ∧ 91 ∉ u.host ∧ 93 ∉ u.host ∧ u.port = bytes "80" ∧ u.url = s := by
  simp only [plainCurl, Option.ite_none_right_eq_some] at h
  obtain ⟨⟨-, hcolon, hopen, hclose⟩, h⟩ := h
  cases h
  exact ⟨hcolon, hopen, hclose, rfl, rfl⟩

theorem plainCurl_documented : plainCurl.Documented where
  host h := by
    obtain ⟨hcolon, hopen, hclose, -⟩ := plainCurl_eq_some h
    exact .inl ⟨hcolon, hopen, hclose⟩
  port h := by
    obtain ⟨-, -, -, hport, -⟩ := plainCurl_eq_some h
    rw [hport]
    decide +kernel
  reparse h := by
    obtain ⟨-, -, -, -, hurl⟩ := plainCurl_eq_some h
    exact ⟨_, hurl.symm ▸ h, rfl, rfl⟩

/-- The endpoint of `http://example.com/`, for a resolver that answers 93.184.216.34. -/
def exampleEndpoint : Endpoint where
  url := bytes "http://example.com/"
  scheme := bytes "http"
  host := bytes "example.com"
  port := bytes "80"
  resolve := bytes "example.com:80:93.184.216.34"

/-- An answer with one IPv4 address. -/
def answer4 (a b c d : UInt8) : Answer :=
  ⟨[.inet ⟨[a, b, c, d], rfl⟩], []⟩

theorem exampleEndpoint_vetted :
    prepare plainCurl (bytes "http://example.com/") [] (answer4 93 184 216 34) =
        .ok exampleEndpoint ∧
      ∀ again a, connects plainCurl exampleEndpoint again = some a →
        Vetted (answer4 93 184 216 34) a :=
  have hprepare : prepare plainCurl (bytes "http://example.com/") [] (answer4 93 184 216 34) =
      .ok exampleEndpoint := by decide
  ⟨hprepare, (connects_vetted_iff plainCurl_documented hprepare).2 fun parsed hparsed ↦ by
    have heq : plainCurl.parse (bytes "http://example.com/") = some ⟨bytes "http",
        bytes "example.com", bytes "80", bytes "http://example.com/", none, none⟩ := by decide
    cases heq.symm.trans hparsed
    decide⟩

/-- `http://example.com./` is checked at 93.184.216.34 and fetched from 127.0.0.1. -/
theorem dotted_host_rebound :
    plainCurl.Documented ∧
      ∃ endpoint, prepare plainCurl (bytes "http://example.com./") [] (answer4 93 184 216 34) =
          .ok endpoint ∧
        connects plainCurl endpoint (answer4 127 0 0 1) = some (.inet ⟨[127, 0, 0, 1], rfl⟩) ∧
        ¬ Vetted (answer4 93 184 216 34) (.inet ⟨[127, 0, 0, 1], rfl⟩) := by
  refine ⟨plainCurl_documented, { exampleEndpoint with url := bytes "http://example.com./" },
    by decide, by decide, ?_⟩
  rintro ⟨-, hsafe⟩
  exact absurd hsafe (by decide)

end ClambHook.Http
