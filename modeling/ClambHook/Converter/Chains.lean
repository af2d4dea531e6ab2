import ClambHook.Basic
import Mathlib.Data.List.Nodup

/-!
# Chains of converted proxies

A proxy of another program's profile may name a second one, its dialer, through which it is reached,
and that one a third.  The converter writes one chain for each proxy: the servers of its dialers,
the farthest first, and its own server behind them.  A Shadowsocks server that hides behind
ShadowTLS takes two hops, a wrapper and the server itself.

The wrapper is written for the proxy that the chain is for, but not for its dialers.  A proxy whose
dialer is wrapped is converted to a chain that speaks plain Shadowsocks to a ShadowTLS server.
-/

namespace ClambHook.Converter

open CString List

def maxDepth : Nat := 64

/-- A proxy of the source, as far as its chain depends on it.  A text that the source lacks is
empty; the other settings of a server are only written down. -/
structure Proxy where
  name : Bytes
  type : Bytes
  host : Bytes
  port : Nat
  password : Bytes
  dialer : Bytes := []
  shadowPassword : Option Bytes := none
  supported : Bool := true
deriving DecidableEq, Repr

def proxyNamed (ps : List Proxy) (name : Bytes) : Option Proxy :=
  ps.find? fun p ↦ p.supported && p.name == name

/-- The first number is what is left of `maxDepth`.  The stack has one proxy for each level;
supported proxies differ in their names, so that comparing them compares their places. -/
def proxyChainValid (ps : List Proxy) : Nat → List Proxy → Proxy → Bool
  | 0, _, _ => false
  | left + 1, stack, p =>
    if p ∈ stack then false
    else if p.dialer = [] then true
    else
      match proxyNamed ps p.dialer with
      | none => false
      | some d => proxyChainValid ps left (p :: stack) d

/-- The dialers that the loop collects, the nearest first. -/
def dialers (ps : List Proxy) : Nat → Proxy → List Proxy
  | 0, _ => []
  | left + 1, cursor =>
    if cursor.dialer = [] then []
    else
      match proxyNamed ps cursor.dialer with
      | none => []
      | some d => d :: dialers ps left d

/-- The ShadowTLS server in front of a proxy. -/
def Proxy.shadow (p : Proxy) : Option Proxy :=
  p.shadowPassword.map fun password ↦
    { p with name := bytes "shadowtls", type := bytes "shadowtls", password }

structure Chain where
  name : Bytes
  servers : List Proxy
deriving DecidableEq, Repr

def emitProxyChain (ps : List Proxy) (p : Proxy) : Chain where
  name := p.name
  servers := (dialers ps maxDepth p).reverse ++ p.shadow.toList ++ [p]

/-- The proxies whose dialers do not resolve are given up one after the other. -/
def giveUp (done : List Proxy) : List Proxy → List Proxy
  | [] => done
  | p :: rest =>
    if p.supported && p.dialer != [] && !proxyChainValid (done ++ p :: rest) maxDepth [] p then
      giveUp (done ++ [{ p with supported := false }]) rest
    else giveUp (done ++ [p]) rest

/-- The chains that a document is rendered with. -/
def renderChains (ps : List Proxy) : Except Bytes (List Chain) :=
  let checked := giveUp [] ps
  let usable := checked.filter (·.supported)
  if usable = [] then .error (bytes "source contains no usable ClambHook proxy chains")
  else .ok (usable.map (emitProxyChain checked))

/-- What is read from a source.  A proxy is not supported when its name was read before. -/
structure Document where
  proxies : List Proxy
  distinct : ((proxies.filter (·.supported)).map Proxy.name).Nodup

variable {doc : Document} {ps ds stack : List Proxy} {p q d : Proxy} {left : Nat}

theorem Document.eq_of_name (hp : p ∈ doc.proxies ∧ p.supported = true)
    (hq : q ∈ doc.proxies ∧ q.supported = true) (hname : p.name = q.name) : p = q :=
  inj_on_of_nodup_map doc.distinct (mem_filter.2 hp) (mem_filter.2 hq) hname

/-! ## What a chain should be -/

/-- The proxy `d` is the dialer of `p`. -/
def Dials (ps : List Proxy) (p d : Proxy) : Prop :=
  p.dialer ≠ [] ∧ proxyNamed ps p.dialer = some d

/-- The dialer references of a proxy resolve, through these dialers.  There is no path for a proxy
with a cycle or a missing name. -/
inductive Path (ps : List Proxy) : Proxy → List Proxy → Prop where
  | direct {p : Proxy} (h : p.dialer = []) : Path ps p []
  | via {p d : Proxy} {ds : List Proxy} (h : Dials ps p d) (hd : Path ps d ds) : Path ps p (d :: ds)

/-- The chain of the dialer, the wrapper if there is one, and the server. -/
def chainOf (p : Proxy) : List Proxy → List Proxy
  | [] => p.shadow.toList ++ [p]
  | d :: ds => chainOf d ds ++ p.shadow.toList ++ [p]

theorem Path.dialers (h : Path ps p ds) (hleft : ds.length ≤ left) : dialers ps left p = ds := by
  induction h generalizing left with
  | direct hnone =>
    cases left with
    | zero => rfl
    | succ left => exact if_pos hnone
  | via hdials _ ih =>
    cases left with
    | zero => exact absurd hleft (Nat.not_succ_le_zero _)
    | succ left =>
      rw [Converter.dialers, if_neg hdials.1, hdials.2]
      exact congrArg _ (ih (Nat.le_of_succ_le_succ hleft))

theorem length_chainOf : (chainOf p ds).length =
    ds.length + p.shadow.toList.length + 1 + ds.countP (·.shadow.isSome) := by
  induction ds generalizing p with
  | nil => simp [chainOf]
  | cons d ds ih =>
    rw [chainOf, length_append, length_append, ih, countP_cons]
    cases d.shadow <;> simp <;> omega

/-- A chain without the wrappers of its dialers lacks nothing exactly when they have none. -/
theorem eq_chainOf_iff :
    ds.reverse ++ p.shadow.toList ++ [p] = chainOf p ds ↔ ∀ d ∈ ds, d.shadowPassword = none := by
  have hshadow : ∀ d : Proxy, d.shadow = none ↔ d.shadowPassword = none := fun d ↦
    Option.map_eq_none_iff
  constructor
  · intro h d hd
    have hlength := congrArg length h
    rw [length_chainOf] at hlength
    have hcount : ds.countP (·.shadow.isSome) = 0 := by
      simp at hlength
      omega
    simpa [hshadow] using countP_eq_zero.1 hcount d hd
  · intro h
    induction ds generalizing p with
    | nil => rfl
    | cons d ds ih =>
      rw [forall_mem_cons, ← hshadow] at h
      rw [chainOf, ← ih h.2, h.1]
      simp

/-! ## What is emitted -/

theorem proxyNamed_eq_some {name : Bytes} (h : proxyNamed ps name = some d) :
    d ∈ ps ∧ d.supported = true ∧ d.name = name := by
  have hsome := find?_some h
  rw [Bool.and_eq_true, beq_iff_eq] at hsome
  exact ⟨mem_of_find?_eq_some h, hsome⟩

theorem exists_proxyNamed (hmem : d ∈ ps) (hd : d.supported = true) :
    ∃ e, proxyNamed ps d.name = some e := by
  rw [← Option.isSome_iff_exists, proxyNamed, find?_isSome]
  exact ⟨d, hmem, by simp [hd]⟩

theorem proxyChainValid_succ :
    proxyChainValid ps (left + 1) stack p = true ↔ p ∉ stack ∧
      (p.dialer = [] ∨ ∃ d, Dials ps p d ∧ proxyChainValid ps left (p :: stack) d = true) := by
  rw [proxyChainValid]
  by_cases hstack : p ∈ stack
  · simp [hstack]
  by_cases hdialer : p.dialer = []
  · simp [hstack, hdialer]
  cases hnamed : proxyNamed ps p.dialer with
  | none => simp [hstack, hdialer, Dials, hnamed]
  | some d => simp [hstack, hdialer, Dials, hnamed]

/-- A valid chain stays valid with more room and fewer proxies that it must not meet. -/
theorem proxyChainValid_mono {stack' : List Proxy} {left' : Nat}
    (h : proxyChainValid ps left stack p = true) (hleft : left ≤ left') (hstack : stack' ⊆ stack) :
    proxyChainValid ps left' stack' p = true := by
  induction left generalizing left' stack stack' p with
  | zero => exact absurd h Bool.false_ne_true
  | succ left ih =>
    obtain ⟨left', rfl⟩ := Nat.exists_eq_add_one.2 (Nat.lt_of_lt_of_le (Nat.succ_pos left) hleft)
    rw [proxyChainValid_succ] at h ⊢
    refine ⟨fun hmem ↦ h.1 (hstack hmem), h.2.imp_right fun ⟨d, hd, hvalid⟩ ↦ ⟨d, hd, ?_⟩⟩
    exact ih hvalid (Nat.le_of_succ_le_succ hleft) (cons_subset_cons p hstack)

theorem exists_path (h : proxyChainValid ps left stack p = true) :
    ∃ ds, Path ps p ds ∧ ds.length < left := by
  induction left generalizing stack p with
  | zero => exact absurd h Bool.false_ne_true
  | succ left ih =>
    rcases (proxyChainValid_succ.1 h).2 with hnone | ⟨d, hd, hvalid⟩
    · exact ⟨[], .direct hnone, Nat.succ_pos left⟩
    · obtain ⟨ds, hds, hlength⟩ := ih hvalid
      exact ⟨d :: ds, .via hd hds, Nat.succ_lt_succ hlength⟩

/-- The document while the converter gives up proxies: those with a valid chain are still there. -/
structure Remains (doc : Document) (ps : List Proxy) : Prop where
  mem : ∀ d ∈ ps, d.supported = true → d ∈ doc.proxies
  kept : ∀ d ∈ doc.proxies, proxyChainValid doc.proxies maxDepth [] d = true → d ∈ ps

variable (h : Remains doc ps)

include h

theorem Remains.dials (hd : Dials ps p d) : Dials doc.proxies p d := by
  obtain ⟨hmem, hsupported, hname⟩ := proxyNamed_eq_some hd.2
  have hkept := h.mem d hmem hsupported
  obtain ⟨e, he⟩ := exists_proxyNamed hkept hsupported
  obtain ⟨hmem', hsupported', hname'⟩ := proxyNamed_eq_some he
  cases doc.eq_of_name ⟨hmem', hsupported'⟩ ⟨hkept, hsupported⟩ hname'
  exact ⟨hd.1, hname ▸ he⟩

theorem Remains.path (hp : Path ps p ds) : Path doc.proxies p ds := by
  induction hp with
  | direct hnone => exact .direct hnone
  | via hd _ ih => exact .via (h.dials hd) ih

theorem Remains.dials_of_valid (hd : Dials doc.proxies p d)
    (hvalid : proxyChainValid doc.proxies maxDepth [] d = true) : Dials ps p d := by
  obtain ⟨hmem, hsupported, hname⟩ := proxyNamed_eq_some hd.2
  obtain ⟨e, he⟩ := exists_proxyNamed (h.kept d hmem hvalid) hsupported
  rw [hname] at he
  exact ⟨hd.1, he.trans ((h.dials ⟨hd.1, he⟩).2.symm.trans hd.2)⟩

theorem Remains.valid_iff (hleft : left ≤ maxDepth) :
    proxyChainValid ps left stack p = true ↔ proxyChainValid doc.proxies left stack p = true := by
  induction left generalizing stack p with
  | zero => rfl
  | succ left ih =>
    have hle := Nat.le_of_succ_le hleft
    simp only [proxyChainValid_succ, ih hle]
    refine and_congr_right fun _ ↦ or_congr_right (exists_congr fun d ↦ and_congr_left fun hd ↦ ?_)
    exact ⟨h.dials, fun hdials ↦ h.dials_of_valid hdials
      (proxyChainValid_mono hd hle (nil_subset _))⟩

omit h

/-- What is left has the document's proxies with valid chains and no others. -/
theorem giveUp_spec {done rest : List Proxy} (h : Remains doc (done ++ rest))
    (hdone : ∀ p ∈ done, p.supported = true → proxyChainValid doc.proxies maxDepth [] p = true) :
    Remains doc (giveUp done rest) ∧ ∀ p ∈ giveUp done rest, p.supported = true →
      proxyChainValid doc.proxies maxDepth [] p = true := by
  induction rest generalizing done with
  | nil => exact ⟨by simpa [giveUp] using h, hdone⟩
  | cons p rest ih =>
    have hvalid : proxyChainValid (done ++ p :: rest) maxDepth [] p = true ↔ _ :=
      h.valid_iff (le_refl maxDepth)
    obtain ⟨hmem, hkept⟩ := h
    rw [giveUp]
    split
    · next hbad =>
      refine ih ⟨?_, ?_⟩ ?_
      · grind
      · grind
      · grind
    · next hgood =>
      have hp : p.supported = true → proxyChainValid doc.proxies maxDepth [] p = true := by
        intro hsupported
        by_cases hdialer : p.dialer = []
        · exact proxyChainValid_succ.2 ⟨not_mem_nil, .inl hdialer⟩
        · simpa [hsupported, hdialer, hvalid] using hgood
      refine ih ⟨by simpa using hmem, by simpa using hkept⟩ ?_
      exact forall_mem_append.2 ⟨hdone, forall_mem_singleton.2 hp⟩

/-- **The hops of a converted proxy**: its dialers resolve, and its chain is what it should be
exactly when none of them is wrapped. -/
theorem renderChains_keeps_hops_iff (doc : Document) {chains : List Chain}
    (h : renderChains doc.proxies = .ok chains) (hp : p ∈ doc.proxies)
    (hsupported : p.supported = true) {servers : List Proxy} (hchain : ⟨p.name, servers⟩ ∈ chains) :
    (∃ ds, Path doc.proxies p ds) ∧ ∀ ds, Path doc.proxies p ds →
      (servers = chainOf p ds ↔ ∀ d ∈ ds, d.shadowPassword = none) := by
  obtain ⟨hremains, hvalid⟩ := @giveUp_spec doc [] doc.proxies
    ⟨fun d hd _ ↦ hd, fun d hd _ ↦ hd⟩ (forall_mem_nil _)
  rw [renderChains] at h
  split at h
  · cases h
  cases h
  obtain ⟨q, hq, hemit⟩ := mem_map.1 hchain
  obtain ⟨hmem, hkept⟩ := mem_filter.1 hq
  have hname : q.name = p.name := congrArg Chain.name hemit
  cases doc.eq_of_name ⟨hremains.mem q hmem hkept, hkept⟩ ⟨hp, hsupported⟩ hname
  obtain ⟨ds, hpath, hlength⟩ :=
    exists_path ((hremains.valid_iff (le_refl _)).2 (hvalid p hmem hkept))
  have hservers : servers = ds.reverse ++ p.shadow.toList ++ [p] := by
    rw [← hpath.dialers hlength.le]
    exact (congrArg Chain.servers hemit).symm
  refine ⟨⟨ds, hremains.path hpath⟩, fun ds' hds' ↦ ?_⟩
  have hsame : ds' = ds := (hds'.dialers (le_max_left _ ds.length)).symm.trans
    ((hremains.path hpath).dialers (le_max_right ds'.length _))
  rw [hservers, hsame, eq_chainOf_iff]

/-! ### A relay -/

/-- A Shadowsocks server, with or without a ShadowTLS server in front. -/
def relay (shadowPassword : Option Bytes) : Proxy where
  name := bytes "relay"
  type := bytes "ss"
  host := bytes "192.0.2.1"
  port := 443
  password := bytes "one"
  shadowPassword

def home : Proxy where
  name := bytes "home"
  type := bytes "trojan"
  host := bytes "192.0.2.2"
  port := 443
  password := bytes "two"
  dialer := bytes "relay"

def relayed (shadowPassword : Option Bytes) : Document where
  proxies := [relay shadowPassword, home]
  distinct := (by decide : [bytes "relay", bytes "home"].Nodup)

theorem path_home (shadowPassword : Option Bytes) :
    Path (relayed shadowPassword).proxies home [relay shadowPassword] :=
  .via ⟨by decide, rfl⟩ (.direct rfl)

theorem renderChains_relayed :
    renderChains (relayed none).proxies =
        .ok [⟨bytes "relay", [relay none]⟩, ⟨bytes "home", [relay none, home]⟩] ∧
      [relay none, home] = chainOf home [relay none] := by
  have hrender : renderChains (relayed none).proxies =
      .ok [⟨bytes "relay", [relay none]⟩, ⟨bytes "home", [relay none, home]⟩] := by decide
  have hhops := renderChains_keeps_hops_iff (relayed none) hrender (p := home) (by decide) rfl
    (mem_cons_of_mem _ mem_cons_self)
  exact ⟨hrender, (hhops.2 _ (path_home none)).2 (by decide)⟩

/-- The wrapper of a dialer is lost. -/
theorem wrapped_relay_lost :
    Path (relayed (some (bytes "three"))).proxies home [relay (some (bytes "three"))] ∧
      ∃ chains, renderChains (relayed (some (bytes "three"))).proxies = .ok chains ∧
        ⟨bytes "home", [relay (some (bytes "three")), home]⟩ ∈ chains ∧
        [relay (some (bytes "three")), home] ≠ chainOf home [relay (some (bytes "three"))] :=
  ⟨path_home _, _, rfl, by decide, by decide⟩

end ClambHook.Converter
