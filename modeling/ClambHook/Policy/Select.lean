import Mathlib.Data.Int.ConditionallyCompleteOrder
import ClambHook.Policy.Group
import ClambHook.Lib.ArgMax

/-!
# What a policy group selects

The declarative side of a selection: the eligible members of a request, the healthy ones among them
(`candidates`), and which of them each type of group picks (`Chosen`).  The loops of
`ch_policy_choose_locked` are connected to it one by one; `managerSelect_spec` puts them together.
-/

namespace ClambHook.Policy

open CString List

/-! ## The specification -/

/-- The members that a request can use. -/
def eligibleChains (g : Group) (network : Bytes) : List Chain :=
  g.chains.filter fun c ↦ c.eligible (isUdp network)

/-- The healthy ones among the members that a request can use. -/
def candidates (g : Group) (network : Bytes) : List Chain :=
  g.chains.filter fun c ↦ c.eligible (isUdp network) && c.healthy

/-- The latency of the last probe. -/
def Chain.latency (c : Chain) : Int :=
  (c.result.map ProbeResult.latencyNs).getD 0

/-- A candidate that no candidate is faster than. -/
def Fastest (chains : List Chain) (c : Chain) : Prop :=
  c ∈ chains ∧ ∀ d ∈ chains, c.latency ≤ d.latency

/-- `d` is faster than `c` by at least 50 ms and by at least a fifth of the latency of `c`. -/
def Beats (d c : Chain) : Prop :=
  max 50000000 (c.latency / 5) ≤ c.latency - d.latency

/-- The chain that a health-based group picks among its candidates. -/
def Picked (g : Group) (network target source : Bytes) (c : Chain) : Prop :=
  match g.type with
  | .select => True
  | .fallback => (candidates g network).head? = some c
  | .urlTest => Fastest (candidates g network) c
  | .loadBalance =>
    (candidates g network)[(fnv1a source network target).toNat % (candidates g network).length]? =
      some c
  | .smart =>
    (∀ d ∈ candidates g network, d.name = g.selectedChain →
      (∀ e ∈ candidates g network, ¬ Beats e d) → c = d) ∧
    ((∀ d ∈ candidates g network, d.name = g.selectedChain →
      ∃ e ∈ candidates g network, Beats e d) → Fastest (candidates g network) c)

/-- The chain that a group selects for a request: the remembered one of a `select` group; otherwise
one of the candidates, or the first eligible member while there is no candidate. -/
def Chosen (g : Group) (network target source : Bytes) (c : Chain) : Prop :=
  c ∈ g.chains ∧ c.eligible (isUdp network) = true ∧
    if g.type = .select then c.name = g.selectedChain
    else if candidates g network = [] then (eligibleChains g network).head? = some c
    else c ∈ candidates g network ∧ Picked g network target source c

/-- No member can be selected for a request: the remembered one cannot in a `select` group, none can
in the others. -/
def NoneEligible (g : Group) (network : Bytes) : Prop :=
  ∀ c ∈ g.chains, (g.type = .select → c.name = g.selectedChain) →
    c.eligible (isUdp network) = false

/-! ## The loops -/

theorem bind_findIdx? (p : Chain → Bool) (chains : List Chain) :
    (chains.findIdx? p).bind (chains[·]?) = (chains.filter p).head? := by
  rw [← find?_eq_bind_findIdx?_getElem?, head?_filter]

theorem bind_firstEligible (g : Group) (network : Bytes) :
    (firstEligible g.chains (isUdp network)).bind (g.chains[·]?) =
      (eligibleChains g network).head? :=
  bind_findIdx? _ g.chains

variable {c : Chain}

/-- The names of the members are distinct, so the remembered name stands for one of them. -/
theorem bind_chainIndex (g : Group) :
    (chainIndex g.chains g.selectedChain).bind (g.chains[·]?) = some c ↔
      c ∈ g.chains ∧ c.name = g.selectedChain := by
  rw [chainIndex, ← find?_eq_bind_findIdx?_getElem?]
  constructor
  · intro h
    exact ⟨mem_of_find?_eq_some h, by simpa using find?_some h⟩
  rintro ⟨hc, hname⟩
  obtain ⟨d, hd⟩ : ∃ d, g.chains.find? (fun c ↦ c.name = g.selectedChain) = some d :=
    Option.isSome_iff_exists.1 (find?_isSome.2 ⟨c, hc, by simpa using hname⟩)
  have hdname : d.name = g.selectedChain := by simpa using find?_some hd
  rw [hd, inj_on_of_nodup_map g.names_nodup (mem_of_find?_eq_some hd) hc
    (hdname.trans hname.symm)]

/-- The loop looks at `chains` with the chains of `front` behind it. -/
theorem bind_nthHealthy (udpOnly : Bool) (front chains : List Chain) (wanted : Nat) :
    (nthHealthy udpOnly chains front.length wanted).bind ((front ++ chains)[·]?) =
      (chains.filter fun c ↦ c.eligible udpOnly && c.healthy)[wanted]? := by
  induction chains generalizing front wanted with
  | nil => rfl
  | cons c chains ih =>
    have hnext := ih (front ++ [c])
    rw [length_append, append_assoc] at hnext
    rw [nthHealthy, filter_cons]
    split
    · cases wanted with
      | zero => simp
      | succ wanted => exact hnext wanted
    · exact hnext wanted

/-- The positions and latencies of the candidates, in the order of the loop. -/
def latencies (udpOnly : Bool) (chains : List (Chain × Nat)) : List (Nat × Int) :=
  (chains.filter fun c ↦ c.1.eligible udpOnly && c.1.healthy).map fun c ↦ (c.2, c.1.latency)

theorem lowestLatency_eq_argmin (chains : List Chain) (udpOnly : Bool) :
    lowestLatency chains udpOnly =
      ((latencies udpOnly chains.zipIdx).argmin Prod.snd).map Prod.fst := by
  rw [lowestLatency, List.argmin]
  congr 1
  generalize (none : Option (Nat × Int)) = best
  induction chains.zipIdx generalizing best with
  | nil => rfl
  | cons c chains ih =>
    rw [foldl_cons, ih, latencies, latencies, filter_cons]
    cases hr : c.1.result with
    | none => simp [Chain.healthy, hr]
    | some r =>
      have hhealthy : c.1.healthy = r.healthy := by
        rw [Chain.healthy, hr]
        rfl
      dsimp only
      rw [hhealthy, ← Bool.not_and]
      cases c.1.eligible udpOnly && r.healthy with
      | false => rfl
      | true =>
        rw [if_pos rfl, map_cons, foldl_cons]
        congr 1
        cases best <;> simp [List.argAux, Chain.latency, hr]

variable {g : Group} {network : Bytes}

theorem mem_latencies {i : Nat} {latency : Int} :
    (i, latency) ∈ latencies (isUdp network) g.chains.zipIdx ↔
      ∃ c ∈ candidates g network, g.chains[i]? = some c ∧ c.latency = latency := by
  simp only [latencies, candidates, mem_map, mem_filter, Prod.exists, mem_zipIdx_iff_getElem?,
    Prod.mk.injEq]
  constructor
  · rintro ⟨c, j, ⟨hc, hcand⟩, rfl, rfl⟩
    exact ⟨c, ⟨mem_of_getElem? hc, hcand⟩, hc, rfl⟩
  · rintro ⟨c, ⟨-, hcand⟩, hc, rfl⟩
    exact ⟨c, i, ⟨hc, hcand⟩, rfl, rfl⟩

theorem mem_candidates :
    c ∈ candidates g network ↔
      c ∈ g.chains ∧ c.eligible (isUdp network) = true ∧ c.healthy = true := by
  rw [candidates, mem_filter, Bool.and_eq_true]

theorem lowestLatency_eq_none :
    lowestLatency g.chains (isUdp network) = none ↔ candidates g network = [] := by
  rw [lowestLatency_eq_argmin, Option.map_eq_none_iff, argmin_eq_none,
    eq_nil_iff_forall_not_mem, eq_nil_iff_forall_not_mem]
  constructor
  · intro h c hc
    obtain ⟨i, hi⟩ := getElem?_of_mem (mem_of_mem_filter hc)
    exact h (i, c.latency) (mem_latencies.2 ⟨c, hc, hi, rfl⟩)
  · rintro h ⟨i, latency⟩ hi
    obtain ⟨c, hc, -⟩ := mem_latencies.1 hi
    exact h c hc

theorem exists_lowestLatency (h : candidates g network ≠ []) :
    ∃ i c, lowestLatency g.chains (isUdp network) = some i ∧ g.chains[i]? = some c ∧
      Fastest (candidates g network) c := by
  obtain ⟨i, hi⟩ := Option.ne_none_iff_exists'.1 (mt lowestLatency_eq_none.1 h)
  refine ⟨i, ?_⟩
  rw [hi]
  rw [lowestLatency_eq_argmin, Option.map_eq_some_iff] at hi
  obtain ⟨⟨j, latency⟩, hmin, rfl⟩ := hi
  obtain ⟨c, hcand, hc, rfl⟩ := mem_latencies.1 (argmin_mem hmin)
  refine ⟨c, rfl, hc, hcand, fun d hd ↦ ?_⟩
  obtain ⟨k, hk⟩ := getElem?_of_mem (mem_of_mem_filter hd)
  exact le_of_mem_argmin (f := Prod.snd) (m := (j, c.latency))
    (mem_latencies.2 ⟨d, hd, hk, rfl⟩) hmin

/-! ## Choosing -/

/-- The chain that `chooseLocked` stands for. -/
def chosenChain (g : Group) (network target source : Bytes) : Option Chain :=
  (chooseLocked g network target source).1.bind (g.chains[·]?)

variable {target source : Bytes}

theorem chosenChain_select (hg : g.type = .select) :
    chosenChain g network target source = some c ↔ c ∈ g.chains ∧ c.name = g.selectedChain := by
  rw [chosenChain, chooseLocked, hg]
  exact bind_chainIndex g

theorem chooseByLatency_none (h : candidates g network = []) :
    (chooseByLatency g (isUdp network)).1.bind (g.chains[·]?) =
      (eligibleChains g network).head? := by
  rw [chooseByLatency, lowestLatency_eq_none.2 h]
  exact bind_firstEligible g network

theorem countP_eq_length_candidates (g : Group) (network : Bytes) :
    (g.chains.countP fun c ↦ c.eligible (isUdp network) && c.healthy) =
      (candidates g network).length := by
  rw [candidates, countP_eq_length_filter]

theorem findIdx?_eq_none_iff :
    (g.chains.findIdx? fun c ↦ c.eligible (isUdp network) && c.healthy) = none ↔
      candidates g network = [] := by
  simp only [candidates, List.findIdx?_eq_none_iff, filter_eq_nil_iff, Bool.not_eq_true]

/-- Without a healthy chain every health-based type takes the first eligible one. -/
theorem chosenChain_of_candidates_eq_nil (hg : g.type ≠ .select) (h : candidates g network = []) :
    chosenChain g network target source = (eligibleChains g network).head? := by
  rw [chosenChain, chooseLocked]
  cases htype : g.type with
  | select => exact absurd htype hg
  | fallback =>
    dsimp only
    rw [findIdx?_eq_none_iff.2 h]
    exact bind_firstEligible g network
  | loadBalance =>
    dsimp only
    rw [if_pos]
    · exact bind_firstEligible g network
    · rw [countP_eq_length_candidates, h, length_nil]
  | urlTest | smart => exact chooseByLatency_none h

theorem chosenChain_fallback (hg : g.type = .fallback) (h : candidates g network ≠ []) :
    chosenChain g network target source = (candidates g network).head? := by
  rw [chosenChain, chooseLocked, hg, candidates, ← bind_findIdx?]
  dsimp only
  cases hindex : g.chains.findIdx? fun c ↦ c.eligible (isUdp network) && c.healthy with
  | none => exact absurd (findIdx?_eq_none_iff.1 hindex) h
  | some index => rfl

/-- There are fewer than 2³² chains, so nothing is lost when their number is cut to 32 bits. -/
theorem chosenChain_loadBalance (hg : g.type = .loadBalance) (h : candidates g network ≠ []) :
    chosenChain g network target source =
      (candidates g network)[(fnv1a source network target).toNat %
        (candidates g network).length]? := by
  have hpos : 0 < (candidates g network).length := length_pos_iff.2 h
  have hlt : (candidates g network).length < 2 ^ 32 := by
    have hle : (candidates g network).length ≤ g.chains.length := length_filter_le _ _
    have := g.length_lt
    omega
  have hwanted : (fnv1a source network target % (candidates g network).length.toUInt32).toNat =
      (fnv1a source network target).toNat % (candidates g network).length := by
    rw [UInt32.toNat_mod, Nat.toUInt32, UInt32.toNat_ofNat_of_lt' hlt]
  rw [chosenChain, chooseLocked, hg]
  dsimp only
  rw [countP_eq_length_candidates, if_neg hpos.ne', hwanted]
  have hnth := bind_nthHealthy (isUdp network) [] g.chains
    ((fnv1a source network target).toNat % (candidates g network).length)
  rw [← candidates, nil_append, length_nil] at hnth
  rw [← hnth]
  cases hindex : nthHealthy (isUdp network) g.chains 0
      ((fnv1a source network target).toNat % (candidates g network).length) with
  | some index => rfl
  | none =>
    rw [hindex, Option.bind_none, eq_comm, getElem?_eq_none_iff] at hnth
    exact absurd (Nat.mod_lt _ hpos) (Nat.not_lt.2 hnth)

/-- The margin of the source, which divides towards zero. -/
theorem beats_iff {r r' : ProbeResult} {d : Chain} (hc : c.result = some r)
    (hd : d.result = some r') :
    Beats d c ↔ r.latencyNs - r'.latencyNs ≥
      if r.latencyNs.tdiv 5 < 50000000 then 50000000 else r.latencyNs.tdiv 5 := by
  have hfifth : max 50000000 (r.latencyNs / 5) =
      if r.latencyNs.tdiv 5 < 50000000 then 50000000 else r.latencyNs.tdiv 5 := by
    rcases le_total 0 r.latencyNs with hpos | hneg
    · rw [Int.tdiv_eq_ediv_of_nonneg hpos]
      split <;> omega
    have htdiv : 0 ≤ (-r.latencyNs).tdiv 5 := Int.tdiv_nonneg (by omega) (by decide)
    rw [Int.neg_tdiv] at htdiv
    rw [if_pos (by omega)]
    omega
  rw [Beats, Chain.latency, Chain.latency, hc, hd, ← hfifth]
  rfl

/-- A member is determined by its name. -/
theorem eq_of_name_eq {d : Chain} (hc : c ∈ g.chains) (hd : d ∈ g.chains) (h : c.name = d.name) :
    c = d :=
  inj_on_of_nodup_map g.names_nodup hc hd h

/-- The remembered chain of a group with its position. -/
theorem exists_current (g : Group) : ∃ i c, chainIndex g.chains g.selectedChain = some i ∧
    g.chains[i]? = some c ∧ c ∈ g.chains ∧ c.name = g.selectedChain := by
  obtain ⟨c, hc, hname⟩ := mem_map.1 g.selected_mem
  obtain ⟨i, hi, hic⟩ := Option.bind_eq_some_iff.1 ((bind_chainIndex g).2 ⟨hc, hname⟩)
  exact ⟨i, c, hi, hic, hc, hname⟩

/-- A remembered chain that is not a candidate leaves the fastest candidate. -/
theorem picked_fastest (hg : g.type = .smart) {b : Chain} (hb : Fastest (candidates g network) b)
    (hc : c ∈ g.chains) (hname : c.name = g.selectedChain)
    (hbeats : c ∈ candidates g network → ∃ e ∈ candidates g network, Beats e c) :
    Picked g network target source b := by
  rw [Picked, hg]
  refine ⟨fun d hd hdname hnone ↦ ?_, fun _ ↦ hb⟩
  have hdc : d = c := eq_of_name_eq (mem_candidates.1 hd).1 hc (hdname.trans hname.symm)
  obtain ⟨e, he, hbeat⟩ := hbeats (hdc ▸ hd)
  exact absurd (hdc ▸ hbeat) (hnone e he)

/-- A remembered candidate that nothing beats, or that is the fastest, stays. -/
theorem picked_current (hg : g.type = .smart) (hc : c ∈ candidates g network)
    (hname : c.name = g.selectedChain)
    (hfast : (∃ e ∈ candidates g network, Beats e c) → Fastest (candidates g network) c) :
    Picked g network target source c := by
  rw [Picked, hg]
  refine ⟨fun d hd hdname _ ↦ ?_, fun hbeaten ↦ hfast (hbeaten c hc hname)⟩
  exact eq_of_name_eq (mem_candidates.1 hc).1 (mem_candidates.1 hd).1 (hname.trans hdname.symm)

theorem chosenChain_smart (hg : g.type = .smart) (h : candidates g network ≠ []) :
    ∃ c, chosenChain g network target source = some c ∧ c ∈ candidates g network ∧
      Picked g network target source c := by
  obtain ⟨best, b, hbest, hb, hfast⟩ := exists_lowestLatency h
  obtain ⟨-, -, hbhealthy⟩ := mem_candidates.1 hfast.1
  obtain ⟨r', hr', -⟩ := (Option.any_eq_true _ _).1 hbhealthy
  obtain ⟨current, c, hcurrent, hc, hmem, hname⟩ := exists_current g
  have hchosen : chosenChain g network target source =
      (chooseByLatency g (isUdp network)).1.bind (g.chains[·]?) := by
    rw [chosenChain, chooseLocked, hg]
  rw [hchosen, chooseByLatency, hbest, hg, hcurrent]
  dsimp only
  rw [hc, hb, if_neg (by decide)]
  dsimp only
  rw [hr']
  cases hr : c.result with
  | none =>
    refine ⟨b, hb, hfast.1, picked_fastest hg hfast hmem hname fun hcand ↦ ?_⟩
    simp [mem_candidates, Chain.healthy, hr] at hcand
  | some r =>
    dsimp only
    split
    · rename_i hskip
      refine ⟨b, hb, hfast.1, picked_fastest hg hfast hmem hname fun hcand ↦ ?_⟩
      obtain ⟨-, helig, hhealthy⟩ := mem_candidates.1 hcand
      rw [Chain.healthy, hr] at hhealthy
      simp [helig, show r.healthy = true from hhealthy] at hskip
    · rename_i hkeep
      have hcand : c ∈ candidates g network := by
        rw [mem_candidates, Chain.healthy, hr]
        simpa [hmem] using hkeep
      split
      · rename_i heq
        subst heq
        obtain rfl : c = b := Option.some.inj (hc.symm.trans hb)
        exact ⟨c, hc, hcand, picked_current hg hcand hname fun _ ↦ hfast⟩
      · by_cases hdelta : r.latencyNs - r'.latencyNs ≥
            if r.latencyNs.tdiv 5 < 50000000 then 50000000 else r.latencyNs.tdiv 5
        · rw [if_pos hdelta]
          exact ⟨b, hb, hfast.1, picked_fastest hg hfast hmem hname fun _ ↦
            ⟨b, hfast.1, (beats_iff hr hr').2 hdelta⟩⟩
        · rw [if_neg hdelta]
          refine ⟨c, hc, hcand, picked_current hg hcand hname fun hbeaten ↦ ?_⟩
          obtain ⟨e, he, hbeat⟩ := hbeaten
          refine absurd ((beats_iff hr hr').1 ?_) hdelta
          have hle := hfast.2 e he
          rw [Beats] at hbeat ⊢
          omega

/-- Among healthy candidates the choice of `chooseLocked` is the one of the specification. -/
theorem chosenChain_of_candidates_ne_nil (hg : g.type ≠ .select) (h : candidates g network ≠ []) :
    ∃ c, chosenChain g network target source = some c ∧ c ∈ candidates g network ∧
      Picked g network target source c := by
  cases htype : g.type with
  | select => exact absurd htype hg
  | fallback =>
    cases hhead : (candidates g network).head? with
    | none => exact absurd (head?_eq_none_iff.1 hhead) h
    | some c =>
      refine ⟨c, (chosenChain_fallback htype h).trans hhead, mem_of_mem_head? hhead, ?_⟩
      rw [Picked, htype]
      exact hhead
  | loadBalance =>
    have hchosen : chosenChain g network target source = _ := chosenChain_loadBalance htype h
    have hlt := Nat.mod_lt (fnv1a source network target).toNat (length_pos_iff.2 h)
    rw [getElem?_eq_getElem hlt] at hchosen
    refine ⟨_, hchosen, getElem_mem hlt, ?_⟩
    rw [Picked, htype]
    exact getElem?_eq_getElem hlt
  | urlTest =>
    obtain ⟨best, c, hbest, hc, hfast⟩ := exists_lowestLatency h
    refine ⟨c, ?_, hfast.1, ?_⟩
    · rw [chosenChain, chooseLocked, htype]
      dsimp only
      rw [chooseByLatency, hbest, htype]
      exact hc
    · rw [Picked, htype]
      exact hfast
  | smart => exact chosenChain_smart htype h

/-- What `chooseLocked` finds is the chain of the specification; only the remembered chain of a
`select` group may be one that the request cannot use. -/
theorem chosen_of_chosenChain (h : chosenChain g network target source = some c)
    (helig : g.type = .select → c.eligible (isUdp network) = true) :
    Chosen g network target source c := by
  obtain ⟨i, -, hi⟩ := Option.bind_eq_some_iff.1 h
  refine ⟨mem_of_getElem? hi, ?_⟩
  by_cases hselect : g.type = .select
  · rw [if_pos hselect]
    exact ⟨helig hselect, ((chosenChain_select hselect).1 h).2⟩
  rw [if_neg hselect]
  by_cases hnil : candidates g network = []
  · rw [chosenChain_of_candidates_eq_nil hselect hnil] at h
    rw [if_pos hnil]
    exact ⟨(mem_filter.1 (mem_of_mem_head? h)).2, h⟩
  · obtain ⟨d, hd, hpicked⟩ : ∃ d, chosenChain g network target source = some d ∧ _ :=
      chosenChain_of_candidates_ne_nil hselect hnil
    obtain rfl : d = c := Option.some.inj (hd.symm.trans h)
    rw [if_neg hnil]
    exact ⟨(mem_candidates.1 hpicked.1).2.1, hpicked⟩

/-- `chooseLocked` finds a chain that the request can use unless there is none. -/
theorem noneEligible_iff (g : Group) (network target source : Bytes) : NoneEligible g network ↔
    ∀ c, chosenChain g network target source = some c → c.eligible (isUdp network) = false := by
  by_cases hselect : g.type = .select
  · simp only [NoneEligible, hselect, chosenChain_select hselect, forall_const, and_imp]
  constructor
  · intro hnone c hc
    obtain ⟨i, -, hi⟩ := Option.bind_eq_some_iff.1 hc
    exact hnone c (mem_of_getElem? hi) fun h ↦ absurd h hselect
  · intro h c hc _
    -- Some chain is chosen as soon as one is eligible, and what is chosen is eligible.
    have hnone : chosenChain g network target source = none := by
      by_contra hsome
      obtain ⟨d, hd⟩ := Option.ne_none_iff_exists'.1 hsome
      have heligible := (chosen_of_chosenChain hd fun hg ↦ absurd hg hselect).2.1
      cases (h d hd).symm.trans heligible
    by_cases hnil : candidates g network = []
    · rw [chosenChain_of_candidates_eq_nil hselect hnil, head?_eq_none_iff] at hnone
      simpa using filter_eq_nil_iff.1 hnone c hc
    obtain ⟨d, hd, -⟩ : ∃ d, chosenChain g network target source = some d ∧ _ :=
      chosenChain_of_candidates_ne_nil hselect hnil
    rw [hnone] at hd
    cases hd

/-! ## The manager -/

theorem eligible_iff {udpOnly : Bool} :
    c.eligible udpOnly = true ↔ ¬ (udpOnly && !c.udpCapable) = true := by
  rw [Chain.eligible]
  cases udpOnly <;> simp

/-- A selection in terms of the chosen chain. -/
theorem managerSelect_eq_ok_iff {m : Manager} {groupName : Bytes} {now : Int}
    (hg : m.find? (fun g ↦ g.name = groupName) = some g) {name : Bytes} :
    (managerSelect m groupName network target source now).1 = .ok name ↔
      ∃ c, chosenChain g network target source = some c ∧ c.eligible (isUdp network) = true ∧
        c.name = name := by
  rw [find?_eq_bind_findIdx?_getElem?, Option.bind_eq_some_iff] at hg
  obtain ⟨position, hposition, hget⟩ := hg
  rw [managerSelect, hposition]
  dsimp only
  rw [hget]
  dsimp only
  rw [← chosenChain]
  cases hc : chosenChain g network target source with
  | none => simp
  | some c =>
    by_cases helig : c.eligible (isUdp network) = true
    · simp only [if_neg (eligible_iff.1 helig), Except.ok.injEq, Option.some.injEq, exists_eq_left',
        helig, true_and]
    · simp only [if_pos (not_not.1 (mt eligible_iff.2 helig)), Option.some.injEq, exists_eq_left',
        helig, false_and, reduceCtorEq]

/-- Two states of one group: the members are the same, with any results of probes. -/
def SameMembers (g g' : Group) : Prop :=
  g.type = g'.type ∧
    g.chains.map (fun c ↦ (c.name, c.udpCapable)) = g'.chains.map fun c ↦ (c.name, c.udpCapable)

theorem names_eligibleChains {g' : Group} (h : SameMembers g g') :
    (eligibleChains g network).map Chain.name = (eligibleChains g' network).map Chain.name := by
  have hkeys : ∀ g : Group, (eligibleChains g network).map Chain.name =
      ((g.chains.map fun c ↦ (c.name, c.udpCapable)).filter fun k ↦
        !isUdp network || k.2).map Prod.fst := by
    intro g
    rw [filter_map, map_map, eligibleChains]
    rfl
  rw [hkeys, hkeys, h.2]

/-- While the names of the candidates are the same, so is the name of the chosen chain. -/
theorem name_chosenChain_stable {g' : Group} (hg : g.type = .loadBalance) (h : SameMembers g g')
    (hnames : (candidates g network).map Chain.name = (candidates g' network).map Chain.name) :
    (chosenChain g network target source).map Chain.name =
      (chosenChain g' network target source).map Chain.name := by
  have hg' : g'.type = .loadBalance := h.1 ▸ hg
  have hlength : (candidates g network).length = (candidates g' network).length := by
    simpa using congrArg List.length hnames
  have hnone : candidates g network = [] ↔ candidates g' network = [] := by
    rw [← length_eq_zero_iff, hlength, length_eq_zero_iff]
  by_cases hnil : candidates g network = []
  · rw [chosenChain_of_candidates_eq_nil (by rw [hg]; decide) hnil,
      chosenChain_of_candidates_eq_nil (by rw [hg']; decide) (hnone.1 hnil), ← head?_map,
      ← head?_map, names_eligibleChains h]
  · rw [chosenChain_loadBalance hg hnil, chosenChain_loadBalance hg' (mt hnone.2 hnil),
      ← getElem?_map, ← getElem?_map, hnames, hlength]

/-- **Selection**: a request to a group fails iff the group has no member for it, where a `select`
group counts only its remembered member; otherwise it gets the chain that the specification chooses.
A load-balance group gives a repeated request the same chain while its candidates are the same. -/
theorem managerSelect_spec (m : Manager) (groupName network target source : Bytes) (now : Int)
    (g : Group) (hg : m.find? (fun g ↦ g.name = groupName) = some g) :
    ((∃ e, (managerSelect m groupName network target source now).1 = .error e) ↔
      NoneEligible g network) ∧
    (∀ name, (managerSelect m groupName network target source now).1 = .ok name →
      ∃ c, c.name = name ∧ Chosen g network target source c) ∧
    (g.type = .loadBalance → ∀ m' now' g', m'.find? (fun g ↦ g.name = groupName) = some g' →
      SameMembers g g' →
      (candidates g network).map Chain.name = (candidates g' network).map Chain.name →
      ∀ name, (managerSelect m groupName network target source now).1 = .ok name →
        (managerSelect m' groupName network target source now').1 = .ok name) := by
  refine ⟨?_, ?_, ?_⟩
  · rw [noneEligible_iff g network target source]
    constructor
    · rintro ⟨e, he⟩ c hc
      by_contra helig
      rw [(managerSelect_eq_ok_iff hg).2 ⟨c, hc, by simpa using helig, rfl⟩] at he
      cases he
    · intro hnone
      cases hresult : (managerSelect m groupName network target source now).1 with
      | error e => exact ⟨e, rfl⟩
      | ok name =>
        obtain ⟨c, hc, helig, -⟩ := (managerSelect_eq_ok_iff hg).1 hresult
        rw [hnone c hc] at helig
        cases helig
  · intro name hname
    obtain ⟨c, hc, helig, rfl⟩ := (managerSelect_eq_ok_iff hg).1 hname
    exact ⟨c, rfl, chosen_of_chosenChain hc fun _ ↦ helig⟩
  · intro hbalance m' now' g' hg' hmembers hnames name hname
    obtain ⟨c, hc, -, rfl⟩ := (managerSelect_eq_ok_iff hg).1 hname
    have hstable : (chosenChain g network target source).map Chain.name = _ :=
      name_chosenChain_stable hbalance hmembers hnames
    rw [hc, Option.map_some, eq_comm, Option.map_eq_some_iff] at hstable
    obtain ⟨d, hd, hdname⟩ := hstable
    have hselect : g'.type ≠ .select := by
      rw [← hmembers.1, hbalance]
      decide
    have helig := (chosen_of_chosenChain hd fun hg ↦ absurd hg hselect).2.1
    exact (managerSelect_eq_ok_iff hg').2 ⟨d, hd, helig, hdname⟩

/-- A group of two chains, of which only the second carries UDP, with the first one selected. -/
def manual : Group where
  name := bytes "manual"
  type := .select
  chains := [{ name := bytes "tcp-only", udpCapable := false },
    { name := bytes "fast", udpCapable := true }]
  selectedChain := bytes "tcp-only"
  selectionReason := .manual

/-- For TCP the group gives its selection. -/
theorem manual_selects :
    (managerSelect [manual] (bytes "manual") (bytes "tcp") (bytes "example.com:443")
      (bytes "127.0.0.1:1") 0).1 = .ok (bytes "tcp-only") ∧
    ∃ c, c.name = bytes "tcp-only" ∧
      Chosen manual (bytes "tcp") (bytes "example.com:443") (bytes "127.0.0.1:1") c := by
  have hok : (managerSelect [manual] (bytes "manual") (bytes "tcp") (bytes "example.com:443")
      (bytes "127.0.0.1:1") 0).1 = .ok (bytes "tcp-only") := by decide
  exact ⟨hok, (managerSelect_spec [manual] _ _ _ _ 0 manual rfl).2.1 _ hok⟩

/-- For UDP it fails, although one of its chains carries UDP. -/
theorem manual_refuses_udp :
    (∃ c ∈ manual.chains, c.eligible (isUdp (bytes "udp")) = true) ∧
    ∃ e, (managerSelect [manual] (bytes "manual") (bytes "udp") (bytes "1.1.1.1:53")
      (bytes "127.0.0.1:1") 0).1 = .error e :=
  ⟨⟨_, mem_cons_of_mem _ mem_cons_self, by decide⟩, _, rfl⟩

end ClambHook.Policy
