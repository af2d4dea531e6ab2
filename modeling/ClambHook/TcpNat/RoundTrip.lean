import ClambHook.TcpNat.Packet
import ClambHook.Lib.Machine
import Mathlib.Data.List.Nodup
import Mathlib.Data.List.Perm.Basic

/-!
# The round trip of a connection

Every state that the stack can reach has live flows with different ports, sends the packets of a
client to the flow of their connection, and gives the answers of lwIP the source that the client
expects (`run_roundTrip`).

An answer gets its source exactly if its flow is live when lwIP emits it.  A flow that is marked as
dead has no answers left to translate only if the mark comes last, which is so in
`ch_ip_stack_tcp_flow_abort` (`flowAbort_restored`).  When the dialer of a new connection fails,
`ch_ip_stack_tcp_accept` sets the mark first, and the reset leaves with the address of the interface
(`acceptFailed_not_restored`).
-/

namespace ClambHook.TcpNat

open CString ByteRange InternetChecksum Machine List

/-! ## The system -/

/-- The address of the interface. -/
def Stack.address (stack : Stack) : Family → Bytes
  | .inet => stack.ipv4
  | .inet6 => stack.ipv6

def Flow.client (flow : Flow) : Endpoint := ⟨flow.source, flow.sourcePort⟩

def Flow.server (flow : Flow) : Endpoint := ⟨flow.target, flow.targetPort⟩

/-- A stack as `ch_ip_stack_create` makes it. -/
structure Created (stack : Stack) : Prop where
  ipv4 : stack.ipv4.length = 4
  ipv6 : stack.ipv6.length = 16
  flows : stack.flows = []
  nextTcpPort : stack.nextTcpPort = 20000

/-- What happens to the flows: a packet comes in, a flow is marked as dead for any of the reasons
there are, or the dead flows are freed. -/
inductive Event where
  | packet (lwip : Lwip) (packet : Bytes)
  | dead (index : Nat)
  | sweep

def step (stack : Stack) : Event → Stack
  | .packet lwip packet => (prepareTcpInput lwip packet stack).2
  | .dead index => markDead index stack
  | .sweep => sweep stack

/-- The flows that are looked up. -/
def Stack.live (stack : Stack) : List Flow :=
  stack.flows.filter fun flow ↦ !flow.dead

/-- What identifies a connection: its family, the client and the server. -/
def Flow.connection (flow : Flow) : Family × Endpoint × Endpoint :=
  (flow.family, flow.client, flow.server)

def View.connection (v : View) : Family × Endpoint × Endpoint :=
  (v.family, v.source, v.destination)

/-! ## Specification -/

/-- A flow is one that the stack forwards: its addresses have the length of their family, and its
destination is not the interface. -/
structure Forwarded (stack : Stack) (flow : Flow) : Prop where
  source : flow.source.length = flow.family.addressLength
  target : flow.target.length = flow.family.addressLength
  targetPort : flow.targetPort < 65536
  foreign : flow.target ≠ stack.address flow.family

/-- A packet that sets SYN and not ACK. -/
def opens (packet : Bytes) (tcpOffset : Nat) : Bool :=
  let flags := packet.getD (tcpOffset + 13) 0
  flags &&& 0x02 != 0 && flags &&& 0x10 == 0

/-- A packet that lwIP emits for a flow, with its reading: from the interface and the port of the
flow, to the client. -/
structure Emitted (stack : Stack) (flow : Flow) (packet : Bytes) (v : View) : Prop where
  view_eq : view packet = some v
  family : v.family = flow.family
  source : v.source = ⟨stack.address flow.family, flow.internalPort⟩
  destination : v.destination = flow.client

/-- An answer carries the destination of the connection as its source; everything else is as lwIP
has written it, and the checksums are right. -/
def Restored (flow : Flow) (packet result : Bytes) (v : View) : Prop :=
  Readdressed packet result { v with source := flow.server }

/-- What the translation is for. -/
structure RoundTrip (stack : Stack) : Prop where
  /-- Live flows have different ports. -/
  ports : (stack.live.map Flow.internalPort).Nodup
  /-- A packet of a client that is accepted goes to the one live flow of its connection, unless
  there is none and the packet opens none. -/
  inward : ∀ (lwip : Lwip) (packet result : Bytes) (after : Stack) (v : View),
    prepareTcpInput lwip packet stack = (.ok result, after) → view packet = some v →
    v.destination.address ≠ stack.address v.family →
    (result = packet ∧ after = stack ∧ opens packet v.tcpOffset = false ∧
        ∀ flow ∈ stack.live, flow.connection ≠ v.connection) ∨
      ∃ flow ∈ after.live, flow.connection = v.connection ∧
        (∀ other ∈ after.live, other.connection = v.connection → other = flow) ∧
        Readdressed packet result
          { v with destination := ⟨stack.address v.family, flow.internalPort⟩ }
  /-- An answer of lwIP is restored exactly if its flow is in the table and live. -/
  outward : ∀ (flow : Flow) (packet : Bytes) (v : View), Forwarded stack flow →
    Emitted stack flow packet v →
    (Restored flow packet (rewriteTcpOutput stack packet) v ↔
      { flow with dead := false } ∈ stack.flows)

/-! ## The flow table -/

/-- The invariant of the flow table. -/
structure Inv (stack : Stack) : Prop where
  ipv4 : stack.ipv4.length = 4
  ipv6 : stack.ipv6.length = 16
  next : 20000 ≤ stack.nextTcpPort ∧ stack.nextTcpPort ≤ 59999
  internalPort : ∀ flow ∈ stack.live, flow.internalPort ≤ 59999
  forwarded : ∀ flow ∈ stack.live, Forwarded stack flow
  ports : (stack.live.map Flow.internalPort).Nodup
  connections : (stack.live.map Flow.connection).Nodup

variable {stack : Stack} {flow : Flow}

theorem mem_live :
    flow ∈ stack.live ↔ flow ∈ stack.flows ∧ flow.dead = false := by
  rw [Stack.live, mem_filter, Bool.not_eq_true']

theorem Created.live_eq (h : Created stack) : stack.live = [] := by
  rw [Stack.live, h.flows, filter_nil]

theorem Created.inv (h : Created stack) : Inv stack where
  ipv4 := h.ipv4
  ipv6 := h.ipv6
  next := by rw [h.nextTcpPort]; decide
  internalPort := by simp [h.live_eq]
  forwarded := by simp [h.live_eq]
  ports := by simp [h.live_eq]
  connections := by simp [h.live_eq]

theorem Inv.length_address (h : Inv stack) (family : Family) :
    (stack.address family).length = family.addressLength := by
  cases family with
  | inet => exact h.ipv4
  | inet6 => exact h.ipv6

theorem Forwarded.of_address {after : Stack} (h : Forwarded stack flow)
    (haddress : after.address = stack.address) : Forwarded after flow :=
  ⟨h.source, h.target, h.targetPort, haddress ▸ h.foreign⟩

/-- A table with fewer live flows. -/
theorem Inv.of_sublist {after : Stack} (h : Inv stack) (haddress : after.address = stack.address)
    (hnext : 20000 ≤ after.nextTcpPort ∧ after.nextTcpPort ≤ 59999)
    (hlive : after.live.Sublist stack.live) : Inv after where
  ipv4 := (congrArg length (congrFun haddress .inet)).trans h.ipv4
  ipv6 := (congrArg length (congrFun haddress .inet6)).trans h.ipv6
  next := hnext
  internalPort := fun flow hflow ↦ h.internalPort flow (hlive.subset hflow)
  forwarded := fun flow hflow ↦ (h.forwarded flow (hlive.subset hflow)).of_address haddress
  ports := h.ports.sublist (hlive.map _)
  connections := h.connections.sublist (hlive.map _)

/-- A new flow on a free port, for a connection that has none. -/
theorem Inv.cons {next : Nat} (h : Inv stack)
    (hnext : 20000 ≤ next ∧ next ≤ 59999) (hport : flow.internalPort ≤ 59999)
    (hlive : flow.dead = false) (hfree : portInUse stack flow.internalPort = false)
    (hforwarded : Forwarded stack flow)
    (hnew : ∀ other ∈ stack.live, other.connection ≠ flow.connection) :
    Inv { stack with nextTcpPort := next, flows := flow :: stack.flows } := by
  have hcons : Stack.live { stack with nextTcpPort := next, flows := flow :: stack.flows } =
      flow :: stack.live := by
    rw [Stack.live, filter_cons_of_pos (by rw [hlive]; rfl), Stack.live]
  refine ⟨h.ipv4, h.ipv6, hnext, ?_, ?_, ?_, ?_⟩
  · rw [hcons]
    exact forall_mem_cons.2 ⟨hport, h.internalPort⟩
  · rw [hcons]
    exact forall_mem_cons.2 ⟨hforwarded.of_address rfl,
      fun other hother ↦ (h.forwarded other hother).of_address rfl⟩
  · rw [hcons, map_cons, nodup_cons]
    refine ⟨fun hmem ↦ ?_, h.ports⟩
    obtain ⟨other, hother, heq⟩ := mem_map.1 hmem
    obtain ⟨hother, hlive'⟩ := mem_live.1 hother
    have hused := any_eq_false.1 hfree other hother
    simp [hlive', heq] at hused
  · rw [hcons, map_cons, nodup_cons]
    refine ⟨fun hmem ↦ ?_, h.connections⟩
    obtain ⟨other, hother, heq⟩ := mem_map.1 hmem
    exact hnew other hother heq

/-- A change that takes an element out of a filter. -/
theorem filter_modify {α : Type} {p : α → Bool} {f : α → α} (hf : ∀ a, p (f a) = false)
    (l : List α) (i : Nat) : (l.modify i f).filter p = (l.eraseIdx i).filter p := by
  induction l generalizing i with
  | nil => simp
  | cons a l ih =>
    cases i with
    | zero => rw [modify_zero_cons, filter_cons_of_neg (by simp [hf]), eraseIdx_cons_zero]
    | succ i => rw [modify_succ_cons, eraseIdx_cons_succ, filter_cons, filter_cons, ih]

/-- The only occurrence of an element is taken out of a filter. -/
theorem notMem_filter_eraseIdx {α : Type} {p : α → Bool} {a : α} (ha : p a = true) {l : List α}
    {i : Nat} (hnodup : (l.filter p).Nodup) (hi : l[i]? = some a) :
    a ∉ (l.eraseIdx i).filter p := by
  obtain ⟨hlt, rfl⟩ := List.getElem?_eq_some_iff.1 hi
  have hperm := (getElem_cons_eraseIdx_perm hlt).filter p
  rw [filter_cons_of_pos ha] at hperm
  exact (nodup_cons.1 (hperm.nodup_iff.2 hnodup)).1

theorem live_markDead (index : Nat) : (markDead index stack).live =
    (stack.flows.eraseIdx index).filter fun flow ↦ !flow.dead :=
  filter_modify (fun _ ↦ rfl) _ _

theorem Inv.markDead (h : Inv stack) (index : Nat) : Inv (markDead index stack) := by
  refine h.of_sublist rfl h.next ?_
  rw [live_markDead]
  exact (eraseIdx_sublist _ _).filter _

theorem Inv.sweep (h : Inv stack) : Inv (sweep stack) :=
  h.of_sublist rfl h.next (filter_sublist.filter _)

/-- The loop ends at a port that no live flow has, and stays between the two ends. -/
theorem portLoop_spec (stack : Stack) (bind : Nat → Outcome) (left attempt : Nat) {port : Nat}
    (h : 20000 ≤ port ∧ port ≤ 59999) :
    (∀ found, (portLoop stack bind left attempt port).1 = .ok found →
        portInUse stack found = false ∧ found ≤ 59999) ∧
      20000 ≤ (portLoop stack bind left attempt port).2 ∧
      (portLoop stack bind left attempt port).2 ≤ 59999 := by
  induction left generalizing attempt port with
  | zero => exact ⟨by simp [portLoop], h⟩
  | succ left ih =>
    have hnext : 20000 ≤ (if port + 1 > 59999 then 20000 else port + 1) ∧
        (if port + 1 > 59999 then 20000 else port + 1) ≤ 59999 := by
      split <;> omega
    simp only [portLoop]
    split
    · exact ih _ hnext
    next hfree =>
    cases bind attempt with
    | ok =>
      refine ⟨fun found hfound ↦ ?_, hnext⟩
      cases hfound
      exact ⟨by simpa using hfree, h.2⟩
    | failed => exact ih _ hnext
    | noMemory => exact ⟨by simp, hnext⟩

section

variable {family : Family} {source target client : Bytes}
  {sourcePort targetPort clientPort internalPort : Nat}

theorem flowForInput_eq :
    flowForInput stack family source sourcePort target targetPort =
      stack.live.find? (·.connection = (family, ⟨source, sourcePort⟩, ⟨target, targetPort⟩)) := by
  rw [flowForInput, Stack.live, find?_filter]
  congr 1
  funext flow
  simp only [Flow.connection, Flow.client, Flow.server, Prod.mk.injEq, Endpoint.mk.injEq]
  grind

theorem flowForOutput_eq :
    flowForOutput stack family client clientPort internalPort =
      stack.live.find? fun flow ↦ flow.family = family ∧ flow.client = ⟨client, clientPort⟩ ∧
        flow.internalPort = internalPort := by
  rw [flowForOutput, Stack.live, find?_filter]
  congr 1
  funext flow
  simp only [Flow.client, Endpoint.mk.injEq]
  grind

end

/-! ## Packets of a client -/

/-- The flow of a packet is looked up with the reading of it. -/
def flowOf (lwip : Lwip) (packet : Bytes) (v : View) (stack : Stack) :
    Except Error (Option Flow) × Stack :=
  flowFor lwip v.family v.source.address v.source.port v.destination.address v.destination.port
    (packet.getD (v.tcpOffset + 13) 0) stack

/-- The translation of a packet to another address than that of the interface. -/
def translate (lwip : Lwip) (packet : Bytes) (v : View) (stack : Stack) :
    Except Error Bytes × Stack :=
  match flowOf lwip packet v stack with
  | (.error e, stack) => (.error e, stack)
  | (.ok none, stack) => (.ok packet, stack)
  | (.ok (some flow), stack) =>
    (.ok (checksums v.family (setEndpoint v.family.destinationOffset (v.tcpOffset + 2)
      ⟨stack.address v.family, flow.internalPort⟩ packet)), stack)

variable (lwip : Lwip)

/-- Both families do the same with a packet that they accept. -/
theorem prepareTcpInput_cases (packet : Bytes) (stack : Stack) :
    (∃ e, prepareTcpInput lwip packet stack = (.error e, stack)) ∨
      ((∀ v, view packet = some v → v.destination.address = stack.address v.family) ∧
        prepareTcpInput lwip packet stack = (.ok packet, stack)) ∨
      ∃ v, view packet = some v ∧ v.destination.address ≠ stack.address v.family ∧
        prepareTcpInput lwip packet stack = translate lwip packet v stack := by
  simp only [prepareTcpInput]
  split
  · next hversion =>
    simp only [prepareIpv4TcpInput]
    split
    · exact .inl ⟨_, rfl⟩
    next hvalid =>
    simp only [not_or, not_not, not_lt] at hvalid
    split
    · next hlocal =>
      refine .inr (.inl ⟨fun v hv ↦ ?_, rfl⟩)
      obtain ⟨hlocate, -, hdestination⟩ := view_eq_some hv
      obtain ⟨-, ⟨hfamily, -, -, -, -, hprotocol⟩ | ⟨-, htransport⟩⟩ := locate_iff.1 hlocate
      · rw [hdestination, hfamily]
        exact hlocal.resolve_left (not_not.2 hprotocol)
      · have := (ipv6Transport_eq_some htransport).2.1
        omega
    next hforeign =>
    simp only [not_or, not_not] at hforeign
    split
    · exact .inl ⟨_, rfl⟩
    split
    · exact .inl ⟨_, rfl⟩
    split
    · exact .inl ⟨_, rfl⟩
    next hlength =>
    split
    · exact .inl ⟨_, rfl⟩
    have hview := view_of_locate (locate_iff.2 ⟨not_lt.1 hlength,
      .inl ⟨rfl, hversion, rfl, hvalid.1, hvalid.2.2.2, hforeign.1⟩⟩)
    exact .inr (.inr ⟨_, hview, hforeign.2, rfl⟩)
  · split
    · simp only [prepareIpv6TcpInput]
      split
      · exact .inl ⟨_, rfl⟩
      cases htransport : ipv6Transport packet with
      | none => exact .inl ⟨_, rfl⟩
      | some found =>
        obtain ⟨protocol, offset⟩ := found
        simp only
        split
        · next hlocal =>
          refine .inr (.inl ⟨fun v hv ↦ ?_, rfl⟩)
          obtain ⟨hlocate, -, hdestination⟩ := view_eq_some hv
          obtain ⟨-, ⟨-, hversion, -⟩ | ⟨hfamily, htransport'⟩⟩ := locate_iff.1 hlocate
          · omega
          rw [htransport] at htransport'
          cases htransport'
          rw [hdestination, hfamily]
          exact hlocal.resolve_left (not_not.2 rfl)
        next hforeign =>
        simp only [not_or, not_not] at hforeign
        obtain ⟨rfl, hforeign⟩ := hforeign
        split
        · exact .inl ⟨_, rfl⟩
        split
        · exact .inl ⟨_, rfl⟩
        next hlength =>
        split
        · exact .inl ⟨_, rfl⟩
        have hview := view_of_locate (locate_iff.2 ⟨not_lt.1 hlength, .inr ⟨rfl, htransport⟩⟩)
        exact .inr (.inr ⟨_, hview, hforeign, rfl⟩)
    · next hversion =>
      refine .inr (.inl ⟨fun v hv ↦ ?_, rfl⟩)
      obtain ⟨-, ⟨-, hversion', -⟩ | ⟨-, htransport⟩⟩ := locate_iff.1 (view_eq_some hv).1
      · omega
      · exact absurd (ipv6Transport_eq_some htransport).2.1 hversion

variable {packet : Bytes} {v : View}

section

variable (hview : view packet = some v) (hforeign : v.destination.address ≠ stack.address v.family)

include hview hforeign

/-- The connection of a packet is one that the stack forwards. -/
theorem forwarded_of_view (hflow : flow.connection = v.connection) : Forwarded stack flow := by
  obtain ⟨hlocate, hsource, hdestination⟩ := view_eq_some hview
  obtain ⟨hheader, hfits, -⟩ := locate_bounds hlocate
  have horder := v.family.addresses
  simp only [Flow.connection, View.connection, Flow.client, Flow.server, Prod.mk.injEq] at hflow
  obtain ⟨hfamily, hclient, hserver⟩ := hflow
  have hsource' : flow.source = v.source.address := by rw [← hclient]
  have htarget' : flow.target = v.destination.address := by rw [← hserver]
  have hport' : flow.targetPort = v.destination.port := by rw [← hserver]
  refine ⟨?_, ?_, ?_, ?_⟩
  · rw [hsource', hsource, hfamily]
    exact length_slice (by omega)
  · rw [htarget', hdestination, hfamily]
    exact length_slice (by omega)
  · rw [hport', hdestination]
    exact readU16_lt _ _
  · rw [htarget', hfamily]
    exact hforeign

/-- What the lookup does: nothing for a packet that belongs to no connection and opens none, or it
finds the live flow of the connection, which may be a new one. -/
theorem flowOf_spec (h : Inv stack) {found : Except Error (Option Flow)} {after : Stack}
    (hflow : flowOf lwip packet v stack = (found, after)) :
    Inv after ∧ after.address = stack.address ∧ ∀ o, found = .ok o →
      (o = none ∧ after = stack ∧ opens packet v.tcpOffset = false ∧
          ∀ flow ∈ stack.live, flow.connection ≠ v.connection) ∨
        ∃ flow ∈ after.live, o = some flow ∧ flow.connection = v.connection := by
  simp only [flowOf, flowFor] at hflow
  cases hfind : flowForInput stack v.family v.source.address v.source.port v.destination.address
      v.destination.port with
  | some flow =>
    rw [hfind] at hflow
    cases hflow
    rw [flowForInput_eq] at hfind
    refine ⟨h, rfl, fun o ho ↦ .inr ⟨flow, mem_of_find?_eq_some hfind, ?_, ?_⟩⟩
    · cases ho
      rfl
    · exact of_decide_eq_true (find?_some hfind :)
  | none =>
    rw [hfind] at hflow
    rw [flowForInput_eq] at hfind
    have hnone : ∀ flow ∈ stack.live, flow.connection ≠ v.connection := fun flow hflow heq ↦
      find?_eq_none.1 hfind flow hflow (decide_eq_true heq)
    simp only at hflow
    split at hflow
    · next hflags =>
      cases hflow
      refine ⟨h, rfl, fun o ho ↦ .inl ⟨(Except.ok.inj ho).symm, rfl, ?_, hnone⟩⟩
      rw [opens, Bool.and_eq_false_iff, bne_eq_false_iff_eq, beq_eq_false_iff_ne]
      exact hflags
    simp only [flowCreate] at hflow
    split at hflow
    · cases hflow
      exact ⟨h, rfl, fun o ho ↦ by cases ho⟩
    obtain ⟨hport, hnext⟩ := portLoop_spec stack lwip.bind 40000 0 h.next
    generalize portLoop stack lwip.bind 40000 0 stack.nextTcpPort = loop at hflow hport hnext
    have hsame : Inv { stack with nextTcpPort := loop.2 } := h.of_sublist rfl hnext (.refl _)
    split at hflow
    · cases hflow
      exact ⟨hsame, rfl, fun o ho ↦ by cases ho⟩
    · cases hflow
      exact ⟨hsame, rfl, fun o ho ↦ by cases ho⟩
    · cases hflow
      exact ⟨hsame, rfl, fun o ho ↦ by cases ho⟩
    · next hloop _ =>
      cases hflow
      obtain ⟨hfree, hle⟩ := hport _ hloop
      refine ⟨h.cons hnext hle rfl hfree (forwarded_of_view hview hforeign rfl) hnone, rfl,
        fun o ho ↦ .inr ⟨_, mem_live.2 ⟨mem_cons_self, rfl⟩, (Except.ok.inj ho).symm, rfl⟩⟩

/-- A packet keeps the invariant, and if it is accepted it goes to the flow of its connection. -/
theorem translate_spec (h : Inv stack) :
    Inv (translate lwip packet v stack).2 ∧
      ∀ result, (translate lwip packet v stack).1 = .ok result →
        (result = packet ∧ (translate lwip packet v stack).2 = stack ∧
            opens packet v.tcpOffset = false ∧
            ∀ flow ∈ stack.live, flow.connection ≠ v.connection) ∨
          ∃ flow ∈ (translate lwip packet v stack).2.live, flow.connection = v.connection ∧
            Readdressed packet result
              { v with destination := ⟨stack.address v.family, flow.internalPort⟩ } := by
  rw [translate]
  cases hflow : flowOf lwip packet v stack with | mk found after =>
  obtain ⟨hinv, haddress, hfound⟩ := flowOf_spec lwip hview hforeign h hflow
  rcases found with e | o
  · exact ⟨hinv, fun result hresult ↦ by cases hresult⟩
  obtain ⟨rfl, rfl, hopens, hnone⟩ | ⟨flow, hlive, rfl, hconnection⟩ := hfound o rfl
  · refine ⟨hinv, fun result hresult ↦ .inl ?_⟩
    cases hresult
    exact ⟨rfl, rfl, hopens, hnone⟩
  · refine ⟨hinv, fun result hresult ↦ .inr ⟨flow, hlive, hconnection, ?_⟩⟩
    cases hresult
    rw [haddress]
    exact readdressed_destination hview (h.length_address _)
      (Nat.lt_of_le_of_lt (hinv.internalPort flow hlive) (by decide))

end

theorem Inv.prepareTcpInput (h : Inv stack) (lwip : Lwip) (packet : Bytes) :
    Inv (prepareTcpInput lwip packet stack).2 := by
  obtain ⟨e, hprepare⟩ | ⟨-, hprepare⟩ | ⟨v, hview, hforeign, hprepare⟩ :=
    prepareTcpInput_cases lwip packet stack
  · rw [hprepare]
    exact h
  · rw [hprepare]
    exact h
  · rw [hprepare]
    exact (translate_spec lwip hview hforeign h).1

/-! ## Packets of lwIP -/

/-- Both families do the same with a packet of lwIP. -/
theorem rewriteTcpOutput_eq (stack : Stack) (h : view packet = some v) :
    rewriteTcpOutput stack packet =
      (flowForOutput stack v.family v.destination.address v.destination.port v.source.port).elim
        packet fun flow ↦
          checksums v.family (setEndpoint v.family.sourceOffset v.tcpOffset flow.server
            packet) := by
  obtain ⟨hlocate, hsource, hdestination⟩ := view_eq_some h
  rw [hsource, hdestination]
  obtain ⟨hfits, ⟨hfamily, hversion, hoffset, hheader, -, hprotocol⟩ | ⟨hfamily, htransport⟩⟩ :=
    locate_iff.1 hlocate
  · rw [rewriteTcpOutput, if_neg (by omega),
      if_neg (not_or.2 ⟨by omega, not_or.2 ⟨not_not.2 hversion, not_not.2 hprotocol⟩⟩), hoffset,
      if_neg (by omega), hfamily]
    simp only [sourceOf, destinationOf, Family.destinationOffset, Family.addressLength]
    cases flowForOutput stack .inet (slice 16 4 packet) (readU16 (v.tcpOffset + 2) packet)
      (readU16 v.tcpOffset packet) <;> rfl
  · have hversion := (ipv6Transport_eq_some htransport).2.1
    rw [rewriteTcpOutput, if_pos hversion, htransport, hfamily]
    simp only [sourceOf, destinationOf, Family.destinationOffset, Family.addressLength]
    rw [if_neg (not_or.2 ⟨not_not.2 rfl, by omega⟩)]
    cases flowForOutput stack .inet6 (slice 24 16 packet) (readU16 (v.tcpOffset + 2) packet)
      (readU16 v.tcpOffset packet) <;> rfl

/-- **Answers**: they are restored exactly for the live flows. -/
theorem Inv.outward (h : Inv stack)
    (hforwarded : Forwarded stack flow) (hemitted : Emitted stack flow packet v) :
    Restored flow packet (rewriteTcpOutput stack packet) v ↔
      { flow with dead := false } ∈ stack.flows := by
  have hlive : { flow with dead := false } ∈ stack.flows ↔
      { flow with dead := false } ∈ stack.live :=
    ⟨fun hmem ↦ mem_live.2 ⟨hmem, rfl⟩, fun hmem ↦ (mem_live.1 hmem).1⟩
  rw [hlive, rewriteTcpOutput_eq stack hemitted.view_eq, hemitted.source, hemitted.destination,
    hemitted.family, flowForOutput_eq]
  cases hfind : stack.live.find? fun other ↦ other.family = flow.family ∧
      other.client = flow.client ∧ other.internalPort = flow.internalPort with
  | none =>
    refine iff_of_false (fun hrestored ↦ ?_) fun hmem ↦
      find?_eq_none.1 hfind _ hmem (decide_eq_true ⟨rfl, rfl, rfl⟩)
    -- an answer that is left as it is still has the interface as its source
    have hview := hrestored.view_eq
    rw [Option.elim_none, hemitted.view_eq, Option.some.injEq] at hview
    have hsource : flow.server = v.source := (congrArg View.source hview).symm
    rw [hemitted.source] at hsource
    exact hforwarded.foreign (congrArg Endpoint.address hsource)
  | some other =>
    have hother := mem_of_find?_eq_some hfind
    have hmatch := find?_some hfind
    rw [decide_eq_true_eq] at hmatch
    obtain ⟨hfamily, hclient, hport⟩ := hmatch
    have hold := h.forwarded other hother
    have hresult : Readdressed packet _ { v with source := other.server } :=
      readdressed_source hemitted.view_eq
        (by rw [hemitted.family, ← hfamily]; exact hold.target) hold.targetPort
    rw [hemitted.family] at hresult
    rw [Option.elim_some]
    constructor
    · intro hrestored
      have hview := hresult.view_eq.symm.trans hrestored.view_eq
      have hserver : other.server = flow.server :=
        congrArg View.source (Option.some.inj hview)
      have heq : { flow with dead := false } = other := by
        have hdead := (mem_live.1 hother).2
        cases other
        cases flow
        simp only [Flow.client, Flow.server, Endpoint.mk.injEq] at *
        simp_all
      exact heq ▸ hother
    · intro hmem
      have heq := inj_on_of_nodup_map h.ports hmem hother hport.symm
      have hserver : other.server = flow.server := by rw [← heq]; rfl
      rw [Restored, hemitted.family, ← hserver]
      exact hresult

/-! ## Runs -/

theorem Inv.step (h : Inv stack) (event : Event) : Inv (step stack event) := by
  cases event with
  | packet lwip packet => exact h.prepareTcpInput lwip packet
  | dead index => exact h.markDead index
  | sweep => exact h.sweep

theorem Inv.roundTrip (h : Inv stack) : RoundTrip stack where
  ports := h.ports
  inward := by
    intro lwip packet result after v hprepare hview hforeign
    obtain ⟨e, herror⟩ | ⟨hlocal, -⟩ | ⟨w, hview', -, htranslate⟩ :=
      prepareTcpInput_cases lwip packet stack
    · rw [hprepare] at herror
      cases herror
    · exact absurd (hlocal v hview) hforeign
    rw [hview, Option.some.injEq] at hview'
    subst hview'
    rw [hprepare] at htranslate
    obtain ⟨hinv, hresult⟩ := translate_spec lwip hview hforeign h
    rw [← htranslate] at hinv hresult
    obtain hpassed | ⟨flow, hlive, hconnection, hreaddressed⟩ := hresult result rfl
    · exact .inl hpassed
    · refine .inr ⟨flow, hlive, hconnection, fun other hother heq ↦ ?_, hreaddressed⟩
      exact inj_on_of_nodup_map hinv.connections hother hlive (heq.trans hconnection.symm)
  outward := fun _ _ _ hforwarded hemitted ↦ h.outward hforwarded hemitted

/-- **The round trip.**  In every state that the stack reaches, live flows have different ports, a
packet of a client goes to the flow of its connection, and an answer of lwIP gets the source that
the client expects exactly if its flow is live. -/
theorem run_roundTrip {stack : Stack} (h : Created stack) (events : List Event) :
    RoundTrip (run step stack events) :=
  (run_inv_all (I := Inv) (fun _ event hinv ↦ hinv.step event) events h.inv).roundTrip

variable (h : Inv stack) {index : Nat} (hflow : stack.flows[index]? = some flow)
  (hlive : flow.dead = false) {reset : Bytes} (hemitted : Emitted stack flow reset v)

include h hflow hlive hemitted

/-- The reset of a flow that is aborted is restored. -/
theorem flowAbort_restored : Restored flow reset (flowAbort index reset stack).1 v := by
  have hmem := mem_of_getElem? hflow
  have hforwarded := h.forwarded flow (mem_live.2 ⟨hmem, hlive⟩)
  refine (h.outward hforwarded hemitted).2 ?_
  rw [← hlive]
  exact hmem

/-- The reset of a flow whose dialer failed is not. -/
theorem acceptFailed_not_restored : ¬ Restored flow reset (acceptFailed index reset stack).1 v := by
  have hforwarded := h.forwarded flow (mem_live.2 ⟨mem_of_getElem? hflow, hlive⟩)
  have hemitted' : Emitted (markDead index stack) flow reset v :=
    ⟨hemitted.view_eq, hemitted.family, hemitted.source, hemitted.destination⟩
  intro hrestored
  have hmem := ((h.markDead index).outward (hforwarded.of_address rfl) hemitted').1 hrestored
  rw [← hlive] at hmem
  refine notMem_filter_eraseIdx (by rw [hlive]; rfl) h.ports.of_map hflow ?_
  rw [← live_markDead]
  exact mem_live.2 ⟨hmem, hlive⟩

omit h hflow hlive hemitted

/-! A client at 10.0.0.2 connects to 93.184.216.34, over an interface with the address 10.0.0.1. -/

def exampleStack : Stack where
  ipv4 := [10, 0, 0, 1]
  ipv6 := List.replicate 16 0
  flows := []
  nextTcpPort := 20000
  tcpDialer := true

/-- Calls into lwIP that all succeed. -/
def exampleLwip : Lwip := ⟨fun _ ↦ .ok, .ok⟩

def exampleSyn : Bytes :=
  [0x45, 0, 0, 40, 0, 1, 0, 0, 64, 6, 0, 0, 10, 0, 0, 2, 93, 184, 216, 34,
    0x30, 0x39, 0, 80, 0, 0, 0, 1, 0, 0, 0, 0, 0x50, 0x02, 0x20, 0, 0, 0, 0, 0]

def exampleFlow : Flow :=
  ⟨.inet, [10, 0, 0, 2], 12345, [93, 184, 216, 34], 80, 20000, false⟩

/-- The reset that lwIP emits for the connection, from the interface and port 20000. -/
def exampleReset : Bytes :=
  [0x45, 0, 0, 40, 0, 1, 0, 0, 64, 6, 0, 0, 10, 0, 0, 1, 10, 0, 0, 2,
    0x4e, 0x20, 0x30, 0x39, 0, 0, 0, 1, 0, 0, 0, 2, 0x50, 0x14, 0x20, 0, 0, 0, 0, 0]

theorem exampleStack_created : Created exampleStack := ⟨rfl, rfl, rfl, rfl⟩

/-- The round trip of a live flow. -/
theorem exampleStack_roundTrip :
    RoundTrip (run step exampleStack [.packet exampleLwip exampleSyn]) :=
  run_roundTrip exampleStack_created _

/-- The reading of the reset. -/
def exampleView : View :=
  ⟨.inet, 20, ⟨[10, 0, 0, 1], 20000⟩, ⟨[10, 0, 0, 2], 12345⟩⟩

/-- The stack after the first packet of the connection. -/
def exampleConnected : Stack :=
  run step exampleStack [.packet exampleLwip exampleSyn]

theorem exampleConnected_flows : exampleConnected.flows = [exampleFlow] := by
  decide +kernel

/-- The dialer of a new connection fails: the reset that lwIP emits for its flow does not get the
address of the server, and the client sees a reset from the interface. -/
theorem reset_of_failed_dial :
    Emitted exampleConnected exampleFlow exampleReset exampleView ∧
      (acceptFailed 0 exampleReset exampleConnected).1 = exampleReset ∧
      ¬ Restored exampleFlow exampleReset (acceptFailed 0 exampleReset exampleConnected).1
        exampleView := by
  have hinv : Inv exampleConnected := exampleStack_created.inv.step (.packet exampleLwip exampleSyn)
  have hemitted : Emitted exampleConnected exampleFlow exampleReset exampleView :=
    ⟨by decide +kernel, rfl, by decide +kernel, rfl⟩
  refine ⟨hemitted, by decide +kernel, ?_⟩
  exact acceptFailed_not_restored hinv (by rw [exampleConnected_flows]; rfl) rfl hemitted

end ClambHook.TcpNat
