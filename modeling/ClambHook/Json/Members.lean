import ClambHook.Json.Text
import ClambHook.Lib.Machine

/-!
# Members of JSON objects

The parser keeps every member of an object, also where two have the same key, but `get`, `set` and
`remove` stop at the first one.  Behind a `set` the second one still has its old value, which is
what a reader takes for which the last one wins; and behind a `remove` it is the one that `get`
finds.
-/

namespace ClambHook.Json

open CString Machine List

/-- A call on the members of an object: `set` if it has a value, and `remove` if not. -/
structure MemberCall where
  key : Bytes
  hkey : key ≠ []
  value : Option Json

def MemberCall.perform (members : List (Bytes × Json)) (call : MemberCall) : List (Bytes × Json) :=
  match call.value with
  | some value => setMember members call.key value
  | none => removeMember members call.key

/-- The laws of a map.  The text of an object has its members in their order: a reader for which the
first one wins finds what `get` finds, and there are readers for which the last one wins. -/
structure MapLaws (members : List (Bytes × Json)) (call : MemberCall) : Prop where
  get : objectGet (some (.object (call.perform members))) call.key = call.value
  last : (call.perform members).reverse.lookup call.key = call.value
  others : (call.perform members).filter (·.1 ≠ call.key) = members.filter (·.1 ≠ call.key)

/-- The members with a key. -/
def having (key : Bytes) (members : List (Bytes × Json)) : List (Bytes × Json) :=
  members.filter (·.1 = key)

/-- No key stands twice among the members, except the empty one, which no call takes. -/
def Single (members : List (Bytes × Json)) : Prop :=
  ∀ key ≠ [], (having key members).length ≤ 1

variable {members : List (Bytes × Json)}

/-- A call leaves the members with other keys alone. -/
theorem filter_perform (members) (call : MemberCall) (p : Bytes → Bool) :
    (call.perform members).filter (p ·.1) =
      if p call.key then call.perform (members.filter (p ·.1)) else members.filter (p ·.1) := by
  obtain ⟨key, hkey, value⟩ := call
  induction members with
  | nil => cases value <;> simp [MemberCall.perform, setMember, removeMember, filter_cons]
  | cons m members ih =>
    by_cases h : m.1 = key
    · cases hp : p key <;> cases value <;>
        simp [h, hp, MemberCall.perform, setMember, removeMember]
    · cases hp : p m.1 <;> cases hk : p key <;> cases value <;>
        simp_all [MemberCall.perform, setMember, removeMember]

theorem having_perform (call : MemberCall) :
    having call.key (call.perform members) =
      (call.value.map (call.key, ·)).toList ++ (having call.key members).tail := by
  have hfilter := filter_perform members call (· = call.key)
  rw [if_pos (by simp)] at hfilter
  rw [having, having, hfilter]
  obtain ⟨key, hkey, value⟩ := call
  cases hkeyed : members.filter (·.1 = key) with
  | nil => cases value <;> rfl
  | cons m rest =>
    have hm := of_decide_eq_true (mem_filter.1 (hkeyed ▸ mem_cons_self : m ∈ _)).2
    cases value <;> simp [MemberCall.perform, setMember, removeMember, hm]

theorem lookup_eq (key : Bytes) (members : List (Bytes × Json)) :
    members.lookup key = (having key members).head?.map Prod.snd := by
  induction members with
  | nil => rfl
  | cons m members ih =>
    rw [having] at ih ⊢
    by_cases h : m.1 = key
    · rw [lookup_cons, h, beq_self_eq_true, filter_cons_of_pos (by simpa using h)]
      rfl
    · rw [lookup_cons, beq_false_of_ne (Ne.symm h), filter_cons_of_neg (by simpa using h), ih]

section

variable (h : Single members) (call : MemberCall)

include h

theorem Single.having_perform :
    having call.key (call.perform members) = (call.value.map (call.key, ·)).toList := by
  have htail : (having call.key members).tail = [] := by
    rw [← length_eq_zero_iff, length_tail]
    have := h call.key call.hkey
    omega
  rw [Json.having_perform, htail, append_nil]

theorem Single.mapLaws : MapLaws members call := by
  have hone := h.having_perform call
  refine ⟨?_, ?_, ?_⟩
  · rw [objectGet, lookup_eq, hone]
    cases call.value <;> rfl
  · rw [lookup_eq, having, filter_reverse, ← having, hone]
    cases call.value <;> rfl
  · exact (filter_perform members call (· ≠ call.key)).trans (if_neg (by simp))

theorem Single.perform : Single (call.perform members) := by
  intro key hkey
  by_cases heq : call.key = key
  · rw [← heq, h.having_perform call]
    cases call.value <;> simp
  · have hfilter := filter_perform members call (· = key)
    rw [if_neg (by simpa using heq)] at hfilter
    rw [having, hfilter]
    exact h key hkey

end

/-- **Objects are maps** exactly if no key stands twice: then every call of every sequence of calls
obeys the laws. -/
theorem mapLaws_iff (members : List (Bytes × Json)) :
    (∀ calls, Along MemberCall.perform MapLaws members calls) ↔ Single members := by
  constructor
  · intro h key hkey
    have hget := (h [⟨key, hkey, none⟩]).1.get
    rw [objectGet, lookup_eq, having_perform] at hget
    simpa using hget
  · intro h calls
    induction calls generalizing members with
    | nil => trivial
    | cons call calls ih => exact ⟨h.mapLaws call, ih _ (h.perform call)⟩

/-- In `{"a":true,"a":false}` the second member shows behind a `set`, and behind a `remove`. -/
theorem second_member_shows : ∃ members,
    parse (bytes "\x7b\"a\":true,\"a\":false\x7d") = .ok (.object members) ∧
      (setMember members (bytes "a") .null).reverse.lookup (bytes "a") = some (.boolean false) ∧
      objectGet (some (.object (removeMember members (bytes "a")))) (bytes "a") =
        some (.boolean false) :=
  ⟨[(bytes "a", .boolean true), (bytes "a", .boolean false)], rfl, rfl, rfl⟩

end ClambHook.Json
