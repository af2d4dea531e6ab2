import ClambHook.Lib.CString

/-!
# Internet addresses

`inet_pton` and `inet_ntop` of the C library, with the rules of the GNU implementation: no leading
zeros in a decimal octet, at most four digits in a hexadecimal field, and `::` for at least one
field that is left out.  An address is the list of its bytes in network order, four or sixteen of
them.

An IPv6 text is read by its fields between colons.  A first field that is empty is where fields are
left out; at either end of the text the `::` makes one empty field more.
-/

set_option autoImplicit false

namespace Inet

open CString List

/-! ## Reading -/

/-- A decimal octet, without leading zeros. -/
def octet (s : Bytes) : Option UInt8 :=
  if s ≠ [] ∧ s.all isdigit ∧ (s.head? = some 48 → s.length = 1) ∧ digitsValue s ≤ 255 then
    some (digitsValue s).toUInt8
  else none

/-- `inet_pton(AF_INET, …)`. -/
def pton4 (s : Bytes) : Option Bytes :=
  match (s.splitOn 46).mapM octet with
  | some [a, b, c, d] => some [a, b, c, d]
  | _ => none

def hexDigit (c : UInt8) : Option Nat :=
  if 48 ≤ c ∧ c ≤ 57 then some (c.toNat - 48)
  else if 97 ≤ c ∧ c ≤ 102 then some (c.toNat - 87)
  else if 65 ≤ c ∧ c ≤ 70 then some (c.toNat - 55)
  else none

/-- A field of one to four hexadecimal digits. -/
def hexField (s : Bytes) : Option Nat :=
  if s = [] ∨ s.length > 4 then none
  else (s.mapM hexDigit).map fun ds ↦ ds.foldl (fun n d ↦ 16 * n + d) 0

/-- The two bytes of a field. -/
def wordBytes (w : Nat) : Bytes :=
  [(w / 256).toUInt8, (w % 256).toUInt8]

/-- The bytes of fields; the last field may be a dotted IPv4 address. -/
def fieldsBytes : List Bytes → Option Bytes
  | [] => some []
  | [s] => ((hexField s).map wordBytes).or (pton4 s)
  | s :: t :: r => do
    let w ← hexField s
    let bs ← fieldsBytes (t :: r)
    return wordBytes w ++ bs

/-- The fields behind a `::`, from those behind the first empty field; at the front of the text
there is a second empty one. -/
def fieldsBehind (left rest : List Bytes) : Option (List Bytes) :=
  match left, rest with
  | [], [] :: right => some right
  | [], _ => none
  | _ :: _, right => some right

/-- The bytes behind a `::`.  At the end of the text there is one empty field; no field at all would
be a single colon. -/
def backBytes (right : List Bytes) : Option Bytes :=
  if right = [] then none else if right = [[]] then some [] else fieldsBytes right

/-- `inet_pton(AF_INET6, …)`. -/
def pton6 (s : Bytes) : Option Bytes :=
  let fields := s.splitOn 58
  let left := fields.takeWhile (· ≠ [])
  match fields.dropWhile (· ≠ []) with
  | [] => (fieldsBytes left).filter fun bs ↦ bs.length = 16
  | _ :: rest => do
    let right ← fieldsBehind left rest
    let front ← left.mapM hexField
    let back ← backBytes right
    if 2 * front.length + back.length < 16 then
      some (front.flatMap wordBytes ++
        List.replicate (16 - (2 * front.length + back.length)) 0 ++ back)
    else none

/-! ## Writing -/

/-- `inet_ntop(AF_INET, …)`. -/
def ntop4 (address : Bytes) : Bytes :=
  List.intercalate [46] (address.map fun b ↦ decimal b.toNat)

def hexChar (d : Nat) : UInt8 :=
  if d < 10 then (48 + d).toUInt8 else (87 + d).toUInt8

/-- The text of `%x`. -/
def hexText (w : Nat) : Bytes :=
  if w = 0 then [48] else ((Nat.digits 16 w).map hexChar).reverse

/-- The sixteen-bit words of an address. -/
def words : Bytes → List Nat
  | a :: b :: bs => (256 * a.toNat + b.toNat) :: words bs
  | _ => []

/-- A run of zero words, by its start and its length; the first one wins. -/
def longer : Option (Nat × Nat) → Option (Nat × Nat) → Option (Nat × Nat)
  | none, best => best
  | some cur, none => some cur
  | some cur, some best => if cur.2 > best.2 then some cur else some best

/-- The search for the longest run of zero words: the run that is being read, and the best one
behind it. -/
def zeroRun : List Nat → Nat → Option (Nat × Nat) → Option (Nat × Nat) → Option (Nat × Nat)
  | [], _, cur, best => longer cur best
  | w :: ws, i, cur, best =>
    if w = 0 then
      zeroRun ws (i + 1) (some (match cur with | none => (i, 1) | some (b, l) => (b, l + 1))) best
    else zeroRun ws (i + 1) none (longer cur best)

/-- The words that `::` stands for. -/
def bestRun (ws : List Nat) : Option (Nat × Nat) :=
  (zeroRun ws 0 none none).filter fun run ↦ run.2 ≥ 2

/-- No field next to a `::` at an end of the text is an empty field. -/
def orEmpty (fields : List Bytes) : List Bytes :=
  if fields = [] then [[]] else fields

/-- The fields behind the `::`.  An address with an IPv4 address inside ends in that. -/
def backFields (address : Bytes) (base len : Nat) : List Bytes :=
  let ws := words address
  if base = 0 ∧ (len = 6 ∨ (len = 5 ∧ ws[5]? = some 0xffff)) then
    ((ws.drop len).take (6 - len)).map hexText ++ [ntop4 (address.drop 12)]
  else (ws.drop (base + len)).map hexText

/-- `inet_ntop(AF_INET6, …)`. -/
def ntop6 (address : Bytes) : Bytes :=
  let ws := words address
  match bestRun ws with
  | none => List.intercalate [58] (ws.map hexText)
  | some (base, len) =>
    List.intercalate [58]
      (orEmpty ((ws.take base).map hexText) ++ [[]] ++ orEmpty (backFields address base len))

/-! ## Lengths -/

theorem length_pton4 {s address : Bytes} (h : pton4 s = some address) : address.length = 4 := by
  rw [pton4] at h
  split at h
  · cases h
    rfl
  · cases h

theorem length_wordBytes (ws : List Nat) : (ws.flatMap wordBytes).length = 2 * ws.length := by
  induction ws with
  | nil => rfl
  | cons w ws ih =>
    rw [flatMap_cons, length_append, ih, wordBytes]
    simp only [length_cons, length_nil]
    omega

theorem length_pton6 {s address : Bytes} (h : pton6 s = some address) : address.length = 16 := by
  rw [pton6] at h
  split at h
  · exact of_decide_eq_true (Option.filter_eq_some_iff.1 h).2
  obtain ⟨right, -, h⟩ := Option.bind_eq_some_iff.1 h
  obtain ⟨front, -, h⟩ := Option.bind_eq_some_iff.1 h
  obtain ⟨back, -, h⟩ := Option.bind_eq_some_iff.1 h
  split at h
  · cases h
    simp only [length_append, length_wordBytes, length_replicate]
    omega
  · cases h

end Inet
