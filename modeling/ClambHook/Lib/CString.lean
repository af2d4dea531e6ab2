import Mathlib.Data.List.DropRight
import Mathlib.Data.Nat.Digits.Defs

/-!
# C strings

A C string is the list of the bytes in front of its terminating NUL.  The functions are those of
`<ctype.h>`, `<string.h>`, `<strings.h>` and `<stdlib.h>` in the "C" locale, as total functions on
byte lists: a function that returns a pointer into its argument returns the two parts of the
string on either side of that pointer.
-/

set_option autoImplicit false

namespace CString

open List

/-- The bytes of a C string, without the terminating NUL. -/
abbrev Bytes := List UInt8

/-- The bytes of an ASCII literal. -/
def bytes (s : String) : Bytes :=
  s.toList.map fun c ↦ c.toNat.toUInt8

/-- The C string in a buffer: it ends with the first NUL. -/
def untilNul (s : Bytes) : Bytes :=
  s.takeWhile (· != 0)

theorem takeWhile_ne_eq_self_iff {s : Bytes} {c : UInt8} :
    s.takeWhile (· ≠ c) = s ↔ c ∉ s := by
  rw [takeWhile_eq_self_iff]
  simp only [ne_eq, decide_not, Bool.not_eq_true', decide_eq_false_iff_not]
  exact ⟨fun h hc ↦ h c hc rfl, fun h d hd heq ↦ h (heq ▸ hd)⟩

theorem zero_notMem_untilNul (s : Bytes) : 0 ∉ untilNul s := fun h ↦ by
  have := mem_takeWhile_imp h
  simp at this

theorem untilNul_eq_self {s : Bytes} (h : 0 ∉ s) : untilNul s = s := by
  rw [untilNul, takeWhile_eq_self_iff]
  intro c hc
  rw [bne_iff_ne]
  rintro rfl
  exact h hc

/-! ## Character classes -/

/-- Space, and the five control characters from tab to carriage return. -/
def isspace (c : UInt8) : Bool :=
  c == 32 || (9 ≤ c && c ≤ 13)

def isdigit (c : UInt8) : Bool :=
  48 ≤ c && c ≤ 57

def tolower (c : UInt8) : UInt8 :=
  if 65 ≤ c ∧ c ≤ 90 then c + 32 else c

def toupper (c : UInt8) : UInt8 :=
  if 97 ≤ c ∧ c ≤ 122 then c - 32 else c

/-- A whole string in upper case. -/
def upper (s : Bytes) : Bytes :=
  s.map toupper

/-- A whole string in lower case. -/
def lower (s : Bytes) : Bytes :=
  s.map tolower

/-- Equality of `strcasecmp`. -/
def strcaseeq (s t : Bytes) : Bool :=
  lower s == lower t

/-- The decimal digits of `%u`. -/
def decimal (n : Nat) : Bytes :=
  if n = 0 then [48] else ((Nat.digits 10 n).map fun d ↦ 48 + d.toUInt8).reverse

/-- The digits of `%0*u`: at least so many. -/
def padded (width n : Nat) : Bytes :=
  List.replicate (width - (decimal n).length) 48 ++ decimal n

/-- The text of `%d`. -/
def decimalInt : Int → Bytes
  | .ofNat n => decimal n
  | .negSucc n => 45 :: decimal (n + 1)

instance (s : Bytes) (l : List Bytes) : Decidable (s ∈ l) :=
  inferInstance

/-! ## Trimming -/

/-- The string without white space at its front. -/
def trimLeft (s : Bytes) : Bytes :=
  s.dropWhile isspace

/-- The string without white space at its end. -/
def trimRight (s : Bytes) : Bytes :=
  s.rdropWhile isspace

/-- The string without white space at either end. -/
def trim (s : Bytes) : Bytes :=
  trimRight (trimLeft s)

/-- There is no white space at either end. -/
def Trimmed (s : Bytes) : Prop :=
  (∀ c ∈ s.head?, isspace c = false) ∧ ∀ c ∈ s.getLast?, isspace c = false

instance (s : Bytes) : Decidable (Trimmed s) :=
  decidable_of_iff (s.head?.all (!isspace ·) = true ∧ s.getLast?.all (!isspace ·) = true) <| by
    simp [Trimmed, Option.all_eq_true]

variable {s : Bytes}

theorem trimLeft_eq_self_iff :
    trimLeft s = s ↔ ∀ c ∈ s.head?, isspace c = false := by
  cases s with
  | nil => simp [trimLeft]
  | cons b s => simp [trimLeft, dropWhile_eq_self_iff]

theorem trimRight_eq_self_iff :
    trimRight s = s ↔ ∀ c ∈ s.getLast?, isspace c = false := by
  rw [trimRight, rdropWhile_eq_self_iff]
  cases s using List.reverseRecOn with
  | nil => simp
  | append_singleton s c => simp

theorem trim_eq_self (h : Trimmed s) : trim s = s := by
  rw [trim, trimLeft_eq_self_iff.2 h.1, trimRight_eq_self_iff.2 h.2]

theorem trimmed_trim (s : Bytes) : Trimmed (trim s) := by
  constructor
  · intro c hc
    refine (trimLeft_eq_self_iff (s := trimLeft s)).1 (dropWhile_idempotent isspace s) c ?_
    obtain ⟨t, ht⟩ := rdropWhile_prefix isspace (trimLeft s)
    rw [← ht, List.head?_append]
    exact Option.or_eq_some_iff.2 (.inl hc)
  · exact trimRight_eq_self_iff.1 (rdropWhile_idempotent isspace (trimLeft s))

theorem trim_trim (s : Bytes) : trim (trim s) = trim s :=
  trim_eq_self (trimmed_trim s)

/-- The text between brackets, when the whole text is in brackets. -/
def stripBrackets (s : Bytes) : Bytes :=
  if s.length ≥ 2 ∧ s.head? = some 91 ∧ s.getLast? = some 93 then s.tail.dropLast else s

theorem stripBrackets_cons_append (s : Bytes) : stripBrackets (91 :: s ++ [93]) = s := by
  rw [stripBrackets, if_pos ⟨by simp, rfl, by rw [List.getLast?_concat]⟩]
  simp

theorem stripBrackets_of_head (h : s.head? ≠ some 91) : stripBrackets s = s :=
  if_neg fun hs ↦ h hs.2.1

theorem stripBrackets_of_getLast (h : s.getLast? ≠ some 93) : stripBrackets s = s :=
  if_neg fun hs ↦ h hs.2.2

/-- The text without one final dot. -/
def stripFinalDot (s : Bytes) : Bytes :=
  if s.getLast? = some 46 then s.dropLast else s

theorem stripFinalDot_of_getLast (h : s.getLast? ≠ some 46) : stripFinalDot s = s :=
  if_neg h

theorem lower_eq_nil : lower s = [] ↔ s = [] :=
  map_eq_nil_iff

/-! ## Searching -/

/-- The parts in front of and behind the first `c` of a string (`strchr`). -/
def splitFirst (c : UInt8) : Bytes → Option (Bytes × Bytes)
  | [] => none
  | b :: s => if b = c then some ([], s) else (splitFirst c s).map fun p ↦ (b :: p.1, p.2)

/-- The parts in front of and behind the last `c` of a string (`strrchr`). -/
def splitLast (c : UInt8) : Bytes → Option (Bytes × Bytes)
  | [] => none
  | b :: s =>
    match splitLast c s with
    | some p => some (b :: p.1, p.2)
    | none => if b = c then some ([], s) else none

/-- Does `t` occur in `s` (`strstr`)? -/
def contains (t : Bytes) : Bytes → Bool
  | [] => t == []
  | b :: s => t.isPrefixOf (b :: s) || contains t s

/-- The parts in front of and from the first occurrence of `t` in a string on (`strstr`). -/
def strstr (t : Bytes) : Bytes → Option (Bytes × Bytes)
  | [] => if t = [] then some ([], []) else none
  | b :: s =>
    if t.isPrefixOf (b :: s) then some ([], b :: s)
    else (strstr t s).map fun p ↦ (b :: p.1, p.2)

/-! ## Numbers -/

/-- What `strtol` reads in base ten: the value, the unread rest of the string, and whether the
value was out of range for a `long` (`ERANGE`, when the value is clamped). -/
structure Strtol where
  value : Int
  rest : Bytes
  erange : Bool
deriving DecidableEq, Repr

/-- The value of a digit string, most significant digit first. -/
def digitsValue (s : Bytes) : Nat :=
  s.foldl (fun n c ↦ 10 * n + (c.toNat - 48)) 0

/-- The smallest and largest values of a 64-bit `long`. -/
def longMin : Int := -2 ^ 63
def longMax : Int := 2 ^ 63 - 1

/-- Base-ten `strtol`: white space, an optional sign, digits.  Without a digit nothing is read. -/
def strtol (s : Bytes) : Strtol :=
  let body := trimLeft s
  let negative := body.head? == some 45
  let digits := if negative || body.head? == some 43 then body.tail else body
  if (digits.takeWhile isdigit).isEmpty then ⟨0, s, false⟩
  else
    let magnitude : Int := digitsValue (digits.takeWhile isdigit)
    let value := if negative then -magnitude else magnitude
    let rest := digits.dropWhile isdigit
    if value < longMin then ⟨longMin, rest, true⟩
    else if longMax < value then ⟨longMax, rest, true⟩
    else ⟨value, rest, false⟩

/-- The largest value of a 64-bit `unsigned long`. -/
def ulongMax : Nat := 2 ^ 64 - 1

/-- What `strtoul` reads in base ten, as `Strtol` for `strtol`. -/
structure Strtoul where
  value : Nat
  rest : Bytes
  erange : Bool
deriving DecidableEq, Repr

/-- Base-ten `strtoul`: it reads what `strtol` reads, and a number behind a minus sign is negated as
an `unsigned long`. -/
def strtoul (s : Bytes) : Strtoul :=
  let body := trimLeft s
  let negative := body.head? == some 45
  let digits := if negative || body.head? == some 43 then body.tail else body
  if (digits.takeWhile isdigit).isEmpty then ⟨0, s, false⟩
  else
    let magnitude := digitsValue (digits.takeWhile isdigit)
    let rest := digits.dropWhile isdigit
    if ulongMax < magnitude then ⟨ulongMax, rest, true⟩
    else ⟨if negative then (2 ^ 64 - magnitude) % 2 ^ 64 else magnitude, rest, false⟩

example : strtol (bytes " -12x") = ⟨-12, bytes "x", false⟩ := by decide
example : strtol (bytes "9223372036854775808") = ⟨longMax, [], true⟩ := by decide
example : strtoul (bytes "-1") = ⟨ulongMax, [], false⟩ := by decide
example : splitLast 58 (bytes "a:b:80") = some (bytes "a:b", bytes "80") := by decide

end CString
