import ClambHook.Lib.CString

/-!
# Status codes and errors

Every fallible entry point of the core returns a `ch_status` and fills a `ch_error`.  Here such a
function returns `Except Error α`; the status `CH_OK` is the `ok` case.
-/

namespace ClambHook

open CString List

/-- The failing values of `ch_status`. -/
inductive Status where
  | invalidArgument
  | outOfMemory
  | invalidState
  | io
  | parse
  | notFound
  | unsupported
  | internal
deriving DecidableEq, Repr

/-- A `ch_error`: its message has room for 255 bytes. -/
structure Error where
  code : Status
  message : Bytes
deriving DecidableEq, Repr

/-- `ch_error_set`, with the formatted message. -/
def Error.set (code : Status) (message : Bytes) : Error :=
  ⟨code, message.take 255⟩

/-- The error of a failed call. -/
def callError (operation : String) (strerror : Bytes) : Error :=
  .set .io (bytes operation ++ bytes ": " ++ strerror)

variable {α β ε : Type}

/-- A sequence of two fallible steps succeeds when both do. -/
theorem bind_eq_ok_iff {x : Except ε α} {f : α → Except ε β} {b : β} :
    (x >>= f) = .ok b ↔ ∃ a, x = .ok a ∧ f a = .ok b := by
  cases x with
  | error e =>
    constructor
    · intro h
      cases h
    · rintro ⟨a, h, -⟩
      cases h
  | ok a =>
    constructor
    · exact fun h ↦ ⟨a, rfl, h⟩
    · rintro ⟨a', h, hf⟩
      cases h
      exact hf

theorem ok_bind (a : α) (f : α → Except ε β) : (Except.ok a >>= f) = f a := rfl

theorem map_eq_ok_iff {x : Except ε α} {f : α → β} {b : β} :
    x.map f = .ok b ↔ ∃ a, x = .ok a ∧ f a = b := by
  cases x <;> simp [Except.map]

/-- A list of checks succeeds when each of them does. -/
theorem forM_eq_ok_iff {f : α → Except ε Unit} {l : List α} :
    l.forM f = .ok () ↔ ∀ x ∈ l, f x = .ok () := by
  induction l with
  | nil => exact iff_of_true rfl fun x hx ↦ absurd hx not_mem_nil
  | cons x l ih =>
    have hcons : (x :: l).forM f = (f x >>= fun _ ↦ l.forM f) := rfl
    rw [hcons, bind_eq_ok_iff, forall_mem_cons, ← ih]
    constructor
    · rintro ⟨u, hx, hl⟩
      exact ⟨hx, hl⟩
    · rintro ⟨hx, hl⟩
      exact ⟨(), hx, hl⟩

/-- A list of fallible steps succeeds when each of them does. -/
theorem mapM_eq_ok_iff {f : α → Except ε β} {l : List α} {l' : List β} :
    l.mapM f = .ok l' ↔ l.map f = l'.map .ok := by
  induction l generalizing l' with
  | nil => cases l' <;> simp [pure, Except.pure]
  | cons x l ih =>
    rw [mapM_cons, bind_eq_ok_iff, map_cons]
    constructor
    · rintro ⟨y, hy, h⟩
      obtain ⟨ys, hys, h⟩ := bind_eq_ok_iff.1 h
      cases h
      rw [map_cons, hy, ih.1 hys]
    · intro h
      obtain ⟨y, ys, rfl, hy, hys⟩ := map_eq_cons_iff.1 h.symm
      exact ⟨y, hy.symm, bind_eq_ok_iff.2 ⟨ys, ih.2 hys.symm, rfl⟩⟩

theorem mem_mapM_iff {f : α → Except ε β} {l : List α} {l' : List β} (h : l.mapM f = .ok l')
    {y : β} :
    y ∈ l' ↔ ∃ x ∈ l, f x = .ok y := by
  rw [← mem_map, mapM_eq_ok_iff.1 h, mem_map]
  constructor
  · exact fun hy ↦ ⟨y, hy, rfl⟩
  · rintro ⟨_, hy, heq⟩
    cases heq
    exact hy

end ClambHook
