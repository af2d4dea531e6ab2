import ClambHook.Lib.CString

/-!
# SOCKS authentication

`ch_socks_negotiate` reads the methods that a client offers, and then its user name and password,
each behind a byte with its length.  It compares them as C strings: what a field has behind a NUL
does not count.
-/

namespace ClambHook.Socks

open CString List

/-- A field of the client: its length is one byte. -/
@[ext] structure Field where
  content : Bytes
  length_le : content.length ≤ 255
deriving DecidableEq

def Field.encode (f : Field) : Bytes :=
  f.content.length.toUInt8 :: f.content

/-- `ch_listener_receive_exact` of a length and of so many bytes: the field, and what follows. -/
def receiveField : Bytes → Option (Field × Bytes)
  | [] => none
  | length :: rest =>
    if rest.length < length.toNat then none
    else
      some (⟨rest.take length.toNat,
        (length_take_le _ _).trans (Nat.le_of_lt_succ length.toNat_lt)⟩, rest.drop length.toNat)

/-- What a listener compares with.  Both are C strings. -/
structure Credentials where
  username : Field
  password : Field
  username_nul : 0 ∉ username.content
  password_nul : 0 ∉ password.content

/-- `ch_listener_constant_equal`. -/
def constantEqual (left right : Bytes) : Bool :=
  left.length == right.length && left == right

/-- The comparison of what the client has sent, in buffers that end with a NUL. -/
def Credentials.accept (c : Credentials) (username password : Field) : Bool :=
  constantEqual (untilNul username.content) c.username.content &&
    constantEqual (untilNul password.content) c.password.content

/-- The part of `ch_socks_negotiate` behind the selection of a method: whether the client is
accepted, or `none` if it does not send a request. -/
def authenticate (c : Credentials) : Bytes → Option Bool
  | 0x01 :: stream => do
    let (username, stream) ← receiveField stream
    let (password, _) ← receiveField stream
    return c.accept username password
  | _ => none

/-- Whether the two answers of `ch_socks_negotiate` can be sent. -/
structure Answers where
  selection : Bool := true
  response : Bool := true

/-- `ch_socks_negotiate`: what is sent to the client, and whether it may go on.  There are
credentials if authentication is required. -/
def negotiate (required : Option Credentials) (answers : Answers) : Bytes → List Bytes × Bool
  | 0x05 :: stream =>
    match receiveField stream with
    | none => ([], false)
    | some (methods, stream) =>
      let wanted : UInt8 := if required.isSome then 0x02 else 0x00
      let offered := methods.content.contains wanted
      let selection := [0x05, if offered then wanted else 0xff]
      if methods.content = [] then ([], false)
      else if !answers.selection || !offered then ([selection], false)
      else
        match required with
        | none => ([selection], true)
        | some c =>
          match authenticate c stream with
          | none => ([selection], false)
          | some accepted =>
            ([selection, [0x01, if accepted then 0x00 else 0x01]], answers.response && accepted)
  | _ => ([], false)

/-- The client offers the password method and sends the user name and the password. -/
def Presents (stream : Bytes) (username password : Field) : Prop :=
  ∃ methods : Field, 0x02 ∈ methods.content ∧ ∃ rest,
    stream = 0x05 :: (methods.encode ++ 0x01 :: (username.encode ++ (password.encode ++ rest)))

variable {stream rest : Bytes} {f g username password : Field} {c : Credentials} {answers : Answers}

theorem receiveField_encode (f : Field) (rest : Bytes) :
    receiveField (f.encode ++ rest) = some (f, rest) := by
  have hlength : f.content.length.toUInt8.toNat = f.content.length := by
    have := f.length_le
    simp only [Nat.toUInt8_eq, UInt8.toNat_ofNat']
    omega
  simp only [Field.encode, cons_append, receiveField, hlength, length_append, take_left, drop_left]
  rw [if_neg (by omega)]

theorem eq_of_receiveField (h : receiveField stream = some (f, rest)) :
    stream = f.encode ++ rest := by
  unfold receiveField at h
  split at h
  · cases h
  rename_i length tail
  split at h
  · cases h
  rename_i hlen
  obtain ⟨rfl, rfl⟩ := Prod.mk.inj (Option.some.inj h)
  have hlength : (tail.take length.toNat).length.toUInt8 = length := by
    rw [length_take, min_eq_left (not_lt.1 hlen)]
    exact UInt8.ofNat_toNat
  rw [Field.encode, hlength, cons_append, take_append_drop]

theorem encode_append_inj {a b : Bytes} (h : f.encode ++ a = g.encode ++ b) : f = g ∧ a = b := by
  have hf := receiveField_encode f a
  rw [h, receiveField_encode] at hf
  exact (Prod.mk.inj (Option.some.inj hf)).imp .symm .symm

theorem accept_iff :
    c.accept username password = true ↔ untilNul username.content = c.username.content ∧
      untilNul password.content = c.password.content := by
  have hequal (left right : Bytes) : constantEqual left right = true ↔ left = right := by
    rw [constantEqual, Bool.and_eq_true_iff, beq_iff_eq, beq_iff_eq]
    exact ⟨And.right, fun h ↦ ⟨congrArg length h, h⟩⟩
  rw [Credentials.accept, Bool.and_eq_true_iff, hequal, hequal]

theorem authenticate_eq_true (h : authenticate c stream = some true) :
    ∃ username password, c.accept username password = true ∧
      ∃ rest, stream = 0x01 :: (username.encode ++ (password.encode ++ rest)) := by
  unfold authenticate at h
  split at h
  · obtain ⟨⟨username, _⟩, huser, hrest⟩ := Option.bind_eq_some_iff.1 h
    obtain ⟨⟨password, rest⟩, hpass, haccept⟩ := Option.bind_eq_some_iff.1 hrest
    obtain rfl := eq_of_receiveField huser
    obtain rfl := eq_of_receiveField hpass
    exact ⟨username, password, Option.some.inj haccept, rest, rfl⟩
  · cases h

/-- When a client that has to authenticate may go on. -/
theorem negotiate_iff :
    (negotiate (some c) answers stream).2 = true ↔
      (answers.selection = true ∧ answers.response = true) ∧
        ∃ username password, Presents stream username password ∧
          c.accept username password = true := by
  constructor
  · intro h
    unfold negotiate at h
    split at h
    swap
    · cases h
    split at h
    · cases h
    rename_i methods _ hmethods
    simp only [Option.isSome_some, if_true] at h
    split at h
    · cases h
    split at h
    · cases h
    rename_i hoffered
    split at h
    · cases h
    rename_i accepted hauth
    obtain ⟨hresponse, rfl⟩ := Bool.and_eq_true_iff.1 h
    obtain ⟨username, password, haccept, rest, rfl⟩ := authenticate_eq_true hauth
    obtain rfl := eq_of_receiveField hmethods
    simp at hoffered
    exact ⟨⟨hoffered.1, hresponse⟩, username, password, ⟨methods, hoffered.2, rest, rfl⟩, haccept⟩
  · rintro ⟨⟨hselection, hresponse⟩, username, password, ⟨methods, hoffered, rest, rfl⟩, haccept⟩
    simp [negotiate, authenticate, receiveField_encode, hselection, hresponse, hoffered,
      ne_nil_of_mem hoffered, haccept]

/-- **Authentication compares what comes before a NUL.**  A client that has to authenticate may go
on exactly if it offers the method and sends the configured user name and password, unless it sends
them with a NUL and more behind it. -/
theorem negotiate_spec_iff (c : Credentials) (answers : Answers) (stream : Bytes) :
    ((negotiate (some c) answers stream).2 = true ↔
      (answers.selection = true ∧ answers.response = true) ∧
        Presents stream c.username c.password) ↔
    (answers.selection = true ∧ answers.response = true → ∀ username password,
      Presents stream username password → c.accept username password = true →
        0 ∉ username.content ∧ 0 ∉ password.content) := by
  rw [negotiate_iff]
  constructor
  · rintro hspec hsent username password ⟨methods, hoffered, rest, rfl⟩ haccept
    obtain ⟨-, methods', -, rest', heq⟩ :=
      hspec.1 ⟨hsent, username, password, ⟨methods, hoffered, rest, rfl⟩, haccept⟩
    -- A stream can be read in one way only, so the fields are the configured ones.
    obtain ⟨-, hrequest⟩ := encode_append_inj (cons.inj heq).2
    obtain ⟨rfl, hpass⟩ := encode_append_inj (cons.inj hrequest).2
    obtain ⟨rfl, -⟩ := encode_append_inj hpass
    exact ⟨c.username_nul, c.password_nul⟩
  · intro hnul
    constructor
    · rintro ⟨hsent, username, password, hpresents, haccept⟩
      obtain ⟨huser, hpass⟩ := hnul hsent username password hpresents haccept
      rw [accept_iff, untilNul_eq_self huser, untilNul_eq_self hpass] at haccept
      rw [← Field.ext haccept.1, ← Field.ext haccept.2]
      exact ⟨hsent, hpresents⟩
    · rintro ⟨hsent, hpresents⟩
      exact ⟨hsent, c.username, c.password, hpresents,
        accept_iff.2 ⟨untilNul_eq_self c.username_nul, untilNul_eq_self c.password_nul⟩⟩

/-- The user "u" with the password "p". -/
def lettersUP : Credentials :=
  ⟨⟨bytes "u", by decide⟩, ⟨bytes "p", by decide⟩, by decide, by decide⟩

/-- The user name "u", NUL, "x" is accepted for "u". -/
theorem longer_username_accepted :
    negotiate (some lettersUP) {} [5, 1, 2, 1, 3, 117, 0, 120, 1, 112] = ([[5, 2], [1, 0]], true) ∧
      Presents [5, 1, 2, 1, 3, 117, 0, 120, 1, 112] ⟨[117, 0, 120], by decide⟩ lettersUP.password ∧
      lettersUP.username.content ≠ [117, 0, 120] :=
  ⟨by decide, ⟨⟨[2], by decide⟩, by decide, [], rfl⟩, by decide⟩

end ClambHook.Socks
