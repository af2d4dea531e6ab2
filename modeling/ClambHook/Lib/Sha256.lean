import Mathlib.Data.List.Basic

/-!
# SHA-256

The hash of a byte string, over the padded message in blocks of 64 bytes.
-/

set_option autoImplicit false

namespace Sha256

/-- A rotation to the right. -/
def rotr (value : UInt32) (count : UInt32) : UInt32 :=
  (value >>> count) ||| (value <<< (32 - count))

def constants : List UInt32 :=
  [0x428a2f98, 0x71374491, 0xb5c0fbcf, 0xe9b5dba5, 0x3956c25b, 0x59f111f1, 0x923f82a4, 0xab1c5ed5,
    0xd807aa98, 0x12835b01, 0x243185be, 0x550c7dc3, 0x72be5d74, 0x80deb1fe, 0x9bdc06a7, 0xc19bf174,
    0xe49b69c1, 0xefbe4786, 0x0fc19dc6, 0x240ca1cc, 0x2de92c6f, 0x4a7484aa, 0x5cb0a9dc, 0x76f988da,
    0x983e5152, 0xa831c66d, 0xb00327c8, 0xbf597fc7, 0xc6e00bf3, 0xd5a79147, 0x06ca6351, 0x14292967,
    0x27b70a85, 0x2e1b2138, 0x4d2c6dfc, 0x53380d13, 0x650a7354, 0x766a0abb, 0x81c2c92e, 0x92722c85,
    0xa2bfe8a1, 0xa81a664b, 0xc24b8b70, 0xc76c51a3, 0xd192e819, 0xd6990624, 0xf40e3585, 0x106aa070,
    0x19a4c116, 0x1e376c08, 0x2748774c, 0x34b0bcb5, 0x391c0cb3, 0x4ed8aa4a, 0x5b9cca4f, 0x682e6ff3,
    0x748f82ee, 0x78a5636f, 0x84c87814, 0x8cc70208, 0x90befffa, 0xa4506ceb, 0xbef9a3f7, 0xc67178f2]

/-- The chaining value. -/
structure State where
  a : UInt32
  b : UInt32
  c : UInt32
  d : UInt32
  e : UInt32
  f : UInt32
  g : UInt32
  h : UInt32

def State.init : State :=
  ⟨0x6a09e667, 0xbb67ae85, 0x3c6ef372, 0xa54ff53a, 0x510e527f, 0x9b05688c, 0x1f83d9ab, 0x5be0cd19⟩

/-- The big-endian words of a block. -/
def words : List UInt8 → List UInt32
  | a :: b :: c :: d :: bytes =>
    ((a.toUInt32 <<< 24) ||| (b.toUInt32 <<< 16) ||| (c.toUInt32 <<< 8) ||| d.toUInt32) ::
      words bytes
  | _ => []

/-- The message schedule, from the words so far with the last one first. -/
def schedule : Nat → List UInt32 → List UInt32
  | 0, ws => ws.reverse
  | left + 1, ws =>
    let first := ws.getD 14 0
    let second := ws.getD 1 0
    let sigma0 := rotr first 7 ^^^ rotr first 18 ^^^ (first >>> 3)
    let sigma1 := rotr second 17 ^^^ rotr second 19 ^^^ (second >>> 10)
    schedule left ((ws.getD 15 0 + sigma0 + ws.getD 6 0 + sigma1) :: ws)

/-- One round, with its constant and its word. -/
def round (s : State) (constant word : UInt32) : State :=
  let big1 := rotr s.e 6 ^^^ rotr s.e 11 ^^^ rotr s.e 25
  let choose := (s.e &&& s.f) ^^^ (~~~ s.e &&& s.g)
  let first := s.h + big1 + choose + constant + word
  let big0 := rotr s.a 2 ^^^ rotr s.a 13 ^^^ rotr s.a 22
  let majority := (s.a &&& s.b) ^^^ (s.a &&& s.c) ^^^ (s.b &&& s.c)
  ⟨first + (big0 + majority), s.a, s.b, s.c, s.d + first, s.e, s.f, s.g⟩

/-- The chaining value behind a block. -/
def transform (s : State) (block : List UInt8) : State :=
  let ws := schedule 48 (words block).reverse
  let t := (constants.zip ws).foldl (fun t (constant, word) ↦ round t constant word) s
  ⟨s.a + t.a, s.b + t.b, s.c + t.c, s.d + t.d, s.e + t.e, s.f + t.f, s.g + t.g, s.h + t.h⟩

/-- The chaining value behind a number of blocks. -/
def transformAll : Nat → State → List UInt8 → State
  | 0, s, _ => s
  | blocks + 1, s, bytes => transformAll blocks (transform s (bytes.take 64)) (bytes.drop 64)

/-- The message with a bit, zeros and its length in bits. -/
def pad (message : List UInt8) : List UInt8 :=
  message ++ 0x80 :: List.replicate ((119 - message.length % 64) % 64) (0 : UInt8) ++
    (List.range 8).map fun i ↦ ((message.length * 8) >>> (8 * (7 - i)) : Nat).toUInt8

def wordBytes (w : UInt32) : List UInt8 :=
  [(w >>> 24).toUInt8, (w >>> 16).toUInt8, (w >>> 8).toUInt8, w.toUInt8]

/-- The hash, 32 bytes. -/
def digest (message : List UInt8) : List UInt8 :=
  let padded := pad message
  let s := transformAll (padded.length / 64) State.init padded
  [s.a, s.b, s.c, s.d, s.e, s.f, s.g, s.h].flatMap wordBytes

theorem length_digest (message : List UInt8) : (digest message).length = 32 := rfl

end Sha256
