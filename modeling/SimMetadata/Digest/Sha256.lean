import SimMetadata.Text.Utf8

/-!
# SHA-256

The compiled form of a scripting source records the SHA-256 digest of its payload. This is the
hash function of the Secure Hash Standard: the message is padded to blocks of 64 bytes, each
block is expanded to 64 words, and 64 rounds mix the words into eight words of state.

## Main definitions

* `digest`: the hash, thirty-two bytes by `length_digest`.
-/

namespace SimMetadata.Digest.Sha256

/-- The word rotated to the right. -/
def rotateRight (x : UInt32) (n : UInt32) : UInt32 := (x >>> n) ||| (x <<< (32 - n))

/-- The constants of the 64 rounds. -/
def roundConstants : List UInt32 :=
  [0x428a2f98, 0x71374491, 0xb5c0fbcf, 0xe9b5dba5, 0x3956c25b, 0x59f111f1, 0x923f82a4, 0xab1c5ed5,
    0xd807aa98, 0x12835b01, 0x243185be, 0x550c7dc3, 0x72be5d74, 0x80deb1fe, 0x9bdc06a7, 0xc19bf174,
    0xe49b69c1, 0xefbe4786, 0x0fc19dc6, 0x240ca1cc, 0x2de92c6f, 0x4a7484aa, 0x5cb0a9dc, 0x76f988da,
    0x983e5152, 0xa831c66d, 0xb00327c8, 0xbf597fc7, 0xc6e00bf3, 0xd5a79147, 0x06ca6351, 0x14292967,
    0x27b70a85, 0x2e1b2138, 0x4d2c6dfc, 0x53380d13, 0x650a7354, 0x766a0abb, 0x81c2c92e, 0x92722c85,
    0xa2bfe8a1, 0xa81a664b, 0xc24b8b70, 0xc76c51a3, 0xd192e819, 0xd6990624, 0xf40e3585, 0x106aa070,
    0x19a4c116, 0x1e376c08, 0x2748774c, 0x34b0bcb5, 0x391c0cb3, 0x4ed8aa4a, 0x5b9cca4f, 0x682e6ff3,
    0x748f82ee, 0x78a5636f, 0x84c87814, 0x8cc70208, 0x90befffa, 0xa4506ceb, 0xbef9a3f7, 0xc67178f2]

/-- The eight words that the rounds mix. -/
structure State where
  a : UInt32
  b : UInt32
  c : UInt32
  d : UInt32
  e : UInt32
  f : UInt32
  g : UInt32
  h : UInt32
  deriving DecidableEq, Inhabited

/-- The state before the first block. -/
def State.initial : State :=
  ⟨0x6a09e667, 0xbb67ae85, 0x3c6ef372, 0xa54ff53a, 0x510e527f, 0x9b05688c, 0x1f83d9ab, 0x5be0cd19⟩

/-- The words of two states added. -/
def State.add (s t : State) : State :=
  ⟨s.a + t.a, s.b + t.b, s.c + t.c, s.d + t.d, s.e + t.e, s.f + t.f, s.g + t.g, s.h + t.h⟩

/-- One round with a constant and a word of the schedule. -/
def State.round (s : State) (k w : UInt32) : State :=
  let sum1 := rotateRight s.e 6 ^^^ rotateRight s.e 11 ^^^ rotateRight s.e 25
  let choice := (s.e &&& s.f) ^^^ ((s.e ^^^ 0xFFFFFFFF) &&& s.g)
  let t1 := s.h + sum1 + choice + k + w
  let sum0 := rotateRight s.a 2 ^^^ rotateRight s.a 13 ^^^ rotateRight s.a 22
  let majority := (s.a &&& s.b) ^^^ (s.a &&& s.c) ^^^ (s.b &&& s.c)
  ⟨t1 + (sum0 + majority), s.a, s.b, s.c, s.d + t1, s.e, s.f, s.g⟩

/-- The bytes of a word, most significant first. -/
def bigEndian32 (x : UInt32) : Bytes :=
  [(x >>> 24).toUInt8, (x >>> 16).toUInt8, (x >>> 8).toUInt8, x.toUInt8]

/-- The bytes of the state. -/
def State.toBytes (s : State) : Bytes :=
  [s.a, s.b, s.c, s.d, s.e, s.f, s.g, s.h].flatMap bigEndian32

/-- The words that groups of four bytes spell, most significant byte first. -/
def words : Bytes → List UInt32
  | p :: q :: r :: s :: rest =>
    ((p.toUInt32 <<< 24) ||| (q.toUInt32 <<< 16) ||| (r.toUInt32 <<< 8) ||| s.toUInt32)
      :: words rest
  | _ => []

/-- The next word of a schedule, whose last words stand first in the list. -/
def nextWord (recent : List UInt32) : UInt32 :=
  let at2 := recent.getD 1 0
  let at15 := recent.getD 14 0
  let sigma1 := rotateRight at2 17 ^^^ rotateRight at2 19 ^^^ (at2 >>> 10)
  let sigma0 := rotateRight at15 7 ^^^ rotateRight at15 18 ^^^ (at15 >>> 3)
  sigma1 + recent.getD 6 0 + sigma0 + recent.getD 15 0

/-- The 64 words that a block of sixteen words is expanded to. -/
def schedule (block : List UInt32) : List UInt32 :=
  ((List.range 48).foldl (fun recent _ => nextWord recent :: recent) block.reverse).reverse

/-- The state after one more block. -/
def State.absorb (s : State) (block : List UInt32) : State :=
  s.add (((roundConstants.zip (schedule block)).foldl (fun t kw => t.round kw.1 kw.2)) s)

/-- The state after the words, sixteen at a time; the number is how many blocks there are. -/
def State.absorbAll : Nat → State → List UInt32 → State
  | 0, s, _ => s
  | n + 1, s, ws => State.absorbAll n (s.absorb (ws.take 16)) (ws.drop 16)

/-- The bytes of a length, most significant first. -/
def bigEndian64 (n : Nat) : Bytes :=
  (List.range 8).map fun i => UInt8.ofNat (n >>> (8 * (7 - i)))

/-- The message, a one bit, zeros up to eight bytes short of a block, and its length in bits. -/
def pad (message : Bytes) : Bytes :=
  message ++ 0x80 :: List.replicate ((119 - message.length % 64) % 64) 0
    ++ bigEndian64 (8 * message.length)

/-- The SHA-256 digest of a message. -/
def digest (message : Bytes) : Bytes :=
  let ws := words (pad message)
  (State.initial.absorbAll (ws.length / 16) ws).toBytes

@[simp] theorem length_bigEndian32 (x : UInt32) : (bigEndian32 x).length = 4 := rfl

/-- A digest has thirty-two bytes. -/
@[simp] theorem length_digest (message : Bytes) : (digest message).length = 32 := by
  simp [digest, State.toBytes]

end SimMetadata.Digest.Sha256
