import Trana.Lib.ByteCodec

/-!
# SHA-256

FIPS 180-4 over byte lists, as an executable definition. Nothing is assumed
about it: where a result needs that no two messages collide it says so for
the messages it is about (`CollisionFree`), which is a satisfiable statement
about this very function.

Collision resistance cannot be a hypothesis for all messages at once: there are
more messages than digests, so some collide and the hypothesis would be false.
Two given messages either are the same, or have different digests, or are a
collision that someone has found; a result about two signatures takes the second
case as its hypothesis on their two messages and nothing beyond.

The message schedule is kept newest word first, so that `W[t-2]`, `W[t-7]`,
`W[t-15]` and `W[t-16]` are the list's entries 1, 6, 14 and 15. A message of
`2 ^ 61` bytes or more has its length in bits cut off at 64 bits; the standard
does not define a digest for it.

* `sha256` — the digest, 32 bytes (`length_sha256`).
* `CollisionFree` — decidable, so that a witness can evaluate it.
-/

namespace Trana.Lib

namespace Sha256

/-- The 32-bit words the compression function works on. -/
abbrev Word := BitVec 32

/-- The round constants. -/
def roundConstants : List Word := [
  0x428a2f98, 0x71374491, 0xb5c0fbcf, 0xe9b5dba5, 0x3956c25b, 0x59f111f1, 0x923f82a4, 0xab1c5ed5,
  0xd807aa98, 0x12835b01, 0x243185be, 0x550c7dc3, 0x72be5d74, 0x80deb1fe, 0x9bdc06a7, 0xc19bf174,
  0xe49b69c1, 0xefbe4786, 0x0fc19dc6, 0x240ca1cc, 0x2de92c6f, 0x4a7484aa, 0x5cb0a9dc, 0x76f988da,
  0x983e5152, 0xa831c66d, 0xb00327c8, 0xbf597fc7, 0xc6e00bf3, 0xd5a79147, 0x06ca6351, 0x14292967,
  0x27b70a85, 0x2e1b2138, 0x4d2c6dfc, 0x53380d13, 0x650a7354, 0x766a0abb, 0x81c2c92e, 0x92722c85,
  0xa2bfe8a1, 0xa81a664b, 0xc24b8b70, 0xc76c51a3, 0xd192e819, 0xd6990624, 0xf40e3585, 0x106aa070,
  0x19a4c116, 0x1e376c08, 0x2748774c, 0x34b0bcb5, 0x391c0cb3, 0x4ed8aa4a, 0x5b9cca4f, 0x682e6ff3,
  0x748f82ee, 0x78a5636f, 0x84c87814, 0x8cc70208, 0x90befffa, 0xa4506ceb, 0xbef9a3f7, 0xc67178f2]

/-- The six logical functions of section 4.1.2, in the standard's order. -/
def ch (x y z : Word) : Word := (x &&& y) ^^^ (~~~x &&& z)
def maj (x y z : Word) : Word := (x &&& y) ^^^ (x &&& z) ^^^ (y &&& z)
def bigSigma0 (x : Word) : Word := x.rotateRight 2 ^^^ x.rotateRight 13 ^^^ x.rotateRight 22
def bigSigma1 (x : Word) : Word := x.rotateRight 6 ^^^ x.rotateRight 11 ^^^ x.rotateRight 25
def smallSigma0 (x : Word) : Word := x.rotateRight 7 ^^^ x.rotateRight 18 ^^^ x >>> 3
def smallSigma1 (x : Word) : Word := x.rotateRight 17 ^^^ x.rotateRight 19 ^^^ x >>> 10

/-- The first `n` big-endian words of a byte string. -/
def words : Nat → Bytes → List Word
  | n + 1, a :: b :: c :: d :: rest =>
    BitVec.ofNat 32 (((a.toNat * 256 + b.toNat) * 256 + c.toNat) * 256 + d.toNat) :: words n rest
  | _, _ => []

/-- `n` further schedule words on top of `w`, newest first. -/
def extend : Nat → List Word → List Word
  | 0, w => w
  | n + 1, w =>
    extend n
      ((smallSigma1 (w.getD 1 0) + w.getD 6 0 + smallSigma0 (w.getD 14 0) + w.getD 15 0) :: w)

/-- The 64 schedule words of one 64-byte block, oldest first. -/
def schedule (block : Bytes) : List Word := (extend 48 (words 16 block).reverse).reverse

/-- The eight working variables, and the hash value between blocks. -/
structure State where
  (a b c d e f g h : Word)

/-- The initial hash value. -/
def initial : State :=
  ⟨0x6a09e667, 0xbb67ae85, 0x3c6ef372, 0xa54ff53a, 0x510e527f, 0x9b05688c, 0x1f83d9ab, 0x5be0cd19⟩

/-- One round with its constant and schedule word. -/
def round (s : State) (kw : Word × Word) : State :=
  let t1 := s.h + bigSigma1 s.e + ch s.e s.f s.g + kw.1 + kw.2
  let t2 := bigSigma0 s.a + maj s.a s.b s.c
  ⟨t1 + t2, s.a, s.b, s.c, s.d + t1, s.e, s.f, s.g⟩

/-- Compress one block: the working variables after 64 rounds are added to what
they were. -/
def compress (s : State) (block : Bytes) : State :=
  let r := (roundConstants.zip (schedule block)).foldl round s
  ⟨s.a + r.a, s.b + r.b, s.c + r.c, s.d + r.d, s.e + r.e, s.f + r.f, s.g + r.g, s.h + r.h⟩

/-- The message, a one bit, zeros up to a block boundary less eight bytes, and
the bit length. -/
def pad (m : Bytes) : Bytes :=
  m ++ 0x80 :: List.replicate ((119 - m.length % 64) % 64) 0 ++ (leBytes 8 (m.length * 8)).reverse

/-- The padded message in blocks of 64 bytes. -/
def blocks : Nat → Bytes → List Bytes
  | 0, _ => []
  | n + 1, bs => bs.take 64 :: blocks n (bs.drop 64)

/-- The big-endian bytes of a word. -/
def wordBytes (w : Word) : Bytes := (leBytes 4 w.toNat).reverse

/-- The eight words of a state, big-endian. -/
def State.bytes (s : State) : Bytes :=
  [s.a, s.b, s.c, s.d, s.e, s.f, s.g, s.h].flatMap wordBytes

end Sha256

/-- SHA-256 of a byte string. -/
@[irreducible] def sha256 (m : Bytes) : Bytes :=
  ((Sha256.blocks ((Sha256.pad m).length / 64) (Sha256.pad m)).foldl
    Sha256.compress Sha256.initial).bytes

/-- A digest has 32 bytes. -/
@[simp] theorem length_sha256 (m : Bytes) : (sha256 m).length = 32 := by
  unfold sha256
  simp [Sha256.State.bytes, Sha256.wordBytes]

/-- `x` and `y` are not a SHA-256 collision. -/
def CollisionFree (x y : Bytes) : Prop := sha256 x = sha256 y → x = y

instance (x y : Bytes) : Decidable (CollisionFree x y) :=
  inferInstanceAs (Decidable (sha256 x = sha256 y → x = y))

/-- A message does not collide with itself. -/
theorem collisionFree_refl (x : Bytes) : CollisionFree x x := fun _ => rfl

-- The digest of "abc" in the standard.
example : sha256 [97, 98, 99] =
    [0xba, 0x78, 0x16, 0xbf, 0x8f, 0x01, 0xcf, 0xea, 0x41, 0x41, 0x40, 0xde, 0x5d, 0xae, 0x22, 0x23,
     0xb0, 0x03, 0x61, 0xa3, 0x96, 0x17, 0x7a, 0x9c, 0xb4, 0x10, 0xff, 0x61, 0xf2, 0x00, 0x15,
     0xad] := by
  decide +kernel

end Trana.Lib
