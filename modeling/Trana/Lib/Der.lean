import Trana.Lib.BigEndian

/-!
# DER

The distinguished encoding of the few ASN.1 types that signatures and public
keys are made of: nested values of a tag, a length and contents.

Only the writer is here. The programs read DER at fixed offsets, without a
parser, and what is shown of them is that they find in a written value what was
put into it; that they would also take other bytes for a value is no concern of
the format's. An integer is two's complement, so a number whose top bit is set
has a zero byte in front, and this is the one place where two signatures of one
length have different layouts.

* `integerContents_cases` — an integer of at most 32 bytes has them as its
  contents, or a zero byte in front of all 32 when its top bit is set.
* `sequence_integers` — the bytes of a sequence of two such integers.
* `tlv_short` — below 128 bytes a length is one byte; nothing longer occurs in
  a signature.
-/

namespace Trana.Lib.Der

/-- The digits of a number to the base 256, most significant first. -/
def natBytes (n : Nat) : Bytes := (Nat.digits 256 n).reverse.map UInt8.ofNat

/-- One byte up to 127, else the number of length bytes and these. -/
def lengthBytes (n : Nat) : Bytes :=
  if n < 128 then [UInt8.ofNat n] else UInt8.ofNat (128 + (natBytes n).length) :: natBytes n

/-- Tag, length and contents. A length from 128 on is written with the number of its
own bytes in front. -/
def tlv (tag : UInt8) (contents : Bytes) : Bytes :=
  tag :: lengthBytes contents.length ++ contents

/-- The shortest two's complement form: a zero byte in front when the top bit
is set, and for zero. -/
def integerContents (n : Nat) : Bytes :=
  match natBytes n with
  | [] => [0]
  | b :: bs => if b < 128 then b :: bs else 0 :: b :: bs

/-- A number that is not negative. -/
def integer (n : Nat) : Bytes := tlv 0x02 (integerContents n)

/-- A bit string of whole bytes: no unused bits. -/
def bitString (bs : Bytes) : Bytes := tlv 0x03 (0 :: bs)

/-- Values behind each other. -/
def sequence (items : List Bytes) : Bytes := tlv 0x30 items.flatten

/-- The digits of an arc to the base 128; all but the last have the top bit set. -/
def arcBytes (n : Nat) : Bytes :=
  match Nat.digits 128 n with
  | [] => [0]
  | d :: ds => (ds.reverse.map fun d => UInt8.ofNat (128 + d)) ++ [UInt8.ofNat d]

/-- An object identifier; its first two arcs share a byte. -/
def oid (first second : Nat) (arcs : List Nat) : Bytes :=
  tlv 0x06 (arcBytes (40 * first + second) ++ arcs.flatMap arcBytes)

variable {n w : Nat} {contents : Bytes}

/-- Below 128 the length is one byte. -/
theorem tlv_short (tag : UInt8) (h : contents.length < 128) :
    tlv tag contents = tag :: UInt8.ofNat contents.length :: contents := by
  rw [tlv, lengthBytes, if_pos h]
  rfl

/-! ## Integers -/

/-- The shortest bytes of a number spell it. -/
theorem beNat_natBytes (n : Nat) : beNat (natBytes n) = n := by
  have hspell : ∀ ds : List Nat, (∀ d ∈ ds, d < 256) →
      leNat (ds.map UInt8.ofNat) = Nat.ofDigits 256 ds := fun ds hds => by
    induction ds with
    | nil => rfl
    | cons d ds ih =>
      obtain ⟨hd, hds⟩ := List.forall_mem_cons.mp hds
      rw [List.map_cons, leNat, ih hds, UInt8.toNat_ofNat_of_lt' hd, Nat.ofDigits_cons]
  rw [beNat, natBytes, ← List.map_reverse, List.reverse_reverse,
    hspell _ fun d hd => Nat.digits_lt_base (by omega) hd, Nat.ofDigits_digits]

/-- They are no more than any width it fits in. -/
theorem length_natBytes_le (h : n < 256 ^ w) : (natBytes n).length ≤ w := by
  rw [natBytes, List.length_map, List.length_reverse]
  exact (Nat.digits_length_le_iff (by omega) n).mpr h

/-- Without its sign byte an integer is its number. -/
theorem integerContents_cases (h : n < 256 ^ w) (hpos : 0 < w) :
    ((integerContents n).length ≤ w ∧ beNat (integerContents n) = n) ∨
      ∃ bs, integerContents n = 0 :: bs ∧ bs.length = w ∧ beNat bs = n := by
  have hnat := beNat_natBytes n
  have hlen := length_natBytes_le h
  have hzero : ∀ bs : Bytes, beNat (0 :: bs) = beNat bs := beNat_zeros 1
  unfold integerContents
  split
  next hnil =>
    rw [hnil] at hnat
    exact Or.inl ⟨hpos, hnat ▸ rfl⟩
  next b bs hcons =>
    rw [hcons] at hnat hlen
    split
    next => exact Or.inl ⟨hlen, hnat⟩
    next =>
      rcases Nat.lt_or_eq_of_le hlen with hlt | heq
      · exact Or.inl ⟨hlt, (hzero _).trans hnat⟩
      · exact Or.inr ⟨_, rfl, heq, hnat⟩

/-- With the byte that keeps the sign positive there may be one more. -/
theorem length_integerContents_le (h : n < 256 ^ w) (hpos : 0 < w) :
    (integerContents n).length ≤ w + 1 := by
  rcases integerContents_cases h hpos with ⟨hle, -⟩ | ⟨bs, heq, hlen, -⟩
  · omega
  · rw [heq, List.length_cons, hlen]

/-- Two integers in a sequence, in the short form of every length. -/
theorem sequence_integers {m n : Nat} (hm : m < 256 ^ 32) (hn : n < 256 ^ 32) :
    ∃ t : UInt8, t < 128 ∧ sequence [integer m, integer n] =
      0x30 :: t :: 0x02 :: UInt8.ofNat (integerContents m).length ::
        (integerContents m ++ 0x02 :: UInt8.ofNat (integerContents n).length ::
          integerContents n) := by
  have hmlen := length_integerContents_le hm (by omega)
  have hnlen := length_integerContents_le hn (by omega)
  have hflat : [integer m, integer n].flatten =
      0x02 :: UInt8.ofNat (integerContents m).length ::
        (integerContents m ++ 0x02 :: UInt8.ofNat (integerContents n).length ::
          integerContents n) := by
    rw [integer, integer, tlv_short _ (by omega), tlv_short _ (by omega)]
    simp
  have htotal : [integer m, integer n].flatten.length < 128 := by
    rw [hflat]
    simp only [List.length_cons, List.length_append]
    omega
  refine ⟨UInt8.ofNat [integer m, integer n].flatten.length, ?_, ?_⟩
  · rw [UInt8.lt_iff_toNat_lt, UInt8.toNat_ofNat_of_lt' (show _ < 256 by omega)]
    exact htotal
  · rw [sequence, tlv_short _ htotal, hflat]

end Trana.Lib.Der
