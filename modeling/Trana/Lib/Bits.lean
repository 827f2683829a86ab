import Mathlib.Data.Nat.Bitwise
import Trana.Lib.ByteCodec

/-!
# Numbers as bits

`bits w n` writes a number in so many bits, most significant first, as formats
that regroup bytes do. Higher bits are cut off, as a store of `w` bits does.

An accumulator that takes in six bits and gives out eight holds a number whose
bits are those not given out yet. Its shifts and masks are multiplications and
remainders by powers of two, and the lemmas here turn them into appending and
splitting lists of bits, so that the loop invariant is an equation between
lists.

* `bits_mul_add` — a number with another one shifted in behind it.
* `bits_add` — the other way, the low bits split off.
* `byteBits` — the bits of a byte string.
-/

namespace Trana.Lib

/-- The `w` low bits of `n`, most significant first. -/
def bits : Nat → Nat → List Bool
  | 0, _ => []
  | w + 1, n => n.testBit w :: bits w n

@[simp] theorem length_bits (w n : Nat) : (bits w n).length = w := by
  induction w with
  | zero => rfl
  | succ w ih => rw [bits, List.length_cons, ih]

/-- Higher bits are not looked at. -/
theorem bits_congr {w m n : Nat} (h : ∀ i < w, m.testBit i = n.testBit i) :
    bits w m = bits w n := by
  induction w with
  | zero => rfl
  | succ w ih => rw [bits, bits, h w (by omega), ih fun i hi => h i (by omega)]

/-- Shifting `a` up by `w` and adding a smaller `b` writes the bits of `a` in front
of those of `b`; by induction on `w`. -/
theorem bits_mul_add {v w a b : Nat} (hb : b < 2 ^ w) :
    bits (v + w) (a * 2 ^ w + b) = bits v a ++ bits w b := by
  have htest : ∀ j, (a * 2 ^ w + b).testBit j =
      if j < w then b.testBit j else a.testBit (j - w) := fun j => by
    rw [Nat.mul_comm]
    exact Nat.testBit_two_pow_mul_add a hb j
  induction v with
  | zero =>
    rw [Nat.zero_add]
    refine bits_congr fun i hi => ?_
    rw [htest, if_pos hi]
  | succ v ih =>
    have hhead : (a * 2 ^ w + b).testBit (v + w) = a.testBit v := by
      rw [htest, if_neg (by omega), Nat.add_sub_cancel]
    rw [Nat.add_right_comm, bits, ih, hhead]
    rfl

/-- Splitting off the low bits. -/
theorem bits_add {v w n : Nat} : bits (v + w) n = bits v (n / 2 ^ w) ++ bits w (n % 2 ^ w) := by
  rw [← bits_mul_add (Nat.mod_lt _ (Nat.two_pow_pos w)), Nat.div_add_mod']

/-! ## Lists of numbers -/

/-- `w` bits for each number. -/
theorem length_flatMap_bits (w : Nat) (ns : List Nat) :
    (ns.flatMap (bits w)).length = w * ns.length := by
  induction ns with
  | nil => rfl
  | cons n ns ih =>
    rw [List.flatMap_cons, List.length_append, ih, length_bits, List.length_cons, Nat.mul_succ,
      Nat.add_comm]

/-- The bits of a byte string. -/
def byteBits (bs : Bytes) : List Bool := bs.flatMap fun b => bits 8 b.toNat

@[simp] theorem length_byteBits (bs : Bytes) : (byteBits bs).length = 8 * bs.length := by
  induction bs with
  | nil => rfl
  | cons b bs ih =>
    rw [byteBits, List.flatMap_cons, List.length_append, length_bits, ← byteBits, ih,
      List.length_cons]
    omega

/-- The bits of two byte strings behind each other. -/
theorem byteBits_append (a b : Bytes) : byteBits (a ++ b) = byteBits a ++ byteBits b :=
  List.flatMap_append

end Trana.Lib
