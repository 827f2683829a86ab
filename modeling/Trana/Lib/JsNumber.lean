import Mathlib.Algebra.Ring.Int.Defs
import Mathlib.Algebra.Ring.Nat

/-!
# JavaScript numbers

Arithmetic on numbers as JavaScript does it, where their values are integers:
sums and products are rounded to a double, bitwise operators work on the low 32
bits, read as signed, and `>>>` gives an unsigned result.

A number is an `Int` here, and `toDouble` is the rounding to the nearest double
with 53 significant bits, ties to even; there are no infinities among them, which
come up from `2 ^ 1024` on. Fractions and `NaN` have no place here either, so a
program whose numbers are not integers cannot be stated with this module. The
point of keeping the rounding is that a sum of several 32-bit words may leave the
32 bits and even the signed range before an operator cuts it down again, which is
right as long as the sum is exact.

* `word` — the 32 bits an operator takes of a number, and a `Uint32Array` keeps.
* `word_bitXor` and the like — the operators in bits.
* `bitAnd_bitNot` — a number rounded down to a multiple of 64.
* `Within`, `word_add` — sums of a few 32-bit numbers are exact.
-/

namespace Trana.Lib.JsNumber

/-- The 53 bits of a double, rounded to nearest and to even between two. -/
def roundNat (n : Nat) : Nat :=
  if n < 2 ^ 53 then n
  else
    let unit := 2 ^ (n.log2 - 52)
    let q := n / unit
    let r := n % unit
    (if 2 * r < unit then q else if unit < 2 * r then q + 1 else q + q % 2) * unit

/-- The double next to an integer. -/
def toDouble (z : Int) : Int := z.sign * roundNat z.natAbs

/-- `x + y` -/
def add (x y : Int) : Int := toDouble (x + y)

/-- `x - y` -/
def sub (x y : Int) : Int := toDouble (x - y)

/-- `x * y` -/
def mul (x y : Int) : Int := toDouble (x * y)

/-- `Math.floor(x / 2 ** k)`: dividing a double by a power of two is exact. -/
def floorDiv (x : Int) (k : Nat) : Int := x / 2 ^ k

/-- The 32 bits a bitwise operator works on. -/
abbrev Word := BitVec 32

/-- The 32 bits an operator takes of a number. -/
def word (x : Int) : Word := BitVec.ofInt 32 x

/-- What a `Uint32Array` gives for an element. -/
def num (w : Word) : Int := w.toNat

/-- `x & y` -/
def bitAnd (x y : Int) : Int := (word x &&& word y).toInt

/-- `x | y` -/
def bitOr (x y : Int) : Int := (word x ||| word y).toInt

/-- `x ^ y` -/
def bitXor (x y : Int) : Int := (word x ^^^ word y).toInt

/-- `~x` -/
def bitNot (x : Int) : Int := (~~~word x).toInt

/-- `x << n` -/
def shl (x n : Int) : Int := (word x <<< ((word n).toNat % 32)).toInt

/-- `x >>> n` -/
def ushr (x n : Int) : Int := num (word x >>> ((word n).toNat % 32))

variable {x y : Int} {k l : Nat}

/-! ## Bits -/

/-- The bits of an unsigned result. -/
@[simp] theorem word_num (w : Word) : word (num w) = w := by
  rw [word, num, BitVec.ofInt_natCast, BitVec.ofNat_toNat, BitVec.setWidth_eq]

/-- The bits of a signed result. -/
@[simp] theorem word_toInt (w : Word) : word w.toInt = w := BitVec.ofInt_toInt

/-- `&` is conjunction of the low 32 bits, whatever the operands are above them. -/
theorem word_bitAnd : word (bitAnd x y) = word x &&& word y := word_toInt _

/-- `|` in bits. -/
theorem word_bitOr : word (bitOr x y) = word x ||| word y := word_toInt _

/-- `^` in bits. -/
theorem word_bitXor : word (bitXor x y) = word x ^^^ word y := word_toInt _

/-- `~` in bits. -/
theorem word_bitNot : word (bitNot x) = ~~~word x := word_toInt _

/-- `<<` shifts by its right operand modulo 32. -/
theorem word_shl (x n : Int) : word (shl x n) = word x <<< ((word n).toNat % 32) := word_toInt _

/-- `>>>` shifts zeros in, by its right operand modulo 32. -/
theorem word_ushr (x n : Int) : word (ushr x n) = word x >>> ((word n).toNat % 32) := word_num _

/-- `x >>> 0` is the unsigned reading. -/
theorem ushr_zero (x : Int) : ushr x 0 = num (word x) := rfl

/-- The word without its low bits, and these. -/
theorem toNat_and_not (w mask : Word) : (w &&& ~~~mask).toNat + (w &&& mask).toNat = w.toNat := by
  have hdisjoint : (w &&& ~~~mask) &&& (w &&& mask) = 0#32 := by
    ext i
    simp only [BitVec.getElem_and, BitVec.getElem_not, BitVec.getElem_zero]
    cases w[i] <;> cases mask[i] <;> rfl
  have hjoin : (w &&& ~~~mask) ||| (w &&& mask) = w := by
    ext i
    simp only [BitVec.getElem_or, BitVec.getElem_and, BitVec.getElem_not]
    cases w[i] <;> cases mask[i] <;> rfl
  rw [← BitVec.toNat_add_of_and_eq_zero hdisjoint, BitVec.add_eq_or_of_and_eq_zero _ _ hdisjoint,
    hjoin]

/-- A number below `2 ^ 32` is its own 32 bits. -/
theorem toNat_word {n : Nat} (h : n < 2 ^ 32) : (word n).toNat = n := by
  rw [word, BitVec.ofInt_natCast, BitVec.toNat_ofNat, Nat.mod_eq_of_lt h]

/-- `n & ~63` in bits is the multiple of 64 at or below. -/
theorem toNat_and_bitNot {n : Nat} (h : n < 2 ^ 32) :
    (word n &&& word (bitNot 63)).toNat = n / 64 * 64 := by
  have hlow : (word n &&& 63).toNat = n % 64 := by
    rw [BitVec.toNat_and, toNat_word h]
    exact Nat.and_two_pow_sub_one_eq_mod n 6
  have hsplit := toNat_and_not (word n) 63
  rw [hlow, toNat_word h] at hsplit
  rw [word_bitNot, show word 63 = 63 from rfl]
  omega

/-- `n & ~63` is `n` rounded down to a multiple of 64. -/
theorem bitAnd_bitNot {n : Nat} (h : n < 2 ^ 31) :
    bitAnd n (bitNot 63) = ((n / 64 * 64 : Nat) : Int) := by
  have hbits := toNat_and_bitNot (n := n) (by omega)
  rw [bitAnd, BitVec.toInt_eq_toNat_of_lt (by omega), hbits]

/-- From the sign bit on it is negative. -/
theorem bitAnd_bitNot_neg {n : Nat} (hlarge : 2 ^ 31 ≤ n) (h : n < 2 ^ 32) :
    bitAnd n (bitNot 63) < 0 := by
  have hbits := toNat_and_bitNot h
  rw [bitAnd, BitVec.toInt_neg_iff]
  omega

/-! ## Exact sums -/

/-- An integer below `2 ^ 53` is a double. -/
theorem toDouble_of_lt (h : x.natAbs < 2 ^ 53) : toDouble x = x := by
  rw [toDouble, roundNat, if_pos h, Int.sign_mul_natAbs]

/-- A difference that is not negative is exact. -/
theorem sub_natCast {a b n : Nat} (h : a + b = n) (hn : n < 2 ^ 53) : sub n b = a := by
  rw [sub, toDouble_of_lt (by omega)]
  omega

/-- Not larger than `k` numbers of 32 bits. -/
def Within (k : Nat) (x : Int) : Prop := x.natAbs ≤ k * 2 ^ 32

/-- An unsigned word is within one. -/
theorem within_num (w : Word) : Within 1 (num w) := by
  have hlt : w.toNat < 2 ^ 32 := w.isLt
  unfold Within num
  omega

/-- A signed word is within one. -/
theorem within_toInt (w : Word) : Within 1 w.toInt := by
  have hle := BitVec.toInt_le (x := w)
  have hge := BitVec.le_toInt (x := w)
  unfold Within
  omega

/-- A sum of at most `2 ^ 20` words is exact, and within as many words. -/
theorem add_eq (hx : Within k x) (hy : Within l y) (hkl : k + l ≤ 2 ^ 20) :
    add x y = x + y ∧ Within (k + l) (add x y) := by
  unfold Within at hx hy ⊢
  have hlt : (x + y).natAbs ≤ (k + l) * 2 ^ 32 := by omega
  have hexact : toDouble (x + y) = x + y := toDouble_of_lt (by omega)
  rw [add, hexact]
  exact ⟨rfl, hlt⟩

/-- How large such a sum is. -/
theorem Within.add (hx : Within k x) (hy : Within l y) (hkl : k + l ≤ 2 ^ 20) :
    Within (k + l) (add x y) :=
  (add_eq hx hy hkl).2

/-- And its low 32 bits are the sum of the words. -/
theorem word_add (hx : Within k x) (hy : Within l y) (hkl : k + l ≤ 2 ^ 20) :
    word (JsNumber.add x y) = word x + word y := by
  rw [(add_eq hx hy hkl).1, word, BitVec.ofInt_add]
  rfl

end Trana.Lib.JsNumber
