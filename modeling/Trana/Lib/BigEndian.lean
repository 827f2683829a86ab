import Mathlib.Data.List.GetD
import Trana.Lib.Text

/-!
# Big-endian numbers

Numbers of a fixed width as bytes, most significant first, and JavaScript's way
between the two, which goes by hexadecimal text.

`BigInt("0x" + hex)` reads a text, `n.toString(16).padStart(64, "0")` writes
one, and pairs of its characters are parsed into bytes. Each of these steps is
modelled as it is, on characters, and each has a lemma here that takes it back
to the number: a program that goes by text is as good as one that computes with
bytes, which is what the statements about signatures are about. The empty text
is the exception, `BigInt("0x")` throws, and the lemmas ask for at least one
byte where it matters.

* `beNat_beBytes`, `beBytes_beNat` — the round trips.
* `beBytes_of_beNat` — a shorter form of a number, right-aligned.
* `padStart_toHex` — the digits of a number, padded, are its bytes in hex.
* `ofHex?_hexEncode` — and are read back as the number.
* `parsePairs_hexEncode` — or two by two as the bytes.
-/

namespace Trana.Lib

/-- The number a big-endian byte string spells. -/
def beNat (bs : Bytes) : Nat := leNat bs.reverse

/-- The `w` low bytes of `n`, most significant first. -/
def beBytes (w n : Nat) : Bytes := (leBytes w n).reverse

variable {w n : Nat} {bs : Bytes}

@[simp] theorem length_beBytes (w n : Nat) : (beBytes w n).length = w := by
  rw [beBytes, List.length_reverse, length_leBytes]

/-- A number that fits in `w` bytes is spelt by them. -/
theorem beNat_beBytes (h : n < 256 ^ w) : beNat (beBytes w n) = n := by
  rw [beNat, beBytes, List.reverse_reverse, leNat_leBytes_of_lt h]

/-- The bytes of the number a byte string spells are that byte string. -/
theorem beBytes_beNat (bs : Bytes) : beBytes bs.length (beNat bs) = bs := by
  have hround := leBytes_leNat bs.reverse
  rw [List.length_reverse] at hround
  rw [beBytes, beNat, hround, List.reverse_reverse]

/-- One more byte behind shifts the number up by eight bits. -/
theorem beNat_append_singleton (bs : Bytes) (b : UInt8) :
    beNat (bs ++ [b]) = beNat bs * 256 + b.toNat := by
  rw [beNat, List.reverse_append, List.reverse_singleton, List.singleton_append, leNat, ← beNat]
  omega

/-- Zeros at the high end add nothing. -/
theorem leNat_zeros (k : Nat) (bs : Bytes) : leNat (bs ++ List.replicate k 0) = leNat bs := by
  induction bs with
  | nil =>
    induction k with
    | zero => rfl
    | succ k ih =>
      show (0 : UInt8).toNat + 256 * leNat ([] ++ List.replicate k 0) = 0
      rw [ih]
      rfl
  | cons b bs ih => rw [List.cons_append, leNat, ih, leNat]

/-- Zeros in front do not count. -/
theorem beNat_zeros (k : Nat) (bs : Bytes) : beNat (List.replicate k 0 ++ bs) = beNat bs := by
  rw [beNat, List.reverse_append, List.reverse_replicate, leNat_zeros, beNat]

/-- A shorter form of a number, zeros in front, is its form of width `w`. -/
theorem beBytes_of_beNat (hlen : bs.length ≤ w) (h : beNat bs = n) :
    List.replicate (w - bs.length) 0 ++ bs = beBytes w n := by
  have hround := beBytes_beNat (List.replicate (w - bs.length) 0 ++ bs)
  rw [beNat_zeros, h, List.length_append, List.length_replicate, Nat.sub_add_cancel hlen] at hround
  exact hround.symm

/-- The last byte is the low one. -/
theorem beBytes_succ (w n : Nat) :
    beBytes (w + 1) n = beBytes w (n / 256) ++ [UInt8.ofNat n] := by
  rw [beBytes, leBytes, List.reverse_cons, ← beBytes]

/-! ## Hexadecimal text -/

/-- A hex digit. -/
def hexDigit (d : Nat) : Char := hexAlphabet.getD d '0'

/-- The digits of a number without leading zeros; none for zero. -/
def hexDigits (n : Nat) : List Char := (Nat.digits 16 n).reverse.map hexDigit

/-- `n.toString(16)` -/
def toHex (n : Nat) : String := if n = 0 then "0" else String.ofList (hexDigits n)

/-- The same for a `BigInt` of either sign. -/
def toHexInt (z : Int) : String :=
  match z with
  | .ofNat n => toHex n
  | .negSucc n => "-" ++ toHex (n + 1)

/-- `text.padStart(length, "0")` -/
def padStart (length : Nat) (text : String) : String :=
  String.ofList (List.replicate (length - text.toList.length) '0') ++ text

/-- `BigInt("0x" + text)`: a syntax error unless these are hex digits. -/
def ofHex? (text : String) : Option Nat :=
  if text.toList = [] then none
  else (text.toList.mapM hexValue?).map fun ds => Nat.ofDigits 16 ds.reverse

/-- So many digits of a number. -/
def hexPadded : Nat → Nat → List Char
  | 0, _ => []
  | k + 1, n => hexPadded k (n / 16) ++ [hexDigit (n % 16)]

/-- Zero is all zeros. -/
theorem hexPadded_zero (k : Nat) : hexPadded k 0 = List.replicate k '0' := by
  induction k with
  | zero => rfl
  | succ k ih =>
    rw [hexPadded, Nat.zero_div, ih, List.replicate_succ']
    rfl

/-- The digits of a number: those of its sixteenth, and the last one. -/
theorem hexDigits_eq (h : n ≠ 0) : hexDigits n = hexDigits (n / 16) ++ [hexDigit (n % 16)] := by
  rw [hexDigits, Nat.digits_def' (by omega) (by omega), List.reverse_cons, List.map_append]
  rfl

/-- Filled up with zeros in front, the digits have the width asked for. -/
theorem replicate_hexDigits {k : Nat} (h : n < 16 ^ k) :
    List.replicate (k - (hexDigits n).length) '0' ++ hexDigits n = hexPadded k n := by
  induction k generalizing n with
  | zero =>
    obtain rfl : n = 0 := by omega
    rfl
  | succ k ih =>
    by_cases hn : n = 0
    · subst hn
      rw [hexPadded_zero]
      exact List.append_nil _
    · have hlt : n / 16 < 16 ^ k := by
        rw [Nat.pow_succ] at h
        omega
      rw [hexDigits_eq hn, List.length_append, List.length_singleton, Nat.add_sub_add_right,
        ← List.append_assoc, ih hlt, hexPadded]

/-- The digits of the bytes are the digits of the number. -/
theorem hexChars_beBytes (w n : Nat) : hexChars (beBytes w n) = hexPadded (2 * w) n := by
  induction w generalizing n with
  | zero => rfl
  | succ w ih =>
    have hlow : (UInt8.ofNat n).toNat = n % 256 := UInt8.toNat_ofNat'
    have hhigh : n % 256 / 16 = n / 16 % 16 := by omega
    have hdigit : n % 256 % 16 = n % 16 := by omega
    rw [beBytes_succ, hexChars, List.flatMap_append, ← hexChars, ih, Nat.mul_succ, hexPadded,
      hexPadded, Nat.div_div_eq_div_mul, List.append_assoc]
    simp only [List.flatMap_cons, List.flatMap_nil, List.append_nil, hlow, hhigh, hdigit]
    rfl

/-- `n.toString(16).padStart(2 * w, "0")` is the hexadecimal form of the `w` bytes. -/
theorem padStart_toHex (hw : 0 < w) (h : n < 256 ^ w) :
    padStart (2 * w) (toHex n) = hexEncode (beBytes w n) := by
  have hpow : 256 ^ w = 16 ^ (2 * w) := by rw [Nat.pow_mul]
  rw [hexEncode, hexChars_beBytes, ← replicate_hexDigits (hpow ▸ h), padStart, toHex]
  split
  next hzero =>
    subst hzero
    show String.ofList (List.replicate (2 * w - 1) '0') ++ String.ofList ['0'] =
      String.ofList (List.replicate (2 * w) '0' ++ [])
    rw [← String.ofList_append, ← List.replicate_succ', Nat.sub_add_cancel (by omega),
      List.append_nil]
  next => rw [String.toList_ofList, String.ofList_append]

/-- The characters of a hexadecimal text read back as half bytes. -/
theorem mapM_hexChars (bs : Bytes) :
    (hexChars bs).mapM hexValue? =
      some (bs.flatMap fun b => [b.toNat / 16, b.toNat % 16]) := by
  induction bs with
  | nil => rfl
  | cons b bs ih =>
    have hb : b.toNat < 256 := b.toNat_lt
    simp only [hexChars, List.flatMap_cons, List.cons_append, List.nil_append, List.mapM_cons,
      hexValue?_getD (show b.toNat / 16 < 16 by omega),
      hexValue?_getD (show b.toNat % 16 < 16 by omega)]
    rw [← hexChars, ih]
    rfl

/-- Half bytes spell the number the bytes do. -/
theorem ofDigits_nibbles (bs : Bytes) :
    Nat.ofDigits 16 (bs.flatMap fun b => [b.toNat / 16, b.toNat % 16]).reverse = beNat bs := by
  induction bs using List.reverseRecOn with
  | nil => rfl
  | append_singleton bs b ih =>
    rw [List.flatMap_append, List.reverse_append, beNat_append_singleton, ← ih]
    simp only [List.flatMap_cons, List.flatMap_nil, List.append_nil, List.reverse_cons,
      List.reverse_nil, List.nil_append, List.cons_append, Nat.ofDigits_cons]
    omega

/-- `BigInt("0x" + hex)` reads the bytes as a big-endian number. -/
theorem ofHex?_hexEncode (h : bs ≠ []) : ofHex? (hexEncode bs) = some (beNat bs) := by
  have hne : hexChars bs ≠ [] := by
    cases bs with
    | nil => exact absurd rfl h
    | cons b bs => simp [hexChars]
  rw [ofHex?, hexEncode, String.toList_ofList, if_neg hne, mapM_hexChars, Option.map_some,
    ofDigits_nibbles]

/-! ## Pairs of digits -/

/-- The number the hex digits at the start spell, if there are any. -/
def hexPrefix? (cs : List Char) : Option Nat :=
  match (cs.takeWhile fun c => (hexValue? c).isSome).filterMap hexValue? with
  | [] => none
  | d :: ds => some (Nat.ofDigits 16 (d :: ds).reverse)

/-- `parseInt(text, 16)` on text without white space or `0x`; `none` is `NaN`. -/
def parseHex : List Char → Option Int
  | '-' :: cs => (hexPrefix? cs).map fun n => -(n : Int)
  | '+' :: cs => (hexPrefix? cs).map Int.ofNat
  | cs => (hexPrefix? cs).map Int.ofNat

/-- What a byte array stores of a number; `NaN` counts as zero. -/
def toUint8 (n : Option Int) : UInt8 := UInt8.ofInt (n.getD 0)

/-- `text.slice(i * 2, i * 2 + 2)` -/
def pairAt (cs : List Char) (i : Nat) : List Char := (cs.take (i * 2 + 2)).drop (i * 2)

/-- `parseInt(pair, 16)` of the two characters of a byte is the byte. -/
theorem parseHex_pair (b : UInt8) :
    toUint8 (parseHex [hexDigit (b.toNat / 16), hexDigit (b.toNat % 16)]) = b := by
  have hall : ∀ n < 256, toUint8 (parseHex [hexDigit (n / 16), hexDigit (n % 16)]) =
      UInt8.ofNat n := by
    decide +kernel
  rw [hall b.toNat b.toNat_lt, UInt8.ofNat_toNat]

/-- The two characters at `2 * i` are those of byte `i`. -/
theorem pairAt_hexChars {i : Nat} (h : i < bs.length) :
    pairAt (hexChars bs) i = [hexDigit (bs[i].toNat / 16), hexDigit (bs[i].toNat % 16)] := by
  induction bs generalizing i with
  | nil => exact absurd h (Nat.not_lt_zero i)
  | cons b bs ih =>
    cases i with
    | zero => rfl
    | succ i =>
      rw [pairAt, Nat.succ_mul]
      exact ih (Nat.lt_of_succ_lt_succ h)

/-- Reading the pairs one after the other gives the bytes back. -/
theorem parsePairs_hexEncode (bs : Bytes) :
    (List.range bs.length).map
      (fun i => toUint8 (parseHex (pairAt (hexEncode bs).toList i))) = bs := by
  rw [hexEncode, String.toList_ofList]
  refine List.ext_getElem (by rw [List.length_map, List.length_range]) fun i hi hi' => ?_
  rw [List.getElem_map, List.getElem_range, pairAt_hexChars hi', parseHex_pair]

end Trana.Lib
