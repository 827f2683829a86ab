import Mathlib.Data.Nat.Digits.Lemmas
import Trana.Lib.ByteCodec

/-!
# Hexadecimal, decimal and base64url text

The textual number and byte formats of JavaScript and the web: lower-case
hex as `Buffer.toString("hex")` writes it and `Buffer.from(.., "hex")` reads
it, decimal as `BigInt` does both, and unpadded base64url as RFC 4648 §5
writes it.

Digits are looked up in an alphabet, by position one way and by character the
other, so that a round trip is a fact about the alphabet: no character stands in
it twice. That is decided once for each alphabet, over its few positions, and the
rest is induction on the text.

* `hexDecode_hexEncode`, `ofDecimal?_toDecimal` — the round trips.
* `base64urlEncode` — the encoder; what a decoder makes of its texts is shown
  with the decoder.
-/

namespace Trana.Lib

/-! ## Hexadecimal -/

/-- The hexadecimal digits, in lower case. -/
def hexAlphabet : List Char := "0123456789abcdef".toList

/-- The value of a hex digit, in either case. -/
def hexValue? (c : Char) : Option Nat := hexAlphabet.idxOf? c.toLower

/-- Two digits for each byte, the high one first. -/
def hexChars (bs : Bytes) : List Char :=
  bs.flatMap fun b => [hexAlphabet.getD (b.toNat / 16) '0', hexAlphabet.getD (b.toNat % 16) '0']

/-- `Buffer.from(bytes).toString("hex")` -/
def hexEncode (bs : Bytes) : String := String.ofList (hexChars bs)

/-- Digit pairs up to the first that is none. -/
def hexDecodeChars : List Char → Bytes
  | a :: b :: rest =>
    match hexValue? a, hexValue? b with
    | some x, some y => UInt8.ofNat (16 * x + y) :: hexDecodeChars rest
    | _, _ => []
  | _ => []

/-- `Buffer.from(text, "hex")` -/
def hexDecode (s : String) : Bytes := hexDecodeChars s.toList

/-- A digit reads back as its value. -/
theorem hexValue?_getD {d : Nat} (h : d < 16) : hexValue? (hexAlphabet.getD d '0') = some d := by
  have hall : ∀ d < 16, hexValue? (hexAlphabet.getD d '0') = some d := by decide +kernel
  exact hall d h

/-- `Buffer.from(b.toString("hex"), "hex")` is `b`. -/
theorem hexDecode_hexEncode (bs : Bytes) : hexDecode (hexEncode bs) = bs := by
  unfold hexDecode hexEncode
  rw [String.toList_ofList]
  induction bs with
  | nil => rfl
  | cons b bs ih =>
    have hb : b.toNat < 256 := b.toNat_lt
    have hnum : 16 * (b.toNat / 16) + b.toNat % 16 = b.toNat := by omega
    simp only [hexChars, List.flatMap_cons, List.cons_append, List.nil_append, hexDecodeChars,
      hexValue?_getD (show b.toNat / 16 < 16 by omega),
      hexValue?_getD (show b.toNat % 16 < 16 by omega), hnum, UInt8.ofNat_toNat]
    rw [← hexChars, ih]

/-! ## Decimal -/

/-- The decimal digits. -/
def decimalAlphabet : List Char := "0123456789".toList

/-- `n.toString(10)` -/
def toDecimal (n : Nat) : String :=
  if n = 0 then "0"
  else String.ofList ((Nat.digits 10 n).reverse.map fun d => decimalAlphabet.getD d '0')

/-- `BigInt(text)` on decimal text; the empty text is zero. -/
def ofDecimal? (s : String) : Option Nat :=
  (s.toList.mapM fun c => decimalAlphabet.idxOf? c).map fun ds => Nat.ofDigits 10 ds.reverse

/-- A decimal digit reads back as its value. -/
theorem decimalDigit {d : Nat} (h : d < 10) :
    decimalAlphabet.idxOf? (decimalAlphabet.getD d '0') = some d := by
  have hall : ∀ d < 10, decimalAlphabet.idxOf? (decimalAlphabet.getD d '0') = some d := by
    decide +kernel
  exact hall d h

/-- Digits read back, by induction on their list. -/
theorem mapM_decimalDigit {ds : List Nat} (h : ∀ d ∈ ds, d < 10) :
    (ds.map fun d => decimalAlphabet.getD d '0').mapM (fun c => decimalAlphabet.idxOf? c)
      = some ds := by
  induction ds with
  | nil => rfl
  | cons d ds ih =>
    have hd := decimalDigit (h d (List.mem_cons_self ..))
    have hds := ih fun x hx => h x (List.mem_cons_of_mem _ hx)
    simp only [List.map_cons, List.mapM_cons, hd, hds]
    rfl

/-- `BigInt(n.toString())` is `n`. -/
theorem ofDecimal?_toDecimal (n : Nat) : ofDecimal? (toDecimal n) = some n := by
  unfold toDecimal
  split
  next h =>
    subst h
    decide +kernel
  next =>
    have hlt : ∀ d ∈ (Nat.digits 10 n).reverse, d < 10 := fun d hd =>
      Nat.digits_lt_base (by omega) (List.mem_reverse.mp hd)
    rw [ofDecimal?, String.toList_ofList, mapM_decimalDigit hlt, Option.map_some,
      List.reverse_reverse, Nat.ofDigits_digits]

/-! ## Base64url -/

/-- The characters in the order of their values, with `-` and `_` at the end. -/
def base64urlAlphabet : List Char :=
  "ABCDEFGHIJKLMNOPQRSTUVWXYZabcdefghijklmnopqrstuvwxyz0123456789-_".toList

/-- The character of a six-bit value, as a byte. -/
def base64urlChar (v : Nat) : UInt8 := (base64urlAlphabet.getD v 'A').toUInt8

theorem length_base64urlAlphabet : base64urlAlphabet.length = 64 := by decide +kernel

/-- Unpadded base64url: three bytes make four characters, a last one or two
bytes make two or three. -/
def base64urlEncode : Bytes → Bytes
  | [] => []
  | [a] => [base64urlChar (a.toNat / 4), base64urlChar (a.toNat % 4 * 16)]
  | [a, b] =>
    [base64urlChar (a.toNat / 4), base64urlChar (a.toNat % 4 * 16 + b.toNat / 16),
      base64urlChar (b.toNat % 16 * 4)]
  | a :: b :: c :: rest =>
    base64urlChar (a.toNat / 4) :: base64urlChar (a.toNat % 4 * 16 + b.toNat / 16)
      :: base64urlChar (b.toNat % 16 * 4 + c.toNat / 64) :: base64urlChar (c.toNat % 64)
      :: base64urlEncode rest

/-- Four characters for three bytes. -/
theorem length_base64urlEncode_le (bs : Bytes) :
    (base64urlEncode bs).length ≤ 4 * bs.length := by
  induction bs using base64urlEncode.induct with
  | case1 => simp [base64urlEncode]
  | case2 a => simp [base64urlEncode]
  | case3 a b => simp [base64urlEncode]
  | case4 a b c rest ih =>
    simp only [base64urlEncode, List.length_cons]
    omega

/-- No encoded byte is a quotation mark or padding. -/
theorem base64urlChar_ne (v : Nat) :
    base64urlChar v ≠ '"'.toUInt8 ∧ base64urlChar v ≠ '='.toUInt8 := by
  have hall : ∀ v < 64, base64urlChar v ≠ '"'.toUInt8 ∧ base64urlChar v ≠ '='.toUInt8 := by
    decide +kernel
  by_cases hv : v < 64
  · exact hall v hv
  · have hlen : base64urlAlphabet.length ≤ v := by
      rw [length_base64urlAlphabet]
      exact Nat.not_lt.mp hv
    rw [base64urlChar, List.getD_eq_getElem?_getD, List.getElem?_eq_none hlen]
    decide

end Trana.Lib
