import Mathlib.Data.Nat.Digits.Lemmas
import Trana.Lib.ByteCodec

/-!
# Base58

The text form of addresses: leading zero bytes as `1`s, the rest as the
base-58 digits of the big-endian number. `Base58.decode_encode` is the round
trip the address libraries promise.

The two parts have to be kept apart, since the number does not know how many
zero bytes stood in front of it: encoding counts them, decoding puts back as
many as there are leading `1`s. The digit zero is written as `1` as well, and
the proof has to show that the number's own digits never start with it
(`digitChar_ne_one`), so that the count is right.

* `encode`, `decode` — both ways; decoding fails on a character that is no digit.
* `decode_encode` — a byte string's text decodes to it, so no two byte strings
  have one text.
-/

namespace Trana.Lib.Base58

/-- The digits in order: no zero, no capital O or I, no small l. -/
def alphabet : List Char := "123456789ABCDEFGHJKLMNPQRSTUVWXYZabcdefghijkmnopqrstuvwxyz".toList

/-- The number a big-endian byte string spells. -/
def beNat (bs : Bytes) : Nat := Nat.ofDigits 256 (bs.reverse.map UInt8.toNat)

/-- The character of a digit. -/
def digitChar (d : Nat) : Char := alphabet.getD d '1'

/-- The digit of a character, if it is one. -/
def charDigit? (c : Char) : Option Nat := alphabet.idxOf? c

/-- A `1` for every zero byte in front, then the digits of the number. -/
def encode (bs : Bytes) : String :=
  String.ofList (List.replicate (bs.takeWhile (· == 0)).length '1'
    ++ (Nat.digits 58 (beNat bs)).reverse.map digitChar)

/-- A zero byte for every `1` in front, then the bytes of the number. -/
def decode (s : String) : Option Bytes :=
  (s.toList.mapM charDigit?).map fun ds =>
    List.replicate (s.toList.takeWhile (· == '1')).length 0
      ++ (Nat.digits 256 (Nat.ofDigits 58 ds.reverse)).reverse.map UInt8.ofNat

/-- A digit's character reads back as the digit. -/
theorem charDigit?_digitChar {d : Nat} (h : d < 58) : charDigit? (digitChar d) = some d := by
  have hall : ∀ d < 58, charDigit? (digitChar d) = some d := by decide +kernel
  exact hall d h

/-- Only the digit zero is written as `1`. -/
theorem digitChar_ne_one {d : Nat} (h : d < 58) (h0 : d ≠ 0) : digitChar d ≠ '1' := by
  have hall : ∀ d < 58, d ≠ 0 → digitChar d ≠ '1' := by decide +kernel
  exact hall d h h0

/-- Digits read back, by induction on their list. -/
theorem mapM_charDigit? {ds : List Nat} (h : ∀ d ∈ ds, d < 58) :
    (ds.map digitChar).mapM charDigit? = some ds := by
  induction ds with
  | nil => rfl
  | cons d ds ih =>
    have hd := charDigit?_digitChar (h d (List.mem_cons_self ..))
    have hds := ih fun x hx => h x (List.mem_cons_of_mem _ hx)
    simp [List.mapM_cons, hd, hds]

/-- The leading run of `a`s ends where a different element starts. -/
theorem takeWhile_replicate_append {α : Type} [BEq α] [LawfulBEq α] (a : α) (z : Nat)
    {rest : List α} (h : ∀ x, rest.head? = some x → x ≠ a) :
    ((List.replicate z a ++ rest).takeWhile (· == a)).length = z := by
  induction z with
  | zero =>
    cases rest with
    | nil => rfl
    | cons x xs =>
      have hx : (x == a) = false := by simpa using h x rfl
      simp [hx]
  | succ z ih =>
    rw [List.replicate_succ, List.cons_append, List.takeWhile_cons_of_pos (by simp),
      List.length_cons, ih]

/-- Zeros at the high end add nothing. -/
theorem ofDigits_append_zeros (b : Nat) (ds : List Nat) (z : Nat) :
    Nat.ofDigits b (ds ++ List.replicate z 0) = Nat.ofDigits b ds := by
  have hz : Nat.ofDigits b (List.replicate z 0) = 0 := by
    induction z with
    | zero => rfl
    | succ z ih => simp [List.replicate_succ, Nat.ofDigits_cons, ih]
  rw [Nat.ofDigits_append, hz, Nat.mul_zero, Nat.add_zero]

/-- A byte string is its leading zeros and a rest with a nonzero head. -/
theorem eq_zeros_append (bs : Bytes) :
    ∃ z rest, bs = List.replicate z 0 ++ rest ∧ ∀ x, rest.head? = some x → x ≠ 0 := by
  induction bs with
  | nil => exact ⟨0, [], rfl, by simp⟩
  | cons b bs ih =>
    by_cases hb : b = 0
    · obtain ⟨z, rest, rfl, hhead⟩ := ih
      exact ⟨z + 1, rest, by simp [List.replicate_succ, hb], hhead⟩
    · refine ⟨0, b :: bs, rfl, fun x hx => ?_⟩
      rw [← Option.some.inj hx]
      exact hb

/-- The base-256 digits of a number written without leading zeros are its bytes. -/
theorem digits_beNat {rest : Bytes} (h : ∀ x, rest.head? = some x → x ≠ 0) :
    (Nat.digits 256 (beNat rest)).reverse.map UInt8.ofNat = rest := by
  have hdig : Nat.digits 256 (beNat rest) = rest.reverse.map UInt8.toNat := by
    refine Nat.digits_ofDigits 256 (by omega) _ ?_ ?_
    · intro l hl
      obtain ⟨b, -, rfl⟩ := List.mem_map.mp hl
      exact b.toNat_lt
    · intro hne
      rw [List.getLast_map, List.getLast_reverse]
      have hrest : rest ≠ [] := by simpa using hne
      have hx := h _ (List.head?_eq_some_head hrest)
      exact fun h0 => hx (UInt8.toNat_inj.mp h0)
  have hof : UInt8.ofNat ∘ UInt8.toNat = id := by
    funext b
    exact UInt8.ofNat_toNat
  rw [hdig, List.map_reverse, List.map_reverse, List.map_reverse, List.reverse_reverse,
    List.map_map, hof, List.map_id]

/-- Zero bytes in front add nothing. -/
theorem beNat_zeros_append (z : Nat) (rest : Bytes) :
    beNat (List.replicate z 0 ++ rest) = beNat rest := by
  unfold beNat
  rw [List.reverse_append, List.reverse_replicate, List.map_append, List.map_replicate]
  exact ofDigits_append_zeros 256 _ z

/-- Decoding undoes encoding. -/
theorem decode_encode (bs : Bytes) : decode (encode bs) = some bs := by
  obtain ⟨z, rest, rfl, hhead⟩ := eq_zeros_append bs
  have hlt : ∀ d ∈ (Nat.digits 58 (beNat rest)).reverse, d < 58 := fun d hd =>
    Nat.digits_lt_base (by omega) (List.mem_reverse.mp hd)
  -- the first base-58 digit is nonzero, so no `1` follows the leading ones
  have htail : ∀ c, ((Nat.digits 58 (beNat rest)).reverse.map digitChar).head? = some c →
      c ≠ '1' := by
    intro c hc
    by_cases h0 : beNat rest = 0
    · simp [h0] at hc
    · have hlast := Nat.getLast_digit_ne_zero 58 h0
      rw [List.head?_map, List.head?_reverse,
        List.getLast?_eq_some_getLast (Nat.digits_ne_nil_iff_ne_zero.mpr h0)] at hc
      simp only [Option.map_some, Option.some.injEq] at hc
      rw [← hc]
      exact digitChar_ne_one (Nat.digits_lt_base (by omega) (List.getLast_mem _)) hlast
  have hones : List.replicate z '1' = (List.replicate z 0).map digitChar := by
    rw [List.map_replicate]
    rfl
  have hmap : (List.replicate z '1' ++ (Nat.digits 58 (beNat rest)).reverse.map digitChar).mapM
      charDigit? = some (List.replicate z 0 ++ (Nat.digits 58 (beNat rest)).reverse) := by
    rw [hones, ← List.map_append]
    refine mapM_charDigit? fun d hd => ?_
    rcases List.mem_append.mp hd with hz | hd
    · rw [(List.mem_replicate.mp hz).2]
      omega
    · exact hlt d hd
  have hzeros : ((List.replicate z (0 : UInt8) ++ rest).takeWhile (· == 0)).length = z :=
    takeWhile_replicate_append 0 z hhead
  unfold decode encode
  simp only [String.toList_ofList]
  rw [hzeros, beNat_zeros_append, hmap, Option.map_some, takeWhile_replicate_append '1' z htail,
    List.reverse_append, List.reverse_reverse, List.reverse_replicate, ofDigits_append_zeros,
    Nat.ofDigits_digits, digits_beNat hhead]

end Trana.Lib.Base58
