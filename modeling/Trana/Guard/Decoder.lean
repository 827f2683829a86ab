import Trana.Guard.VerifySpec
import Trana.Lib.Text

/-!
# The challenge decoder on real client data

`base64url_decode` of `verify.rs` reads six bits a character into a 32-bit
accumulator and puts out a byte whenever eight are there. The first part gives
that step in numbers (`returns_base64urlStep`): shifting and masking 32-bit
words is multiplying, dividing and taking remainders, as long as the accumulator
stays below the bits it holds. From it follows that the decoder undoes
base64url (`base64urlDecode_encode`).

The second part is about `extract_challenge`, which looks for the first
`"challenge":"` in the client data and takes what stands before the next quote.
A browser writes `{"type":"webauthn.get","challenge":"…` and goes on with
origin and further members. With the position of the challenge in such client
data this gives `challengeIs_clientData`: it carries exactly the challenge it
was made for, whatever the rest says.

* `returns_base64urlStep`, `returns_base64urlLoop_cons` — one character.
* `base64urlDecode_encode` — decoding what was encoded.
* `challengeIs_clientData` — the challenge of a browser's client data.
-/

namespace Trana.Guard

open Trana.Lib Trana.Lib.Exec

/-! ## Base64url -/

/-- The decoder's state with its accumulator and length as numbers. -/
def decodeState (acc len : Nat) (out : Bytes) : DecodeState :=
  ⟨UInt32.ofNat acc, UInt32.ofNat len, out⟩

/-- A number below `2 ^ 32` is its own 32-bit word. -/
theorem toNat_ofNat32 {n : Nat} (h : n < 2 ^ 32) : (UInt32.ofNat n).toNat = n :=
  UInt32.toNat_ofNat_of_lt' h

/-- Appending six bits to the accumulator. -/
theorem shiftLeft_or {acc v : Nat} (hacc : acc < 256) (hv : v < 64) :
    UInt32.ofNat acc <<< 6 ||| UInt32.ofNat v = UInt32.ofNat (acc * 64 + v) := by
  apply UInt32.toNat_inj.mp
  have hor : acc <<< 6 + v = acc <<< 6 ||| v := Nat.shiftLeft_add_eq_or_of_lt hv acc
  have hshift : acc <<< 6 = acc * 64 := Nat.shiftLeft_eq acc 6
  rw [UInt32.toNat_or, UInt32.toNat_shiftLeft, toNat_ofNat32 (by omega), toNat_ofNat32 (by omega),
    toNat_ofNat32 (by omega)]
  show acc <<< 6 % 2 ^ 32 ||| v = acc * 64 + v
  rw [Nat.mod_eq_of_lt (by omega), ← hor, hshift]

/-- Shifting right by `k` divides by `2 ^ k`. -/
theorem shiftRight_toUInt8 {n k : Nat} (hn : n < 2 ^ 32) (hk : k < 32) :
    (UInt32.ofNat n >>> UInt32.ofNat k).toUInt8 = UInt8.ofNat (n / 2 ^ k) := by
  apply UInt8.toNat_inj.mp
  rw [UInt32.toNat_toUInt8, UInt32.toNat_shiftRight, toNat_ofNat32 hn, toNat_ofNat32 (by omega),
    Nat.mod_eq_of_lt hk, Nat.shiftRight_eq_div_pow, UInt8.toNat_ofNat']

/-- `1 << k` is `2 ^ k`, -/
theorem toNat_one_shiftLeft {k : Nat} (hk : k < 32) :
    ((1 : UInt32) <<< UInt32.ofNat k).toNat = 2 ^ k := by
  have hpow : 2 ^ k < 2 ^ 32 := Nat.pow_lt_pow_right (by omega) hk
  rw [UInt32.toNat_shiftLeft, toNat_ofNat32 (by omega), Nat.mod_eq_of_lt hk]
  show 1 <<< k % 2 ^ 32 = 2 ^ k
  rw [Nat.one_shiftLeft, Nat.mod_eq_of_lt hpow]

/-- so one can be taken from it, -/
theorem one_le_one_shiftLeft {k : Nat} (hk : k < 32) : (1 : UInt32) ≤ 1 <<< UInt32.ofNat k := by
  rw [UInt32.le_iff_toNat_le, toNat_one_shiftLeft hk]
  exact Nat.two_pow_pos k

/-- and `(1 << k) - 1` is the mask of `k` bits. -/
theorem mask_eq {k : Nat} (hk : k < 32) :
    (1 : UInt32) <<< UInt32.ofNat k - 1 = UInt32.ofNat (2 ^ k - 1) := by
  have hpow : 2 ^ k < 2 ^ 32 := Nat.pow_lt_pow_right (by omega) hk
  apply UInt32.toNat_inj.mp
  rw [UInt32.toNat_sub_of_le _ _ (one_le_one_shiftLeft hk), toNat_one_shiftLeft hk,
    toNat_ofNat32 (by omega)]
  rfl

/-- Masking with it takes the remainder. -/
theorem and_mask {n k : Nat} (hn : n < 2 ^ 32) (hk : k < 32) :
    UInt32.ofNat n &&& (1 <<< UInt32.ofNat k - 1) = UInt32.ofNat (n % 2 ^ k) := by
  have hpow : 2 ^ k < 2 ^ 32 := Nat.pow_lt_pow_right (by omega) hk
  have hmod : n % 2 ^ k < 2 ^ 32 := Nat.lt_of_le_of_lt (Nat.mod_le _ _) hn
  rw [mask_eq hk]
  apply UInt32.toNat_inj.mp
  rw [UInt32.toNat_and, toNat_ofNat32 hn, toNat_ofNat32 (by omega), toNat_ofNat32 hmod,
    Nat.and_two_pow_sub_one_eq_mod]

/-- The decoder's state after six more bits, in numbers. -/
def decodeNext (acc len v : Nat) (out : Bytes) : DecodeState :=
  if len < 2 then decodeState (acc * 64 + v) (len + 6) out
  else decodeState ((acc * 64 + v) % 2 ^ (len - 2)) (len - 2)
    (out ++ [UInt8.ofNat ((acc * 64 + v) / 2 ^ (len - 2))])

/-- One step of the decoder never panics and keeps every significant bit. -/
theorem returns_base64urlStep {acc len v : Nat} {out : Bytes} (hlen : len < 8)
    (hacc : acc < 2 ^ len) (hv : v < 64) :
    (base64urlStep (decodeState acc len out) (UInt32.ofNat v)).Returns
      (decodeNext acc len v out) := by
  have hpow : 2 ^ len ≤ 2 ^ 7 := Nat.pow_le_pow_right (by omega) (by omega)
  have hadd : UInt32.ofNat len + 6 = UInt32.ofNat (len + 6) := by
    rw [UInt32.ofNat_add]
    rfl
  have hge : (UInt32.ofNat (len + 6) ≥ 8) ↔ 2 ≤ len := by
    rw [ge_iff_le, UInt32.le_iff_toNat_le, toNat_ofNat32 (by omega)]
    show 8 ≤ len + 6 ↔ 2 ≤ len
    omega
  simp only [base64urlStep, decodeState, returns_bind, returns_u32Add, returns_ite, returns_u32Sub,
    returns_u32Shr, returns_u32Shl, returns_pure, shiftLeft_or (show acc < 256 by omega) hv]
  refine ⟨_, ⟨by rw [toNat_ofNat32 (by omega)]; show len + 6 < 2 ^ 32; omega, hadd⟩, ?_⟩
  rw [hge]
  unfold decodeNext
  -- a byte is complete from eight held bits on, that is when two were held before
  by_cases h2 : len < 2
  · rw [if_pos h2]
    exact Or.inr ⟨by omega, rfl⟩
  · have hsub : UInt32.ofNat (len + 6) - 8 = UInt32.ofNat (len - 2) := by
      apply UInt32.toNat_inj.mp
      rw [UInt32.toNat_sub_of_le _ _ (hge.mpr (by omega)), toNat_ofNat32 (by omega),
        toNat_ofNat32 (by omega)]
      show len + 6 - 8 = len - 2
      omega
    have hlt : UInt32.ofNat (len - 2) < 32 := by
      rw [UInt32.lt_iff_toNat_lt, toNat_ofNat32 (by omega)]
      show len - 2 < 32
      omega
    rw [if_neg h2]
    refine Or.inl ⟨by omega, _, ⟨hge.mpr (by omega), hsub⟩, _, ⟨hlt, rfl⟩, _, ⟨hlt, rfl⟩, _,
      ⟨one_le_one_shiftLeft (by omega), rfl⟩, ?_⟩
    rw [shiftRight_toUInt8 (by omega) (by omega), and_mask (by omega) (by omega)]
    rfl

/-- The decoder reads back the encoder's characters. -/
theorem base64urlValue?_char {v : Nat} (h : v < 64) :
    base64urlValue? (base64urlChar v) = some (UInt32.ofNat v) := by
  have hall : ∀ v < 64, base64urlValue? (base64urlChar v) = some (UInt32.ofNat v) := by
    decide +kernel
  exact hall v h

/-- The loop goes on behind a character of the alphabet. -/
theorem returns_base64urlLoop_cons {acc len v : Nat} {out rest : Bytes} {x : Option DecodeState}
    (hlen : len < 8) (hacc : acc < 2 ^ len) (hv : v < 64) :
    (base64urlLoop (decodeState acc len out) (base64urlChar v :: rest)).Returns x ↔
      (base64urlLoop (decodeNext acc len v out) rest).Returns x := by
  have hstep : (base64urlStep (decodeState acc len out) (UInt32.ofNat v)).Returns
      (decodeNext acc len v out) := returns_base64urlStep hlen hacc hv
  rw [base64urlLoop, if_neg (base64urlChar_ne v).2, base64urlValue?_char hv]
  simp only [returns_bind]
  constructor
  · intro hex
    obtain ⟨s, hs, h⟩ := hex
    rwa [hs.unique hstep] at h
  · exact fun h => ⟨_, hstep, h⟩

section Group

variable {out rest : Bytes} {x : Option DecodeState}

/-- First character of a group: the top six bits of `a`. -/
theorem returns_loop_first (a : UInt8) :
    (base64urlLoop (decodeState 0 0 out) (base64urlChar (a.toNat / 4) :: rest)).Returns x ↔
      (base64urlLoop (decodeState (a.toNat / 4) 6 out) rest).Returns x := by
  have ha : a.toNat < 256 := a.toNat_lt
  rw [returns_base64urlLoop_cons (by omega) (by omega) (by omega), decodeNext, if_pos (by omega),
    Nat.zero_mul, Nat.zero_add, Nat.zero_add]

/-- Second character: `a` is complete, four bits remain. -/
theorem returns_loop_second (a : UInt8) {n : Nat} (hn : n < 16) :
    (base64urlLoop (decodeState (a.toNat / 4) 6 out)
        (base64urlChar (a.toNat % 4 * 16 + n) :: rest)).Returns x ↔
      (base64urlLoop (decodeState n 4 (out ++ [a])) rest).Returns x := by
  have ha : a.toNat < 256 := a.toNat_lt
  have hdiv : (a.toNat / 4 * 64 + (a.toNat % 4 * 16 + n)) / 2 ^ (6 - 2) = a.toNat := by omega
  have hmod : (a.toNat / 4 * 64 + (a.toNat % 4 * 16 + n)) % 2 ^ (6 - 2) = n := by omega
  rw [returns_base64urlLoop_cons (by omega) (by omega) (by omega), decodeNext, if_neg (by omega),
    hdiv, hmod, UInt8.ofNat_toNat]

/-- Third character: `b` is complete, two bits remain. -/
theorem returns_loop_third (b : UInt8) {n : Nat} (hn : n < 4) :
    (base64urlLoop (decodeState (b.toNat / 16) 4 out)
        (base64urlChar (b.toNat % 16 * 4 + n) :: rest)).Returns x ↔
      (base64urlLoop (decodeState n 2 (out ++ [b])) rest).Returns x := by
  have hb : b.toNat < 256 := b.toNat_lt
  have hdiv : (b.toNat / 16 * 64 + (b.toNat % 16 * 4 + n)) / 2 ^ (4 - 2) = b.toNat := by omega
  have hmod : (b.toNat / 16 * 64 + (b.toNat % 16 * 4 + n)) % 2 ^ (4 - 2) = n := by omega
  rw [returns_base64urlLoop_cons (by omega) (by omega) (by omega), decodeNext, if_neg (by omega),
    hdiv, hmod, UInt8.ofNat_toNat]

/-- Fourth character: `c` is complete, nothing remains. -/
theorem returns_loop_fourth (c : UInt8) :
    (base64urlLoop (decodeState (c.toNat / 64) 2 out)
        (base64urlChar (c.toNat % 64) :: rest)).Returns x ↔
      (base64urlLoop (decodeState 0 0 (out ++ [c])) rest).Returns x := by
  have hc : c.toNat < 256 := c.toNat_lt
  have hdiv : (c.toNat / 64 * 64 + c.toNat % 64) / 2 ^ (2 - 2) = c.toNat := by omega
  have hmod : (c.toNat / 64 * 64 + c.toNat % 64) % 2 ^ (2 - 2) = 0 := by omega
  rw [returns_base64urlLoop_cons (by omega) (by omega) (by omega), decodeNext, if_neg (by omega),
    hdiv, hmod, UInt8.ofNat_toNat]

end Group

/-- Decoding an encoding appends the encoded bytes. -/
theorem base64urlLoop_encode (bs out : Bytes) :
    ∃ len, len < 8 ∧ (base64urlLoop (decodeState 0 0 out) (base64urlEncode bs)).Returns
      (some (decodeState 0 len (out ++ bs))) := by
  -- by groups of three bytes, as the encoder takes them; what is left at the end is
  -- the padding of the last group, all zeros
  induction bs using base64urlEncode.induct generalizing out with
  | case1 => exact ⟨0, by omega, by simp [base64urlEncode, base64urlLoop]⟩
  | case2 a =>
    refine ⟨4, by omega, ?_⟩
    rw [base64urlEncode, returns_loop_first a, ← Nat.add_zero (a.toNat % 4 * 16),
      returns_loop_second a (by omega)]
    simp [base64urlLoop]
  | case3 a b =>
    have hb : b.toNat < 256 := b.toNat_lt
    refine ⟨2, by omega, ?_⟩
    rw [base64urlEncode, returns_loop_first a, returns_loop_second a (by omega),
      ← Nat.add_zero (b.toNat % 16 * 4), returns_loop_third b (by omega)]
    simp [base64urlLoop]
  | case4 a b c rest ih =>
    have hb : b.toNat < 256 := b.toNat_lt
    have hc : c.toNat < 256 := c.toNat_lt
    obtain ⟨len, hlen, h⟩ := ih (out ++ [a] ++ [b] ++ [c])
    refine ⟨len, hlen, ?_⟩
    rw [base64urlEncode, returns_loop_first a, returns_loop_second a (by omega),
      returns_loop_third b (by omega), returns_loop_fourth c]
    simpa using h

/-- The decoder undoes the encoder, when the capacity it asks for can be computed. -/
theorem base64urlDecode_encode_of_fits {bs : Bytes}
    (hfits : (base64urlEncode bs).length * 3 + 3 < 2 ^ 64) :
    (base64urlDecode (base64urlEncode bs)).Returns (some bs) := by
  unfold base64urlDecode
  rw [returns_ite]
  -- an empty text returns early
  by_cases hnil : (base64urlEncode bs).isEmpty
  · refine Or.inl ⟨hnil, returns_pure.mpr ?_⟩
    cases bs using base64urlEncode.induct with
    | case1 => rfl
    | _ => simp [base64urlEncode] at hnil
  · refine Or.inr ⟨hnil, ?_⟩
    obtain ⟨len, hlt, hloop⟩ := base64urlLoop_encode bs []
    have hacc : ¬(decodeState 0 len ([] ++ bs)).accLen ≥ 8 := by
      rw [ge_iff_le, UInt32.le_iff_toNat_le]
      show ¬8 ≤ (UInt32.ofNat len).toNat
      rw [toNat_ofNat32 (by omega)]
      omega
    simp only [returns_bind, returns_usizeMul, returns_usizeAdd, returns_withCapacity,
      exists_const]
    refine ⟨_, ⟨rfl, by omega⟩, _, ⟨rfl, by omega⟩, by omega, _, hloop, ?_⟩
    show (if _ then _ else _ : Result (Option Bytes)).Returns (some bs)
    rw [if_neg hacc]
    exact returns_pure.mpr rfl

/-- Decoding undoes encoding. -/
theorem base64urlDecode_encode {bs : Bytes} (hlen : bs.length < 2 ^ 32) :
    (base64urlDecode (base64urlEncode bs)).Returns (some bs) := by
  have hle := length_base64urlEncode_le bs
  exact base64urlDecode_encode_of_fits (by omega)

/-! ## Client data -/

/-- The first window that equals the key is where the key first occurs. -/
theorem findIdx?_windows {key bs : Bytes} {p : Nat} (hfit : p + key.length ≤ bs.length)
    (hat : (bs.drop p).take key.length = key)
    (hfirst : ∀ i < p, (bs.drop i).take key.length ≠ key) :
    (windows key.length bs).findIdx? (· == key) = some p := by
  have hlen : (windows key.length bs).length = bs.length + 1 - key.length := by simp [windows]
  refine List.findIdx?_eq_some_iff_getElem.mpr ⟨by omega, ?_, fun j hj => ?_⟩
  · simpa [windows] using hat
  · simpa [windows] using hfirst j hj

/-- What a WebAuthn assertion's client data starts with, up to the challenge
text: the type member and the challenge key. -/
def clientDataHead : Bytes := Codec.utf8 "\x7b\"type\":\"webauthn.get\","

/-- The serialisation of a client data: head, challenge, and whatever members follow. -/
def clientData (challenge tail : Bytes) : Bytes :=
  clientDataHead ++ challengeKey ++ base64urlEncode challenge ++ '"'.toUInt8 :: tail

/-- The client data's head ends where the challenge key begins. -/
theorem length_clientDataHead : clientDataHead.length = 23 := by decide +kernel

/-- `"challenge":"` has thirteen bytes. -/
theorem length_challengeKey : challengeKey.length = 13 := by decide +kernel

/-- The key does not occur inside the head, nor across its end. -/
theorem clientDataHead_first :
    ∀ i < 23, ((clientDataHead ++ challengeKey).drop i).take 13 ≠ challengeKey := by
  decide +kernel

/-- No encoded byte is a quote, so the challenge ends at the first quote behind it. -/
theorem mem_base64urlEncode {bs : Bytes} {x : UInt8} (h : x ∈ base64urlEncode bs) :
    x ≠ '"'.toUInt8 := by
  induction bs using base64urlEncode.induct with
  | case1 => simp [base64urlEncode] at h
  | case2 a =>
    simp only [base64urlEncode, List.mem_cons, List.not_mem_nil, or_false] at h
    rcases h with rfl | rfl <;> exact (base64urlChar_ne _).1
  | case3 a b =>
    simp only [base64urlEncode, List.mem_cons, List.not_mem_nil, or_false] at h
    rcases h with rfl | rfl | rfl <;> exact (base64urlChar_ne _).1
  | case4 a b c rest ih =>
    simp only [base64urlEncode, List.mem_cons] at h
    rcases h with rfl | rfl | rfl | rfl | h
    · exact (base64urlChar_ne _).1
    · exact (base64urlChar_ne _).1
    · exact (base64urlChar_ne _).1
    · exact (base64urlChar_ne _).1
    · exact ih h

/-- The text up to the first quote. -/
theorem findIdx?_quote {c tail : Bytes} (h : ∀ x ∈ c, x ≠ '"'.toUInt8) :
    (c ++ '"'.toUInt8 :: tail).findIdx? (· == '"'.toUInt8) = some c.length := by
  induction c with
  | nil => rfl
  | cons x c ih =>
    have hx : (x == '"'.toUInt8) = false := by simpa using h x (List.mem_cons_self ..)
    rw [List.cons_append, List.findIdx?_cons, hx, ih fun y hy => h y (List.mem_cons_of_mem _ hy)]
    rfl

/-- The text behind the key, up to the next quote, when the key does not start earlier. -/
theorem extractChallenge_of_first {head c tail : Bytes} (hc : ∀ x ∈ c, x ≠ '"'.toUInt8)
    (hlen : head.length + 13 + c.length < 2 ^ 64)
    (hfirst : ∀ i < head.length, ((head ++ challengeKey).drop i).take 13 ≠ challengeKey) :
    (extractChallenge (head ++ challengeKey ++ c ++ '"'.toUInt8 :: tail)).Returns (some c) := by
  have hkey := length_challengeKey
  rw [List.append_assoc]
  -- no window in front of the key matches, neither in the head nor across its end
  have hfind : (windows challengeKey.length ((head ++ challengeKey) ++
      (c ++ '"'.toUInt8 :: tail))).findIdx? (· == challengeKey) = some head.length := by
    refine findIdx?_windows ?_ ?_ fun i hi => ?_
    · simp only [List.length_append]
      omega
    · rw [List.append_assoc, List.drop_left, List.take_left]
    · rw [List.drop_append_of_le_length (by simp only [List.length_append]; omega), hkey,
        List.take_append_of_le_length (by
          simp only [List.length_drop, List.length_append]
          omega)]
      exact hfirst i hi
  have hstart : head.length + challengeKey.length = (head ++ challengeKey).length :=
    List.length_append.symm
  have hdrop : ((head ++ challengeKey) ++ (c ++ '"'.toUInt8 :: tail)).drop
      (head.length + challengeKey.length) = c ++ '"'.toUInt8 :: tail := by
    rw [hstart, List.drop_left]
  have htotal : head.length + challengeKey.length + c.length ≤
      ((head ++ challengeKey) ++ (c ++ '"'.toUInt8 :: tail)).length := by
    simp only [List.length_append, List.length_cons]
    omega
  unfold extractChallenge
  rw [hfind]
  simp only [returns_bind, returns_usizeAdd, returns_sliceFrom]
  refine ⟨head.length + challengeKey.length, ⟨rfl, by omega⟩, _, ⟨by omega, rfl⟩, ?_⟩
  rw [hdrop, findIdx?_quote hc]
  simp only [returns_bind, returns_usizeAdd, returns_slice, returns_pure]
  refine ⟨_, ⟨rfl, by omega⟩, _, ⟨by omega, by omega, rfl⟩, ?_⟩
  rw [List.drop_take, hdrop, Nat.add_sub_cancel, List.take_left]

/-- The challenge behind any text in which the key does not start earlier. -/
theorem extractChallenge_behind {head challenge tail : Bytes} (hhead : head.length < 2 ^ 32)
    (hlen : challenge.length < 2 ^ 32)
    (hfirst : ∀ i < head.length, ((head ++ challengeKey).drop i).take 13 ≠ challengeKey) :
    (extractChallenge (head ++ challengeKey ++ base64urlEncode challenge ++
      '"'.toUInt8 :: tail)).Returns (some (base64urlEncode challenge)) := by
  have hle := length_base64urlEncode_le challenge
  exact extractChallenge_of_first (fun x hx => mem_base64urlEncode hx) (by omega) hfirst

/-- Client data that carries a challenge behind such a text. -/
theorem challengeIs_behind {head challenge tail : Bytes} (hhead : head.length < 2 ^ 32)
    (hlen : challenge.length < 2 ^ 32)
    (hfirst : ∀ i < head.length, ((head ++ challengeKey).drop i).take 13 ≠ challengeKey) :
    ChallengeIs (head ++ challengeKey ++ base64urlEncode challenge ++ '"'.toUInt8 :: tail)
      challenge :=
  ⟨_, extractChallenge_behind hhead hlen hfirst, base64urlDecode_encode hlen⟩

/-- Client data made for a challenge carries that challenge. -/
theorem challengeIs_clientData {challenge tail : Bytes} (hlen : challenge.length < 2 ^ 32) :
    ChallengeIs (clientData challenge tail) challenge := by
  have hhead := length_clientDataHead
  exact challengeIs_behind (by omega) hlen (by rw [hhead]; exact clientDataHead_first)

end Trana.Guard
