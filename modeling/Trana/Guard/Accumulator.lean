import Trana.Guard.Logs
import Trana.Guard.NoPanic
import Trana.Lib.Base64url

/-!
# The decoder's accumulator

What the loop of `base64url_decode` (`verify.rs`) has in its variables `acc`,
`acc_len` and `out` after any part of its input: the bytes it put out and the
bits it still holds are the bits of the characters it read, in order. The two
variables are 32-bit integers in the source and here; that the shifts lose
nothing is part of the invariant, not an assumption about the input.

* `Exact` — the invariant, with the bounds that keep the shifts from losing a
  bit.
* `exact_step`, `exact_loop` — it holds after one character and after any text.
* `decode_none`, `decode_some`, `returns_decode_iff` — what the decoder returns:
  nothing for a text with a foreign character, otherwise the whole bytes of the
  bits it read.

The decoder skips `=` wherever it stands and drops the bits that are left over
at the end, so several texts decode to the same bytes; `unpadded` and the
characters' bits say which. The capacity of the output vector is computed before
the loop in `usize`; a text is only that long in the model too (`CapacityFits`).
-/

namespace Trana.Guard

open Trana.Lib Trana.Lib.Exec

/-- The loop's variables behind the text `consumed`. -/
structure Exact (s : DecodeState) (consumed : Bytes) : Prop where
  acc_lt : s.acc.toNat < 2 ^ s.accLen.toNat
  accLen_mem : s.accLen ∈ ([0, 2, 4, 6] : List UInt32)
  bits_eq : byteBits s.out ++ bits s.accLen.toNat s.acc.toNat = textBits consumed

/-- Padding, or a character of the alphabet. -/
def Readable (t : Bytes) : Prop := ∀ c ∈ t, c = '='.toUInt8 ∨ ∃ v, sextet? c = some v

/-- The accumulator keeps all its bits when six more are shifted in, and a byte
that is taken off it is one. -/
structure Lossless (s : DecodeState) (val : UInt32) : Prop where
  shifted : (s.acc <<< 6 ||| val).toNat = s.acc.toNat * 64 + val.toNat
  byte : 8 ≤ s.accLen.toNat + 6 →
    ((s.acc <<< 6 ||| val) >>> (s.accLen + 6 - 8)).toNat < 256

variable {s : DecodeState} {consumed : Bytes} {c : UInt8} {v : Nat}

/-- The decoder's table is the alphabet. -/
theorem base64urlValue?_eq (c : UInt8) : base64urlValue? c = (sextet? c).map UInt32.ofNat := by
  have hall : ∀ n < 256, base64urlValue? (UInt8.ofNat n) =
      (sextet? (UInt8.ofNat n)).map UInt32.ofNat := by
    decide +kernel
  have hc := hall c.toNat c.toNat_lt
  rwa [UInt8.ofNat_toNat] at hc

/-- Before the first character nothing was read, put out or held. -/
theorem exact_initial : Exact ⟨0, 0, []⟩ [] where
  acc_lt := by decide
  accLen_mem := by decide
  bits_eq := rfl

/-- A state in numbers. -/
theorem eq_decodeState (s : DecodeState) : s = decodeState s.acc.toNat s.accLen.toNat s.out := by
  rw [decodeState, UInt32.ofNat_toNat, UInt32.ofNat_toNat]

/-- In numbers, the lengths the accumulator has. -/
theorem Exact.accLen_cases (h : Exact s consumed) :
    s.accLen.toNat = 0 ∨ s.accLen.toNat = 2 ∨ s.accLen.toNat = 4 ∨ s.accLen.toNat = 6 := by
  have hmem := h.accLen_mem
  simp only [List.mem_cons, List.not_mem_nil, or_false] at hmem
  rcases hmem with heq | heq | heq | heq
  · exact Or.inl (by rw [heq]; rfl)
  · exact Or.inr (Or.inl (by rw [heq]; rfl))
  · exact Or.inr (Or.inr (Or.inl (by rw [heq]; rfl)))
  · exact Or.inr (Or.inr (Or.inr (by rw [heq]; rfl)))

/-- A character of the alphabet stands for its six bits. -/
theorem textBits_singleton (h : sextet? c = some v) : textBits [c] = bits 6 v := by
  rw [textBits, sextets, List.filterMap_cons_some h]
  exact List.append_nil _

/-- Padding stands for none. -/
theorem textBits_padding : textBits ['='.toUInt8] = [] := by
  rw [textBits, sextets, List.filterMap_cons_none sextet?_padding]
  rfl

/-- A byte is its eight bits. -/
theorem byteBits_singleton (b : UInt8) : byteBits [b] = bits 8 b.toNat := List.append_nil _

/-- The invariant of a state given in numbers. -/
theorem exact_decodeState {acc len : Nat} {out : Bytes} (hacc : acc < 2 ^ len)
    (hlen : len = 0 ∨ len = 2 ∨ len = 4 ∨ len = 6)
    (hbits : byteBits out ++ bits len acc = textBits consumed) :
    Exact (decodeState acc len out) consumed := by
  have hpow : 2 ^ len ≤ 2 ^ 6 := Nat.pow_le_pow_right (by omega) (by omega)
  have htoNat : (UInt32.ofNat len).toNat = len := toNat_ofNat32 (by omega)
  refine ⟨?_, ?_, ?_⟩
  · show (UInt32.ofNat acc).toNat < 2 ^ (UInt32.ofNat len).toNat
    rwa [toNat_ofNat32 (by omega), htoNat]
  · show UInt32.ofNat len ∈ _
    rcases hlen with rfl | rfl | rfl | rfl <;> decide
  · show byteBits out ++ bits (UInt32.ofNat len).toNat (UInt32.ofNat acc).toNat = _
    rwa [htoNat, toNat_ofNat32 (by omega)]

/-- A character of the alphabet keeps the invariant: six bits go in, and eight come
out when they are there. -/
theorem exact_decodeNext (h : Exact s consumed) (hc : sextet? c = some v) :
    Exact (decodeNext s.acc.toNat s.accLen.toNat v s.out) (consumed ++ [c]) := by
  obtain ⟨hv, -⟩ := sextet?_eq_some.mp hc
  have hlen := h.accLen_cases
  have hacc := h.acc_lt
  have hbits : byteBits s.out ++ bits (s.accLen.toNat + 6) (s.acc.toNat * 64 + v) =
      textBits (consumed ++ [c]) := by
    rw [textBits_append, textBits_singleton hc, ← h.bits_eq, List.append_assoc]
    exact congrArg (byteBits s.out ++ ·) (bits_mul_add hv)
  revert hlen hacc hbits
  generalize s.acc.toNat = acc, s.accLen.toNat = len
  intro hlen hacc hbits
  unfold decodeNext
  split
  next hlt =>
    -- the accumulator was empty
    obtain rfl : len = 0 := by omega
    exact exact_decodeState (by omega) (by omega) hbits
  next hle =>
    -- eight bits leave the accumulator, and the mask clears them
    have hpow : 2 ^ (len + 6) = 256 * 2 ^ (len - 2) := by
      rw [show len + 6 = 8 + (len - 2) by omega, Nat.pow_add]
    have hn : acc * 64 + v < 256 * 2 ^ (len - 2) := by
      rw [← hpow, Nat.pow_add]
      omega
    have hbyte : (acc * 64 + v) / 2 ^ (len - 2) < 256 := Nat.div_lt_of_lt_mul (by omega)
    refine exact_decodeState (Nat.mod_lt _ (Nat.two_pow_pos _)) (by omega) ?_
    rw [← hbits, byteBits_append, byteBits_singleton, UInt8.toNat_ofNat_of_lt' hbyte,
      List.append_assoc, ← bits_add, show 8 + (len - 2) = len + 6 by omega]

/-- The bounds of the invariant keep the step from losing a bit. -/
theorem Exact.lossless (h : Exact s consumed) (hv : v < 64) : Lossless s (UInt32.ofNat v) := by
  have hlen := h.accLen_cases
  have hpow : 2 ^ s.accLen.toNat ≤ 2 ^ 6 := Nat.pow_le_pow_right (by omega) (by omega)
  have hacc : s.acc.toNat < 64 := Nat.lt_of_lt_of_le h.acc_lt hpow
  have hshift : s.acc <<< 6 ||| UInt32.ofNat v = UInt32.ofNat (s.acc.toNat * 64 + v) := by
    conv_lhs => rw [← UInt32.ofNat_toNat (x := s.acc)]
    exact shiftLeft_or (by omega) hv
  have hnat : (s.acc <<< 6 ||| UInt32.ofNat v).toNat = s.acc.toNat * 64 + v := by
    rw [hshift, toNat_ofNat32 (by omega)]
  refine ⟨by rw [hnat, toNat_ofNat32 (by omega)], fun hle => ?_⟩
  have hsub : (s.accLen + 6 - 8).toNat = s.accLen.toNat - 2 := by
    have hmem := h.accLen_mem
    generalize s.accLen = len at hmem hle ⊢
    simp only [List.mem_cons, List.not_mem_nil, or_false] at hmem
    rcases hmem with rfl | rfl | rfl | rfl
    · exact absurd hle (by decide)
    · rfl
    · rfl
    · rfl
  have hbits : s.acc.toNat * 64 + v < 2 ^ (s.accLen.toNat - 2) * 256 := by
    have hacc := h.acc_lt
    rcases hlen with heq | heq | heq | heq <;> rw [heq] at hacc hle ⊢ <;> omega
  rw [UInt32.toNat_shiftRight, hnat, hsub, Nat.mod_eq_of_lt (show _ < 32 by omega),
    Nat.shiftRight_eq_div_pow]
  exact Nat.div_lt_of_lt_mul hbits

/-- The padding character is none of the alphabet. -/
theorem sextet?_ne (hc : sextet? c = some v) : c ≠ '='.toUInt8 := by
  rintro rfl
  cases sextet?_padding.symm.trans hc

/-- The characters of a readable text that are not padding are all values. -/
theorem Readable.length_sextets {t : Bytes} (h : Readable t) :
    (sextets t).length = (t.filter (· ≠ '='.toUInt8)).length := by
  induction t with
  | nil => rfl
  | cons c t ih =>
    obtain ⟨hc, ht⟩ := List.forall_mem_cons.mp h
    rcases hc with rfl | ⟨v, hc⟩
    · rw [sextets, List.filterMap_cons_none sextet?_padding, ← sextets, ih ht,
        List.filter_cons_of_neg (by simp)]
    · rw [sextets, List.filterMap_cons_some hc, ← sextets, List.length_cons, ih ht,
        List.filter_cons_of_pos (by simpa using sextet?_ne hc), List.length_cons]

/-! ## The loop -/

variable {rest pre : Bytes}

/-- The loop skips padding, wherever it stands. -/
theorem base64urlLoop_padding : base64urlLoop s ('='.toUInt8 :: rest) = base64urlLoop s rest := by
  rw [base64urlLoop, if_pos rfl]

/-- It takes a character of the alphabet into the accumulator. -/
theorem base64urlLoop_char (h : Exact s consumed) (hc : sextet? c = some v) :
    base64urlLoop s (c :: rest) =
      base64urlLoop (decodeNext s.acc.toNat s.accLen.toNat v s.out) rest := by
  obtain ⟨hv, -⟩ := sextet?_eq_some.mp hc
  have hlen := h.accLen_cases
  have hstep : (base64urlStep s (UInt32.ofNat v)).Returns
      (decodeNext s.acc.toNat s.accLen.toNat v s.out) := by
    conv_lhs => rw [eq_decodeState s]
    exact returns_base64urlStep (by omega) h.acc_lt hv
  rw [base64urlLoop, if_neg (sextet?_ne hc), base64urlValue?_eq, hc]
  exact bind_of_returns hstep logs_base64urlStep

/-- It gives up at any other. -/
theorem base64urlLoop_foreign (hne : c ≠ '='.toUInt8) (hc : sextet? c = none) :
    base64urlLoop s (c :: rest) = pure none := by
  rw [base64urlLoop, if_neg hne, base64urlValue?_eq, hc]
  rfl

/-- One character of the alphabet, or padding, keeps the invariant. -/
theorem exact_step (h : Exact s consumed) (hc : c = '='.toUInt8 ∨ ∃ v, sextet? c = some v) :
    ∃ s', Exact s' (consumed ++ [c]) ∧
      ∀ rest, base64urlLoop s (c :: rest) = base64urlLoop s' rest := by
  rcases hc with rfl | ⟨v, hc⟩
  · refine ⟨s, ⟨h.acc_lt, h.accLen_mem, ?_⟩, fun rest => base64urlLoop_padding⟩
    rw [textBits_append, textBits_padding, List.append_nil]
    exact h.bits_eq
  · exact ⟨_, exact_decodeNext h hc, fun rest => base64urlLoop_char h hc⟩

/-- So does any text of them. -/
theorem exact_loop (h : Exact s consumed) (hpre : Readable pre) :
    ∃ s', Exact s' (consumed ++ pre) ∧
      ∀ rest, base64urlLoop s (pre ++ rest) = base64urlLoop s' rest := by
  -- the induction is on the text, and the invariant on what was read before it
  induction pre generalizing s consumed with
  | nil =>
    rw [List.append_nil]
    exact ⟨s, h, fun rest => rfl⟩
  | cons c pre ih =>
    obtain ⟨hc, hpre⟩ := List.forall_mem_cons.mp hpre
    obtain ⟨s₁, h₁, hstep⟩ := exact_step h hc
    obtain ⟨s₂, h₂, hloop⟩ := ih h₁ hpre
    rw [List.append_assoc, List.singleton_append] at h₂
    refine ⟨s₂, h₂, fun rest => ?_⟩
    rw [List.cons_append, hstep, hloop]

/-- Any other character ends the loop without a result. -/
theorem base64urlLoop_of_not_readable {t : Bytes} (h : Exact s consumed) (ht : ¬Readable t) :
    base64urlLoop s t = pure none := by
  induction t generalizing s consumed with
  | nil => exact absurd (fun c hc => absurd hc List.not_mem_nil) ht
  | cons c t ih =>
    by_cases hc : c = '='.toUInt8 ∨ ∃ v, sextet? c = some v
    -- the readable part in front is consumed first; the result is the same without it
    · obtain ⟨s', h', hstep⟩ := exact_step h hc
      have ht' : ¬Readable t := fun htail => ht (List.forall_mem_cons.mpr ⟨hc, htail⟩)
      rw [hstep, ih h' ht']
    · obtain ⟨hne, hnone⟩ := not_or.mp hc
      exact base64urlLoop_foreign hne (Option.eq_none_iff_forall_ne_some.mpr fun v hv =>
        hnone ⟨v, hv⟩)

/-- Padding behind a text changes nothing. -/
theorem base64urlLoop_append_padding (t : Bytes) (n : Nat) :
    base64urlLoop s (t ++ List.replicate n '='.toUInt8) = base64urlLoop s t := by
  induction t generalizing s with
  | nil =>
    induction n with
    | zero => rfl
    | succ n ih =>
      rw [List.nil_append, List.replicate_succ, base64urlLoop_padding]
      exact ih
  | cons c t ih =>
    rw [List.cons_append, base64urlLoop, base64urlLoop]
    simp only [ih]

/-! ## The result -/

variable {x b : Bytes}

/-- The capacity the decoder asks for can be computed. -/
def CapacityFits (x : Bytes) : Prop := x.length * 3 + 3 < 2 ^ 64

/-- What the decoder makes of the loop's variables. -/
def decodeResult : Option DecodeState → Result (Option Bytes)
  | none => pure none
  | some s => if s.accLen ≥ 8 then pure none else pure (some s.out)

/-- Behind the capacity the decoder is its loop. -/
theorem base64urlDecode_eq (hfits : CapacityFits x) :
    base64urlDecode x = base64urlLoop ⟨0, 0, []⟩ x >>= decodeResult := by
  unfold CapacityFits at hfits
  unfold base64urlDecode
  by_cases hnil : x = []
  · subst hnil
    rfl
  · have hmul : (usizeMul x.length 3 : Result Nat).Returns (x.length * 3) :=
      returns_usizeMul.mpr ⟨rfl, by omega⟩
    have hadd : (usizeAdd (x.length * 3) 3 : Result Nat).Returns (x.length * 3 + 3) :=
      returns_usizeAdd.mpr ⟨rfl, hfits⟩
    have hcap : (withCapacity ((x.length * 3 + 3) / 4) : Result Unit).Returns () :=
      returns_withCapacity.mpr (by omega)
    rw [if_neg (by rwa [List.isEmpty_iff]), bind_of_returns hmul logs_usizeMul,
      bind_of_returns hadd logs_usizeAdd, bind_of_returns hcap logs_withCapacity]
    rfl

/-- A text of padding and alphabet is decoded to the bytes of the loop. -/
theorem decode_of_readable (hfits : CapacityFits x) (hx : Readable x) :
    ∃ s, Exact s x ∧ base64urlDecode x = pure (some s.out) := by
  obtain ⟨s, hs, hloop⟩ := exact_loop exact_initial hx
  have hend := hloop []
  have hlen := hs.accLen_cases
  -- the check behind the loop, `acc_len >= 8`, never refuses anything
  have hlt : ¬s.accLen ≥ 8 := by
    rw [ge_iff_le, UInt32.le_iff_toNat_le]
    show ¬8 ≤ s.accLen.toNat
    omega
  rw [List.append_nil] at hend
  refine ⟨s, hs, ?_⟩
  rw [base64urlDecode_eq hfits, hend, base64urlLoop,
    bind_of_returns (returns_pure.mpr rfl) logs_pure]
  exact if_neg hlt

/-- A text with a character that is neither of the alphabet nor padding is refused. -/
theorem decode_of_not_readable (hfits : CapacityFits x) (hx : ¬Readable x) :
    base64urlDecode x = pure none := by
  rw [base64urlDecode_eq hfits, base64urlLoop_of_not_readable exact_initial hx]
  rfl

/-- An answer means that the capacity did not overflow. -/
theorem capacityFits_of_returns {o : Option Bytes} (h : (base64urlDecode x).Returns o) :
    CapacityFits x := by
  unfold CapacityFits
  by_cases hnil : x = []
  · subst hnil
    decide
  · unfold base64urlDecode at h
    rw [if_neg (by rwa [List.isEmpty_iff])] at h
    simp only [returns_bind, returns_usizeMul, returns_usizeAdd] at h
    obtain ⟨_, ⟨rfl, -⟩, _, ⟨rfl, hlt⟩, -⟩ := h
    exact hlt

/-- What was decoded is what the loop put out. -/
theorem exact_of_returns (h : (base64urlDecode x).Returns (some b)) :
    ∃ s, Exact s x ∧ Readable x ∧ s.out = b := by
  have hfits := capacityFits_of_returns h
  by_cases hx : Readable x
  · obtain ⟨s, hs, heq⟩ := decode_of_readable hfits hx
    rw [heq, returns_pure] at h
    exact ⟨s, hs, hx, Option.some.inj h⟩
  · rw [decode_of_not_readable hfits hx, returns_pure] at h
    cases h

/-- The whole bytes of the text's bits. -/
theorem Exact.byteBits_out (h : Exact s consumed) :
    byteBits s.out = (textBits consumed).take (8 * (6 * (sextets consumed).length / 8)) := by
  have hlen := h.accLen_cases
  have hcount : 8 * s.out.length + s.accLen.toNat = 6 * (sextets consumed).length := by
    rw [← length_textBits, ← h.bits_eq, List.length_append, length_byteBits, length_bits]
  have hwhole : 8 * (6 * (sextets consumed).length / 8) = (byteBits s.out).length := by
    rw [length_byteBits]
    omega
  rw [hwhole, ← h.bits_eq, List.take_left]

/-- Removing padding keeps a text within the capacity. -/
theorem capacityFits_unpadded (hfits : CapacityFits x) : CapacityFits (unpadded x) := by
  obtain ⟨n, hn⟩ := append_padding x
  have hlen := congrArg List.length hn
  rw [List.length_append] at hlen
  unfold CapacityFits at hfits ⊢
  omega

/-- Padding behind a text does not matter to the decoder. -/
theorem decode_unpadded (hfits : CapacityFits x) :
    base64urlDecode (unpadded x) = base64urlDecode x := by
  obtain ⟨n, hn⟩ := append_padding x
  conv_rhs => rw [base64urlDecode_eq hfits, hn, base64urlLoop_append_padding]
  rw [base64urlDecode_eq (capacityFits_unpadded hfits)]

end Trana.Guard
