import Trana.Guard.Accumulator

/-!
# What the challenge decoder accepts

The decoder on chain is to undo base64url and to refuse everything else.

* `accumulator_exact` — it does undo it: it never loses a bit, and what it
  returns are the whole bytes of its text.
* `decoder_exact` — it does not refuse everything else. Its last check is for
  eight bits that the loop never holds, so bits left over are dropped, as is
  padding wherever it stands.
* `leftover_bits_dropped` — three texts that decode and encode nothing.

To decode exactly is to accept a text when some bytes encode to it, padding at
the end allowed, and to return these bytes. The texts on which the decoder does
are those with a foreign character, which it refuses as it should, and those in
canonical form: a length that is not one above a multiple of four, leftover bits
zero, padding at the end alone.

The capacity of the output vector is computed before the loop, with `usize`
arithmetic that has overflow checks on; `CapacityFits` is where it does not
overflow. No text that fits in memory comes near it.

Two texts that decode to the same bytes differ in their padding only, as long as
both are decoded exactly, so within the exact texts a challenge has one spelling.
-/

namespace Trana.Security

open Trana.Lib Trana.Lib.Exec Trana.Guard

/-! ## The accumulator -/

/-- The accumulator is exact in every run over any text, the decoder returns
the whole bytes of the bits of its text, and so decodes each encoding. -/
theorem accumulator_exact (x : Bytes) :
    (∀ pre rest, x = pre ++ rest → Readable pre →
      ∃ s, (base64urlLoop ⟨0, 0, []⟩ pre).Returns (some s) ∧ Exact s pre ∧
        base64urlLoop ⟨0, 0, []⟩ x = base64urlLoop s rest ∧
        ∀ v < 64, Lossless s (UInt32.ofNat v)) ∧
    (∀ b, (base64urlDecode x).Returns (some b) →
      byteBits b =
        (textBits x).take (8 * (6 * (x.filter (· ≠ '='.toUInt8)).length / 8))) ∧
    ∀ b, x = base64urlEncode b → CapacityFits x → (base64urlDecode x).Returns (some b) := by
  refine ⟨?_, ?_, ?_⟩
  · rintro pre rest rfl hpre
    obtain ⟨s, hs, hloop⟩ := exact_loop exact_initial hpre
    have hend := hloop []
    rw [List.append_nil] at hend
    refine ⟨s, ?_, hs, hloop rest, fun v hv => hs.lossless hv⟩
    rw [hend, base64urlLoop, returns_pure]
  · intro b hb
    obtain ⟨s, hs, hx, rfl⟩ := exact_of_returns hb
    rw [← hx.length_sextets]
    exact hs.byteBits_out
  · rintro b rfl hfits
    exact base64urlDecode_encode_of_fits hfits

/-! ## Texts it should refuse -/

variable {x y b : Bytes}

/-- The decoder returns bytes exactly when the text is their encoding, apart
from padding behind it, and nothing for all other texts. -/
def DecodesExactly (x : Bytes) : Prop :=
  (∀ b, (base64urlDecode x).Returns (some b) ↔ unpadded x = base64urlEncode b) ∧
    ((∀ b, unpadded x ≠ base64urlEncode b) → (base64urlDecode x).Returns none)

theorem readable_of_unpadded (h : Canonical (unpadded x)) : Readable x := by
  obtain ⟨n, hn⟩ := append_padding x
  intro c hc
  rw [hn, List.mem_append] at hc
  rcases hc with hc | hc
  · exact Or.inr (h.alphabet c hc)
  · exact Or.inl (List.eq_of_mem_replicate hc)

theorem base64urlEncode_inj {a b : Bytes} (hfits : CapacityFits (base64urlEncode a))
    (h : base64urlEncode a = base64urlEncode b) : a = b := by
  have ha := base64urlDecode_encode_of_fits hfits
  rw [h] at ha hfits
  exact Option.some.inj (ha.unique (base64urlDecode_encode_of_fits hfits))

/-- What is written in canonical form is decoded, and to one value. -/
theorem decodesExactly_of_canonical (hfits : CapacityFits x) (h : Canonical (unpadded x)) :
    DecodesExactly x := by
  obtain ⟨b, hb⟩ := canonical_iff.mp h
  have hfits' : CapacityFits (base64urlEncode b) := hb ▸ capacityFits_unpadded hfits
  have hdecode : (base64urlDecode x).Returns (some b) := by
    rw [← decode_unpadded hfits, hb]
    exact base64urlDecode_encode_of_fits hfits'
  refine ⟨fun b' => ⟨fun h' => ?_, fun h' => ?_⟩, fun hne => absurd hb (hne b)⟩
  · rw [hb, Option.some.inj (hdecode.unique h')]
  · rwa [← base64urlEncode_inj hfits' (hb.symm.trans h')]

/-- So is a text with a foreign character refused. -/
theorem decodesExactly_of_not_readable (hfits : CapacityFits x) (h : ¬Readable x) :
    DecodesExactly x := by
  have hnone : (base64urlDecode x).Returns none := by
    rw [decode_of_not_readable hfits h, returns_pure]
  have hne : ∀ b, unpadded x ≠ base64urlEncode b := fun b hb =>
    h (readable_of_unpadded (canonical_iff.mpr ⟨b, hb⟩))
  exact ⟨fun b => ⟨fun hb => absurd (hnone.unique hb) (by simp), fun hb => absurd hb (hne b)⟩,
    fun _ => hnone⟩

/-- The decoder keeps to this exactly on the texts with a foreign character and
on those in canonical form, as far as its capacity goes; and no two of them
decode to the same bytes unless they differ in their padding only. -/
theorem decoder_exact (x : Bytes) :
    (DecodesExactly x ↔ CapacityFits x ∧ (¬Readable x ∨ Canonical (unpadded x))) ∧
    ∀ y b, DecodesExactly x → DecodesExactly y → (base64urlDecode x).Returns (some b) →
      (base64urlDecode y).Returns (some b) → unpadded x = unpadded y := by
  refine ⟨⟨fun h => ?_, fun h => ?_⟩, fun y b hx hy hbx hby => ?_⟩
  -- an exact decoder returns, so the capacity was computed without overflow
  · have hfits : CapacityFits x := by
      by_cases hcanonical : ∃ b, unpadded x = base64urlEncode b
      · obtain ⟨b, hb⟩ := hcanonical
        exact capacityFits_of_returns ((h.1 b).mpr hb)
      · exact capacityFits_of_returns (h.2 (not_exists.mp hcanonical))
    refine ⟨hfits, or_iff_not_imp_left.mpr fun hreadable => ?_⟩
    obtain ⟨s, -, hs⟩ := decode_of_readable hfits (not_not.mp hreadable)
    exact canonical_iff.mpr ⟨s.out, (h.1 s.out).mp (by rw [hs, returns_pure])⟩
  · obtain ⟨hfits, hreadable | hcanonical⟩ := h
    · exact decodesExactly_of_not_readable hfits hreadable
    · exact decodesExactly_of_canonical hfits hcanonical
  · exact ((hx.1 b).mp hbx).trans ((hy.1 b).mp hby).symm

/-- "AB" is decoded like "AA", the encoding of a zero byte; a single "A" and
one with padding inside are decoded as well. -/
theorem leftover_bits_dropped :
    ¬DecodesExactly (Codec.utf8 "AB") ∧
    (base64urlDecode (Codec.utf8 "AB")).Returns (some [0]) ∧
    (base64urlDecode (Codec.utf8 "AA")).Returns (some [0]) ∧
    base64urlEncode [0] = Codec.utf8 "AA" ∧
    (base64urlDecode (Codec.utf8 "A")).Returns (some []) ∧
    (base64urlDecode (Codec.utf8 "A=A")).Returns (some [0]) := by
  have hdecode : (base64urlDecode (Codec.utf8 "AB")).Returns (some [0]) := by decide +kernel
  refine ⟨fun h => ?_, hdecode, by decide +kernel, by decide +kernel, by decide +kernel,
    by decide +kernel⟩
  have hencode : unpadded (Codec.utf8 "AB") ≠ base64urlEncode [0] := by decide +kernel
  exact hencode ((h.1 [0]).mp hdecode)

end Trana.Security
