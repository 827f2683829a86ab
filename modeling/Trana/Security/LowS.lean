import Trana.Sdk.Testing

/-!
# From an authenticator's signature to the precompile's

An authenticator signs in DER, the precompile takes 64 bytes and refuses the
higher of the two values `s` can have.

* `signature_conversion` — both copies of the conversion give the 64 bytes of
  `r` and the lower `s`, and leave these as they are.
* `ensureLowS_exact` — the software signer's copy of the normalisation does not:
  it writes the lower `s` into a copy of its result.
* `high_s_lost` — the highest `s` comes out as zero.

The DER side has integers of one to 33 bytes, with the zero in front of a high
first byte, and the long form of a length where it is needed; the conversion
reads offsets off the bytes, where JavaScript gives `undefined` past the end.
The numbers go through hexadecimal text and `BigInt`.

The software signer is in the package's module for tests, and writes its result
in place: `Buffer.from` of a typed array copies it, so the lower `s` goes into
the copy and the array that is returned keeps its zeros. The heap of the model
has both. For an `s` that is low already nothing is written, and the two agree.
-/

namespace Trana.Security

open Trana.Lib Trana.Sdk Trana.Sdk.Js

variable {r s : Nat}

theorem derImage_eq_sequence (hr : r < 256 ^ 32) (hs : s < 256 ^ 32) :
    ∃ t < 128, Der.sequence [Der.integer r, Der.integer s] =
      derImage t (Der.integerContents r) (Der.integerContents s) := by
  obtain ⟨t, ht, heq⟩ := Der.sequence_integers hr hs
  refine ⟨t, ht, heq.trans ?_⟩
  rw [derImage, List.append_assoc]
  rfl

theorem spells_integerContents (h : r < 256 ^ 32) : Spells (Der.integerContents r) r :=
  Der.integerContents_cases h (by omega)

section Halves

variable (r s)

theorem length_compactOf : (compactOf r s).length = 64 := by
  rw [compactOf, List.length_append, length_beBytes, length_beBytes]

theorem take_compactOf : (compactOf r s).take 32 = beBytes 32 r := by
  rw [compactOf, List.take_left' (length_beBytes 32 r)]

theorem drop_compactOf : (compactOf r s).drop 32 = beBytes 32 s := by
  rw [compactOf, List.drop_left' (length_beBytes 32 r)]

end Halves

theorem beNat_drop_compactOf (hs : s < 256 ^ 32) : beNat ((compactOf r s).drop 32) = s := by
  rw [drop_compactOf, beNat_beBytes hs]

theorem lowForm_compactOf (hs : s < 256 ^ 32) :
    lowForm (compactOf r s) = compactOf r (min s (P256.N - s)) := by
  rw [lowForm, take_compactOf, beNat_drop_compactOf hs, compactOf]

/-- The lower one of two values that add up to `N`. -/
theorem min_min_sub (h : s < P256.N) :
    min (min s (P256.N - s)) (P256.N - min s (P256.N - s)) = min s (P256.N - s) := by
  omega

/-- A signature of two values below the order comes out of both copies of the
conversion as `r` and the lower of `s` and `N - s`, and stays the same when it
is normalised once more. -/
theorem signature_conversion (hrN : r < P256.N) (hsN : s < P256.N) :
    (Core.derToCompact (Der.sequence [Der.integer r, Der.integer s]) >>= Core.normalizeLowS) =
        .ok (beBytes 32 r ++ beBytes 32 (min s (P256.N - s))) ∧
      (React.derToCompact (Der.sequence [Der.integer r, Der.integer s]) >>= React.lowS) =
        .ok (beBytes 32 r ++ beBytes 32 (min s (P256.N - s))) ∧
      Core.normalizeLowS (beBytes 32 r ++ beBytes 32 (min s (P256.N - s))) =
        .ok (beBytes 32 r ++ beBytes 32 (min s (P256.N - s))) ∧
      React.lowS (beBytes 32 r ++ beBytes 32 (min s (P256.N - s))) =
        .ok (beBytes 32 r ++ beBytes 32 (min s (P256.N - s))) := by
  have hr' : r < 256 ^ 32 := Nat.lt_trans hrN P256.N_lt
  have hs' : s < 256 ^ 32 := Nat.lt_trans hsN P256.N_lt
  have hlow : min s (P256.N - s) < P256.N := Nat.lt_of_le_of_lt (Nat.min_le_left _ _) hsN
  have hlow' : min s (P256.N - s) < 256 ^ 32 := Nat.lt_trans hlow P256.N_lt
  obtain ⟨t, ht, hder⟩ := derImage_eq_sequence hr' hs'
  have hlen := length_compactOf r s
  have hlen' := length_compactOf r (min s (P256.N - s))
  have hsRead : beNat ((compactOf r s).drop 32) < P256.N := by
    rw [beNat_drop_compactOf hs']
    exact hsN
  have hlowRead : beNat ((compactOf r (min s (P256.N - s))).drop 32) < P256.N := by
    rw [beNat_drop_compactOf hlow']
    exact hlow
  have hform := lowForm_compactOf (r := r) hs'
  -- what comes out is low already, so once more changes nothing
  have hagain := lowForm_compactOf (r := r) hlow'
  rw [min_min_sub hsN] at hagain
  rw [hder, Core.derToCompact_eq (spells_integerContents hr') (spells_integerContents hs'),
    React.derToCompact_eq ht (spells_integerContents hr') (spells_integerContents hs'), ok_bind,
    ok_bind, ← compactOf]
  refine ⟨?_, ?_, ?_, ?_⟩
  · rw [Core.normalizeLowS_eq hlen hsRead, hform]
  · rw [React.lowS_eq hlen hsRead, hform]
  · rw [Core.normalizeLowS_eq hlen' hlowRead, hagain]
  · rw [React.lowS_eq hlen' hlowRead, hagain]

theorem one_lt_N : 1 < P256.N := by decide +kernel

/-- The smallest `r` and the largest `s`, which is 33 bytes in DER. -/
theorem signature_conversion_high :
    (1 < P256.N ∧ P256.N - 1 < P256.N) ∧
      (Core.derToCompact (Der.sequence [Der.integer 1, Der.integer (P256.N - 1)]) >>=
        Core.normalizeLowS) =
        .ok (beBytes 32 1 ++ beBytes 32 (min (P256.N - 1) (P256.N - (P256.N - 1)))) :=
  ⟨by decide +kernel, (signature_conversion (by decide +kernel) (by decide +kernel)).1⟩

/-! ## The software signer -/

variable {compact : Bytes}

/-- Both copies of `ensureLowS` return what `normalizeLowS` does, and that is
`r` and the lower `s`. -/
def MatchesProduction (compact : Bytes) : Prop :=
  HeapM.onBytes Testing.ensureLowS compact = Core.normalizeLowS compact ∧
    HeapM.onBytes TestingTs.ensureLowS compact = Core.normalizeLowS compact ∧
    Core.normalizeLowS compact = .ok (compact.take 32 ++
      beBytes 32 (min (beNat (compact.drop 32)) (P256.N - beNat (compact.drop 32))))

/-- Where `s` is high the result ends in zeros, and no lower `s` is zero. -/
theorem not_matchesProduction (hlen : compact.length = 64)
    (hN : beNat (compact.drop 32) < P256.N) (hhigh : ¬beNat (compact.drop 32) ≤ P256.halfN) :
    ¬MatchesProduction compact := by
  rintro ⟨h, -, -⟩
  have hlow : P256.N - beNat (compact.drop 32) < 256 ^ 32 :=
    Nat.lt_of_le_of_lt (Nat.sub_le _ _) P256.N_lt
  rw [Testing.ensureLowS_eq hlen, if_neg hhigh, Core.normalizeLowS_eq hlen hN,
    lowForm_high hN hhigh] at h
  have hzeros := List.append_cancel_left (Except.ok.inj h)
  have hnat := congrArg beNat hzeros
  have hzero : beNat (zeros 32) = 0 := by decide
  rw [beNat_beBytes hlow, hzero] at hnat
  omega

/-- The software signer's normalisation is production's exactly when there is
nothing to normalise. -/
theorem ensureLowS_exact (hlen : compact.length = 64) (hN : beNat (compact.drop 32) < P256.N) :
    MatchesProduction compact ↔ beNat (compact.drop 32) ≤ P256.halfN := by
  constructor
  · intro h
    by_contra hhigh
    exact not_matchesProduction hlen hN hhigh h
  · intro hlow
    have hproduction := Core.normalizeLowS_eq hlen hN
    have htesting := Testing.ensureLowS_eq hlen
    rw [if_pos hlow] at htesting
    have hsame : HeapM.onBytes Testing.ensureLowS compact = Core.normalizeLowS compact := by
      rw [htesting, hproduction, lowForm_low hlen hlow]
    exact ⟨hsame, hsame, hproduction⟩

theorem ensureLowS_exact_low :
    (compactOf 1 1).length = 64 ∧ MatchesProduction (compactOf 1 1) := by
  have hlow : beNat ((compactOf 1 1).drop 32) = 1 := beNat_drop_compactOf (by decide)
  refine ⟨length_compactOf 1 1, (ensureLowS_exact (length_compactOf 1 1) ?_).mpr ?_⟩
  · rw [hlow]
    decide +kernel
  · rw [hlow]
    decide +kernel

/-- The highest `s` comes out as zero. -/
theorem high_s_lost :
    ¬MatchesProduction (compactOf 1 (P256.N - 1)) ∧
      HeapM.onBytes Testing.ensureLowS (compactOf 1 (P256.N - 1)) =
        .ok (beBytes 32 1 ++ zeros 32) ∧
      Core.normalizeLowS (compactOf 1 (P256.N - 1)) = .ok (beBytes 32 1 ++ beBytes 32 1) := by
  have hread : beNat ((compactOf 1 (P256.N - 1)).drop 32) = P256.N - 1 :=
    beNat_drop_compactOf (by decide +kernel)
  have hN : beNat ((compactOf 1 (P256.N - 1)).drop 32) < P256.N := by
    rw [hread]
    decide +kernel
  have hhigh : ¬beNat ((compactOf 1 (P256.N - 1)).drop 32) ≤ P256.halfN := by
    rw [hread]
    decide +kernel
  have hlen := length_compactOf 1 (P256.N - 1)
  refine ⟨not_matchesProduction hlen hN hhigh, ?_, ?_⟩
  · rw [Testing.ensureLowS_eq hlen, if_neg hhigh, take_compactOf]
  · rw [Core.normalizeLowS_eq hlen hN, lowForm_high hN hhigh, take_compactOf, hread,
      Nat.sub_sub_self (Nat.le_of_lt one_lt_N)]

end Trana.Security
