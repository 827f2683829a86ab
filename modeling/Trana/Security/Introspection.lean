import Trana.Guard.NoPanic
import Trana.Sdk.Transaction

/-!
# Instruction introspection

The verification reads the transaction around it: the protected instruction and
the two in front of it, at indices it computes from the current one.

* `verification_total` — whatever these contain, it ends with a value or an
  error.
* `verifyAtIdx_congr` — it depends on the three instructions only.
* `verification_position` — so it is the same wherever the three stand.

Everything in the source that could panic has a panic as an outcome in the
model: slicing and indexing, `usize` and `u64` arithmetic with overflow checks
on, `expect` and `unwrap`, the conversion of slices to arrays. Loops run over
lists and end with these. What is left out is what the runtime stops from
outside: compute units, heap and stack.

The indices are `u16`, and a transaction is too small for 65536 instructions;
`hfit` is where the index does not wrap. The index stored in the sysvar does not
matter to `verify_at_idx`, which is given its place, so on both sides it is any.
-/

namespace Trana.Security

open Trana.Lib Trana.Lib.Exec Trana.Solana Trana.Guard

/-- On any transaction, at any index and offset, for any registry and clock. -/
theorem verification_total (clock : Clock) (ixSysvar : InstructionsSysvar)
    (registry : PasskeyRegistry) (owner guardId : Pubkey) (policy : String) (currentIdx : UInt16)
    (paramOffset : UInt8) :
    (readU64FromProtectedIx ixSysvar paramOffset).NoPanic ∧
      (verifyWithPolicy clock ixSysvar registry owner guardId policy).NoPanic ∧
      (verifyAtIdx clock ixSysvar registry owner guardId policy currentIdx).NoPanic :=
  ⟨noPanic_readU64 ixSysvar paramOffset,
    noPanic_verifyWithPolicy clock ixSysvar registry owner guardId policy,
    noPanic_verifyAtIdx clock ixSysvar registry owner guardId policy currentIdx⟩

/-! ## Position -/

section Position

variable {clock : Clock} {ixSysvar ixSysvar' : InstructionsSysvar} {registry : PasskeyRegistry}
  {owner guardId : Pubkey} {policy : String} {i i' : UInt16}

/-- The instruction at an index and the two in front of it are the same in both transactions. -/
structure SameTriple (ixSysvar ixSysvar' : InstructionsSysvar) (i i' : UInt16) : Prop where
  two_le : 2 ≤ i.toNat
  two_le' : 2 ≤ i'.toNat
  protectedIx : loadInstructionAtChecked i.toNat ixSysvar =
    loadInstructionAtChecked i'.toNat ixSysvar'
  proofIx : loadInstructionAtChecked (i.toNat - 1) ixSysvar =
    loadInstructionAtChecked (i'.toNat - 1) ixSysvar'
  secpIx : loadInstructionAtChecked (i.toNat - 2) ixSysvar =
    loadInstructionAtChecked (i'.toNat - 2) ixSysvar'

/-- A subtraction that fits. -/
theorem unsignedSub_eq {ε ℓ : Type} {a b : Nat} (h : b ≤ a) :
    (unsignedSub a b : Exec ε ℓ Nat) = pure (a - b) :=
  if_pos h

theorem pure_bind_eq {ε ℓ α β : Type} (a : α) (f : α → Exec ε ℓ β) : pure a >>= f = f a := rfl

theorem loadProof_congr (h : SameTriple ixSysvar ixSysvar' i i') :
    loadProofFromPrecedingIx ixSysvar i guardId =
      loadProofFromPrecedingIx ixSysvar' i' guardId := by
  have hone : 1 ≤ i.toNat := Nat.le_of_succ_le h.two_le
  have hone' : 1 ≤ i'.toNat := Nat.le_of_succ_le h.two_le'
  unfold loadProofFromPrecedingIx
  rw [unsignedSub_eq hone, unsignedSub_eq hone', pure_bind_eq, pure_bind_eq, h.proofIx]

theorem runVerification_congr (h : SameTriple ixSysvar ixSysvar' i i') (proof : ProofData) :
    runVerification clock ixSysvar registry owner guardId i proof policy =
      runVerification clock ixSysvar' registry owner guardId i' proof policy := by
  unfold runVerification
  rw [unsignedSub_eq h.two_le, unsignedSub_eq h.two_le', h.protectedIx]
  simp only [pure_bind_eq]
  rw [h.secpIx]

/-- The verification reads nothing but the triple. -/
theorem verifyAtIdx_congr (h : SameTriple ixSysvar ixSysvar' i i') :
    verifyAtIdx clock ixSysvar registry owner guardId policy i =
      verifyAtIdx clock ixSysvar' registry owner guardId policy i' := by
  have htwo : 2 ≤ i := UInt16.le_iff_toNat_le.mpr h.two_le
  have htwo' : 2 ≤ i' := UInt16.le_iff_toNat_le.mpr h.two_le'
  have hi : requireProof (2 ≤ i) = pure () := if_pos htwo
  have hi' : requireProof (2 ≤ i') = pure () := if_pos htwo'
  unfold verifyAtIdx
  rw [hi, hi', loadProof_congr h]
  simp only [runVerification_congr h]

/-- Whatever stands in front of a triple or behind it. -/
theorem sameTriple_append {pre post : List Instruction} {secpIx proofIx ix : Instruction}
    {current current' : UInt16} (hfit : pre.length + 2 < 65536) :
    SameTriple ⟨pre ++ [secpIx, proofIx, ix] ++ post, current⟩ ⟨[secpIx, proofIx, ix], current'⟩
      (UInt16.ofNat (pre.length + 2)) 2 := by
  have hidx : (UInt16.ofNat (pre.length + 2)).toNat = pre.length + 2 :=
    UInt16.toNat_ofNat_of_lt' hfit
  -- the three instructions stand next to each other on both sides
  have hget : ∀ k < 3, (pre ++ [secpIx, proofIx, ix] ++ post)[pre.length + k]? =
      [secpIx, proofIx, ix][k]? := by
    intro k hk
    rw [List.append_assoc, List.getElem?_append_right (Nat.le_add_right _ _),
      Nat.add_sub_cancel_left, List.getElem?_append_left hk]
  refine ⟨?_, ?_, ?_, ?_, ?_⟩
  · rw [hidx]
    omega
  · exact Nat.le_refl 2
  · rw [hidx]
    exact hget 2 (by omega)
  · rw [hidx]
    exact hget 1 (by omega)
  · rw [hidx]
    exact hget 0 (by omega)

end Position

/-- A triple verifies the same wherever it stands: the same result or error, the
same registry and the same log. -/
theorem verification_position {pre post : List Instruction} {secpIx proofIx ix : Instruction}
    {current current' : UInt16} (clock : Clock) (registry : PasskeyRegistry)
    (owner guardId : Pubkey) (policy : String) (hfit : pre.length + 2 < 65536) :
    verifyAtIdx clock ⟨pre ++ [secpIx, proofIx, ix] ++ post, current⟩ registry owner guardId
        policy (UInt16.ofNat (pre.length + 2)) =
      verifyAtIdx clock ⟨[secpIx, proofIx, ix], current'⟩ registry owner guardId policy 2 :=
  verifyAtIdx_congr (sameTriple_append hfit)

section Localnet

open Sdk.Localnet

/-- The approved call between two copies of its protected instruction. -/
theorem verification_position_second :
    verifyAtIdx ⟨5, 500⟩ ⟨[protectedIx] ++
          [approval.secpIx (challenge policyRequire protectedIx 0),
            approval.recordProofIx localnetId (challenge policyRequire protectedIx 0) 1000
              policyRequire,
            protectedIx] ++ [protectedIx], 3⟩ (registry 0) wallet localnetId policyRequire
        (UInt16.ofNat ([protectedIx].length + 2)) =
      verifyAtIdx ⟨5, 500⟩ ⟨[approval.secpIx (challenge policyRequire protectedIx 0),
            approval.recordProofIx localnetId (challenge policyRequire protectedIx 0) 1000
              policyRequire,
            protectedIx], 2⟩ (registry 0) wallet localnetId policyRequire 2 :=
  verification_position ⟨5, 500⟩ (registry 0) wallet localnetId policyRequire (by decide)

end Localnet

end Trana.Security
