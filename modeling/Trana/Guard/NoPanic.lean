import Trana.Guard.Decoder
import Trana.Lib.NoPanic

/-!
# Verification does not panic

Rust panics where an index is out of range, an addition overflows (the release
profile has `overflow-checks = true`) or an `expect` finds nothing; the model of
each such access has a panicking outcome (`Trana.Lib.NoPanic`). Here is, function
by function of `verify.rs`, the guard that each access stands behind.

* `noPanic_base64urlDecode` — the accumulator holds fewer than eight bits before
  each character, so no shift is by the width of the word.
* `noPanic_readU64` — the byte window of the amount is inside the data or the
  function has returned.
* `noPanic_loadProof` — the index of the preceding instruction is not below zero.
* `noPanic_verifyAtIdx`, `noPanic_verifyWithPolicy` — the two entry points.

Byte strings inside a proof are shorter than `2 ^ 32`, as their Borsh length
says (`ProofAt.short`), and so is the policy string that was compared with the
proof's; no bound is assumed of a caller.
-/

namespace Trana.Guard

open Trana.Lib Trana.Lib.Exec Trana.Solana

/-! ## The decoder -/

/-- The decoder's values have six bits. -/
theorem base64urlValue?_lt {c : UInt8} {val : UInt32} (h : base64urlValue? c = some val) :
    ∃ v < 64, val = UInt32.ofNat v := by
  have hall : ∀ n < 256, (base64urlValue? (UInt8.ofNat n)).all (·.toNat < 64) = true := by
    decide +kernel
  have hc := hall c.toNat c.toNat_lt
  rw [UInt8.ofNat_toNat, h, Option.all_some, decide_eq_true_eq] at hc
  exact ⟨val.toNat, hc, UInt32.ofNat_toNat.symm⟩

/-- After a step fewer than eight bits are left. -/
theorem decodeNext_bounded {acc len v : Nat} {out : Bytes} (hlen : len < 8) (hacc : acc < 2 ^ len)
    (hv : v < 64) :
    ∃ acc' len' out', decodeNext acc len v out = decodeState acc' len' out' ∧ len' < 8 ∧
      acc' < 2 ^ len' := by
  unfold decodeNext
  by_cases h2 : len < 2
  · rw [if_pos h2]
    have hpow : 2 ^ (len + 6) = 2 ^ len * 64 := Nat.pow_add 2 len 6
    exact ⟨_, _, _, rfl, by omega, by omega⟩
  · rw [if_neg h2]
    exact ⟨_, _, _, rfl, by omega, Nat.mod_lt _ (Nat.two_pow_pos _)⟩

/-- With fewer than eight bits held, the loop's shifts and its subtraction are in range. -/
theorem noPanic_base64urlLoop {input out : Bytes} {acc len : Nat} (hlen : len < 8)
    (hacc : acc < 2 ^ len) : (base64urlLoop (decodeState acc len out) input).NoPanic := by
  induction input generalizing acc len out with
  | nil => exact noPanic_pure
  | cons c rest ih =>
    rw [base64urlLoop]
    refine noPanic_ite.mpr ⟨fun _ => ih hlen hacc, fun _ => ?_⟩
    cases hval : base64urlValue? c with
    | none => exact noPanic_pure
    | some val =>
      obtain ⟨v, hv, rfl⟩ := base64urlValue?_lt hval
      -- seven or fewer bits before the step, seven or fewer behind it
      have hstep : (base64urlStep (decodeState acc len out) (UInt32.ofNat v)).Returns
          (decodeNext acc len v out) := returns_base64urlStep hlen hacc hv
      refine noPanic_bind.mpr ⟨hstep.noPanic, fun s hs => ?_⟩
      obtain rfl := hs.unique hstep
      obtain ⟨acc', len', out', heq, hlen', hacc'⟩ :
          ∃ acc' len' out', decodeNext acc len v out = decodeState acc' len' out' ∧ len' < 8 ∧
            acc' < 2 ^ len' := decodeNext_bounded hlen hacc hv
      rw [heq]
      exact ih hlen' hacc'

/-- The capacity of the output is computed in `usize` and does not overflow. -/
theorem noPanic_base64urlDecode {input : Bytes} (h : input.length < 2 ^ 32) :
    (base64urlDecode input).NoPanic := by
  unfold base64urlDecode
  refine noPanic_ite.mpr ⟨fun _ => noPanic_pure, fun _ => ?_⟩
  simp only [noPanic_bind, noPanic_usizeMul, returns_usizeMul, noPanic_usizeAdd, returns_usizeAdd,
    noPanic_withCapacity]
  -- an empty text returns before the capacity is computed
  refine ⟨by omega, fun bits hbits => ⟨by omega, fun total htotal => ⟨by omega, fun _ _ => ?_⟩⟩⟩
  have hloop : (base64urlLoop (decodeState 0 0 []) input).NoPanic :=
    noPanic_base64urlLoop (by omega) (by omega)
  refine ⟨hloop, fun s _ => ?_⟩
  cases s with
  | none => exact noPanic_pure
  | some s => exact noPanic_ite.mpr ⟨fun _ => noPanic_pure, fun _ => noPanic_pure⟩

/-! ## The challenge -/

/-- As many windows as there are places for them. -/
theorem length_windows (n : Nat) (bs : Bytes) : (windows n bs).length = bs.length + 1 - n := by
  simp [windows]

/-- A match of the key ends inside the text, and so does the challenge. -/
theorem noPanic_extractChallenge {clientDataJson : Bytes} (h : clientDataJson.length < 2 ^ 63) :
    (extractChallenge clientDataJson).NoPanic := by
  unfold extractChallenge
  split
  next => exact noPanic_pure
  next position hposition =>
    -- the window search ends where the key still fits, so the start behind it is in range
    obtain ⟨hlt, -⟩ := List.findIdx?_eq_some_iff_getElem.mp hposition
    rw [length_windows] at hlt
    simp only [noPanic_bind, noPanic_usizeAdd, returns_usizeAdd, noPanic_sliceFrom,
      returns_sliceFrom]
    refine ⟨by omega, fun start hstart => ⟨by omega, fun tail htail => ?_⟩⟩
    obtain ⟨-, rfl⟩ := htail
    split
    next => exact noPanic_pure
    next quote hquote =>
      obtain ⟨hquote, -⟩ := List.findIdx?_eq_some_iff_getElem.mp hquote
      rw [List.length_drop] at hquote
      simp only [noPanic_bind, noPanic_usizeAdd, returns_usizeAdd, noPanic_slice]
      exact ⟨by omega, fun stop hstop => ⟨by omega, fun _ _ => noPanic_pure⟩⟩

/-- The challenge is part of the client data. -/
theorem length_extractChallenge {clientDataJson c : Bytes}
    (h : (extractChallenge clientDataJson).Returns (some c)) :
    c.length ≤ clientDataJson.length := by
  unfold extractChallenge at h
  split at h
  next => cases returns_pure.mp h
  next position _ =>
    simp only [returns_bind] at h
    obtain ⟨start, -, tail, -, h⟩ := h
    split at h
    next => cases returns_pure.mp h
    next quote _ =>
      simp only [returns_bind, returns_slice, returns_pure, Option.some.injEq] at h
      obtain ⟨stop, -, _, ⟨-, -, rfl⟩, rfl⟩ := h
      rw [List.length_drop, List.length_take]
      omega

/-- The slice of the challenge lies inside the client data. -/
theorem noPanic_checkChallenge {clientDataJson intentHash : Bytes}
    (h : clientDataJson.length < 2 ^ 32) : (checkChallenge clientDataJson intentHash).NoPanic := by
  simp only [checkChallenge, noPanic_bind, noPanic_okOr, returns_okOr, noPanic_require, true_and,
    implies_true, and_true]
  refine ⟨noPanic_extractChallenge (by omega), fun extracted hextracted c hc => ?_⟩
  obtain rfl : extracted = some c := hc
  have hlen := length_extractChallenge hextracted
  exact noPanic_base64urlDecode (by omega)

/-! ## Reading instructions -/

/-- Eight bytes make the array the conversion expects. -/
theorem noPanic_u64FromLeBytes {window : Bytes} (h : window.length = 8) :
    (u64FromLeBytes window).NoPanic := by
  rw [u64FromLeBytes, if_pos h, noPanic_expect]
  exact ⟨_, rfl⟩

/-- The window is checked to fit before it is cut out, and is eight bytes long. -/
theorem noPanic_readU64 (ixSysvar : InstructionsSysvar) (byteOffset : UInt8) :
    (readU64FromProtectedIx ixSysvar byteOffset).NoPanic := by
  have hoffset : byteOffset.toNat < 256 := byteOffset.toNat_lt
  simp only [readU64FromProtectedIx, noPanic_bind, noPanic_okOr, noPanic_usizeAdd,
    returns_usizeAdd, noPanic_require, returns_require, noPanic_slice, returns_slice, true_and]
  intro ix _
  -- an offset byte and eight more stay below the length that was checked
  refine ⟨by omega, fun offset hoff => ⟨by omega, fun stop hstop _ hlen => ⟨by omega,
    fun window hwindow => ?_⟩⟩⟩
  obtain ⟨-, -, rfl⟩ := hwindow
  have hlen : ((ix.data.take stop).drop offset).length = 8 := by
    rw [List.length_drop, List.length_take]
    omega
  exact ⟨noPanic_u64FromLeBytes hlen, fun _ _ => noPanic_pure⟩

/-- The preceding index does not underflow. -/
theorem noPanic_loadProof {ixSysvar : InstructionsSysvar} {currentIdx : UInt16} {guardId : Pubkey}
    (h : 1 ≤ currentIdx.toNat) :
    (loadProofFromPrecedingIx ixSysvar currentIdx guardId).NoPanic := by
  simp only [loadProofFromPrecedingIx, noPanic_bind, noPanic_unsignedSub, noPanic_okOr,
    noPanic_require, returns_require, noPanic_slice, noPanic_sliceFrom, true_and]
  exact ⟨h, fun _ _ _ _ _ _ _ hlen => ⟨⟨Nat.zero_le 8, hlen⟩, fun _ _ _ _ =>
    ⟨hlen, fun _ _ => trivial⟩⟩⟩

/-- The header is checked to be there before its bytes are read, and each part
before it is cut out. -/
theorem noPanic_readSecpProof (data : Bytes) : (readSecpProof data).NoPanic := by
  simp only [readSecpProof, noPanic_bind, noPanic_require, returns_require, noPanic_index,
    noPanic_usizeAdd, returns_usizeAdd, noPanic_slice, true_and]
  intro _ hheader
  obtain ⟨hlen, -⟩ := hheader
  -- two header bytes are a `u16`, so adding 33 or a message size to it overflows nothing
  have hpair : ∀ a b : UInt8, leNat [a, b] < 65536 := by
    intro a b
    have hlt : leNat [a, b] < 256 ^ 2 := leNat_lt [a, b]
    omega
  refine ⟨by omega, fun b6 _ => ⟨by omega, fun b7 _ => ⟨by omega, fun b10 _ => ⟨by omega,
    fun b11 _ => ⟨by omega, fun b12 _ => ⟨by omega, fun b13 _ => ?_⟩⟩⟩⟩⟩⟩
  have hpk := hpair b6 b7
  have hmsg := hpair b10 b11
  have hsize := hpair b12 b13
  refine ⟨by omega, fun pkEnd hpkEnd _ hkey => ⟨by omega, fun msgEnd hmsgEnd _ hmessage _ _ => ?_⟩⟩
  exact ⟨⟨by omega, hkey⟩, fun _ _ => ⟨⟨by omega, hmessage⟩, fun _ _ => noPanic_pure⟩⟩

/-! ## The pipeline -/

/-- Failing is no panic. -/
@[simp] theorem noPanic_missingProof {α : Type} : (missingProof : Result α).NoPanic :=
  noPanic_bind.mpr ⟨noPanic_log, fun _ _ => noPanic_fail⟩

/-- Nor is a condition that fails, -/
@[simp] theorem noPanic_requireProof {p : Prop} [Decidable p] : (requireProof p).NoPanic :=
  noPanic_ite.mpr ⟨fun _ => noPanic_pure, fun _ => noPanic_missingProof⟩

/-- or a value that is missing. -/
@[simp] theorem noPanic_okOrMissingProof {α : Type} {o : Option α} :
    (okOrMissingProof o).NoPanic := by
  cases o with
  | none => exact noPanic_missingProof
  | some a => exact noPanic_pure

/-- The nonce is added with `checked_add`. -/
theorem noPanic_consumeNonce (registry : PasskeyRegistry) : (consumeNonce registry).NoPanic :=
  noPanic_bind.mpr ⟨noPanic_okOr, fun _ _ => noPanic_pure⟩

/-- The data is split behind its first eight bytes, which are there. -/
theorem noPanic_protectedIntentHash {owner guardId : Pubkey} {policy : String} {ix : Instruction}
    {nonce : UInt64} {expiry : Int64} (hdata : 8 ≤ ix.data.length) (hfits : PolicyFits policy) :
    (protectedIntentHash owner guardId policy ix nonce expiry).NoPanic :=
  (returns_protectedIntentHash.mpr ⟨hdata, hfits, rfl⟩).noPanic

/-- A proof that came in an instruction has short strings. -/
structure ProofData.Short (proof : ProofData) : Prop where
  policy : (Codec.utf8 proof.policy).length < 2 ^ 32
  authenticatorData : proof.authenticatorData.length < 2 ^ 32
  clientDataJson : proof.clientDataJson.length < 2 ^ 32

/-- A byte vector's length is a `u32`. -/
theorem length_of_vecU8 {a bs : Bytes} (h : Codec.vecU8.write a = some bs) :
    a.length < 2 ^ 32 := by
  obtain ⟨len, hlen, -⟩ := Option.map_eq_some_iff.mp h
  unfold Codec.writeLen at hlen
  split at hlen
  next hlt => exact hlt
  next => cases hlen

/-- So a proof that was serialised is short, -/
theorem ProofData.short_of_write {proof : ProofData} {bs : Bytes}
    (h : ProofData.codec.write proof = some bs) : proof.Short := by
  obtain ⟨_, _, -, h, -⟩ := Codec.pair_write_eq_some.mp h
  obtain ⟨_, _, -, h, -⟩ := Codec.pair_write_eq_some.mp h
  obtain ⟨_, _, hpolicy, h, -⟩ := Codec.pair_write_eq_some.mp h
  obtain ⟨_, _, hauth, hclient, -⟩ := Codec.pair_write_eq_some.mp h
  exact ⟨length_of_vecU8 hpolicy, length_of_vecU8 hauth, length_of_vecU8 hclient⟩

/-- and so is one that was read back. -/
theorem ProofAt.short {ixSysvar : InstructionsSysvar} {guardId : Pubkey} {currentIdx : UInt16}
    {proof : ProofData} (h : ProofAt ixSysvar guardId currentIdx proof) : proof.Short := by
  obtain ⟨proofIx, -, -, -, -, hread⟩ := h.carried
  exact ProofData.short_of_write ((Codec.fromSlice_eq_some_iff _).mp hread)

/-- Every access of the pipeline, in order. -/
theorem noPanic_runVerification {clock : Clock} {ixSysvar : InstructionsSysvar}
    {registry : PasskeyRegistry} {owner guardId : Pubkey} {currentIdx : UInt16} {proof : ProofData}
    {policy : String} (hidx : 2 ≤ currentIdx.toNat) (hshort : proof.Short)
    (hpolicy : PolicyFits policy) :
    (runVerification clock ixSysvar registry owner guardId currentIdx proof policy).NoPanic := by
  have hauth := hshort.authenticatorData
  simp only [runVerification, noPanic_bind, noPanic_okOr, noPanic_require, returns_require,
    noPanic_withCapacity, noPanic_unsignedSub, noPanic_okOrMissingProof, noPanic_requireProof,
    true_and]
  refine fun ix _ _ hdata _ _ => ⟨noPanic_protectedIntentHash hdata hpolicy, fun _ _ =>
    ⟨noPanic_checkChallenge hshort.clientDataJson, fun _ _ => ⟨by omega, fun _ _ =>
      ⟨hidx, fun _ _ secpIx _ _ _ => ⟨noPanic_readSecpProof _, fun _ _ _ _ _ _ =>
        ⟨noPanic_consumeNonce _, fun _ _ => ⟨noPanic_log, fun _ _ => ⟨noPanic_log, fun _ _ =>
          noPanic_pure⟩⟩⟩⟩⟩⟩⟩⟩

/-- At any index, in range or not, on any instructions. -/
theorem noPanic_verifyAtIdx (clock : Clock) (ixSysvar : InstructionsSysvar)
    (registry : PasskeyRegistry) (owner guardId : Pubkey) (policy : String) (currentIdx : UInt16) :
    (verifyAtIdx clock ixSysvar registry owner guardId policy currentIdx).NoPanic := by
  simp only [verifyAtIdx, noPanic_bind, noPanic_requireProof, returns_requireProof,
    noPanic_require, returns_require, returns_loadProofFromPrecedingIx, true_and]
  intro _ hidx
  have hidx : 2 ≤ currentIdx.toNat := UInt16.le_iff_toNat_le.mp hidx
  refine ⟨noPanic_loadProof (by omega), fun proof hproof _ hpolicy => ?_⟩
  -- the policy is the proof's own, so its length is bounded as well
  have hfits : PolicyFits policy := by
    have hlen := hproof.short.policy
    rw [hpolicy] at hlen
    unfold PolicyFits
    omega
  exact noPanic_runVerification hidx hproof.short hfits

/-- The index of the current instruction is any `u16`. -/
theorem noPanic_verifyWithPolicy (clock : Clock) (ixSysvar : InstructionsSysvar)
    (registry : PasskeyRegistry) (owner guardId : Pubkey) (policy : String) :
    (verifyWithPolicy clock ixSysvar registry owner guardId policy).NoPanic :=
  noPanic_verifyAtIdx clock ixSysvar registry owner guardId policy _

end Trana.Guard
