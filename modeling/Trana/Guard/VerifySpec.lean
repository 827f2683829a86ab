import Trana.Guard.Verify

/-!
# What a verification establishes

One characterisation per function of `Verify.lean`; the later modules use
these and never unfold the functions.

Each is an equivalence: the run returns a value exactly when a condition on its
inputs holds, and the value is named. `Accepts` and `Verified` collect the
conditions of the whole pipeline as a structure with a field for each check, in
the order of the source (`fresh`, `challenge`, `known` and so on), so that a result
about accepted proofs projects the field it is about.

* `returns_readSecpProof` — the key and message read are slices of the
  precompile instruction's own data.
* `returns_protectedIntentHash` — the hash is `intentHash`.
* `returns_runVerification`, `returns_verifyAtIdx` — a verification returns
  exactly when its checks hold (`Accepts`, `Verified`), and then the registry
  comes back with its nonce consumed and nothing else changed.
-/

namespace Trana.Guard

open Trana.Lib Trana.Lib.Exec Trana.Solana
open Secp256r1 (u16At)

/-- A missing proof ends the run. -/
@[simp] theorem returns_missingProof {α : Type} {a : α} :
    (missingProof : Result α).Returns a ↔ False := by
  simp [missingProof]

/-- What was required holds. -/
@[simp] theorem returns_requireProof {p : Prop} [Decidable p] {u : Unit} :
    (requireProof p).Returns u ↔ p := by
  unfold requireProof
  split <;> simp [*]

/-- What was asked for is there. -/
@[simp] theorem returns_okOrMissingProof {α : Type} {o : Option α} {a : α} :
    (okOrMissingProof o).Returns a ↔ o = some a := by
  unfold okOrMissingProof
  split <;> simp

/-! ## The precompile instruction -/

/-- The 33 bytes at the stated public-key offset of the data itself. -/
def ownKey (data : Bytes) : Bytes := (data.drop (u16At data 6)).take 33

/-- The bytes at the stated message offset of the data itself. -/
def ownMessage (data : Bytes) : Bytes := (data.drop (u16At data 10)).take (u16At data 12)

/-- The guard's checks on the precompile instruction's header. -/
structure SecpHeader (data : Bytes) : Prop where
  length_ge : 16 ≤ data.length
  count : data.head? = some 1
  key_in : u16At data 6 + 33 ≤ data.length
  message_in : u16At data 10 + u16At data 12 ≤ data.length
  message_pos : 0 < u16At data 12

instance (data : Bytes) : Decidable (SecpHeader data) :=
  decidable_of_iff (16 ≤ data.length ∧ data.head? = some 1 ∧ u16At data 6 + 33 ≤ data.length ∧
      u16At data 10 + u16At data 12 ≤ data.length ∧ 0 < u16At data 12)
    ⟨fun ⟨h₁, h₂, h₃, h₄, h₅⟩ => ⟨h₁, h₂, h₃, h₄, h₅⟩,
      fun h => ⟨h.length_ge, h.count, h.key_in, h.message_in, h.message_pos⟩⟩

/-- Two indexed bytes are the `u16` there. -/
theorem u16At_of_getElem? {data : Bytes} {i : Nat} {a b : UInt8} (ha : data[i]? = some a)
    (hb : data[i + 1]? = some b) : u16At data i = leNat [a, b] := by
  obtain ⟨hi, rfl⟩ := List.getElem?_eq_some_iff.mp ha
  obtain ⟨hi', rfl⟩ := List.getElem?_eq_some_iff.mp hb
  unfold u16At
  rw [List.drop_eq_getElem_cons hi, List.drop_eq_getElem_cons hi']
  rfl

/-- A field of the header has 16 bits. -/
theorem u16At_lt (data : Bytes) (i : Nat) : u16At data i < 65536 := by
  have hlen : ((data.drop i).take 2).length ≤ 2 := by simp
  have hpow : 256 ^ ((data.drop i).take 2).length ≤ 256 ^ 2 :=
    Nat.pow_le_pow_right (by omega) hlen
  exact Nat.lt_of_lt_of_le (leNat_lt _) hpow

/-- The precompile instruction is read at its own offsets, in its own data. -/
theorem returns_readSecpProof {data : Bytes} {p : Bytes × Bytes} :
    (readSecpProof data).Returns p ↔ SecpHeader data ∧ p = (ownKey data, ownMessage data) := by
  unfold readSecpProof
  simp only [returns_bind, returns_require, returns_index, returns_usizeAdd, returns_slice,
    returns_pure, exists_const]
  constructor
  · intro h
    obtain ⟨⟨hlen, hcount⟩, b6, h6, b7, h7, b10, h10, b11, h11, b12, h12, b13, h13, _, ⟨rfl, -⟩,
        hkey, _, ⟨rfl, -⟩, hmsg, hpos, key, ⟨-, -, rfl⟩, message, ⟨-, -, rfl⟩, rfl⟩ := h
    rw [← u16At_of_getElem? h6 h7] at hkey ⊢
    rw [← u16At_of_getElem? h10 h11, ← u16At_of_getElem? h12 h13] at hmsg ⊢
    rw [← u16At_of_getElem? h12 h13] at hpos
    refine ⟨⟨hlen, hcount, hkey, hmsg, hpos⟩, ?_⟩
    rw [List.drop_take, List.drop_take, Nat.add_sub_cancel_left, Nat.add_sub_cancel_left]
    rfl
  · intro hex
    obtain ⟨h, rfl⟩ := hex
    have hget : ∀ i, i < 16 → ∃ b, data[i]? = some b := fun i hi =>
      ⟨_, List.getElem?_eq_getElem (Nat.lt_of_lt_of_le hi h.length_ge)⟩
    obtain ⟨b6, h6⟩ := hget 6 (by omega)
    obtain ⟨b7, h7⟩ := hget 7 (by omega)
    obtain ⟨b10, h10⟩ := hget 10 (by omega)
    obtain ⟨b11, h11⟩ := hget 11 (by omega)
    obtain ⟨b12, h12⟩ := hget 12 (by omega)
    obtain ⟨b13, h13⟩ := hget 13 (by omega)
    have hpk := u16At_lt data 6
    have hoff := u16At_lt data 10
    have hsize := u16At_lt data 12
    refine ⟨⟨h.length_ge, h.count⟩, b6, h6, b7, h7, b10, h10, b11, h11, b12, h12, b13, h13, ?_⟩
    rw [← u16At_of_getElem? h6 h7, ← u16At_of_getElem? h10 h11, ← u16At_of_getElem? h12 h13]
    refine ⟨_, ⟨rfl, by omega⟩, h.key_in, _, ⟨rfl, by omega⟩, h.message_in, h.message_pos,
      ownKey data, ⟨by omega, h.key_in, ?_⟩, ownMessage data, ⟨by omega, h.message_in, ?_⟩, rfl⟩
    · rw [List.drop_take, Nat.add_sub_cancel_left]
      rfl
    · rw [List.drop_take, Nat.add_sub_cancel_left]
      rfl

/-! ## The intent hash -/

/-- Room for the preimage in one allocation. -/
def PolicyFits (policy : String) : Prop := (Codec.utf8 policy).length + 197 < 2 ^ 63

instance (policy : String) : Decidable (PolicyFits policy) :=
  inferInstanceAs (Decidable (_ < _))

/-- The intent hash of a protected instruction, as a value. -/
def intentHash (owner tranaGuardProgramId : Pubkey) (policy : String) (ix : Instruction)
    (nonce : UInt64) (expiry : Int64) : Bytes :=
  sha256 (intentPreimage intentDomain owner tranaGuardProgramId ix.programId policy
    (ix.data.take 8) (sha256 (accBytes ix)) (sha256 (ix.data.drop 8)) nonce expiry)

/-- Signer and writable flags are not hashed. -/
theorem intentHash_congr {owner tranaGuardProgramId : Pubkey} {policy : String}
    {ix exposed : Instruction} {nonce : UInt64} {expiry : Int64} (h : ix.SameAction exposed) :
    intentHash owner tranaGuardProgramId policy ix nonce expiry =
      intentHash owner tranaGuardProgramId policy exposed nonce expiry := by
  obtain ⟨hprogram, hdata, hkeys⟩ := h
  unfold intentHash accBytes
  rw [hprogram, hdata, hkeys]

/-- The domain's eight bytes. -/
theorem length_utf8_intentDomain : (Codec.utf8 intentDomain).length = 8 := by decide +kernel

/-- The hash, when its buffer can be allocated. -/
theorem returns_computeIntentHash {domain policy : String} {wallet guardId target : Pubkey}
    {disc acc params : Bytes} {nonce : UInt64} {expiry : Int64} {h : Bytes} :
    (computeIntentHash domain wallet guardId target policy disc acc params nonce expiry).Returns h ↔
      (Codec.utf8 domain).length + (Codec.utf8 policy).length + 189 < 2 ^ 63 ∧
      h = sha256 (intentPreimage domain wallet guardId target policy disc acc params nonce
        expiry) := by
  simp only [computeIntentHash, returns_bind, returns_withCapacity, returns_pure, exists_const]
  constructor
  · intro hex
    obtain ⟨hlt, rfl⟩ := hex
    exact ⟨by omega, rfl⟩
  · intro hex
    obtain ⟨hlt, rfl⟩ := hex
    exact ⟨by omega, rfl⟩

/-- The hash of a protected instruction. -/
theorem returns_protectedIntentHash {owner guardId : Pubkey} {policy : String}
    {ix : Instruction} {nonce : UInt64} {expiry : Int64} {h : Bytes} :
    (protectedIntentHash owner guardId policy ix nonce expiry).Returns h ↔
      8 ≤ ix.data.length ∧ PolicyFits policy ∧
        h = intentHash owner guardId policy ix nonce expiry := by
  have hacc := ix.accounts_lt
  simp only [protectedIntentHash, returns_bind, returns_require, returns_slice,
    returns_withCapacity, returns_sliceFrom, returns_computeIntentHash, exists_const,
    length_utf8_intentDomain]
  unfold PolicyFits
  constructor
  · intro hex
    obtain ⟨hlen, disc, ⟨-, -, rfl⟩, -, params, ⟨-, rfl⟩, hfit, rfl⟩ := hex
    exact ⟨hlen, by omega, rfl⟩
  · intro hex
    obtain ⟨hlen, hfit, rfl⟩ := hex
    exact ⟨hlen, _, ⟨by omega, hlen, rfl⟩, by omega, _, ⟨hlen, rfl⟩, by omega, rfl⟩

/-! ## The challenge -/

/-- The client data's challenge decodes to `h`. -/
def ChallengeIs (clientDataJson h : Bytes) : Prop :=
  ∃ c, (extractChallenge clientDataJson).Returns (some c) ∧ (base64urlDecode c).Returns (some h)

/-- The challenge in the client data decodes to the hash. -/
theorem returns_checkChallenge {clientDataJson h : Bytes} {u : Unit} :
    (checkChallenge clientDataJson h).Returns u ↔ ChallengeIs clientDataJson h := by
  simp only [checkChallenge, returns_bind, returns_okOr, returns_require, ChallengeIs]
  constructor
  · intro hex
    obtain ⟨_, hc, c, rfl, _, hd, b, rfl, rfl⟩ := hex
    exact ⟨c, hc, hd⟩
  · intro hex
    obtain ⟨c, hc, hd⟩ := hex
    exact ⟨_, hc, c, rfl, _, hd, h, rfl, rfl⟩

/-- One client data carries one challenge. -/
theorem ChallengeIs.unique {clientDataJson h h' : Bytes} (hh : ChallengeIs clientDataJson h)
    (hh' : ChallengeIs clientDataJson h') : h = h' := by
  obtain ⟨c, hc, hd⟩ := hh
  obtain ⟨c', hc', hd'⟩ := hh'
  obtain rfl := Option.some.inj (hc.unique hc')
  exact Option.some.inj (hd.unique hd')

/-! ## The registry update -/

/-- The registry after one verification. -/
def PasskeyRegistry.consume (r : PasskeyRegistry) : PasskeyRegistry :=
  { r with nonce := r.nonce + 1 }

/-- Consuming a nonce keeps the owner. -/
@[simp] theorem PasskeyRegistry.consume_owner (r : PasskeyRegistry) : r.consume.owner = r.owner :=
  rfl

/-- And the keys. -/
@[simp] theorem PasskeyRegistry.consume_keys (r : PasskeyRegistry) : r.consume.keys = r.keys := rfl

/-- Consuming counts up by one, without wrapping. -/
theorem PasskeyRegistry.toNat_consume_nonce {r : PasskeyRegistry}
    (h : r.nonce.toNat + 1 < 2 ^ 64) : r.consume.nonce.toNat = r.nonce.toNat + 1 := by
  show (r.nonce + 1).toNat = r.nonce.toNat + 1
  rw [UInt64.toNat_add]
  exact Nat.mod_eq_of_lt h

/-- The nonce moves on by one, below the largest. -/
theorem returns_consumeNonce {r r' : PasskeyRegistry} :
    (consumeNonce r).Returns r' ↔ r.nonce.toNat + 1 < 2 ^ 64 ∧ r' = r.consume := by
  simp only [consumeNonce, returns_bind, returns_okOr, returns_pure]
  constructor
  · intro h
    obtain ⟨n, hn, rfl⟩ := h
    split at hn
    next hlt =>
      obtain rfl := Option.some.inj hn
      exact ⟨hlt, rfl⟩
    next => cases hn
  · intro h
    obtain ⟨hlt, rfl⟩ := h
    exact ⟨_, if_pos hlt, rfl⟩

/-! ## The pipeline -/

section Pipeline

variable (clock : Clock) (ixSysvar : InstructionsSysvar) (registry : PasskeyRegistry)
  (owner guardId : Pubkey) (currentIdx : UInt16)

/-- The checks of `runVerification` on a proof, with the protected and the
precompile instruction they are about. -/
structure Accepts (proof : ProofData) (policy : String) (ix secpIx : Instruction) : Prop where
  protectedIx : ixSysvar.instructions[currentIdx.toNat]? = some ix
  data_length : 8 ≤ ix.data.length
  fresh : clock.unixTimestamp < proof.expiry
  fits : PolicyFits policy
  challenge : ChallengeIs proof.clientDataJson
    (intentHash owner guardId policy ix registry.nonce proof.expiry)
  auth_fits : proof.authenticatorData.length + 32 < 2 ^ 63
  two_le : 2 ≤ currentIdx.toNat
  secp : ixSysvar.instructions[currentIdx.toNat - 2]? = some secpIx
  secp_id : secpIx.programId = Secp256r1.programId
  header : SecpHeader secpIx.data
  known : ∃ k ∈ registry.keys, k.pubkeyBytes = ownKey secpIx.data
  eValue : sha256 (ownMessage secpIx.data) =
    sha256 (proof.authenticatorData ++ sha256 proof.clientDataJson)
  nonce_lt : registry.nonce.toNat + 1 < 2 ^ 64

/-- The proof carried by the instruction before the protected one. -/
structure ProofAt (proof : ProofData) : Prop where
  one_le : 1 ≤ currentIdx.toNat
  carried : ∃ proofIx, ixSysvar.instructions[currentIdx.toNat - 1]? = some proofIx ∧
    proofIx.programId = guardId ∧ 8 ≤ proofIx.data.length ∧
    proofIx.data.take 8 = recordProofDisc ∧
    ProofData.codec.fromSlice (proofIx.data.drop 8) = some proof

/-- The checks of `verifyAtIdx`. -/
structure Verified (policy : String) (proof : ProofData) (ix secpIx : Instruction) : Prop extends
    Accepts clock ixSysvar registry owner guardId currentIdx proof policy ix secpIx where
  proofAt : ProofAt ixSysvar guardId currentIdx proof
  policy_eq : proof.policy = policy

end Pipeline

variable {clock : Clock} {ixSysvar : InstructionsSysvar} {registry registry' : PasskeyRegistry}
  {owner guardId : Pubkey} {currentIdx : UInt16} {proof : ProofData} {policy : String}

/-- A verification returns exactly when its checks hold, and then the registry with
its nonce consumed. -/
theorem returns_runVerification :
    (runVerification clock ixSysvar registry owner guardId currentIdx proof policy).Returns
        registry' ↔
      registry' = registry.consume ∧ ∃ ix secpIx,
        Accepts clock ixSysvar registry owner guardId currentIdx proof policy ix secpIx := by
  simp only [runVerification, returns_bind, returns_okOr, returns_require,
    returns_protectedIntentHash, returns_checkChallenge, returns_withCapacity,
    returns_unsignedSub, returns_okOrMissingProof, returns_requireProof, returns_readSecpProof,
    returns_consumeNonce,
    returns_msg, returns_emit, returns_pure, exists_const, loadInstructionAtChecked]
  constructor
  · intro h
    obtain ⟨ix, hix, hlen, hfresh, _, ⟨-, hfits, rfl⟩, hchal, hauth, _, ⟨htwo, rfl⟩, secpIx,
        hsecp, hid, _, ⟨hheader, rfl⟩, hknown, hmsg, _, ⟨hnonce, rfl⟩, -, -, rfl⟩ := h
    refine ⟨rfl, ix, secpIx, hix, hlen, hfresh, hfits, hchal, hauth, htwo, hsecp, hid, hheader, ?_,
      hmsg, hnonce⟩
    obtain ⟨k, hk, heq⟩ := List.any_eq_true.mp hknown
    exact ⟨k, hk, by simpa using heq⟩
  · intro hex
    obtain ⟨rfl, ix, secpIx, h⟩ := hex
    obtain ⟨k, hk, heq⟩ := h.known
    exact ⟨ix, h.protectedIx, h.data_length, h.fresh, _, ⟨h.data_length, h.fits, rfl⟩, h.challenge,
      h.auth_fits, _, ⟨h.two_le, rfl⟩, secpIx, h.secp, h.secp_id, _,
      ⟨h.header, rfl⟩, List.any_eq_true.mpr ⟨k, hk, by simpa using heq⟩, h.eValue, _,
      ⟨h.nonce_lt, rfl⟩, trivial, trivial, rfl⟩

/-- The proof that stands in front. -/
theorem returns_loadProofFromPrecedingIx :
    (loadProofFromPrecedingIx ixSysvar currentIdx guardId).Returns proof ↔
      ProofAt ixSysvar guardId currentIdx proof := by
  simp only [loadProofFromPrecedingIx, returns_bind, returns_unsignedSub, returns_okOr,
    returns_require, returns_slice, returns_sliceFrom, exists_const, loadInstructionAtChecked]
  constructor
  · intro h
    obtain ⟨_, ⟨hone, rfl⟩, proofIx, hix, hid, hlen, _, ⟨-, -, rfl⟩, hdisc, _, ⟨-, rfl⟩, hread⟩ := h
    exact ⟨hone, proofIx, hix, hid, hlen, hdisc, hread⟩
  · intro h
    obtain ⟨hone, proofIx, hix, hid, hlen, hdisc, hread⟩ := h
    exact ⟨_, ⟨hone, rfl⟩, proofIx, hix, hid, hlen, _, ⟨by omega, hlen, rfl⟩, hdisc, _,
      ⟨hlen, rfl⟩, hread⟩

/-- One instruction carries one proof. -/
theorem ProofAt.unique {proof' : ProofData} (h : ProofAt ixSysvar guardId currentIdx proof)
    (h' : ProofAt ixSysvar guardId currentIdx proof') : proof = proof' :=
  (returns_loadProofFromPrecedingIx.mpr h).unique (returns_loadProofFromPrecedingIx.mpr h')

/-- The same with the proof loaded, at any index. -/
theorem returns_verifyAtIdx :
    (verifyAtIdx clock ixSysvar registry owner guardId policy currentIdx).Returns registry' ↔
      registry' = registry.consume ∧ ∃ proof ix secpIx,
        Verified clock ixSysvar registry owner guardId currentIdx policy proof ix secpIx := by
  simp only [verifyAtIdx, returns_bind, returns_requireProof, returns_require,
    returns_loadProofFromPrecedingIx, returns_runVerification, exists_const]
  constructor
  · intro hex
    obtain ⟨-, proof, hproof, hpolicy, rfl, ix, secpIx, h⟩ := hex
    exact ⟨rfl, proof, ix, secpIx, h, hproof, hpolicy⟩
  · intro hex
    obtain ⟨rfl, proof, ix, secpIx, h⟩ := hex
    exact ⟨UInt16.le_iff_toNat_le.mpr h.two_le, proof, h.proofAt, h.policy_eq, rfl, ix, secpIx,
      h.toAccepts⟩

/-- And at the index of the sysvar. -/
theorem returns_verifyWithPolicy :
    (verifyWithPolicy clock ixSysvar registry owner guardId policy).Returns registry' ↔
      registry' = registry.consume ∧ ∃ proof ix secpIx,
        Verified clock ixSysvar registry owner guardId ixSysvar.currentIndex policy proof ix
          secpIx :=
  returns_verifyAtIdx

end Trana.Guard
