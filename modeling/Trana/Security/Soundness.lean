import Trana.Sdk.Transaction

/-!
# Signature soundness

The guard reads the public key and the message of `ix[N-2]` at the offsets its
header states, in that instruction's own data. The precompile reads them in
whatever instruction the header's index fields name. A verification therefore
proves a signature exactly when the two readings meet.

* `locates_selfContained` — with key and message indices that name the
  instruction itself, the precompile reads what the guard reads.
* `signature_soundness` — an accepted proof stands for a verified signature of
  a registered key exactly when some record of the transaction locates such a
  key and the message the guard read.
* `secpHeader_elsewhere`, `located_elsewhere` — data with one key in them, and a
  header that sends the precompile to another.
* `redirected_key` — a transaction where the two readings part.

The precompile is modelled from its documentation, with the curve as a
parameter: `Accepted` says that the transaction passed it, every record of every
such instruction verified at the places its header names. The runtime checks
this before any program runs, so it is a premise and not a step.

`ReadingsMeet` looks at the transaction's bytes and the registry's keys only. Its
sufficient case is `SelfContained`: the two index fields of `ix[N-2]` name the
instruction itself, as the value 65535 or by number. The repository's builders
write 65535, so what they send has it; the guard does not ask for it.

The signature is one of a message, authenticator data behind a client data hash,
and the hash is bound as far as these two messages do not collide.
-/

namespace Trana.Security

open Trana.Lib Trana.Lib.Exec Trana.Solana Trana.Guard
open Secp256r1 (Curve Accepted Locates SelfIndex u16At)

section Soundness

variable (p256 : Curve) (instructions : List Instruction) (registry : PasskeyRegistry)
  (owner guardId : Pubkey) (policy : String) (currentIdx : UInt16) (proof : ProofData)

/-- What a successful verification should mean: the precompile verified a
signature of a registered key over the proof's message, and the proof's client
data carries the intent hash of the protected instruction. -/
def SignatureVerified : Prop :=
  (∃ k ∈ registry.keys, Secp256r1.Verified p256 instructions k.pubkeyBytes
    (proof.authenticatorData ++ sha256 proof.clientDataJson)) ∧
  ∃ ix, instructions[currentIdx.toNat]? = some ix ∧ ChallengeIs proof.clientDataJson
    (intentHash owner guardId policy ix registry.nonce proof.expiry)

/-- The precompile instruction the guard looks at. -/
def secpIx? : Option Instruction := instructions[currentIdx.toNat - 2]?

/-- Some record of the transaction locates, through its own index fields, a
registered key and the very bytes the guard takes for the message. -/
def ReadingsMeet : Prop :=
  ∃ secpIx, secpIx? instructions currentIdx = some secpIx ∧
    ∃ k ∈ registry.keys, ∃ ix, Locates instructions ix k.pubkeyBytes (ownMessage secpIx.data)

/-- The key and message indices of `ix[N-2]` name `ix[N-2]`. -/
def SelfContained : Prop :=
  ∃ secpIx, secpIx? instructions currentIdx = some secpIx ∧
    SelfIndex (currentIdx.toNat - 2) (u16At secpIx.data 8) ∧
    SelfIndex (currentIdx.toNat - 2) (u16At secpIx.data 14)

/-- The message read and the message expected are not a collision. -/
def MessageCollisionFree : Prop :=
  ∀ secpIx, secpIx? instructions currentIdx = some secpIx →
    CollisionFree (ownMessage secpIx.data)
      (proof.authenticatorData ++ sha256 proof.clientDataJson)

variable {p256 instructions registry owner guardId policy currentIdx proof}

/-- The single record of an instruction whose header the guard accepts. -/
theorem records_of_header {data : Bytes} (h : SecpHeader data) :
    Secp256r1.records data = some [Secp256r1.offsetsAt data 2] := by
  have hcount : (data.headD 0).toNat = 1 := by
    rw [List.headD_eq_head?_getD, h.count]
    rfl
  have hlen := h.length_ge
  unfold Secp256r1.records
  rw [hcount, if_neg (by omega)]
  rfl

/-- In an accepted transaction a self-contained instruction locates what the
guard reads. -/
theorem locates_selfContained {secpIx : Instruction} {position : Nat}
    (hacc : Accepted p256 instructions) (hix : instructions[position]? = some secpIx)
    (hid : secpIx.programId = Secp256r1.programId) (hheader : SecpHeader secpIx.data)
    (hkey : SelfIndex position (u16At secpIx.data 8))
    (hmsg : SelfIndex position (u16At secpIx.data 14)) :
    Locates instructions secpIx (ownKey secpIx.data) (ownMessage secpIx.data) := by
  have hrecords := records_of_header hheader
  have hmem : secpIx ∈ instructions := List.mem_of_getElem? hix
  have hverify := hacc secpIx hmem hid
  unfold Secp256r1.verify at hverify
  rw [hrecords] at hverify
  simp only [List.all_cons, List.all_nil, Bool.and_true] at hverify
  -- the signature slice exists, wherever the header takes it from
  obtain ⟨signature, hsig⟩ : ∃ signature, Secp256r1.dataSlice secpIx.data
      (instructions.map Instruction.data) (u16At secpIx.data 4) (u16At secpIx.data 2) 64 =
        some signature := by
    cases hs : Secp256r1.dataSlice secpIx.data (instructions.map Instruction.data)
        (u16At secpIx.data 4) (u16At secpIx.data 2) 64 with
    | some signature => exact ⟨signature, rfl⟩
    | none =>
      simp [Secp256r1.located, Secp256r1.offsetsAt, hs] at hverify
  have hk := Secp256r1.dataSlice_self (u16At secpIx.data 6) 33 hix hkey
  have hm := Secp256r1.dataSlice_self (u16At secpIx.data 10) (u16At secpIx.data 12) hix
    hmsg
  rw [if_pos hheader.key_in] at hk
  rw [if_pos hheader.message_in] at hm
  refine ⟨hmem, hid, _, hrecords, _, List.mem_singleton_self _, signature, ?_⟩
  simp only [Secp256r1.located, Secp256r1.offsetsAt, hsig, hk, hm, Option.bind_eq_bind,
    Option.bind_some]
  rfl

/-- The key it locates is the one the guard reads. -/
theorem locates_ownKey {secpIx : Instruction} {position : Nat} {key message : Bytes}
    (hix : instructions[position]? = some secpIx) (hheader : SecpHeader secpIx.data)
    (hkey : SelfIndex position (u16At secpIx.data 8))
    (h : Locates instructions secpIx key message) : key = ownKey secpIx.data := by
  obtain ⟨-, -, rs, hrs, rec, hrec, signature, hlocated⟩ := h
  obtain rfl := Option.some.inj ((records_of_header hheader).symm.trans hrs)
  obtain rfl := List.mem_singleton.mp hrec
  have hk := Secp256r1.dataSlice_self (u16At secpIx.data 6) 33 hix hkey
  rw [if_pos hheader.key_in] at hk
  simp only [Secp256r1.located, Secp256r1.offsetsAt, hk, Option.bind_eq_bind, Option.bind_some,
    Option.bind_eq_some_iff, Option.some.injEq, Prod.mk.injEq] at hlocated
  obtain ⟨_, -, _, -, -, rfl, -⟩ := hlocated
  rfl

/-- The message the guard read is the proof's. -/
theorem ownMessage_of_accepts {clock : Clock} {ixSysvar : InstructionsSysvar}
    {ix secpIx : Instruction}
    (h : Accepts clock ixSysvar registry owner guardId currentIdx proof policy
      ix secpIx) (hsha : MessageCollisionFree ixSysvar.instructions currentIdx proof) :
    ownMessage secpIx.data = proof.authenticatorData ++ sha256 proof.clientDataJson :=
  hsha secpIx h.secp h.eValue

theorem signatureVerified_iff {clock : Clock} {ixSysvar : InstructionsSysvar}
    {ix secpIx : Instruction}
    (hacc : Accepted p256 ixSysvar.instructions)
    (h : Accepts clock ixSysvar registry owner guardId currentIdx proof policy
      ix secpIx) (hsha : MessageCollisionFree ixSysvar.instructions currentIdx proof) :
    SignatureVerified p256 ixSysvar.instructions registry owner guardId policy currentIdx proof ↔
      ReadingsMeet ixSysvar.instructions registry currentIdx := by
  -- the message read is the proof's, as far as the two hashes do not collide
  have hmessage := ownMessage_of_accepts h hsha
  constructor
  · intro hex
    obtain ⟨⟨k, hk, hverified⟩, -⟩ := hex
    obtain ⟨i, hlocates⟩ := hverified.locates
    refine ⟨secpIx, h.secp, k, hk, i, ?_⟩
    rw [hmessage]
    exact hlocates
  · intro hparts
    obtain ⟨secpIx', hsecp', k, hk, i, hlocates⟩ := hparts
    obtain rfl := Option.some.inj (h.secp.symm.trans hsecp')
    rw [hmessage] at hlocates
    exact ⟨⟨k, hk, hlocates.verified hacc⟩, ix, h.protectedIx, h.challenge⟩

theorem readingsMeet_of_selfContained {clock : Clock} {ixSysvar : InstructionsSysvar}
    {ix secpIx : Instruction}
    (hacc : Accepted p256 ixSysvar.instructions)
    (h : Accepts clock ixSysvar registry owner guardId currentIdx proof policy
      ix secpIx) (hself : SelfContained ixSysvar.instructions currentIdx) :
    ReadingsMeet ixSysvar.instructions registry currentIdx := by
  obtain ⟨secpIx', hsecp', hkey, hmsg⟩ := hself
  obtain rfl := Option.some.inj (h.secp.symm.trans hsecp')
  obtain ⟨k, hk, heq⟩ := h.known
  refine ⟨secpIx, h.secp, k, hk, secpIx, ?_⟩
  rw [heq]
  exact locates_selfContained hacc h.secp h.secp_id h.header hkey hmsg

/-- Soundness holds exactly when the readings meet, and they do when the
header points nowhere else. -/
theorem signatureVerified_of_accepts {clock : Clock} {ixSysvar : InstructionsSysvar}
    {ix secpIx : Instruction}
    (hacc : Accepted p256 ixSysvar.instructions)
    (h : Accepts clock ixSysvar registry owner guardId currentIdx proof policy
      ix secpIx) (hsha : MessageCollisionFree ixSysvar.instructions currentIdx proof) :
    (SignatureVerified p256 ixSysvar.instructions registry owner guardId policy currentIdx proof ↔
      ReadingsMeet ixSysvar.instructions registry currentIdx) ∧
    (SelfContained ixSysvar.instructions currentIdx →
      SignatureVerified p256 ixSysvar.instructions registry owner guardId policy currentIdx
        proof) := by
  have hiff := signatureVerified_iff hacc h hsha
  exact ⟨hiff, fun hself => hiff.mpr (readingsMeet_of_selfContained hacc h hself)⟩

end Soundness

/-- When a successful verification stands for a verified signature. -/
theorem signature_soundness {p256 : Curve} {clock : Clock} {ixSysvar : InstructionsSysvar}
    {registry registry' : PasskeyRegistry} {owner guardId : Pubkey} {policy : String}
    {currentIdx : UInt16} {proof : ProofData} (hacc : Accepted p256 ixSysvar.instructions)
    (hsha : MessageCollisionFree ixSysvar.instructions currentIdx proof)
    (h : (runVerification clock ixSysvar registry owner guardId currentIdx proof policy).Returns
        registry' ∨
      ProofAt ixSysvar guardId currentIdx proof ∧
        (verifyAtIdx clock ixSysvar registry owner guardId policy currentIdx).Returns registry') :
    (SignatureVerified p256 ixSysvar.instructions registry owner guardId policy currentIdx proof ↔
      ReadingsMeet ixSysvar.instructions registry currentIdx) ∧
    (SelfContained ixSysvar.instructions currentIdx →
      SignatureVerified p256 ixSysvar.instructions registry owner guardId policy currentIdx
        proof) := by
  rcases h with h | ⟨hproof, h⟩
  · obtain ⟨-, ix, secpIx, haccepts⟩ := returns_runVerification.mp h
    exact signatureVerified_of_accepts hacc haccepts hsha
  · obtain ⟨-, proof', ix, secpIx, hverified⟩ := returns_verifyAtIdx.mp h
    obtain rfl := hproof.unique hverified.proofAt
    exact signatureVerified_of_accepts hacc hverified.toAccepts hsha

/-! ## A header that takes the key from elsewhere -/

section Elsewhere

/-- The SDK's header for a message of this size, except that the key's index names
instruction 3. -/
def redirectedHeader (size : UInt8) : Bytes :=
  [1, 0, 49, 0, 255, 255, 16, 0, 3, 0, 113, 0, size, 0, 255, 255]

/-- Data with one key in them, for the precompile to take another. -/
def elsewhereData (size : UInt8) (own signature message : Bytes) : Bytes :=
  redirectedHeader size ++ own ++ signature ++ message

/-- The other key, where the header looks for it. -/
def carrierData (key : Bytes) : Bytes := List.replicate 16 0 ++ key

variable {size : UInt8} {own signature message : Bytes}

theorem u16At_elsewhere {i : ℕ} (h : i + 2 ≤ 16) :
    u16At (elsewhereData size own signature message) i = u16At (redirectedHeader size) i := by
  rw [elsewhereData, List.append_assoc, List.append_assoc, Sdk.u16At_append h]

theorem length_elsewhereData (hown : own.length = 33) (hsignature : signature.length = 64)
    (hmessage : message.length = size.toNat) :
    (elsewhereData size own signature message).length = 113 + size.toNat := by
  have hheader : (redirectedHeader size).length = 16 := rfl
  simp only [elsewhereData, List.length_append, hheader, hown, hsignature, hmessage]

theorem offsetsAt_redirectedHeader :
    Secp256r1.offsetsAt (redirectedHeader size) 2 =
      ⟨49, 0xFFFF, 16, 3, 113, size.toNat, 0xFFFF⟩ := by
  have hall : leNat [255, 255] = 0xFFFF := by decide
  have hsignature : u16At (redirectedHeader size) 4 = 0xFFFF := hall
  have hmessage : u16At (redirectedHeader size) 14 = 0xFFFF := hall
  show Secp256r1.SignatureOffsets.mk 49 (u16At (redirectedHeader size) 4) 16 3 113 size.toNat
    (u16At (redirectedHeader size) 14) = _
  rw [hsignature, hmessage]

/-- The guard is content with the header, and reads the key that is in the data. -/
theorem secpHeader_elsewhere (hown : own.length = 33) (hsignature : signature.length = 64)
    (hmessage : message.length = size.toNat) (hpos : 0 < size.toNat) :
    SecpHeader (elsewhereData size own signature message) ∧
      ownKey (elsewhereData size own signature message) = own ∧
      ownMessage (elsewhereData size own signature message) = message := by
  have hheader : (redirectedHeader size).length = 16 := rfl
  have hlen := length_elsewhereData hown hsignature hmessage
  have hkeyOff : u16At (elsewhereData size own signature message) 6 = 16 :=
    (u16At_elsewhere (by decide)).trans rfl
  have hmsgOff : u16At (elsewhereData size own signature message) 10 = 113 :=
    (u16At_elsewhere (by decide)).trans rfl
  have hsize : u16At (elsewhereData size own signature message) 12 = size.toNat :=
    (u16At_elsewhere (by decide)).trans rfl
  refine ⟨⟨by omega, rfl, by omega, by omega, by omega⟩, ?_, ?_⟩
  · rw [ownKey, hkeyOff, elsewhereData, List.append_assoc (_ ++ own)]
    exact Sdk.take_drop_field hheader hown
  · rw [ownMessage, hmsgOff, hsize, ← List.append_nil (elsewhereData size own signature message)]
    exact Sdk.take_drop_field (by simp only [List.length_append, hheader, hown, hsignature])
      hmessage

/-- The precompile takes the other one. -/
theorem located_elsewhere {key : Bytes} {datas : List Bytes} (hown : own.length = 33)
    (hsignature : signature.length = 64) (hmessage : message.length = size.toNat)
    (hkey : key.length = 33) (hdatas : datas[3]? = some (carrierData key)) :
    Secp256r1.located (elsewhereData size own signature message) datas
        (Secp256r1.offsetsAt (elsewhereData size own signature message) 2) =
      some (signature, key, message) := by
  have hheader : (redirectedHeader size).length = 16 := rfl
  have hlen := length_elsewhereData hown hsignature hmessage
  -- the key's index is 3, where the carrier stands; the others name the instruction itself
  have hrecord : Secp256r1.offsetsAt (elsewhereData size own signature message) 2 =
      ⟨49, 0xFFFF, 16, 3, 113, size.toNat, 0xFFFF⟩ := by
    rw [elsewhereData, List.append_assoc, List.append_assoc,
      Sdk.offsetsAt_append (Nat.le_of_eq hheader.symm)]
    exact offsetsAt_redirectedHeader
  have hsig : Secp256r1.dataSlice (elsewhereData size own signature message) datas 0xFFFF 49 64 =
      some signature := by
    rw [Secp256r1.dataSlice, Secp256r1.source, if_pos rfl, Option.bind_some, if_pos (by omega)]
    exact congrArg some (Sdk.take_drop_field
      (by simp only [List.length_append, hheader, hown]) hsignature)
  have hother : Secp256r1.dataSlice (elsewhereData size own signature message) datas 3 16 33 =
      some key := by
    have hfits : 16 + 33 ≤ (carrierData key).length := by
      rw [carrierData, List.length_append, List.length_replicate, hkey]
    rw [Secp256r1.dataSlice, Secp256r1.source, if_neg (by decide), hdatas, Option.bind_some,
      if_pos hfits, ← List.append_nil (carrierData key)]
    exact congrArg some (Sdk.take_drop_field List.length_replicate hkey)
  have hmsg : Secp256r1.dataSlice (elsewhereData size own signature message) datas 0xFFFF 113
      size.toNat = some message := by
    rw [Secp256r1.dataSlice, Secp256r1.source, if_pos rfl, Option.bind_some, if_pos (by omega),
      ← List.append_nil (elsewhereData size own signature message)]
    exact congrArg some (Sdk.take_drop_field
      (by simp only [List.length_append, hheader, hown, hsignature]) hmessage)
  rw [hrecord]
  simp only [Secp256r1.located, hsig, hother, hmsg, Option.bind_eq_bind, Option.bind_some]

end Elsewhere

section Localnet

open Sdk Sdk.Localnet

/-- The approved transaction. -/
def approved : List Instruction := proven approval policyRequire protectedIx 0

def approvedProof : ProofData :=
  approval.proof (challenge policyRequire protectedIx 0) 1000 policyRequire

/-- On a transaction of the SDK's shape the guard's verdict is sound. -/
theorem signature_soundness_approved :
    (SignatureVerified (approval.curve (challenge policyRequire protectedIx 0)) approved
        (registry 0) wallet localnetId policyRequire 2 approvedProof ↔
      ReadingsMeet approved (registry 0) 2) ∧
    (SelfContained approved 2 →
      SignatureVerified (approval.curve (challenge policyRequire protectedIx 0)) approved
        (registry 0) wallet localnetId policyRequire 2 approvedProof) := by
  have hv := verified_approval (r := registry 0) ⟨entry, List.mem_singleton_self _, rfl⟩ rfl
  have hrun : (runVerification ⟨5, 500⟩ ⟨approved, 2⟩ (registry 0) wallet localnetId 2 approvedProof
      policyRequire).Returns (registry 0).consume :=
    returns_runVerification.mpr ⟨rfl, _, _, hv.toAccepts⟩
  have hsha : MessageCollisionFree approved 2 approvedProof := by
    intro secpIx hsecp
    obtain rfl := Option.some.inj hsecp
    rw [(approval.secpHeader_secpIx _).2.2]
    exact collisionFree_refl _
  exact @signature_soundness _ _ ⟨approved, 2⟩ _ _ _ _ _ _ _ (accepted_proven (by decide)) hsha
    (Or.inl hrun)

/-! ### A redirected key -/

/-- A P-256 key that is registered nowhere. -/
def attackerKey : Bytes :=
  [3, 161, 113, 128, 174, 191, 55, 150, 237, 26, 120, 254, 121, 181, 34, 80, 135, 122, 212, 228,
    25, 89, 146, 4, 71, 144, 187, 100, 232, 164, 157, 164, 1]

/-- Its signature over the message for the protected instruction. -/
def attackerAssertion : Assertion :=
  { approval with
    pubkey := attackerKey
    length_pubkey := by decide
    signature :=
      [112, 52, 222, 169, 153, 155, 7, 144, 13, 6, 56, 124, 82, 67, 157, 108, 70, 40, 3, 7, 142,
       50, 32, 87, 48, 180, 17, 122, 21, 183, 205, 128, 28, 53, 203, 241, 42, 223, 175, 83, 52,
       54, 126, 221, 105, 87, 140, 44, 248, 192, 136, 84, 184, 176, 196, 29, 26, 80, 21, 144, 9,
       81, 115, 37]
    length_signature := by decide }

/-- The SDK's layout, except that the public-key index says instruction 3. -/
def redirectedData (message : Bytes) : Bytes :=
  [1, 0, 49, 0, 255, 255, 16, 0, 3, 0, 113, 0, 69, 0, 255, 255] ++ passkey
    ++ attackerAssertion.signature ++ message

def redirectedSecpIx : Instruction where
  programId := Secp256r1.programId
  accounts := []
  data := redirectedData (attackerAssertion.message (challenge policyRequire protectedIx 0))
  accounts_lt := length_noAccounts

/-- An instruction with the attacker's key at offset 16 of its data. -/
def keyCarrierIx : Instruction where
  programId := callerId
  accounts := []
  data := List.replicate 16 0 ++ attackerKey
  accounts_lt := length_noAccounts

def redirected : List Instruction :=
  [redirectedSecpIx,
    attackerAssertion.recordProofIx localnetId (challenge policyRequire protectedIx 0) 1000
      policyRequire,
    protectedIx, keyCarrierIx]

theorem length_redirectedMessage :
    (attackerAssertion.message (challenge policyRequire protectedIx 0)).length = 69 := by
  rw [attackerAssertion.length_message_eq]
  simp [attackerAssertion, approval, assertion, authenticatorData]

section Redirected

variable {message : Bytes}

/-- The guard is content with the header, and reads the registered key. -/
theorem secpHeader_redirected (h : message.length = 69) :
    SecpHeader (redirectedData message) ∧ ownKey (redirectedData message) = passkey ∧
      ownMessage (redirectedData message) = message :=
  @secpHeader_elsewhere 69 passkey attackerAssertion.signature message rfl rfl h (by decide)

/-- The precompile reads the attacker's key. -/
theorem located_redirected (h : message.length = 69) {datas : List Bytes}
    (hdatas : datas[3]? = some keyCarrierIx.data) :
    Secp256r1.located (redirectedData message) datas
        (Secp256r1.offsetsAt (redirectedData message) 2) =
      some (attackerAssertion.signature, attackerKey, message) :=
  @located_elsewhere 69 passkey attackerAssertion.signature message attackerKey datas rfl rfl h rfl
    hdatas

end Redirected

/-- The precompile accepts the transaction. -/
theorem accepted_redirected :
    Accepted (attackerAssertion.curve (challenge policyRequire protectedIx 0)) redirected := by
  have hheader := (secpHeader_redirected length_redirectedMessage).1
  have hdatas : (redirected.map Instruction.data)[3]? = some keyCarrierIx.data := rfl
  intro ix hix hid
  rcases List.mem_cons.mp hix with rfl | hix
  · show Secp256r1.verify _ (redirectedData _) _ = true
    unfold Secp256r1.verify
    rw [records_of_header hheader]
    simp only [List.all_cons, List.all_nil, Bool.and_true,
      located_redirected length_redirectedMessage hdatas]
    simp [Assertion.curve, attackerAssertion]
  -- only the first of the four instructions is the precompile's
  · have hne : ∀ i ∈ redirected.tail, i.programId ≠ Secp256r1.programId := by
      intro i hi
      have hids : i.programId ∈ redirected.tail.map Instruction.programId := List.mem_map_of_mem hi
      have hlist : redirected.tail.map Instruction.programId = [localnetId, callerId, callerId] :=
        rfl
      rw [hlist] at hids
      revert hids
      generalize i.programId = p
      decide +revert
    exact absurd hid (hne ix hix)

/-- No signature of a registered key was verified. -/
theorem not_signatureVerified_redirected {policy : String} {proof : ProofData} :
    ¬SignatureVerified (attackerAssertion.curve (challenge policyRequire protectedIx 0)) redirected
      (registry 0) wallet localnetId policy 2 proof := by
  intro h
  obtain ⟨⟨k, hk, ix, -, -, rs, -, r, -, signature, -, hcurve⟩, -⟩ := h
  obtain rfl := List.mem_singleton.mp hk
  have hne : (entry.pubkeyBytes == attackerAssertion.pubkey) = false := by decide
  rw [Assertion.curve, hne] at hcurve
  exact absurd hcurve (by simp)

/-- A transaction that passes the precompile and the guard, although no
registered key signed anything. -/
theorem redirected_key :
    Accepted (attackerAssertion.curve (challenge policyRequire protectedIx 0)) redirected ∧
    (verifyAtIdx ⟨5, 500⟩ ⟨redirected, 2⟩ (registry 0) wallet localnetId policyRequire 2).Returns
      (registry 0).consume ∧
    ∀ proof, ProofAt ⟨redirected, 2⟩ localnetId 2 proof →
      ¬SignatureVerified (attackerAssertion.curve (challenge policyRequire protectedIx 0))
        redirected (registry 0) wallet localnetId policyRequire 2 proof := by
  obtain ⟨hheader, hkey, hmessage⟩ := secpHeader_redirected length_redirectedMessage
  have hv : Verified ⟨5, 500⟩ ⟨redirected, 2⟩ (registry 0) wallet localnetId 2 policyRequire
      (attackerAssertion.proof (challenge policyRequire protectedIx 0) 1000 policyRequire)
      protectedIx redirectedSecpIx :=
    verified_of_recordProof rfl (by decide) rfl rfl rfl (by decide) length_utf8_policyRequire
      (by decide) rfl hheader ⟨entry, List.mem_singleton_self _, hkey.symm⟩ hmessage (by decide)
  exact ⟨accepted_redirected, returns_verifyAtIdx.mpr ⟨rfl, _, _, _, hv⟩,
    fun _ _ => not_signatureVerified_redirected⟩

end Localnet

end Trana.Security
