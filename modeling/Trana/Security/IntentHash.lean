import Trana.Sdk.Transaction

/-!
# One intent hash on both sides

The SDK writes an intent as text and hashes the text read back, the guard
hashes the fields of the instruction it loads. The instruction the sysvar shows
may carry other signer and writable flags than the one the SDK was given; the
hash has neither.

* `hashIntent_override` — an intent carries the policy of its input.
* `intent_hash_agrees` — either copy of `hashIntent` gives the digest the
  verification computes, and compares the challenge with.

There are two copies of the hash under the repository, one in the core package
and one for React, with different inputs and the same result here. Both go
through base58 and hexadecimal text, and both read the nonce and the expiry back
from decimal digits; that these detours lose nothing is proved of each codec by
itself, in the modules of the library.

The expiry is computed by the client from its own clock and travels in the
proof; the guard hashes the one it is given. So agreement is stated at equal
expiries, nonces and actions, with the data and the accounts unbounded, and the
one bound is that of the two length bytes in front of the policy string.
-/

namespace Trana.Security

open Trana.Lib Trana.Lib.Exec Trana.Solana Trana.Guard Trana.Sdk

/-- Steps 1 and 3 of the verification: the digest of the instruction at the
current index. -/
def verificationDigest (ixSysvar : InstructionsSysvar) (registry : PasskeyRegistry)
    (owner tranaGuardProgramId : Pubkey) (currentIdx : UInt16) (policy : String)
    (expiry : Int64) : Guard.Result Bytes := do
  let protectedIx ← okOr (loadInstructionAtChecked currentIdx.toNat ixSysvar)
    (.custom GuardError.invalidProof)
  protectedIntentHash owner tranaGuardProgramId policy protectedIx registry.nonce expiry

section Digest

variable {owner guardId : Pubkey} {policy : String} {ix exposed : Instruction}

theorem returns_verificationDigest {ixSysvar : InstructionsSysvar} {registry : PasskeyRegistry}
    {currentIdx : UInt16} {expiry : Int64}
    (hexposed : ixSysvar.instructions[currentIdx.toNat]? = some exposed)
    (hdata : 8 ≤ exposed.data.length) (hfits : PolicyFits policy) :
    (verificationDigest ixSysvar registry owner guardId currentIdx policy expiry).Returns
      (intentHash owner guardId policy exposed registry.nonce expiry) := by
  simp only [verificationDigest, returns_bind, returns_okOr, returns_protectedIntentHash]
  exact ⟨exposed, hexposed, hdata, hfits, rfl⟩

/-- What a verification accepts has this digest as its challenge. -/
theorem challengeIs_digest {clock : Clock} {ixSysvar : InstructionsSysvar}
    {registry registry' : PasskeyRegistry} {currentIdx : UInt16} {proof : ProofData}
    (hexposed : ixSysvar.instructions[currentIdx.toNat]? = some exposed)
    (h : (runVerification clock ixSysvar registry owner guardId currentIdx proof policy).Returns
      registry') :
    ChallengeIs proof.clientDataJson
      (intentHash owner guardId policy exposed registry.nonce proof.expiry) := by
  obtain ⟨-, pix, secpIx, haccepts⟩ := returns_runVerification.mp h
  obtain rfl := Option.some.inj (hexposed.symm.trans haccepts.protectedIx)
  exact haccepts.challenge

/-- An intent carries the policy of its input, else the one of the config. -/
theorem hashIntent_override {override : Option String} {nonce dateNow : Nat}
    {config : IntentConfig} (hdata : 8 ≤ ix.data.length) (hnonce : nonce < 2 ^ 64)
    {expiry : Int64}
    (hexpiry : (buildIntent owner guardId { intentFromInstruction ix with policy := override }
      nonce config dateNow).expiryUnix = expiry.toInt) :
    hashIntent (buildIntent owner guardId { intentFromInstruction ix with policy := override }
        nonce config dateNow) =
      some (intentHash owner guardId (override.getD config.policy) ix (UInt64.ofNat nonce)
        expiry) := by
  have hsame : buildIntent owner guardId { intentFromInstruction ix with policy := override }
      nonce config dateNow = instructionIntent owner guardId ix nonce
        { config with policy := override.getD config.policy } dateNow := rfl
  rw [hsame] at hexpiry ⊢
  rw [hashIntent_buildIntent hdata hnonce, hexpiry, Int64.ofInt_toInt]

end Digest

/-- Both copies of the SDK's hash agree with the guard's, on any instruction
with a discriminator, however it is exposed. -/
theorem intent_hash_agrees {owner guardId : Pubkey} {policy : String}
    {override label : Option String} {nonce : UInt64} {expiry : Int64}
    {ix exposed : Instruction} {config : IntentConfig} {dateNow : Nat}
    {ixSysvar : InstructionsSysvar} {currentIdx : UInt16}
    {registry : PasskeyRegistry} (hdata : 8 ≤ ix.data.length)
    (hpolicy : (Codec.utf8 policy).length < 65536) (hcarries : override.getD config.policy = policy)
    (hexpiry : (buildIntent owner guardId { intentFromInstruction ix with policy := override }
      nonce.toNat config dateNow).expiryUnix = expiry.toInt)
    (hexposed : ixSysvar.instructions[currentIdx.toNat]? = some exposed)
    (hsame : ix.SameAction exposed) (hnonce : registry.nonce = nonce) :
    ∃ digest,
      hashIntent (buildIntent owner guardId { intentFromInstruction ix with policy := override }
        nonce.toNat config dateNow) = some digest ∧
      React.hashIntent (React.buildIntent owner guardId
        { React.intentFromInstruction ix label with policy := override } nonce.toNat config
        dateNow) = some digest ∧
      (verificationDigest ixSysvar registry owner guardId currentIdx policy expiry).Returns
        digest ∧
      ∀ clock proof registry', proof.expiry = expiry →
        (runVerification clock ixSysvar registry owner guardId currentIdx proof policy).Returns
          registry' → ChallengeIs proof.clientDataJson digest := by
  subst hnonce
  have hcore := hashIntent_override hdata registry.nonce.toNat_lt hexpiry
  rw [hcarries, UInt64.ofNat_toNat, intentHash_congr hsame] at hcore
  have hlen : 8 ≤ exposed.data.length := hsame.2.1 ▸ hdata
  have hfits : PolicyFits policy := by
    unfold PolicyFits
    omega
  refine ⟨_, hcore, hcore, returns_verificationDigest hexposed hlen hfits, ?_⟩
  intro clock proof registry' hproof hrun
  rw [← hproof]
  exact challengeIs_digest hexposed hrun

section Localnet

open Sdk.Localnet

/-- The protected instruction as its transaction shows it, alone. -/
theorem intent_hash_agrees_protected : ∃ digest,
    hashIntent (buildIntent wallet localnetId
      { intentFromInstruction protectedIx with policy := some policyRequire } (0 : UInt64).toNat
      ⟨policyNotAfter, some 1000⟩ 0) = some digest ∧
    React.hashIntent (React.buildIntent wallet localnetId
      { React.intentFromInstruction protectedIx none with policy := some policyRequire }
      (0 : UInt64).toNat ⟨policyNotAfter, some 1000⟩ 0) = some digest ∧
    (verificationDigest ⟨[protectedIx], 0⟩ ⟨wallet, 0, []⟩ wallet localnetId 0 policyRequire
      1000).Returns digest ∧
    ∀ clock proof registry', proof.expiry = 1000 →
      (runVerification clock ⟨[protectedIx], 0⟩ ⟨wallet, 0, []⟩ wallet localnetId 0 proof
        policyRequire).Returns registry' → ChallengeIs proof.clientDataJson digest :=
  intent_hash_agrees (by decide) Policy.require.length_domain rfl (by decide) rfl
    (Instruction.SameAction.refl _) rfl

end Localnet

end Trana.Security
