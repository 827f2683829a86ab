import Trana.Sdk.Transaction

/-!
# What a challenge binds

The intent hash determines the whole verification context: owner, guard
program, policy string, nonce, expiry, and of the protected instruction its
program, data and account addresses. It does not determine the parameters of
the policy, which never enter it.

* `intentPreimage_inj` — the preimage is uniquely decodable.
* `same_of_hash_eq` — contexts with equal hashes are the same.
* `intent_binding` — an assertion made for one context is accepted in no other.
* `not_commits` — an assertion accepted under one slot (or limit) is accepted
  under every other for which the policy still fires.
* `slots_not_committed` — one signature for two slots.

Every field of the preimage is delimited by itself: keys, hashes and integers
have a fixed size, strings a length in front. The account list goes in as the
hash of the keys one after the other, and the data as its first eight bytes and
the hash of the rest, so the preimage is injective up to these two hashes.

About SHA-256 only what is needed is assumed: `NoCollision` says of the two
messages at hand that they do not collide, never that the hash is injective.
The signer and writable flags of the accounts are not in the preimage, and so
not among what is `Same`; they are bound by the transaction's own signature.

`WellFormed` is what the guard needs to come to a hash at all: eight bytes of
data for the discriminator, a policy string whose length fits its two bytes.
-/

namespace Trana.Security

open Trana.Lib Trana.Lib.Exec Trana.Solana Trana.Guard

/-! ## Unique decodability -/

section Preimage

theorem selfDelimiting_string : SelfDelimiting {s : String | (Codec.utf8 s).length < 65536}
    fun s => lenPrefixed 2 (Codec.utf8 s) :=
  (selfDelimiting_lenPrefixed 2).comp (fun _ h => h) fun _ _ _ _ h => Codec.utf8_inj h

theorem selfDelimiting_pubkey : SelfDelimiting Set.univ Pubkey.bytes :=
  .of_length 32 (fun p _ => p.length_eq) fun _ _ _ _ h => Pubkey.bytes_inj h

theorem selfDelimiting_u64 : SelfDelimiting Set.univ fun n : UInt64 => leBytes 8 n.toNat :=
  .of_length 8 (fun _ _ => length_leBytes ..) fun m _ n _ h =>
    UInt64.toNat_inj.mp (leBytes_inj_of_lt m.toNat_lt n.toNat_lt h)

theorem selfDelimiting_i64 :
    SelfDelimiting Set.univ fun n : Int64 => leBytes 8 n.toUInt64.toNat := by
  refine selfDelimiting_u64.comp (Set.mapsTo_univ _ _) fun m _ n _ h => ?_
  rw [← Int64.toInt64_toUInt64 m, h, Int64.toInt64_toUInt64]

variable {domain domain' policyId policyId' : String}
  {wallet wallet' guardId guardId' target target' : Pubkey}
  {disc disc' acc acc' params params' : Bytes} {nonce nonce' : UInt64} {expiry expiry' : Int64}

/-- Peeling the preimage field by field. -/
theorem intentPreimage_inj (hdomain : (Codec.utf8 domain).length < 65536)
    (hdomain' : (Codec.utf8 domain').length < 65536)
    (hpolicy : (Codec.utf8 policyId).length < 65536)
    (hpolicy' : (Codec.utf8 policyId').length < 65536) (hdisc : disc.length = disc'.length)
    (hacc : acc.length = acc'.length) (hparams : params.length = params'.length)
    (h : intentPreimage domain wallet guardId target policyId disc acc params nonce expiry =
      intentPreimage domain' wallet' guardId' target' policyId' disc' acc' params' nonce'
        expiry') :
    domain = domain' ∧ wallet = wallet' ∧ guardId = guardId' ∧ target = target' ∧
      policyId = policyId' ∧ disc = disc' ∧ acc = acc' ∧ params = params' ∧ nonce = nonce' ∧
      expiry = expiry' := by
  simp only [intentPreimage, List.append_assoc] at h
  obtain ⟨-, h⟩ := List.append_inj h rfl
  obtain ⟨hd, h⟩ := selfDelimiting_string hdomain hdomain' h
  obtain ⟨hw, h⟩ := selfDelimiting_pubkey trivial trivial h
  obtain ⟨hg, h⟩ := selfDelimiting_pubkey trivial trivial h
  obtain ⟨ht, h⟩ := selfDelimiting_pubkey trivial trivial h
  obtain ⟨hp, h⟩ := selfDelimiting_string hpolicy hpolicy' h
  -- the three fields without a length prefix have a fixed one
  obtain ⟨hd8, h⟩ := List.append_inj h hdisc
  obtain ⟨ha, h⟩ := List.append_inj h hacc
  obtain ⟨hps, h⟩ := List.append_inj h hparams
  obtain ⟨hn, h⟩ := selfDelimiting_u64 trivial trivial h
  exact ⟨hd, hw, hg, ht, hp, hd8, ha, hps, hn, selfDelimiting_i64.injOn trivial trivial h⟩

end Preimage

/-- The account list is determined by its concatenation. -/
theorem accountKeys_of_accBytes {ix ix' : Instruction} (h : accBytes ix = accBytes ix') :
    ix.accountKeys = ix'.accountKeys :=
  flatMap_inj_of_length (by omega : 0 < 32) Pubkey.length_eq Pubkey.bytes_inj h

/-! ## Contexts -/

/-- What one verification hashes. -/
structure VerificationContext where
  owner : Pubkey
  guardId : Pubkey
  protectedIx : Instruction
  policy : String
  nonce : UInt64
  expiry : Int64

namespace VerificationContext

variable (c c' : VerificationContext)

/-- The hash `run_verification` computes in this context. -/
def intentHash : Result Bytes :=
  protectedIntentHash c.owner c.guardId c.policy c.protectedIx c.nonce c.expiry

def preimage : Bytes :=
  intentPreimage intentDomain c.owner c.guardId c.protectedIx.programId c.policy
    (c.protectedIx.data.take 8) (sha256 (accBytes c.protectedIx))
    (sha256 (c.protectedIx.data.drop 8)) c.nonce c.expiry

/-- Equal in everything the hash should bind. -/
structure Same : Prop where
  owner : c.owner = c'.owner
  guardId : c.guardId = c'.guardId
  policy : c.policy = c'.policy
  nonce : c.nonce = c'.nonce
  expiry : c.expiry = c'.expiry
  action : c.protectedIx.SameAction c'.protectedIx

/-- Equal in what the preimage lists. -/
structure SameFields : Prop where
  owner : c.owner = c'.owner
  guardId : c.guardId = c'.guardId
  target : c.protectedIx.programId = c'.protectedIx.programId
  policy : c.policy = c'.policy
  disc : c.protectedIx.data.take 8 = c'.protectedIx.data.take 8
  accounts : sha256 (accBytes c.protectedIx) = sha256 (accBytes c'.protectedIx)
  params : sha256 (c.protectedIx.data.drop 8) = sha256 (c'.protectedIx.data.drop 8)
  nonce : c.nonce = c'.nonce
  expiry : c.expiry = c'.expiry

/-- The three hashes taken in the two contexts do not collide. -/
structure NoCollision : Prop where
  preimage : CollisionFree c.preimage c'.preimage
  accounts : CollisionFree (accBytes c.protectedIx) (accBytes c'.protectedIx)
  params : CollisionFree (c.protectedIx.data.drop 8) (c'.protectedIx.data.drop 8)

/-- A discriminator, and a policy string with a 16-bit length. -/
structure WellFormed : Prop where
  data : 8 ≤ c.protectedIx.data.length
  policy : (Codec.utf8 c.policy).length < 65536

variable {c c'}

theorem returns_intentHash {h : Bytes} (hh : c.intentHash.Returns h) : h = sha256 c.preimage :=
  (returns_protectedIntentHash.mp hh).2.2

/-- Equal hashes of distinct preimages aside, the fields of the context agree,
the two inner hashes as such. -/
theorem fields_of_hash_eq (hc : c.WellFormed) (hc' : c'.WellFormed)
    (hsha : CollisionFree c.preimage c'.preimage) (h : sha256 c.preimage = sha256 c'.preimage) :
    c.SameFields c' := by
  have hdomain : (Codec.utf8 intentDomain).length < 65536 := by
    rw [length_utf8_intentDomain]
    omega
  have hdisc : (c.protectedIx.data.take 8).length = (c'.protectedIx.data.take 8).length := by
    rw [List.length_take_of_le hc.data, List.length_take_of_le hc'.data]
  obtain ⟨-, howner, hguard, htarget, hpolicy, htake, hacc, hparams, hnonce, hexpiry⟩ :=
    intentPreimage_inj hdomain hdomain hc.policy hc'.policy hdisc (by simp) (by simp) (hsha h)
  exact ⟨howner, hguard, htarget, hpolicy, htake, hacc, hparams, hnonce, hexpiry⟩

/-- Equal hashes come from the same context. -/
theorem same_of_hash_eq (hc : c.WellFormed) (hc' : c'.WellFormed) (hsha : c.NoCollision c')
    (h : sha256 c.preimage = sha256 c'.preimage) : c.Same c' := by
  have hf := fields_of_hash_eq hc hc' hsha.preimage h
  have hdata : c.protectedIx.data = c'.protectedIx.data := by
    rw [← List.take_append_drop 8 c.protectedIx.data, hf.disc, hsha.params hf.params,
      List.take_append_drop]
  exact ⟨hf.owner, hf.guardId, hf.policy, hf.nonce, hf.expiry, hf.target, hdata,
    accountKeys_of_accBytes (hsha.accounts hf.accounts)⟩

end VerificationContext

/-! ## Verifications -/

/-- One call of `run_verification`. -/
structure Verification where
  clock : Clock
  ixSysvar : InstructionsSysvar
  registry : PasskeyRegistry
  owner : Pubkey
  guardId : Pubkey
  currentIdx : UInt16
  proof : ProofData
  policy : String

namespace Verification

variable (v v' : Verification)

def run : Result PasskeyRegistry :=
  runVerification v.clock v.ixSysvar v.registry v.owner v.guardId v.currentIdx v.proof v.policy

/-- The context its hash is taken in, when there is a protected instruction. -/
def context? : Option VerificationContext :=
  (v.ixSysvar.instructions[v.currentIdx.toNat]?).map fun ix =>
    ⟨v.owner, v.guardId, ix, v.policy, v.registry.nonce, v.proof.expiry⟩

/-- What the passkey signed: authenticator data and client data hash. -/
def signed : Bytes := v.proof.authenticatorData ++ sha256 v.proof.clientDataJson

/-- The same signature serves both. -/
def SameAssertion : Prop := sha256 v.signed = sha256 v'.signed

/-- The signed messages and the client data do not collide. -/
structure NoCollision : Prop where
  signed : CollisionFree v.signed v'.signed
  clientData : CollisionFree v.proof.clientDataJson v'.proof.clientDataJson

variable {v v'} {c c' : VerificationContext}

/-- One signature is over one client data. -/
theorem clientDataJson_eq (hsha : v.NoCollision v') (h : v.SameAssertion v') :
    v.proof.clientDataJson = v'.proof.clientDataJson :=
  hsha.clientData (List.append_inj' (hsha.signed h) (by simp)).2

/-- An accepted client data carries the hash of its context. -/
theorem challenge_of_run {r : PasskeyRegistry} (hc : v.context? = some c) (h : v.run.Returns r) :
    ChallengeIs v.proof.clientDataJson (sha256 c.preimage) := by
  obtain ⟨-, ix, secpIx, ha⟩ := returns_runVerification.mp h
  obtain ⟨ix', hix', rfl⟩ := Option.map_eq_some_iff.mp hc
  obtain rfl := Option.some.inj (ha.protectedIx.symm.trans hix')
  exact ha.challenge

end Verification

/-- The intent hash binds its context, and with it every signed assertion. -/
theorem intent_binding {c c' : VerificationContext} (hc : c.WellFormed) (hc' : c'.WellFormed)
    (hsha : c.NoCollision c') :
    (∀ h, c.intentHash.Returns h → c'.intentHash.Returns h → c.Same c') ∧
    ∀ v v' : Verification, v.context? = some c → v'.context? = some c' → v.SameAssertion v' →
      v.NoCollision v' → ¬c.Same c' → ∀ r r', v.run.Returns r → ¬v'.run.Returns r' := by
  constructor
  · intro h hh hh'
    have heq : sha256 c.preimage = sha256 c'.preimage := by
      rw [← VerificationContext.returns_intentHash hh, ← VerificationContext.returns_intentHash hh']
    exact VerificationContext.same_of_hash_eq hc hc' hsha heq
  · intro v v' hv hv' hsame hfree hne r r' hrun hrun'
    have hchal := Verification.challenge_of_run hv hrun
    have hchal' := Verification.challenge_of_run hv' hrun'
    rw [← Verification.clientDataJson_eq hfree hsame] at hchal'
    exact hne (VerificationContext.same_of_hash_eq hc hc' hsha (hchal.unique hchal'))

/-- The localnet wallet's instruction at some nonce. -/
def localContext (nonce : UInt64) : VerificationContext :=
  ⟨Sdk.Localnet.wallet, localnetId, Sdk.Localnet.protectedIx, policyRequire, nonce, 1000⟩

theorem localContext_wellFormed (nonce : UInt64) : (localContext nonce).WellFormed :=
  ⟨by show 8 ≤ Sdk.Localnet.protectedIx.data.length; decide,
    Policy.require.length_domain⟩

/-- At two nonces the hashes differ, and no assertion passes at both. -/
theorem intent_binding_nonces :
    (∀ h, (localContext 0).intentHash.Returns h → (localContext 1).intentHash.Returns h →
      (localContext 0).Same (localContext 1)) ∧
    ∀ v v' : Verification, v.context? = some (localContext 0) →
      v'.context? = some (localContext 1) → v.SameAssertion v' → v.NoCollision v' →
      ¬(localContext 0).Same (localContext 1) → ∀ r r', v.run.Returns r → ¬v'.run.Returns r' :=
  intent_binding (localContext_wellFormed 0) (localContext_wellFormed 1)
    ⟨by decide +kernel, collisionFree_refl _, collisionFree_refl _⟩

/-! ## Policy parameters -/

section Parameters

variable (d : Deployment) (env : Env) (accounts : List AccountMeta) (l : Ledger) (p p' : Policy)

/-- `enforce` with this policy accepts the transaction. -/
def AcceptsPolicy : Prop := ∃ l', (execute d env accounts (.enforce p) l).Returns l'

/-- The signed challenge commits to the policy's parameters: what is accepted
under `p` is not accepted under `p'`. -/
def Commits : Prop := AcceptsPolicy d env accounts l p → ¬AcceptsPolicy d env accounts l p'

variable {d env accounts l p p'}

/-- Only the policy string reaches the hash. -/
theorem acceptsPolicy_of_domain_eq (hdomain : p.domain = p'.domain) (hfires : p.fires env = true)
    (hfires' : p'.fires env = true) (h : AcceptsPolicy d env accounts l p) :
    AcceptsPolicy d env accounts l p' := by
  obtain ⟨l', h⟩ := h
  simp only [execute, returns_bind, returns_enforce] at h
  obtain ⟨ctx, hctx, ⟨hidle, -, -⟩ | ⟨-, hrun⟩⟩ := h
  · exact absurd hfires (by simp [hidle])
  · refine ⟨l', ?_⟩
    simp only [execute, returns_bind, returns_enforce]
    refine ⟨ctx, hctx, Or.inr ⟨hfires', ?_⟩⟩
    rw [guarded, ← hdomain]
    exact hrun

/-- No accepted assertion commits to the parameters. -/
theorem not_commits (hdomain : p.domain = p'.domain) (hfires : p.fires env = true)
    (hfires' : p'.fires env = true) (haccepted : AcceptsPolicy d env accounts l p) :
    AcceptsPolicy d env accounts l p' ∧ ¬Commits d env accounts l p p' := by
  have h := acceptsPolicy_of_domain_eq hdomain hfires hfires' haccepted
  exact ⟨h, fun hcommits => hcommits haccepted h⟩

end Parameters

/-! ### Two unlock slots -/

section Slots

open Sdk Sdk.Localnet

/-- The passkey's signature over the challenge for `trana.not_before` at nonce zero. -/
def slotAssertion : Assertion :=
  assertion
    [73, 83, 169, 227, 109, 93, 18, 163, 166, 206, 34, 61, 16, 166, 215, 8, 166, 72, 133, 54,
     208, 166, 231, 24, 250, 204, 200, 205, 41, 171, 238, 79, 20, 255, 184, 62, 59, 151, 148,
     114, 72, 105, 47, 55, 221, 43, 227, 64, 75, 153, 217, 51, 0, 37, 126, 112, 120, 126, 44,
     76, 190, 117, 237, 129] (by decide)

def slotTransaction : List Instruction := proven slotAssertion policyNotBefore protectedIx 0

/-- In slot 5 the transaction is accepted for every later unlock slot. -/
theorem accepts_slot {slot : UInt64} (h : 5 < slot) :
    AcceptsPolicy deployment (env slotTransaction 2) enforceAccounts registered
      (.notBefore slot) := by
  have hpolicy : (Codec.utf8 policyNotBefore).length < 2 ^ 32 :=
    Nat.lt_trans (Policy.notBefore slot).length_domain (by decide)
  have hv := verified_proven slotAssertion protectedIx (registry 0) rfl (by decide)
    (by decide) hpolicy ⟨entry, List.mem_singleton_self _, rfl⟩
  obtain ⟨l', hrun, -⟩ := execute_enforce_of (env slotTransaction 2) (.notBefore slot)
    enforce_context (decide_eq_true h) registryAt_registered.1 rfl hv
  exact ⟨l', hrun⟩

theorem not_commits_slots :
    AcceptsPolicy deployment (env slotTransaction 2) enforceAccounts registered (.notBefore 20) ∧
    ¬Commits deployment (env slotTransaction 2) enforceAccounts registered (.notBefore 10)
      (.notBefore 20) :=
  not_commits rfl (by decide) (by decide) (accepts_slot (by decide))

/-- A signed transaction that passes the precompile, accepted for slot 10 and
for slot 20 alike. -/
theorem slots_not_committed :
    Secp256r1.Accepted (slotAssertion.curve (challenge policyNotBefore protectedIx 0))
      slotTransaction ∧
    (Policy.notBefore 10).fires (env slotTransaction 2) = true ∧
    (Policy.notBefore 20).fires (env slotTransaction 2) = true ∧
    ¬Commits deployment (env slotTransaction 2) enforceAccounts registered (.notBefore 10)
      (.notBefore 20) :=
  ⟨accepted_proven (by decide), by decide, by decide,
    fun h => h (accepts_slot (by decide)) (accepts_slot (by decide))⟩

end Slots

end Trana.Security
