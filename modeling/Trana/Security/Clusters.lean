import Trana.Security.Soundness
import Trana.Security.Binding

/-!
# Assertions across clusters

The architecture notes say that the cluster goes into the challenge, so that an
assertion for one cluster fails on another even under one program id. The
preimage has no such field: what tells two builds apart is the guard's own id in
it, and only devnet declares one of its own.

* `guardId_of_preimage_eq` — the preimage determines the guard's id.
* `cross_cluster` — two builds reject each other's assertions exactly when one
  of them is the devnet build.
* `localnet_on_mainnet` — an assertion that passes on localnet and mainnet-beta.

A build is chosen by a feature of the crate, and `Network.declareId` lists what
each of the three declares. To reject each other's assertions is stated over all
owners, registries, transactions and assertions whose preimages do not collide
under SHA-256: whatever is accepted by one build is not accepted by the other.

In the counterexample the instructions are the same on both clusters, and so is
the registry. The blockhash, which keeps a signed transaction to its cluster, is
not part of what the guard hashes.
-/

namespace Trana.Security

open Trana.Lib Trana.Lib.Exec Trana.Solana Trana.Guard

namespace VerificationContext

/-- The guard's id stands behind fields of known length, so this needs no bound
on the policy string after it. -/
theorem guardId_of_preimage_eq {c c' : VerificationContext} (h : c.preimage = c'.preimage) :
    c.guardId = c'.guardId := by
  have hdomain : (Codec.utf8 intentDomain).length < 65536 := by
    rw [length_utf8_intentDomain]
    omega
  simp only [preimage, intentPreimage, List.append_assoc] at h
  obtain ⟨-, h⟩ := List.append_inj h rfl
  obtain ⟨-, h⟩ := selfDelimiting_string hdomain hdomain h
  obtain ⟨-, h⟩ := selfDelimiting_pubkey trivial trivial h
  exact (selfDelimiting_pubkey trivial trivial h).1

end VerificationContext

namespace Verification

/-- The same owner, nonce, protected instruction and assertion. -/
structure SameApproval (v v' : Verification) : Prop where
  owner : v.owner = v'.owner
  nonce : v.registry.nonce = v'.registry.nonce
  protectedIx : v.ixSysvar.instructions[v.currentIdx.toNat]? =
    v'.ixSysvar.instructions[v'.currentIdx.toNat]?
  assertion : v.SameAssertion v'

/-- The hashes taken in the two verifications do not collide. -/
structure Apart (v v' : Verification) : Prop extends v.NoCollision v' where
  preimage : ∀ c c', v.context? = some c → v'.context? = some c' →
    CollisionFree c.preimage c'.preimage

variable {v v' : Verification}

/-- A verification that returns has a context. -/
theorem context_of_run {r : PasskeyRegistry} (h : v.run.Returns r) :
    ∃ c, v.context? = some c ∧ c.guardId = v.guardId := by
  obtain ⟨-, ix, secpIx, ha⟩ := returns_runVerification.mp h
  exact ⟨⟨v.owner, v.guardId, ix, v.policy, v.registry.nonce, v.proof.expiry⟩,
    by rw [context?, ha.protectedIx, Option.map_some], rfl⟩

/-- One assertion passes under one guard id only. -/
theorem guardId_eq_of_run {r r' : PasskeyRegistry} (hsame : v.SameAssertion v')
    (hsha : v.Apart v') (h : v.run.Returns r) (h' : v'.run.Returns r') :
    v.guardId = v'.guardId := by
  obtain ⟨c, hc, hguard⟩ := context_of_run h
  obtain ⟨c', hc', hguard'⟩ := context_of_run h'
  have hchal := challenge_of_run hc h
  have hchal' := challenge_of_run hc' h'
  rw [← clientDataJson_eq hsha.toNoCollision hsame] at hchal'
  have hpre : c.preimage = c'.preimage := hsha.preimage c c' hc hc' (hchal.unique hchal')
  rw [← hguard, ← hguard', VerificationContext.guardId_of_preimage_eq hpre]

end Verification

/-- What the build for one network accepts, the build for the other rejects. -/
def Rejects (a b : Network) : Prop :=
  ∀ v v' : Verification, v.guardId = a.declareId → v'.guardId = b.declareId →
    v.SameApproval v' → v.Apart v' →
    ∀ r r', v.run.Returns r → ¬v'.run.Returns r'

/-- Only devnet declares an id of its own. -/
theorem declareId_ne_iff {a b : Network} (hne : a ≠ b) :
    a.declareId ≠ b.declareId ↔ a = .devnet ∨ b = .devnet := by
  have hids : devnetId ≠ localnetId := by decide
  cases a <;> cases b <;> simp_all [Network.declareId, hids.symm]

section Localnet

open Sdk Sdk.Localnet

/-- The localnet wallet's approval, verified under that id. -/
def approvedVerification : Verification :=
  ⟨⟨5, 500⟩, ⟨approved, 2⟩, registry 0, wallet, localnetId, 2, approvedProof, policyRequire⟩

theorem run_approvedVerification :
    approvedVerification.run.Returns (registry 0).consume := by
  have hv := verified_approval (r := registry 0) ⟨entry, List.mem_singleton_self _, rfl⟩ rfl
  exact returns_runVerification.mpr ⟨rfl, _, _, hv.toAccepts⟩

theorem approvedVerification_apart :
    approvedVerification.Apart approvedVerification := by
  refine ⟨⟨collisionFree_refl _, collisionFree_refl _⟩, fun c c' hc hc' => ?_⟩
  obtain rfl := Option.some.inj (hc.symm.trans hc')
  exact collisionFree_refl _

/-- Builds that declare one id accept the same assertions. -/
theorem not_rejects_of_declareId_eq {a b : Network} (ha : a.declareId = localnetId)
    (hb : b.declareId = localnetId) : ¬Rejects a b := by
  intro h
  have hsame : approvedVerification.SameApproval approvedVerification := ⟨rfl, rfl, rfl, rfl⟩
  exact h _ _ ha.symm hb.symm hsame approvedVerification_apart _ _
    run_approvedVerification run_approvedVerification

end Localnet

/-- Two builds reject each other's assertions exactly when one of them is the
devnet build. -/
theorem cross_cluster {a b : Network} (hne : a ≠ b) :
    Rejects a b ↔ a = .devnet ∨ b = .devnet := by
  rw [← declareId_ne_iff hne]
  constructor
  · intro h hid
    -- builds with one id share localnet's
    have hlocal : a.declareId = localnetId := by
      cases a <;> cases b <;> simp_all [Network.declareId]
    exact not_rejects_of_declareId_eq hlocal (hid ▸ hlocal) h
  · intro hids v v' hv hv' hsame hsha r r' h h'
    exact hids (hv ▸ hv' ▸ Verification.guardId_eq_of_run hsame.assertion hsha h h')

/-- Devnet against mainnet-beta. -/
theorem cross_cluster_devnet :
    Rejects .devnet .mainnetBeta ↔ Network.devnet = .devnet ∨ Network.mainnetBeta = .devnet :=
  cross_cluster (by decide)

section Localnet

open Sdk Sdk.Localnet

/-- A signed transaction that passes the precompile and the verification of the
localnet and of the mainnet-beta build. -/
theorem localnet_on_mainnet :
    Network.localnet ≠ .mainnetBeta ∧
    Secp256r1.Accepted (approval.curve (challenge policyRequire protectedIx 0)) approved ∧
    approvedVerification.guardId = Network.localnet.declareId ∧
    approvedVerification.guardId = Network.mainnetBeta.declareId ∧
    (∃ r, approvedVerification.run.Returns r) ∧ ¬Rejects .localnet .mainnetBeta :=
  ⟨by decide, accepted_proven (by decide), rfl, rfl, ⟨_, run_approvedVerification⟩,
    not_rejects_of_declareId_eq rfl rfl⟩

end Localnet

end Trana.Security
