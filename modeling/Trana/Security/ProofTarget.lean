import Trana.Security.Binding
import Trana.Solana.CallTree

/-!
# Which instruction a proof names

The guard hashes the current top-level instruction. The instruction that
demands the proof may be another one: the program that called `enforce`, or an
`add_passkey` or `remove_passkey` invoked from below.

* `names_iff` — an accepted challenge is the hash of some instruction exactly
  when that instruction is, as an action, the top-level one.
* `proof_target` — so a proof names the instruction that required it exactly
  when this is the top-level action.
* `relayed_proof` — a proof for one program's instruction lets another
  program's guarded instruction through.

`Requiring` says which instruction required the proof, wherever it stands in the
transaction's call trees: the caller of `enforce`, or `enforce` itself when it is
top-level, and for the two key instructions the invocation of the guard.

An action is a program, its data and its account addresses; flags are not hashed.
That a proof names an instruction means that the hash it was made for is the
hash of that instruction, with the registry's nonce and the proof's expiry. The
direction from hash to action needs the two preimages at hand not to collide,
the other needs nothing. A proof names a top-level instruction always, so for
direct calls there is no condition.
-/

namespace Trana.Security

open Trana.Lib Trana.Lib.Exec Trana.Solana Trana.Guard

/-- The instruction that required the proof: for `enforce` the caller's, or
`enforce` itself at top level; for the key instructions the invocation itself. -/
inductive Requiring (tx : Transaction) (i : UInt16) (callee : Instruction) :
    GuardInstruction → Instruction → Prop where
  | caller {policy : Policy} {caller : Instruction} (calls : tx.CallsAt i caller callee) :
    Requiring tx i callee (.enforce policy) caller
  | direct {policy : Policy} (top : tx.instructions[i.toNat]? = some callee) :
    Requiring tx i callee (.enforce policy) callee
  | addPasskey {keyKind : KeyKind} {pubkeyBytes credentialId : Bytes} (runs : tx.Runs i callee) :
    Requiring tx i callee (.addPasskey keyKind pubkeyBytes credentialId) callee
  | removePasskey {credentialId : Bytes} (runs : tx.Runs i callee) :
    Requiring tx i callee (.removePasskey credentialId) callee

/-- The accepted challenge is the intent hash of this instruction: its program,
data and account addresses are the ones that were signed. -/
def ProofNames (d : Guard.Deployment) (w : Pubkey) (r : PasskeyRegistry) (policy : String)
    (proof : ProofData) (ix : Instruction) : Prop :=
  ChallengeIs proof.clientDataJson (intentHash w d.programId policy ix r.nonce proof.expiry)

/-- The context of a verification of this instruction. -/
def contextOf (d : Guard.Deployment) (w : Pubkey) (r : PasskeyRegistry) (policy : String)
    (proof : ProofData) (ix : Instruction) : VerificationContext :=
  ⟨w, d.programId, ix, policy, r.nonce, proof.expiry⟩

section Names

variable {d : Guard.Deployment} {w : Pubkey} {r : PasskeyRegistry} {policy : String}
  {proof : ProofData} {top ix : Instruction}

/-- Preimages of one length split their data alike. -/
theorem data_length_of_preimage_eq
    (h : (contextOf d w r policy proof top).preimage = (contextOf d w r policy proof ix).preimage)
    (hlen : 8 ≤ top.data.length) : 8 ≤ ix.data.length := by
  have := congrArg List.length h
  simp only [VerificationContext.preimage, contextOf, intentPreimage, List.length_append,
    length_sha256, length_leBytes, Pubkey.length_eq, List.length_take] at this
  omega

/-- An accepted challenge names an instruction exactly when it is the same
action as the top-level one. -/
theorem names_iff (hpolicy : (Codec.utf8 policy).length < 65536) (hlen : 8 ≤ top.data.length)
    (htop : ProofNames d w r policy proof top)
    (hsha : (contextOf d w r policy proof top).NoCollision (contextOf d w r policy proof ix)) :
    ProofNames d w r policy proof ix ↔ top.SameAction ix := by
  constructor
  · intro hnames
    have hhash := htop.unique hnames
    have hlen' := data_length_of_preimage_eq (hsha.preimage hhash) hlen
    have htopWell : (contextOf d w r policy proof top).WellFormed := ⟨hlen, hpolicy⟩
    have hwell : (contextOf d w r policy proof ix).WellFormed := ⟨hlen', hpolicy⟩
    exact (VerificationContext.same_of_hash_eq htopWell hwell hsha hhash).action
  · intro hsame
    unfold ProofNames at htop ⊢
    rwa [intentHash_congr hsame] at htop

end Names

/-- The policy strings are short. -/
theorem length_requires {env : Env} {gix : GuardInstruction} {policy : String}
    (h : gix.requires env = some policy) : (Codec.utf8 policy).length < 65536 := by
  -- only three of the eight instructions ask for a proof
  cases gix with
  | addPasskey keyKind pubkeyBytes credentialId =>
    exact Option.some.inj h ▸ Policy.require.length_domain
  | removePasskey credentialId => exact Option.some.inj h ▸ Policy.require.length_domain
  | enforce p =>
    rw [GuardInstruction.requires] at h
    split at h
    next =>
      obtain rfl := Option.some.inj h
      exact p.length_domain
    next => cases h
  | initConfig registerFee addKeyFee treasury => cases h
  | updateConfig registerFee addKeyFee treasury => cases h
  | registerPasskey keyKind pubkeyBytes credentialId => cases h
  | recoverRegistry keyKind pubkeyBytes credentialId => cases h
  | recordProof p => cases h

/-- When a proof names the instruction that required it. -/
theorem proof_target {d : Guard.Deployment} {tx : Transaction} {i : UInt16} {env : Env}
    {callee requiring : Instruction} {gix : GuardInstruction} {policy : String} {l l' : Ledger}
    (hsysvar : env.ixSysvar = tx.sysvar i)
    (hix : (parseInstruction callee.data).Returns gix)
    (hrun : (process d env callee.accounts callee.data l).Returns l')
    (hreq : gix.requires env = some policy) (hrequiring : Requiring tx i callee gix requiring) :
    ∃ w key r proof top secpIx, Names callee.accounts key w ∧ registryAt d l key = some r ∧
      Verified env.clock (tx.sysvar i) r w d.programId i policy proof top secpIx ∧
      ((contextOf d w r policy proof top).NoCollision (contextOf d w r policy proof requiring) →
        (ProofNames d w r policy proof requiring ↔ top.SameAction requiring)) ∧
      (tx.instructions[i.toNat]? = some requiring → ProofNames d w r policy proof requiring) := by
  obtain ⟨gix', hix', hexec⟩ := returns_bind.mp hrun
  obtain rfl := hix.unique hix'
  obtain ⟨w, key, r, proof, top, secpIx, hnames, hfound, -, hv⟩ :=
    effect_verification (execute_effect hexec) hreq
  rw [hsysvar] at hv
  refine ⟨w, key, r, proof, top, secpIx, hnames, hfound, hv, fun hsha => ?_, fun hroot => ?_⟩
  · exact names_iff (length_requires hreq) hv.data_length hv.challenge hsha
  · obtain rfl := Option.some.inj (hv.protectedIx.symm.trans hroot)
    exact hv.challenge

/-! ### A relayed proof -/

section Localnet

open Sdk Sdk.Localnet

/-- Another program with a guarded instruction. -/
def otherId : Pubkey := ⟨List.replicate 32 10, by decide⟩

/-- The instruction the passkey approves. -/
def relayIx : Instruction where
  programId := callerId
  accounts := protectedIx.accounts ++ [readonlyMeta otherId]
  data := protectedIx.data

/-- What its program makes of it: a call into the other program. -/
def relayedIx : Instruction := { relayIx with programId := otherId }

/-- The other program's call to the guard. -/
def requireCall : Instruction where
  programId := localnetId
  accounts := enforceAccounts
  data := enforceDisc ++ [0]

def relayAssertion : Assertion :=
  assertion
      [71, 164, 93, 17, 202, 7, 180, 21, 174, 132, 142, 213, 249, 7, 167, 152, 246, 155, 164,
       50, 183, 183, 84, 203, 158, 66, 210, 13, 148, 98, 31, 214, 111, 120, 61, 182, 105, 32,
       146, 187, 232, 239, 87, 24, 172, 135, 77, 231, 129, 80, 45, 161, 126, 240, 123, 232, 76,
       218, 8, 140, 115, 225, 109, 154] (by decide)

/-- The proof, and the relay below it. -/
def relayed : Transaction where
  trees := [.invoke (relayAssertion.secpIx (challenge policyRequire relayIx 0)) [],
    .invoke (relayAssertion.recordProofIx localnetId (challenge policyRequire relayIx 0) 1000
      policyRequire) [],
    .invoke relayIx [.invoke relayedIx [.invoke requireCall []]]]

def relayEnv : Env := ⟨⟨5, 500⟩, relayed.sysvar 2, minimumBalance⟩

theorem relayed_instructions :
    relayed.instructions = proven relayAssertion policyRequire relayIx 0 :=
  rfl

theorem relayed_sysvar :
    relayed.sysvar 2 = ⟨proven relayAssertion policyRequire relayIx 0, 2⟩ :=
  rfl

theorem verified_relayed : Verified ⟨5, 500⟩ (relayed.sysvar 2) (registry 0) wallet localnetId 2
    policyRequire (relayAssertion.proof (challenge policyRequire relayIx 0) 1000 policyRequire)
    relayIx (relayAssertion.secpIx (challenge policyRequire relayIx 0)) := by
  have hdata : 8 ≤ relayIx.data.length := by decide
  have hkey : ∃ k ∈ (registry 0).keys, k.pubkeyBytes = relayAssertion.pubkey :=
    ⟨entry, List.mem_singleton_self _, rfl⟩
  have hlt : (0 : UInt64).toNat + 1 < 2 ^ 64 := by decide
  rw [relayed_sysvar]
  exact verified_proven _ _ _ rfl hlt hdata length_utf8_policyRequire hkey

theorem parse_requireCall : (parseInstruction requireCall.data).Returns (.enforce .require) := by
  decide

/-- The guard lets the other program's instruction through. -/
theorem relayed_accepted : ∃ l',
    (process deployment relayEnv requireCall.accounts requireCall.data registered).Returns l' := by
  obtain ⟨l', hrun, -⟩ := execute_enforce_of relayEnv .require enforce_context rfl
    registryAt_registered.1 rfl verified_relayed
  exact ⟨l', returns_bind.mpr ⟨_, parse_requireCall, hrun⟩⟩

theorem relayed_requiring : Requiring relayed 2 requireCall (.enforce .require) relayedIx :=
  .caller ⟨_, rfl, _, _, .call (List.mem_singleton_self _) (.root _), rfl,
    List.mem_singleton_self _, rfl⟩

/-- The relayed call, judged by the top-level instruction. -/
theorem proof_target_relayed : ∃ w key r proof top secpIx,
    Names requireCall.accounts key w ∧ registryAt deployment registered key = some r ∧
    Verified ⟨5, 500⟩ (relayed.sysvar 2) r w localnetId 2 policyRequire proof top secpIx ∧
    ((contextOf deployment w r policyRequire proof top).NoCollision
        (contextOf deployment w r policyRequire proof relayedIx) →
      (ProofNames deployment w r policyRequire proof relayedIx ↔ top.SameAction relayedIx)) ∧
    (relayed.instructions[(2 : UInt16).toNat]? = some relayedIx →
      ProofNames deployment w r policyRequire proof relayedIx) := by
  obtain ⟨l', hrun⟩ := relayed_accepted
  have hsysvar : relayEnv.ixSysvar = relayed.sysvar 2 := rfl
  exact proof_target hsysvar parse_requireCall hrun rfl relayed_requiring

def relayProof : ProofData :=
  relayAssertion.proof (challenge policyRequire relayIx 0) 1000 policyRequire

/-- The approval does not name the relayed instruction. -/
theorem not_proofNames_relayed :
    ¬ProofNames deployment wallet (registry 0) policyRequire relayProof relayedIx := by
  intro hnames
  have hpreimage : CollisionFree
      (contextOf deployment wallet (registry 0) policyRequire relayProof relayIx).preimage
      (contextOf deployment wallet (registry 0) policyRequire relayProof relayedIx).preimage := by
    decide +kernel
  have hpolicy : (Codec.utf8 policyRequire).length < 65536 := Policy.require.length_domain
  have hdata : 8 ≤ relayIx.data.length := by decide
  have htop : ProofNames deployment wallet (registry 0) policyRequire relayProof relayIx :=
    verified_relayed.challenge
  have hsame := (names_iff hpolicy hdata htop
    ⟨hpreimage, collisionFree_refl _, collisionFree_refl _⟩).mp hnames
  exact absurd hsame (by decide)

/-- The passkey approved an instruction of one program; the guard accepts it
for an instruction of another. -/
theorem relayed_proof :
    Secp256r1.Accepted (relayAssertion.curve (challenge policyRequire relayIx 0))
      relayed.instructions ∧
    Granted relayIx relayedIx ∧ Granted relayedIx requireCall ∧
    Requiring relayed 2 requireCall (.enforce .require) relayedIx ∧
    (∃ l', (process deployment relayEnv requireCall.accounts requireCall.data
      registered).Returns l') ∧
    ∀ proof, ProofAt (relayed.sysvar 2) localnetId 2 proof →
      ¬ProofNames deployment wallet (registry 0) policyRequire proof relayedIx := by
  refine ⟨?_, by decide, by decide, relayed_requiring, relayed_accepted, fun proof hproof => ?_⟩
  · rw [relayed_instructions]
    exact accepted_proven (by decide)
  · obtain rfl := hproof.unique verified_relayed.proofAt
    exact not_proofNames_relayed

end Localnet

end Trana.Security
