import Trana.Security.Replay
import Trana.Security.Soundness

/-!
# A stolen wallet key

An adversary signs whatever it likes with the wallet key, but no registered
passkey signs anything new. Every instruction that touches a live registry
demands a proof, except `recover_registry`, whose purpose is to do without.

What the passkeys signed before is a list of assertions, each with what it was
made for: an intent of the guard, or a login somewhere else. An assertion is
stale when its intent was at another nonce than the registry has now (or of
another wallet, or for another guard); that is a fact about what was signed, not
about hash values. SHA-256 comes in call by call only: no message, client data
or preimage of a call of the run collides with one that was signed before, and no
login's challenge is the intent hash of such a call.

The curve is a parameter, an assertion verifies only under the key it was made
with, and a header that sends the precompile to another instruction for its key
or message is left out (`NamesItself`): what the guard does with those is the
subject of `Trana.Security.Soundness`.

* `not_authorised` — one step: without a fresh signature nothing of `w`'s is
  verified.
* `registry_kept` — the run: the registry stays as it is.
* `two_factor` — with it, no guarded call of `w` goes through.
* `recovery_takes_over` — the wallet key alone recovers the registry and
  passes the guard with its own key.
-/

namespace Trana.Security

open Trana.Lib Trana.Lib.Exec Trana.Solana Trana.Guard
open Secp256r1 (Curve Accepted SelfIndex u16At)

/-- What an assertion was made for: an intent, or a login somewhere else, with a
challenge of that site's choice. -/
inductive Purpose where
  | intent (context : VerificationContext)
  | login (challenge : Bytes)

/-- The challenge that was asked for. -/
def Purpose.challenge : Purpose → Bytes
  | .intent context => sha256 context.preimage
  | .login challenge => challenge

/-- What an authenticator signed, under which key, and what for. -/
structure SignedData where
  pubkey : Bytes
  authenticatorData : Bytes
  clientDataJson : Bytes
  purpose : Purpose
  carries : ChallengeIs clientDataJson purpose.challenge

def SignedData.message (s : SignedData) : Bytes := s.authenticatorData ++ sha256 s.clientDataJson

/-- The preimage of an intent is not mistaken for what an assertion was made for:
neither by a collision, nor by a login that happens to ask for its hash. -/
def Purpose.Apart (preimage : Bytes) : Purpose → Prop
  | .intent context => CollisionFree context.preimage preimage
  | .login challenge => challenge ≠ sha256 preimage

section TwoFactor

variable (p256 : Curve) (made : List SignedData) (d : Guard.Deployment) (w : Pubkey)
  (r : PasskeyRegistry)

/-- The assertion no longer matches the registry's nonce: if it was made for an
intent, then for another nonce, another wallet or another guard. -/
def Stale (s : SignedData) : Prop :=
  ∀ context, s.purpose = .intent context → context.WellFormed ∧
    ¬(context.owner = w ∧ context.guardId = d.programId ∧ context.nonce = r.nonce)

/-- A call in a transaction the runtime let through, in which only signatures
made before verify under the registered keys. -/
structure NoNewSignature (c : Call) : Prop where
  accepted : Accepted p256 c.env.ixSysvar.instructions
  signed : ∀ k ∈ r.keys, ∀ message,
    Secp256r1.Verified p256 c.env.ixSysvar.instructions k.pubkeyBytes message →
      ∃ s ∈ made, s.pubkey = k.pubkeyBytes ∧ sha256 s.message = sha256 message
  collisionFree : ∀ proof ix,
    ProofAt c.env.ixSysvar d.programId c.env.ixSysvar.currentIndex proof →
    c.env.ixSysvar.instructions[c.env.ixSysvar.currentIndex.toNat]? = some ix →
    ∀ s ∈ made, CollisionFree s.message (proof.authenticatorData ++ sha256 proof.clientDataJson) ∧
      CollisionFree s.clientDataJson proof.clientDataJson ∧
      s.purpose.Apart (contextOf d w r proof.policy proof ix).preimage

/-- The precompile instruction the guard would read names itself in its key
and message indices. -/
def NamesItself (c : Call) : Prop :=
  ∀ secpIx, secpIx? c.env.ixSysvar.instructions c.env.ixSysvar.currentIndex = some secpIx →
    secpIx.programId = Secp256r1.programId →
    SelfIndex (c.env.ixSysvar.currentIndex.toNat - 2) (u16At secpIx.data 8) ∧
      SelfIndex (c.env.ixSysvar.currentIndex.toNat - 2) (u16At secpIx.data 14)

/-- A call of the run. -/
def Executed (trace : List Moment) (c : Call) : Prop := ∃ t ∈ trace, t.label = .executed c

variable {p256 made d w r} {l l' : Ledger} {t : Moment} {trace : List Moment}

/-- A stale assertion carries no intent hash of `w` at the registry's nonce. -/
theorem Stale.not_challenge {s : SignedData} {context : VerificationContext}
    (hstale : Stale d w r s) (hcontext : context.WellFormed) (howner : context.owner = w)
    (hguard : context.guardId = d.programId) (hnonce : context.nonce = r.nonce)
    (hapart : s.purpose.Apart context.preimage) :
    ¬ChallengeIs s.clientDataJson (sha256 context.preimage) := by
  intro hchallenge
  have heq : s.purpose.challenge = sha256 context.preimage := s.carries.unique hchallenge
  cases hpurpose : s.purpose with
  | intent made =>
    rw [hpurpose] at heq hapart
    obtain ⟨hmade, hother⟩ := hstale made hpurpose
    -- one hash, so one context: its nonce, wallet and guard are the current ones
    have hfields := VerificationContext.fields_of_hash_eq hmade hcontext hapart heq
    exact hother ⟨hfields.owner.trans howner, hfields.guardId.trans hguard,
      hfields.nonce.trans hnonce⟩
  | login challenge =>
    rw [hpurpose] at heq hapart
    exact hapart heq

/-- The signature behind an accepted proof was made before, and is not stale. -/
theorem made_of_acceptance (a : Acceptance d w t) (hreg : a.registry = r)
    (hcall : NoNewSignature p256 made d w r a.call) (hself : NamesItself a.call) :
    ∃ s ∈ made, ¬Stale d w r s := by
  have hv := a.verifies
  obtain ⟨k, hk, heq⟩ := hv.known
  obtain ⟨hkey, hmsg⟩ := hself a.secpIx hv.secp hv.secp_id
  have hverified := (locates_selfContained hcall.accepted hv.secp hv.secp_id hv.header hkey
    hmsg).verified hcall.accepted
  rw [← heq] at hverified
  obtain ⟨s, hs, -, hdigest⟩ := hcall.signed k (hreg ▸ hk) _ hverified
  -- the guard compared the digest of the message it read with the proof's
  obtain ⟨hmessage, hclient, hapart⟩ := hcall.collisionFree a.proof a.protectedIx hv.proofAt
    hv.protectedIx s hs
  have hjson : s.clientDataJson = a.proof.clientDataJson :=
    hclient (List.append_inj' (hmessage (hdigest.trans hv.eValue)) (by simp)).2
  have hchallenge := challenge_acceptedHash a
  rw [← hjson] at hchallenge
  refine ⟨s, hs, fun hstale => ?_⟩
  refine hstale.not_challenge (acceptedContext_wellFormed a) rfl rfl ?_ ?_ hchallenge
  · show a.registry.nonce = r.nonce
    rw [hreg]
  · rwa [hv.policy_eq, ← hreg] at hapart

theorem not_authorised (hl : Layout d t.before) (hfound : registryOf d t.before w = some r)
    (hstep : Step d t.before t.label t.after) (hstale : ∀ s ∈ made, Stale d w r s)
    (hcall : ∀ c, t.label = .executed c → NoNewSignature p256 made d w r c)
    (hself : ∀ c, t.label = .executed c → c.owner? = some w → NamesItself c) :
    ¬(opOf w t.label).Authorised := by
  intro hauth
  obtain ⟨a⟩ := acceptance_of_authorised hl hstep hauth
  have hreg : a.registry = r := Option.some.inj (a.found.symm.trans hfound)
  obtain ⟨s, hs, hfresh⟩ :=
    made_of_acceptance a hreg (hcall a.call a.label) (hself a.call a.label a.owner)
  exact hfresh (hstale s hs)

/-- Ring and owner are the whole registry. -/
theorem registryOf_of_ring (hl : Layout d l) (howner : r.owner = w)
    (h : ringOf d w l = some r.ring) : registryOf d l w = some r := by
  obtain ⟨r', hr', hring⟩ := Option.map_eq_some_iff.mp h
  obtain ⟨hnonce, hkeys⟩ := Keyring.Ring.mk.inj hring
  have howner' := hl.owner_eq hr'
  rw [hr']
  congr 1
  obtain ⟨o, n, ks⟩ := r
  obtain ⟨o', n', ks'⟩ := r'
  rw [PasskeyRegistry.mk.injEq]
  exact ⟨howner'.trans howner.symm, UInt64.toNat_inj.mp hnonce, hkeys⟩

/-- The registry is the same, before and after every step. -/
theorem registry_kept (hl : Layout d l) (hfound : registryOf d l w = some r) (hlive : r.keys ≠ [])
    (hrun : Run (Step d) l trace l') (hstale : ∀ s ∈ made, Stale d w r s)
    (hcall : ∀ c, Executed trace c → NoNewSignature p256 made d w r c)
    (hself : ∀ c, Executed trace c → c.owner? = some w → NamesItself c)
    (hrecover : ∀ t ∈ trace, ¬Recovers w t.label) :
    (Layout d l' ∧ registryOf d l' w = some r) ∧
      ∀ t ∈ trace, (Layout d t.before ∧ registryOf d t.before w = some r) ∧
        (Layout d t.after ∧ registryOf d t.after w = some r) := by
  have howner := hl.owner_eq hfound
  have hkeep : ∀ t ∈ trace, Layout d t.before ∧ registryOf d t.before w = some r →
      Layout d t.after ∧ registryOf d t.after w = some r := by
    intro t ht hex
    obtain ⟨hlt, hr⟩ := hex
    have hstep := hrun.step t ht
    -- one step: the ring's operation was not authorised, and only an authorised one changes it
    have hauth := not_authorised hlt hr hstep hstale (fun c hc => hcall c ⟨t, ht, hc⟩)
      fun c hc => hself c ⟨t, ht, hc⟩
    have hlt' := layout_step hlt hstep
    have hkeys : Keyring.keys (ringOf d w t.before) ≠ [] := by
      rw [ringOf_of_found hr]
      exact hlive
    have hring := Keyring.unchanged_step (step_refines hlt hstep w) hkeys hauth
      fun h => hrecover t ht (recovers_of_isRecover h)
    rw [ringOf_of_found hr] at hring
    exact ⟨hlt', registryOf_of_ring hlt' howner hring⟩
  have hstart : Layout d l ∧ registryOf d l w = some r := ⟨hl, hfound⟩
  exact ⟨hrun.stays (P := fun l => Layout d l ∧ registryOf d l w = some r) hstart hkeep,
    hrun.stays_at (P := fun l => Layout d l ∧ registryOf d l w = some r) hstart hkeep⟩

end TwoFactor

/-- With the wallet key alone, and no recovery, the registry stays as it is
and no `enforce` whose policy fires succeeds. -/
theorem two_factor {p256 : Curve} {made : List SignedData} {d : Guard.Deployment} {w : Pubkey}
    {r : PasskeyRegistry} {l l' : Ledger} {trace : List Moment} (hreach : Reachable d l)
    (hfound : registryOf d l w = some r) (hlive : r.keys ≠ []) (hrun : Run (Step d) l trace l')
    (hstale : ∀ s ∈ made, Stale d w r s)
    (hcall : ∀ c, Executed trace c → NoNewSignature p256 made d w r c)
    (hself : ∀ c, Executed trace c → c.owner? = some w → NamesItself c)
    (hrecover : ∀ t ∈ trace, ¬Recovers w t.label) :
    registryOf d l' w = some r ∧ (∀ t ∈ trace, registryOf d t.after w = some r) ∧
      ∀ c policy, Executed trace c → c.owner? = some w → c.Is (.enforce policy) →
        policy.fires c.env = false := by
  obtain ⟨⟨-, hend⟩, hmoments⟩ :=
    registry_kept hreach.layout hfound hlive hrun hstale hcall hself hrecover
  refine ⟨hend, fun t ht => (hmoments t ht).2.2, ?_⟩
  intro c policy h howner hix
  obtain ⟨t, ht, hlabel⟩ := h
  obtain ⟨⟨hl, hr⟩, -⟩ := hmoments t ht
  have hauth := not_authorised hl hr (hrun.step t ht) hstale (fun c hc => hcall c ⟨t, ht, hc⟩)
    fun c hc => hself c ⟨t, ht, hc⟩
  -- an `enforce` that fires is an authorised operation, and the step was none
  rw [hlabel, opOf_executed hix howner, GuardInstruction.op] at hauth
  cases hfires : policy.fires c.env with
  | false => rfl
  | true =>
    rw [if_pos hfires] at hauth
    exact absurd trivial hauth

section Localnet

open Sdk Sdk.Localnet

/-- The wallet's approval of the protected instruction at nonce zero. -/
def approvalMade : SignedData where
  pubkey := passkey
  authenticatorData := authenticatorData
  clientDataJson := clientData (challenge policyRequire protectedIx 0) clientTail
  purpose := .intent (localContext 0)
  carries := challengeIs_clientData (by rw [challenge, length_intentHash]; decide)

/-- It is used up: the registry is at nonce one. -/
theorem approvalMade_stale : Stale deployment wallet (registry 1) approvalMade := by
  intro context h
  obtain rfl := Purpose.intent.inj h
  exact ⟨localContext_wellFormed 0, by decide⟩

/-- The approved transaction once more, with a call to `enforce(NotBefore)` after
its slot in place of the one that was approved. -/
def replayCall : Call :=
  ⟨env approvedIxs 2, enforceMetas deployment wallet, enforceDisc ++ [1] ++ leBytes 8 3⟩

theorem replayCall_is : replayCall.Is (.enforce (.notBefore 3)) := by
  show (parseInstruction replayCall.data).Returns _
  decide

/-- The curve under which the approval is the one signature there is. -/
def approvalCurve : Curve := approval.curve (challenge policyRequire protectedIx 0)

theorem replayCall_noNewSignature :
    NoNewSignature approvalCurve [approvalMade] deployment wallet (registry 1) replayCall where
  accepted := accepted_proven (by decide)
  signed k _ message h := by
    obtain ⟨ix, -, -, rs, -, rec, -, signature, -, hcurve⟩ := h
    simp only [approvalCurve, Assertion.curve, Bool.and_eq_true, beq_iff_eq] at hcurve
    exact ⟨approvalMade, List.mem_singleton_self _, hcurve.1.1.symm, hcurve.1.2.symm⟩
  collisionFree proof ix hproof hix s hs := by
    have hcarried : ProofAt replayCall.env.ixSysvar localnetId 2
        (approval.proof (challenge policyRequire protectedIx 0) 1000 policyRequire) :=
      proofAt_recordProofIx (by decide) length_intentHash length_utf8_policyRequire rfl
    obtain rfl := hproof.unique hcarried
    obtain rfl := Option.some.inj (hix.symm.trans (rfl : _ = some protectedIx))
    obtain rfl := List.mem_singleton.mp hs
    exact ⟨collisionFree_refl _, collisionFree_refl _,
      (by decide +kernel : CollisionFree (localContext 0).preimage (localContext 1).preimage)⟩

/-- The precompile verifies it again. -/
theorem approval_verified : Secp256r1.Verified approvalCurve replayCall.env.ixSysvar.instructions
    passkey approvalMade.message := by
  have hacc := replayCall_noNewSignature.accepted
  obtain ⟨hheader, hkey, hmessage⟩ :=
    approval.secpHeader_secpIx (challenge policyRequire protectedIx 0)
  have hfirst : replayCall.env.ixSysvar.instructions[0]? =
      some (approval.secpIx (challenge policyRequire protectedIx 0)) := rfl
  have hlocates := locates_selfContained hacc hfirst rfl hheader (Or.inl (by decide))
    (Or.inl (by decide))
  rw [hkey, hmessage] at hlocates
  exact hlocates.verified hacc

/-- The wallet's approval is used; whoever has the wallet key sends it again and
leaves the registry alone. -/
theorem two_factor_replayed : ∃ l, Reachable deployment l ∧
    Step deployment l (.executed replayCall) l ∧
    Secp256r1.Verified approvalCurve replayCall.env.ixSysvar.instructions passkey
      approvalMade.message ∧
    registryOf deployment l wallet = some (registry 1) ∧
    (∀ t ∈ [(⟨l, .executed replayCall, l⟩ : Moment)],
      registryOf deployment t.after wallet = some (registry 1)) ∧
    ∀ c policy, Executed [⟨l, .executed replayCall, l⟩] c → c.owner? = some wallet →
      c.Is (.enforce policy) → policy.fires c.env = false := by
  obtain ⟨l, happroved, hh⟩ := approved_step holds_registered
  have hreach : Reachable deployment l := by
    obtain ⟨t₁, t₂, -, hrun⟩ := run_registered (.cons happroved (.nil l))
    exact ⟨genesis, _, genesis_genesis, hrun⟩
  -- the old signature is carried along, and the call is a policy that does not fire
  have hstep : Step deployment l (.executed replayCall) l :=
    step_of_execute replayCall_is (execute_enforce_idle enforceMetas_context (by decide) rfl)
  have hlabel : ∀ {c : Call}, Executed [⟨l, .executed replayCall, l⟩] c → c = replayCall := by
    intro c h
    obtain ⟨t, ht, hc⟩ := h
    obtain rfl := List.mem_singleton.mp ht
    exact (Label.executed.inj hc).symm
  have hnew : ∀ c, Executed [⟨l, .executed replayCall, l⟩] c →
      NoNewSignature approvalCurve [approvalMade] deployment wallet (registry 1) c := by
    intro c hc
    rw [hlabel hc]
    exact replayCall_noNewSignature
  refine ⟨l, hreach, hstep, approval_verified, two_factor hreach hh.found (by decide)
    (.cons hstep (.nil _)) ?_ hnew ?_ ?_⟩
  · intro s hs
    rw [List.mem_singleton.mp hs]
    exact approvalMade_stale
  · intro c hc _ secpIx hsecp hid
    rw [hlabel hc] at hsecp
    obtain rfl := Option.some.inj hsecp
    exact ⟨Or.inl (by decide), Or.inl (by decide)⟩
  · intro t ht hex
    obtain ⟨c, keyKind, pubkeyBytes, credentialId, hc, -, hix⟩ := hex
    obtain rfl := List.mem_singleton.mp ht
    obtain rfl := Label.executed.inj hc
    exact absurd (hix.unique replayCall_is) (by simp)

/-! ### A takeover by recovery -/

def attackerEntry : PasskeyEntry := ⟨.secp256r1Passkey, attackerKey, [2]⟩

/-- The wallet key recovers the registry with the attacker's key. -/
def takeoverCall : Call :=
  call [recoverRegistryIx attackerKey [2]] 0 (recoverRegistryIx attackerKey [2])

theorem takeoverCall_is :
    takeoverCall.Is (.recoverRegistry .secp256r1Passkey attackerKey [2]) := by
  show (parseInstruction takeoverCall.data).Returns _
  decide

def attackerIxs : List Instruction := proven attackerAssertion policyRequire protectedIx 0

/-- The curve under which the attacker's key signed its one message. -/
def attackerCurve : Curve := attackerAssertion.curve (challenge policyRequire protectedIx 0)

/-- The registered passkey signed nothing. -/
theorem not_verified_passkey {instructions : List Instruction} {message : Bytes} :
    ¬Secp256r1.Verified attackerCurve instructions passkey message := by
  intro h
  obtain ⟨ix, -, -, rs, -, rec, -, signature, -, hcurve⟩ := h
  have hne : (passkey == attackerAssertion.pubkey) = false := by decide
  rw [attackerCurve, Assertion.curve, hne] at hcurve
  exact absurd hcurve (by simp)

theorem noNewSignature_attacker {c : Call}
    (hacc : Accepted attackerCurve c.env.ixSysvar.instructions) :
    NoNewSignature attackerCurve [] deployment wallet (registry 0) c := by
  refine ⟨hacc, fun k hk message hv => ?_, fun _ _ _ _ s hs => nomatch hs⟩
  rw [List.mem_singleton.mp hk] at hv
  exact absurd hv not_verified_passkey

/-- Recovery, then a guarded call approved by the attacker's key. -/
theorem takeover_run : ∃ l₁ l₂, Run (Step deployment) registered
      [⟨registered, .executed takeoverCall, l₁⟩,
        ⟨l₁, .executed (enforceCall attackerIxs), l₂⟩] l₂ ∧
    Holds deployment l₁ wallet ⟨wallet, 0, [attackerEntry]⟩ := by
  obtain ⟨l₁, hstep₁, hstores₁⟩ := step_recoverRegistry (e := attackerEntry) holds_registered
    takeoverCall_is rfl ⟨by decide, by decide⟩
  have hh₁ := hstores₁.holds holds_registered rfl
  have hdata : 8 ≤ protectedIx.data.length := by decide
  have hlt : (0 : UInt64).toNat + 1 < 2 ^ 64 := by decide
  have hv := verified_proven attackerAssertion protectedIx ⟨wallet, 0, [attackerEntry]⟩ rfl hlt
    hdata length_utf8_policyRequire ⟨attackerEntry, List.mem_singleton_self _, rfl⟩
  obtain ⟨l₂, hstep₂, -⟩ := step_enforce (c := enforceCall attackerIxs) hh₁.found rfl
    (enforceCall_is _) rfl rfl hv
  exact ⟨l₁, l₂, .cons hstep₁ (.cons hstep₂ (.nil _)), hh₁⟩

/-- The wallet key alone replaces the registered keys, and a guarded call of
the wallet succeeds. -/
theorem recovery_takes_over : ∃ l₁ l₂, ∃ trace : List Moment,
    trace = [⟨registered, .executed takeoverCall, l₁⟩,
      ⟨l₁, .executed (enforceCall attackerIxs), l₂⟩] ∧
    Reachable deployment registered ∧
    registryOf deployment registered wallet = some (registry 0) ∧
    Run (Step deployment) registered trace l₂ ∧
    (∀ c, Executed trace c → NoNewSignature attackerCurve [] deployment wallet (registry 0) c) ∧
    registryOf deployment l₁ wallet = some ⟨wallet, 0, [attackerEntry]⟩ ∧
    [attackerEntry] ≠ (registry 0).keys ∧
    Executed trace (enforceCall attackerIxs) ∧ (enforceCall attackerIxs).owner? = some wallet ∧
    (enforceCall attackerIxs).Is (.enforce .require) ∧
    Policy.require.fires (enforceCall attackerIxs).env = true := by
  obtain ⟨l₁, l₂, hrun, hh₁⟩ := takeover_run
  refine ⟨l₁, l₂, _, rfl, reachable_registered, holds_registered.found, hrun, ?_, hh₁.found,
    by decide, ⟨_, List.mem_cons_of_mem _ (List.mem_singleton_self _), rfl⟩, rfl, enforceCall_is _,
    rfl⟩
  intro c h
  obtain ⟨t, ht, hc⟩ := h
  -- the first call carries no signature at all, the second one by another key
  rcases List.mem_cons.mp ht with rfl | ht
  · obtain rfl := Label.executed.inj hc
    refine noNewSignature_attacker fun ix hix hid => ?_
    rw [List.mem_singleton.mp hix] at hid
    exact absurd hid (by decide)
  · obtain rfl := List.mem_singleton.mp ht
    obtain rfl := Label.executed.inj hc
    exact noNewSignature_attacker (accepted_proven (by decide))

end Localnet

end Trana.Security
