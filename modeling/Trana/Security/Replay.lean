import Trana.Security.ProofTarget

/-!
# No replay between recoveries

Every verification consumes the registry's nonce and the nonce is part of the
hash, so along a run no intent hash is accepted twice. The one operation that
sets the nonce back is `recover_registry`, which starts the registry over.

* `nonce_eq_of_hash_eq` — equal hashes were taken at equal nonces.
* `recovery_between` — two acceptances at the same nonce have a recovery
  between them.
* `no_replay` — for hashes, and for one captured assertion.
* `replay_after_recovery` — recovering with the same key revives an assertion.

An `Acceptance` is a successful verification at one moment of a run, whichever
instruction asked for it and from wherever it was called. The two moments are
any, with any steps between them, those of other wallets and programs included.

Of SHA-256 it is assumed that the two preimages at hand do not collide, if they
differ. No assumption is made on signatures: a captured assertion is told by its
client data and the key in front of it, so the second part holds for whoever
sends it. After a recovery the nonce is zero and counts up again; an assertion
of that number is accepted as soon as its key is back in the registry, by the
recovery itself or by a later `add_passkey`.
-/

namespace Trana.Security

open Trana.Lib Trana.Lib.Exec Trana.Solana Trana.Guard

section Replay

variable {d : Guard.Deployment} {w : Pubkey} {t u : Moment}

/-- The context the accepted hash was taken in. -/
def acceptedContext (a : Acceptance d w t) : VerificationContext :=
  contextOf d w a.registry a.policy a.proof a.protectedIx

/-- The intent hash a verification accepted. -/
def acceptedHash (a : Acceptance d w t) : Bytes := sha256 (acceptedContext a).preimage

theorem acceptedContext_wellFormed (a : Acceptance d w t) : (acceptedContext a).WellFormed :=
  ⟨a.verifies.data_length, length_requires a.requires⟩

/-- What the client data carries is the accepted hash. -/
theorem challenge_acceptedHash (a : Acceptance d w t) :
    ChallengeIs a.proof.clientDataJson (acceptedHash a) :=
  a.verifies.challenge

theorem nonce_eq_of_hash_eq {a : Acceptance d w t} {b : Acceptance d w u}
    (hsha : CollisionFree (acceptedContext a).preimage (acceptedContext b).preimage)
    (h : acceptedHash a = acceptedHash b) : a.registry.nonce = b.registry.nonce :=
  (VerificationContext.fields_of_hash_eq (acceptedContext_wellFormed a)
    (acceptedContext_wellFormed b) hsha h).nonce

variable {l₀ l : Ledger} {pre mid post : List Moment}

/-- A run through two moments, as a run of the wallet's key ring. -/
theorem ring_run (hgenesis : Ledger.Genesis d.programId l₀)
    (hrun : Run (Step d) l₀ (pre ++ t :: (mid ++ u :: post)) l) (w : Pubkey) :
    Run KeyringStep (ringOf d w l₀) (pre.map (ringMoment d w) ++ ringMoment d w t ::
      (mid.map (ringMoment d w) ++ ringMoment d w u :: post.map (ringMoment d w)))
      (ringOf d w l) := by
  have h := run_refines (layout_genesis hgenesis) hrun w
  rwa [List.map_append, List.map_cons, List.map_append, List.map_cons] at h

/-- Two acceptances at one nonce have a recovery between them. -/
theorem recovery_between (hgenesis : Ledger.Genesis d.programId l₀)
    (hrun : Run (Step d) l₀ (pre ++ t :: (mid ++ u :: post)) l) (a : Acceptance d w t)
    (b : Acceptance d w u) (hnonce : a.registry.nonce = b.registry.nonce) :
    ∃ v ∈ mid, (opOf w v.label).IsRecover := by
  by_contra hnone
  have hmid : ∀ v ∈ mid.map (ringMoment d w), ¬v.label.IsRecover := by
    intro v hv hrecover
    obtain ⟨m, hm, rfl⟩ := List.mem_map.mp hv
    exact hnone ⟨m, hm, hrecover⟩
  -- otherwise the nonce has moved on since the first of them
  have hlt := Keyring.counter_lt (ring_run hgenesis hrun w) a.authorised hmid
  have ha := a.counter_eq
  have hb := b.counter_eq
  simp only [ringMoment] at hlt
  rw [ha, hb, hnonce] at hlt
  exact Nat.lt_irrefl _ hlt

/-- The key of an accepted proof is in the wallet's ring. -/
theorem not_avoids_ownKey (b : Acceptance d w u) :
    ¬Keyring.Avoids (·.pubkeyBytes = ownKey b.secpIx.data) (ringOf d w u.before) := by
  intro havoids
  obtain ⟨k, hk, heq⟩ := b.verifies.known
  rw [← b.keys_eq] at hk
  exact havoids k hk heq

/-- A key accepted after a recovery was entered by it or since. -/
theorem entered_since (hgenesis : Ledger.Genesis d.programId l₀) {v : Moment}
    {mid' : List Moment} (hrun : Run (Step d) l₀ (pre ++ v :: (mid' ++ u :: post)) l)
    (hv : (opOf w v.label).IsRecover) (b : Acceptance d w u) :
    ∃ v' ∈ v :: mid', EntersKey w (ownKey b.secpIx.data) v'.label := by
  have hring : Run KeyringStep (ringOf d w v.before)
      (ringMoment d w v :: mid'.map (ringMoment d w)) (ringOf d w u.before) := by
    obtain ⟨-, hstep, hrest⟩ := (ring_run hgenesis hrun w).split
    exact .cons hstep hrest.split.1
  obtain ⟨m, hm, henters⟩ := Keyring.entered_since_recover hring hv (not_avoids_ownKey b)
  rw [← List.map_cons] at hm
  obtain ⟨v', hv', rfl⟩ := List.mem_map.mp hm
  exact ⟨v', hv', entersKey_of_enters henters⟩

end Replay

/-- Between two acceptances of one hash the owner recovered the registry; and
between two acceptances of one assertion the recovery, or an instruction after
it, entered the assertion's key again. -/
theorem no_replay {d : Guard.Deployment} {w : Pubkey} {l₀ l : Ledger} {t u : Moment}
    {pre mid post : List Moment} (hgenesis : Ledger.Genesis d.programId l₀)
    (hrun : Run (Step d) l₀ (pre ++ t :: (mid ++ u :: post)) l) (a : Acceptance d w t)
    (b : Acceptance d w u)
    (hsha : CollisionFree (acceptedContext a).preimage (acceptedContext b).preimage) :
    (acceptedHash a = acceptedHash b → ∃ v ∈ mid, Recovers w v.label) ∧
    (a.proof.clientDataJson = b.proof.clientDataJson →
      ownKey a.secpIx.data = ownKey b.secpIx.data →
      ∃ mid₁ v mid₂, mid = mid₁ ++ v :: mid₂ ∧ Recovers w v.label ∧
        ∃ v' ∈ v :: mid₂, EntersKey w (ownKey a.secpIx.data) v'.label) := by
  constructor
  · intro hhash
    obtain ⟨v, hv, hrecover⟩ :=
      recovery_between hgenesis hrun a b (nonce_eq_of_hash_eq hsha hhash)
    exact ⟨v, hv, recovers_of_isRecover hrecover⟩
  · intro hclient hkey
    -- one client data has one challenge, so equal assertions have equal hashes
    have hhash : acceptedHash a = acceptedHash b := by
      have hb := challenge_acceptedHash b
      rw [← hclient] at hb
      exact (challenge_acceptedHash a).unique hb
    obtain ⟨v, hv, hrecover⟩ :=
      recovery_between hgenesis hrun a b (nonce_eq_of_hash_eq hsha hhash)
    obtain ⟨mid₁, mid₂, rfl⟩ := List.append_of_mem hv
    have hrun' : Run (Step d) l₀ ((pre ++ t :: mid₁) ++ v :: (mid₂ ++ u :: post)) l := by
      simpa using hrun
    -- the recovery emptied the ring, so the key came back with it or after it
    refine ⟨mid₁, v, mid₂, rfl, recovers_of_isRecover hrecover, ?_⟩
    rw [hkey]
    exact entered_since hgenesis hrun' hrecover b

/-! ### A revived assertion -/

section Localnet

open Sdk Sdk.Localnet

def approvedIxs : List Instruction := proven approval policyRequire protectedIx 0

/-- The wallet recovers its registry with the key it had. -/
def recoverCall : Call :=
  call [recoverRegistryIx passkey [1]] 0 (recoverRegistryIx passkey [1])

theorem recoverCall_is : recoverCall.Is (.recoverRegistry .secp256r1Passkey passkey [1]) := by
  show (parseInstruction (recoverRegistryIx passkey [1]).data).Returns _
  decide

/-- While the registry is at nonce zero, the approved call goes through. -/
theorem approved_step {l : Ledger} (hh : Holds deployment l wallet (registry 0)) :
    ∃ l', Step deployment l (.executed (enforceCall approvedIxs)) l' ∧
      Holds deployment l' wallet (registry 0).consume := by
  obtain ⟨l', hstep, hstores⟩ := step_enforce (c := enforceCall approvedIxs) hh.found rfl
    (enforceCall_is _) rfl rfl (verified_approval ⟨entry, List.mem_singleton_self _, rfl⟩ rfl)
  exact ⟨l', hstep, hstores.holds hh rfl⟩

/-- The recovery takes it back to nonce zero. -/
theorem recover_step {l : Ledger} {r : PasskeyRegistry} (hh : Holds deployment l wallet r) :
    ∃ l', Step deployment l (.executed recoverCall) l' ∧
      Holds deployment l' wallet (registry 0) := by
  obtain ⟨l', hstep, hstores⟩ := step_recoverRegistry (e := entry) hh recoverCall_is rfl
    ⟨by decide, by decide⟩
  exact ⟨l', hstep, hstores.holds hh rfl⟩

/-- What the approval is for. -/
def approvedContext : VerificationContext :=
  contextOf deployment wallet (registry 0) policyRequire
    (approval.proof (challenge policyRequire protectedIx 0) 1000 policyRequire) protectedIx

/-- The acceptance of the approved call. -/
theorem approved_acceptance {l : Ledger} (hh : Holds deployment l wallet (registry 0))
    (l' : Ledger) :
    ∃ a : Acceptance deployment wallet ⟨l, .executed (enforceCall approvedIxs), l'⟩,
      acceptedContext a = approvedContext :=
  ⟨{ call := enforceCall approvedIxs
     ix := .enforce .require
     policy := policyRequire
     registry := registry 0
     proof := approval.proof (challenge policyRequire protectedIx 0) 1000 policyRequire
     protectedIx := protectedIx
     secpIx := approval.secpIx (challenge policyRequire protectedIx 0)
     label := rfl
     carries := enforceCall_is _
     requires := rfl
     owner := rfl
     found := hh.found
     verifies := verified_approval ⟨entry, List.mem_singleton_self _, rfl⟩ rfl }, rfl⟩

/-- Approve, recover with the same key, replay the approval. -/
theorem replay_run : ∃ (pre : List Moment) (l₁ l₂ l₃ : Ledger)
    (a : Acceptance deployment wallet ⟨registered, .executed (enforceCall approvedIxs), l₁⟩)
    (b : Acceptance deployment wallet ⟨l₂, .executed (enforceCall approvedIxs), l₃⟩),
    acceptedContext a = approvedContext ∧ acceptedContext b = approvedContext ∧
    Run (Step deployment) genesis
      (pre ++ ⟨registered, .executed (enforceCall approvedIxs), l₁⟩ ::
        ([⟨l₁, .executed recoverCall, l₂⟩] ++
          ⟨l₂, .executed (enforceCall approvedIxs), l₃⟩ :: [])) l₃ := by
  obtain ⟨l₁, hstep₁, hh₁⟩ := approved_step holds_registered
  obtain ⟨l₂, hstep₂, hh₂⟩ := recover_step hh₁
  obtain ⟨l₃, hstep₃, -⟩ := approved_step hh₂
  obtain ⟨a, ha⟩ := approved_acceptance holds_registered l₁
  obtain ⟨b, hb⟩ := approved_acceptance hh₂ l₃
  obtain ⟨t₁, t₂, -, hrun⟩ :=
    run_registered (.cons hstep₁ (.cons hstep₂ (.cons hstep₃ (.nil _))))
  exact ⟨[t₁, t₂], l₁, l₂, l₃, a, b, ha, hb, hrun⟩

/-- On that run the second acceptance is explained by the recovery. -/
theorem no_replay_recovered : ∃ (t v u : Moment) (a : Acceptance deployment wallet t)
    (b : Acceptance deployment wallet u), acceptedHash a = acceptedHash b ∧
    (acceptedHash a = acceptedHash b → ∃ m ∈ [v], Recovers wallet m.label) ∧
    (a.proof.clientDataJson = b.proof.clientDataJson →
      ownKey a.secpIx.data = ownKey b.secpIx.data →
      ∃ mid₁ m mid₂, [v] = mid₁ ++ m :: mid₂ ∧ Recovers wallet m.label ∧
        ∃ m' ∈ m :: mid₂, EntersKey wallet (ownKey a.secpIx.data) m'.label) := by
  obtain ⟨pre, l₁, l₂, l₃, a, b, ha, hb, hrun⟩ := replay_run
  have hcontext : acceptedContext a = acceptedContext b := ha.trans hb.symm
  refine ⟨_, _, _, a, b, by rw [acceptedHash, acceptedHash, hcontext],
    no_replay genesis_genesis hrun a b ?_⟩
  rw [hcontext]
  exact collisionFree_refl _

/-- One approval, signed once, is accepted twice in one run. -/
theorem replay_after_recovery : ∃ (pre mid post : List Moment) (t u : Moment) (l : Ledger)
    (a : Acceptance deployment wallet t) (b : Acceptance deployment wallet u),
    Ledger.Genesis localnetId genesis ∧
    Run (Step deployment) genesis (pre ++ t :: (mid ++ u :: post)) l ∧
    Secp256r1.Accepted (approval.curve (challenge policyRequire protectedIx 0)) approvedIxs ∧
    t.label = .executed (enforceCall approvedIxs) ∧
    u.label = .executed (enforceCall approvedIxs) ∧ acceptedHash a = acceptedHash b := by
  obtain ⟨pre, l₁, l₂, l₃, a, b, ha, hb, hrun⟩ := replay_run
  exact ⟨pre, _, [], _, _, l₃, a, b, genesis_genesis, hrun, accepted_proven (by decide), rfl, rfl,
    by rw [acceptedHash, acceptedHash, ha, hb]⟩

end Localnet

end Trana.Security
