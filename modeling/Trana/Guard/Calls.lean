import Trana.Guard.Completeness

/-!
# Calls that succeed

What a client passes to the guard so that an instruction goes through. The
account lists are those Anchor's generated client builds from the `Accounts`
structs of `lib.rs`: the wallet signs and is writable (it is the payer), the
registry is writable, the config and the instructions sysvar are read only. A
call with such a list, on the wallet's registry account, with enough keys left
and a verified proof where one is demanded, is a step of the chain that stores
the new registry.

* `Holds` — the wallet's registry account in the size it was created with; it
  is kept by every call (`Stores.holds`).
* `enforceMetas_context`, `recoverMetas_context`, `addMetas_context`,
  `removeMetas_context` — each list satisfies the account context it is for.
* `step_enforce`, `step_recoverRegistry`, `step_addPasskey`,
  `step_removePasskey` — the steps. They are what the client, the scripts and
  the runs that refute a property are assembled from.

`step_addPasskey` is for a config without an add fee: with a fee the wallet must
also be able to pay, which `Trana.Guard.Fees` states.
-/

namespace Trana.Guard

open Trana.Lib Trana.Lib.Exec Trana.Solana

section Accounts

variable (d : Deployment) (w treasury : Pubkey)

/-- The registry: writable, no signer. -/
def registryMeta : AccountMeta := ⟨d.findRegistry w, false, true⟩

/-- The wallet: it signs, and it is writable where it pays. -/
def ownerMeta : AccountMeta := ⟨w, true, true⟩

/-- The accounts of `enforce`. -/
def enforceMetas : List AccountMeta := Enforce.toAccountMetas ⟨d.findRegistry w, w⟩

/-- The accounts of `recover_registry`. -/
def recoverMetas : List AccountMeta :=
  [registryMeta d w, ownerMeta w, ⟨systemProgramId, false, false⟩]

/-- The accounts of `add_passkey`, for a config with this treasury. -/
def addMetas : List AccountMeta :=
  [registryMeta d w, ownerMeta w, ⟨systemProgramId, false, false⟩, ⟨d.findConfig, false, false⟩,
    ⟨treasury, false, true⟩, ⟨instructionsId, false, false⟩]

/-- The accounts of `remove_passkey`. -/
def removeMetas : List AccountMeta :=
  [registryMeta d w, ownerMeta w, ⟨instructionsId, false, false⟩]

end Accounts

section Steps

variable {d : Deployment} {l l' : Ledger} {w : Pubkey} {r r' : PasskeyRegistry} {c : Call}

/-- The wallet's registry account holds `r`, with the size of a fresh one. -/
structure Holds (d : Deployment) (l : Ledger) (w : Pubkey) (r : PasskeyRegistry) : Prop where
  found : registryOf d l w = some r
  owner : r.owner = w
  size : (l (d.findRegistry w)).data.length = PasskeyRegistry.layout.space

/-- The config account holds `cfg`. -/
def HoldsConfig (d : Deployment) (l : Ledger) (cfg : TranaConfig) : Prop :=
  (l d.findConfig).owner = d.programId ∧
    TranaConfig.layout.tryDeserialize (l d.findConfig).data = .ok cfg

/-- Storing a registry keeps the size of its account. -/
theorem Stores.holds (h : Stores d l l' (d.findRegistry w) r') (hh : Holds d l w r)
    (howner : r'.owner = w) : Holds d l' w r' := by
  refine ⟨h.registryAt_self, howner, ?_⟩
  -- the account exists, so the layout is written over its old bytes
  have hbase : baseData d l (d.findRegistry w) = (l (d.findRegistry w)).data :=
    if_pos (registryAt_eq_some.mp hh.found).1
  rw [AccountLayout.trySerialize_length h.image, hbase, hh.size]

/-- Anchor loads such an account as the registry it holds. -/
theorem Holds.load (hh : Holds d l w r) :
    (loadAccount PasskeyRegistry.layout d.programId (l (d.findRegistry w)) :
      Result PasskeyRegistry).Returns r :=
  returns_loadAccount_of hh.found

/-- And the config account as the config. -/
theorem HoldsConfig.load {cfg : TranaConfig} (hc : HoldsConfig d l cfg) :
    (loadAccount TranaConfig.layout d.programId (l d.findConfig) : Result TranaConfig).Returns
      cfg := by
  simp only [loadAccount, returns_bind, returns_require, returns_liftAnchor, exists_const]
  exact ⟨fun hsys => d.programId_ne (hc.1.symm.trans hsys.1), hc.1, hc.2⟩

/-! ## Account contexts -/

theorem enforceMetas_context : (Enforce.tryAccounts (enforceMetas d w)).Returns
    ⟨d.findRegistry w, w⟩ := by
  simp [Enforce.tryAccounts, enforceMetas, Enforce.toAccountMetas]

/-- The wallet derives the registry address, so the seeds constraint holds. -/
theorem recoverMetas_context (hh : Holds d l w r) :
    (RecoverRegistry.tryAccounts d (recoverMetas d w) l).Returns ⟨d.findRegistry w, r, w⟩ := by
  simp only [RecoverRegistry.tryAccounts, recoverMetas, registryMeta, ownerMeta, returns_bind,
    returns_signer, returns_programAccount, returns_constraintSeeds, returns_constraintMut,
    returns_pure, exists_const, true_and]
  exact ⟨r, hh.load, w, rfl, rfl, rfl⟩

/-- The treasury that is passed is the one the config names. -/
theorem addMetas_context {cfg : TranaConfig} (hh : Holds d l w r) (hc : HoldsConfig d l cfg) :
    (AddPasskey.tryAccounts d (addMetas d w cfg.treasury) l).Returns
      ⟨d.findRegistry w, r, w, cfg, cfg.treasury⟩ := by
  simp only [AddPasskey.tryAccounts, addMetas, registryMeta, ownerMeta, returns_bind,
    returns_signer, returns_programAccount, returns_constraintSeeds, returns_constraintMut,
    returns_require, returns_constraintAddress, returns_pure, exists_const, true_and]
  exact ⟨r, hh.load, w, rfl, cfg, hc.load, rfl, rfl, rfl⟩

theorem removeMetas_context (hh : Holds d l w r) :
    (RemovePasskey.tryAccounts d (removeMetas d w) l).Returns ⟨d.findRegistry w, r, w⟩ := by
  simp only [RemovePasskey.tryAccounts, removeMetas, registryMeta, ownerMeta, returns_bind,
    returns_signer, returns_constraintSeeds, returns_constraintMut, returns_constraintAddress,
    returns_pure, exists_const, true_and]
  exact ⟨r, hh.load, w, rfl, rfl, rfl⟩

/-! ## Steps -/

variable {policy : Policy} {e : PasskeyEntry} {credentialId : Bytes} {proof : ProofData}
  {ix secpIx : Instruction}

/-- A policy that fires over a verified proof consumes the nonce and nothing else. -/
theorem step_enforce (hfound : registryOf d l w = some r) (howner : r.owner = w)
    (hix : c.Is (.enforce policy)) (hacc : c.accounts = enforceMetas d w)
    (hfires : policy.fires c.env = true)
    (hv : c.Verifies d r w policy.domain proof ix secpIx) :
    ∃ l', Step d l (.executed c) l' ∧ Stores d l l' (d.findRegistry w) r.consume := by
  have hctx : (Enforce.tryAccounts c.accounts).Returns ⟨d.findRegistry w, w⟩ := by
    rw [hacc]
    exact enforceMetas_context
  obtain ⟨l', hrun, hstores⟩ := execute_enforce_of c.env policy hctx hfires hfound howner hv
  exact ⟨l', step_of_execute hix hrun, hstores⟩

/-- Recovery asks for no proof: the wallet's signature replaces all keys by one and
sets the nonce back to zero. -/
theorem step_recoverRegistry (hh : Holds d l w r)
    (hix : c.Is (.recoverRegistry e.keyKind e.pubkeyBytes e.credentialId))
    (hacc : c.accounts = recoverMetas d w)
    (hvalid : ValidKeyInputs e.pubkeyBytes e.credentialId) :
    ∃ l', Step d l (.executed c) l' ∧ Stores d l l' (d.findRegistry w) ⟨w, 0, [e]⟩ := by
  have hone : AllValid [e] := by
    intro e' he'
    rwa [List.mem_singleton.mp he']
  have hctx : (RecoverRegistry.tryAccounts d c.accounts l).Returns ⟨d.findRegistry w, r, w⟩ := by
    rw [hacc]
    exact recoverMetas_context hh
  have hten : [e].length ≤ maxKeys := by simp [maxKeys]
  obtain ⟨l', hrun, hstores⟩ := execute_recoverRegistry_of hctx hvalid
    (fits_of_valid hten hone hh.size)
  exact ⟨l', step_of_execute hix hrun, hstores⟩

/-- An added key stands behind the others, and the nonce is consumed. -/
theorem step_addPasskey {cfg : TranaConfig} (hh : Holds d l w r) (hc : HoldsConfig d l cfg)
    (hkeys : AllValid r.keys) (hfee : cfg.addKeyFee = 0)
    (hix : c.Is (.addPasskey e.keyKind e.pubkeyBytes e.credentialId))
    (hacc : c.accounts = addMetas d w cfg.treasury)
    (hvalid : ValidKeyInputs e.pubkeyBytes e.credentialId) (hroom : r.keys.length < maxKeys)
    (hv : c.Verifies d r w policyRequire proof ix secpIx) :
    ∃ l', Step d l (.executed c) l' ∧
      Stores d l l' (d.findRegistry w) { r.consume with keys := r.keys ++ [e] } := by
  -- the old keys were valid, the new one was just checked
  have hall : AllValid (r.keys ++ [e]) := by
    intro e' he'
    rcases List.mem_append.mp he' with he' | he'
    · exact hkeys e' he'
    · rwa [List.mem_singleton.mp he']
  have hten : (r.keys ++ [e]).length ≤ maxKeys := by
    rw [List.length_append]
    exact hroom
  have hctx : (AddPasskey.tryAccounts d c.accounts l).Returns
      ⟨d.findRegistry w, r, w, cfg, cfg.treasury⟩ := by
    rw [hacc]
    exact addMetas_context hh hc
  obtain ⟨l', hrun, hstores⟩ := execute_addPasskey_of hctx hvalid hroom hv hfee
    (fits_of_valid hten hall hh.size)
  exact ⟨l', step_of_execute hix hrun, hstores⟩

/-- Removal drops every entry with the credential id, of at least two keys before it. -/
theorem step_removePasskey (hh : Holds d l w r) (hkeys : AllValid r.keys)
    (hten : r.keys.length ≤ maxKeys) (hix : c.Is (.removePasskey credentialId))
    (hacc : c.accounts = removeMetas d w) (hseveral : 1 < r.keys.length)
    (hshorter : (r.keys.filter (·.credentialId != credentialId)).length < r.keys.length)
    (hv : c.Verifies d r w policyRequire proof ix secpIx) :
    ∃ l', Step d l (.executed c) l' ∧ Stores d l l' (d.findRegistry w)
      { r.consume with keys := r.keys.filter (·.credentialId != credentialId) } := by
  have hctx : (RemovePasskey.tryAccounts d c.accounts l).Returns ⟨d.findRegistry w, r, w⟩ := by
    rw [hacc]
    exact removeMetas_context hh
  -- a filtered list of valid keys is valid and no longer
  obtain ⟨l', hrun, hstores⟩ := execute_removePasskey_of hctx hseveral hv hshorter
    (fits_of_valid (Nat.le_trans (Nat.le_of_lt hshorter) hten)
      (fun e he => hkeys e (List.mem_filter.mp he).1) hh.size)
  exact ⟨l', step_of_execute hix hrun, hstores⟩

end Steps

end Trana.Guard
