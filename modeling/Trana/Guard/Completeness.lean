import Trana.Guard.Run

/-!
# What suffices for an instruction to succeed

The converse of `Effect`, for the four instructions that act on an existing
registry: when the account context is satisfied, the checks pass and the new
registry fits its account, the instruction succeeds and stores it.

A registry account is created with room for `MAX_KEYS` entries of the largest
credential id, so the last condition is never the one that fails for a registry
whose keys were validated (`fits_of_valid`). It is stated all the same, because
Anchor's exit writes whatever the handler left and an account's size is the
ledger's, not the registry's.

* `fits_consume` — consuming a nonce never outgrows the account.
* `exitAccount_of_fits` — a registry that fits is stored.
* `execute_enforce_of` — a firing policy with a verified proof.
* `execute_recoverRegistry_of`, `execute_addPasskey_of`,
  `execute_removePasskey_of` — the registry-writing instructions.

`register_passkey` is not here: it may create its account, and what that takes
is settled with the registration itself.
-/

namespace Trana.Guard

open Trana.Lib Trana.Lib.Exec Trana.Solana

variable {d : Deployment} {env : Env} {accounts : List AccountMeta} {l l' : Ledger}

/-- There is room for `r` over the bytes at `key`. -/
def Fits (l : Ledger) (key : Pubkey) (r : PasskeyRegistry) : Prop :=
  ∃ data, PasskeyRegistry.layout.trySerialize r (l key).data = some data

/-- Room is a matter of lengths. -/
theorem fits_of_length {key : Pubkey} {r : PasskeyRegistry} {body : Bytes}
    (hbody : PasskeyRegistry.codec.write r = some body)
    (hlen : 8 + body.length ≤ (l key).data.length) : Fits l key r := by
  have himage : (PasskeyRegistry.layout.discriminator ++ body).length ≤ (l key).data.length := by
    rw [List.length_append, PasskeyRegistry.layout.length_discriminator]
    exact hlen
  exact ⟨_, Option.bind_eq_some_iff.mpr ⟨body, hbody, if_pos himage⟩⟩

/-- Owner, nonce, then the keys. -/
theorem write_registry (r : PasskeyRegistry) :
    PasskeyRegistry.codec.write r = ((Codec.vec PasskeyEntry.codec).write r.keys).map
      fun keys => r.owner.bytes ++ (leBytes 8 r.nonce.toNat ++ keys) := by
  cases hkeys : (Codec.vec PasskeyEntry.codec).write r.keys with
  | none =>
    simp [PasskeyRegistry.codec, Codec.map, Codec.pair, hkeys]
  | some keys =>
    simp [PasskeyRegistry.codec, Codec.map, Codec.pair, hkeys, Pubkey.codec, Codec.bytesN,
      Codec.u64, Codec.ofWord]

/-- A registry's image is its owner, its nonce and its keys. -/
theorem registry_image {r : PasskeyRegistry} {body : Bytes}
    (h : PasskeyRegistry.codec.write r = some body) :
    ∃ keys, (Codec.vec PasskeyEntry.codec).write r.keys = some keys ∧
      body = r.owner.bytes ++ (leBytes 8 r.nonce.toNat ++ keys) := by
  rw [write_registry] at h
  obtain ⟨keys, hkeys, rfl⟩ := Option.map_eq_some_iff.mp h
  exact ⟨keys, hkeys, rfl⟩

/-- The nonce has a fixed width. -/
theorem write_consume {r : PasskeyRegistry} {body : Bytes}
    (h : PasskeyRegistry.codec.write r = some body) :
    ∃ body', PasskeyRegistry.codec.write r.consume = some body' ∧ body'.length = body.length := by
  obtain ⟨keys, hkeys, rfl⟩ := registry_image h
  -- the new nonce takes the eight bytes of the old one
  refine ⟨r.owner.bytes ++ (leBytes 8 (r.nonce + 1).toNat ++ keys), ?_, ?_⟩
  · rw [write_registry, PasskeyRegistry.consume_keys, hkeys]
    rfl
  · simp only [List.length_append, length_leBytes]

/-- A registry read from an account fits there with its nonce consumed. -/
theorem fits_consume {key : Pubkey} {r : PasskeyRegistry} (h : registryAt d l key = some r) :
    Fits l key r.consume := by
  obtain ⟨-, hread⟩ := registryAt_eq_some.mp h
  obtain ⟨body, rest, hbody, hdata⟩ := AccountLayout.image_of_tryDeserialize hread
  obtain ⟨body', hbody', hlen⟩ := write_consume hbody
  rw [Fits, hdata]
  exact ⟨_, AccountLayout.trySerialize_image hbody' hlen⟩

/-- A credential that passed `validate_key_inputs` takes at most 170 bytes. -/
theorem entry_length_le {e : PasskeyEntry} (h : ValidKeyInputs e.pubkeyBytes e.credentialId) :
    ∃ x, PasskeyEntry.codec.write e = some x ∧ x.length ≤ 170 := by
  have hkey : e.pubkeyBytes.length ≤ 33 := h.1
  have hid : e.credentialId.length ≤ 128 := h.2
  have hwkey := Codec.vecU8_write e.pubkeyBytes (by omega)
  have hwid := Codec.vecU8_write e.credentialId (by omega)
  obtain ⟨tag, htag⟩ : ∃ tag, KeyKind.codec.write e.keyKind = some [tag] := ⟨_, rfl⟩
  refine ⟨[tag] ++ (lenPrefixed 4 e.pubkeyBytes ++ lenPrefixed 4 e.credentialId), ?_, ?_⟩
  · simp [PasskeyEntry.codec, Codec.map, Codec.pair, htag, hwkey, hwid]
  · simp only [List.length_append, List.length_singleton, length_lenPrefixed]
    omega

/-- Every key passed `validate_key_inputs`. -/
def AllValid (keys : List PasskeyEntry) : Prop :=
  ∀ e ∈ keys, ValidKeyInputs e.pubkeyBytes e.credentialId

/-- Ten valid credentials fit into the account the program creates. -/
theorem fits_of_valid {key : Pubkey} {r : PasskeyRegistry} (hkeys : r.keys.length ≤ maxKeys)
    (hvalid : AllValid r.keys)
    (hsize : (l key).data.length = PasskeyRegistry.layout.space) : Fits l key r := by
  have hten : r.keys.length ≤ 10 := hkeys
  obtain ⟨keys, hwrite, hle⟩ := Codec.vec_length_le PasskeyEntry.codec
    (show r.keys.length < 256 ^ 4 by omega) fun e he => entry_length_le (hvalid e he)
  -- 44 bytes for owner, nonce and count, and ten entries of 170: the space of `state.rs`
  have hspace : PasskeyRegistry.layout.space = 8 + (44 + 10 * 170) := rfl
  refine fits_of_length (by rw [write_registry, hwrite, Option.map_some]) ?_
  simp only [List.length_append, length_leBytes, r.owner.length_eq]
  omega

/-- A registry account passes the account check. -/
theorem returns_loadAccount_of {key : Pubkey} {r : PasskeyRegistry}
    (h : registryAt d l key = some r) :
    (loadAccount PasskeyRegistry.layout d.programId (l key) : Result PasskeyRegistry).Returns
      r := by
  obtain ⟨howner, hread⟩ := registryAt_eq_some.mp h
  simp only [loadAccount, returns_bind, returns_require, returns_liftAnchor, exists_const]
  refine ⟨fun hsys => d.programId_ne (howner.symm.trans hsys.1), howner, hread⟩

/-- A registry that fits its account is stored at exit. -/
theorem exitAccount_of_fits {key : Pubkey} {r : PasskeyRegistry}
    (howner : (l key).owner = d.programId) (hfits : Fits l key r) :
    ∃ l', (exitAccount PasskeyRegistry.layout d.programId key r l : Result Ledger).Returns l' ∧
      Stores d l l' key r := by
  obtain ⟨data, hdata⟩ := hfits
  have hreturns : (exitAccount PasskeyRegistry.layout d.programId key r l : Result Ledger).Returns
      (l.set key { l key with data }) :=
    (returns_exitAccount howner).mpr ⟨data, hdata, rfl⟩
  exact ⟨_, hreturns, exitAccount_stores howner hreturns⟩

/-- A call whose decoded instruction succeeds is a step. -/
theorem step_of_execute {c : Call} {ix : GuardInstruction} (hix : c.Is ix)
    (h : (execute d c.env c.accounts ix l).Returns l') : Step d l (.executed c) l' :=
  .executed (returns_bind.mpr ⟨ix, hix, h⟩)

/-! ## The instructions -/

/-- A policy that fires accepts a verified proof. -/
theorem execute_enforce_of (env : Env) (policy : Policy) {ctx : Enforce} {r : PasskeyRegistry}
    {proof : ProofData} {ix secpIx : Instruction}
    (hctx : (Enforce.tryAccounts accounts).Returns ctx) (hfires : policy.fires env = true)
    (hfound : registryAt d l ctx.registry = some r) (howner : r.owner = ctx.owner)
    (hv : Verified env.clock env.ixSysvar r ctx.owner d.programId env.ixSysvar.currentIndex
      policy.domain proof ix secpIx) :
    ∃ l', (execute d env accounts (.enforce policy) l).Returns l' ∧
      Stores d l l' ctx.registry r.consume := by
  obtain ⟨data, hdata⟩ := fits_consume hfound
  refine ⟨l.set ctx.registry { l ctx.registry with data }, ?_,
    stores_set (registryAt_eq_some.mp hfound).1 hdata⟩
  simp only [execute, returns_bind]
  refine ⟨ctx, hctx, returns_enforce.mpr (Or.inr ⟨hfires, ?_⟩)⟩
  rw [guarded, returns_withRegistry]
  refine ⟨r, r.consume, hfound, howner, ?_, data, hdata, rfl⟩
  exact returns_verifyWithPolicy.mpr ⟨rfl, proof, ix, secpIx, hv⟩

/-- A policy that does not fire accepts without looking at anything else. -/
theorem execute_enforce_idle {ctx : Enforce} {policy : Policy}
    (hctx : (Enforce.tryAccounts accounts).Returns ctx) (hidle : policy.fires env = false)
    (heval : policy.evaluable env = true) :
    (execute d env accounts (.enforce policy) l).Returns l := by
  simp only [execute, returns_bind]
  exact ⟨ctx, hctx, returns_enforce.mpr (Or.inl ⟨hidle, heval, rfl⟩)⟩

/-- `recover_registry` asks for valid key inputs only. -/
theorem execute_recoverRegistry_of {ctx : RecoverRegistry} {e : PasskeyEntry}
    (hctx : (RecoverRegistry.tryAccounts d accounts l).Returns ctx)
    (hvalid : ValidKeyInputs e.pubkeyBytes e.credentialId)
    (hfits : Fits l ctx.registryKey ⟨ctx.owner, 0, [e]⟩) :
    ∃ l', (execute d env accounts (.recoverRegistry e.keyKind e.pubkeyBytes e.credentialId)
        l).Returns l' ∧ Stores d l l' ctx.registryKey ⟨ctx.owner, 0, [e]⟩ := by
  obtain ⟨-, hkey, hfound⟩ := recoverRegistry_tryAccounts hctx
  have howner : (l ctx.registryKey).owner = d.programId := by
    rw [hkey]
    exact (registryAt_eq_some.mp hfound).1
  obtain ⟨l', hexit, hstores⟩ := exitAccount_of_fits howner hfits
  refine ⟨l', ?_, hstores⟩
  simp only [execute, returns_bind, recoverRegistry, returns_validateKeyInputs, returns_msg,
    returns_pure, exists_const, true_and]
  exact ⟨ctx, hctx, _, ⟨hvalid, rfl⟩, hexit⟩

/-- `add_passkey` asks for valid key inputs, room and a verified proof. -/
theorem execute_addPasskey_of {ctx : AddPasskey} {e : PasskeyEntry} {proof : ProofData}
    {ix secpIx : Instruction} (hctx : (AddPasskey.tryAccounts d accounts l).Returns ctx)
    (hvalid : ValidKeyInputs e.pubkeyBytes e.credentialId)
    (hroom : ctx.registry.keys.length < maxKeys)
    (hv : Verified env.clock env.ixSysvar ctx.registry ctx.owner d.programId
      env.ixSysvar.currentIndex policyRequire proof ix secpIx)
    (hfee : ctx.config.addKeyFee = 0)
    (hfits : Fits l ctx.registryKey
      { ctx.registry.consume with keys := ctx.registry.keys ++ [e] }) :
    ∃ l', (execute d env accounts (.addPasskey e.keyKind e.pubkeyBytes e.credentialId)
        l).Returns l' ∧ Stores d l l' ctx.registryKey
          { ctx.registry.consume with keys := ctx.registry.keys ++ [e] } := by
  obtain ⟨-, hkey, hfound⟩ := addPasskey_tryAccounts hctx
  have howner : (l ctx.registryKey).owner = d.programId := by
    rw [hkey]
    exact (registryAt_eq_some.mp hfound).1
  obtain ⟨l', hexit, hstores⟩ := exitAccount_of_fits howner hfits
  -- an added fee of zero makes no transfer
  have hcollect : (collectFee l ctx.owner ctx.treasury ctx.config.addKeyFee).Returns l := by
    rw [collectFee, hfee, if_neg (by decide)]
    exact returns_pure.mpr rfl
  refine ⟨l', ?_, hstores⟩
  simp only [execute, returns_bind, addPasskey, returns_validateKeyInputs, returns_require,
    returns_verifyWithPolicy, returns_msg, returns_pure, exists_const, true_and]
  exact ⟨ctx, hctx, _, ⟨hvalid, hroom, _, ⟨rfl, proof, ix, secpIx, hv⟩, l, hcollect, rfl⟩, hexit⟩

/-- `remove_passkey` asks for two keys, an entry to drop and a verified proof. -/
theorem execute_removePasskey_of {ctx : RemovePasskey} {credentialId : Bytes} {proof : ProofData}
    {ix secpIx : Instruction} (hctx : (RemovePasskey.tryAccounts d accounts l).Returns ctx)
    (hseveral : 1 < ctx.registry.keys.length)
    (hv : Verified env.clock env.ixSysvar ctx.registry ctx.owner d.programId
      env.ixSysvar.currentIndex policyRequire proof ix secpIx)
    (hshorter : (ctx.registry.keys.filter (·.credentialId != credentialId)).length <
      ctx.registry.keys.length)
    (hfits : Fits l ctx.registryKey { ctx.registry.consume with
      keys := ctx.registry.keys.filter (·.credentialId != credentialId) }) :
    ∃ l', (execute d env accounts (.removePasskey credentialId) l).Returns l' ∧
      Stores d l l' ctx.registryKey { ctx.registry.consume with
        keys := ctx.registry.keys.filter (·.credentialId != credentialId) } := by
  obtain ⟨-, hkey, hfound⟩ := removePasskey_tryAccounts hctx
  have howner : (l ctx.registryKey).owner = d.programId := by
    rw [hkey]
    exact (registryAt_eq_some.mp hfound).1
  obtain ⟨l', hexit, hstores⟩ := exitAccount_of_fits howner hfits
  refine ⟨l', ?_, hstores⟩
  simp only [execute, returns_bind, removePasskey, returns_require, returns_verifyWithPolicy,
    returns_msg, returns_pure, exists_const, true_and]
  exact ⟨ctx, hctx, _, ⟨hseveral, _, ⟨rfl, proof, ix, secpIx, hv⟩, hshorter, rfl⟩, hexit⟩

end Trana.Guard
