import Trana.Guard.Completeness
import Trana.Sdk.Transaction

/-!
# A registry fits its account

`INIT_SPACE` is what ten entries at their maximal lengths take, and an account
keeps the size it was created with. What keeps a registry within it is the two
checks every key passes on its way in: the lengths of `validate_key_inputs` and
the bound on the number of keys.

* `Writes` — the registry an instruction has ready when it comes to its write,
  Anchor's on exit or the one of `with_registry`.
* `fitting_step` — the sizes are kept by every step.
* `registry_fits` — in every reachable state registries fit, and no write fails
  or is cut off.

A write goes into a slice of the account's data and fails when that is too short.
The program does not check for it, so a registry that outgrew its account would
be one its owner can no longer change. The second part says of every instruction
that has come as far as its write that the call succeeds and that the account then
decodes to what was to be written.

The bytes behind a shorter list stay as they were. They are not counted here, and
a later, longer list overwrites them; decoding goes by the count in front.
-/

namespace Trana.Security

open Trana.Lib Trana.Lib.Exec Trana.Solana Trana.Guard

/-- The account at `key` has the size it was created with, and `r` at most ten
keys, all within the limits. -/
structure Allocated (l : Ledger) (key : Pubkey) (r : PasskeyRegistry) : Prop where
  size : (l key).data.length = PasskeyRegistry.layout.space
  count : r.keys.length ≤ maxKeys
  valid : AllValid r.keys

def Fitting (d : Guard.Deployment) (l : Ledger) : Prop :=
  ∀ key r, registryAt d l key = some r → Allocated l key r

/-- Discriminator and Borsh form are within the allocation. -/
def ImageFits (r : PasskeyRegistry) : Prop :=
  ∃ body, PasskeyRegistry.codec.write r = some body ∧
    (PasskeyRegistry.layout.discriminator ++ body).length ≤ PasskeyRegistry.layout.space

variable {d : Guard.Deployment} {env : Env} {accounts : List AccountMeta} {l l' l₁ : Ledger}
  {key w : Pubkey} {r r' : PasskeyRegistry} {ix : GuardInstruction}

theorem Allocated.fits (h : Allocated l key r) : Fits l key r :=
  fits_of_valid h.count h.valid h.size

theorem Allocated.imageFits (h : Allocated l key r) : ImageFits r := by
  obtain ⟨data, hdata⟩ := h.fits
  obtain ⟨body, hbody, hle, -⟩ := AccountLayout.trySerialize_eq_some hdata
  rw [h.size] at hle
  exact ⟨body, hbody, hle⟩

-- Ten keys at the limits take all of it.
example : (PasskeyRegistry.codec.write ⟨systemProgramId, 0, List.replicate maxKeys
      ⟨.secp256r1Passkey, List.replicate 33 0, List.replicate 128 0⟩⟩).map
    (fun body => (PasskeyRegistry.layout.discriminator ++ body).length) =
      some PasskeyRegistry.layout.space := by
  decide +kernel

/-- Fewer keys of the same. -/
theorem Allocated.of_sublist (h : Allocated l key r) (hkeys : r'.keys.Sublist r.keys) :
    Allocated l key r' where
  size := h.size
  count := Nat.le_trans hkeys.length_le h.count
  valid e he := h.valid e (hkeys.subset he)

/-- One more key, where there is room for it and its lengths were checked. -/
theorem Allocated.of_added {kept : List PasskeyEntry} {e : PasskeyEntry} (h : Allocated l key r)
    (hkept : kept ⊆ r.keys) (hroom : kept.length < maxKeys)
    (hvalid : ValidKeyInputs e.pubkeyBytes e.credentialId) (hkeys : r'.keys = kept ++ [e]) :
    Allocated l key r' where
  size := h.size
  count := by
    rw [hkeys, List.length_append, List.length_singleton]
    exact hroom
  valid e' he := by
    rw [hkeys] at he
    rcases List.mem_append.mp he with he | he
    · exact h.valid e' (hkept he)
    · rw [List.mem_singleton.mp he]
      exact hvalid

theorem Allocated.of_sameState (h : Allocated l key r) (hsame : l.SameState l') :
    Allocated l' key r where
  size := by rw [(hsame key).2, h.size]
  count := h.count
  valid := h.valid

theorem maxKeys_pos : 0 < maxKeys := by decide

/-! ## What an instruction writes -/

/-- The instruction came through its checks and its handler and is about to
write registry `r` at `key`, on the ledger of that moment. -/
inductive Writes (d : Guard.Deployment) (env : Env) (accounts : List AccountMeta) (l : Ledger) :
    GuardInstruction → Ledger → Pubkey → PasskeyRegistry → Prop where
  | registerPasskey {keyKind pubkeyBytes credentialId ctx l₁ r l₂}
      (context : (RegisterPasskey.tryAccounts d env accounts l).Returns (ctx, l₁))
      (handler : (registerPasskey ctx keyKind pubkeyBytes credentialId l₁).Returns (r, l₂)) :
    Writes d env accounts l (.registerPasskey keyKind pubkeyBytes credentialId) l₂
      ctx.registryKey r
  | recoverRegistry {keyKind pubkeyBytes credentialId ctx r}
      (context : (RecoverRegistry.tryAccounts d accounts l).Returns ctx)
      (handler : (recoverRegistry ctx keyKind pubkeyBytes credentialId).Returns r) :
    Writes d env accounts l (.recoverRegistry keyKind pubkeyBytes credentialId) l ctx.registryKey r
  | addPasskey {keyKind pubkeyBytes credentialId ctx r l₂}
      (context : (AddPasskey.tryAccounts d accounts l).Returns ctx)
      (handler : (addPasskey d env ctx keyKind pubkeyBytes credentialId l).Returns (r, l₂)) :
    Writes d env accounts l (.addPasskey keyKind pubkeyBytes credentialId) l₂ ctx.registryKey r
  | removePasskey {credentialId ctx r}
      (context : (RemovePasskey.tryAccounts d accounts l).Returns ctx)
      (handler : (removePasskey d env ctx credentialId).Returns r) :
    Writes d env accounts l (.removePasskey credentialId) l ctx.registryKey r
  | enforce {policy : Policy} {ctx r r'}
      (context : (Enforce.tryAccounts accounts).Returns ctx)
      (fires : policy.fires env = true)
      (found : registryAt d l ctx.registry = some r)
      (owner : r.owner = ctx.owner)
      (verified : (verifyWithPolicy env.clock env.ixSysvar r ctx.owner d.programId
        policy.domain).Returns r') :
    Writes d env accounts l (.enforce policy) l ctx.registry r'

/-- Only the account at `key` may differ from before, and it has room for `r`. -/
structure Prepared (d : Guard.Deployment) (l l₁ : Ledger) (key : Pubkey) (r : PasskeyRegistry) :
    Prop where
  frame : ∀ k, k ≠ key → (l₁ k).owner = (l k).owner ∧ (l₁ k).data = (l k).data
  owner : (l₁ key).owner = d.programId
  room : Allocated l₁ key r

/-- A registry written over the one that was there. -/
theorem prepared_of_found (hfound : registryAt d l key = some r) (hsame : l.SameState l₁)
    (hroom : Allocated l key r') : Prepared d l l₁ key r' where
  frame k _ := hsame k
  owner := (hsame key).1.trans (registryAt_eq_some.mp hfound).1
  room := hroom.of_sameState hsame

/-- `init_if_needed` finds a registry, or makes an account of the right size. -/
theorem prepared_of_init (hl : Fitting d l)
    (h : (initRegistryIfNeeded d env w key l).Returns (r, l₁)) : Prepared d l l₁ key r := by
  rcases initIfNeeded_spec h with ⟨hfound, rfl⟩ | ⟨-, hinit, hblank⟩
  · exact prepared_of_found hfound (Ledger.SameState.refl _) (hl key r hfound)
  · obtain ⟨-, hframe⟩ := Ledger.initAccount_frame hinit
    have hkey := hframe key
    rw [Ledger.set_self] at hkey
    rw [PasskeyRegistry.tryDeserializeUnchecked_blank] at hblank
    obtain rfl := Except.ok.inj hblank
    refine ⟨fun k hk => ?_, hkey.1, ?_, Nat.zero_le _, fun e he => nomatch he⟩
    · have hother := hframe k
      rwa [Ledger.set_of_ne _ hk] at hother
    · rw [hkey.2, List.length_replicate]

theorem Prepared.trans {l₂ : Ledger} (h : Prepared d l l₁ key r) (hsame : l₁.SameState l₂)
    (hroom : Allocated l₁ key r') : Prepared d l l₂ key r' where
  frame k hk := ⟨(hsame k).1.trans (h.frame k hk).1, (hsame k).2.trans (h.frame k hk).2⟩
  owner := (hsame key).1.trans h.owner
  room := hroom.of_sameState hsame

/-- What an instruction has ready fits. -/
theorem Writes.prepared (hl : Fitting d l) (h : Writes d env accounts l ix l₁ key r) :
    Prepared d l l₁ key r := by
  cases h with
  | registerPasskey context handler =>
    obtain ⟨-, -, hinit⟩ := registerPasskey_tryAccounts context
    simp only [Guard.registerPasskey, returns_bind, returns_validateKeyInputs, returns_require,
      returns_msg, returns_pure, exists_const, true_and] at handler
    obtain ⟨hvalid, hempty, l₂, hfee, hp⟩ := handler
    obtain ⟨rfl, rfl⟩ := Prod.mk.inj hp
    have hprepared := prepared_of_init hl hinit
    refine hprepared.trans (collectFee_sameState hfee)
      (hprepared.room.of_added (List.Subset.refl _) ?_ hvalid rfl)
    -- registering starts from an empty list, found or made
    rw [List.isEmpty_iff.mp hempty]
    exact maxKeys_pos
  | recoverRegistry context handler =>
    obtain ⟨-, hkey, hfound⟩ := recoverRegistry_tryAccounts context
    simp only [Guard.recoverRegistry, returns_bind, returns_validateKeyInputs, returns_msg,
      returns_pure, exists_const, true_and] at handler
    obtain ⟨hvalid, rfl⟩ := handler
    rw [registryOf, ← hkey] at hfound
    exact prepared_of_found hfound (Ledger.SameState.refl _)
      -- recovery drops all keys first
      ((hl _ _ hfound).of_added (List.nil_subset _) maxKeys_pos hvalid (List.nil_append _).symm)
  | addPasskey context handler =>
    obtain ⟨-, hkey, hfound⟩ := addPasskey_tryAccounts context
    simp only [Guard.addPasskey, returns_bind, returns_validateKeyInputs, returns_require,
      returns_verifyWithPolicy, returns_msg, returns_pure, exists_const, true_and] at handler
    -- here the bound on the number is the handler's own check
    obtain ⟨hvalid, hroom, _, ⟨rfl, -⟩, l₂, hfee, hp⟩ := handler
    obtain ⟨rfl, rfl⟩ := Prod.mk.inj hp
    rw [registryOf, ← hkey] at hfound
    exact prepared_of_found hfound (collectFee_sameState hfee)
      ((hl _ _ hfound).of_added (List.Subset.refl _) hroom hvalid rfl)
  | removePasskey context handler =>
    obtain ⟨-, hkey, hfound⟩ := removePasskey_tryAccounts context
    simp only [Guard.removePasskey, returns_bind, returns_require, returns_verifyWithPolicy,
      returns_msg, returns_pure, exists_const, true_and] at handler
    obtain ⟨-, _, ⟨rfl, -⟩, -, rfl⟩ := handler
    rw [registryOf, ← hkey] at hfound
    exact prepared_of_found hfound (Ledger.SameState.refl _)
      ((hl _ _ hfound).of_sublist List.filter_sublist)
  | enforce context fires found owner verified =>
    obtain ⟨rfl, -⟩ := returns_verifyWithPolicy.mp verified
    exact prepared_of_found found (Ledger.SameState.refl _)
      ((hl _ _ found).of_sublist (List.Sublist.refl _))

/-- Every instruction that got as far as its write succeeds. -/
theorem Writes.succeeds (hl : Fitting d l) (h : Writes d env accounts l ix l₁ key r) :
    ∃ l', (execute d env accounts ix l).Returns l' ∧ Stores d l₁ l' key r := by
  have hprepared := h.prepared hl
  obtain ⟨l', hexit, hstores⟩ := exitAccount_of_fits hprepared.owner hprepared.room.fits
  refine ⟨l', ?_, hstores⟩
  cases h with
  | registerPasskey context handler => exact returns_bind.mpr ⟨_, context, returns_bind.mpr
      ⟨_, handler, hexit⟩⟩
  | recoverRegistry context handler => exact returns_bind.mpr ⟨_, context, returns_bind.mpr
      ⟨_, handler, hexit⟩⟩
  | addPasskey context handler => exact returns_bind.mpr ⟨_, context, returns_bind.mpr
      ⟨_, handler, hexit⟩⟩
  | removePasskey context handler => exact returns_bind.mpr ⟨_, context, returns_bind.mpr
      ⟨_, handler, hexit⟩⟩
  | enforce context fires found owner verified =>
    -- `with_registry` writes for itself, the other four leave it to Anchor's exit
    obtain ⟨data, hdata, rfl⟩ := (returns_exitAccount hprepared.owner).mp hexit
    refine returns_bind.mpr ⟨_, context, returns_enforce.mpr (Or.inr ⟨fires, ?_⟩)⟩
    exact returns_withRegistry.mpr ⟨_, _, found, owner, verified, data, hdata, rfl⟩

/-! ## The invariant -/

/-- The registries of `l'` are registries of `l`, with their data. -/
def KeepsRegistries (d : Guard.Deployment) (l l' : Ledger) : Prop :=
  ∀ k r, registryAt d l' k = some r → registryAt d l k = some r ∧ (l' k).data = (l k).data

theorem KeepsRegistries.refl (d : Guard.Deployment) (l : Ledger) : KeepsRegistries d l l :=
  fun _ _ h => ⟨h, rfl⟩

theorem keepsRegistries_write (h : UntaggedWrite d l l' key) : KeepsRegistries d l l' := by
  intro k r hr
  have hk : k ≠ key := by
    rintro rfl
    exact h.after (tagged_of_registryAt hr)
  rw [registryAt_congr (h.frame k hk)] at hr
  exact ⟨hr, (h.frame k hk).2⟩

theorem keepsRegistries_external (h : Ledger.External d.programId l l') :
    KeepsRegistries d l l' := by
  intro k r hr
  rw [external_registryAt h] at hr
  exact ⟨hr, (h.keeps k (registryAt_eq_some.mp hr).1).2⟩

theorem KeepsRegistries.fitting (h : KeepsRegistries d l l') (hl : Fitting d l) :
    Fitting d l' := by
  intro k r hr
  obtain ⟨hr, hdata⟩ := h k r hr
  have hroom := hl k r hr
  exact ⟨by rw [hdata, hroom.size], hroom.count, hroom.valid⟩

/-- The size of the account is not changed by the write. -/
theorem Prepared.stored_size (h : Prepared d l l₁ key r) (hstores : Stores d l₁ l' key r) :
    (l' key).data.length = PasskeyRegistry.layout.space := by
  have hlen := AccountLayout.trySerialize_length hstores.image
  rwa [baseData, if_pos h.owner, h.room.size] at hlen

theorem Prepared.fitting (hl : Fitting d l) (h : Prepared d l l₁ key r)
    (hstores : Stores d l₁ l' key r) : Fitting d l' := by
  intro k r' hr'
  by_cases hk : k = key
  · subst hk
    rw [hstores.registryAt_self] at hr'
    obtain rfl := Option.some.inj hr'
    exact ⟨h.stored_size hstores, h.room.count, h.room.valid⟩
  · rw [hstores.registryAt_of_ne hk, registryAt_congr (h.frame k hk)] at hr'
    have hroom := hl k r' hr'
    refine ⟨?_, hroom.count, hroom.valid⟩
    rw [(hstores.frame k hk).2, (h.frame k hk).2, hroom.size]

/-- A successful instruction keeps the registries as they are or writes one. -/
theorem writes_of_execute (hl : Fitting d l) (h : (execute d env accounts ix l).Returns l') :
    KeepsRegistries d l l' ∨
      ∃ l₁ key r, Writes d env accounts l ix l₁ key r ∧ Stores d l₁ l' key r := by
  cases ix with
  | initConfig registerFee addKeyFee treasury =>
    -- the config's account is no registry
    obtain ⟨key, hwrite⟩ := initConfig_write h
    exact Or.inl (keepsRegistries_write hwrite)
  | updateConfig registerFee addKeyFee treasury =>
    obtain ⟨key, hwrite⟩ := updateConfig_write h
    exact Or.inl (keepsRegistries_write hwrite)
  | registerPasskey keyKind pubkeyBytes credentialId =>
    obtain ⟨⟨ctx, l₁⟩, context, h⟩ := returns_bind.mp h
    obtain ⟨⟨r, l₂⟩, handler, hexit⟩ := returns_bind.mp h
    have hwrites := Writes.registerPasskey context handler
    exact Or.inr ⟨_, _, _, hwrites, exitAccount_stores (hwrites.prepared hl).owner hexit⟩
  | recoverRegistry keyKind pubkeyBytes credentialId =>
    obtain ⟨ctx, context, h⟩ := returns_bind.mp h
    obtain ⟨r, handler, hexit⟩ := returns_bind.mp h
    have hwrites : Writes d env accounts l (.recoverRegistry keyKind pubkeyBytes credentialId) _ _
        _ := .recoverRegistry context handler
    exact Or.inr ⟨_, _, _, hwrites, exitAccount_stores (hwrites.prepared hl).owner hexit⟩
  | addPasskey keyKind pubkeyBytes credentialId =>
    obtain ⟨ctx, context, h⟩ := returns_bind.mp h
    obtain ⟨⟨r, l₂⟩, handler, hexit⟩ := returns_bind.mp h
    have hwrites := Writes.addPasskey context handler
    exact Or.inr ⟨_, _, _, hwrites, exitAccount_stores (hwrites.prepared hl).owner hexit⟩
  | removePasskey credentialId =>
    obtain ⟨ctx, context, h⟩ := returns_bind.mp h
    obtain ⟨r, handler, hexit⟩ := returns_bind.mp h
    have hwrites := Writes.removePasskey context handler
    exact Or.inr ⟨_, _, _, hwrites, exitAccount_stores (hwrites.prepared hl).owner hexit⟩
  | recordProof proof =>
    cases execute_effect h with
    | recordProof same => exact Or.inl (same ▸ KeepsRegistries.refl d l)
  | enforce policy =>
    obtain ⟨ctx, context, h⟩ := returns_bind.mp h
    rcases returns_enforce.mp h with ⟨-, -, rfl⟩ | ⟨fires, h⟩
    · exact Or.inl (KeepsRegistries.refl d l')
    · obtain ⟨r, r', found, owner, verified, data, hdata, rfl⟩ := returns_withRegistry.mp h
      exact Or.inr ⟨_, _, _, .enforce context fires found owner verified,
        stores_set (registryAt_eq_some.mp found).1 hdata⟩

theorem fitting_step {a : Label} (hl : Fitting d l) (h : Step d l a l') : Fitting d l' := by
  cases h with
  | executed h =>
    obtain ⟨ix, -, h⟩ := returns_bind.mp h
    rcases writes_of_execute hl h with hkeeps | ⟨l₁, key, r, hwrites, hstores⟩
    · exact hkeeps.fitting hl
    · exact (hwrites.prepared hl).fitting hl hstores
  | rolledBack c => exact hl
  | other h => exact (keepsRegistries_external h).fitting hl

theorem fitting_of_reachable (h : Reachable d l) : Fitting d l := by
  obtain ⟨l₀, trace, hgenesis, hrun⟩ := h
  refine hrun.invariant (fun _ _ _ hl hs => fitting_step hl hs) fun key r hr => ?_
  obtain ⟨howner, hread⟩ := registryAt_eq_some.mp hr
  exact absurd hread (AccountLayout.tryDeserialize_zeros (hgenesis key howner)
    ⟨201, by decide, by decide⟩)

/-! ## No write is cut off -/

/-- The account has its size, starts with the whole image of `r`, and is read
as `r`. -/
structure Written (d : Guard.Deployment) (l : Ledger) (key : Pubkey) (r : PasskeyRegistry) :
    Prop where
  size : (l key).data.length = PasskeyRegistry.layout.space
  image : ∃ body, PasskeyRegistry.codec.write r = some body ∧
    PasskeyRegistry.layout.discriminator ++ body <+: (l key).data
  reads : registryAt d l key = some r

theorem Prepared.written (h : Prepared d l l₁ key r) (hstores : Stores d l₁ l' key r) :
    Written d l' key r := by
  obtain ⟨body, hbody, -, hdata⟩ := AccountLayout.trySerialize_eq_some hstores.image
  refine ⟨h.stored_size hstores, ⟨body, hbody, ?_⟩, hstores.registryAt_self⟩
  rw [hdata]
  exact List.prefix_append ..

/-- Whatever happened before: every registry's serialisation is within what its
account was allocated, and every instruction that has a registry to write
writes all of it. -/
theorem registry_fits {d : Guard.Deployment} {l : Ledger} (h : Reachable d l) :
    (∀ key r, registryAt d l key = some r →
      ImageFits r ∧ (l key).data.length = PasskeyRegistry.layout.space) ∧
    ∀ env accounts ix l₁ key r, Writes d env accounts l ix l₁ key r →
      ImageFits r ∧
        ∃ l', (execute d env accounts ix l).Returns l' ∧ Written d l' key r := by
  have hl := fitting_of_reachable h
  refine ⟨fun key r hr => ⟨(hl key r hr).imageFits, (hl key r hr).size⟩, ?_⟩
  intro env accounts ix l₁ key r hwrites
  have hprepared := hwrites.prepared hl
  obtain ⟨l', hreturns, hstores⟩ := hwrites.succeeds hl
  exact ⟨hprepared.room.imageFits, l', hreturns, hprepared.written hstores⟩

section Localnet

open Sdk.Localnet

theorem registry_fits_registered :
    (∀ key r, registryAt deployment registered key = some r →
      ImageFits r ∧ (registered key).data.length = PasskeyRegistry.layout.space) ∧
    ∀ env accounts ix l₁ key r, Writes deployment env accounts registered ix l₁ key r →
      ImageFits r ∧
        ∃ l', (execute deployment env accounts ix registered).Returns l' ∧
          Written deployment l' key r :=
  registry_fits reachable_registered

end Localnet

end Trana.Security
