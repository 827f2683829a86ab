import Trana.Guard.Program
import Trana.Guard.VerifySpec

/-!
# What an instruction does to the registries

`registryAt` is the registry an address holds, as the program reads it.
`Effect` says, per instruction, what a successful run required and wrote; it
is the only thing the run-level modules know about the program.

The config lives in accounts of the same program, so that an instruction on it
could in principle write over a registry. It does not, because each account type
has its discriminator: `UntaggedWrite` is a write to an account that is a registry
neither before nor after, and both config instructions are of that kind.

Fees and rent move lamports between the checks and the write. They are carried as
`SameState` steps, which leave every owner and every byte alone, and do not show
in an `Effect`; what they cost is accounted for with the fees.

* `Stores` — the step wrote this registry here, over the bytes that were there.
* `returns_enforce` — `enforce` verifies exactly when the policy fires.
* `execute_effect` — every successful run has an `Effect`.
-/

namespace Trana.Guard

open Trana.Lib Trana.Lib.Exec Trana.Solana

/-! ## Registries on the ledger -/

/-- The registry stored at an address, if the program owns one there. -/
def registryAt (d : Deployment) (l : Ledger) (key : Pubkey) : Option PasskeyRegistry :=
  if (l key).owner = d.programId then
    (PasskeyRegistry.layout.tryDeserialize (l key).data).toOption
  else none

/-- The registry of a wallet. -/
def registryOf (d : Deployment) (l : Ledger) (w : Pubkey) : Option PasskeyRegistry :=
  registryAt d l (d.findRegistry w)

variable {d : Deployment} {env : Env} {accounts : List AccountMeta} {l l' : Ledger}

/-- A registry is an account of the program that reads as one. -/
theorem registryAt_eq_some {key : Pubkey} {r : PasskeyRegistry} :
    registryAt d l key = some r ↔
      (l key).owner = d.programId ∧ PasskeyRegistry.layout.tryDeserialize (l key).data = .ok r :=
  accountAt_eq_some

/-- Owner and data decide. -/
theorem registryAt_congr {key : Pubkey}
    (h : (l' key).owner = (l key).owner ∧ (l' key).data = (l key).data) :
    registryAt d l' key = registryAt d l key :=
  accountAt_congr h

/-- No registry is read from an account of another type. -/
theorem registryAt_none {key : Pubkey} (h : (l key).owner = d.programId →
    ∀ r, PasskeyRegistry.layout.tryDeserialize (l key).data ≠ .ok r) :
    registryAt d l key = none := by
  cases hr : registryAt d l key with
  | none => rfl
  | some r =>
    obtain ⟨howner, hread⟩ := registryAt_eq_some.mp hr
    exact absurd hread (h howner r)

/-- The program owns the account, and its data start with the registry discriminator. -/
def Tagged (d : Deployment) (l : Ledger) (key : Pubkey) : Prop :=
  (l key).owner = d.programId ∧ (l key).data.take 8 = PasskeyRegistry.layout.discriminator

/-- A registry carries the discriminator. -/
theorem tagged_of_registryAt {key : Pubkey} {r : PasskeyRegistry}
    (h : registryAt d l key = some r) : Tagged d l key := by
  obtain ⟨howner, hread⟩ := registryAt_eq_some.mp h
  have hdisc := AccountLayout.discriminator_of_tryDeserialize hread
  rw [PasskeyRegistry.layout.length_discriminator] at hdisc
  exact ⟨howner, hdisc⟩

/-- Owner and data decide that, too. -/
theorem tagged_congr {key : Pubkey}
    (h : (l' key).owner = (l key).owner ∧ (l' key).data = (l key).data) :
    Tagged d l' key ↔ Tagged d l key := by
  rw [Tagged, Tagged, h.1, h.2]

/-- Owner and data changed at `key` at most, where no registry was or is. -/
structure UntaggedWrite (d : Deployment) (l l' : Ledger) (key : Pubkey) : Prop where
  frame : ∀ k, k ≠ key → (l' k).owner = (l k).owner ∧ (l' k).data = (l k).data
  before : ¬Tagged d l key
  after : ¬Tagged d l' key

/-- The bytes a registry at `key` is written over: those of the program's
account, or the zeros of a new one. -/
def baseData (d : Deployment) (l : Ledger) (key : Pubkey) : Bytes :=
  if (l key).owner = d.programId then (l key).data
  else List.replicate PasskeyRegistry.layout.space 0

/-- The step wrote registry `r` at `key` and changed no other account's owner
or data. -/
structure Stores (d : Deployment) (l l' : Ledger) (key : Pubkey) (r : PasskeyRegistry) : Prop where
  frame : ∀ k, k ≠ key → (l' k).owner = (l k).owner ∧ (l' k).data = (l k).data
  owner : (l' key).owner = d.programId
  image : PasskeyRegistry.layout.trySerialize r (baseData d l key) = some (l' key).data

/-- What was stored is what is there. -/
theorem Stores.registryAt_self {key : Pubkey} {r : PasskeyRegistry} (h : Stores d l l' key r) :
    registryAt d l' key = some r :=
  registryAt_eq_some.mpr ⟨h.owner, AccountLayout.tryDeserialize_trySerialize h.image⟩

/-- Every other registry stays. -/
theorem Stores.registryAt_of_ne {key k : Pubkey} {r : PasskeyRegistry} (h : Stores d l l' key r)
    (hk : k ≠ key) : registryAt d l' k = registryAt d l k :=
  registryAt_congr (h.frame k hk)

/-- Lamports may move before the registry is written. -/
theorem Stores.of_sameState {l₀ : Ledger} {key : Pubkey} {r : PasskeyRegistry}
    (hsame : l.SameState l₀) (h : Stores d l₀ l' key r) : Stores d l l' key r where
  frame k hk := ⟨(h.frame k hk).1.trans (hsame k).1, (h.frame k hk).2.trans (hsame k).2⟩
  owner := h.owner
  image := by
    have hbase : baseData d l₀ key = baseData d l key := by
      rw [baseData, baseData, (hsame key).1, (hsame key).2]
    rw [← hbase]
    exact h.image

/-- Writing an image to an account of the program stores its registry. -/
theorem stores_set {key : Pubkey} {r : PasskeyRegistry} {data : Bytes}
    (howner : (l key).owner = d.programId)
    (hdata : PasskeyRegistry.layout.trySerialize r (l key).data = some data) :
    Stores d l (l.set key { l key with data }) key r where
  frame k hk := by
    rw [Ledger.set_of_ne _ hk]
    exact ⟨rfl, rfl⟩
  owner := by
    rw [Ledger.set_self]
    exact howner
  image := by
    rw [Ledger.set_self, baseData, if_pos howner]
    exact hdata

/-! ## The helpers -/

/-- That is what Anchor does behind a handler. -/
theorem exitAccount_stores {key : Pubkey} {r : PasskeyRegistry}
    (howner : (l key).owner = d.programId)
    (h : (exitAccount PasskeyRegistry.layout d.programId key r l : Result Ledger).Returns l') :
    Stores d l l' key r := by
  obtain ⟨data, hdata, rfl⟩ := (returns_exitAccount howner).mp h
  exact stores_set howner hdata

/-- A fee moves lamports only. -/
theorem collectFee_sameState {payer dst : Pubkey} {fee : UInt64}
    (h : (collectFee l payer dst fee).Returns l') : l.SameState l' := by
  unfold collectFee at h
  split at h
  next =>
    simp only [invokeTransfer, returns_okOr] at h
    exact Ledger.transfer_frame h
  next =>
    obtain rfl := returns_pure.mp h
    exact Ledger.SameState.refl l

/-- Loading, running and storing, as one condition. -/
theorem returns_withRegistry {info ownerKey : Pubkey}
    {f : PasskeyRegistry → Result PasskeyRegistry} :
    (withRegistry d l info ownerKey f).Returns l' ↔
      ∃ r r', registryAt d l info = some r ∧ r.owner = ownerKey ∧ (f r).Returns r' ∧
        ∃ data, PasskeyRegistry.layout.trySerialize r' (l info).data = some data ∧
          l' = l.set info { l info with data } := by
  simp only [withRegistry, returns_bind, returns_require, returns_okOr, returns_pure, exists_const,
    toOption_eq_some, registryAt_eq_some]
  constructor
  · intro h
    obtain ⟨howner, r, hr, hrowner, r', hf, data, hdata, rfl⟩ := h
    exact ⟨r, r', ⟨howner, hr⟩, hrowner, hf, data, hdata, rfl⟩
  · intro h
    obtain ⟨r, r', ⟨howner, hr⟩, hrowner, hf, data, hdata, rfl⟩ := h
    exact ⟨howner, r, hr, hrowner, r', hf, data, hdata, rfl⟩

/-! ## Policies -/

/-- The little-endian `u64` at byte `i`, when the data reaches that far. -/
def u64At (data : Bytes) (i : Nat) : Option UInt64 :=
  if i + 8 ≤ data.length then some (UInt64.ofNat (leNat ((data.drop i).take 8))) else none

/-- The amount `enforce` compares: from the current top-level instruction. -/
def protectedU64 (ixSysvar : InstructionsSysvar) (byteOffset : UInt8) : Option UInt64 :=
  ixSysvar.instructions[ixSysvar.currentIndex.toNat]?.bind fun ix =>
    u64At ix.data (8 + byteOffset.toNat)

/-- Eight bytes spell a number. -/
theorem returns_u64FromLeBytes {window : Bytes} {v : UInt64} :
    (u64FromLeBytes window).Returns v ↔
      window.length = 8 ∧ UInt64.ofNat (leNat window) = v := by
  unfold u64FromLeBytes
  rw [returns_expect]
  split <;> simp [*]

/-- The amount stands behind the discriminator of the instruction the sysvar points at. -/
theorem returns_readU64FromProtectedIx {ixSysvar : InstructionsSysvar} {byteOffset : UInt8}
    {p : UInt64 × UInt16} :
    (readU64FromProtectedIx ixSysvar byteOffset).Returns p ↔
      protectedU64 ixSysvar byteOffset = some p.1 ∧ p.2 = ixSysvar.currentIndex := by
  have hb : byteOffset.toNat < 256 := byteOffset.toNat_lt
  obtain ⟨v, i⟩ := p
  simp only [readU64FromProtectedIx, returns_bind, returns_okOr, returns_usizeAdd,
    returns_require, returns_slice, returns_u64FromLeBytes, returns_pure, exists_const,
    loadInstructionAtChecked, loadCurrentIndexChecked, protectedU64, u64At,
    Option.bind_eq_some_iff]
  constructor
  · intro h
    obtain ⟨ix, hix, _, ⟨rfl, -⟩, _, ⟨rfl, -⟩, hlen, _, ⟨-, -, rfl⟩, _, ⟨-, rfl⟩, hp⟩ := h
    obtain ⟨rfl, rfl⟩ := Prod.mk.inj hp
    refine ⟨⟨ix, hix, ?_⟩, rfl⟩
    rw [if_pos hlen, List.drop_take, Nat.add_sub_cancel_left]
  · intro h
    obtain ⟨⟨ix, hix, hval⟩, rfl⟩ := h
    split at hval
    next hlen =>
      obtain rfl := Option.some.inj hval
      refine ⟨ix, hix, _, ⟨rfl, by omega⟩, _, ⟨rfl, by omega⟩, hlen, _,
        ⟨by omega, hlen, rfl⟩, _, ⟨?_, rfl⟩, ?_⟩
      · rw [List.drop_take, Nat.add_sub_cancel_left, List.length_take, List.length_drop]
        omega
      · rw [List.drop_take, Nat.add_sub_cancel_left]
    next => cases hval

/-- The policy's condition holds, so a proof is required. -/
def Policy.fires (env : Env) : Policy → Bool
  | .require => true
  | .notBefore slot => env.clock.slot < slot
  | .notAfter slot => slot < env.clock.slot
  | .limit paramOffset bound =>
    (protectedU64 env.ixSysvar paramOffset).any fun amount => bound ≤ amount

/-- `enforce` can evaluate the condition. -/
def Policy.evaluable (env : Env) : Policy → Bool
  | .limit paramOffset _ => (protectedU64 env.ixSysvar paramOffset).isSome
  | _ => true

/-- Too early. -/
theorem Policy.fires_notBefore {slot : UInt64} :
    (Policy.notBefore slot).fires env = true ↔ env.clock.slot < slot := decide_eq_true_iff

/-- An amount is there and reaches the bound. -/
theorem Policy.fires_limit {paramOffset : UInt8} {bound : UInt64} :
    (Policy.limit paramOffset bound).fires env = true ↔
      ∃ amount, protectedU64 env.ixSysvar paramOffset = some amount ∧ bound ≤ amount := by
  simp [Policy.fires, Option.any_eq_true]

/-- The verification a firing policy runs. -/
def guarded (d : Deployment) (env : Env) (ctx : Enforce) (policy : Policy) (l : Ledger) :
    Result Ledger :=
  withRegistry d l ctx.registry ctx.owner fun reg =>
    verifyWithPolicy env.clock env.ixSysvar reg ctx.owner d.programId policy.domain

/-- `enforce` verifies exactly when the policy fires; otherwise the ledger stays. -/
theorem returns_enforce {ctx : Enforce} {policy : Policy} :
    (enforce d env ctx policy l).Returns l' ↔
      policy.fires env = false ∧ policy.evaluable env = true ∧ l' = l ∨
      policy.fires env = true ∧ (guarded d env ctx policy l).Returns l' := by
  cases policy with
  | require =>
    simp only [enforce, returns_bind, returns_msg, exists_const, true_and]
    simp [Policy.fires, guarded, Policy.domain]
  | notBefore slot =>
    simp only [enforce, returns_ite, returns_bind, returns_msg, exists_const, true_and,
      returns_pure]
    by_cases h : env.clock.slot < slot
    · simp [Policy.fires, h, guarded, Policy.domain]
    · simp [Policy.fires, Policy.evaluable, h, eq_comm]
  | notAfter slot =>
    simp only [enforce, returns_ite, returns_bind, returns_msg, exists_const, true_and,
      returns_pure]
    by_cases h : slot < env.clock.slot
    · simp [Policy.fires, h, guarded, Policy.domain]
    · simp [Policy.fires, Policy.evaluable, h, eq_comm]
  | limit paramOffset bound =>
    simp only [enforce, returns_bind, returns_readU64FromProtectedIx]
    cases hv : protectedU64 env.ixSysvar paramOffset with
    | none => simp [Policy.fires, Policy.evaluable, hv]
    | some amount =>
      by_cases h : bound ≤ amount
      · simp [Policy.fires, hv, h, guarded, Policy.domain, verifyWithPolicy, returns_ite,
          loadCurrentIndexChecked]
      · have hlt : amount < bound := UInt64.not_le.mp h
        simp [Policy.fires, Policy.evaluable, hv, h, hlt, eq_comm, returns_ite]

/-! ## Account contexts -/

/-- The invocation names the registry account `key` first, and its second
account, the owner `w`, signed. -/
structure Names (accounts : List AccountMeta) (key w : Pubkey) : Prop where
  registry : accounts[0]?.map AccountMeta.pubkey = some key
  owner : ∃ m, accounts[1]? = some m ∧ m.isSigner = true ∧ m.pubkey = w

/-- The named accounts are determined by the list. -/
theorem Names.unique {key key' w w' : Pubkey} (h : Names accounts key w)
    (h' : Names accounts key' w') : key = key' ∧ w = w' := by
  obtain ⟨m, hm, -, rfl⟩ := h.owner
  obtain ⟨m', hm', -, rfl⟩ := h'.owner
  refine ⟨Option.some.inj (h.registry.symm.trans h'.registry), ?_⟩
  rw [Option.some.inj (hm.symm.trans hm')]

/-- The registry loaded is the signer's own. -/
theorem recoverRegistry_tryAccounts {ctx : RecoverRegistry}
    (h : (RecoverRegistry.tryAccounts d accounts l).Returns ctx) :
    Names accounts ctx.registryKey ctx.owner ∧ ctx.registryKey = d.findRegistry ctx.owner ∧
      registryOf d l ctx.owner = some ctx.registry := by
  unfold RecoverRegistry.tryAccounts at h
  split at h
  next registry owner systemProgram rest =>
    simp only [returns_bind, returns_signer, returns_programAccount, returns_constraintSeeds,
      returns_constraintMut, returns_pure, exists_const] at h
    obtain ⟨reg, hreg, _, ⟨hsigner, rfl⟩, -, hseeds, -, -, rfl⟩ := h
    refine ⟨⟨rfl, owner, rfl, hsigner, rfl⟩, hseeds, ?_⟩
    rw [hseeds] at hreg
    exact registryAt_eq_some.mpr (returns_loadAccount hreg)
  next => simp [notEnoughKeys] at h

/-- The registry loaded is the signer's own. -/
theorem addPasskey_tryAccounts {ctx : AddPasskey}
    (h : (AddPasskey.tryAccounts d accounts l).Returns ctx) :
    Names accounts ctx.registryKey ctx.owner ∧ ctx.registryKey = d.findRegistry ctx.owner ∧
      registryOf d l ctx.owner = some ctx.registry := by
  unfold AddPasskey.tryAccounts at h
  split at h
  next registry owner systemProgram config treasury instructions rest =>
    simp only [returns_bind, returns_signer, returns_programAccount, returns_constraintSeeds,
      returns_constraintMut, returns_require, returns_constraintAddress, returns_pure,
      exists_const] at h
    obtain ⟨reg, hreg, _, ⟨hsigner, rfl⟩, -, cfg, -, hseeds, -, -, -, -, -, -, rfl⟩ := h
    refine ⟨⟨rfl, owner, rfl, hsigner, rfl⟩, hseeds, ?_⟩
    rw [hseeds] at hreg
    exact registryAt_eq_some.mpr (returns_loadAccount hreg)
  next => simp [notEnoughKeys] at h

/-- The registry loaded is the signer's own. -/
theorem removePasskey_tryAccounts {ctx : RemovePasskey}
    (h : (RemovePasskey.tryAccounts d accounts l).Returns ctx) :
    Names accounts ctx.registryKey ctx.owner ∧ ctx.registryKey = d.findRegistry ctx.owner ∧
      registryOf d l ctx.owner = some ctx.registry := by
  unfold RemovePasskey.tryAccounts at h
  split at h
  next registry owner instructions rest =>
    simp only [returns_bind, returns_signer, returns_constraintSeeds, returns_constraintMut,
      returns_constraintAddress, returns_pure, exists_const] at h
    obtain ⟨reg, hreg, _, ⟨hsigner, rfl⟩, hseeds, -, -, rfl⟩ := h
    refine ⟨⟨rfl, owner, rfl, hsigner, rfl⟩, hseeds, ?_⟩
    rw [hseeds] at hreg
    exact registryAt_eq_some.mpr (returns_loadAccount hreg)
  next => simp [notEnoughKeys] at h

/-- The owner has signed. -/
theorem enforce_tryAccounts {ctx : Enforce} (h : (Enforce.tryAccounts accounts).Returns ctx) :
    Names accounts ctx.registry ctx.owner := by
  unfold Enforce.tryAccounts at h
  split at h
  next registry owner instructions rest =>
    simp only [returns_bind, returns_signer, returns_constraintMut, returns_constraintAddress,
      returns_pure, exists_const] at h
    obtain ⟨_, ⟨hsigner, rfl⟩, -, -, rfl⟩ := h
    exact ⟨rfl, owner, rfl, hsigner, rfl⟩
  next => simp [notEnoughKeys] at h

/-- `init_if_needed` finds a registry, or leaves a blank one in a new account. -/
theorem initRegistryIfNeeded_spec {payer key : Pubkey} {r : PasskeyRegistry}
    (h : (initRegistryIfNeeded d env payer key l).Returns (r, l')) :
    (registryAt d l key = some r ∧ l' = l) ∨
    (registryAt d l key = none ∧ r = PasskeyRegistry.blank ∧ (l' key).owner = d.programId ∧
      (l' key).data = baseData d l key ∧
      ∀ k, k ≠ key → (l' k).owner = (l k).owner ∧ (l' k).data = (l k).data) := by
  rcases initIfNeeded_spec h with hfound | ⟨hsys, hinit, hread⟩
  · exact Or.inl hfound
  · right
    obtain ⟨-, hframe⟩ := Ledger.initAccount_frame hinit
    have hkey := hframe key
    rw [Ledger.set_self] at hkey
    have hne : (l key).owner ≠ d.programId := by
      rw [hsys]
      exact d.programId_ne.symm
    refine ⟨registryAt_none fun howner => absurd howner hne, ?_, hkey.1, ?_, fun k hk => ?_⟩
    · rw [PasskeyRegistry.tryDeserializeUnchecked_blank] at hread
      exact (Except.ok.inj hread).symm
    · rw [hkey.2, baseData, if_neg hne]
    · have := hframe k
      rwa [Ledger.set_of_ne _ hk] at this

/-- The registry, created or found, is the signer's own. -/
theorem registerPasskey_tryAccounts {ctx : RegisterPasskey}
    (h : (RegisterPasskey.tryAccounts d env accounts l).Returns (ctx, l')) :
    Names accounts ctx.registryKey ctx.owner ∧ ctx.registryKey = d.findRegistry ctx.owner ∧
      (initRegistryIfNeeded d env ctx.owner ctx.registryKey l).Returns (ctx.registry, l') := by
  unfold RegisterPasskey.tryAccounts at h
  split at h
  next registry owner systemProgram config treasury rest =>
    simp only [returns_bind, returns_signer, returns_programAccount, returns_constraintSeeds,
      returns_constraintMut, returns_require, returns_pure, exists_const] at h
    obtain ⟨_, ⟨hsigner, rfl⟩, -, cfg, -, hseeds, ⟨reg, l₁⟩, hinit, -, -, -, -, -, hp⟩ := h
    obtain ⟨rfl, rfl⟩ := Prod.mk.inj hp
    exact ⟨⟨rfl, owner, rfl, hsigner, rfl⟩, hseeds, hinit⟩
  next => simp [notEnoughKeys] at h

/-! ## Effects -/

/-- The registries are the same, at every address. -/
def SameRegistries (d : Deployment) (l l' : Ledger) : Prop :=
  ∀ k, registryAt d l' k = registryAt d l k

/-- Two stretches that leave the registries alone are one. -/
theorem SameRegistries.trans {l₁ l₂ l₃ : Ledger} (h : SameRegistries d l₁ l₂)
    (h' : SameRegistries d l₂ l₃) : SameRegistries d l₁ l₃ :=
  fun k => (h' k).trans (h k)

/-- So does moving lamports. -/
theorem SameRegistries.of_sameState (h : l.SameState l') : SameRegistries d l l' :=
  fun k => registryAt_congr (h k)

/-- A new credential passed `validate_key_inputs`. -/
def ValidKeyInputs (pubkeyBytes credentialId : Bytes) : Prop :=
  pubkeyBytes.length ≤ PasskeyRegistry.maxPubkeyLen ∧
    credentialId.length ≤ PasskeyRegistry.maxCredIdLen

/-- The bounds. -/
@[simp] theorem returns_validateKeyInputs {pubkeyBytes credentialId : Bytes} {u : Unit} :
    (validateKeyInputs pubkeyBytes credentialId).Returns u ↔
      ValidKeyInputs pubkeyBytes credentialId := by
  simp [validateKeyInputs, ValidKeyInputs]

/-- What a successful instruction found and did. -/
inductive Effect (d : Deployment) (env : Env) (accounts : List AccountMeta) (l l' : Ledger) :
    GuardInstruction → Prop where
  | initConfig {registerFee addKeyFee treasury} (same : SameRegistries d l l') :
    Effect d env accounts l l' (.initConfig registerFee addKeyFee treasury)
  | updateConfig {registerFee addKeyFee treasury} (same : SameRegistries d l l') :
    Effect d env accounts l l' (.updateConfig registerFee addKeyFee treasury)
  | registerPasskey {keyKind pubkeyBytes credentialId} (w : Pubkey) (r : PasskeyRegistry)
      (names : Names accounts (d.findRegistry w) w)
      (valid : ValidKeyInputs pubkeyBytes credentialId)
      (found : registryOf d l w = some r ∨
        registryOf d l w = none ∧ r = PasskeyRegistry.blank)
      (empty : r.keys = [])
      (stores : Stores d l l' (d.findRegistry w)
        ⟨w, r.nonce, [⟨keyKind, pubkeyBytes, credentialId⟩]⟩) :
    Effect d env accounts l l' (.registerPasskey keyKind pubkeyBytes credentialId)
  | recoverRegistry {keyKind pubkeyBytes credentialId} (w : Pubkey) (r : PasskeyRegistry)
      (names : Names accounts (d.findRegistry w) w)
      (valid : ValidKeyInputs pubkeyBytes credentialId)
      (found : registryOf d l w = some r)
      (stores : Stores d l l' (d.findRegistry w)
        ⟨w, 0, [⟨keyKind, pubkeyBytes, credentialId⟩]⟩) :
    Effect d env accounts l l' (.recoverRegistry keyKind pubkeyBytes credentialId)
  | addPasskey {keyKind pubkeyBytes credentialId} (w : Pubkey) (r : PasskeyRegistry)
      (names : Names accounts (d.findRegistry w) w)
      (valid : ValidKeyInputs pubkeyBytes credentialId)
      (found : registryOf d l w = some r)
      (room : r.keys.length < maxKeys)
      (verified : ∃ proof ix secpIx, Verified env.clock env.ixSysvar r w d.programId
        env.ixSysvar.currentIndex policyRequire proof ix secpIx)
      (stores : Stores d l l' (d.findRegistry w)
        { r.consume with keys := r.keys ++ [⟨keyKind, pubkeyBytes, credentialId⟩] }) :
    Effect d env accounts l l' (.addPasskey keyKind pubkeyBytes credentialId)
  | removePasskey {credentialId} (w : Pubkey) (r : PasskeyRegistry)
      (names : Names accounts (d.findRegistry w) w)
      (found : registryOf d l w = some r)
      (several : 1 < r.keys.length)
      (verified : ∃ proof ix secpIx, Verified env.clock env.ixSysvar r w d.programId
        env.ixSysvar.currentIndex policyRequire proof ix secpIx)
      (shorter : (r.keys.filter (·.credentialId != credentialId)).length < r.keys.length)
      (stores : Stores d l l' (d.findRegistry w)
        { r.consume with keys := r.keys.filter (·.credentialId != credentialId) }) :
    Effect d env accounts l l' (.removePasskey credentialId)
  | recordProof {proof} (same : l' = l) : Effect d env accounts l l' (.recordProof proof)
  | enforceFree {policy} (idle : policy.fires env = false)
      (evaluable : policy.evaluable env = true) (same : l' = l) :
    Effect d env accounts l l' (.enforce policy)
  | enforceProof {policy} (w key : Pubkey) (r : PasskeyRegistry)
      (names : Names accounts key w)
      (fires : policy.fires env = true)
      (found : registryAt d l key = some r)
      (owner_eq : r.owner = w)
      (verified : ∃ proof ix secpIx, Verified env.clock env.ixSysvar r w d.programId
        env.ixSysvar.currentIndex policy.domain proof ix secpIx)
      (stores : Stores d l l' key r.consume) :
    Effect d env accounts l l' (.enforce policy)

/-- A write where no registry was or is leaves all registries. -/
theorem UntaggedWrite.sameRegistries {key : Pubkey} (h : UntaggedWrite d l l' key) :
    SameRegistries d l l' := by
  intro k
  by_cases hk : k = key
  · subst hk
    have hnone : ∀ l, ¬Tagged d l k → registryAt d l k = none := fun l hl =>
      Option.eq_none_iff_forall_ne_some.mpr fun r hr => hl (tagged_of_registryAt hr)
    rw [hnone l h.before, hnone l' h.after]
  · exact registryAt_congr (h.frame k hk)

/-- A config account starts with another discriminator. -/
theorem not_tagged_of_config {key : Pubkey} {cfg : TranaConfig}
    (h : TranaConfig.layout.tryDeserialize (l key).data = .ok cfg) : ¬Tagged d l key := by
  intro htag
  have hdisc := AccountLayout.discriminator_of_tryDeserialize h
  rw [TranaConfig.layout.length_discriminator] at hdisc
  exact TranaConfig.discriminator_ne (hdisc.symm.trans htag.2)

/-- Storing a config is such a write. -/
theorem exitConfig_write {key : Pubkey} {cfg : TranaConfig} {l₀ : Ledger}
    (howner : (l₀ key).owner = d.programId)
    (hframe : ∀ k, k ≠ key → (l₀ k).owner = (l k).owner ∧ (l₀ k).data = (l k).data)
    (hbefore : ¬Tagged d l key)
    (h : (exitAccount TranaConfig.layout d.programId key cfg l₀ : Result Ledger).Returns l') :
    UntaggedWrite d l l' key := by
  obtain ⟨data, hdata, rfl⟩ := (returns_exitAccount howner).mp h
  have hconfig : TranaConfig.layout.tryDeserialize
      ((l₀.set key { l₀ key with data := data }) key).data = .ok cfg := by
    rw [Ledger.set_self]
    exact AccountLayout.tryDeserialize_trySerialize hdata
  refine ⟨fun k hk => ?_, hbefore, not_tagged_of_config hconfig⟩
  rw [Ledger.set_of_ne _ hk]
  exact hframe k hk

/-- Creating it. -/
theorem initConfig_write {registerFee addKeyFee : UInt64} {treasury : Pubkey}
    (h : (execute d env accounts (.initConfig registerFee addKeyFee treasury) l).Returns l') :
    ∃ key, UntaggedWrite d l l' key := by
  simp only [execute, returns_bind] at h
  obtain ⟨⟨ctx, l₁⟩, hctx, cfg, -, hexit⟩ := h
  unfold InitConfig.tryAccounts at hctx
  split at hctx
  next config authority systemProgram rest =>
    simp only [returns_bind, returns_signer, returns_programAccount, returns_constraintSeeds,
      returns_okOr, returns_constraintMut, returns_pure, exists_const] at hctx
    obtain ⟨_, -, -, -, l₂, hinit, -, -, hp⟩ := hctx
    obtain ⟨rfl, rfl⟩ := Prod.mk.inj hp
    obtain ⟨hsys, hframe⟩ := Ledger.initAccount_frame hinit
    have hkey := hframe config.pubkey
    rw [Ledger.set_self] at hkey
    refine ⟨_, exitConfig_write hkey.1 (fun k hk => ?_) (fun htag => ?_) hexit⟩
    · have := hframe k
      rwa [Ledger.set_of_ne _ hk] at this
    -- the account was still the system program's
    · exact d.programId_ne (htag.1.symm.trans hsys)
  next => simp [notEnoughKeys] at hctx

/-- Changing it. -/
theorem updateConfig_write {registerFee addKeyFee : UInt64} {treasury : Pubkey}
    (h : (execute d env accounts (.updateConfig registerFee addKeyFee treasury) l).Returns l') :
    ∃ key, UntaggedWrite d l l' key := by
  simp only [execute, returns_bind] at h
  obtain ⟨ctx, hctx, cfg, -, hexit⟩ := h
  unfold UpdateConfig.tryAccounts at hctx
  split at hctx
  next config authority rest =>
    simp only [returns_bind, returns_signer, returns_constraintSeeds, returns_constraintMut,
      returns_require, returns_pure, exists_const] at hctx
    obtain ⟨old, hload, _, -, -, -, -, rfl⟩ := hctx
    obtain ⟨howner, hread⟩ := returns_loadAccount hload
    exact ⟨_, exitConfig_write howner (fun _ _ => ⟨rfl, rfl⟩) (not_tagged_of_config hread) hexit⟩
  next => simp [notEnoughKeys] at hctx

/-- The first key is stored in the signer's registry. -/
theorem registerPasskey_effect {keyKind : KeyKind} {pubkeyBytes credentialId : Bytes}
    (h : (execute d env accounts (.registerPasskey keyKind pubkeyBytes credentialId) l).Returns
      l') :
    Effect d env accounts l l' (.registerPasskey keyKind pubkeyBytes credentialId) := by
  simp only [execute, returns_bind] at h
  obtain ⟨⟨ctx, l₁⟩, hctx, ⟨r', l₂⟩, hrun, hexit⟩ := h
  obtain ⟨hnames, hkey, hinit⟩ := registerPasskey_tryAccounts hctx
  simp only [registerPasskey, returns_bind, returns_validateKeyInputs, returns_require,
    returns_msg, returns_pure, exists_const, true_and] at hrun
  obtain ⟨hvalid, hempty, l₃, hfee, hp⟩ := hrun
  obtain ⟨rfl, rfl⟩ := Prod.mk.inj hp
  have hsame := collectFee_sameState hfee
  have hnil : ctx.registry.keys = [] := by simpa using hempty
  -- whether found or new, the account belongs to the program and nothing else changed
  have hl₁ : (l₁ ctx.registryKey).owner = d.programId ∧
      (l₁ ctx.registryKey).data = baseData d l ctx.registryKey ∧
      (∀ k, k ≠ ctx.registryKey → (l₁ k).owner = (l k).owner ∧ (l₁ k).data = (l k).data) ∧
      (registryOf d l ctx.owner = some ctx.registry ∨
        registryOf d l ctx.owner = none ∧ ctx.registry = PasskeyRegistry.blank) := by
    unfold registryOf
    rw [← hkey]
    rcases initRegistryIfNeeded_spec hinit with ⟨hr, rfl⟩ | ⟨hr, hblank, howner, hdata, hframe⟩
    · have howner := (registryAt_eq_some.mp hr).1
      exact ⟨howner, (if_pos howner).symm, fun _ _ => ⟨rfl, rfl⟩, Or.inl hr⟩
    · exact ⟨howner, hdata, hframe, Or.inr ⟨hr, hblank⟩⟩
  obtain ⟨howner, hdata, hframe, hfound⟩ := hl₁
  have hstores := (exitAccount_stores ((hsame ctx.registryKey).1.trans howner) hexit).of_sameState
    hsame
  have hbase : baseData d l₁ ctx.registryKey = baseData d l ctx.registryKey := by
    rw [baseData, if_pos howner, hdata]
  rw [hkey] at hstores hframe hbase
  refine .registerPasskey ctx.owner ctx.registry (hkey ▸ hnames) hvalid hfound hnil
    ⟨fun k hk => ?_, ?_, ?_⟩
  · have h₂ := hstores.frame k hk
    have h₁ := hframe k hk
    exact ⟨h₂.1.trans h₁.1, h₂.2.trans h₁.2⟩
  · exact hstores.owner
  · have himage := hstores.image
    rwa [hnil, hbase] at himage

/-- A fresh registry with one key, nonce zero. -/
theorem recoverRegistry_effect {keyKind : KeyKind} {pubkeyBytes credentialId : Bytes}
    (h : (execute d env accounts (.recoverRegistry keyKind pubkeyBytes credentialId) l).Returns
      l') :
    Effect d env accounts l l' (.recoverRegistry keyKind pubkeyBytes credentialId) := by
  simp only [execute, returns_bind] at h
  obtain ⟨ctx, hctx, r', hrun, hexit⟩ := h
  obtain ⟨hnames, hkey, hfound⟩ := recoverRegistry_tryAccounts hctx
  simp only [recoverRegistry, returns_bind, returns_validateKeyInputs, returns_msg, returns_pure,
    exists_const, true_and] at hrun
  obtain ⟨hvalid, rfl⟩ := hrun
  rw [hkey] at hexit
  exact .recoverRegistry ctx.owner ctx.registry (hkey ▸ hnames) hvalid hfound
    (exitAccount_stores (registryAt_eq_some.mp hfound).1 hexit)

/-- A verified proof, a consumed nonce, one more key. -/
theorem addPasskey_effect {keyKind : KeyKind} {pubkeyBytes credentialId : Bytes}
    (h : (execute d env accounts (.addPasskey keyKind pubkeyBytes credentialId) l).Returns l') :
    Effect d env accounts l l' (.addPasskey keyKind pubkeyBytes credentialId) := by
  simp only [execute, returns_bind] at h
  obtain ⟨ctx, hctx, ⟨r', l₁⟩, hrun, hexit⟩ := h
  obtain ⟨hnames, hkey, hfound⟩ := addPasskey_tryAccounts hctx
  simp only [addPasskey, returns_bind, returns_validateKeyInputs, returns_require,
    returns_verifyWithPolicy, returns_msg, returns_pure, exists_const, true_and] at hrun
  obtain ⟨hvalid, hroom, _, ⟨rfl, hverified⟩, l₂, hfee, hp⟩ := hrun
  obtain ⟨rfl, rfl⟩ := Prod.mk.inj hp
  have hsame := collectFee_sameState hfee
  rw [hkey] at hexit
  have howner := (hsame (d.findRegistry ctx.owner)).1.trans (registryAt_eq_some.mp hfound).1
  exact .addPasskey ctx.owner ctx.registry (hkey ▸ hnames) hvalid hfound hroom hverified
    ((exitAccount_stores howner hexit).of_sameState hsame)

/-- A verified proof, a consumed nonce, fewer keys. -/
theorem removePasskey_effect {credentialId : Bytes}
    (h : (execute d env accounts (.removePasskey credentialId) l).Returns l') :
    Effect d env accounts l l' (.removePasskey credentialId) := by
  simp only [execute, returns_bind] at h
  obtain ⟨ctx, hctx, r', hrun, hexit⟩ := h
  obtain ⟨hnames, hkey, hfound⟩ := removePasskey_tryAccounts hctx
  simp only [removePasskey, returns_bind, returns_require, returns_verifyWithPolicy, returns_msg,
    returns_pure, exists_const, true_and] at hrun
  obtain ⟨hseveral, _, ⟨rfl, hverified⟩, hshorter, rfl⟩ := hrun
  rw [hkey] at hexit
  exact .removePasskey ctx.owner ctx.registry (hkey ▸ hnames) hfound hseveral hverified hshorter
    (exitAccount_stores (registryAt_eq_some.mp hfound).1 hexit)

/-- A verified proof and a consumed nonce where the policy fires, nothing where it
does not. -/
theorem enforce_effect {policy : Policy}
    (h : (execute d env accounts (.enforce policy) l).Returns l') :
    Effect d env accounts l l' (.enforce policy) := by
  simp only [execute, returns_bind, returns_enforce] at h
  obtain ⟨ctx, hctx, ⟨hidle, heval, hsame⟩ | ⟨hfires, hrun⟩⟩ := h
  · exact .enforceFree hidle heval hsame
  · simp only [guarded, returns_withRegistry, returns_verifyWithPolicy] at hrun
    obtain ⟨r, _, hfound, howner, ⟨rfl, hverified⟩, data, hdata, rfl⟩ := hrun
    exact .enforceProof ctx.owner ctx.registry r (enforce_tryAccounts hctx) hfires hfound howner
      hverified (stores_set (registryAt_eq_some.mp hfound).1 hdata)

/-- Every successful run of an instruction has its effect. -/
theorem execute_effect {ix : GuardInstruction} (h : (execute d env accounts ix l).Returns l') :
    Effect d env accounts l l' ix := by
  cases ix with
  | initConfig registerFee addKeyFee treasury =>
    obtain ⟨key, hwrite⟩ := initConfig_write h
    exact .initConfig hwrite.sameRegistries
  | updateConfig registerFee addKeyFee treasury =>
    obtain ⟨key, hwrite⟩ := updateConfig_write h
    exact .updateConfig hwrite.sameRegistries
  | registerPasskey keyKind pubkeyBytes credentialId => exact registerPasskey_effect h
  | recoverRegistry keyKind pubkeyBytes credentialId => exact recoverRegistry_effect h
  | addPasskey keyKind pubkeyBytes credentialId => exact addPasskey_effect h
  | removePasskey credentialId => exact removePasskey_effect h
  | recordProof proof =>
    simp only [execute, returns_bind, returns_pure] at h
    obtain ⟨_, -, _, -, rfl⟩ := h
    exact .recordProof rfl
  | enforce policy => exact enforce_effect h

/-! ## The wire -/

/-- A call made with `cpi::enforce` runs `enforce` with its policy. -/
theorem parse_enforceData (policy : Policy) :
    (parseInstruction (enforceData policy)).Returns (.enforce policy) := by
  obtain ⟨w, hw⟩ : ∃ w, Policy.codec.write policy = some w := by
    cases policy with
    | require => exact ⟨_, rfl⟩
    | notBefore slot => exact ⟨_, rfl⟩
    | notAfter slot => exact ⟨_, rfl⟩
    | limit paramOffset bound => exact ⟨_, rfl⟩
  have hread : Policy.codec.read w = some (policy, []) := by
    have := Policy.codec.read_write hw []
    rwa [List.append_nil] at this
  have hdisc : (enforceDisc ++ w).take 8 = enforceDisc := rfl
  have hargs : (enforceDisc ++ w).drop 8 = w := rfl
  rw [enforceData, hw, Option.getD_some, parseInstruction]
  simp only [hdisc, hargs]
  rw [if_neg (by decide), if_neg (by decide), if_neg (by decide), if_neg (by decide),
    if_neg (by decide), if_neg (by decide), if_neg (by decide), if_pos trivial]
  simp [readArgs, hread]

end Trana.Guard
