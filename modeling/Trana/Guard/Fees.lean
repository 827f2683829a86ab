import Trana.Guard.Foreign
import Trana.Guard.Run
import Trana.Lib.Owned
import Trana.Solana.Settlement

/-!
# The fee config and the fees

The config PDA is a value with an owner (`Trana.Lib.Owned`): `init_config` makes
its signer the authority, `update_config` lets the authority set new terms, and
no other instruction and no other program touches it. No address needs to be
reserved for that; a registry is not read as a config, because the two account
types carry different discriminators.

The fees are what `register_passkey` and `add_passkey` charge their wallet
through a transfer to the treasury the config names, after Anchor checked with
`address = config.treasury` that this is the account that was passed. The fee of
the transaction itself is the runtime's and is no part of an instruction
(`Trana.Solana.Runtime`).

* `configAt`, `configOf` — the config the chain's accounts hold.
* `config_step` — every step of the chain is a step of the owned value, and the
  one who made it signed (`signed_config`).
* `Call.payments` — what a call moves: rent for what it creates, and the fee in
  force, to the treasury in force.
* `call_settles` — a successful call moves exactly these lamports, and the payer
  of each signed it (`payer_signed`).
-/

namespace Trana.Guard

open Trana.Lib Trana.Lib.Exec Trana.Solana

/-! ## The config on the ledger -/

/-- The config an account holds, if the guard owns it and it decodes. -/
def configAt (d : Deployment) (l : Ledger) (key : Pubkey) : Option TranaConfig :=
  accountAt TranaConfig.layout d.programId l key

/-- The fee config, as the program reads it. -/
def configOf (d : Deployment) (l : Ledger) : Option TranaConfig := configAt d l d.findConfig

/-- What the authority decides on. -/
structure Terms where
  registerFee : UInt64
  addKeyFee : UInt64
  treasury : Pubkey
  deriving DecidableEq

/-- What the authority sets: both fees and the treasury. -/
def TranaConfig.terms (cfg : TranaConfig) : Terms :=
  ⟨cfg.registerFee, cfg.addKeyFee, cfg.treasury⟩

/-- A config as an owned value. -/
def governed (cfg : Option TranaConfig) : Option (Pubkey × Terms) :=
  cfg.map fun cfg => (cfg.authority, cfg.terms)

/-- Authority and terms are all there is to a config. -/
theorem governed_inj {cfg : Option TranaConfig} {cfg' : TranaConfig}
    (h : governed cfg = some (cfg'.authority, cfg'.terms)) : cfg = some cfg' := by
  obtain ⟨cfg₁, rfl, heq⟩ := Option.map_eq_some_iff.mp h
  obtain ⟨hauth, hterms⟩ := Prod.mk.inj heq
  obtain ⟨hregister, hadd, htreasury⟩ := Terms.mk.inj hterms
  cases cfg₁
  cases cfg'
  simp only at hauth hregister hadd htreasury
  rw [hauth, hregister, hadd, htreasury]

/-- What an instruction does to the config, on behalf of `w`. -/
def GuardInstruction.configOp (w : Pubkey) : GuardInstruction → Owned.Op Pubkey Terms
  | .initConfig registerFee addKeyFee treasury => .init w ⟨registerFee, addKeyFee, treasury⟩
  | .updateConfig registerFee addKeyFee treasury => .update w ⟨registerFee, addKeyFee, treasury⟩
  | _ => .idle

/-- What a step does to the config, on behalf of the call's second account. -/
def configOp : Label → Owned.Op Pubkey Terms
  | .executed c =>
    match (parseInstruction c.data).result, c.owner? with
    | .ok ix, some w => ix.configOp w
    | _, _ => .idle
  | .rolledBack _ => .idle
  | .other => .idle

section Config

variable {d : Deployment} {env : Env} {accounts : List AccountMeta} {l l' : Ledger} {a : Label}

/-- Owner and data decide. -/
theorem configAt_congr {key : Pubkey}
    (h : (l' key).owner = (l key).owner ∧ (l' key).data = (l key).data) :
    configAt d l' key = configAt d l key :=
  accountAt_congr h

/-- A registry is no config. -/
theorem configAt_of_registryAt {key : Pubkey} {r : PasskeyRegistry}
    (h : registryAt d l key = some r) : configAt d l key = none := by
  cases hcfg : configAt d l key with
  | none => rfl
  | some cfg =>
    exact absurd (tagged_of_registryAt h) (not_tagged_of_config (accountAt_eq_some.mp hcfg).2)

/-- A system account holds none. -/
theorem configAt_of_system {key : Pubkey} (h : (l key).owner = systemProgramId) :
    configAt d l key = none :=
  if_neg fun heq => d.programId_ne (heq.symm.trans h)

/-- Storing a registry where no config is. -/
theorem Stores.configOf_eq {key : Pubkey} {r : PasskeyRegistry} (h : Stores d l l' key r)
    (hbefore : configAt d l key = none) : configOf d l' = configOf d l := by
  by_cases hkey : d.findConfig = key
  -- a registry carries another discriminator, so the address holds no config after
  · rw [configOf, configOf, hkey, hbefore, configAt_of_registryAt h.registryAt_self]
  · exact configAt_congr (h.frame _ hkey)

/-! ## The instructions -/

/-- `init_config` creates the config PDA, at the expense of the signer it will store. -/
theorem initConfig_tryAccounts {ctx : InitConfig}
    (h : (InitConfig.tryAccounts d env accounts l).Returns (ctx, l')) :
    ∃ config authority rest, accounts = config :: authority :: rest ∧
      config.pubkey = d.findConfig ∧ authority.isSigner = true ∧
      ctx = ⟨d.findConfig, authority.pubkey⟩ ∧
      l.initAccount env.minimumBalance authority.pubkey d.findConfig d.programId
        TranaConfig.layout.space = some l' := by
  unfold InitConfig.tryAccounts at h
  split at h
  next config authority systemProgram rest =>
    simp only [returns_bind, returns_signer, returns_programAccount, returns_constraintSeeds,
      returns_okOr, returns_constraintMut, returns_pure, exists_const] at h
    obtain ⟨_, ⟨hsigner, rfl⟩, -, hkey, l₁, hinit, -, -, hp⟩ := h
    obtain ⟨rfl, rfl⟩ := Prod.mk.inj hp
    rw [hkey] at hinit ⊢
    exact ⟨config, authority, _, rfl, hkey, hsigner, rfl, hinit⟩
  next => simp [notEnoughKeys] at h

/-- `update_config` loads the config PDA and requires the stored authority's signature. -/
theorem updateConfig_tryAccounts {ctx : UpdateConfig}
    (h : (UpdateConfig.tryAccounts d accounts l).Returns ctx) :
    ∃ config authority rest, accounts = config :: authority :: rest ∧
      authority.isSigner = true ∧ ctx.configKey = d.findConfig ∧
      configOf d l = some ctx.config ∧ ctx.config.authority = authority.pubkey := by
  unfold UpdateConfig.tryAccounts at h
  split at h
  next config authority rest =>
    simp only [returns_bind, returns_signer, returns_constraintSeeds, returns_constraintMut,
      returns_require, returns_pure, exists_const] at h
    obtain ⟨cfg, hload, _, ⟨hsigner, rfl⟩, hkey, -, hauth, rfl⟩ := h
    refine ⟨config, authority, rest, rfl, hsigner, hkey, ?_, hauth⟩
    have hfound := accountAt_of_load hload
    rwa [hkey] at hfound
  next => simp [notEnoughKeys] at h

/-- `init_config` finds no config and leaves its signer's. -/
theorem initConfig_config {registerFee addKeyFee : UInt64} {treasury : Pubkey}
    (h : (execute d env accounts (.initConfig registerFee addKeyFee treasury) l).Returns l') :
    ∃ config authority rest, accounts = config :: authority :: rest ∧
      authority.isSigner = true ∧ configOf d l = none ∧
      configOf d l' = some ⟨authority.pubkey, treasury, registerFee, addKeyFee⟩ ∧
      Settles (lamportsOf l) (lamportsOf l') [⟨authority.pubkey, d.findConfig,
        rentDue l env.minimumBalance d.findConfig TranaConfig.layout.space⟩] ∧
      (l authority.pubkey).owner = systemProgramId := by
  simp only [execute, returns_bind] at h
  obtain ⟨⟨ctx, l₁⟩, hctx, cfg, hcfg, hexit⟩ := h
  obtain ⟨config, authority, rest, rfl, hkey, hsigner, rfl, hinit⟩ := initConfig_tryAccounts hctx
  simp only [initConfig, returns_bind, returns_msg, returns_pure, exists_const, true_and] at hcfg
  subst hcfg
  -- `init`: the account was the system program's, which is why there was no config
  obtain ⟨hsys, hframe⟩ := Ledger.initAccount_frame hinit
  have howner := (hframe d.findConfig).1
  rw [Ledger.set_self] at howner
  obtain ⟨hstored, -, -⟩ := exitAccount_spec howner hexit
  refine ⟨config, authority, rest, rfl, hsigner, configAt_of_system hsys, hstored, ?_,
    initAccount_payer d.programId_ne hinit⟩
  rw [exitAccount_lamports hexit]
  exact initAccount_settles hinit

/-- `update_config` finds its signer's and leaves the new terms. -/
theorem updateConfig_config {registerFee addKeyFee : UInt64} {treasury : Pubkey}
    (h : (execute d env accounts (.updateConfig registerFee addKeyFee treasury) l).Returns l') :
    ∃ config authority rest cfg, accounts = config :: authority :: rest ∧
      authority.isSigner = true ∧ configOf d l = some cfg ∧ cfg.authority = authority.pubkey ∧
      configOf d l' = some ⟨authority.pubkey, treasury, registerFee, addKeyFee⟩ ∧
      lamportsOf l' = lamportsOf l := by
  simp only [execute, returns_bind] at h
  obtain ⟨ctx, hctx, cfg, hcfg, hexit⟩ := h
  obtain ⟨config, authority, rest, rfl, hsigner, hkey, hfound, hauth⟩ :=
    updateConfig_tryAccounts hctx
  simp only [updateConfig, returns_bind, returns_msg, returns_pure, exists_const,
    true_and] at hcfg
  subst hcfg
  rw [hkey] at hexit
  obtain ⟨hstored, -, -⟩ := exitAccount_spec (accountAt_eq_some.mp hfound).1 hexit
  refine ⟨config, authority, rest, ctx.config, rfl, hsigner, hfound, hauth, ?_,
    exitAccount_lamports hexit⟩
  -- the handler writes the same authority back
  rw [← hauth]
  exact hstored

/-- The other instructions leave the config alone. -/
def GuardInstruction.SetsConfig : GuardInstruction → Prop
  | .initConfig _ _ _ => True
  | .updateConfig _ _ _ => True
  | _ => False

/-- A registration creates another account; the config stays. -/
theorem registerPasskey_config {keyKind : KeyKind} {pubkeyBytes credentialId : Bytes}
    (h : (execute d env accounts (.registerPasskey keyKind pubkeyBytes credentialId) l).Returns
      l') :
    configOf d l' = configOf d l := by
  have heffect := registerPasskey_effect h
  simp only [execute, returns_bind] at h
  obtain ⟨⟨ctx, l₁⟩, hctx, -, -, -⟩ := h
  obtain ⟨hnames, hkey, hinit⟩ := registerPasskey_tryAccounts hctx
  cases heffect with
  | registerPasskey w r names valid found empty stores =>
    obtain ⟨-, rfl⟩ := names.unique hnames
    refine stores.configOf_eq ?_
    rw [← hkey]
    -- `init_if_needed` found the registry, or took a system account
    rcases initIfNeeded_spec hinit with ⟨hr, -⟩ | ⟨hsys, -, -⟩
    · exact configAt_of_registryAt hr
    · exact configAt_of_system hsys

/-- So does every instruction but the two that set it. -/
theorem configOf_execute {ix : GuardInstruction} (hix : ¬ix.SetsConfig)
    (h : (execute d env accounts ix l).Returns l') : configOf d l' = configOf d l := by
  cases execute_effect h with
  | initConfig same => exact absurd trivial hix
  | updateConfig same => exact absurd trivial hix
  | registerPasskey w r names valid found empty stores => exact registerPasskey_config h
  | recoverRegistry w r names valid found stores =>
    exact stores.configOf_eq (configAt_of_registryAt found)
  | addPasskey w r names valid found room verified stores =>
    exact stores.configOf_eq (configAt_of_registryAt found)
  | removePasskey w r names found several verified shorter stores =>
    exact stores.configOf_eq (configAt_of_registryAt found)
  | recordProof same => rw [same]
  | enforceFree idle evaluable same => rw [same]
  | enforceProof w key r names fires found owner_eq verified stores =>
    exact stores.configOf_eq (configAt_of_registryAt found)

/-! ## Governance -/

/-- The operation of an executed call. -/
theorem configOp_executed {c : Call} {ix : GuardInstruction} {w : Pubkey} (hix : c.Is ix)
    (howner : c.owner? = some w) : configOp (.executed c) = ix.configOp w := by
  unfold Call.Is Returns at hix
  rw [configOp, hix, howner]

/-- Calls that set no config are idle. -/
theorem configOp_idle {c : Call} {ix : GuardInstruction} (hix : c.Is ix) (hsets : ¬ix.SetsConfig) :
    configOp (.executed c) = .idle := by
  cases howner : c.owner? with
  | none =>
    unfold Call.Is Returns at hix
    rw [configOp, hix, howner]
  | some w =>
    rw [configOp_executed hix howner]
    cases ix with
    | initConfig registerFee addKeyFee treasury => exact absurd trivial hsets
    | updateConfig registerFee addKeyFee treasury => exact absurd trivial hsets
    | _ => rfl

/-- The second account of a list. -/
theorem Call.owner_cons {c : Call} {first second : AccountMeta} {rest : List AccountMeta}
    (h : c.accounts = first :: second :: rest) : c.owner? = some second.pubkey := by
  rw [Call.owner?, h]
  rfl

/-- Other programs neither make nor change a config. -/
theorem external_configOf (h : Ledger.External d.programId l l') :
    configOf d l' = configOf d l :=
  accountAt_external h (by decide) _

/-- Every step of the chain is a step of the owned value. -/
theorem config_step (h : Step d l a l') :
    Owned.Step (governed (configOf d l)) (configOp a) (governed (configOf d l')) := by
  cases h with
  | rolledBack c => exact .idle _
  | other h =>
    rw [external_configOf h]
    exact .idle _
  | @executed _ c h =>
    obtain ⟨ix, hix, hrun⟩ := returns_bind.mp h
    by_cases hsets : ix.SetsConfig
    · cases ix with
      | initConfig registerFee addKeyFee treasury =>
        obtain ⟨config, authority, rest, haccounts, -, hbefore, hafter, -⟩ :=
          initConfig_config hrun
        rw [configOp_executed hix (Call.owner_cons haccounts), hbefore, hafter]
        exact .init _ _
      | updateConfig registerFee addKeyFee treasury =>
        obtain ⟨config, authority, rest, cfg, haccounts, -, hbefore, hauth, hafter, -⟩ :=
          updateConfig_config hrun
        rw [configOp_executed hix (Call.owner_cons haccounts), hbefore, hafter, ← hauth]
        exact .update _ _ _
      | _ => exact absurd hsets id
    · rw [configOp_idle hix hsets, configOf_execute hsets hrun]
      exact .idle _

/-- A step on behalf of `w` was signed by `w`. -/
def SignedBy (w : Pubkey) (a : Label) : Prop :=
  ∃ c m, a = .executed c ∧ c.accounts[1]? = some m ∧ m.isSigner = true ∧ m.pubkey = w

/-- Who sets or updates the config signed the call. -/
theorem signed_config {w : Pubkey} {terms : Terms} (h : Step d l a l')
    (hop : configOp a = .init w terms ∨ configOp a = .update w terms) : SignedBy w a := by
  cases h with
  | rolledBack c => rcases hop with hop | hop <;> cases hop
  | other h => rcases hop with hop | hop <;> cases hop
  | @executed _ c h =>
    obtain ⟨ix, hix, hrun⟩ := returns_bind.mp h
    have hsigned : ∀ {config authority : AccountMeta} {rest : List AccountMeta},
        c.accounts = config :: authority :: rest → authority.isSigner = true →
        authority.pubkey = w → SignedBy w (.executed c) := fun haccounts hsigner heq =>
      ⟨c, _, rfl, by rw [haccounts]; rfl, hsigner, heq⟩
    cases ix with
    | initConfig registerFee addKeyFee treasury =>
      obtain ⟨config, authority, rest, haccounts, hsigner, -⟩ := initConfig_config hrun
      rw [configOp_executed hix (Call.owner_cons haccounts)] at hop
      refine hsigned haccounts hsigner ?_
      rcases hop with hop | hop
      · exact (Owned.Op.init.inj hop).1
      · cases hop
    | updateConfig registerFee addKeyFee treasury =>
      obtain ⟨config, authority, rest, cfg, haccounts, hsigner, -⟩ := updateConfig_config hrun
      rw [configOp_executed hix (Call.owner_cons haccounts)] at hop
      refine hsigned haccounts hsigner ?_
      rcases hop with hop | hop
      · cases hop
      · exact (Owned.Op.update.inj hop).1
    | _ =>
      rw [configOp_idle hix id] at hop
      rcases hop with hop | hop <;> cases hop

/-! ## What a call pays -/

/-- The fee in force, to the treasury in force. -/
def feePayment (d : Deployment) (l : Ledger) (w : Pubkey) (fee : TranaConfig → UInt64) :
    List (Payment Pubkey) :=
  match configOf d l with
  | some cfg => [⟨w, cfg.treasury, (fee cfg).toNat⟩]
  | none => []

/-- What an instruction pays, from the wallet of its second account. -/
def GuardInstruction.payments (d : Deployment) (env : Env) (l : Ledger) (w : Pubkey) :
    GuardInstruction → List (Payment Pubkey)
  | .initConfig _ _ _ => [⟨w, d.findConfig,
      rentDue l env.minimumBalance d.findConfig TranaConfig.layout.space⟩]
  | .registerPasskey _ _ _ => ⟨w, d.findRegistry w,
      rentDue l env.minimumBalance (d.findRegistry w) PasskeyRegistry.layout.space⟩ ::
      feePayment d l w TranaConfig.registerFee
  | .addPasskey _ _ _ => feePayment d l w TranaConfig.addKeyFee
  | _ => []

/-- The payments of a call: those of its instruction, by its owner. -/
def Call.payments (d : Deployment) (l : Ledger) (c : Call) : List (Payment Pubkey) :=
  match (parseInstruction c.data).result, c.owner? with
  | .ok ix, some w => ix.payments d c.env l w
  | _, _ => []

/-- Written out for a call that parses. -/
theorem Call.payments_eq {c : Call} {ix : GuardInstruction} {w : Pubkey} (hix : c.Is ix)
    (howner : c.owner? = some w) : c.payments d l = ix.payments d c.env l w := by
  unfold Call.Is Returns at hix
  rw [Call.payments, hix, howner]

/-- With a config there is one payment, to its treasury. -/
theorem feePayment_eq {cfg : TranaConfig} (h : configOf d l = some cfg) (w : Pubkey)
    (fee : TranaConfig → UInt64) :
    feePayment d l w fee = [⟨w, cfg.treasury, (fee cfg).toNat⟩] := by
  rw [feePayment, h]

/-- Collecting a fee moves it from payer to treasury. A fee of zero moves nothing,
and the source skips the transfer. -/
theorem collectFee_settles {payer dst : Pubkey} {fee : UInt64}
    (h : (collectFee l payer dst fee).Returns l') :
    Settles (lamportsOf l) (lamportsOf l') [⟨payer, dst, fee.toNat⟩] := by
  unfold collectFee at h
  -- `if fee > 0`: a transfer, which fails for an account that is not the system's
  split at h
  next =>
    simp only [invokeTransfer, returns_okOr] at h
    exact transfer_settles h
  next hfee =>
    obtain rfl := returns_pure.mp h
    have hzero : fee = 0 := UInt64.le_zero_iff.mp (UInt64.not_lt.mp hfee)
    rw [hzero]
    exact settles_zero _ _ _

/-- A wallet that pays is a system account. -/
theorem collectFee_payer {payer dst : Pubkey} {fee : UInt64}
    (h : (collectFee l payer dst fee).Returns l') (hpos : 0 < fee.toNat) :
    (l payer).owner = systemProgramId := by
  have hfee : fee > 0 := UInt64.lt_iff_toNat_lt.mpr hpos
  rw [collectFee, if_pos hfee] at h
  simp only [invokeTransfer, returns_okOr] at h
  exact transfer_payer h

/-- There is no fee, or the payer can pay it. -/
def CanPay (l : Ledger) (payer dst : Pubkey) (fee : UInt64) : Prop :=
  fee = 0 ∨ Affords l payer dst fee

/-- The fee is collected exactly when the payer can pay it. -/
theorem collectFee_succeeds {payer dst : Pubkey} {fee : UInt64} :
    (∃ l', (collectFee l payer dst fee).Returns l') ↔ CanPay l payer dst fee := by
  unfold collectFee
  by_cases hfee : fee = 0
  · rw [if_neg (by rw [hfee]; decide)]
    exact ⟨fun _ => Or.inl hfee, fun _ => ⟨l, returns_pure.mpr rfl⟩⟩
  · rw [if_pos (UInt64.pos_iff_ne_zero.mpr hfee)]
    simp only [invokeTransfer, returns_okOr]
    rw [transfer_succeeds]
    exact ⟨Or.inr, fun h => h.resolve_left hfee⟩

/-- The treasury account that is passed to a registration is the config's, -/
theorem registerPasskey_treasury {ctx : RegisterPasskey}
    (h : (RegisterPasskey.tryAccounts d env accounts l).Returns (ctx, l')) :
    configOf d l = some ctx.config ∧ ctx.treasury = ctx.config.treasury := by
  unfold RegisterPasskey.tryAccounts at h
  split at h
  next registry owner systemProgram config treasury rest =>
    simp only [returns_bind, returns_constraintSeeds, returns_require, returns_pure,
      exists_const] at h
    obtain ⟨_, -, _, -, cfg, hload, -, ⟨reg, l₁⟩, -, _, -, _, -, hconfig, _, -, htreasury, hp⟩ := h
    obtain ⟨rfl, -⟩ := Prod.mk.inj hp
    have hfound := accountAt_of_load hload
    rw [hconfig] at hfound
    exact ⟨hfound, htreasury⟩
  next => simp [notEnoughKeys] at h

/-- and so is the one passed to `add_passkey`. -/
theorem addPasskey_treasury {ctx : AddPasskey}
    (h : (AddPasskey.tryAccounts d accounts l).Returns ctx) :
    configOf d l = some ctx.config ∧ ctx.treasury = ctx.config.treasury := by
  unfold AddPasskey.tryAccounts at h
  split at h
  next registry owner systemProgram config treasury instructions rest =>
    simp only [returns_bind, returns_constraintSeeds, returns_require, returns_pure,
      exists_const] at h
    obtain ⟨reg, -, _, -, _, -, cfg, hload, -, _, -, _, -, hconfig, _, -, htreasury, _, -, rfl⟩ := h
    have hfound := accountAt_of_load hload
    rw [hconfig] at hfound
    exact ⟨hfound, htreasury⟩
  next => simp [notEnoughKeys] at h

/-- A registration pays rent for a registry it creates, and the fee. -/
theorem registerPasskey_settles {keyKind : KeyKind} {pubkeyBytes credentialId : Bytes}
    (h : (execute d env accounts (.registerPasskey keyKind pubkeyBytes credentialId) l).Returns
      l') :
    ∃ w, Names accounts (d.findRegistry w) w ∧
      Settles (lamportsOf l) (lamportsOf l')
        (GuardInstruction.payments d env l w (.registerPasskey keyKind pubkeyBytes credentialId)) ∧
      PaidBy l w (GuardInstruction.payments d env l w
        (.registerPasskey keyKind pubkeyBytes credentialId)) := by
  simp only [execute, returns_bind] at h
  obtain ⟨⟨ctx, l₁⟩, hctx, ⟨r', l₂⟩, hrun, hexit⟩ := h
  obtain ⟨hnames, hkey, hinit⟩ := registerPasskey_tryAccounts hctx
  obtain ⟨hconfig, htreasury⟩ := registerPasskey_treasury hctx
  simp only [registerPasskey, returns_bind, returns_msg, returns_pure, exists_const,
    true_and] at hrun
  obtain ⟨_, -, _, -, l₃, hfee, hp⟩ := hrun
  obtain ⟨rfl, rfl⟩ := Prod.mk.inj hp
  have hrent := initIfNeeded_settles d.programId_ne hinit
  have hpayer := initIfNeeded_payer d.programId_ne hinit
  rw [hkey] at hrent hpayer hnames
  rw [htreasury] at hfee
  refine ⟨ctx.owner, hnames, ?_, ?_⟩
  -- rent first, then the fee; the exit moves nothing
  · rw [GuardInstruction.payments, feePayment_eq hconfig, exitAccount_lamports hexit]
    exact hrent.append (collectFee_settles hfee)
  · rw [GuardInstruction.payments, feePayment_eq hconfig]
    -- without rent to pay, only a fee makes the wallet a payer
    rcases hpayer with ⟨rfl, hnone⟩ | hwallet
    · exact .cons rfl (fun hpos => absurd hnone (Nat.ne_of_gt hpos))
        (.cons rfl (collectFee_payer hfee) (paidBy_nil _ _))
    · exact .cons rfl (fun _ => hwallet) (.cons rfl (fun _ => hwallet) (paidBy_nil _ _))

/-- Adding a key pays the fee only. -/
theorem addPasskey_settles {keyKind : KeyKind} {pubkeyBytes credentialId : Bytes}
    (h : (execute d env accounts (.addPasskey keyKind pubkeyBytes credentialId) l).Returns l') :
    ∃ w, Names accounts (d.findRegistry w) w ∧
      Settles (lamportsOf l) (lamportsOf l')
        (GuardInstruction.payments d env l w (.addPasskey keyKind pubkeyBytes credentialId)) ∧
      PaidBy l w
        (GuardInstruction.payments d env l w (.addPasskey keyKind pubkeyBytes credentialId)) := by
  simp only [execute, returns_bind] at h
  obtain ⟨ctx, hctx, ⟨r', l₁⟩, hrun, hexit⟩ := h
  obtain ⟨hnames, hkey, -⟩ := addPasskey_tryAccounts hctx
  obtain ⟨hconfig, htreasury⟩ := addPasskey_treasury hctx
  simp only [addPasskey, returns_bind, returns_msg, returns_pure, exists_const, true_and] at hrun
  obtain ⟨_, -, _, -, r, -, l₂, hfee, hp⟩ := hrun
  obtain ⟨rfl, rfl⟩ := Prod.mk.inj hp
  rw [htreasury] at hfee
  refine ⟨ctx.owner, hkey ▸ hnames, ?_, ?_⟩
  · rw [GuardInstruction.payments, feePayment_eq hconfig, exitAccount_lamports hexit]
    exact collectFee_settles hfee
  · rw [GuardInstruction.payments, feePayment_eq hconfig]
    exact .cons rfl (collectFee_payer hfee) (paidBy_nil _ _)

/-- Every instruction moves what it pays and nothing else; who pays signed. -/
theorem execute_settles {ix : GuardInstruction} (h : (execute d env accounts ix l).Returns l') :
    lamportsOf l' = lamportsOf l ∧ (∀ w, ix.payments d env l w = []) ∨
    ∃ w m, accounts[1]? = some m ∧ m.isSigner = true ∧ m.pubkey = w ∧
      Settles (lamportsOf l) (lamportsOf l') (ix.payments d env l w) ∧
      PaidBy l w (ix.payments d env l w) := by
  cases ix with
  | initConfig registerFee addKeyFee treasury =>
    obtain ⟨config, authority, rest, rfl, hsigner, -, -, hsettles, hwallet⟩ := initConfig_config h
    exact Or.inr ⟨_, authority, rfl, hsigner, rfl, hsettles,
      .cons rfl (fun _ => hwallet) (paidBy_nil _ _)⟩
  | updateConfig registerFee addKeyFee treasury =>
    obtain ⟨config, authority, rest, cfg, -, -, -, -, -, hsame⟩ := updateConfig_config h
    exact Or.inl ⟨hsame, fun _ => rfl⟩
  | registerPasskey keyKind pubkeyBytes credentialId =>
    obtain ⟨w, hnames, hsettles, hpaid⟩ := registerPasskey_settles h
    obtain ⟨m, hm, hsigner, hw⟩ := hnames.owner
    exact Or.inr ⟨w, m, hm, hsigner, hw, hsettles, hpaid⟩
  | recoverRegistry keyKind pubkeyBytes credentialId =>
    simp only [execute, returns_bind] at h
    obtain ⟨ctx, -, r, -, hexit⟩ := h
    exact Or.inl ⟨exitAccount_lamports hexit, fun _ => rfl⟩
  | addPasskey keyKind pubkeyBytes credentialId =>
    obtain ⟨w, hnames, hsettles, hpaid⟩ := addPasskey_settles h
    obtain ⟨m, hm, hsigner, hw⟩ := hnames.owner
    exact Or.inr ⟨w, m, hm, hsigner, hw, hsettles, hpaid⟩
  | removePasskey credentialId =>
    simp only [execute, returns_bind] at h
    obtain ⟨ctx, -, r, -, hexit⟩ := h
    exact Or.inl ⟨exitAccount_lamports hexit, fun _ => rfl⟩
  | recordProof proof =>
    simp only [execute, returns_bind, returns_pure] at h
    obtain ⟨_, -, _, -, rfl⟩ := h
    exact Or.inl ⟨rfl, fun _ => rfl⟩
  | enforce policy =>
    -- `enforce` moves nothing, whether it fires or not
    obtain ⟨hkept, -⟩ := enforce_frame h
    exact Or.inl ⟨funext fun k => congrArg UInt64.toNat (hkept k).1, fun _ => rfl⟩

/-- What a successful call pays is paid by its second account, which signed. -/
theorem call_payer {c : Call} (h : (process d c.env c.accounts c.data l).Returns l') :
    Settles (lamportsOf l) (lamportsOf l') (c.payments d l) ∧
      (c.payments d l = [] ∨ ∃ w, SignedBy w (.executed c) ∧ PaidBy l w (c.payments d l)) := by
  obtain ⟨ix, hix, hrun⟩ := returns_bind.mp h
  rcases execute_settles hrun with ⟨hsame, hnone⟩ | ⟨w, m, hm, hsigner, rfl, hsettles, hpaid⟩
  · have hpayments : c.payments d l = [] := by
      cases howner : c.owner? with
      | none =>
        rw [Returns] at hix
        rw [Call.payments, hix, howner]
      | some w => rw [Call.payments_eq hix howner, hnone]
    rw [hpayments, hsame]
    exact ⟨.refl _, Or.inl rfl⟩
  · have howner : c.owner? = some m.pubkey := by
      rw [Call.owner?, hm]
      rfl
    rw [Call.payments_eq hix howner]
    exact ⟨hsettles, Or.inr ⟨m.pubkey, ⟨c, m, rfl, hm, hsigner, rfl⟩, hpaid⟩⟩

/-- A successful call moves the lamports of its payments, and no others. -/
theorem call_settles {c : Call} (h : (process d c.env c.accounts c.data l).Returns l') :
    Settles (lamportsOf l) (lamportsOf l') (c.payments d l) := (call_payer h).1

/-- Whoever pays signed the transaction. -/
theorem payer_signed {c : Call} (h : (process d c.env c.accounts c.data l).Returns l')
    {p : Payment Pubkey} (hp : p ∈ c.payments d l) : SignedBy p.source (.executed c) := by
  rcases (call_payer h).2 with hnone | ⟨w, hsigned, hpaid⟩
  · rw [hnone] at hp
    cases hp
  · rw [(hpaid p hp).1]
    exact hsigned

/-- No account of a program pays for a call. -/
theorem paid_eq_zero {c : Call} (h : (process d c.env c.accounts c.data l).Returns l')
    {k : Pubkey} (hk : (l k).owner ≠ systemProgramId) : Payment.paid k (c.payments d l) = 0 := by
  rcases (call_payer h).2 with hnone | ⟨w, -, hpaid⟩
  · rw [hnone]
    rfl
  · exact hpaid.paid_eq_zero hk

/-- A chain starts without a config. -/
theorem configOf_genesis (h : Ledger.Genesis d.programId l) : configOf d l = none :=
  accountAt_zeros (fun howner => h _ howner) (by decide)

end Config

end Trana.Guard
