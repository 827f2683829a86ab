import Trana.Security.KeyScripts

/-!
# The first key

The demo and `register-passkey.mjs` send the same instruction for a wallet's first
key; the script does so only where there is no account yet. What the wallet needs
for it is a vacant registry address, or a registry that ran out of keys, and the
lamports for everything that is taken from it, in this order: the transaction fee,
the rent of the registry, the guard's fee.

The instruction alone asks for the last two (`CanCreate`, `CanReuse`); with the
transaction fee in front, and with rent looked at afterwards, that is `CanRegister`
and `CanReopen`. In all of them the threshold is one sum: what the wallet has must
cover the three together, and must not be left below the rent minimum itself unless
it is emptied.

> The registry's rent is what its address *lacks*: lamports that somebody sent there
> before are not asked of the wallet again. The script stops in this case, the
> instruction does not.

The wallet's address is not the registry's, and the treasury is not the registry;
both are assumptions on derived addresses.

* `canCreate_iff` — rent, then fee, out of one balance.
* `execute_registerPasskey_iff` — the instruction.
* `registration_lands_iff` — the transaction.
* `registration_succeeds_iff` — the demo's and the script's.
-/

namespace Trana.Security

open Trana.Lib Trana.Lib.Exec Trana.Solana Trana.Guard
open Trana.Scripts (P256 Keypair Lands RunsCharged pubkeyBytes)
open Trana.Landing (AccountInfo)

section Funds

variable {d : Guard.Deployment} {l : Ledger} {minimumBalance : ℕ → UInt64} {w : Pubkey}
  {cfg : TranaConfig}

/-- A vacant address, and a wallet with the rent and the fee. -/
structure CanCreate (d : Guard.Deployment) (minimumBalance : ℕ → UInt64) (l : Ledger)
    (w : Pubkey) (cfg : TranaConfig) : Prop where
  vacant : (l (d.findRegistry w)).owner = systemProgramId
  empty : (l (d.findRegistry w)).data = []
  owner : (l w).owner = systemProgramId
  data : (l w).data = []
  covered : rentDue l minimumBalance (d.findRegistry w) PasskeyRegistry.layout.space +
    cfg.registerFee.toNat ≤ lamportsOf l w
  room : cfg.treasury = w ∨ lamportsOf l cfg.treasury + cfg.registerFee.toNat < 2 ^ 64

/-- The new account takes its rent from the wallet and nothing from anyone else. -/
theorem funded_init {l₁ : Ledger} (hw : w ≠ d.findRegistry w)
    (htreasury : cfg.treasury ≠ d.findRegistry w)
    (h : l.initAccount minimumBalance w (d.findRegistry w) d.programId
      PasskeyRegistry.layout.space = some l₁) :
    ((l₁ w).owner = (l w).owner ∧ (l₁ w).data = (l w).data) ∧
    lamportsOf l₁ w + rentDue l minimumBalance (d.findRegistry w) PasskeyRegistry.layout.space =
      lamportsOf l w ∧
    (cfg.treasury ≠ w → lamportsOf l₁ cfg.treasury = lamportsOf l cfg.treasury) := by
  have hframe := (Ledger.initAccount_frame h).2 w
  rw [Ledger.set_of_ne _ hw] at hframe
  have hsettles := initAccount_settles h
  refine ⟨hframe, ?_, fun hne => ?_⟩
  · have hwallet := hsettles w
    simpa [Payment.paid_cons, Payment.received_cons, Ne.symm hw] using hwallet
  · have hother := hsettles cfg.treasury
    simpa [Payment.paid_cons, Payment.received_cons, Ne.symm htreasury, Ne.symm hne] using hother

theorem canCreate_iff (hw : w ≠ d.findRegistry w) (htreasury : cfg.treasury ≠ d.findRegistry w) :
    (∃ l₁, l.initAccount minimumBalance w (d.findRegistry w) d.programId
        PasskeyRegistry.layout.space = some l₁ ∧ CanPay l₁ w cfg.treasury cfg.registerFee) ↔
      CanCreate d minimumBalance l w cfg := by
  constructor
  · intro h
    obtain ⟨l₁, hinit, hpays⟩ := h
    have hcan := (initAccount_succeeds d.programId_ne).mp ⟨l₁, hinit⟩
    obtain ⟨-, hwallet, hother⟩ := funded_init hw htreasury hinit
    rcases hpays with hzero | haffords
    -- a fee of zero is not transferred, so nothing is asked of the treasury
    · have hfee : cfg.registerFee.toNat = 0 := by rw [hzero]; rfl
      have hlt := (l cfg.treasury).lamports.toNat_lt
      refine ⟨hcan.vacant, hcan.empty, hcan.owner, hcan.data, ?_, Or.inr ?_⟩
      · rw [hfee]
        exact hcan.covered
      · rw [hfee]
        exact hlt
    -- rent and fee are taken one after the other, and have to be there together
    · have hcovered := UInt64.le_iff_toNat_le.mp haffords.covered
      refine ⟨hcan.vacant, hcan.empty, hcan.owner, hcan.data, ?_, ?_⟩
      · unfold lamportsOf at hwallet ⊢
        omega
      · by_cases hself : cfg.treasury = w
        · exact Or.inl hself
        · rw [← hother hself]
          exact Or.inr (haffords.room hself)
  · intro h
    have hrent : rentDue l minimumBalance (d.findRegistry w) PasskeyRegistry.layout.space ≤
        lamportsOf l w := Nat.le_trans (Nat.le_add_right _ _) h.covered
    obtain ⟨l₁, hinit⟩ := (initAccount_succeeds d.programId_ne).mpr
      ⟨h.vacant, h.empty, hw, h.owner, h.data, hrent⟩
    obtain ⟨⟨howner, hdata⟩, hwallet, hother⟩ := funded_init hw htreasury hinit
    refine ⟨l₁, hinit, Or.inr ⟨howner.trans h.owner, hdata.trans h.data, ?_, fun hne => ?_⟩⟩
    · have hcovered := h.covered
      rw [UInt64.le_iff_toNat_le]
      unfold lamportsOf at hwallet hcovered
      omega
    · show lamportsOf l₁ cfg.treasury + _ < _
      rw [hother hne]
      exact h.room.resolve_left hne

end Funds

/-! ## The instruction -/

section Instruction

variable {d : Guard.Deployment} {env : Env} {accounts : List AccountMeta} {l l₁ : Ledger}
  {w treasury : Pubkey} {r : PasskeyRegistry} {keyKind : KeyKind} {pubkey credentialId : Bytes}

/-- A registry is found, with its size and its rent, or made. -/
theorem returns_initRegistryIfNeeded :
    (initRegistryIfNeeded d env w (d.findRegistry w) l).Returns (r, l₁) ↔
      (r = PasskeyRegistry.blank ∧ l.initAccount env.minimumBalance w (d.findRegistry w)
        d.programId PasskeyRegistry.layout.space = some l₁) ∨
      (registryOf d l w = some r ∧
        (l (d.findRegistry w)).data.length = PasskeyRegistry.layout.space ∧
        env.minimumBalance PasskeyRegistry.layout.space ≤ (l (d.findRegistry w)).lamports ∧
        l₁ = l) := by
  constructor
  · intro h
    rcases initIfNeeded_spec h with ⟨hfound, rfl⟩ | ⟨-, hinit, hread⟩
    -- found: an account of the program is loaded and checked for its size and its rent
    · right
      have hne : (l₁ (d.findRegistry w)).owner ≠ systemProgramId := by
        rw [(registryAt_eq_some.mp hfound).1]
        exact d.programId_ne
      rw [initRegistryIfNeeded, initIfNeeded, if_neg hne] at h
      simp only [returns_bind, returns_require, returns_pure, exists_const] at h
      obtain ⟨-, -, hsize, hrent, -⟩ := h
      exact ⟨hfound, hsize, hrent, rfl⟩
    -- made: a vacant address, whose account then reads as the blank registry
    · left
      rw [PasskeyRegistry.tryDeserializeUnchecked_blank] at hread
      exact ⟨(Except.ok.inj hread).symm, hinit⟩
  · intro h
    rcases h with ⟨rfl, hinit⟩ | ⟨hfound, hsize, hrent, rfl⟩
    · obtain ⟨hsys, hframe⟩ := Ledger.initAccount_frame hinit
      have hdata := (hframe (d.findRegistry w)).2
      rw [Ledger.set_self] at hdata
      rw [initRegistryIfNeeded, initIfNeeded, if_pos hsys]
      simp only [returns_bind, returns_okOr, returns_liftAnchor, returns_pure]
      refine ⟨l₁, hinit, PasskeyRegistry.blank, ?_, rfl⟩
      rw [hdata]
      exact PasskeyRegistry.tryDeserializeUnchecked_blank
    · have hne : (l₁ (d.findRegistry w)).owner ≠ systemProgramId := by
        rw [(registryAt_eq_some.mp hfound).1]
        exact d.programId_ne
      rw [initRegistryIfNeeded, initIfNeeded, if_neg hne]
      simp only [returns_bind, returns_require, returns_pure, exists_const]
      exact ⟨r, returns_loadAccount_of hfound, hsize, hrent, rfl⟩

theorem execute_registerPasskey_iff (hl : Fitting d l) :
    (∃ l', (execute d env accounts (.registerPasskey keyKind pubkey credentialId)
        l).Returns l') ↔
      ∃ ctx l₁, (RegisterPasskey.tryAccounts d env accounts l).Returns (ctx, l₁) ∧
        ValidKeyInputs pubkey credentialId ∧ ctx.registry.keys = [] ∧
        CanPay l₁ ctx.owner ctx.treasury ctx.config.registerFee := by
  constructor
  · intro h
    obtain ⟨l', h⟩ := h
    obtain ⟨⟨ctx, l₁⟩, hctx, h⟩ := returns_bind.mp h
    obtain ⟨⟨r, l₂⟩, h, -⟩ := returns_bind.mp h
    simp only [Guard.registerPasskey, returns_bind, returns_validateKeyInputs, returns_require,
      exists_const] at h
    obtain ⟨hvalid, hempty, l₂, hfee, -⟩ := h
    exact ⟨ctx, l₁, hctx, hvalid, List.isEmpty_iff.mp hempty, collectFee_succeeds.mp ⟨l₂, hfee⟩⟩
  · intro h
    obtain ⟨ctx, l₁, hctx, hvalid, hempty, hpays⟩ := h
    obtain ⟨l₂, hfee⟩ := collectFee_succeeds.mpr hpays
    have hhandler : (Guard.registerPasskey ctx keyKind pubkey credentialId l₁).Returns
        ({ ctx.registry with
          owner := ctx.owner
          keys := ctx.registry.keys ++ [⟨keyKind, pubkey, credentialId⟩] }, l₂) := by
      simp only [Guard.registerPasskey, returns_bind, returns_validateKeyInputs, returns_require,
        returns_msg, returns_pure, exists_const, true_and]
      exact ⟨hvalid, List.isEmpty_iff.mpr hempty, l₂, hfee, rfl⟩
    have hwrites : Writes d env accounts l (.registerPasskey keyKind pubkey credentialId) l₂ _ _ :=
      .registerPasskey hctx hhandler
    obtain ⟨l', hreturns, -⟩ := hwrites.succeeds hl
    exact ⟨l', hreturns⟩

theorem registerIx_context {data : Bytes} {ctx : RegisterPasskey} :
    (RegisterPasskey.tryAccounts d env (Scripts.registerIx d w treasury data).accounts l).Returns
        (ctx, l₁) ↔
      ∃ r cfg, configOf d l = some cfg ∧ treasury = cfg.treasury ∧
        (initRegistryIfNeeded d env w (d.findRegistry w) l).Returns (r, l₁) ∧
        ctx = ⟨d.findRegistry w, r, w, cfg, treasury⟩ := by
  constructor
  · intro h
    obtain ⟨hconfig, -⟩ := registerPasskey_treasury h
    simp only [Scripts.registerIx, RegisterPasskey.tryAccounts, returns_bind, returns_signer,
      returns_programAccount, returns_constraintSeeds, returns_constraintMut, returns_require,
      returns_pure, exists_const, true_and] at h
    obtain ⟨w', rfl, cfg, hcfg, -, ⟨r, l₂⟩, hinit, htreasury, hp⟩ := h
    obtain ⟨rfl, rfl⟩ := Prod.mk.inj hp
    exact ⟨r, cfg, hconfig, htreasury, hinit, rfl⟩
  · intro h
    obtain ⟨r, cfg, hcfg, htreasury, hinit, rfl⟩ := h
    simp only [Scripts.registerIx, RegisterPasskey.tryAccounts, returns_bind, returns_signer,
      returns_programAccount, returns_constraintSeeds, returns_constraintMut, returns_require,
      returns_pure, exists_const, true_and]
    exact ⟨w, rfl, cfg, load_of_accountAt d.programId_ne hcfg, rfl, (r, l₁), hinit, htreasury, rfl⟩

/-- A registry that ran out of keys, still rent exempt. -/
structure CanReuse (d : Guard.Deployment) (minimumBalance : ℕ → UInt64) (l : Ledger)
    (w : Pubkey) (cfg : TranaConfig) : Prop where
  empty : ∃ r, registryOf d l w = some r ∧ r.keys = []
  exempt : minimumBalance PasskeyRegistry.layout.space ≤ (l (d.findRegistry w)).lamports
  fee : CanPay l w cfg.treasury cfg.registerFee

/-- With the config's treasury. -/
theorem execute_registerIx_iff (hl : Fitting d l) (hw : w ≠ d.findRegistry w)
    (htreasury : ∀ cfg, configOf d l = some cfg → cfg.treasury ≠ d.findRegistry w)
    {data : Bytes} :
    (∃ l', (execute d env (Scripts.registerIx d w treasury data).accounts
        (.registerPasskey keyKind pubkey credentialId) l).Returns l') ↔
      ∃ cfg, configOf d l = some cfg ∧ treasury = cfg.treasury ∧
        ValidKeyInputs pubkey credentialId ∧
        (CanCreate d env.minimumBalance l w cfg ∨ CanReuse d env.minimumBalance l w cfg) := by
  rw [execute_registerPasskey_iff hl]
  constructor
  · intro h
    obtain ⟨ctx, l₁, hctx, hvalid, hempty, hpays⟩ := h
    obtain ⟨r, cfg, hcfg, rfl, hinit, rfl⟩ := registerIx_context.mp hctx
    refine ⟨cfg, hcfg, rfl, hvalid, ?_⟩
    rcases returns_initRegistryIfNeeded.mp hinit with ⟨-, hinit⟩ | ⟨hr, -, hexempt, rfl⟩
    · exact Or.inl ((canCreate_iff hw (htreasury cfg hcfg)).mp ⟨l₁, hinit, hpays⟩)
    -- the registry that was found is one that lost its keys; it is used as it is
    · exact Or.inr ⟨⟨r, hr, hempty⟩, hexempt, hpays⟩
  · intro h
    obtain ⟨cfg, hcfg, rfl, hvalid, hcan⟩ := h
    rcases hcan with hnew | ⟨⟨r, hr, hempty⟩, hexempt, hpays⟩
    · obtain ⟨l₁, hinit, hpays⟩ := (canCreate_iff hw (htreasury cfg hcfg)).mpr hnew
      exact ⟨_, l₁, registerIx_context.mpr ⟨_, cfg, hcfg, rfl,
        returns_initRegistryIfNeeded.mpr (Or.inl ⟨rfl, hinit⟩), rfl⟩, hvalid, rfl, hpays⟩
    · exact ⟨_, l, registerIx_context.mpr ⟨r, cfg, hcfg, rfl, returns_initRegistryIfNeeded.mpr
        (Or.inr ⟨hr, (hl _ r hr).size, hexempt, rfl⟩), rfl⟩, hvalid, hempty, hpays⟩

end Instruction

/-! ## The transaction -/

section Transaction

variable {d : Guard.Deployment} {l l' : Ledger} {cluster : Cluster} {w : Pubkey}
  {cfg : TranaConfig}

/-- What a new registry costs the wallet. -/
def registryRent (cluster : Cluster) (d : Guard.Deployment) (l : Ledger) (w : Pubkey) : ℕ :=
  rentDue l cluster.minimumBalance (d.findRegistry w) PasskeyRegistry.layout.space

/-- A vacant address, and a wallet that covers transaction fee, rent and fee. -/
structure CanRegister (cluster : Cluster) (d : Guard.Deployment) (l : Ledger) (w : Pubkey)
    (cfg : TranaConfig) : Prop where
  vacant : (l (d.findRegistry w)).owner = systemProgramId
  empty : (l (d.findRegistry w)).data = []
  settles : CanSettle cluster.minimumBalance l w cfg.treasury cluster.lamportsPerSignature
    (registryRent cluster d l w) cfg.registerFee.toNat

/-- A registry that ran out of keys, and a wallet that covers the two fees. -/
structure CanReopen (cluster : Cluster) (d : Guard.Deployment) (l : Ledger) (w : Pubkey)
    (cfg : TranaConfig) : Prop where
  empty : ∃ r, registryOf d l w = some r ∧ r.keys = []
  exempt : cluster.minimumBalance PasskeyRegistry.layout.space ≤
    (l (d.findRegistry w)).lamports
  settles : CanSettle cluster.minimumBalance l w cfg.treasury cluster.lamportsPerSignature 0
    cfg.registerFee.toNat

/-- Nothing is due for an account of the program. -/
theorem registryRent_of_found (cluster : Cluster) {r : PasskeyRegistry}
    (hr : registryOf d l w = some r) :
    registryRent cluster d l w = 0 := by
  have howner := (registryAt_eq_some.mp hr).1
  exact if_neg fun heq => d.programId_ne (howner.symm.trans heq)

/-- The charge is not taken from the registry's address. -/
theorem registryRent_charged (cluster : Cluster) (l : Ledger) (hw : w ≠ d.findRegistry w)
    (fee : ℕ) :
    registryRent cluster d (l.charged w fee) w = registryRent cluster d l w := by
  unfold registryRent rentDue
  rw [charged_of_ne hw.symm]

theorem canCreate_charged {fee : ℕ} (hw : w ≠ d.findRegistry w)
    (hcharge : CanCharge cluster.minimumBalance l w fee) :
    CanCreate d cluster.minimumBalance (l.charged w fee) w cfg ↔
      ((l (d.findRegistry w)).owner = systemProgramId ∧ (l (d.findRegistry w)).data = []) ∧
      fee + registryRent cluster d l w + cfg.registerFee.toNat ≤ lamportsOf l w ∧
      (cfg.treasury = w ∨ lamportsOf l cfg.treasury + cfg.registerFee.toNat < 2 ^ 64) := by
  have hregistry : l.charged w fee (d.findRegistry w) = l (d.findRegistry w) :=
    charged_of_ne hw.symm
  have hrent := registryRent_charged cluster l hw fee
  have hleft := lamportsOf_charged_self hcharge.covered
  have hcovers := hcharge.covered
  obtain ⟨howner, hdata⟩ := charged_sameState l w fee w
  have hother : cfg.treasury ≠ w →
      lamportsOf (l.charged w fee) cfg.treasury = lamportsOf l cfg.treasury := fun hne =>
    congrArg (fun a => a.lamports.toNat) (charged_of_ne hne)
  constructor
  · intro h
    obtain ⟨hvacant, hempty, -, -, hcovered, hroom⟩ := h
    rw [hregistry] at hvacant hempty
    change registryRent cluster d (l.charged w fee) w + _ ≤ _ at hcovered
    rw [hrent, hleft] at hcovered
    refine ⟨⟨hvacant, hempty⟩, by omega, ?_⟩
    -- the treasury may be the wallet's own, and has then what the wallet has left
    by_cases hself : cfg.treasury = w
    · exact Or.inl hself
    · rw [← hother hself]
      exact Or.inr (hroom.resolve_left hself)
  · intro h
    obtain ⟨⟨hvacant, hempty⟩, hcovered, hroom⟩ := h
    refine ⟨?_, ?_, howner.trans hcharge.owner, hdata.trans hcharge.data, ?_, ?_⟩
    · rw [hregistry]
      exact hvacant
    · rw [hregistry]
      exact hempty
    · change registryRent cluster d (l.charged w fee) w + _ ≤ _
      rw [hrent, hleft]
      omega
    · by_cases hself : cfg.treasury = w
      · exact Or.inl hself
      · rw [hother hself]
        exact Or.inr (hroom.resolve_left hself)

theorem canReuse_charged {fee : ℕ} (hw : w ≠ d.findRegistry w)
    (hcharge : CanCharge cluster.minimumBalance l w fee) :
    CanReuse d cluster.minimumBalance (l.charged w fee) w cfg ↔
      (∃ r, registryOf d l w = some r ∧ r.keys = []) ∧
      cluster.minimumBalance PasskeyRegistry.layout.space ≤ (l (d.findRegistry w)).lamports ∧
      fee + 0 + cfg.registerFee.toNat ≤ lamportsOf l w ∧
      (cfg.treasury = w ∨ lamportsOf l cfg.treasury + cfg.registerFee.toNat < 2 ^ 64) := by
  have hregistry : l.charged w fee (d.findRegistry w) = l (d.findRegistry w) :=
    charged_of_ne hw.symm
  have hkept := registryOf_charged d l w w fee
  constructor
  · intro h
    obtain ⟨hempty, hexempt, hpays⟩ := h
    rw [hkept] at hempty
    rw [hregistry] at hexempt
    exact ⟨hempty, hexempt, (canPay_charged hcharge).mp hpays⟩
  · intro h
    obtain ⟨hempty, hexempt, hpays⟩ := h
    rw [← hkept] at hempty
    rw [← hregistry] at hexempt
    exact ⟨hempty, hexempt, (canPay_charged hcharge).mpr hpays⟩

/-- The instruction that goes out. -/
def registration (d : Guard.Deployment) (w treasury : Pubkey) (pubkey credentialId : Bytes) :
    Instruction :=
  Scripts.registerIx d w treasury
    (Scripts.registerDisc ++ [0] ++ lenPrefixed 4 pubkey ++ lenPrefixed 4 credentialId)

section Effects

variable {env : Env} {treasury : Pubkey} {pubkey credentialId : Bytes} {r : PasskeyRegistry}

/-- The key is the wallet's first, the counter stays. -/
theorem registration_stores
    (hrun : (execute d env (registration d w treasury pubkey credentialId).accounts
      (.registerPasskey .secp256r1Passkey pubkey credentialId) l).Returns l') :
    Stores d l l' (d.findRegistry w) ⟨w, (registryOf d l w).elim 0 PasskeyRegistry.nonce,
      [⟨.secp256r1Passkey, pubkey, credentialId⟩]⟩ := by
  have hlisted : Names (registration d w treasury pubkey credentialId).accounts
      (d.findRegistry w) w := ⟨rfl, _, rfl, rfl, rfl⟩
  cases execute_effect hrun with
  | registerPasskey w' r names valid found empty stores =>
    obtain ⟨-, rfl⟩ := names.unique hlisted
    -- a blank registry starts at zero, one that was found keeps its nonce
    have hnonce : r.nonce = (registryOf d l w').elim 0 PasskeyRegistry.nonce := by
      rcases found with hr | ⟨hnone, rfl⟩
      · rw [hr]
        rfl
      · rw [hnone]
        rfl
    rw [hnonce] at stores
    exact stores

/-- The wallet pays the rent and the fee in force. -/
theorem registration_settles (henv : env.minimumBalance = cluster.minimumBalance)
    (hcfg : configOf d l = some cfg)
    (hrun : (execute d env (registration d w treasury pubkey credentialId).accounts
      (.registerPasskey .secp256r1Passkey pubkey credentialId) l).Returns l') :
    Settles (lamportsOf l) (lamportsOf l') [⟨w, d.findRegistry w, registryRent cluster d l w⟩,
      ⟨w, cfg.treasury, cfg.registerFee.toNat⟩] := by
  obtain ⟨w', names, hsettles, -⟩ := registerPasskey_settles hrun
  have hlisted : Names (registration d w treasury pubkey credentialId).accounts
      (d.findRegistry w) w := ⟨rfl, _, rfl, rfl, rfl⟩
  obtain ⟨-, rfl⟩ := names.unique hlisted
  rw [GuardInstruction.payments, feePayment_eq hcfg, henv] at hsettles
  exact hsettles

/-- The registry is not left short of rent: it is new, or its lamports stay. -/
theorem registration_rentKeptAt (hw : w ≠ d.findRegistry w)
    (htreasury : cfg.treasury ≠ d.findRegistry w)
    (hfound : (l (d.findRegistry w)).owner = systemProgramId ∨ registryOf d l w = some r)
    (hstores : Stores d l l' (d.findRegistry w) ⟨w, (registryOf d l w).elim 0 PasskeyRegistry.nonce,
      [⟨.secp256r1Passkey, pubkey, credentialId⟩]⟩)
    (hsettles : Settles (lamportsOf l) (lamportsOf l')
      [⟨w, d.findRegistry w, registryRent cluster d l w⟩,
        ⟨w, cfg.treasury, cfg.registerFee.toNat⟩]) :
    RentKeptAt cluster.minimumBalance l l' (d.findRegistry w) := by
  have hreceived := hsettles (d.findRegistry w)
  simp only [Payment.paid_cons, Payment.paid_nil, Payment.received_cons, Payment.received_nil,
    if_neg hw, if_neg htreasury, if_true, Nat.add_zero] at hreceived
  -- a new registry gets its rent from the wallet, one that was there is not touched
  rcases hfound with hvacant | hr
  · have hsize : (l' (d.findRegistry w)).data.length = PasskeyRegistry.layout.space := by
      rw [AccountLayout.trySerialize_length hstores.image, baseData,
        if_neg fun heq => d.programId_ne (heq.symm.trans hvacant), List.length_replicate]
    refine rentKeptAt_of_exempt ?_
    rw [hsize]
    rw [registryRent, rentDue, if_pos hvacant] at hreceived
    unfold lamportsOf at hreceived ⊢
    omega
  · rw [registryRent_of_found cluster hr, Nat.add_zero] at hreceived
    exact rentKeptAt_of_same (stores_size hstores hr _) hreceived

/-- What rent asks for after a registration. -/
theorem registration_rentKept {fee : ℕ} (hw : w ≠ d.findRegistry w)
    (htreasury : cfg.treasury ≠ d.findRegistry w)
    (hcharge : CanCharge cluster.minimumBalance l w fee)
    (hcovered : fee + registryRent cluster d l w + cfg.registerFee.toNat ≤ lamportsOf l w)
    (henv : env.minimumBalance = cluster.minimumBalance)
    (hcfg : configOf d (l.charged w fee) = some cfg)
    (hfound : (l.charged w fee (d.findRegistry w)).owner = systemProgramId ∨
      registryOf d (l.charged w fee) w = some r)
    (hrun : (execute d env (registration d w treasury pubkey credentialId).accounts
      (.registerPasskey .secp256r1Passkey pubkey credentialId) (l.charged w fee)).Returns l') :
    RentKept cluster.minimumBalance (l.charged w fee) l' ↔
      RentAllows (cluster.minimumBalance 0).toNat (lamportsOf l w - fee)
        (lamportsOf l w - fee - registryRent cluster d l w -
          if cfg.treasury = w then 0 else cfg.registerFee.toNat) ∧
      (cfg.treasury = w ∨ RentAllows (cluster.minimumBalance (l cfg.treasury).data.length).toNat
        (lamportsOf l cfg.treasury) (lamportsOf l cfg.treasury + cfg.registerFee.toNat)) := by
  have hstores := registration_stores hrun
  have hsettles := registration_settles henv hcfg hrun
  have hrent := registryRent_charged cluster l hw fee
  have hsize : ∀ k, k ≠ d.findRegistry w →
      (l' k).data.length = (l.charged w fee k).data.length := fun k hk => by
    rw [(hstores.frame k hk).2]
  -- three accounts change their lamports: the wallet, the treasury, the registry
  refine rentKept_settled hcharge hcovered ?_ (fun hself => ?_) (hsize w hw)
    (hsize _ htreasury) fun k hkw hkt => ?_
  · have hwallet := hsettles w
    simp only [Payment.paid_cons, Payment.paid_nil, Payment.received_cons, Payment.received_nil,
      if_neg hw.symm, if_true, Nat.add_zero, Nat.zero_add, hrent] at hwallet
    omega
  · have hpaid := hsettles cfg.treasury
    simp only [Payment.paid_cons, Payment.paid_nil, Payment.received_cons, Payment.received_nil,
      if_neg (Ne.symm hself), if_neg htreasury.symm, if_true, Nat.add_zero, Nat.zero_add] at hpaid
    exact hpaid
  · by_cases hk : k = d.findRegistry w
    · rw [hk]
      exact registration_rentKeptAt hw htreasury hfound hstores hsettles
    · have hother := hsettles k
      simp only [Payment.paid_cons, Payment.paid_nil, Payment.received_cons, Payment.received_nil,
        if_neg (Ne.symm hkw), if_neg (Ne.symm hk), if_neg (Ne.symm hkt), Nat.add_zero] at hother
      exact rentKeptAt_of_same (hsize k hk) hother

end Effects

end Transaction

/-! ## Who sends it -/

section Senders

variable {d : Guard.Deployment} {l l' : Ledger} {cluster : Cluster} {p256 : P256 cluster.curve}
  {owner : Keypair} {getAccountInfo : Pubkey → Option AccountInfo}
  {w treasury : Pubkey} {pubkey credentialId : Bytes}
  {configInfo : AccountInfo} {ix : Instruction} {tx : List Instruction}

theorem registration_signed (d : Guard.Deployment) (w treasury : Pubkey)
    (pubkey credentialId : Bytes) :
    Scripts.SignedOnlyBy w (registration d w treasury pubkey credentialId) := by
  intro m hm hsigner
  simp only [registration, Scripts.registerIx, List.mem_cons, List.not_mem_nil, or_false] at hm
  rcases hm with rfl | rfl | rfl | rfl | rfl
  case inr.inl => rfl
  all_goals cases hsigner

theorem registration_lands (hlens : pubkey.length < 2 ^ 32 ∧ credentialId.length < 2 ^ 32) :
    Lands cluster d w [registration d w treasury pubkey credentialId] l l' ↔
      RunsCharged cluster w cluster.lamportsPerSignature
        (execute d (Sdk.envAt cluster.clock cluster.minimumBalance
            [registration d w treasury pubkey credentialId] 0)
          (registration d w treasury pubkey credentialId).accounts
          (.registerPasskey .secp256r1Passkey pubkey credentialId)) l l' :=
  (Scripts.lands_single rfl (registration_signed d w treasury pubkey credentialId)).trans
    (RunsCharged.congr fun _ => process_iff
      (write_of_credentialData (credentialData_eq_ok.mpr ⟨hlens, rfl⟩)))

/-- With the treasury that was read. -/
theorem registration_lands_iff (hl : Fitting d l) (hanswers : Answers getAccountInfo l)
    (hw : w ≠ d.findRegistry w)
    (htreasury : ∀ cfg, configOf d l = some cfg → cfg.treasury ≠ d.findRegistry w)
    (hlens : pubkey.length < 2 ^ 32 ∧ credentialId.length < 2 ^ 32)
    (hconfig : getAccountInfo d.findConfig = some configInfo) :
    (∃ l', Lands cluster d w
        [registration d w (Scripts.readTreasury configInfo) pubkey credentialId] l l') ↔
      ∃ cfg, configOf d l = some cfg ∧ ValidKeyInputs pubkey credentialId ∧
        (CanRegister cluster d l w cfg ∨ CanReopen cluster d l w cfg) := by
  have hl₁ := fitting_charged hl w cluster.lamportsPerSignature
  have hconfigured := configOf_charged d l w cluster.lamportsPerSignature
  have hkept := registryOf_charged d l w w cluster.lamportsPerSignature
  have hregistry : l.charged w cluster.lamportsPerSignature (d.findRegistry w) =
      l (d.findRegistry w) := charged_of_ne hw.symm
  have htreasury₁ : ∀ cfg, configOf d (l.charged w cluster.lamportsPerSignature) = some cfg →
      cfg.treasury ≠ d.findRegistry w := by
    rw [hconfigured]
    exact htreasury
  have hruns : (∃ l', (execute d (Sdk.envAt cluster.clock cluster.minimumBalance
        [registration d w (Scripts.readTreasury configInfo) pubkey credentialId] 0)
      (registration d w (Scripts.readTreasury configInfo) pubkey credentialId).accounts
      (.registerPasskey .secp256r1Passkey pubkey credentialId)
      (l.charged w cluster.lamportsPerSignature)).Returns l') ↔ _ :=
    execute_registerIx_iff hl₁ hw htreasury₁
  simp only [registration_lands hlens]
  constructor
  · intro h
    obtain ⟨l', hcharge, hrun, hrent⟩ := h
    obtain ⟨cfg, hcfg₁, -, hvalid, hcan⟩ := hruns.mp ⟨l', hrun⟩
    have hcfg := hconfigured.symm.trans hcfg₁
    refine ⟨cfg, hcfg, hvalid, ?_⟩
    rcases hcan with hcreates | hreuses
    · obtain ⟨⟨hvacant, hempty⟩, hcovered, hroom⟩ := (canCreate_charged hw hcharge).mp hcreates
      obtain ⟨hleft, hreceived⟩ := (registration_rentKept (r := .blank) hw (htreasury cfg hcfg)
        hcharge hcovered rfl hcfg₁ (Or.inl hcreates.vacant) hrun).mp hrent
      exact Or.inl ⟨hvacant, hempty, hcharge, hcovered, hroom, hleft, hreceived⟩
    · obtain ⟨⟨r, hr, hempty⟩, hexempt, hcovered, hroom⟩ :=
        (canReuse_charged hw hcharge).mp hreuses
      -- with its keys all removed, a registry can be registered again and owes no rent
      have hnone := registryRent_of_found cluster hr
      rw [← hnone] at hcovered
      obtain ⟨hleft, hreceived⟩ := (registration_rentKept hw (htreasury cfg hcfg) hcharge
        hcovered rfl hcfg₁ (Or.inr (hkept.trans hr)) hrun).mp hrent
      rw [hnone] at hcovered hleft
      exact Or.inr ⟨⟨r, hr, hempty⟩, hexempt, hcharge, hcovered, hroom, hleft, hreceived⟩
  · intro h
    obtain ⟨cfg, hcfg, hvalid, hcan⟩ := h
    have hcfg₁ := hconfigured.trans hcfg
    obtain ⟨info, hinfo, hread⟩ := readTreasury_eq hanswers hcfg
    obtain rfl := Option.some.inj (hconfig.symm.trans hinfo)
    rcases hcan with hregisters | hreopens
    · obtain ⟨hvacant, hempty, hcharge, hcovered, hroom, hleft, hreceived⟩ := hregisters
      have hcreates := (canCreate_charged hw hcharge).mpr ⟨⟨hvacant, hempty⟩, hcovered, hroom⟩
      obtain ⟨l', hrun⟩ := hruns.mpr ⟨cfg, hcfg₁, hread, hvalid, Or.inl hcreates⟩
      exact ⟨l', hcharge, hrun, (registration_rentKept (r := .blank) hw (htreasury cfg hcfg)
        hcharge hcovered rfl hcfg₁ (Or.inl hcreates.vacant) hrun).mpr ⟨hleft, hreceived⟩⟩
    · obtain ⟨⟨r, hr, hempty⟩, hexempt, hcharge, hcovered, hroom, hleft, hreceived⟩ := hreopens
      have hreuses := (canReuse_charged hw hcharge).mpr
        ⟨⟨r, hr, hempty⟩, hexempt, hcovered, hroom⟩
      obtain ⟨l', hrun⟩ := hruns.mpr ⟨cfg, hcfg₁, hread, hvalid, Or.inr hreuses⟩
      have hnone := registryRent_of_found cluster hr
      have hrents := registration_rentKept hw (htreasury cfg hcfg) hcharge
        (by rw [hnone]; exact hcovered) rfl hcfg₁ (Or.inr (hkept.trans hr)) hrun
      rw [hnone] at hrents
      exact ⟨l', hcharge, hrun, hrents.mpr ⟨hleft, hreceived⟩⟩

/-- The key is the wallet's first, the counter stays. -/
theorem registration_becomes (hlens : pubkey.length < 2 ^ 32 ∧ credentialId.length < 2 ^ 32)
    (hlands : Lands cluster d w [registration d w treasury pubkey credentialId] l l') :
    Becomes d l l' w ⟨w, (registryOf d l w).elim 0 PasskeyRegistry.nonce,
      [⟨.secp256r1Passkey, pubkey, credentialId⟩]⟩ := by
  obtain ⟨-, hrun, -⟩ := (registration_lands hlens).mp hlands
  have hstores := registration_stores hrun
  rw [registryOf_charged] at hstores
  exact (becomes_of_stores hstores).of_charged

/-- The demo builds it whenever there is an account at the config's address. -/
theorem demo_builds (hguard : d.programId = Landing.guardProgram)
    (hlens : pubkey.length < 2 ^ 32 ∧ credentialId.length < 2 ^ 32) :
    Landing.buildRegisterPasskeyIx getAccountInfo d.findRegistry d.findConfig w pubkey
        credentialId = .ok ix ↔
      ∃ configInfo, getAccountInfo d.findConfig = some configInfo ∧
        ix = registration d w (Scripts.readTreasury configInfo) pubkey credentialId := by
  -- the demo writes the kind as a byte and the lengths by hand, and comes to the same bytes
  have hdata : Landing.registerPasskeyDisc ++ [0] ++ Landing.borshBytes pubkey ++
      Landing.borshBytes credentialId = Scripts.registerDisc ++ [0] ++ lenPrefixed 4 pubkey ++
        lenPrefixed 4 credentialId := by
    rw [borshBytes_eq hlens.1, borshBytes_eq hlens.2]
    rfl
  unfold Landing.buildRegisterPasskeyIx Landing.fetchTreasury registration Scripts.registerIx
  rw [bind_eq_ok]
  cases getAccountInfo d.findConfig with
  | none => simp
  | some configInfo =>
    constructor
    · intro h
      obtain ⟨treasury, htreasury, h⟩ := h
      obtain rfl := Except.ok.inj htreasury
      obtain rfl := Except.ok.inj h
      refine ⟨configInfo, rfl, ?_⟩
      simp only [hdata, hguard, Scripts.readTreasury]
    · intro h
      obtain ⟨info, hinfo, rfl⟩ := h
      obtain rfl := Option.some.inj hinfo
      refine ⟨_, rfl, ?_⟩
      simp only [hdata, hguard, Scripts.readTreasury]
      rfl

/-- The script sends it with the derived key, and only where there is no account. -/
theorem registerPasskey_eq_ok :
    Scripts.registerPasskey p256 d getAccountInfo owner = .ok tx ↔
      ∃ configInfo, getAccountInfo d.findConfig = some configInfo ∧
        getAccountInfo (d.findRegistry owner.publicKey) = none ∧
        tx = [registration d owner.publicKey (Scripts.readTreasury configInfo)
          (pubkeyBytes p256 owner) (Scripts.derivedCredentialId owner)] := by
  have hlens : (pubkeyBytes p256 owner).length < 2 ^ 32 ∧
      (Scripts.derivedCredentialId owner).length < 2 ^ 32 := by
    have hkey : (pubkeyBytes p256 owner).length = 33 := p256.length_getPublicKey _
    have hid : (Scripts.derivedCredentialId owner).length ≤ 16 := List.length_take_le _ _
    exact ⟨by omega, by omega⟩
  unfold Scripts.registerPasskey
  simp only [bind_eq_ok, getAccount_eq_ok]
  constructor
  · intro h
    obtain ⟨configInfo, hconfig, h⟩ := h
    -- the script does not register twice: it looks for the account first
    split at h
    next => cases h
    next hmissing =>
      obtain ⟨data, hdata, h⟩ := bind_eq_ok.mp h
      obtain ⟨-, rfl⟩ := credentialData_eq_ok.mp (orThrow_eq_ok.mp hdata)
      exact ⟨configInfo, hconfig, by simpa using hmissing, (Except.ok.inj h).symm⟩
  · intro h
    obtain ⟨configInfo, hconfig, hmissing, rfl⟩ := h
    refine ⟨configInfo, hconfig, ?_⟩
    rw [if_neg (by simp [hmissing])]
    exact bind_eq_ok.mpr ⟨_, orThrow_eq_ok.mpr (credentialData_eq_ok.mpr ⟨hlens, rfl⟩), rfl⟩

end Senders

/-- The derived key and its id are within the limits. -/
theorem derived_valid {curve : Secp256r1.Curve} (p256 : P256 curve) (owner : Keypair) :
    ValidKeyInputs (pubkeyBytes p256 owner) (Scripts.derivedCredentialId owner) := by
  have hkey : (pubkeyBytes p256 owner).length = 33 := p256.length_getPublicKey _
  have hid : (Scripts.derivedCredentialId owner).length ≤ 16 := List.length_take_le _ _
  exact ⟨Nat.le_of_eq hkey, Nat.le_trans hid (by decide)⟩

/-- In every state the guard can get into, the demo's registration goes through if and
only if there is a config, the key is within the limits, and either the wallet's
registry address is vacant and its balance covers transaction fee, rent and fee
together, or its registry has run out of keys and it covers the two fees; then that
key is the only one. The script's goes through, with the derived key, in the first of
these cases only, and only where no account is there at all: lamports sent to the
address stop the script, although the instruction would still go through. -/
theorem registration_succeeds_iff {d : Guard.Deployment} {l : Ledger} (cluster : Cluster)
    {owner : Keypair} {getAccountInfo : Pubkey → Option AccountInfo}
    {pubkey credentialId : Bytes} (p256 : P256 cluster.curve)
    (hreach : Reachable d l) (hanswers : Answers getAccountInfo l)
    (hguard : d.programId = Landing.guardProgram)
    (hw : owner.publicKey ≠ d.findRegistry owner.publicKey)
    (htreasury : ∀ cfg, configOf d l = some cfg → cfg.treasury ≠ d.findRegistry owner.publicKey)
    (hlens : pubkey.length < 2 ^ 32 ∧ credentialId.length < 2 ^ 32) :
    ((∃ ix l', Landing.buildRegisterPasskeyIx getAccountInfo d.findRegistry d.findConfig
        owner.publicKey pubkey credentialId = .ok ix ∧
        Lands cluster d owner.publicKey [ix] l l') ↔
      ∃ cfg, configOf d l = some cfg ∧ ValidKeyInputs pubkey credentialId ∧
        (CanRegister cluster d l owner.publicKey cfg ∨
          CanReopen cluster d l owner.publicKey cfg)) ∧
    (∀ ix l', Landing.buildRegisterPasskeyIx getAccountInfo d.findRegistry d.findConfig
        owner.publicKey pubkey credentialId = .ok ix →
      Lands cluster d owner.publicKey [ix] l l' →
      Becomes d l l' owner.publicKey ⟨owner.publicKey,
        (registryOf d l owner.publicKey).elim 0 PasskeyRegistry.nonce,
        [⟨.secp256r1Passkey, pubkey, credentialId⟩]⟩) ∧
    ((∃ tx l', Scripts.registerPasskey p256 d getAccountInfo owner = .ok tx ∧
        Lands cluster d owner.publicKey tx l l') ↔
      getAccountInfo (d.findRegistry owner.publicKey) = none ∧
        ∃ cfg, configOf d l = some cfg ∧ CanRegister cluster d l owner.publicKey cfg) ∧
    ∀ tx l', Scripts.registerPasskey p256 d getAccountInfo owner = .ok tx →
      Lands cluster d owner.publicKey tx l l' →
      Becomes d l l' owner.publicKey ⟨owner.publicKey, 0,
        [⟨.secp256r1Passkey, pubkeyBytes p256 owner, Scripts.derivedCredentialId owner⟩]⟩ := by
  have hl := fitting_of_reachable hreach
  have hderived := derived_valid p256 owner
  -- where no account is, no registry is
  have hnone : getAccountInfo (d.findRegistry owner.publicKey) = none →
      registryOf d l owner.publicKey = none := by
    intro hmissing
    by_contra hsome
    obtain ⟨r, hr⟩ := Option.ne_none_iff_exists'.mp hsome
    exact data_ne_nil hr (hanswers.missing _ hmissing)
  refine ⟨⟨fun h => ?_, fun h => ?_⟩, fun ix l' hbuilds hlands => ?_,
    ⟨fun h => ?_, fun h => ?_⟩, fun tx l' hsends hlands => ?_⟩
  · obtain ⟨ix, l', hbuilds, hlands⟩ := h
    obtain ⟨configInfo, hconfig, rfl⟩ := (demo_builds hguard hlens).mp hbuilds
    exact (registration_lands_iff hl hanswers hw htreasury hlens hconfig).mp ⟨l', hlands⟩
  · obtain ⟨cfg, hcfg, hcan⟩ := h
    obtain ⟨configInfo, hconfig, -⟩ := readTreasury_eq hanswers hcfg
    obtain ⟨l', hlands⟩ := (registration_lands_iff hl hanswers hw htreasury hlens hconfig).mpr
      ⟨cfg, hcfg, hcan⟩
    exact ⟨_, l', (demo_builds hguard hlens).mpr ⟨configInfo, hconfig, rfl⟩, hlands⟩
  · obtain ⟨configInfo, -, rfl⟩ := (demo_builds hguard hlens).mp hbuilds
    exact registration_becomes hlens hlands
  · obtain ⟨tx, l', hsends, hlands⟩ := h
    obtain ⟨configInfo, hconfig, hmissing, rfl⟩ := registerPasskey_eq_ok.mp hsends
    obtain ⟨cfg, hcfg, -, hcan⟩ := (registration_lands_iff hl hanswers hw htreasury
      (prefixable_of_valid hderived) hconfig).mp ⟨l', hlands⟩
    refine ⟨hmissing, cfg, hcfg, hcan.resolve_right fun hreopens => ?_⟩
    obtain ⟨r, hr, -⟩ := hreopens.empty
    exact absurd ((hnone hmissing).symm.trans hr) (Option.some_ne_none r).symm
  · obtain ⟨hmissing, cfg, hcfg, hcan⟩ := h
    obtain ⟨configInfo, hconfig, -⟩ := readTreasury_eq hanswers hcfg
    obtain ⟨l', hlands⟩ := (registration_lands_iff hl hanswers hw htreasury
      (prefixable_of_valid hderived) hconfig).mpr ⟨cfg, hcfg, hderived, Or.inl hcan⟩
    exact ⟨_, l', registerPasskey_eq_ok.mpr ⟨configInfo, hconfig, hmissing, rfl⟩, hlands⟩
  · obtain ⟨configInfo, -, hmissing, rfl⟩ := registerPasskey_eq_ok.mp hsends
    have hbecomes := registration_becomes (prefixable_of_valid hderived) hlands
    rw [hnone hmissing] at hbecomes
    exact hbecomes

section CommandLine

open Sdk.Localnet (treasury minimumBalance passkey call devnetConfigPda)

/-- The ledger with a config only. -/
def cliConfigured : Ledger :=
  ((runCalls cliDeployment cliGenesis [call [cliConfigIx] 0 cliConfigIx]).map Prod.snd).getD
    cliGenesis

theorem reachable_cliConfigured : Reachable cliDeployment cliConfigured := by
  have hsome : (runCalls cliDeployment cliGenesis [call [cliConfigIx] 0 cliConfigIx]).isSome =
      true := by decide +kernel
  obtain ⟨⟨trace, l⟩, h⟩ := Option.isSome_iff_exists.mp hsome
  refine ⟨cliGenesis, trace, cliGenesis_genesis, ?_⟩
  rw [cliConfigured, h]
  exact run_of_runCalls h

/-- A cluster that knows the accounts with lamports. -/
def answerFunded (l : Ledger) (k : Pubkey) : Option AccountInfo :=
  if (l k).lamports = 0 ∧ (l k).data = [] then none
  else some ⟨(l k).lamports.toNat, Window.whole (l k).data⟩

theorem answers_answerFunded (l : Ledger) : Answers (answerFunded l) l where
  found k info h := by
    unfold answerFunded at h
    split at h
    next => cases h
    next =>
      obtain rfl := Option.some.inj h
      exact ⟨rfl, Window.bytes_whole _⟩
  missing k h := by
    unfold answerFunded at h
    split at h
    next hempty => exact hempty.2
    next => cases h

theorem cliConfigured_holds :
    configOf cliDeployment cliConfigured = some ⟨cli.publicKey, treasury, 0, 0⟩ ∧
      answerFunded cliConfigured (cliDeployment.findRegistry cli.publicKey) = none ∧
      treasury ≠ cliDeployment.findRegistry cli.publicKey := by
  refine ⟨by decide +kernel, ?_, by decide +kernel⟩
  exact if_pos (by decide +kernel)

/-- The wallet has ten SOL less the rent of the config. -/
theorem cliConfigured_balances :
    ((cliConfigured cli.publicKey).owner = systemProgramId ∧
      (cliConfigured cli.publicKey).data = []) ∧
    lamportsOf cliConfigured cli.publicKey = 9998496640 ∧
    lamportsOf cliConfigured treasury = 0 ∧
    registryRent (cliCluster additionSignature) cliDeployment cliConfigured cli.publicKey =
      13084800 := by
  decide +kernel

theorem cliConfigured_canRegister :
    CanRegister (cliCluster additionSignature) cliDeployment cliConfigured cli.publicKey
      ⟨cli.publicKey, treasury, 0, 0⟩ where
  vacant := by decide +kernel
  empty := by decide +kernel
  settles := by
    obtain ⟨⟨howner, hdata⟩, hwallet, htreasury, hrent⟩ := cliConfigured_balances
    rw [hrent]
    exact canSettle_cli howner hdata hwallet htreasury (by decide) (by decide) (by decide)

/-- Both go through: the browser's key, or the derived one. -/
theorem registration_succeeds_cli : ∃ ix tx demo script,
    Landing.buildRegisterPasskeyIx (answerFunded cliConfigured) cliDeployment.findRegistry
        devnetConfigPda cli.publicKey passkey [1] = .ok ix ∧
      Lands (cliCluster additionSignature) cliDeployment cli.publicKey [ix] cliConfigured demo ∧
      registryOf cliDeployment demo cli.publicKey =
        some ⟨cli.publicKey, 0, [⟨.secp256r1Passkey, passkey, [1]⟩]⟩ ∧
    Scripts.registerPasskey (cliP256 additionSignature rfl) cliDeployment
        (answerFunded cliConfigured) cli = .ok tx ∧
      Lands (cliCluster additionSignature) cliDeployment cli.publicKey tx cliConfigured script ∧
      Becomes cliDeployment cliConfigured script cli.publicKey
        ⟨cli.publicKey, 0, [⟨.secp256r1Passkey, cliKey, Scripts.derivedCredentialId cli⟩]⟩ := by
  obtain ⟨hcfg, hmissing, hne⟩ := cliConfigured_holds
  have htreasury : ∀ cfg, configOf cliDeployment cliConfigured = some cfg →
      cfg.treasury ≠ cliDeployment.findRegistry cli.publicKey := by
    intro cfg hfound
    obtain rfl := Option.some.inj (hcfg.symm.trans hfound)
    exact hne
  have hw : cli.publicKey ≠ cliDeployment.findRegistry cli.publicKey := by decide +kernel
  have hvalid : ValidKeyInputs passkey [1] := ⟨by decide, by decide⟩
  obtain ⟨hdemo, hfirst, hscript, hderived⟩ :=
    registration_succeeds_iff (cliCluster additionSignature) (cliP256 additionSignature rfl)
      reachable_cliConfigured (answers_answerFunded cliConfigured) rfl hw htreasury
      (prefixable_of_valid hvalid)
  obtain ⟨ix, demo, hbuilds, hlands⟩ := hdemo.mpr
    ⟨_, hcfg, hvalid, Or.inl cliConfigured_canRegister⟩
  obtain ⟨tx, script, hsends, hlands'⟩ := hscript.mpr
    ⟨hmissing, _, hcfg, cliConfigured_canRegister⟩
  refine ⟨ix, tx, demo, script, hbuilds, hlands, ?_, hsends, hlands', hderived tx script hsends
    hlands'⟩
  have hnone : registryOf cliDeployment cliConfigured cli.publicKey = none := by decide +kernel
  have hbecomes := (hfirst ix demo hbuilds hlands).own
  rw [hnone] at hbecomes
  exact hbecomes

end CommandLine

end Trana.Security
