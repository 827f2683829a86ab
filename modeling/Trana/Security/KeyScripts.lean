import Trana.Guard.Fees
import Trana.Guard.Image
import Trana.Scripts.Run
import Trana.Security.DemoReads
import Trana.Security.RegistryFits
import Trana.Security.WireFormat

/-!
# The keys from the command line

The scripts that recover a registry and that add and remove keys, from what they
read to what the cluster does with their transactions: for each of them the exact
condition under which it works, in every state the guard can get into.

A script works when it sends a transaction and the transaction goes through. So the
conditions are about all of it: what was typed (an empty argument ends the script),
what the script reads of the registry and the config, the derived key's signature,
the transaction fee, which the wallet pays first, the guard's own checks, and rent.

> A removal and a recovery cost the transaction fee and nothing else
> (`CanCharge`); an addition costs the guard's fee as well (`CanSettle`).

That the wallet can pay is a condition on its balance before the transaction; the
registries are not affected by the charge, so everything else is as without it.
The cluster is assumed to answer with the ledger the transaction meets (`Answers`);
that nothing happens in between is part of that.

* `execute_recoverRegistry_iff`, `execute_addPasskey_iff`,
  `execute_removePasskey_iff` — the instructions, on any accounts.
* `recover_script`, `add_script`, `remove_script` — the scripts.
-/

namespace Trana.Security

open Trana.Lib Trana.Lib.Exec Trana.Solana Trana.Guard
open Trana.Scripts (P256 Keypair Lands RunsCharged pubkeyBytes expiryUnix proofTransaction)
open Trana.Landing (AccountInfo)

/-! ## What the instructions need -/

section Instructions

variable {d : Guard.Deployment} {env : Env} {accounts : List AccountMeta} {l : Ledger}
  {keyKind : KeyKind} {pubkey credentialId : Bytes}

theorem execute_recoverRegistry_iff (hl : Fitting d l) :
    (∃ l', (execute d env accounts (.recoverRegistry keyKind pubkey credentialId) l).Returns l') ↔
      (∃ ctx, (RecoverRegistry.tryAccounts d accounts l).Returns ctx) ∧
        ValidKeyInputs pubkey credentialId := by
  constructor
  · intro h
    obtain ⟨l', h⟩ := h
    obtain ⟨ctx, hctx, h⟩ := returns_bind.mp h
    simp only [Guard.recoverRegistry, returns_bind, returns_validateKeyInputs,
      exists_const] at h
    obtain ⟨r, ⟨hvalid, -⟩, -⟩ := h
    exact ⟨⟨ctx, hctx⟩, hvalid⟩
  · intro h
    obtain ⟨⟨ctx, hctx⟩, hvalid⟩ := h
    -- the checks are the handler's; that the write goes through too is `registry_fits`'s lemma
    have hhandler : (Guard.recoverRegistry ctx keyKind pubkey credentialId).Returns
        ⟨ctx.owner, 0, [⟨keyKind, pubkey, credentialId⟩]⟩ := by
      simp only [Guard.recoverRegistry, returns_bind, returns_validateKeyInputs, returns_msg,
        returns_pure, exists_const, and_true]
      exact hvalid
    have hwrites : Writes d env accounts l (.recoverRegistry keyKind pubkey credentialId) l _ _ :=
      .recoverRegistry hctx hhandler
    obtain ⟨l', hreturns, -⟩ := hwrites.succeeds hl
    exact ⟨l', hreturns⟩

/-- Somebody proved, for this registry and the policy of the guard's own instructions. -/
def Proven (d : Guard.Deployment) (env : Env) (w : Pubkey) (r : PasskeyRegistry) : Prop :=
  ∃ proof ix secpIx, Verified env.clock env.ixSysvar r w d.programId env.ixSysvar.currentIndex
    policyRequire proof ix secpIx

theorem execute_addPasskey_iff (hl : Fitting d l) :
    (∃ l', (execute d env accounts (.addPasskey keyKind pubkey credentialId) l).Returns l') ↔
      ∃ ctx, (AddPasskey.tryAccounts d accounts l).Returns ctx ∧
        ValidKeyInputs pubkey credentialId ∧ ctx.registry.keys.length < maxKeys ∧
        Proven d env ctx.owner ctx.registry ∧
        CanPay l ctx.owner ctx.treasury ctx.config.addKeyFee := by
  constructor
  · intro h
    obtain ⟨l', h⟩ := h
    obtain ⟨ctx, hctx, h⟩ := returns_bind.mp h
    obtain ⟨⟨r, l₁⟩, h, -⟩ := returns_bind.mp h
    simp only [Guard.addPasskey, returns_bind, returns_validateKeyInputs, returns_require,
      returns_verifyWithPolicy, exists_const] at h
    -- the fee comes after the proof, so the ledger it is paid from is still the one before
    obtain ⟨hvalid, hroom, _, ⟨-, hproven⟩, l₂, hfee, -⟩ := h
    exact ⟨ctx, hctx, hvalid, hroom, hproven, collectFee_succeeds.mp ⟨l₂, hfee⟩⟩
  · intro h
    obtain ⟨ctx, hctx, hvalid, hroom, hproven, hpays⟩ := h
    obtain ⟨l₂, hfee⟩ := collectFee_succeeds.mpr hpays
    have hhandler : (Guard.addPasskey d env ctx keyKind pubkey credentialId l).Returns
        ({ ctx.registry.consume with
          keys := ctx.registry.keys ++ [⟨keyKind, pubkey, credentialId⟩] }, l₂) := by
      simp only [Guard.addPasskey, returns_bind, returns_validateKeyInputs, returns_require,
        returns_verifyWithPolicy, returns_msg, returns_pure, exists_const, true_and]
      exact ⟨hvalid, hroom, _, ⟨rfl, hproven⟩, l₂, hfee, rfl⟩
    have hwrites : Writes d env accounts l (.addPasskey keyKind pubkey credentialId) l₂ _ _ :=
      .addPasskey hctx hhandler
    obtain ⟨l', hreturns, -⟩ := hwrites.succeeds hl
    exact ⟨l', hreturns⟩

theorem execute_removePasskey_iff (hl : Fitting d l) :
    (∃ l', (execute d env accounts (.removePasskey credentialId) l).Returns l') ↔
      ∃ ctx, (RemovePasskey.tryAccounts d accounts l).Returns ctx ∧
        1 < ctx.registry.keys.length ∧ Proven d env ctx.owner ctx.registry ∧
        ∃ k ∈ ctx.registry.keys, k.credentialId = credentialId := by
  constructor
  · intro h
    obtain ⟨l', h⟩ := h
    obtain ⟨ctx, hctx, h⟩ := returns_bind.mp h
    simp only [Guard.removePasskey, returns_bind, returns_require, returns_verifyWithPolicy,
      exists_const] at h
    obtain ⟨_, ⟨hseveral, _, ⟨rfl, hproven⟩, hshorter, -⟩, -⟩ := h
    refine ⟨ctx, hctx, hseveral, hproven, ?_⟩
    -- the filter got shorter, so some entry had the id
    obtain ⟨k, hk, heq⟩ := List.length_filter_lt_length_iff_exists.mp hshorter
    exact ⟨k, hk, by simpa using heq⟩
  · intro h
    obtain ⟨ctx, hctx, hseveral, hproven, k, hk, heq⟩ := h
    have hshorter : (ctx.registry.keys.filter (·.credentialId != credentialId)).length <
        ctx.registry.keys.length :=
      List.length_filter_lt_length_iff_exists.mpr ⟨k, hk, by simpa using heq⟩
    have hhandler : (Guard.removePasskey d env ctx credentialId).Returns
        { ctx.registry.consume with
          keys := ctx.registry.keys.filter (·.credentialId != credentialId) } := by
      simp only [Guard.removePasskey, returns_bind, returns_require, returns_verifyWithPolicy,
        returns_msg, returns_pure, exists_const, true_and]
      exact ⟨hseveral, _, ⟨rfl, hproven⟩, hshorter, rfl⟩
    have hwrites : Writes d env accounts l (.removePasskey credentialId) l _ _ :=
      .removePasskey hctx hhandler
    obtain ⟨l', hreturns, -⟩ := hwrites.succeeds hl
    exact ⟨l', hreturns⟩

end Instructions

/-! ## The accounts the scripts list -/

section Contexts

variable {d : Guard.Deployment} {l : Ledger} {w : Pubkey} {data : Bytes}

theorem recoverIx_context {ctx : RecoverRegistry} :
    (RecoverRegistry.tryAccounts d (Scripts.recoverIx d w data).accounts l).Returns ctx ↔
      ∃ r, registryOf d l w = some r ∧ ctx = ⟨d.findRegistry w, r, w⟩ := by
  constructor
  · intro h
    obtain ⟨hnames, -, hfound⟩ := recoverRegistry_tryAccounts h
    have hlisted : Names (Scripts.recoverIx d w data).accounts (d.findRegistry w) w :=
      ⟨rfl, _, rfl, rfl, rfl⟩
    -- what the context names is what the script lists
    obtain ⟨hkey, howner⟩ := hnames.unique hlisted
    obtain ⟨registryKey, registry, owner⟩ := ctx
    obtain rfl : registryKey = d.findRegistry w := hkey
    obtain rfl : owner = w := howner
    exact ⟨registry, hfound, rfl⟩
  · intro h
    obtain ⟨r, hr, rfl⟩ := h
    simp only [Scripts.recoverIx, RecoverRegistry.tryAccounts, returns_bind, returns_signer,
      returns_programAccount, returns_constraintSeeds, returns_constraintMut, returns_pure,
      exists_const, true_and]
    exact ⟨r, returns_loadAccount_of hr, w, rfl, rfl, rfl⟩

theorem removeIx_context {ctx : RemovePasskey} :
    (RemovePasskey.tryAccounts d (Scripts.removeIx d w data).accounts l).Returns ctx ↔
      ∃ r, registryOf d l w = some r ∧ ctx = ⟨d.findRegistry w, r, w⟩ := by
  constructor
  · intro h
    obtain ⟨hnames, -, hfound⟩ := removePasskey_tryAccounts h
    have hlisted : Names (Scripts.removeIx d w data).accounts (d.findRegistry w) w :=
      ⟨rfl, _, rfl, rfl, rfl⟩
    obtain ⟨hkey, howner⟩ := hnames.unique hlisted
    obtain ⟨registryKey, registry, owner⟩ := ctx
    obtain rfl : registryKey = d.findRegistry w := hkey
    obtain rfl : owner = w := howner
    exact ⟨registry, hfound, rfl⟩
  · intro h
    obtain ⟨r, hr, rfl⟩ := h
    simp only [Scripts.removeIx, RemovePasskey.tryAccounts, returns_bind, returns_signer,
      returns_constraintSeeds, returns_constraintMut, returns_constraintAddress, returns_pure,
      exists_const, true_and]
    exact ⟨r, returns_loadAccount_of hr, w, rfl, rfl, rfl⟩

/-- The treasury has to be the config's. -/
theorem addPasskeyIx_context {treasury : Pubkey} {ctx : AddPasskey} :
    (AddPasskey.tryAccounts d (Scripts.addPasskeyIx d w treasury data).accounts l).Returns ctx ↔
      ∃ r cfg, registryOf d l w = some r ∧ configOf d l = some cfg ∧ treasury = cfg.treasury ∧
        ctx = ⟨d.findRegistry w, r, w, cfg, treasury⟩ := by
  constructor
  · intro h
    obtain ⟨hnames, -, hfound⟩ := addPasskey_tryAccounts h
    obtain ⟨hconfig, htreasury⟩ := addPasskey_treasury h
    have hlisted : Names (Scripts.addPasskeyIx d w treasury data).accounts (d.findRegistry w) w :=
      ⟨rfl, _, rfl, rfl, rfl⟩
    obtain ⟨hkey, howner⟩ := hnames.unique hlisted
    -- the treasury is the one listed, and the constraint compares it with the config's
    have hpaid : ctx.treasury = treasury := by
      simp only [Scripts.addPasskeyIx, AddPasskey.tryAccounts, returns_bind, returns_pure] at h
      obtain ⟨_, -, _, -, _, -, _, -, _, -, _, -, _, -, _, -, _, -, _, -, _, -, rfl⟩ := h
      rfl
    obtain ⟨registryKey, registry, owner, config, paid⟩ := ctx
    obtain rfl : registryKey = d.findRegistry w := hkey
    obtain rfl : owner = w := howner
    obtain rfl : paid = treasury := hpaid
    exact ⟨registry, config, hfound, hconfig, htreasury, rfl⟩
  · intro h
    obtain ⟨r, cfg, hr, hcfg, htreasury, rfl⟩ := h
    simp only [Scripts.addPasskeyIx, AddPasskey.tryAccounts, returns_bind, returns_signer,
      returns_programAccount, returns_constraintSeeds, returns_constraintMut, returns_require,
      returns_constraintAddress, returns_pure, exists_const, true_and]
    exact ⟨r, returns_loadAccount_of hr, w, rfl, cfg, load_of_accountAt d.programId_ne hcfg,
      rfl, htreasury, rfl⟩

end Contexts

/-! ## What the scripts read -/

section Reads

variable {d : Guard.Deployment} {l : Ledger} {w key : Pubkey} {r : PasskeyRegistry}
  {getAccountInfo : Pubkey → Option AccountInfo} {info : AccountInfo}

theorem readNonce_eq (hbytes : info.data.bytes = (l key).data)
    (hr : registryAt d l key = some r) : Scripts.readNonce info = .ok r.nonce.toNat := by
  obtain ⟨-, hread⟩ := registryAt_eq_some.mp hr
  have himage := (registryImage_of_read hread).nonce
  rw [← hbytes] at himage
  have hat := Window.at_buffer himage (by simp)
  unfold Scripts.readNonce getBigUint64
  rw [dataView_getUint]
  exact getUint_at hat (by decide) r.nonce.toNat_lt

theorem readVecLen_eq (hbytes : info.data.bytes = (l key).data)
    (hr : registryAt d l key = some r) : Scripts.readVecLen info = .ok r.keys.length := by
  obtain ⟨-, hread⟩ := registryAt_eq_some.mp hr
  have himage := registryImage_of_read hread
  have hcount := himage.count
  rw [← hbytes] at hcount
  have hat := Window.at_buffer hcount (by simp)
  unfold Scripts.readVecLen getUint32
  rw [dataView_getUint]
  exact getUint_at hat (by decide) himage.count_lt

/-- A number that was read has eight bytes. -/
theorem readNonce_lt {nonce : ℕ} (h : Scripts.readNonce info = .ok nonce) : nonce < 2 ^ 64 := by
  unfold Scripts.readNonce getBigUint64 at h
  rw [dataView_getUint] at h
  exact (at_of_getUint h).2

/-- The registry's account is there. -/
theorem registry_info (h : Answers getAccountInfo l) (hr : registryOf d l w = some r) :
    ∃ info, getAccountInfo (d.findRegistry w) = some info ∧
      info.data.bytes = (l (d.findRegistry w)).data := by
  obtain ⟨info, hinfo, -, hbytes⟩ := h.info (data_ne_nil hr)
  exact ⟨info, hinfo, hbytes⟩

theorem readTreasury_eq {cfg : TranaConfig} (h : Answers getAccountInfo l)
    (hcfg : configOf d l = some cfg) : ∃ info, getAccountInfo d.findConfig = some info ∧
      Scripts.readTreasury info = cfg.treasury := by
  obtain ⟨info, hinfo, -⟩ := h.info (data_ne_nil hcfg)
  have hfetch := fetchTreasury_eq h hcfg
  rw [Landing.fetchTreasury, hinfo] at hfetch
  exact ⟨info, hinfo, Except.ok.inj hfetch⟩

theorem orThrow_eq_ok {α : Type} {x : Throws α} {a : α} :
    Scripts.orThrow x = .ok a ↔ x = .ok a := by
  cases x with
  | ok b => exact Iff.of_eq (by rw [Scripts.orThrow]; simp [Except.mapError])
  | error e => simp [Scripts.orThrow, Except.mapError]

theorem requireArguments_eq_ok {arguments : List String} {u : Unit} :
    Scripts.requireArguments arguments = .ok u ↔ "" ∉ arguments := by
  unfold Scripts.requireArguments
  by_cases hmissing : "" ∈ arguments
  · rw [if_pos hmissing]
    exact iff_of_false (fun h => nomatch h) (not_not_intro hmissing)
  · rw [if_neg hmissing]
    exact iff_of_true rfl hmissing

/-- Nothing that was typed is empty. -/
theorem typed_pair {first second : String} :
    "" ∉ [first, second] ↔ first ≠ "" ∧ second ≠ "" := by
  simp [eq_comm]

theorem typed_single {first : String} : "" ∉ [first] ↔ first ≠ "" := by
  simp [eq_comm]

theorem getAccount_eq_ok {missing : Scripts.ScriptError} :
    Scripts.getAccount getAccountInfo key missing = .ok info ↔
      getAccountInfo key = some info := by
  unfold Scripts.getAccount
  cases getAccountInfo key with
  | none => simp
  | some found => simp

end Reads

/-! ## What the wallet is charged -/

section Charge

variable {d : Guard.Deployment} {env : Env} {accounts : List AccountMeta}
  {ix : GuardInstruction} {l l' : Ledger} {minimumBalance : ℕ → UInt64}
  {w key treasury : Pubkey} {transactionFee : ℕ} {r r' : PasskeyRegistry}

theorem registryOf_charged (d : Guard.Deployment) (l : Ledger) (payer w : Pubkey) (fee : ℕ) :
    registryOf d (l.charged payer fee) w = registryOf d l w :=
  registryAt_congr (charged_sameState l payer fee _)

theorem configOf_charged (d : Guard.Deployment) (l : Ledger) (payer : Pubkey) (fee : ℕ) :
    configOf d (l.charged payer fee) = configOf d l :=
  configAt_congr (charged_sameState l payer fee _)

theorem fitting_charged (hl : Fitting d l) (payer : Pubkey) (fee : ℕ) :
    Fitting d (l.charged payer fee) := by
  intro k r hr
  have hsame := charged_sameState l payer fee
  rw [registryAt_congr (hsame k)] at hr
  exact (hl k r hr).of_sameState hsame

/-- The charge is a step, by nobody's call. -/
theorem step_charged (d : Guard.Deployment) (l : Ledger) (payer : Pubkey) (fee : ℕ) :
    Guard.Step d l .other (l.charged payer fee) :=
  .other (.of_sameState (charged_sameState l payer fee))

/-- Writing over a registry changes no sizes. -/
theorem stores_size (h : Stores d l l' key r') (hr : registryAt d l key = some r) (k : Pubkey) :
    (l' k).data.length = (l k).data.length := by
  by_cases hk : k = key
  · have hlen := AccountLayout.trySerialize_length h.image
    rw [baseData, if_pos (registryAt_eq_some.mp hr).1] at hlen
    rw [hk]
    exact hlen
  · rw [(h.frame k hk).2]

/-- An instruction that pays nothing. -/
theorem execute_lamports (h : (execute d env accounts ix l).Returns l')
    (hfree : ∀ w, ix.payments d env l w = []) : lamportsOf l' = lamportsOf l := by
  rcases execute_settles h with ⟨hsame, -⟩ | ⟨w, -, -, -, -, hsettles, -⟩
  · exact hsame
  · rw [hfree w] at hsettles
    exact funext hsettles

/-- It leaves nobody short of rent, when all it does is to write over a registry. -/
theorem rentKept_free (h : (execute d env accounts ix l).Returns l')
    (hfree : ∀ w, ix.payments d env l w = []) (hr : registryAt d l key = some r)
    (hstores : Stores d l l' key r') : RentKept minimumBalance l l' := by
  have hlamports := execute_lamports h hfree
  intro k
  exact rentKeptAt_of_same (stores_size hstores hr k) (congrFun hlamports k)

/-- The guard's fee can be paid after the transaction's. -/
theorem canPay_charged {fee : UInt64} (hcharge : CanCharge minimumBalance l w transactionFee) :
    CanPay (l.charged w transactionFee) w treasury fee ↔
      transactionFee + 0 + fee.toNat ≤ lamportsOf l w ∧
        (treasury = w ∨ lamportsOf l treasury + fee.toNat < 2 ^ 64) := by
  have hleft := lamportsOf_charged_self hcharge.covered
  have hcovers := hcharge.covered
  obtain ⟨howner, hdata⟩ := charged_sameState l w transactionFee w
  constructor
  · intro h
    rcases h with rfl | haffords
    -- no fee: nothing is transferred, and any treasury will do
    · exact ⟨hcovers, Or.inr (l treasury).lamports.toNat_lt⟩
    · have hcovered := UInt64.le_iff_toNat_le.mp haffords.covered
      refine ⟨?_, ?_⟩
      · unfold lamportsOf at hleft hcovers ⊢
        omega
      -- to a treasury of its own the wallet pays itself
      · by_cases hself : treasury = w
        · exact Or.inl hself
        · have hroom := haffords.room hself
          rw [charged_of_ne hself] at hroom
          exact Or.inr hroom
  · intro h
    obtain ⟨hcovered, hroom⟩ := h
    refine Or.inr ⟨howner.trans hcharge.owner, hdata.trans hcharge.data, ?_, fun hself => ?_⟩
    · rw [UInt64.le_iff_toNat_le]
      unfold lamportsOf at hleft hcovered
      omega
    · rw [charged_of_ne hself]
      exact hroom.resolve_left hself

/-- A single payment, to the treasury. -/
theorem rentKept_paid {fee : ℕ} (hcharge : CanCharge minimumBalance l w transactionFee)
    (hcovered : transactionFee + 0 + fee ≤ lamportsOf l w)
    (hsettles : Settles (lamportsOf (l.charged w transactionFee)) (lamportsOf l')
      [⟨w, treasury, fee⟩])
    (hsize : ∀ k, (l' k).data.length = (l.charged w transactionFee k).data.length) :
    RentKept minimumBalance (l.charged w transactionFee) l' ↔
      RentAllows (minimumBalance 0).toNat (lamportsOf l w - transactionFee)
        (lamportsOf l w - transactionFee - 0 - if treasury = w then 0 else fee) ∧
      (treasury = w ∨ RentAllows (minimumBalance (l treasury).data.length).toNat
        (lamportsOf l treasury) (lamportsOf l treasury + fee)) := by
  refine rentKept_settled hcharge hcovered ?_ (fun hself => ?_) (hsize w) (hsize treasury)
    fun k hkw hkt => rentKeptAt_of_same (hsize k) ?_
  · have hwallet := hsettles w
    simpa [Payment.paid_cons, Payment.received_cons] using hwallet
  · have hpaid := hsettles treasury
    simpa [Payment.paid_cons, Payment.received_cons, Ne.symm hself] using hpaid
  · have hother := hsettles k
    simpa [Payment.paid_cons, Payment.received_cons, Ne.symm hkw, Ne.symm hkt] using hother

end Charge

/-! ## What the scripts encode -/

section Encoding

variable {disc pubkey credentialId data : Bytes}

theorem borshBytes_eq_ok {b out : Bytes} :
    Scripts.borshBytes b = .ok out ↔ b.length < 2 ^ 32 ∧ out = lenPrefixed 4 b := by
  unfold Scripts.borshBytes Scripts.u32le
  by_cases hlt : b.length < 2 ^ 32
  · rw [if_pos hlt]
    constructor
    · intro h
      exact ⟨hlt, (Except.ok.inj h).symm⟩
    · intro h
      rw [h.2]
      rfl
  · rw [if_neg hlt]
    constructor
    · intro h
      cases h
    · intro h
      exact absurd h.1 hlt

theorem credentialData_eq_ok :
    Scripts.credentialData disc pubkey credentialId = .ok data ↔
      (pubkey.length < 2 ^ 32 ∧ credentialId.length < 2 ^ 32) ∧
        data = disc ++ [0] ++ lenPrefixed 4 pubkey ++ lenPrefixed 4 credentialId := by
  unfold Scripts.credentialData
  simp only [bind_eq_ok, borshBytes_eq_ok]
  constructor
  · intro h
    obtain ⟨_, ⟨hkey, rfl⟩, _, ⟨hid, rfl⟩, h⟩ := h
    exact ⟨⟨hkey, hid⟩, (Except.ok.inj h).symm⟩
  · intro h
    obtain ⟨⟨hkey, hid⟩, rfl⟩ := h
    exact ⟨_, ⟨hkey, rfl⟩, _, ⟨hid, rfl⟩, rfl⟩

/-- It is the IDL's encoding of an entry. -/
theorem write_of_credentialData
    (h : Scripts.credentialData disc pubkey credentialId = .ok data) :
    (PasskeyEntry.codec.tagged disc).write ⟨.secp256r1Passkey, pubkey, credentialId⟩ =
      some data := by
  obtain ⟨⟨hkey, hid⟩, rfl⟩ := credentialData_eq_ok.mp h
  have hentry := write_passkey hkey hid
  rw [borshBytes_eq hkey, borshBytes_eq hid] at hentry
  refine Option.map_eq_some_iff.mpr ⟨_, hentry, ?_⟩
  simp only [List.append_assoc]

/-- What the data encode is what the program executes. -/
theorem process_iff {d : Guard.Deployment} {env : Env} {accounts : List AccountMeta}
    {ix : GuardInstruction} {l l' : Ledger} (hix : ix.encode = some data) :
    (process d env accounts data l).Returns l' ↔ (execute d env accounts ix l).Returns l' := by
  have hparsed : (parseInstruction data).Returns ix :=
    guard_wire.mpr ⟨data, [], hix, (List.append_nil data).symm⟩
  constructor
  · intro h
    obtain ⟨ix', hix', h⟩ := returns_bind.mp h
    obtain rfl := hix'.unique hparsed
    exact h
  · intro h
    exact returns_bind.mpr ⟨ix, hparsed, h⟩

end Encoding

/-! ## The scripts -/

section Scripts

variable {d : Guard.Deployment} {l l' : Ledger} {cluster : Cluster} {p256 : P256 cluster.curve}
  {alloc : Sdk.AllocUnsafe} {owner : Keypair} {getAccountInfo : Pubkey → Option AccountInfo}
  {pubkeyHex credIdHex : String} {dateNow : ℕ} {tx : List Instruction} {r : PasskeyRegistry}

/-- The wallet's registry is this one now, and every other wallet's is as it was. -/
structure Becomes (d : Guard.Deployment) (l l' : Ledger) (w : Pubkey) (r : PasskeyRegistry) :
    Prop where
  own : registryOf d l' w = some r
  others : ∀ w', w' ≠ w → registryOf d l' w' = registryOf d l w'

theorem becomes_of_stores {w : Pubkey} (h : Stores d l l' (d.findRegistry w) r) :
    Becomes d l l' w r where
  own := h.registryAt_self
  others w' hne := by
    rw [registryOf, registryOf, h.registryAt_of_ne fun heq => hne (d.registry_inj heq)]

/-- The registries are what they were before the charge. -/
theorem Becomes.of_charged {w payer : Pubkey} {fee : ℕ}
    (h : Becomes d (l.charged payer fee) l' w r) : Becomes d l l' w r where
  own := h.own
  others w' hne := (h.others w' hne).trans (registryOf_charged d l payer w' fee)

/-- The key derived from the wallet can approve something now: it is one of the
registered keys, the two minutes are not over, and the counter can go on. -/
structure CanApprove (cluster : Cluster) (p256 : P256 cluster.curve) (owner : Keypair)
    (dateNow : ℕ) (r : PasskeyRegistry) : Prop where
  registered : ∃ k ∈ r.keys, k.pubkeyBytes = pubkeyBytes p256 owner
  fresh : cluster.clock.unixTimestamp < Int64.ofInt (expiryUnix dateNow)
  counter : r.nonce.toNat + 1 < 2 ^ 64

theorem proven_iff {ix : Instruction} (hdata : 8 ≤ ix.data.length)
    (h : proofTransaction p256 alloc owner d.programId ix r.nonce.toNat dateNow = some tx) :
    Proven d (Sdk.envAt cluster.clock cluster.minimumBalance tx 2) owner.publicKey r ↔
      CanApprove cluster p256 owner dateNow r := by
  constructor
  · intro hproven
    obtain ⟨hfresh, hregistered, hcounter⟩ :=
      (Scripts.verified_proofTransaction_iff hdata h).mp hproven
    exact ⟨hregistered, hfresh, hcounter⟩
  · intro happroves
    exact (Scripts.verified_proofTransaction_iff hdata h).mpr
      ⟨happroves.fresh, happroves.registered, happroves.counter⟩

/-- A proof is always built. -/
theorem proofTransaction_sends {ix : Instruction} {nonce : ℕ} (hnonce : nonce < 2 ^ 64) :
    (proofTransaction p256 alloc owner d.programId ix nonce dateNow).elim
        (.error .notBuilt : Scripts.Script (List Instruction)) .ok = .ok tx ↔
      proofTransaction p256 alloc owner d.programId ix nonce dateNow = some tx := by
  rw [Scripts.proofTransaction_eq hnonce]
  constructor
  · intro h
    rw [Except.ok.inj h]
  · intro h
    rw [Option.some.inj h]
    rfl

/-! ### Removing a key -/

/-- The instruction that goes out. -/
def removal (d : Guard.Deployment) (w : Pubkey) (credentialId : Bytes) : Instruction :=
  Scripts.removeIx d w (Scripts.removeDisc ++ lenPrefixed 4 credentialId)

/-- What the script sends, and when. -/
theorem removePasskey_eq_ok :
    Scripts.removePasskey p256 alloc d getAccountInfo owner credIdHex dateNow = .ok tx ↔
      credIdHex ≠ "" ∧
      ∃ info nonce vecLen, getAccountInfo (d.findRegistry owner.publicKey) = some info ∧
        Scripts.readNonce info = .ok nonce ∧ Scripts.readVecLen info = .ok vecLen ∧
        1 < vecLen ∧ (hexDecode credIdHex).length < 2 ^ 32 ∧
        proofTransaction p256 alloc owner d.programId
          (removal d owner.publicKey (hexDecode credIdHex)) nonce dateNow = some tx := by
  unfold Scripts.removePasskey
  simp only [bind_eq_ok, requireArguments_eq_ok, typed_single, getAccount_eq_ok, orThrow_eq_ok]
  constructor
  · intro h
    obtain ⟨_, htyped, info, hinfo, nonce, hnonce, vecLen, hvecLen, h⟩ := h
    refine ⟨htyped, ?_⟩
    -- the script stops at one key by itself, before the cluster hears of it
    split at h
    next => cases h
    next hseveral =>
      obtain ⟨_, hid, h⟩ := bind_eq_ok.mp h
      obtain ⟨hlt, rfl⟩ := borshBytes_eq_ok.mp (orThrow_eq_ok.mp hid)
      exact ⟨info, nonce, vecLen, hinfo, hnonce, hvecLen, Nat.lt_of_not_le hseveral, hlt,
        (proofTransaction_sends (readNonce_lt hnonce)).mp h⟩
  · intro h
    obtain ⟨htyped, info, nonce, vecLen, hinfo, hnonce, hvecLen, hseveral, hlt, h⟩ := h
    refine ⟨(), htyped, info, hinfo, nonce, hnonce, vecLen, hvecLen, ?_⟩
    rw [if_neg (Nat.not_le_of_lt hseveral)]
    exact bind_eq_ok.mpr ⟨_, orThrow_eq_ok.mpr (borshBytes_eq_ok.mpr ⟨hlt, rfl⟩),
      (proofTransaction_sends (readNonce_lt hnonce)).mpr h⟩

/-- The removal is possible: another key stays, and there is one to remove. -/
structure CanRemove (cluster : Cluster) (p256 : P256 cluster.curve) (owner : Keypair)
    (dateNow : ℕ) (credentialId : Bytes) (r : PasskeyRegistry) : Prop extends
    CanApprove cluster p256 owner dateNow r where
  several : 1 < r.keys.length
  present : ∃ k ∈ r.keys, k.credentialId = credentialId

theorem removal_signed (w : Pubkey) (credentialId : Bytes) :
    Scripts.SignedOnlyBy w (removal d w credentialId) := by
  intro m hm hsigner
  simp only [removal, Scripts.removeIx, List.mem_cons, List.not_mem_nil, or_false] at hm
  rcases hm with rfl | rfl | rfl
  · cases hsigner
  · rfl
  · cases hsigner

/-- The cluster executes it. -/
theorem removal_lands {credentialId : Bytes} {nonce : ℕ} (hid : credentialId.length < 2 ^ 32)
    (hnonce : nonce < 2 ^ 64)
    (h : proofTransaction p256 alloc owner d.programId (removal d owner.publicKey credentialId)
      nonce dateNow = some tx) :
    Lands cluster d owner.publicKey tx l l' ↔
      RunsCharged cluster owner.publicKey (2 * cluster.lamportsPerSignature)
        (execute d (Sdk.envAt cluster.clock cluster.minimumBalance tx 2)
          (removal d owner.publicKey credentialId).accounts (.removePasskey credentialId)) l l' :=
  (Scripts.lands_proofTransaction rfl (removal_signed _ _) hnonce h).trans
    (RunsCharged.congr fun _ =>
      process_iff (Option.map_eq_some_iff.mpr ⟨_, Codec.vecU8_write _ hid, rfl⟩))

theorem removal_stores {env : Env} {w : Pubkey} {credentialId : Bytes}
    (hr : registryOf d l w = some r)
    (hrun : (execute d env (removal d w credentialId).accounts (.removePasskey credentialId)
      l).Returns l') :
    Stores d l l' (d.findRegistry w)
      { r.consume with keys := r.keys.filter (·.credentialId != credentialId) } := by
  have hlisted : Names (removal d w credentialId).accounts (d.findRegistry w) w :=
    ⟨rfl, _, rfl, rfl, rfl⟩
  cases execute_effect hrun with
  | removePasskey w' r' names found several verified shorter stores =>
    obtain ⟨-, rfl⟩ := names.unique hlisted
    obtain rfl := Option.some.inj (found.symm.trans hr)
    exact stores

theorem removal_lands_iff (hl : Fitting d l) (hanswers : Answers getAccountInfo l) :
    (∃ tx l', Scripts.removePasskey p256 alloc d getAccountInfo owner credIdHex dateNow = .ok tx ∧
        Lands cluster d owner.publicKey tx l l') ↔
      credIdHex ≠ "" ∧
      CanCharge cluster.minimumBalance l owner.publicKey (2 * cluster.lamportsPerSignature) ∧
      ∃ r, registryOf d l owner.publicKey = some r ∧
        CanRemove cluster p256 owner dateNow (hexDecode credIdHex) r := by
  have hl₁ := fitting_charged hl owner.publicKey (2 * cluster.lamportsPerSignature)
  have hkept := registryOf_charged d l owner.publicKey owner.publicKey
    (2 * cluster.lamportsPerSignature)
  constructor
  · intro h
    obtain ⟨tx, l', hsends, hlands⟩ := h
    obtain ⟨htyped, info, nonce, vecLen, hinfo, hnonce, hvecLen, -, hid, htx⟩ :=
      removePasskey_eq_ok.mp hsends
    obtain ⟨hcharge, hrun, -⟩ := (removal_lands hid (readNonce_lt hnonce) htx).mp hlands
    obtain ⟨ctx, hctx, hseveral, hproven, hpresent⟩ :=
      (execute_removePasskey_iff hl₁).mp ⟨l', hrun⟩
    obtain ⟨r, hr, rfl⟩ := removeIx_context.mp hctx
    rw [hkept] at hr
    -- the counter that was signed is the registry's
    have hread := readNonce_eq (hanswers.found _ _ hinfo).2 hr
    obtain rfl := Except.ok.inj (hnonce.symm.trans hread)
    exact ⟨htyped, hcharge, r, hr,
      (proven_iff (by simp [removal, Scripts.removeIx, Scripts.removeDisc]) htx).mp hproven,
      hseveral, hpresent⟩
  · intro h
    obtain ⟨htyped, hcharge, r, hr, happroves, hseveral, hpresent⟩ := h
    obtain ⟨info, hinfo, hbytes⟩ := registry_info hanswers hr
    have hid : (hexDecode credIdHex).length < 2 ^ 32 := by
      obtain ⟨k, hk, hcred⟩ := hpresent
      have hle := ((hl _ r hr).valid k hk).2
      rw [hcred] at hle
      exact Nat.lt_of_le_of_lt hle (by decide)
    obtain ⟨tx, htx⟩ : ∃ tx, proofTransaction p256 alloc owner d.programId
        (removal d owner.publicKey (hexDecode credIdHex)) r.nonce.toNat dateNow = some tx :=
      ⟨_, Scripts.proofTransaction_eq r.nonce.toNat_lt⟩
    have hproven : Proven d (Sdk.envAt cluster.clock cluster.minimumBalance tx 2)
        owner.publicKey r :=
      (proven_iff (by simp [removal, Scripts.removeIx, Scripts.removeDisc]) htx).mpr happroves
    obtain ⟨l', hrun⟩ := (execute_removePasskey_iff hl₁).mpr
      ⟨_, removeIx_context.mpr ⟨r, hkept.trans hr, rfl⟩, hseveral, hproven, hpresent⟩
    have hrent : RentKept cluster.minimumBalance
        (l.charged owner.publicKey (2 * cluster.lamportsPerSignature)) l' :=
      rentKept_free hrun (fun _ => rfl) (hkept.trans hr) (removal_stores (hkept.trans hr) hrun)
    exact ⟨tx, l', removePasskey_eq_ok.mpr ⟨htyped, info, _, _, hinfo, readNonce_eq hbytes hr,
      readVecLen_eq hbytes hr, hseveral, hid, htx⟩,
      (removal_lands hid r.nonce.toNat_lt htx).mpr ⟨hcharge, hrun, hrent⟩⟩

theorem removal_becomes (hr : registryOf d l owner.publicKey = some r)
    (hsends : Scripts.removePasskey p256 alloc d getAccountInfo owner credIdHex dateNow = .ok tx)
    (hlands : Lands cluster d owner.publicKey tx l l') :
    Becomes d l l' owner.publicKey { r.consume with
      keys := r.keys.filter (·.credentialId != hexDecode credIdHex) } := by
  obtain ⟨-, info, nonce, vecLen, -, hnonce, -, -, hid, htx⟩ := removePasskey_eq_ok.mp hsends
  obtain ⟨-, hrun, -⟩ := (removal_lands hid (readNonce_lt hnonce) htx).mp hlands
  rw [← registryOf_charged d l owner.publicKey _ (2 * cluster.lamportsPerSignature)] at hr
  exact (becomes_of_stores (removal_stores hr hrun)).of_charged

/-! ### Adding a key -/

/-- The instruction that goes out. -/
def addition (d : Guard.Deployment) (w treasury : Pubkey) (pubkey credentialId : Bytes) :
    Instruction :=
  Scripts.addPasskeyIx d w treasury
    (Scripts.addDisc ++ [0] ++ lenPrefixed 4 pubkey ++ lenPrefixed 4 credentialId)

/-- What the script sends, and when. -/
theorem addPasskey_eq_ok :
    Scripts.addPasskey p256 alloc d getAccountInfo owner pubkeyHex credIdHex dateNow = .ok tx ↔
      (pubkeyHex ≠ "" ∧ credIdHex ≠ "") ∧
      ∃ info nonce configInfo, getAccountInfo (d.findRegistry owner.publicKey) = some info ∧
        Scripts.readNonce info = .ok nonce ∧ getAccountInfo d.findConfig = some configInfo ∧
        ((hexDecode pubkeyHex).length < 2 ^ 32 ∧ (hexDecode credIdHex).length < 2 ^ 32) ∧
        proofTransaction p256 alloc owner d.programId
          (addition d owner.publicKey (Scripts.readTreasury configInfo) (hexDecode pubkeyHex)
            (hexDecode credIdHex)) nonce dateNow = some tx := by
  unfold Scripts.addPasskey
  simp only [bind_eq_ok, requireArguments_eq_ok, typed_pair, getAccount_eq_ok, orThrow_eq_ok,
    credentialData_eq_ok]
  constructor
  · intro h
    obtain ⟨_, htyped, info, hinfo, nonce, hnonce, configInfo, hconfig, _, ⟨hlens, rfl⟩, h⟩ := h
    exact ⟨htyped, info, nonce, configInfo, hinfo, hnonce, hconfig, hlens,
      (proofTransaction_sends (readNonce_lt hnonce)).mp h⟩
  · intro h
    obtain ⟨htyped, info, nonce, configInfo, hinfo, hnonce, hconfig, hlens, h⟩ := h
    exact ⟨(), htyped, info, hinfo, nonce, hnonce, configInfo, hconfig, _, ⟨hlens, rfl⟩,
      (proofTransaction_sends (readNonce_lt hnonce)).mpr h⟩

/-- The addition is possible: there is room for another key, this one is within the
limits, and the wallet covers the transaction fee and the guard's. -/
structure CanAdd (cluster : Cluster) (p256 : P256 cluster.curve) (owner : Keypair) (dateNow : ℕ)
    (pubkey credentialId : Bytes) (l : Ledger) (cfg : TranaConfig) (r : PasskeyRegistry) :
    Prop extends CanApprove cluster p256 owner dateNow r where
  valid : ValidKeyInputs pubkey credentialId
  room : r.keys.length < maxKeys
  settles : CanSettle cluster.minimumBalance l owner.publicKey cfg.treasury
    (2 * cluster.lamportsPerSignature) 0 cfg.addKeyFee.toNat

/-- Lengths within the limits fit their prefixes. -/
theorem prefixable_of_valid {pubkey credentialId : Bytes} (h : ValidKeyInputs pubkey credentialId) :
    pubkey.length < 2 ^ 32 ∧ credentialId.length < 2 ^ 32 :=
  ⟨Nat.lt_of_le_of_lt h.1 (by decide), Nat.lt_of_le_of_lt h.2 (by decide)⟩

theorem addition_signed (w treasury : Pubkey) (pubkey credentialId : Bytes) :
    Scripts.SignedOnlyBy w (addition d w treasury pubkey credentialId) := by
  intro m hm hsigner
  simp only [addition, Scripts.addPasskeyIx, List.mem_cons, List.not_mem_nil, or_false] at hm
  rcases hm with rfl | rfl | rfl | rfl | rfl | rfl
  case inr.inl => rfl
  all_goals cases hsigner

theorem addition_lands {treasury : Pubkey} {pubkey credentialId : Bytes} {nonce : ℕ}
    (hlens : pubkey.length < 2 ^ 32 ∧ credentialId.length < 2 ^ 32) (hnonce : nonce < 2 ^ 64)
    (h : proofTransaction p256 alloc owner d.programId
      (addition d owner.publicKey treasury pubkey credentialId) nonce dateNow = some tx) :
    Lands cluster d owner.publicKey tx l l' ↔
      RunsCharged cluster owner.publicKey (2 * cluster.lamportsPerSignature)
        (execute d (Sdk.envAt cluster.clock cluster.minimumBalance tx 2)
          (addition d owner.publicKey treasury pubkey credentialId).accounts
          (.addPasskey .secp256r1Passkey pubkey credentialId)) l l' :=
  (Scripts.lands_proofTransaction rfl (addition_signed _ _ _ _) hnonce h).trans
    (RunsCharged.congr fun _ => process_iff
      (write_of_credentialData (credentialData_eq_ok.mpr ⟨hlens, rfl⟩)))

theorem addition_stores {env : Env} {w treasury : Pubkey} {pubkey credentialId : Bytes}
    (hr : registryOf d l w = some r)
    (hrun : (execute d env (addition d w treasury pubkey credentialId).accounts
      (.addPasskey .secp256r1Passkey pubkey credentialId) l).Returns l') :
    Stores d l l' (d.findRegistry w)
      { r.consume with keys := r.keys ++ [⟨.secp256r1Passkey, pubkey, credentialId⟩] } := by
  have hlisted : Names (addition d w treasury pubkey credentialId).accounts (d.findRegistry w) w :=
    ⟨rfl, _, rfl, rfl, rfl⟩
  cases execute_effect hrun with
  | addPasskey w' r' names valid found room verified stores =>
    obtain ⟨-, rfl⟩ := names.unique hlisted
    obtain rfl := Option.some.inj (found.symm.trans hr)
    exact stores

/-- The fee goes from the wallet to the treasury in force. -/
theorem addition_settles {env : Env} {w treasury : Pubkey} {cfg : TranaConfig}
    {pubkey credentialId : Bytes} (hcfg : configOf d l = some cfg)
    (hrun : (execute d env (addition d w treasury pubkey credentialId).accounts
      (.addPasskey .secp256r1Passkey pubkey credentialId) l).Returns l') :
    Settles (lamportsOf l) (lamportsOf l') [⟨w, cfg.treasury, cfg.addKeyFee.toNat⟩] := by
  obtain ⟨w', names, hsettles, -⟩ := addPasskey_settles hrun
  have hlisted : Names (addition d w treasury pubkey credentialId).accounts (d.findRegistry w) w :=
    ⟨rfl, _, rfl, rfl, rfl⟩
  obtain ⟨-, rfl⟩ := names.unique hlisted
  rw [GuardInstruction.payments, feePayment_eq hcfg] at hsettles
  exact hsettles

theorem addition_lands_iff (hl : Fitting d l) (hanswers : Answers getAccountInfo l) :
    (∃ tx l', Scripts.addPasskey p256 alloc d getAccountInfo owner pubkeyHex credIdHex dateNow =
        .ok tx ∧ Lands cluster d owner.publicKey tx l l') ↔
      (pubkeyHex ≠ "" ∧ credIdHex ≠ "") ∧
      ∃ r cfg, registryOf d l owner.publicKey = some r ∧ configOf d l = some cfg ∧
        CanAdd cluster p256 owner dateNow (hexDecode pubkeyHex) (hexDecode credIdHex) l cfg r := by
  have hl₁ := fitting_charged hl owner.publicKey (2 * cluster.lamportsPerSignature)
  have hkept := registryOf_charged d l owner.publicKey owner.publicKey
    (2 * cluster.lamportsPerSignature)
  have hconfigured := configOf_charged d l owner.publicKey (2 * cluster.lamportsPerSignature)
  constructor
  · intro h
    obtain ⟨tx, l', hsends, hlands⟩ := h
    obtain ⟨htyped, info, nonce, configInfo, hinfo, hnonce, hconfig, hlens, htx⟩ :=
      addPasskey_eq_ok.mp hsends
    obtain ⟨hcharge, hrun, hrent⟩ := (addition_lands hlens (readNonce_lt hnonce) htx).mp hlands
    obtain ⟨ctx, hctx, hvalid, hroom, hproven, hpays⟩ :=
      (execute_addPasskey_iff hl₁).mp ⟨l', hrun⟩
    obtain ⟨r, cfg, hr₁, hcfg₁, htreasury, rfl⟩ := addPasskeyIx_context.mp hctx
    -- the charge comes first and leaves registry and config alone
    have hr := hkept.symm.trans hr₁
    -- the script's nonce is the registry's, so the signature is for the right number
    have hread := readNonce_eq (hanswers.found _ _ hinfo).2 hr
    obtain rfl := Except.ok.inj (hnonce.symm.trans hread)
    have happroves := (proven_iff (by simp [addition, Scripts.addPasskeyIx, Scripts.addDisc])
      htx).mp hproven
    rw [htreasury] at hpays
    obtain ⟨hcovered, hcredit⟩ := (canPay_charged hcharge).mp hpays
    obtain ⟨hleft, hreceived⟩ := (rentKept_paid hcharge hcovered (addition_settles hcfg₁ hrun)
      (stores_size (addition_stores hr₁ hrun) hr₁)).mp hrent
    exact ⟨htyped, r, cfg, hr, hconfigured.symm.trans hcfg₁, happroves, hvalid, hroom,
      hcharge, hcovered, hcredit, hleft, hreceived⟩
  · intro h
    obtain ⟨htyped, r, cfg, hr, hcfg, happroves, hvalid, hroom, hsettles⟩ := h
    obtain ⟨hcharge, hcovered, hcredit, hleft, hreceived⟩ := hsettles
    -- the other way: the script finds everything it reads, and builds a transaction
    obtain ⟨info, hinfo, hbytes⟩ := registry_info hanswers hr
    obtain ⟨configInfo, hconfig, htreasury⟩ := readTreasury_eq hanswers hcfg
    have hlens := prefixable_of_valid hvalid
    obtain ⟨tx, htx⟩ : ∃ tx, proofTransaction p256 alloc owner d.programId
        (addition d owner.publicKey (Scripts.readTreasury configInfo) (hexDecode pubkeyHex)
          (hexDecode credIdHex)) r.nonce.toNat dateNow = some tx :=
      ⟨_, Scripts.proofTransaction_eq r.nonce.toNat_lt⟩
    have hproven : Proven d (Sdk.envAt cluster.clock cluster.minimumBalance tx 2)
        owner.publicKey r :=
      (proven_iff (by simp [addition, Scripts.addPasskeyIx, Scripts.addDisc]) htx).mpr happroves
    have hpays : CanPay (l.charged owner.publicKey (2 * cluster.lamportsPerSignature))
        owner.publicKey cfg.treasury cfg.addKeyFee :=
      (canPay_charged hcharge).mpr ⟨hcovered, hcredit⟩
    rw [← htreasury] at hpays
    have hr₁ := hkept.trans hr
    have hcfg₁ := hconfigured.trans hcfg
    obtain ⟨l', hrun⟩ := (execute_addPasskey_iff hl₁).mpr
      ⟨_, addPasskeyIx_context.mpr ⟨r, cfg, hr₁, hcfg₁, htreasury, rfl⟩, hvalid, hroom, hproven,
        hpays⟩
    have hrent := (rentKept_paid hcharge hcovered (addition_settles hcfg₁ hrun)
      (stores_size (addition_stores hr₁ hrun) hr₁)).mpr ⟨hleft, hreceived⟩
    exact ⟨tx, l', addPasskey_eq_ok.mpr ⟨htyped, info, _, _, hinfo, readNonce_eq hbytes hr, hconfig,
      hlens, htx⟩, (addition_lands hlens r.nonce.toNat_lt htx).mpr ⟨hcharge, hrun, hrent⟩⟩

/-- The guard takes one step, after the charge. -/
theorem addition_run
    (hsends : Scripts.addPasskey p256 alloc d getAccountInfo owner pubkeyHex credIdHex dateNow =
      .ok tx) (hlands : Lands cluster d owner.publicKey tx l l') :
    ∃ trace, Run (Guard.Step d) l trace l' := by
  obtain ⟨-, info, nonce, configInfo, -, hnonce, -, hlens, htx⟩ := addPasskey_eq_ok.mp hsends
  obtain ⟨-, hrun, -⟩ := (Scripts.lands_proofTransaction rfl (addition_signed _ _ _ _)
    (readNonce_lt hnonce) htx).mp hlands
  exact ⟨_, .cons (step_charged d l _ _) (.cons (.executed (c := ⟨_, _, _⟩) hrun) (.nil l'))⟩

theorem addition_becomes (hr : registryOf d l owner.publicKey = some r)
    (hsends : Scripts.addPasskey p256 alloc d getAccountInfo owner pubkeyHex credIdHex dateNow =
      .ok tx) (hlands : Lands cluster d owner.publicKey tx l l') :
    Becomes d l l' owner.publicKey { r.consume with
      keys := r.keys ++ [⟨.secp256r1Passkey, hexDecode pubkeyHex, hexDecode credIdHex⟩] } := by
  obtain ⟨-, info, nonce, configInfo, -, hnonce, -, hlens, htx⟩ := addPasskey_eq_ok.mp hsends
  obtain ⟨-, hrun, -⟩ := (addition_lands hlens (readNonce_lt hnonce) htx).mp hlands
  rw [← registryOf_charged d l owner.publicKey _ (2 * cluster.lamportsPerSignature)] at hr
  exact (becomes_of_stores (addition_stores hr hrun)).of_charged

/-- What is left in the wallet. -/
theorem addition_pays {cfg : TranaConfig}
    (hwallet : owner.publicKey ≠ d.findRegistry owner.publicKey)
    (hr : registryOf d l owner.publicKey = some r) (hcfg : configOf d l = some cfg)
    (hsends : Scripts.addPasskey p256 alloc d getAccountInfo owner pubkeyHex credIdHex dateNow =
      .ok tx) (hlands : Lands cluster d owner.publicKey tx l l') :
    ((l' owner.publicKey).owner = (l owner.publicKey).owner ∧
      (l' owner.publicKey).data = (l owner.publicKey).data) ∧
    lamportsOf l' owner.publicKey + (2 * cluster.lamportsPerSignature + cfg.addKeyFee.toNat) =
      lamportsOf l owner.publicKey +
        if cfg.treasury = owner.publicKey then cfg.addKeyFee.toNat else 0 := by
  obtain ⟨-, info, nonce, configInfo, -, hnonce, -, hlens, htx⟩ := addPasskey_eq_ok.mp hsends
  obtain ⟨hcharge, hrun, -⟩ := (addition_lands hlens (readNonce_lt hnonce) htx).mp hlands
  have hsame := charged_sameState l owner.publicKey (2 * cluster.lamportsPerSignature)
    owner.publicKey
  rw [← registryOf_charged d l owner.publicKey _ (2 * cluster.lamportsPerSignature)] at hr
  rw [← configOf_charged d l owner.publicKey (2 * cluster.lamportsPerSignature)] at hcfg
  obtain ⟨howner, hdata⟩ := (addition_stores hr hrun).frame _ hwallet
  refine ⟨⟨howner.trans hsame.1, hdata.trans hsame.2⟩, ?_⟩
  have hsettles := addition_settles hcfg hrun owner.publicKey
  have hcovered := hcharge.covered
  simp only [Payment.paid_cons, Payment.paid_nil, Payment.received_cons, Payment.received_nil,
    if_true, Nat.add_zero, lamportsOf_charged_self hcovered] at hsettles
  omega

/-! ### Recovering -/

/-- The instruction that goes out. -/
def recovery (d : Guard.Deployment) (w : Pubkey) (pubkey credentialId : Bytes) : Instruction :=
  Scripts.recoverIx d w
    (Scripts.recoverDisc ++ [0] ++ lenPrefixed 4 pubkey ++ lenPrefixed 4 credentialId)

/-- What the script sends, and when. A key of 33 bytes was typed. -/
theorem recoverRegistry_eq_ok :
    Scripts.recoverRegistry d getAccountInfo owner pubkeyHex credIdHex = .ok tx ↔
      credIdHex ≠ "" ∧ (hexDecode pubkeyHex).length = 33 ∧
        (hexDecode credIdHex).length < 2 ^ 32 ∧
        (∃ n, Scripts.nKeys (getAccountInfo (d.findRegistry owner.publicKey)) = .ok n) ∧
        tx = [recovery d owner.publicKey (hexDecode pubkeyHex) (hexDecode credIdHex)] := by
  unfold Scripts.recoverRegistry
  dsimp only
  simp only [bind_eq_ok, requireArguments_eq_ok, typed_pair]
  by_cases hlen : (hexDecode pubkeyHex).length = 33
  · have htyped : pubkeyHex ≠ "" := by
      rintro rfl
      exact absurd hlen (by decide)
    rw [if_neg (not_not_intro hlen)]
    simp only [bind_eq_ok, orThrow_eq_ok, credentialData_eq_ok]
    constructor
    · intro h
      obtain ⟨_, ⟨-, hcred⟩, n, hn, _, ⟨⟨-, hid⟩, rfl⟩, h⟩ := h
      exact ⟨hcred, hlen, hid, ⟨n, hn⟩, (Except.ok.inj h).symm⟩
    · intro h
      obtain ⟨hcred, -, hid, ⟨n, hn⟩, rfl⟩ := h
      exact ⟨(), ⟨htyped, hcred⟩, n, hn, _, ⟨⟨by rw [hlen]; decide, hid⟩, rfl⟩, rfl⟩
  · rw [if_pos hlen]
    constructor
    · intro h
      obtain ⟨_, -, h⟩ := h
      cases h
    · intro h
      exact absurd h.2.1 hlen

theorem recovery_signed (w : Pubkey) (pubkey credentialId : Bytes) :
    Scripts.SignedOnlyBy w (recovery d w pubkey credentialId) := by
  intro m hm hsigner
  simp only [recovery, Scripts.recoverIx, List.mem_cons, List.not_mem_nil, or_false] at hm
  rcases hm with rfl | rfl | rfl
  · cases hsigner
  · rfl
  · cases hsigner

theorem recovery_lands {pubkey credentialId : Bytes} (hkey : pubkey.length < 2 ^ 32)
    (hid : credentialId.length < 2 ^ 32) :
    Lands cluster d owner.publicKey [recovery d owner.publicKey pubkey credentialId] l l' ↔
      RunsCharged cluster owner.publicKey cluster.lamportsPerSignature
        (execute d (Sdk.envAt cluster.clock cluster.minimumBalance
            [recovery d owner.publicKey pubkey credentialId] 0)
          (recovery d owner.publicKey pubkey credentialId).accounts
          (.recoverRegistry .secp256r1Passkey pubkey credentialId)) l l' :=
  (Scripts.lands_single rfl (recovery_signed _ _ _)).trans
    (RunsCharged.congr fun _ => process_iff
      (write_of_credentialData (credentialData_eq_ok.mpr ⟨⟨hkey, hid⟩, rfl⟩)))

theorem recovery_stores {env : Env} {w : Pubkey} {pubkey credentialId : Bytes}
    (hrun : (execute d env (recovery d w pubkey credentialId).accounts
      (.recoverRegistry .secp256r1Passkey pubkey credentialId) l).Returns l') :
    Stores d l l' (d.findRegistry w) ⟨w, 0, [⟨.secp256r1Passkey, pubkey, credentialId⟩]⟩ := by
  have hlisted : Names (recovery d w pubkey credentialId).accounts (d.findRegistry w) w :=
    ⟨rfl, _, rfl, rfl, rfl⟩
  cases execute_effect hrun with
  | recoverRegistry w' r names valid found stores =>
    obtain ⟨-, rfl⟩ := names.unique hlisted
    exact stores

theorem recovery_lands_iff (hl : Fitting d l) (hanswers : Answers getAccountInfo l) :
    (∃ tx l', Scripts.recoverRegistry d getAccountInfo owner pubkeyHex credIdHex = .ok tx ∧
        Lands cluster d owner.publicKey tx l l') ↔
      (∃ r, registryOf d l owner.publicKey = some r) ∧
        CanCharge cluster.minimumBalance l owner.publicKey cluster.lamportsPerSignature ∧
        credIdHex ≠ "" ∧ (hexDecode pubkeyHex).length = 33 ∧
        (hexDecode credIdHex).length ≤ PasskeyRegistry.maxCredIdLen := by
  have hl₁ := fitting_charged hl owner.publicKey cluster.lamportsPerSignature
  have hkept := registryOf_charged d l owner.publicKey owner.publicKey cluster.lamportsPerSignature
  constructor
  · intro h
    obtain ⟨tx, l', hsends, hlands⟩ := h
    obtain ⟨htyped, hlen, hid, -, rfl⟩ := recoverRegistry_eq_ok.mp hsends
    obtain ⟨hcharge, hrun, -⟩ := (recovery_lands (by rw [hlen]; decide) hid).mp hlands
    obtain ⟨⟨ctx, hctx⟩, hvalid⟩ := (execute_recoverRegistry_iff hl₁).mp ⟨l', hrun⟩
    obtain ⟨r, hr, -⟩ := recoverIx_context.mp hctx
    exact ⟨⟨r, hkept.symm.trans hr⟩, hcharge, htyped, hlen, hvalid.2⟩
  · intro h
    obtain ⟨⟨r, hr⟩, hcharge, htyped, hlen, hid⟩ := h
    have hvalid : ValidKeyInputs (hexDecode pubkeyHex) (hexDecode credIdHex) :=
      ⟨Nat.le_of_eq hlen, hid⟩
    have hlens := prefixable_of_valid hvalid
    obtain ⟨info, hinfo, hbytes⟩ := registry_info hanswers hr
    -- the script counts the keys about to go, only to print the number
    have hcount : Scripts.nKeys (getAccountInfo (d.findRegistry owner.publicKey)) =
        .ok r.keys.length := by
      rw [hinfo]
      exact orThrow_eq_ok.mpr (readVecLen_eq hbytes hr)
    have hr₁ := hkept.trans hr
    obtain ⟨l', hrun⟩ := (execute_recoverRegistry_iff hl₁).mpr
      ⟨⟨_, recoverIx_context.mpr ⟨r, hr₁, rfl⟩⟩, hvalid⟩
    have hrent : RentKept cluster.minimumBalance
        (l.charged owner.publicKey cluster.lamportsPerSignature) l' :=
      rentKept_free hrun (fun _ => rfl) hr₁ (recovery_stores hrun)
    exact ⟨_, l', recoverRegistry_eq_ok.mpr ⟨htyped, hlen, hlens.2, ⟨_, hcount⟩, rfl⟩,
      (recovery_lands hlens.1 hlens.2).mpr ⟨hcharge, hrun, hrent⟩⟩

theorem recovery_becomes
    (hsends : Scripts.recoverRegistry d getAccountInfo owner pubkeyHex credIdHex = .ok tx)
    (hlands : Lands cluster d owner.publicKey tx l l') :
    Becomes d l l' owner.publicKey ⟨owner.publicKey, 0,
      [⟨.secp256r1Passkey, hexDecode pubkeyHex, hexDecode credIdHex⟩]⟩ := by
  obtain ⟨-, hlen, hid, -, rfl⟩ := recoverRegistry_eq_ok.mp hsends
  obtain ⟨-, hrun, -⟩ := (recovery_lands (by rw [hlen]; decide) hid).mp hlands
  exact (becomes_of_stores (recovery_stores hrun)).of_charged

/-- A wallet that has a registry keeps one. -/
theorem registered_run {l₀ : Ledger} {w : Pubkey} {trace : List Guard.Moment}
    (hl : Layout d l₀) (hregistered : registryOf d l₀ w ≠ none)
    (hrun : Run (Guard.Step d) l₀ trace l) : ∃ r, registryOf d l w = some r := by
  have hring : (ringOf d w l₀).isSome = true := by
    rw [ringOf, Option.isSome_map]
    exact Option.isSome_iff_ne_none.mpr hregistered
  have hkept := Keyring.isSome_run (run_refines hl hrun w) hring
  rw [ringOf, Option.isSome_map] at hkept
  exact Option.isSome_iff_exists.mp hkept

end Scripts

/-! ## A wallet of the command line -/

section CommandLine

open Sdk (zeroed)
open Sdk.Localnet (treasury passkey minimumBalance call writableMeta signerMeta readonlyMeta
  devnetConfigPda devnetId_ne_system devnetId_ne_secp)

/-- The keypair of the seed with 32 fives. -/
def cli : Keypair where
  publicKey := ⟨[110, 122, 28, 221, 41, 176, 183, 143, 209, 58, 244, 197, 89, 143, 239, 244, 239,
    42, 151, 22, 110, 60, 166, 242, 228, 251, 252, 205, 128, 80, 91, 241], by decide⟩
  secretKey := List.replicate 32 5 ++ [110, 122, 28, 221, 41, 176, 183, 143, 209, 58, 244, 197, 89,
    143, 239, 244, 239, 42, 151, 22, 110, 60, 166, 242, 228, 251, 252, 205, 128, 80, 91, 241]

/-- Its registry PDA, bump 255. -/
def cliRegistry : Pubkey :=
  ⟨[32, 120, 26, 48, 245, 32, 202, 58, 254, 184, 167, 181, 94, 210, 71, 46, 179, 251, 109, 176, 80,
    176, 25, 101, 150, 138, 162, 113, 93, 71, 234, 34], by decide⟩

/-- The P-256 key derived from it. -/
def cliKey : Bytes :=
  [3, 179, 59, 255, 195, 78, 247, 132, 150, 184, 15, 154, 134, 73, 167, 233, 234, 210, 116, 195,
    166, 73, 235, 230, 21, 213, 159, 129, 51, 179, 9, 70, 25]

def cliCredential : Bytes :=
  [245, 109, 248, 171, 76, 141, 154, 10, 116, 119, 227, 204, 24, 74, 205, 95]

example : Scripts.derivedCredentialId cli = cliCredential := by decide +kernel

/-- The devnet program, with the derived addresses of this wallet. -/
def cliDeployment : Guard.Deployment where
  programId := devnetId
  findRegistry := Equiv.swap cli.publicKey cliRegistry
  findConfig := devnetConfigPda
  registry_inj := (Equiv.swap cli.publicKey cliRegistry).injective
  programId_ne := devnetId_ne_system
  programId_ne_secp := devnetId_ne_secp

/-- The curve and the library, as far as one message signed with the derived key goes. -/
def cliCurve (signature : Bytes) : Secp256r1.Curve := fun key _ sig =>
  key == cliKey && sig == signature

/-- Five thousand lamports for a signature, as on the public clusters. -/
def cliCluster (signature : Bytes) : Cluster :=
  ⟨cliCurve signature, ⟨5, 500⟩, minimumBalance, 5000⟩

def cliP256 (signature : Bytes) (h : signature.length = 64) :
    P256 (cliCluster signature).curve where
  getPublicKey _ := cliKey
  sign _ _ := signature
  length_getPublicKey _ := by decide
  length_sign _ _ := h
  verifies _ _ := by simp [cliCluster, cliCurve]

/-- Nothing exists but the wallet's ten SOL. -/
def cliGenesis : Ledger :=
  Ledger.set (fun _ => ⟨0, systemProgramId, []⟩) cli.publicKey ⟨10000000000, systemProgramId, []⟩

def cliConfigIx : Instruction where
  programId := devnetId
  accounts := [writableMeta devnetConfigPda, signerMeta cli.publicKey, readonlyMeta systemProgramId]
  data := initConfigDisc ++ leBytes 8 0 ++ leBytes 8 0 ++ treasury.bytes

/-- What `register-passkey.mjs` sends. -/
def cliRegisterIx : Instruction :=
  Scripts.registerIx cliDeployment cli.publicKey treasury
    (Scripts.registerDisc ++ [0] ++ lenPrefixed 4 cliKey ++ lenPrefixed 4 cliCredential)

def cliSetup : List Guard.Call :=
  [call [cliConfigIx] 0 cliConfigIx, call [cliRegisterIx] 0 cliRegisterIx]

def cliRegistered : Ledger :=
  ((runCalls cliDeployment cliGenesis cliSetup).map Prod.snd).getD cliGenesis

theorem cliGenesis_genesis : Ledger.Genesis devnetId cliGenesis := by
  intro k hk
  by_cases hw : k = cli.publicKey
  · subst hw
    rw [cliGenesis, Ledger.set_self] at hk
    exact absurd hk (by decide)
  · rw [cliGenesis, Ledger.set_of_ne _ hw] at hk
    exact absurd hk (by decide)

theorem reachable_cliRegistered : Reachable cliDeployment cliRegistered := by
  have hsome : (runCalls cliDeployment cliGenesis cliSetup).isSome = true := by decide +kernel
  obtain ⟨⟨trace, l⟩, h⟩ := Option.isSome_iff_exists.mp hsome
  refine ⟨cliGenesis, trace, cliGenesis_genesis, ?_⟩
  rw [cliRegistered, h]
  exact run_of_runCalls h

/-- The wallet's registry, with the derived key. -/
def cliFirst : PasskeyRegistry := ⟨cli.publicKey, 0, [⟨.secp256r1Passkey, cliKey, cliCredential⟩]⟩

theorem cliRegistered_holds :
    registryOf cliDeployment cliRegistered cli.publicKey = some cliFirst ∧
      configOf cliDeployment cliRegistered = some ⟨cli.publicKey, treasury, 0, 0⟩ := by
  decide +kernel

/-- A passkey from the browser, in hexadecimal. -/
def browserKey : String := hexEncode passkey

theorem hexDecode_browserKey : hexDecode browserKey = passkey := hexDecode_hexEncode passkey

theorem browserKey_typed : browserKey ≠ "" := by
  intro h
  have hkey := hexDecode_browserKey
  rw [h] at hkey
  exact absurd hkey (by decide)

/-- The derived key's signatures, for the addition of that key and for the removal of
the derived key after it. -/
def additionSignature : Bytes :=
  [217, 94, 11, 42, 150, 135, 40, 102, 83, 169, 94, 8, 25, 74, 188, 113, 179, 12, 2, 10, 191,
    90, 43, 110, 45, 156, 223, 171, 15, 5, 34, 86, 82, 156, 184, 136, 50, 8, 50, 163, 32, 187,
    38, 183, 234, 191, 69, 145, 21, 190, 167, 18, 64, 89, 73, 61, 106, 254, 185, 129, 150, 95,
    37, 179]

def removalSignature : Bytes :=
  [97, 190, 216, 205, 75, 90, 34, 173, 43, 54, 17, 148, 36, 183, 109, 211, 55, 38, 132, 230,
    64, 98, 158, 214, 97, 190, 234, 11, 145, 188, 100, 187, 95, 38, 117, 7, 182, 212, 184, 177,
    247, 143, 168, 127, 181, 14, 225, 79, 202, 31, 14, 27, 179, 116, 245, 245, 178, 236, 185,
    92, 107, 188, 160, 49]

/-- The wallet and the treasury behind them. -/
theorem cliRegistered_balances :
    ((cliRegistered cli.publicKey).owner = systemProgramId ∧
      (cliRegistered cli.publicKey).data = []) ∧
    lamportsOf cliRegistered cli.publicKey = 9985411840 ∧
    lamportsOf cliRegistered treasury = 0 := by
  decide +kernel

theorem treasury_ne_cli : treasury ≠ cli.publicKey := by decide

/-- What a wallet has to keep, or nothing. -/
theorem minimumBalance_wallet : (minimumBalance 0).toNat = 890880 := by decide

section Funds

variable {l : Ledger} {balance fee rent : ℕ}

/-- With so much in it, the wallet can pay for a few signatures. -/
theorem canCharge_cli (howner : (l cli.publicKey).owner = systemProgramId)
    (hdata : (l cli.publicKey).data = []) (hbalance : lamportsOf l cli.publicKey = balance)
    (hcovers : 10 ^ 9 ≤ balance) (hfee : fee ≤ 10000) :
    CanCharge minimumBalance l cli.publicKey fee where
  owner := howner
  data := hdata
  funded := by omega
  covered := by omega
  rent := by
    rw [minimumBalance_wallet]
    exact Or.inr (Or.inl (by omega))

/-- And for a small account. The treasury gets nothing. -/
theorem canSettle_cli (howner : (l cli.publicKey).owner = systemProgramId)
    (hdata : (l cli.publicKey).data = []) (hbalance : lamportsOf l cli.publicKey = balance)
    (htreasury : lamportsOf l treasury = 0) (hcovers : 10 ^ 9 ≤ balance) (hfee : fee ≤ 10000)
    (hrent : rent ≤ 10 ^ 8) : CanSettle minimumBalance l cli.publicKey treasury fee rent 0 where
  charge := canCharge_cli howner hdata hbalance hcovers hfee
  covered := by omega
  room := Or.inr (by omega)
  left := by
    rw [if_neg treasury_ne_cli, minimumBalance_wallet]
    exact Or.inr (Or.inl (by omega))
  received := Or.inr (.refl _ _)

end Funds

theorem cliFirst_canAdd :
    CanAdd (cliCluster additionSignature) (cliP256 additionSignature rfl) cli 500000
      (hexDecode browserKey) (hexDecode "01") cliRegistered ⟨cli.publicKey, treasury, 0, 0⟩
      cliFirst where
  registered := ⟨_, List.mem_singleton_self _, rfl⟩
  fresh := by decide
  counter := by decide
  valid := by
    rw [hexDecode_browserKey]
    exact ⟨by decide, by decide⟩
  room := by decide
  settles := by
    obtain ⟨⟨howner, hdata⟩, hwallet, htreasury⟩ := cliRegistered_balances
    exact canSettle_cli howner hdata hwallet htreasury (by decide) (by decide) (by decide)

/-- With the browser's key as well. -/
def cliSecond : PasskeyRegistry := { cliFirst.consume with
  keys := cliFirst.keys ++ [⟨.secp256r1Passkey, hexDecode browserKey, hexDecode "01"⟩] }

theorem cliSecond_canRemove :
    CanRemove (cliCluster removalSignature) (cliP256 removalSignature rfl) cli 500000
      (hexDecode "f56df8ab4c8d9a0a7477e3cc184acd5f") cliSecond where
  registered := ⟨_, List.mem_cons_self, rfl⟩
  fresh := by decide
  counter := by decide
  several := by decide
  present := ⟨_, List.mem_cons_self, by decide⟩

/-- What stays when the derived key goes. -/
theorem cliSecond_kept :
    cliSecond.keys.filter (·.credentialId != hexDecode "f56df8ab4c8d9a0a7477e3cc184acd5f") =
      [⟨.secp256r1Passkey, hexDecode browserKey, hexDecode "01"⟩] := by
  decide +kernel

/-- A transaction of the command line, on the cluster with this ledger. -/
def CliLands (signature : Bytes) (l : Ledger) (script : Scripts.Script (List Instruction))
    (tx : List Instruction) (l' : Ledger) : Prop :=
  script = .ok tx ∧ Lands (cliCluster signature) cliDeployment cli.publicKey tx l l'

def cliAdd (l : Ledger) : Scripts.Script (List Instruction) :=
  Scripts.addPasskey (cliP256 additionSignature rfl) zeroed cliDeployment (answer l) cli browserKey
    "01" 500000

def cliRemove (l : Ledger) : Scripts.Script (List Instruction) :=
  Scripts.removePasskey (cliP256 removalSignature rfl) zeroed cliDeployment (answer l) cli
    "f56df8ab4c8d9a0a7477e3cc184acd5f" 500000

def cliRecover (l : Ledger) : Scripts.Script (List Instruction) :=
  Scripts.recoverRegistry cliDeployment (answer l) cli browserKey "02"

/-- The script adds it. -/
theorem cli_added :
    ∃ tx l, CliLands additionSignature cliRegistered (cliAdd cliRegistered) tx l := by
  obtain ⟨hr, hcfg⟩ := cliRegistered_holds
  exact (addition_lands_iff (fitting_of_reachable reachable_cliRegistered)
    (answers_answer cliRegistered)).mpr
      ⟨⟨browserKey_typed, by decide⟩, cliFirst, _, hr, hcfg, cliFirst_canAdd⟩

/-- The ledger behind its transaction: the key is there, and the wallet can go on paying. -/
theorem run_cliAdded : ∃ trace l, Run (Guard.Step cliDeployment) cliRegistered trace l ∧
    registryOf cliDeployment l cli.publicKey = some cliSecond ∧
    ∀ fee ≤ 10000, CanCharge minimumBalance l cli.publicKey fee := by
  obtain ⟨tx, l, hsends, hlands⟩ := cli_added
  obtain ⟨trace, hrun⟩ := addition_run hsends hlands
  obtain ⟨hr, hcfg⟩ := cliRegistered_holds
  obtain ⟨⟨howner, hdata⟩, hwallet, -⟩ := cliRegistered_balances
  obtain ⟨⟨howner', hdata'⟩, hpays⟩ := addition_pays (by decide +kernel) hr hcfg hsends hlands
  have hleft : lamportsOf l cli.publicKey = 9985401840 := by
    have hpaid : lamportsOf l cli.publicKey + 10000 = lamportsOf cliRegistered cli.publicKey + 0 :=
      hpays.trans (congrArg _ (if_neg treasury_ne_cli))
    rw [hwallet] at hpaid
    exact Nat.add_right_cancel hpaid
  exact ⟨trace, l, hrun, (addition_becomes hr hsends hlands).own,
    fun _ => canCharge_cli (howner'.trans howner) (hdata'.trans hdata) hleft (by decide)⟩

theorem reachable_cliAdded {trace : List Guard.Moment} {l : Ledger}
    (hrun : Run (Guard.Step cliDeployment) cliRegistered trace l) : Reachable cliDeployment l := by
  obtain ⟨l₀, before, hgenesis, hbefore⟩ := reachable_cliRegistered
  exact ⟨l₀, before ++ trace, hgenesis, hbefore.append hrun⟩

end CommandLine

/-! ## What the scripts do -/

section Scripts

variable {d : Guard.Deployment} {l l₀ : Ledger} {cluster : Cluster} {p256 : P256 cluster.curve}
  {alloc : Sdk.AllocUnsafe} {owner : Keypair} {getAccountInfo : Pubkey → Option AccountInfo}
  {pubkeyHex credIdHex : String} {dateNow : ℕ}

/-- In every state the guard can get into, `add-passkey.mjs` adds the key if and only
if key and id were typed, there are a config and a registry with room, the key is
within the limits, the derived key can approve, and the wallet covers the fee for
two signatures and the guard's fee, without leaving anybody short of rent; and then
that key comes last, for one nonce. -/
theorem add_script (hreach : Reachable d l) (hanswers : Answers getAccountInfo l) :
    ((∃ tx l', Scripts.addPasskey p256 alloc d getAccountInfo owner pubkeyHex credIdHex dateNow =
        .ok tx ∧ Lands cluster d owner.publicKey tx l l') ↔
      (pubkeyHex ≠ "" ∧ credIdHex ≠ "") ∧
      ∃ r cfg, registryOf d l owner.publicKey = some r ∧ configOf d l = some cfg ∧
        CanAdd cluster p256 owner dateNow (hexDecode pubkeyHex) (hexDecode credIdHex) l cfg r) ∧
    ∀ tx l' r, Scripts.addPasskey p256 alloc d getAccountInfo owner pubkeyHex credIdHex dateNow =
        .ok tx → Lands cluster d owner.publicKey tx l l' →
      registryOf d l owner.publicKey = some r →
      Becomes d l l' owner.publicKey { r.consume with
        keys := r.keys ++ [⟨.secp256r1Passkey, hexDecode pubkeyHex, hexDecode credIdHex⟩] } := by
  refine ⟨addition_lands_iff (fitting_of_reachable hreach) hanswers, ?_⟩
  intro tx l' r hsends hlands hr
  exact addition_becomes hr hsends hlands

theorem add_script_cli : ∃ tx l,
    CliLands additionSignature cliRegistered (cliAdd cliRegistered) tx l ∧
      Becomes cliDeployment cliRegistered l cli.publicKey cliSecond := by
  obtain ⟨hr, hcfg⟩ := cliRegistered_holds
  have hsent : ∃ tx l, CliLands additionSignature cliRegistered (cliAdd cliRegistered) tx l :=
    (add_script reachable_cliRegistered (answers_answer cliRegistered)).1.mpr
      ⟨⟨browserKey_typed, by decide⟩, cliFirst, _, hr, hcfg, cliFirst_canAdd⟩
  obtain ⟨tx, l, hsends, hlands⟩ := hsent
  exact ⟨tx, l, ⟨hsends, hlands⟩, (add_script reachable_cliRegistered
    (answers_answer cliRegistered)).2 tx l cliFirst hsends hlands hr⟩

/-- In every state the guard can get into, `remove-passkey.mjs` removes the key if
and only if an id was typed, the wallet covers the fee for two signatures, the
registry has that key and another one, and the derived key can approve; and then it
is what goes, for one nonce. -/
theorem remove_script (hreach : Reachable d l) (hanswers : Answers getAccountInfo l) :
    ((∃ tx l', Scripts.removePasskey p256 alloc d getAccountInfo owner credIdHex dateNow = .ok tx ∧
        Lands cluster d owner.publicKey tx l l') ↔
      credIdHex ≠ "" ∧
      CanCharge cluster.minimumBalance l owner.publicKey (2 * cluster.lamportsPerSignature) ∧
      ∃ r, registryOf d l owner.publicKey = some r ∧
        CanRemove cluster p256 owner dateNow (hexDecode credIdHex) r) ∧
    ∀ tx l' r, Scripts.removePasskey p256 alloc d getAccountInfo owner credIdHex dateNow =
        .ok tx → Lands cluster d owner.publicKey tx l l' →
      registryOf d l owner.publicKey = some r →
      Becomes d l l' owner.publicKey { r.consume with
        keys := r.keys.filter (·.credentialId != hexDecode credIdHex) } := by
  refine ⟨removal_lands_iff (fitting_of_reachable hreach) hanswers, ?_⟩
  intro tx l' r hsends hlands hr
  exact removal_becomes hr hsends hlands

/-- Then the derived key goes. -/
theorem remove_script_cli : ∃ l tx l',
    registryOf cliDeployment l cli.publicKey = some cliSecond ∧
    CliLands removalSignature l (cliRemove l) tx l' ∧
      Becomes cliDeployment l l' cli.publicKey
        ⟨cli.publicKey, 2, [⟨.secp256r1Passkey, hexDecode browserKey, hexDecode "01"⟩]⟩ := by
  obtain ⟨trace, l, hrun, hr, hcharge⟩ := run_cliAdded
  have hreach := reachable_cliAdded hrun
  have hsent : ∃ tx l', CliLands removalSignature l (cliRemove l) tx l' :=
    (remove_script hreach (answers_answer l)).1.mpr
      ⟨by decide, hcharge _ (by decide), cliSecond, hr, cliSecond_canRemove⟩
  obtain ⟨tx, l', hsends, hlands⟩ := hsent
  have hbecomes := (remove_script hreach (answers_answer l)).2 tx l' cliSecond hsends hlands hr
  rw [cliSecond_kept] at hbecomes
  exact ⟨l, tx, l', hr, ⟨hsends, hlands⟩, hbecomes⟩

/-- Once a wallet has a registry, then whatever happens to the registry afterwards,
`recover-registry.mjs` works as long as the wallet covers the fee for one signature:
for any key of 33 bytes and any id within the limit that was typed, and for nothing
else; and then that key is all that is left, with a counter of zero. -/
theorem recover_script {trace : List Guard.Moment} (hreach : Reachable d l₀)
    (hregistered : registryOf d l₀ owner.publicKey ≠ none) (hrun : Run (Guard.Step d) l₀ trace l)
    (hanswers : Answers getAccountInfo l) :
    ((∃ tx l', Scripts.recoverRegistry d getAccountInfo owner pubkeyHex credIdHex = .ok tx ∧
        Lands cluster d owner.publicKey tx l l') ↔
      CanCharge cluster.minimumBalance l owner.publicKey cluster.lamportsPerSignature ∧
        credIdHex ≠ "" ∧ (hexDecode pubkeyHex).length = 33 ∧
        (hexDecode credIdHex).length ≤ PasskeyRegistry.maxCredIdLen) ∧
    ∀ tx l', Scripts.recoverRegistry d getAccountInfo owner pubkeyHex credIdHex = .ok tx →
      Lands cluster d owner.publicKey tx l l' →
      Becomes d l l' owner.publicKey ⟨owner.publicKey, 0,
        [⟨.secp256r1Passkey, hexDecode pubkeyHex, hexDecode credIdHex⟩]⟩ := by
  have hl : Fitting d l :=
    hrun.invariant (fun _ _ _ hl hs => fitting_step hl hs) (fitting_of_reachable hreach)
  have hstill := registered_run hreach.layout hregistered hrun
  refine ⟨(recovery_lands_iff hl hanswers).trans (and_iff_right hstill), ?_⟩
  intro tx l' hsends hlands
  exact recovery_becomes hsends hlands

/-- Or the wallet starts over. -/
theorem recover_script_cli : ∃ l tx l',
    registryOf cliDeployment l cli.publicKey = some cliSecond ∧
    CliLands removalSignature l (cliRecover l) tx l' ∧
      Becomes cliDeployment l l' cli.publicKey
        ⟨cli.publicKey, 0, [⟨.secp256r1Passkey, hexDecode browserKey, hexDecode "02"⟩]⟩ := by
  obtain ⟨trace, l, hrun, hr, hcharge⟩ := run_cliAdded
  have hregistered : registryOf cliDeployment cliRegistered cli.publicKey ≠ none := by
    rw [cliRegistered_holds.1]
    exact Option.some_ne_none _
  have hlen : (hexDecode browserKey).length = 33 := by
    rw [hexDecode_browserKey]
    decide
  have hsent : ∃ tx l', CliLands removalSignature l (cliRecover l) tx l' :=
    (recover_script reachable_cliRegistered hregistered hrun (answers_answer l)).1.mpr
      ⟨hcharge _ (by decide), by decide, hlen, by decide⟩
  obtain ⟨tx, l', hsends, hlands⟩ := hsent
  exact ⟨l, tx, l', hr, ⟨hsends, hlands⟩, (recover_script reachable_cliRegistered hregistered hrun
    (answers_answer l)).2 tx l' hsends hlands⟩

end Scripts

end Trana.Security
