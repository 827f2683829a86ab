import Mathlib.Data.Fintype.OfMap
import Trana.Lib.Till
import Trana.Security.LimitPolicy
import Trana.Vault.Run

/-!
# A pool covers its depositors

A pool is a till (`Trana.Lib.Till`): its cash are the pool account's lamports,
its holders the deposit records that name it, its base the lamports it was
created with. Every step of a run changes the cash and at most one record, so
the till stays solvent.

* `backed_run` — every record was derived for the pool it names, and that pool
  exists.
* `covers_step`, `covers_run` — solvency along a run.
* `vault_solvency` — with what follows for a withdrawal: neither subtraction
  can underflow, and no other user's record changes.

The sum goes over all addresses there are and counts the records that name the
pool, so a record that nobody remembers is covered as well. Other programs may
give a pool lamports; the runtime lets nobody but its owner take any, which is
the vault.

The destination of a withdrawal is any account, the pool itself included, and the
guard is called between the balance check and the transfer. What it does to
lamports then is to charge nobody: `enforce` moves none, and that is what keeps
the check good for the subtraction after it.

Two pools with one record address between them would share its balance.
`ApartByPool` excludes it for the pairs of pool and user that the run uses.
-/

namespace Trana.Security

open Trana.Lib Trana.Lib.Exec Trana.Solana Trana.Vault

/-- There are finitely many addresses. -/
noncomputable instance : Fintype Pubkey :=
  Fintype.ofInjective
    (fun (p : Pubkey) (i : Fin 32) => (p.bytes.get (i.cast p.length_eq.symm)).toFin) <| by
    intro p q h
    refine Pubkey.bytes_inj (List.ext_getElem (p.length_eq.trans q.length_eq.symm) ?_)
    intro i hi hi'
    exact UInt8.toFin_inj.mp (congrFun h ⟨i, p.length_eq ▸ hi⟩)

/-- What the record at `k` is owed by the pool. -/
def balanceIn (pool : Pubkey) (l : Ledger) (k : Pubkey) : ℕ :=
  match depositAt l k with
  | some ud => if ud.pool = pool then ud.balance.toNat else 0
  | none => 0

/-- The pool's lamports cover the base and every record of the pool. -/
def Covers (base : ℕ) (pool : Pubkey) (l : Ledger) : Prop :=
  base + ∑ k, balanceIn pool l k ≤ (l pool).lamports.toNat

theorem covers_iff {base : ℕ} {pool : Pubkey} {l : Ledger} :
    Covers base pool l ↔ Till.Solvent base (l pool).lamports.toNat (balanceIn pool l) :=
  Iff.rfl

section Run

variable {d : Vault.Deployment} {l l' : Ledger} {pool : Pubkey} {trace : List Vault.Moment}

theorem balanceIn_of_record {k : Pubkey} {ud : UserDeposit} (h : depositAt l k = some ud) :
    balanceIn pool l k = if ud.pool = pool then ud.balance.toNat else 0 := by
  rw [balanceIn, h]

theorem balanceIn_congr {k : Pubkey} (h : depositAt l' k = depositAt l k) :
    balanceIn pool l' k = balanceIn pool l k := by
  rw [balanceIn, balanceIn, h]

/-! ## Where the records are -/

/-- A deposit of the run derived its record's address for this pool and user. -/
def Derives (d : Vault.Deployment) (trace : List Vault.Moment) (pool user : Pubkey) : Prop :=
  ∃ t ∈ trace, ∃ c ctx amount, Deposits d t.before t.label c ctx amount ∧ ctx.poolKey = pool ∧
    ctx.depositor = user

/-- The record addresses derived in the run do not collide across pools. -/
def ApartByPool (d : Vault.Deployment) (trace : List Vault.Moment) : Prop :=
  ∀ pool user pool' user', Derives d trace pool user → Derives d trace pool' user' →
    (d.findDeposit pool user).1 = (d.findDeposit pool' user').1 → pool = pool'

/-- Every record sits at an address derived for the pool it names, and there is
such a pool. -/
def Backed (d : Vault.Deployment) (trace : List Vault.Moment) (l : Ledger) : Prop :=
  ∀ k ud, depositAt l k = some ud →
    (∃ user, Derives d trace ud.pool user ∧ k = (d.findDeposit ud.pool user).1) ∧
    ∃ p, poolAt l ud.pool = some p

theorem backed_genesis (h : Ledger.Genesis vaultId l) : Backed d trace l := by
  intro k ud hud
  have hnone : depositAt l k = none :=
    accountAt_zeros (fun howner => h k howner) ⟨69, by decide, by decide⟩
  cases hnone.symm.trans hud

/-- A found record already names the pool of the deposit. -/
theorem pool_of_found {t : Vault.Moment} {c : Guard.Call} {ctx : Deposit} {amount : UInt64}
    {ud : UserDeposit} (ht : t ∈ trace) (hapart : ApartByPool d trace)
    (hbacked : Backed d trace t.before) (hdep : Deposits d t.before t.label c ctx amount)
    (heffect : Deposited d ctx amount t.before t.after)
    (hud : depositAt t.before ctx.userDepositKey = some ud) : ud.pool = ctx.poolKey := by
  obtain ⟨⟨user, hderives, hkey⟩, -⟩ := hbacked _ _ hud
  have hhere : Derives d trace ctx.poolKey ctx.depositor :=
    ⟨t, ht, c, ctx, amount, hdep, rfl, rfl⟩
  exact hapart _ _ _ _ hderives hhere (hkey.symm.trans heffect.key_eq)

/-- After a deposit the record names its pool. -/
theorem pool_credited {t : Vault.Moment} {c : Guard.Call} {ctx : Deposit} {amount : UInt64}
    (ht : t ∈ trace) (hapart : ApartByPool d trace) (hbacked : Backed d trace t.before)
    (hdep : Deposits d t.before t.label c ctx amount)
    (heffect : Deposited d ctx amount t.before t.after) :
    (ctx.credited amount).pool = ctx.poolKey := by
  unfold Deposit.credited
  split
  next => rfl
  next hnamed =>
    show ctx.userDeposit.pool = ctx.poolKey
    rcases heffect.record with hud | ⟨-, hblank⟩
    · exact pool_of_found ht hapart hbacked hdep heffect hud
    · exact absurd (congrArg UserDeposit.pool hblank) hnamed

theorem backed_step {t : Vault.Moment} (ht : t ∈ trace) (hapart : ApartByPool d trace)
    (h : Vault.Step d t.before t.label t.after) (hbacked : Backed d trace t.before) :
    Backed d trace t.after := by
  -- a record that was there keeps its pool; what is new is the one the step wrote
  have hkept : ∀ {k ud}, depositAt t.before k = some ud →
      (∃ user, Derives d trace ud.pool user ∧ k = (d.findDeposit ud.pool user).1) ∧
      ∃ p, poolAt t.after ud.pool = some p := by
    intro k ud hud
    obtain ⟨hderives, p, hp⟩ := hbacked k ud hud
    exact ⟨hderives, p, pool_step h hp⟩
  intro k ud hud
  cases step_effect h with
  | quiet hquiet =>
    rw [hquiet.records k] at hud
    exact hkept hud
  | deposit c ctx amount hdep heffect =>
    by_cases hk : k = ctx.userDepositKey
    · obtain rfl := Option.some.inj (hud.symm.trans (hk ▸ heffect.stored))
      rw [pool_credited ht hapart hbacked hdep heffect, hk]
      exact ⟨⟨ctx.depositor, ⟨t, ht, c, ctx, amount, hdep, rfl, rfl⟩, heffect.key_eq⟩, _,
        pool_step h heffect.found⟩
    · rw [heffect.depositAt_of_ne hk] at hud
      exact hkept hud
  | withdraw c ctx amount policy proofUsed called ud' hwith heffect =>
    by_cases hk : k = ctx.userDepositKey
    · obtain rfl := Option.some.inj (hud.symm.trans (hk ▸ heffect.stored))
      rw [(recordWithdrawal_spec heffect.updated).1, hk]
      exact hkept heffect.record
    · rw [heffect.depositAt_of_ne hk] at hud
      exact hkept hud

theorem backed_run (hgenesis : Ledger.Genesis vaultId l) (hapart : ApartByPool d trace)
    (hrun : Run (Vault.Step d) l trace l') :
    Backed d trace l' ∧ ∀ t ∈ trace, Backed d trace t.before ∧ Backed d trace t.after := by
  have hkeep : ∀ t ∈ trace, Backed d trace t.before → Backed d trace t.after := fun t ht =>
    backed_step ht hapart (hrun.step t ht)
  exact ⟨hrun.stays (backed_genesis hgenesis) hkeep,
    hrun.stays_at (backed_genesis hgenesis) hkeep⟩

/-! ## Solvency -/

/-- Nothing is owed by a pool that has just been created. -/
theorem covers_created {t : Vault.Moment} {c : Guard.Call} {ctx : InitializePool}
    (hbacked : Backed d trace t.before) (h : Vault.Step d t.before t.label t.after)
    (hcreates : Creates d t.before t.label c ctx) :
    Covers (t.after ctx.pool).lamports.toNat ctx.pool t.after := by
  have hinit := hcreates.initialized h
  refine covers_iff.mpr (Till.solvent_of_zero fun k => ?_)
  rw [balanceIn_congr (hinit.quiet.records k)]
  cases hud : depositAt t.before k with
  | none => rw [balanceIn, hud]
  | some ud =>
    rw [balanceIn_of_record hud]
    refine if_neg fun heq => ?_
    -- a record of this pool would have needed the pool
    obtain ⟨-, p, hp⟩ := hbacked k ud hud
    rw [heq] at hp
    exact owner_ne_system (accountAt_eq_some.mp hp).1 hinit.fresh

/-- A record grows by a deposit's amount at most, and only in its pool. -/
theorem balanceIn_deposited (pool : Pubkey) {t : Vault.Moment} {c : Guard.Call} {ctx : Deposit}
    {amount : UInt64}
    (ht : t ∈ trace) (hapart : ApartByPool d trace) (hbacked : Backed d trace t.before)
    (hdep : Deposits d t.before t.label c ctx amount)
    (heffect : Deposited d ctx amount t.before t.after) :
    balanceIn pool t.after ctx.userDepositKey ≤
      balanceIn pool t.before ctx.userDepositKey +
        if ctx.poolKey = pool then amount.toNat else 0 := by
  -- saturation can only lose the depositor something
  have hbalance : (ctx.credited amount).balance.toNat ≤
      ctx.userDeposit.balance.toNat + amount.toNat := by
    unfold Deposit.credited
    split
    next => exact saturatingAdd_le _ _
    next => exact saturatingAdd_le _ _
  rw [balanceIn_of_record heffect.stored, pool_credited ht hapart hbacked hdep heffect]
  split
  next hpool =>
    -- a record of another pool counts for nothing in this one
    rcases heffect.record with hud | ⟨-, hblank⟩
    · have hnamed := pool_of_found ht hapart hbacked hdep heffect hud
      rw [balanceIn_of_record hud, if_pos (hnamed.trans hpool)]
      exact hbalance
    · have hzero : ctx.userDeposit.balance.toNat = 0 := by rw [hblank]; rfl
      omega
  next => exact Nat.zero_le _

/-- A withdrawal's amount leaves its record, in its pool. -/
theorem balanceIn_withdrawn (pool : Pubkey) {env : Guard.Env} {ctx : Withdraw} {amount : UInt64}
    {policy : Guard.Policy} {proofUsed : Bool} {called : Ledger} {ud : UserDeposit}
    (heffect : Withdrawn d env ctx amount l l' policy proofUsed called ud) :
    balanceIn pool l' ctx.userDepositKey + (if ctx.poolKey = pool then amount.toNat else 0) =
      balanceIn pool l ctx.userDepositKey := by
  obtain ⟨hpool, -, hbalance⟩ := recordWithdrawal_spec heffect.updated
  rw [balanceIn_of_record heffect.stored, balanceIn_of_record heffect.record, hpool,
    heffect.pool_eq]
  split
  next => exact hbalance
  next => rfl

theorem covers_step {base : ℕ} {p : Pool} {t : Vault.Moment} (ht : t ∈ trace)
    (hapart : ApartByPool d trace) (h : Vault.Step d t.before t.label t.after)
    (hbacked : Backed d trace t.before) (hp : poolAt t.before pool = some p)
    (hcovers : Covers base pool t.before) : Covers base pool t.after := by
  have howner := (accountAt_eq_some.mp hp).1
  rw [covers_iff] at hcovers ⊢
  cases step_effect h with
  -- nobody but the vault takes lamports from the pool, and records change by its calls alone
  | quiet hquiet =>
    exact hcovers.mono (UInt64.le_iff_toNat_le.mp (hquiet.credits pool howner)) fun k =>
      Nat.le_of_eq (balanceIn_congr (hquiet.records k))
  | deposit c ctx amount hdep heffect =>
    -- one record grows by the amount at most, the pool by the amount
    have hgrows := balanceIn_deposited pool ht hapart hbacked hdep heffect
    refine hcovers.change (fun k hk => balanceIn_congr (heffect.depositAt_of_ne hk)) ?_
    split at hgrows
    next hpool =>
      have hcredited := heffect.pool_credited
      rw [hpool] at hcredited
      omega
    next =>
      have hcredits := UInt64.le_iff_toNat_le.mp (heffect.credits pool howner)
      omega
  | withdraw c ctx amount policy proofUsed called ud hwith heffect =>
    have hshrinks := balanceIn_withdrawn pool heffect
    refine hcovers.change (fun k hk => balanceIn_congr (heffect.depositAt_of_ne hk)) ?_
    split at hshrinks
    next hpool =>
      have hdebited := heffect.pool_debited
      rw [hpool] at hdebited
      omega
    next hpool =>
      have hcredits := UInt64.le_iff_toNat_le.mp (heffect.credits pool (Ne.symm hpool))
      omega

/-- Solvency from the pool's creation on. -/
theorem covers_run {pre post : List Vault.Moment} {t : Vault.Moment} {c : Guard.Call}
    {ctx : InitializePool} (hgenesis : Ledger.Genesis vaultId l)
    (hapart : ApartByPool d (pre ++ t :: post))
    (hrun : Run (Vault.Step d) l (pre ++ t :: post) l')
    (hcreates : Creates d t.before t.label c ctx) :
    Covers (t.after ctx.pool).lamports.toNat ctx.pool l' := by
  obtain ⟨-, hbacked⟩ := backed_run hgenesis hapart hrun
  obtain ⟨-, hstep, hpost⟩ := hrun.split
  have ht : t ∈ pre ++ t :: post := List.mem_append_right _ (List.mem_cons_self ..)
  obtain ⟨p, hp⟩ := (hcreates.initialized hstep).stored
  -- the pool's existence goes along with the invariant: it stays a pool
  have hstays : poolAt l' ctx.pool = some p ∧
      Covers (t.after ctx.pool).lamports.toNat ctx.pool l' := by
    refine hpost.stays (P := fun l => poolAt l ctx.pool = some p ∧
      Covers (t.after ctx.pool).lamports.toNat ctx.pool l)
      ⟨hp, covers_created (hbacked t ht).1 hstep hcreates⟩ fun u hu hinv => ?_
    have hu' : u ∈ pre ++ t :: post := List.mem_append_right _ (List.mem_cons_of_mem _ hu)
    exact ⟨pool_step (hpost.step u hu) hinv.1,
      covers_step hu' hapart (hpost.step u hu) (hbacked u hu').1 hinv.1 hinv.2⟩
  exact hstays.2

end Run

/-- From its creation on a pool holds its initial lamports and all its records'
balances. So a withdrawal that passes its balance check underflows neither the
pool, before the guard is called or after, nor the record; and none changes
another user's record. -/
theorem vault_solvency {d : Vault.Deployment} {l₀ l : Ledger} {pre post : List Vault.Moment}
    {t : Vault.Moment} {c : Guard.Call} {ctx : InitializePool}
    (hgenesis : Ledger.Genesis vaultId l₀) (hapart : ApartByPool d (pre ++ t :: post))
    (hrun : Run (Vault.Step d) l₀ (pre ++ t :: post) l)
    (hcreates : Creates d t.before t.label c ctx) :
    (t.after ctx.pool).lamports.toNat + ∑ k, balanceIn ctx.pool l k ≤
      (l ctx.pool).lamports.toNat ∧
    (∀ accounts w amount env policy called, (Withdraw.tryAccounts d accounts l).Returns w →
      w.poolKey = ctx.pool → amount ≤ w.userDeposit.balance →
      (cpiEnforce d env w policy l).Returns called →
      (∃ debited, (u64Sub (called ctx.pool).lamports amount : Vault.Result UInt64).Returns
        debited) ∧
      ∃ balance, (u64Sub w.userDeposit.balance amount : Vault.Result UInt64).Returns balance) ∧
    ∀ c' w amount l', Vault.Step d l (.vault c') l' → Withdraws d l (.vault c') c' w amount →
      ∀ k ud, depositAt l k = some ud → ud.user ≠ w.owner → depositAt l' k = some ud := by
  have hcovers := covers_run hgenesis hapart hrun hcreates
  refine ⟨hcovers, ?_, ?_⟩
  · intro accounts w amount env policy called hctx hpool hbalance hcall
    obtain ⟨-, hrecord, hnamed, -⟩ := withdraw_tryAccounts hctx
    -- the pool covers this record as one of all, and the guard has left its lamports
    have hone := (covers_iff.mp hcovers).covers w.userDepositKey
    rw [balanceIn_of_record hrecord, if_pos (hnamed.trans hpool)] at hone
    have hle := UInt64.le_iff_toNat_le.mp hbalance
    have hlamports := ((Guard.invokeEnforce_frame (returns_embed.mp hcall)).1 ctx.pool).1
    refine ⟨⟨_, returns_u64Sub.mpr ⟨?_, rfl⟩⟩, _, returns_u64Sub.mpr ⟨hbalance, rfl⟩⟩
    rw [hlamports, UInt64.le_iff_toNat_le]
    omega
  · intro c' w amount l' hstep hwith k ud hud hne
    cases step_effect hstep with
    | quiet hquiet => rw [hquiet.records k, hud]
    | deposit c'' ctx' amount' hdep heffect =>
      obtain rfl := Label.vault.inj hdep.label
      cases hdep.parsed.unique hwith.parsed
    | withdraw c'' w' amount' policy proofUsed called ud' hwith' heffect =>
      obtain ⟨-, rfl, -⟩ := hwith'.unique hwith
      -- the one record that changes is the owner's
      rw [heffect.depositAt_of_ne fun hk => hne ?_, hud]
      rw [hk] at hud
      obtain rfl := Option.some.inj (hud.symm.trans heffect.record)
      exact heffect.user_eq

section Localnet

open Sdk.Localnet

/-- Half a SOL. -/
def smallWithdrawIx : Instruction where
  programId := vaultId
  accounts := withdrawIx.accounts
  data := withdrawDisc ++ leBytes 8 500000000

/-- A direct call at some slot and time. -/
def vaultCall (clock : Clock) (ix : Instruction) : Guard.Call :=
  ⟨⟨clock, ⟨[ix], 0⟩, minimumBalance⟩, ix.accounts, ix.data⟩

/-- The wallet creates its pool, deposits three SOL and takes half a SOL out. -/
def poolLabels : List Vault.Label :=
  [.vault (vaultCall ⟨5, 500⟩ initializePoolIx), .vault (vaultCall ⟨5, 500⟩ depositIx),
    .vault (vaultCall ⟨5, 500⟩ smallWithdrawIx)]

/-- The pool comes first in all three. -/
theorem first_poolLabels {c : Guard.Call} (h : Vault.Label.vault c ∈ poolLabels) :
    c.accounts[0]?.map AccountMeta.pubkey = some poolPda := by
  simp only [poolLabels, List.mem_cons, Vault.Label.vault.injEq, List.not_mem_nil,
    or_false] at h
  rcases h with rfl | rfl | rfl <;> rfl

/-- All its calls are about the one pool. -/
theorem apart_pool {trace : List Vault.Moment}
    (hlabels : trace.map Transition.label = poolLabels) : ApartByPool vaultDeployment trace := by
  have hpool : ∀ pool user, Derives vaultDeployment trace pool user → pool = poolPda := by
    intro pool user h
    obtain ⟨t, ht, c, ctx, amount, hdep, rfl, -⟩ := h
    have hmem : t.label ∈ poolLabels := hlabels ▸ List.mem_map_of_mem ht
    rw [hdep.label] at hmem
    exact Option.some.inj (hdep.first.symm.trans (first_poolLabels hmem))
  intro pool user pool' user' h h' _
  rw [hpool pool user h, hpool pool' user' h']

/-- The wallet's pool, deposit and withdrawal, step by step. -/
theorem run_pool : ∃ (t : Vault.Moment) (post : List Vault.Moment) (l : Ledger)
    (ctx : InitializePool), Run (Vault.Step vaultDeployment) genesis ([] ++ t :: post) l ∧
    ([] ++ t :: post).map Transition.label = poolLabels ∧
    Creates vaultDeployment t.before t.label (vaultCall ⟨5, 500⟩ initializePoolIx) ctx ∧
    ctx.pool = poolPda := by
  have hsome : (runLabels vaultDeployment genesis poolLabels).isSome = true := by decide +kernel
  obtain ⟨l, hl⟩ := Option.isSome_iff_exists.mp hsome
  obtain ⟨trace, hrun, hlabels⟩ := run_of_runLabels hl
  obtain ⟨t, post, rfl, ht, -⟩ := List.map_eq_cons_iff.mp hlabels
  have hfirst : Run (Vault.Step vaultDeployment) genesis ([] ++ t :: post) l := hrun
  have hstep := hfirst.split.2.1
  have hparsed : (parseInstruction (vaultCall ⟨5, 500⟩ initializePoolIx).data).Returns
      (.initializePool .limit "") := by decide +kernel
  rw [ht] at hstep
  obtain ⟨ctx, hcreates⟩ := creates_of_step hstep hparsed
  have hpool : ctx.pool = poolPda := (Option.some.inj hcreates.first).symm
  rw [← ht] at hcreates
  exact ⟨t, post, l, ctx, hfirst, hlabels, hcreates, hpool⟩

/-- The pool covers the wallet after its withdrawal. -/
theorem vault_solvency_localnet : ∃ (t : Vault.Moment) (post : List Vault.Moment) (l : Ledger)
    (ctx : InitializePool), Run (Vault.Step vaultDeployment) genesis ([] ++ t :: post) l ∧
    ctx.pool = poolPda ∧ (t.after ctx.pool).lamports.toNat + ∑ k, balanceIn ctx.pool l k ≤
      (l ctx.pool).lamports.toNat := by
  obtain ⟨t, post, l, ctx, hrun, hlabels, hcreates, hpool⟩ := run_pool
  exact ⟨t, post, l, ctx, hrun, hpool, (vault_solvency (genesis_of_ne vaultId_ne_system)
    (apart_pool hlabels) hrun hcreates).1⟩

end Localnet

end Trana.Security
