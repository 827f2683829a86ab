import Trana.Vault.Settlement

/-!
# Pools and records carry their bumps

A pool stores the authority and the bump its address derives from, a record
pool, user and bump. Withdrawals and deposits derive the addresses again from
what is stored (`bump = pool.bump`), so it has to be right for good: a wrong
bump would lock a pool.

* `Canonical` — what is stored at an address derives it.
* `canonical_step`, `canonical_run` — it holds at every time, from a ledger on
  which the vault has nothing yet.
* `initializePool_account`, `pool_data_run` — a pool's account has its size and
  is rent exempt when it is made, and keeps its bytes.

Anchor finds the bump at creation by searching from 255 down and hands it to the
handler, which stores it; `Deployment.createPool_find` is all that is assumed of
the derivation. That two owners derive different addresses is no part of it, and
nothing here needs it.
-/

namespace Trana.Vault

open Trana.Lib Trana.Lib.Exec Trana.Solana

/-- What is stored at an address derives it. -/
structure Canonical (d : Deployment) (l : Ledger) : Prop where
  pools : ∀ k p, poolAt l k = some p → d.createPool p.authority p.bump = some k
  records : ∀ k ud, depositAt l k = some ud → d.createDeposit ud.pool ud.user ud.bump = some k

section Steps

variable {d : Deployment} {env : Guard.Env} {accounts : List AccountMeta} {l l' : Ledger}
  {a : Label}

/-- Nothing is stored at the start. -/
theorem canonical_genesis (h : Ledger.Genesis vaultId l) : Canonical d l where
  pools k p hp := by
    have hnone : poolAt l k = none :=
      accountAt_zeros (fun howner => h k howner) ⟨241, by decide, by decide⟩
    cases hnone.symm.trans hp
  records k ud hud := by
    have hnone : depositAt l k = none :=
      accountAt_zeros (fun howner => h k howner) ⟨69, by decide, by decide⟩
    cases hnone.symm.trans hud

/-- What other programs do. -/
theorem Canonical.external (h : Canonical d l) (hext : Ledger.External vaultId l l') :
    Canonical d l' where
  pools k p hp := by
    rw [poolAt, accountAt_external hext ⟨241, by decide, by decide⟩] at hp
    exact h.pools k p hp
  records k ud hud := by
    rw [depositAt, accountAt_external hext ⟨69, by decide, by decide⟩] at hud
    exact h.records k ud hud

/-- A new pool stores the authority and the bump it was derived with. -/
theorem initializePool_stored {kind : PoolKind} {label : String}
    (h : (execute d env accounts (.initializePool kind label) l).Returns l') :
    ∃ ctx, Initialized ctx l l' ∧ ∃ p, poolAt l' ctx.pool = some p ∧
      d.createPool p.authority p.bump = some ctx.pool := by
  obtain ⟨ctx, l₁, hctx, hinit⟩ := initializePool_effect h
  simp only [execute, returns_bind] at h
  obtain ⟨⟨ctx', l₁'⟩, hctx', pool, hpool, hexit⟩ := h
  obtain ⟨rfl, rfl⟩ := Prod.mk.inj (hctx.unique hctx')
  simp only [initializePool, returns_bind, returns_emit, returns_pure, exists_const,
    true_and] at hpool
  obtain ⟨_, -, rfl⟩ := hpool
  obtain ⟨-, hframe⟩ := Ledger.initAccount_frame (initializePool_tryAccounts hctx)
  have howner := (hframe ctx.pool).1
  rw [Ledger.set_self] at howner
  obtain ⟨hstored, -, -⟩ := exitAccount_spec howner hexit
  -- the handler stores the signer and the bump of the context
  refine ⟨ctx, hinit, _, hstored, ?_⟩
  unfold InitializePool.tryAccounts at hctx
  split at hctx
  next pool authority systemProgram rest =>
    simp only [returns_bind, returns_constraintSeeds, returns_pure] at hctx
    obtain ⟨w, -, _, -, _, hkey, l₂, -, _, -, _, -, hp⟩ := hctx
    obtain ⟨rfl, -⟩ := Prod.mk.inj hp
    show d.createPool w (d.findPool w).2 = some pool.pubkey
    rw [hkey]
    exact d.createPool_find w
  next => simp [notEnoughKeys] at hctx

/-- A new pool is one more. -/
theorem Canonical.initialized {ctx : InitializePool} {p : Pool} (h : Canonical d l)
    (hinit : Initialized ctx l l') (hstored : poolAt l' ctx.pool = some p)
    (hp : d.createPool p.authority p.bump = some ctx.pool) : Canonical d l' where
  pools k p' hp' := by
    by_cases hk : k = ctx.pool
    · subst hk
      obtain rfl := Option.some.inj (hstored.symm.trans hp')
      exact hp
    · rw [poolAt_congr (hinit.frame k hk)] at hp'
      exact h.pools k p' hp'
  records k ud hud := by
    rw [hinit.quiet.records k] at hud
    exact h.records k ud hud

/-- The bump of a deposit's record is the canonical one. -/
theorem deposit_bump {ctx : Deposit}
    (h : (Deposit.tryAccounts d env accounts l).Returns (ctx, l')) :
    ctx.bump = (d.findDeposit ctx.poolKey ctx.depositor).2 := by
  unfold Deposit.tryAccounts at h
  split at h
  next pool userDeposit depositor systemProgram rest =>
    simp only [returns_bind, returns_pure] at h
    obtain ⟨p, -, w, -, _, -, _, -, ⟨ud, l₁⟩, -, _, -, _, -, _, -, _, -, hp⟩ := h
    obtain ⟨rfl, -⟩ := Prod.mk.inj hp
    rfl
  next => simp [notEnoughKeys] at h

/-- Named on the first deposit, kept from then on. -/
theorem Canonical.deposited {ctx : Deposit} {amount : UInt64} (h : Canonical d l)
    (hbump : ctx.bump = (d.findDeposit ctx.poolKey ctx.depositor).2)
    (heffect : Deposited d ctx amount l l') : Canonical d l' where
  pools k p hp := by
    have hne : k ≠ ctx.userDepositKey := fun heq => ne_of_poolAt hp heffect.stored heq
    rw [poolAt_congr (heffect.frame k hne)] at hp
    exact h.pools k p hp
  records k ud hud := by
    by_cases hk : k = ctx.userDepositKey
    · subst hk
      obtain rfl := Option.some.inj (hud.symm.trans heffect.stored)
      unfold Deposit.credited
      by_cases hfirst : ctx.userDeposit.pool = systemProgramId
      -- the first deposit names the record, with the bump the seeds gave
      · rw [if_pos hfirst]
        show d.createDeposit ctx.poolKey ctx.depositor ctx.bump = _
        rw [hbump, heffect.key_eq]
        exact d.createDeposit_find ctx.poolKey ctx.depositor
      · rw [if_neg hfirst]
        show d.createDeposit ctx.userDeposit.pool ctx.userDeposit.user ctx.userDeposit.bump = _
        rcases heffect.record with hfound | ⟨-, hblank⟩
        · exact h.records _ _ hfound
        · exact absurd (congrArg UserDeposit.pool hblank) hfirst
    · rw [heffect.depositAt_of_ne hk] at hud
      exact h.records k ud hud

/-- A withdrawal keeps the record's bump. -/
theorem recordWithdrawal_bump {kind : PoolKind} {ud ud' : UserDeposit} {clock : Clock}
    {amount : UInt64} {proofUsed : Bool}
    (h : (recordWithdrawal kind ud clock amount proofUsed).Returns ud') : ud'.bump = ud.bump := by
  obtain ⟨balance, -, h⟩ := returns_bind.mp h
  cases kind with
  | timeLocked =>
    obtain rfl := returns_pure.mp h
    rfl
  | limit =>
    simp only [returns_bind, returns_ite, returns_pure] at h
    obtain ⟨inW, -, ⟨-, rfl⟩ | ⟨-, rfl⟩⟩ := h
    · rfl
    · rfl

/-- Pool, user and bump of a record stay. -/
theorem Canonical.withdrawn {ctx : Withdraw} {amount : UInt64} {policy : Guard.Policy}
    {proofUsed : Bool} {called : Ledger} {ud : UserDeposit} (h : Canonical d l)
    (heffect : Withdrawn d env ctx amount l l' policy proofUsed called ud) : Canonical d l' where
  pools k p hp := by
    have hne : k ≠ ctx.userDepositKey := fun heq => ne_of_poolAt hp heffect.stored heq
    have howner : (l k).owner ≠ d.guard.programId := by
      intro heq
      rw [← heffect.owners k, (accountAt_eq_some.mp hp).1] at heq
      exact d.guard_ne heq.symm
    rw [poolAt_congr ⟨heffect.owners k, heffect.frame k hne howner⟩] at hp
    exact h.pools k p hp
  records k ud' hud' := by
    by_cases hk : k = ctx.userDepositKey
    · subst hk
      obtain rfl := Option.some.inj (hud'.symm.trans heffect.stored)
      obtain ⟨hpool, huser, -⟩ := recordWithdrawal_spec heffect.updated
      rw [hpool, huser, recordWithdrawal_bump heffect.updated]
      exact h.records _ _ heffect.record
    · rw [heffect.depositAt_of_ne hk] at hud'
      exact h.records k ud' hud'

/-- Every step keeps what is stored canonical. -/
theorem canonical_step (h : Step d l a l') (hc : Canonical d l) : Canonical d l' := by
  cases h with
  | rolledBack => exact hc
  | other h => exact hc.external h.toExternal
  | guard h =>
    exact hc.external (Guard.process_respects vaultId_ne_system d.guard_ne h).toExternal
  | @vault _ c h =>
    obtain ⟨ix, -, hrun⟩ := returns_bind.mp h
    cases ix with
    | initializePool kind label =>
      obtain ⟨ctx, hinit, p, hstored, hp⟩ := initializePool_stored hrun
      exact hc.initialized hinit hstored hp
    | deposit amount =>
      obtain ⟨ctx, l₁, hctx, heffect⟩ := deposit_effect hrun
      exact hc.deposited (deposit_bump hctx) heffect
    | withdraw amount =>
      obtain ⟨ctx, policy, proofUsed, called, ud, -, heffect⟩ := withdraw_effect hrun
      exact hc.withdrawn heffect

/-- So does every run. -/
theorem canonical_run {trace : List Moment} (hgenesis : Ledger.Genesis vaultId l)
    (hrun : Run (Step d) l trace l') : Canonical d l' :=
  hrun.invariant (fun _ _ _ hc hs => canonical_step hs hc) (canonical_genesis hgenesis)

/-! ## The account of a pool -/

/-- A new pool has its size, and lamports to be rent exempt. -/
theorem initializePool_account {kind : PoolKind} {label : String} {ctx : InitializePool}
    {l₁ : Ledger} (h : (execute d env accounts (.initializePool kind label) l).Returns l')
    (hctx : (InitializePool.tryAccounts d env accounts l).Returns (ctx, l₁)) :
    (l' ctx.pool).data.length = Pool.layout.space ∧
      (env.minimumBalance Pool.layout.space).toNat ≤ lamportsOf l' ctx.pool := by
  simp only [execute, returns_bind] at h
  obtain ⟨⟨ctx', l₁'⟩, hctx', pool, -, hexit⟩ := h
  obtain ⟨rfl, rfl⟩ := Prod.mk.inj (hctx.unique hctx')
  have hinit := initializePool_tryAccounts hctx
  obtain ⟨-, hframe⟩ := Ledger.initAccount_frame hinit
  have hkey := hframe ctx.pool
  rw [Ledger.set_self] at hkey
  obtain ⟨howner, hdata⟩ := hkey
  constructor
  · obtain ⟨data, hwrite, rfl⟩ := (returns_exitAccount howner).mp hexit
    rw [Ledger.set_self]
    show data.length = Pool.layout.space
    rw [AccountLayout.trySerialize_length hwrite, hdata, List.length_replicate]
  · rw [exitAccount_lamports hexit]
    exact initAccount_exempt vaultId_ne_system hinit

/-- A pool keeps its bytes. -/
theorem pool_data_step {k : Pubkey} {p : Pool} (h : Step d l a l') (hp : poolAt l k = some p) :
    (l' k).data = (l k).data := by
  have howner := (accountAt_eq_some.mp hp).1
  cases h with
  | rolledBack => rfl
  | other h => exact (h.toExternal.keeps k howner).2
  | guard h =>
    exact ((Guard.process_respects vaultId_ne_system d.guard_ne h).toExternal.keeps k howner).2
  | @vault _ c h =>
    obtain ⟨ix, -, hrun⟩ := returns_bind.mp h
    cases ix with
    | initializePool kind label =>
      obtain ⟨ctx, l₁, hctx, hinit⟩ := initializePool_effect hrun
      have hne : k ≠ ctx.pool := fun heq => owner_ne_system howner (heq ▸ hinit.fresh)
      exact (hinit.frame k hne).2
    | deposit amount =>
      obtain ⟨ctx, l₁, hctx, heffect⟩ := deposit_effect hrun
      have hne : k ≠ ctx.userDepositKey := by
        rcases heffect.record with hud | ⟨hsys, -⟩
        · exact ne_of_poolAt hp hud
        · exact fun heq => owner_ne_system howner (heq ▸ hsys)
      exact (heffect.frame k hne).2
    | withdraw amount =>
      obtain ⟨ctx, policy, proofUsed, called, ud, hctx, heffect⟩ := withdraw_effect hrun
      have hne := ne_of_poolAt hp heffect.record
      have hguard : (l k).owner ≠ d.guard.programId := fun heq =>
        d.guard_ne (heq.symm.trans howner)
      exact heffect.frame k hne hguard

/-- Over a run. -/
theorem pool_data_run {k : Pubkey} {p : Pool} {trace : List Moment} (h : Run (Step d) l trace l')
    (hp : poolAt l k = some p) : (l' k).data = (l k).data := by
  induction h with
  | nil => rfl
  | cons step _ ih => rw [ih (pool_step step hp), pool_data_step step hp]

end Steps

end Trana.Vault
