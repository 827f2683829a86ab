import Trana.Vault.ProgramSpec

/-!
# Runs of the vault

A run interleaves calls of the vault and of the guard, each in a transaction of
its own, with what other programs do. What a step does to the vault's accounts
is one of three things (`step_effect`): nothing that matters, a deposit, or a
withdrawal. Everything about runs goes through them.

* `Step` — a call that succeeds changes the ledger; one that fails is rolled
  back whole. Other programs respect the vault's accounts: they may credit them
  and do nothing else to them.
* `Creates`, `Deposits`, `Withdraws` — which event a step is, in terms of its
  label and the state before it.
* `layout_step` — registries stay at their wallets' PDAs.
* `pool_step`, `pool_stays` — a pool is there for good, as it was created: the
  program has no instruction that closes or changes one.
* `next?`, `runLabels` — the same step as a function, for given calls.
-/

namespace Trana.Vault

open Trana.Lib Trana.Lib.Exec Trana.Solana
open Trana.Guard (Call Env SameRegistries registryAt)

/-- What happens: a call of the vault, of the guard, or anything else. -/
inductive Label where
  | vault (c : Call)
  | guard (c : Call)
  | rolledBack
  | other

/-- One step of the chain. -/
inductive Step (d : Deployment) : Ledger → Label → Ledger → Prop where
  | vault {l l' : Ledger} {c : Call} (h : (process d c.env c.accounts c.data l).Returns l') :
    Step d l (.vault c) l'
  | guard {l l' : Ledger} {c : Call}
    (h : (Guard.process d.guard c.env c.accounts c.data l).Returns l') : Step d l (.guard c) l'
  | rolledBack (l : Ledger) : Step d l .rolledBack l
  | other {l l' : Ledger} (h : Ledger.Respects vaultId l l')
    (hguard : Ledger.External d.guard.programId l l') : Step d l .other l'

/-- A step of a run, with the ledgers before and after it. -/
abbrev Moment := Transition Ledger Label

variable {d : Deployment} {l l' : Ledger} {a : Label}

/-! ## Events -/

/-- The step creates a pool, in this context. -/
structure Creates (d : Deployment) (l : Ledger) (a : Label) (c : Call) (ctx : InitializePool) :
    Prop where
  label : a = .vault c
  parsed : ∃ kind name, (parseInstruction c.data).Returns (.initializePool kind name)
  context : ∃ l₁, (InitializePool.tryAccounts d c.env c.accounts l).Returns (ctx, l₁)

/-- The step is a deposit, in this context. -/
structure Deposits (d : Deployment) (l : Ledger) (a : Label) (c : Call) (ctx : Deposit)
    (amount : UInt64) : Prop where
  label : a = .vault c
  parsed : (parseInstruction c.data).Returns (.deposit amount)
  context : ∃ l₁, (Deposit.tryAccounts d c.env c.accounts l).Returns (ctx, l₁)

/-- The step is a withdrawal, in this context. -/
structure Withdraws (d : Deployment) (l : Ledger) (a : Label) (c : Call) (ctx : Withdraw)
    (amount : UInt64) : Prop where
  label : a = .vault c
  parsed : (parseInstruction c.data).Returns (.withdraw amount)
  context : (Withdraw.tryAccounts d c.accounts l).Returns ctx

/-- A step is one withdrawal at most. -/
theorem Withdraws.unique {c c' : Call} {ctx ctx' : Withdraw} {amount amount' : UInt64}
    (h : Withdraws d l a c ctx amount) (h' : Withdraws d l a c' ctx' amount') :
    c = c' ∧ ctx = ctx' ∧ amount = amount' := by
  obtain rfl := Label.vault.inj (h.label.symm.trans h'.label)
  exact ⟨rfl, h.context.unique h'.context,
    VaultInstruction.withdraw.inj (h.parsed.unique h'.parsed)⟩

/-! ## What a step does -/

/-- The records and pools stay, and no account of the vault is debited. -/
structure Quiet (l l' : Ledger) : Prop where
  records : ∀ k, depositAt l' k = depositAt l k
  pools : ∀ k p, poolAt l k = some p → poolAt l' k = some p
  credits : ∀ k, (l k).owner = vaultId → (l k).lamports ≤ (l' k).lamports

/-- The three effects. -/
inductive StepEffect (d : Deployment) (l : Ledger) (a : Label) (l' : Ledger) : Prop where
  | quiet (h : Quiet l l')
  | deposit (c : Call) (ctx : Deposit) (amount : UInt64) (h : Deposits d l a c ctx amount)
    (effect : Deposited d ctx amount l l')
  | withdraw (c : Call) (ctx : Withdraw) (amount : UInt64) (policy : Guard.Policy)
    (proofUsed : Bool) (called : Ledger) (ud : UserDeposit) (h : Withdraws d l a c ctx amount)
    (effect : Withdrawn d c.env ctx amount l l' policy proofUsed called ud)

/-- What other programs do is quiet. -/
theorem Quiet.of_respects (h : Ledger.Respects vaultId l l') : Quiet l l' where
  records k := accountAt_external h.toExternal ⟨69, by decide, by decide⟩ k
  pools k p hp := by
    rw [← hp]
    exact accountAt_external h.toExternal ⟨241, by decide, by decide⟩ k
  credits := h.credits

/-- A new pool is no record, and was none. -/
theorem Initialized.quiet {ctx : InitializePool} (h : Initialized ctx l l') : Quiet l l' where
  records k := by
    by_cases hk : k = ctx.pool
    -- nothing was at the address before, and a pool is there now
    · obtain ⟨p, hp⟩ := h.stored
      have hafter : depositAt l' k = none := by
        cases hud : depositAt l' k with
        | none => rfl
        | some ud => exact absurd hk.symm (ne_of_poolAt hp hud)
      have hbefore : depositAt l k = none := by
        rw [depositAt, accountAt, if_neg fun heq => owner_ne_system heq (hk ▸ h.fresh)]
      rw [hafter, hbefore]
    · exact depositAt_congr (h.frame k hk)
  pools k p hp := by
    have hne : k ≠ ctx.pool := fun heq =>
      owner_ne_system (accountAt_eq_some.mp hp).1 (heq ▸ h.fresh)
    rw [poolAt_congr (h.frame k hne), hp]
  credits := h.credits

/-- Every step has one of the three effects. -/
theorem step_effect (h : Step d l a l') : StepEffect d l a l' := by
  cases h with
  | @vault _ c h =>
    obtain ⟨ix, hix, hrun⟩ := returns_bind.mp h
    cases ix with
    | initializePool kind label =>
      obtain ⟨ctx, -, -, hinit⟩ := initializePool_effect hrun
      exact .quiet hinit.quiet
    | deposit amount =>
      obtain ⟨ctx, l₁, hctx, heffect⟩ := deposit_effect hrun
      exact .deposit c ctx amount ⟨rfl, hix, l₁, hctx⟩ heffect
    | withdraw amount =>
      obtain ⟨ctx, policy, proofUsed, called, ud, hctx, heffect⟩ := withdraw_effect hrun
      exact .withdraw c ctx amount policy proofUsed called ud ⟨rfl, hix, hctx⟩ heffect
  | guard h =>
    exact .quiet (.of_respects (Guard.process_respects vaultId_ne_system d.guard_ne h))
  | rolledBack => exact .quiet (.of_respects (.refl vaultId l))
  | other h => exact .quiet (.of_respects h)

/-- A step that creates a pool did what `Initialized` says. -/
theorem Creates.initialized {c : Call} {ctx : InitializePool} (h : Step d l a l')
    (hcreates : Creates d l a c ctx) : Initialized ctx l l' := by
  obtain ⟨kind, name, hparsed⟩ := hcreates.parsed
  obtain ⟨l₁, hctx⟩ := hcreates.context
  obtain rfl := hcreates.label
  cases h with
  | vault h =>
    obtain ⟨ix, hix, hrun⟩ := returns_bind.mp h
    obtain rfl := hix.unique hparsed
    obtain ⟨ctx', l₁', hctx', hinit⟩ := initializePool_effect hrun
    obtain ⟨rfl, -⟩ := Prod.mk.inj (hctx'.unique hctx)
    exact hinit

/-- A deposit changes its own record only. -/
theorem Deposited.depositAt_of_ne {ctx : Deposit} {amount : UInt64} {k : Pubkey}
    (h : Deposited d ctx amount l l') (hk : k ≠ ctx.userDepositKey) :
    depositAt l' k = depositAt l k :=
  depositAt_congr (h.frame k hk)

/-- So does a withdrawal. -/
theorem Withdrawn.depositAt_of_ne {env : Env} {ctx : Withdraw} {amount : UInt64} {k : Pubkey}
    {policy : Guard.Policy} {proofUsed : Bool} {called : Ledger} {ud : UserDeposit}
    (h : Withdrawn d env ctx amount l l' policy proofUsed called ud)
    (hk : k ≠ ctx.userDepositKey) : depositAt l' k = depositAt l k := by
  by_cases howner : (l k).owner = d.guard.programId
  · -- the guard's accounts hold no records before or after
    have hne : (l k).owner ≠ vaultId := fun heq => d.guard_ne (howner.symm.trans heq)
    rw [depositAt, depositAt, accountAt, accountAt, if_neg hne, if_neg (h.owners k ▸ hne)]
  · exact depositAt_congr ⟨h.owners k, h.frame k hk howner⟩

/-- A successful call of `initialize_pool` creates the pool it names first. -/
theorem creates_of_step {c : Call} {kind : PoolKind} {name : String} (h : Step d l (.vault c) l')
    (hparsed : (parseInstruction c.data).Returns (.initializePool kind name)) :
    ∃ ctx, Creates d l (.vault c) c ctx := by
  cases h with
  | vault h =>
    obtain ⟨ix, hix, hrun⟩ := returns_bind.mp h
    obtain rfl := hix.unique hparsed
    obtain ⟨ctx, l₁, hctx, -⟩ := initializePool_effect hrun
    exact ⟨ctx, rfl, ⟨kind, name, hparsed⟩, l₁, hctx⟩

/-- The new pool is the call's first account. -/
theorem Creates.first {c : Call} {ctx : InitializePool} (h : Creates d l a c ctx) :
    c.accounts[0]?.map AccountMeta.pubkey = some ctx.pool := by
  obtain ⟨l₁, hctx⟩ := h.context
  unfold InitializePool.tryAccounts at hctx
  split at hctx
  next pool authority systemProgram rest hc =>
    simp only [returns_bind, returns_pure] at hctx
    obtain ⟨_, -, _, -, _, -, _, -, _, -, _, -, hp⟩ := hctx
    obtain ⟨rfl, -⟩ := Prod.mk.inj hp
    rw [hc]
    rfl
  next => simp [notEnoughKeys] at hctx

/-- The pool of a deposit is the first account too. -/
theorem Deposits.first {c : Call} {ctx : Deposit} {amount : UInt64}
    (h : Deposits d l a c ctx amount) :
    c.accounts[0]?.map AccountMeta.pubkey = some ctx.poolKey := by
  obtain ⟨l₁, hctx⟩ := h.context
  unfold Deposit.tryAccounts at hctx
  split at hctx
  next pool userDeposit depositor systemProgram rest hc =>
    simp only [returns_bind, returns_pure] at hctx
    obtain ⟨_, -, _, -, _, -, _, -, ⟨_, _⟩, -, _, -, _, -, _, -, _, -, hp⟩ := hctx
    obtain ⟨rfl, -⟩ := Prod.mk.inj hp
    rw [hc]
    rfl
  next => simp [notEnoughKeys] at hctx

/-! ## Pools -/

/-- No step changes or removes a pool: records and pools are different accounts. -/
theorem pool_step {k : Pubkey} {p : Pool} (h : Step d l a l') (hp : poolAt l k = some p) :
    poolAt l' k = some p := by
  have howner := (accountAt_eq_some.mp hp).1
  cases step_effect h with
  | quiet h => exact h.pools k p hp
  | deposit c ctx amount hdep heffect =>
    have hne : k ≠ ctx.userDepositKey := by
      rcases heffect.record with hud | ⟨hsys, -⟩
      · exact ne_of_poolAt hp hud
      · exact fun heq => owner_ne_system howner (heq ▸ hsys)
    rw [poolAt_congr (heffect.frame k hne), hp]
  -- a pool and a record are told apart by their discriminators
  | withdraw c ctx amount policy proofUsed called ud hwith heffect =>
    have hne := ne_of_poolAt hp heffect.record
    have hguard : (l k).owner ≠ d.guard.programId := fun heq => d.guard_ne (heq.symm.trans howner)
    rw [poolAt_congr ⟨heffect.owners k, heffect.frame k hne hguard⟩, hp]

/-- A pool is there for good. -/
theorem pool_stays {k : Pubkey} {p : Pool} {trace : List Moment} (h : Run (Step d) l trace l')
    (hp : poolAt l k = some p) : poolAt l' k = some p := by
  induction h with
  | nil => exact hp
  | cons step _ ih => exact ih (pool_step step hp)

/-! ## Registries -/

/-- A new pool was a system account, and so no registry. -/
theorem Initialized.sameRegistries {ctx : InitializePool} (h : Initialized ctx l l') :
    SameRegistries d.guard l l' := by
  obtain ⟨p, hp⟩ := h.stored
  have hafter := (accountAt_eq_some.mp hp).1
  refine Guard.sameRegistries_of_frame ?_ ?_ h.frame
  · exact fun heq => d.guard.programId_ne (heq.symm.trans h.fresh)
  · exact fun heq => d.guard_ne (heq.symm.trans hafter)

/-- Neither was a record. -/
theorem Deposited.sameRegistries {ctx : Deposit} {amount : UInt64}
    (h : Deposited d ctx amount l l') : SameRegistries d.guard l l' := by
  have hafter := (accountAt_eq_some.mp h.stored).1
  refine Guard.sameRegistries_of_frame ?_ (fun heq => d.guard_ne (heq.symm.trans hafter)) h.frame
  rcases h.record with hud | ⟨hsys, -⟩
  · exact fun heq => d.guard_ne (heq.symm.trans (accountAt_eq_some.mp hud).1)
  · exact fun heq => d.guard.programId_ne (heq.symm.trans hsys)

/-- The call inside a withdrawal is a step of the guard. -/
theorem WithdrawSteps.guardStep {env : Env} {ctx : Withdraw} {amount : UInt64}
    {policy : Guard.Policy} {proofUsed : Bool} {called : Ledger}
    (h : WithdrawSteps d env ctx amount l l' policy proofUsed called) :
    Guard.Step d.guard l
      (.executed ⟨env, ctx.cpiContext.toAccountMetas, Guard.enforceData policy⟩) called := by
  have hcall := h.call
  rw [cpiEnforce, returns_embed] at hcall
  exact .executed hcall

/-- The only registries that change are those the guard changes. -/
theorem layout_step (hl : Guard.Layout d.guard l) (h : Step d l a l') :
    Guard.Layout d.guard l' := by
  cases h with
  | vault h =>
    obtain ⟨ix, -, hrun⟩ := returns_bind.mp h
    cases ix with
    | initializePool kind label =>
      obtain ⟨ctx, -, -, hinit⟩ := initializePool_effect hrun
      exact hinit.sameRegistries.layout hl
    | deposit amount =>
      obtain ⟨ctx, l₁, -, heffect⟩ := deposit_effect hrun
      exact heffect.sameRegistries.layout hl
    | withdraw amount =>
      obtain ⟨ctx, policy, proofUsed, called, ud, -, heffect⟩ := withdraw_effect hrun
      -- the CPI is a step of the guard, and the rest touches no registry
      exact heffect.registries.layout (Guard.layout_step hl heffect.guardStep)
  | guard h => exact Guard.layout_step hl (.executed h)
  | rolledBack => exact hl
  | other h hguard => exact Guard.layout_step hl (.other hguard)

/-! ## Executing calls -/

/-- The ledger after a call, when it succeeds. -/
def next? (d : Deployment) (l : Ledger) : Label → Option Ledger
  | .vault c => (process d c.env c.accounts c.data l).result.toOption
  | .guard c => (Guard.process d.guard c.env c.accounts c.data l).result.toOption
  | .rolledBack => some l
  | .other => none

/-- What the function computes is a step, -/
theorem step_of_next? (h : next? d l a = some l') : Step d l a l' := by
  cases a with
  | vault c => exact .vault (toOption_eq_some.mp h)
  | guard c => exact .guard (toOption_eq_some.mp h)
  | rolledBack =>
    obtain rfl := Option.some.inj h
    exact .rolledBack l
  | other => cases h

/-- Execute calls one after the other; none when one of them fails. -/
def runLabels (d : Deployment) : Ledger → List Label → Option Ledger := replay (next? d)

/-- and what it computes for a list is a run. -/
theorem run_of_runLabels {as : List Label} (h : runLabels d l as = some l') :
    ∃ trace, Run (Step d) l trace l' ∧ trace.map Transition.label = as :=
  run_of_replay (fun _ _ _ => step_of_next?) h

end Trana.Vault
