import Trana.Guard.Fees
import Trana.Vault.Run

/-!
# What the vault's calls pay

A pool is rented by its authority, a record by its depositor; a deposit goes
from the depositor to the pool, a withdrawal from the pool to the destination.
The call to the guard inside a withdrawal moves nothing. The payments are read
off the accounts and the ledger before the call, so they are what a client can
know beforehand.

* `VaultInstruction.payments`, `callPayments`, `payments` — of an instruction, a
  call and a step of the chain.
* `call_settles`, `step_settles` — a successful call makes these payments and
  moves nothing else.
* `spender_signed` — who pays signed, or is the pool of a withdrawal that the
  record's owner signed.

Rent is what is missing to the exempt minimum: an account that already holds
lamports is topped up (`rentDue`). What other programs move is theirs, and the
fee of a transaction is not an instruction's.
-/

namespace Trana.Vault

open Trana.Lib Trana.Lib.Exec Trana.Solana
open Trana.Guard (Call Env)

/-- What an instruction pays. -/
def VaultInstruction.payments (env : Env) (accounts : List AccountMeta) (l : Ledger) :
    VaultInstruction → List (Payment Pubkey)
  | .initializePool _ _ =>
    match accounts with
    | pool :: authority :: _ => [⟨authority.pubkey, pool.pubkey,
        rentDue l env.minimumBalance pool.pubkey Pool.layout.space⟩]
    | _ => []
  | .deposit amount =>
    match accounts with
    | pool :: userDeposit :: depositor :: _ =>
      [⟨depositor.pubkey, userDeposit.pubkey,
        rentDue l env.minimumBalance userDeposit.pubkey UserDeposit.layout.space⟩,
       ⟨depositor.pubkey, pool.pubkey, amount.toNat⟩]
    | _ => []
  | .withdraw amount =>
    match accounts with
    | pool :: _ :: _ :: destination :: _ => [⟨pool.pubkey, destination.pubkey, amount.toNat⟩]
    | _ => []

/-- What a call of the vault pays. -/
def callPayments (l : Ledger) (c : Call) : List (Payment Pubkey) :=
  match (parseInstruction c.data).result with
  | .ok ix => ix.payments c.env c.accounts l
  | .error _ => []

/-- What a step of the chain pays. -/
def payments (d : Deployment) (t : Moment) : List (Payment Pubkey) :=
  match t.label with
  | .vault c => callPayments t.before c
  | .guard c => c.payments d.guard t.before
  | .rolledBack => []
  | .other => []

section Settles

variable {d : Deployment} {env : Env} {accounts : List AccountMeta} {l l' : Ledger}

/-- Written out for a call that parses. -/
theorem callPayments_eq {c : Call} {ix : VaultInstruction}
    (hix : (parseInstruction c.data).Returns ix) :
    callPayments l c = ix.payments c.env c.accounts l := by
  rw [Returns] at hix
  rw [callPayments, hix]

/-! ## The accounts of a call -/

/-- The accounts of a successful `initialize_pool`, by position. -/
theorem initializePool_accounts {ctx : InitializePool}
    (h : (InitializePool.tryAccounts d env accounts l).Returns (ctx, l')) :
    ∃ pool authority rest, accounts = pool :: authority :: rest ∧ pool.pubkey = ctx.pool ∧
      authority.isSigner = true ∧ authority.pubkey = ctx.authority := by
  unfold InitializePool.tryAccounts at h
  split at h
  next pool authority systemProgram rest =>
    simp only [returns_bind, returns_signer, returns_pure] at h
    obtain ⟨_, ⟨hsigner, rfl⟩, _, -, _, -, l₁, -, _, -, _, -, hp⟩ := h
    obtain ⟨rfl, -⟩ := Prod.mk.inj hp
    exact ⟨pool, authority, _, rfl, rfl, hsigner, rfl⟩
  next => simp [notEnoughKeys] at h

/-- Those of a `deposit`. -/
theorem deposit_accounts {ctx : Deposit}
    (h : (Deposit.tryAccounts d env accounts l).Returns (ctx, l')) :
    ∃ pool userDeposit depositor rest, accounts = pool :: userDeposit :: depositor :: rest ∧
      pool.pubkey = ctx.poolKey ∧ userDeposit.pubkey = ctx.userDepositKey ∧
      depositor.isSigner = true ∧ depositor.pubkey = ctx.depositor := by
  unfold Deposit.tryAccounts at h
  split at h
  next pool userDeposit depositor systemProgram rest =>
    simp only [returns_bind, returns_signer, returns_pure] at h
    obtain ⟨p, -, _, ⟨hsigner, rfl⟩, _, -, _, -, ⟨ud, l₁⟩, -, _, -, _, -, _, -, _, -, hp⟩ := h
    obtain ⟨rfl, -⟩ := Prod.mk.inj hp
    exact ⟨pool, userDeposit, depositor, _, rfl, rfl, rfl, hsigner, rfl⟩
  next => simp [notEnoughKeys] at h

/-- Those of a `withdraw`. -/
theorem withdraw_accounts {ctx : Withdraw}
    (h : (Withdraw.tryAccounts d accounts l).Returns ctx) :
    ∃ pool userDeposit owner destination rest,
      accounts = pool :: userDeposit :: owner :: destination :: rest ∧
      pool.pubkey = ctx.poolKey ∧ owner.isSigner = true ∧ owner.pubkey = ctx.owner ∧
      destination.pubkey = ctx.destination := by
  unfold Withdraw.tryAccounts at h
  split at h
  next pool userDeposit owner destination tranaGuardProgram tranaRegistry instructions rest =>
    simp only [returns_bind, returns_signer, returns_pure] at h
    obtain ⟨p, -, ud, -, _, ⟨hsigner, rfl⟩, _, -, _, -, _, -, _, -, _, -, _, -, _, -, _, -, _, -,
      _, -, rfl⟩ := h
    exact ⟨pool, userDeposit, owner, destination, _, rfl, rfl, hsigner, rfl, rfl⟩
  next => simp [notEnoughKeys] at h

/-! ## The payments -/

/-- The two lamport writes are one payment. -/
theorem moveLamports_settles {src dst : Pubkey} {amount : UInt64}
    (h : (moveLamports l src dst amount).Returns l') :
    Settles (lamportsOf l) (lamportsOf l') [⟨src, dst, amount.toNat⟩] := by
  simp only [moveLamports, returns_bind, returns_u64Sub, returns_u64Add, returns_pure] at h
  obtain ⟨_, ⟨hle, rfl⟩, _, ⟨hlt, rfl⟩, rfl⟩ := h
  exact move_settles hle hlt

/-- The call to the guard moves none. -/
theorem cpiEnforce_lamports {ctx : Withdraw} {policy : Guard.Policy}
    (h : (cpiEnforce d env ctx policy l).Returns l') : lamportsOf l' = lamportsOf l :=
  funext fun k => congrArg UInt64.toNat ((Guard.invokeEnforce_frame (returns_embed.mp h)).1 k).1

/-- A new pool is rented by its authority. -/
theorem initializePool_settles {kind : PoolKind} {label : String}
    (h : (execute d env accounts (.initializePool kind label) l).Returns l') :
    Settles (lamportsOf l) (lamportsOf l')
      (VaultInstruction.payments env accounts l (.initializePool kind label)) := by
  simp only [execute, returns_bind] at h
  obtain ⟨⟨ctx, l₁⟩, hctx, pool, -, hexit⟩ := h
  obtain ⟨m₁, m₂, rest, rfl, hpool, -, hauthority⟩ := initializePool_accounts hctx
  have hinit := initAccount_settles (initializePool_tryAccounts hctx)
  rw [← hpool, ← hauthority] at hinit
  rw [exitAccount_lamports hexit]
  exact hinit

/-- A deposit rents the record if it is new, and pays the amount into the pool. -/
theorem deposit_settles {amount : UInt64}
    (h : (execute d env accounts (.deposit amount) l).Returns l') :
    Settles (lamportsOf l) (lamportsOf l')
      (VaultInstruction.payments env accounts l (.deposit amount)) := by
  simp only [execute, returns_bind] at h
  obtain ⟨⟨ctx, l₁⟩, hctx, ⟨ud, l₂⟩, hrun, l₃, hexitPool, hexit⟩ := h
  simp only [deposit, invokeTransfer, returns_bind, returns_okOr, returns_pure] at hrun
  obtain ⟨_, -, l₂', htransfer, _, -, hp⟩ := hrun
  obtain ⟨-, rfl⟩ := Prod.mk.inj hp
  obtain ⟨m₁, m₂, m₃, rest, rfl, hpool, hrecord, -, hdepositor⟩ := deposit_accounts hctx
  obtain ⟨-, -, -, hinit⟩ := deposit_tryAccounts hctx
  rw [← hrecord, ← hdepositor] at hinit
  rw [← hpool, ← hdepositor] at htransfer
  rw [exitAccount_lamports hexit, exitAccount_lamports hexitPool]
  -- rent for the record first, then the deposit
  exact (initIfNeeded_settles vaultId_ne_system hinit).append (transfer_settles htransfer)

/-- A withdrawal pays from the pool. -/
theorem withdraw_settles {amount : UInt64}
    (h : (execute d env accounts (.withdraw amount) l).Returns l') :
    Settles (lamportsOf l) (lamportsOf l')
      (VaultInstruction.payments env accounts l (.withdraw amount)) := by
  simp only [execute, returns_bind, withdraw, returns_pure] at h
  obtain ⟨ctx, hctx, ⟨ud, l₁⟩, ⟨_, -, _, -, ⟨policy, proofUsed⟩, -, called, hcall, l₂, hmove, ud',
    -, _, -, hp⟩, l₃, hexitPool, hexit⟩ := h
  obtain ⟨-, rfl⟩ := Prod.mk.inj hp
  obtain ⟨m₁, m₂, m₃, m₄, rest, rfl, hpool, -, -, hdestination⟩ := withdraw_accounts hctx
  have hmoved := moveLamports_settles hmove
  rw [cpiEnforce_lamports hcall, ← hpool, ← hdestination] at hmoved
  rw [exitAccount_lamports hexit, exitAccount_lamports hexitPool]
  exact hmoved

/-- A successful call of the vault makes its payments and moves nothing else. -/
theorem call_settles {c : Call} (h : (process d c.env c.accounts c.data l).Returns l') :
    Settles (lamportsOf l) (lamportsOf l') (callPayments l c) := by
  obtain ⟨ix, hix, hrun⟩ := returns_bind.mp h
  rw [callPayments_eq hix]
  cases ix with
  | initializePool kind label => exact initializePool_settles hrun
  | deposit amount => exact deposit_settles hrun
  | withdraw amount => exact withdraw_settles hrun

/-- So does every step of the chain that is not another program's. -/
theorem step_settles {t : Moment} (h : Step d t.before t.label t.after) (hown : t.label ≠ .other) :
    Settles (lamportsOf t.before) (lamportsOf t.after) (payments d t) := by
  obtain ⟨l, a, l'⟩ := t
  cases h with
  | vault h => exact call_settles h
  | guard h => exact Guard.call_settles h
  | rolledBack => exact .refl _
  | other h => exact absurd rfl hown

/-! ## Who pays -/

/-- `k` is a signer of the call. -/
def Signs (c : Call) (k : Pubkey) : Prop := ∃ m ∈ c.accounts, m.isSigner = true ∧ m.pubkey = k

/-- The step lets `k` lose lamports: `k` signed it, or is the pool of a withdrawal. -/
inductive Spends (d : Deployment) (t : Moment) (k : Pubkey) : Prop where
  | guard (c : Call) (label : t.label = .guard c) (signed : Signs c k)
  | vault (c : Call) (label : t.label = .vault c) (signed : Signs c k)
  | withdraw (c : Call) (ctx : Withdraw) (amount : UInt64)
    (withdraws : Withdraws d t.before t.label c ctx amount) (pool : ctx.poolKey = k)
    (signed : Signs c ctx.owner)

/-- Who pays signed, or is the pool its record's owner withdraws from. -/
theorem spender_signed {t : Moment} (h : Step d t.before t.label t.after) {p : Payment Pubkey}
    (hp : p ∈ payments d t) : Spends d t p.source := by
  obtain ⟨l, a, l'⟩ := t
  cases h with
  | rolledBack => cases hp
  | other h => cases hp
  | @guard _ c h =>
    obtain ⟨c', m, hc, hm, hsigner, hw⟩ := Guard.payer_signed h hp
    obtain rfl := Guard.Label.executed.inj hc
    exact .guard c rfl ⟨m, List.mem_of_getElem? hm, hsigner, hw⟩
  | @vault _ c h =>
    obtain ⟨ix, hix, hrun⟩ := returns_bind.mp h
    have hp : p ∈ callPayments l c := hp
    rw [callPayments_eq hix] at hp
    cases ix with
    | initializePool kind label =>
      obtain ⟨ctx, l₁, hctx, -⟩ := initializePool_effect hrun
      obtain ⟨m₁, m₂, rest, hc, -, hsigner, -⟩ := initializePool_accounts hctx
      rw [hc] at hp
      rw [List.mem_singleton.mp hp]
      exact .vault c rfl ⟨m₂, by rw [hc]; simp, hsigner, rfl⟩
    | deposit amount =>
      obtain ⟨ctx, l₁, hctx, -⟩ := deposit_effect hrun
      obtain ⟨m₁, m₂, m₃, rest, hc, -, -, hsigner, -⟩ := deposit_accounts hctx
      rw [hc] at hp
      have hsource : p.source = m₃.pubkey := by
        rcases List.mem_cons.mp hp with rfl | hp
        · rfl
        · rw [List.mem_singleton.mp hp]
      rw [hsource]
      exact .vault c rfl ⟨m₃, by rw [hc]; simp, hsigner, rfl⟩
    | withdraw amount =>
      obtain ⟨ctx, policy, proofUsed, called, ud, hctx, -⟩ := withdraw_effect hrun
      obtain ⟨m₁, m₂, m₃, m₄, rest, hc, hpool, hsigner, howner, -⟩ := withdraw_accounts hctx
      rw [hc] at hp
      rw [List.mem_singleton.mp hp]
      -- the owner signs; the lamports are the pool's
      exact .withdraw c ctx amount ⟨rfl, hix, hctx⟩ hpool.symm
        ⟨m₃, by rw [hc]; simp, hsigner, howner⟩

end Settles

end Trana.Vault
