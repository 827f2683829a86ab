import Trana.Guard.Foreign
import Trana.Guard.Run
import Trana.Vault.Program

/-!
# What the vault's instructions do

One structure per instruction says what a successful run found and wrote, in
terms of the pool and the record it names; nothing later unfolds a handler.

* `Initialized`, `Deposited`, `Withdrawn` — these structures. Each has a field
  `frame`: which accounts kept owner and data, and one about lamports: who was
  not debited.
* `withdraw_spec` — the policy a withdrawal chose, the one call to the guard,
  and that nothing else it did touches a registry.
* `withdraw_effect`, `deposit_effect`, `initializePool_effect` — which record or
  pool is there afterwards.
* `InWindow`, `unlockSlot`, `choosePolicy_limit`, `recordWithdrawal_spec` — the
  policy and the record in numbers: the drain window is in seconds, the slot
  that ends it in slots, and the source compares each with its own clock.

A pool's account is written back at exit unchanged, which the source does by
declaring it `mut`; `exitAccount_unchanged` removes that write from the picture.
-/

namespace Trana.Vault

open Trana.Lib Trana.Lib.Exec Trana.Solana Trana.Guard

variable {d : Deployment} {env : Env} {accounts : List AccountMeta} {l l' : Ledger}

/-- Lamport moves keep every owner and all data. -/
theorem moveLamports_sameState {src dst : Pubkey} {amount : UInt64}
    (h : (moveLamports l src dst amount).Returns l') : l.SameState l' := by
  simp only [moveLamports, returns_bind, returns_u64Sub, returns_u64Add, returns_pure] at h
  obtain ⟨debited, -, credited, -, rfl⟩ := h
  exact (Ledger.SameState.set_lamports l src _).trans (Ledger.SameState.set_lamports _ dst _)

/-- Writing an account of the vault writes no registry. -/
theorem exitAccount_sameRegistries {α : Type} {t : AccountLayout α} {key : Pubkey} {x : α}
    (h : (exitAccount t vaultId key x l : Result Ledger).Returns l') :
    SameRegistries d.guard l l' := by
  unfold exitAccount at h
  rw [returns_ite] at h
  rcases h with ⟨howner, h⟩ | ⟨-, h⟩
  · simp only [returns_bind, returns_okOr, returns_pure] at h
    obtain ⟨data, -, rfl⟩ := h
    intro k
    by_cases hk : k = key
    · subst hk
      have hne : (l k).owner ≠ d.guard.programId := fun heq => d.guard_ne (heq.symm.trans howner)
      rw [registryAt, registryAt, Ledger.set_self, if_neg hne, if_neg hne]
    · rw [registryAt, registryAt, Ledger.set_of_ne _ hk]
  · obtain rfl := returns_pure.mp h
    exact fun _ => rfl

/-- A successful withdrawal, taken apart. -/
structure WithdrawSteps (d : Deployment) (env : Env) (ctx : Withdraw) (amount : UInt64)
    (l l' : Ledger) (policy : Policy) (proofUsed : Bool) (called : Ledger) : Prop where
  amount_pos : 0 < amount
  balance : amount ≤ ctx.userDeposit.balance
  chosen : (choosePolicy ctx.pool.kind ctx.userDeposit env.clock amount).Returns (policy, proofUsed)
  call : (cpiEnforce d env ctx policy l).Returns called
  registries : SameRegistries d.guard called l'

/-! ## Pools and records -/

/-- The pool at an address. -/
def poolAt (l : Ledger) (key : Pubkey) : Option Pool := accountAt Pool.layout vaultId l key

/-- The deposit record at an address. -/
def depositAt (l : Ledger) (key : Pubkey) : Option UserDeposit :=
  accountAt UserDeposit.layout vaultId l key

/-- Owner and data decide about a pool, -/
theorem poolAt_congr {key : Pubkey}
    (h : (l' key).owner = (l key).owner ∧ (l' key).data = (l key).data) :
    poolAt l' key = poolAt l key :=
  accountAt_congr h

/-- and about a record. -/
theorem depositAt_congr {key : Pubkey}
    (h : (l' key).owner = (l key).owner ∧ (l' key).data = (l key).data) :
    depositAt l' key = depositAt l key :=
  accountAt_congr h

/-- A pool is no record. -/
theorem ne_of_poolAt {key key' : Pubkey} {p : Pool} {ud : UserDeposit}
    (hp : poolAt l key = some p) (hud : depositAt l key' = some ud) : key ≠ key' := by
  intro heq
  subst heq
  have htag := AccountLayout.discriminator_of_tryDeserialize (accountAt_eq_some.mp hp).2
  have htag' := AccountLayout.discriminator_of_tryDeserialize (accountAt_eq_some.mp hud).2
  rw [Pool.layout.length_discriminator] at htag
  rw [UserDeposit.layout.length_discriminator] at htag'
  exact absurd (htag.symm.trans htag') (by decide)

/-- The vault is not the system program. -/
theorem vaultId_ne_system : vaultId ≠ systemProgramId := by decide

/-- An account of the vault is no wallet. -/
theorem owner_ne_system {key : Pubkey} (h : (l key).owner = vaultId) :
    (l key).owner ≠ systemProgramId :=
  fun heq => vaultId_ne_system (h.symm.trans heq)

/-! ## Initialising a pool -/

/-- A successful `initialize_pool`. -/
structure Initialized (ctx : InitializePool) (l l' : Ledger) : Prop where
  fresh : (l ctx.pool).owner = systemProgramId
  stored : ∃ p, poolAt l' ctx.pool = some p
  frame : ∀ k, k ≠ ctx.pool → (l' k).owner = (l k).owner ∧ (l' k).data = (l k).data
  credits : ∀ k, (l k).owner = vaultId → (l k).lamports ≤ (l' k).lamports

/-- The context of `initialize_pool` has created the pool's account. -/
theorem initializePool_tryAccounts {ctx : InitializePool}
    (h : (InitializePool.tryAccounts d env accounts l).Returns (ctx, l')) :
    l.initAccount env.minimumBalance ctx.authority ctx.pool vaultId Pool.layout.space =
      some l' := by
  unfold InitializePool.tryAccounts at h
  split at h
  next pool authority systemProgram rest =>
    simp only [returns_bind, returns_signer, returns_okOr, returns_pure] at h
    obtain ⟨_, ⟨-, rfl⟩, _, -, _, -, l₁, hinit, _, -, _, -, hp⟩ := h
    obtain ⟨rfl, rfl⟩ := Prod.mk.inj hp
    exact hinit
  next => simp [notEnoughKeys] at h

/-- A successful `initialize_pool` did what `Initialized` says. -/
theorem initializePool_effect {kind : PoolKind} {label : String}
    (h : (execute d env accounts (.initializePool kind label) l).Returns l') :
    ∃ ctx l₁, (InitializePool.tryAccounts d env accounts l).Returns (ctx, l₁) ∧
      Initialized ctx l l' := by
  simp only [execute, returns_bind] at h
  obtain ⟨⟨ctx, l₁⟩, hctx, pool, -, hexit⟩ := h
  have hinit := initializePool_tryAccounts hctx
  obtain ⟨hfresh, hframe⟩ := Ledger.initAccount_frame hinit
  have hkey := hframe ctx.pool
  rw [Ledger.set_self] at hkey
  -- the pool was made by this call, and the exit writes its bytes
  obtain ⟨hstored, hkept, hothers⟩ := exitAccount_spec hkey.1 hexit
  refine ⟨ctx, l₁, hctx, hfresh, ⟨pool, hstored⟩, fun k hk => ?_, fun k hk => ?_⟩
  · have hk' := hframe k
    rw [Ledger.set_of_ne _ hk] at hk'
    rwa [hothers k hk]
  · rw [(hkept k).1]
    exact Ledger.initAccount_credits hinit (owner_ne_system hk)

/-! ## Deposits -/

/-- The zeros `init` leaves, read as a record. -/
def UserDeposit.blank : UserDeposit := ⟨systemProgramId, systemProgramId, 0, 0, 0, 0, 0⟩

/-- `init_if_needed` reads a new account without its discriminator. -/
theorem tryDeserializeUnchecked_blank :
    UserDeposit.layout.tryDeserializeUnchecked (List.replicate UserDeposit.layout.space 0) =
      .ok UserDeposit.blank := by
  decide +kernel

/-- The record after a deposit: named on the first one, and credited. -/
def Deposit.credited (ctx : Deposit) (amount : UInt64) : UserDeposit :=
  let ud :=
    if ctx.userDeposit.pool = systemProgramId then
      { ctx.userDeposit with pool := ctx.poolKey, user := ctx.depositor, bump := ctx.bump }
    else ctx.userDeposit
  { ud with balance := saturatingAdd ud.balance amount }

/-- Saturating loses, and never gains. -/
theorem saturatingAdd_le (a b : UInt64) : (saturatingAdd a b).toNat ≤ a.toNat + b.toNat := by
  unfold saturatingAdd
  split
  next hlt =>
    rw [UInt64.toNat_add, Nat.mod_eq_of_lt hlt]
  next hge =>
    rw [UInt64.toNat_ofNat']
    omega

/-- A successful `deposit`. -/
structure Deposited (d : Deployment) (ctx : Deposit) (amount : UInt64) (l l' : Ledger) : Prop where
  found : poolAt l ctx.poolKey = some ctx.pool
  derived : d.createPool ctx.pool.authority ctx.pool.bump = some ctx.poolKey
  key_eq : ctx.userDepositKey = (d.findDeposit ctx.poolKey ctx.depositor).1
  record : depositAt l ctx.userDepositKey = some ctx.userDeposit ∨
    (l ctx.userDepositKey).owner = systemProgramId ∧ ctx.userDeposit = UserDeposit.blank
  stored : depositAt l' ctx.userDepositKey = some (ctx.credited amount)
  frame : ∀ k, k ≠ ctx.userDepositKey → (l' k).owner = (l k).owner ∧ (l' k).data = (l k).data
  pool_credited : (l ctx.poolKey).lamports.toNat + amount.toNat ≤ (l' ctx.poolKey).lamports.toNat
  credits : ∀ k, (l k).owner = vaultId → (l k).lamports ≤ (l' k).lamports

/-- The context of `deposit`: a pool at its address, and a record that was found or made. -/
theorem deposit_tryAccounts {ctx : Deposit}
    (h : (Deposit.tryAccounts d env accounts l).Returns (ctx, l')) :
    poolAt l ctx.poolKey = some ctx.pool ∧
      d.createPool ctx.pool.authority ctx.pool.bump = some ctx.poolKey ∧
      ctx.userDepositKey = (d.findDeposit ctx.poolKey ctx.depositor).1 ∧
      (initIfNeeded UserDeposit.layout vaultId env.minimumBalance ctx.depositor
        ctx.userDepositKey l : Result _).Returns (ctx.userDeposit, l') := by
  unfold Deposit.tryAccounts at h
  split at h
  next pool userDeposit depositor systemProgram rest =>
    simp only [returns_bind, returns_signer, returns_constraintSeeds, constraintBump,
      Exec.returns_require, returns_pure, exists_const] at h
    obtain ⟨p, hpool, _, ⟨-, rfl⟩, _, -, hseeds, ⟨ud, l₁⟩, hinit, hbump, _, -, _, -, _, -, hp⟩ := h
    obtain ⟨rfl, rfl⟩ := Prod.mk.inj hp
    exact ⟨accountAt_of_load hpool, hbump, hseeds, hinit⟩
  next => simp [notEnoughKeys] at h

/-- Whether found or new, the record's account is the vault's, and the rest of
its accounts are as before or better off. -/
theorem initIfNeeded_record {payer key : Pubkey} {ud : UserDeposit}
    (h : (initIfNeeded UserDeposit.layout vaultId env.minimumBalance payer key l :
      Result _).Returns (ud, l')) :
    (depositAt l key = some ud ∨ (l key).owner = systemProgramId ∧ ud = UserDeposit.blank) ∧
      (l' key).owner = vaultId ∧
      (∀ k, k ≠ key → (l' k).owner = (l k).owner ∧ (l' k).data = (l k).data) ∧
      ∀ k, (l k).owner = vaultId → (l k).lamports ≤ (l' k).lamports := by
  rcases initIfNeeded_spec h with ⟨hfound, rfl⟩ | ⟨hsys, hinit, hread⟩
  · exact ⟨Or.inl hfound, (accountAt_eq_some.mp hfound).1, fun _ _ => ⟨rfl, rfl⟩,
      fun _ _ => UInt64.le_refl _⟩
  · obtain ⟨-, hframe⟩ := Ledger.initAccount_frame hinit
    have hkey := hframe key
    rw [Ledger.set_self] at hkey
    rw [tryDeserializeUnchecked_blank] at hread
    refine ⟨Or.inr ⟨hsys, (Except.ok.inj hread).symm⟩, hkey.1, fun k hk => ?_, fun k hk =>
      Ledger.initAccount_credits hinit (owner_ne_system hk)⟩
    have hk' := hframe k
    rwa [Ledger.set_of_ne _ hk] at hk'

/-- A successful `deposit` did what `Deposited` says. -/
theorem deposit_effect {amount : UInt64}
    (h : (execute d env accounts (.deposit amount) l).Returns l') :
    ∃ ctx l₁, (Deposit.tryAccounts d env accounts l).Returns (ctx, l₁) ∧
      Deposited d ctx amount l l' := by
  simp only [execute, returns_bind] at h
  obtain ⟨⟨ctx, l₁⟩, hctx, ⟨ud, l₂⟩, hrun, l₃, hpool, hexit⟩ := h
  obtain ⟨hfound, hderived, hkey, hinit⟩ := deposit_tryAccounts hctx
  obtain ⟨hrecord, howner, hframe, hcredits⟩ := initIfNeeded_record hinit
  simp only [deposit, invokeTransfer, returns_bind, returns_require, returns_okOr, returns_emit,
    returns_pure, exists_const, true_and] at hrun
  obtain ⟨-, l₂', htransfer, hp⟩ := hrun
  obtain ⟨rfl, rfl⟩ := Prod.mk.inj hp
  have hsame := Ledger.transfer_frame htransfer
  -- the pool is not the record: it was there, as a pool, before
  have hne : ctx.poolKey ≠ ctx.userDepositKey := by
    rcases hrecord with hud | ⟨hsys, -⟩
    · exact ne_of_poolAt hfound hud
    · intro heq
      exact owner_ne_system (accountAt_eq_some.mp hfound).1 (heq ▸ hsys)
  have hfound₁ : poolAt l₁ ctx.poolKey = some ctx.pool := by
    rw [poolAt_congr (hframe _ hne), hfound]
  have hfound₂ : poolAt l₂' ctx.poolKey = some ctx.pool := by
    rw [poolAt_congr (hsame _), hfound₁]
  obtain rfl := exitAccount_unchanged hfound₂ hpool
  obtain ⟨hstored, hkept, hothers⟩ :=
    exitAccount_spec ((hsame ctx.userDepositKey).1.trans howner) hexit
  have hcredit := Ledger.transfer_credit (owner_ne_system (accountAt_eq_some.mp hfound₁).1)
    htransfer
  refine ⟨ctx, l₁, hctx, hfound, hderived, hkey, hrecord, hstored, fun k hk => ?_, ?_,
    fun k hk => ?_⟩
  · rw [hothers k hk]
    exact ⟨(hsame k).1.trans (hframe k hk).1, (hsame k).2.trans (hframe k hk).2⟩
  · have hle := UInt64.le_iff_toNat_le.mp (hcredits _ (accountAt_eq_some.mp hfound).1)
    rw [(hkept _).1]
    omega
  · have howner₁ : (l₁ k).owner = vaultId := by
      by_cases heq : k = ctx.userDepositKey
      · rw [heq, howner]
      · rw [(hframe k heq).1, hk]
    rw [(hkept k).1]
    exact UInt64.le_trans (hcredits k hk)
      ((Ledger.transfer_respects vaultId_ne_system htransfer).credits k howner₁)

/-! ## Withdrawals -/

/-- Lamports leave one account only, and no more than the amount; what is sent
back to it stays. -/
theorem moveLamports_spec {src dst : Pubkey} {amount : UInt64}
    (h : (moveLamports l src dst amount).Returns l') :
    (l src).lamports.toNat ≤ (l' src).lamports.toNat + amount.toNat ∧
      ∀ k, k ≠ src → (l k).lamports ≤ (l' k).lamports := by
  simp only [moveLamports, returns_bind, returns_u64Sub, returns_u64Add, returns_pure] at h
  obtain ⟨_, ⟨hle, rfl⟩, _, ⟨hlt, rfl⟩, rfl⟩ := h
  have hdebit : ((l src).lamports - amount).toNat = (l src).lamports.toNat - amount.toNat :=
    UInt64.toNat_sub_of_le _ _ hle
  -- sent to itself: debit and credit meet at one account
  by_cases hdst : dst = src
  · subst hdst
    rw [Ledger.set_self] at hlt ⊢
    refine ⟨?_, fun k hk => ?_⟩
    · have hback : ((l dst).lamports - amount).toNat + amount.toNat < 2 ^ 64 := hlt
      have hsum := UInt64.le_iff_toNat_le.mp (Ledger.le_add_of_lt hback)
      rw [Ledger.set_self]
      show _ ≤ ((l dst).lamports - amount + amount).toNat + _
      omega
    · rw [Ledger.set_of_ne _ hk, Ledger.set_of_ne _ hk]
      exact UInt64.le_refl _
  · rw [Ledger.set_of_ne _ hdst] at hlt ⊢
    refine ⟨?_, fun k hk => ?_⟩
    · rw [Ledger.set_of_ne _ (Ne.symm hdst), Ledger.set_self]
      show _ ≤ ((l src).lamports - amount).toNat + _
      omega
    · by_cases hk' : k = dst
      · subst hk'
        rw [Ledger.set_self]
        exact Ledger.le_add_of_lt hlt
      · rw [Ledger.set_of_ne _ hk', Ledger.set_of_ne _ hk]
        exact UInt64.le_refl _

/-- An unproved withdrawal lies less than the drain window back. -/
def InWindow (ud : UserDeposit) (now : Int64) : Prop :=
  0 < ud.lastWithdrawAt ∧ now.toInt - ud.lastWithdrawAt.toInt < drainWindow.toInt

instance (ud : UserDeposit) (now : Int64) : Decidable (InWindow ud now) :=
  inferInstanceAs (Decidable (_ ∧ _))

/-- The slot from which a further withdrawal needs no proof. -/
def unlockSlot (ud : UserDeposit) : UInt64 := saturatingAdd ud.lastWithdrawSlot cooldownSlots

/-- Where the subtraction does not overflow, the flag is the condition. -/
theorem inDrainWindow_eq {ud : UserDeposit} {now : Int64} {b : Bool}
    (h : (inDrainWindow ud now).Returns b) : b = decide (InWindow ud now) := by
  simp only [inDrainWindow, returns_ite, returns_bind, returns_i64Sub, returns_pure] at h
  rcases h with ⟨hpos, elapsed, ⟨⟨hlow, hhigh⟩, rfl⟩, rfl⟩ | ⟨hpos, rfl⟩
  -- the difference of two `i64` is checked, so it is the difference of the numbers
  · have hint : (now - ud.lastWithdrawAt).toInt = now.toInt - ud.lastWithdrawAt.toInt := by
      rw [Int64.toInt_sub]
      exact Int.bmod_eq_of_le (by omega) (by omega)
    have hiff : now - ud.lastWithdrawAt < drainWindow ↔ InWindow ud now := by
      rw [Int64.lt_iff_toInt_lt, hint]
      exact (and_iff_right hpos).symm
    exact decide_eq_decide.mpr hiff
  · exact (decide_eq_false fun hin => hpos hin.1).symm

/-- The policy of a withdrawal from a limit pool. -/
theorem choosePolicy_limit {ud : UserDeposit} {clock : Clock} {amount : UInt64} {policy : Policy}
    {proofUsed : Bool} (h : (choosePolicy .limit ud clock amount).Returns (policy, proofUsed)) :
    (InWindow ud clock.unixTimestamp ∧ policy = .notBefore (unlockSlot ud) ∧ proofUsed = true) ∨
    (¬InWindow ud clock.unixTimestamp ∧ policy = .limit 0 withdrawLimit ∧
      proofUsed = decide (withdrawLimit ≤ amount)) := by
  simp only [choosePolicy, returns_bind, returns_pure] at h
  obtain ⟨inWindow, hwindow, hp⟩ := h
  obtain ⟨rfl, rfl⟩ := Prod.mk.inj hp
  obtain rfl := inDrainWindow_eq hwindow
  by_cases hin : InWindow ud clock.unixTimestamp
  · exact Or.inl ⟨hin, by simp [hin, unlockSlot], by simp [hin]⟩
  · exact Or.inr ⟨hin, by simp [hin], by simp [hin]⟩

/-- The policy of a withdrawal from a time-locked pool. -/
theorem choosePolicy_timeLocked {ud : UserDeposit} {clock : Clock} {amount : UInt64}
    {policy : Policy} {proofUsed : Bool}
    (h : (choosePolicy .timeLocked ud clock amount).Returns (policy, proofUsed)) :
    policy = .notBefore (unlockSlot ud) ∧ proofUsed = false := by
  obtain ⟨rfl, rfl⟩ := Prod.mk.inj (returns_pure.mp h)
  exact ⟨rfl, rfl⟩

/-- Below a saturated sum are the slots below the sum, but never the last one. -/
theorem lt_saturatingAdd_iff {s a b : UInt64} :
    s < saturatingAdd a b ↔ s.toNat < a.toNat + b.toNat ∧ s.toNat + 1 < 2 ^ 64 := by
  have hs : s.toNat < 2 ^ 64 := s.toNat_lt
  rw [UInt64.lt_iff_toNat_lt]
  unfold saturatingAdd
  by_cases hlt : a.toNat + b.toNat < 2 ^ 64
  · rw [if_pos hlt, UInt64.toNat_add, Nat.mod_eq_of_lt hlt]
    omega
  -- saturated: the sum would be at least `2 ^ 64`, and the last slot is not below it
  · have hmax : (UInt64.ofNat (2 ^ 64 - 1)).toNat = 2 ^ 64 - 1 := rfl
    rw [if_neg hlt, hmax]
    omega

/-- What a withdrawal from a limit pool leaves as the start of the window. -/
theorem recordWithdrawal_limit {ud ud' : UserDeposit} {clock : Clock} {amount : UInt64}
    {proofUsed : Bool} (h : (recordWithdrawal .limit ud clock amount proofUsed).Returns ud') :
    ud'.lastWithdrawAt = if proofUsed then 0 else clock.unixTimestamp := by
  simp only [recordWithdrawal, returns_bind, returns_ite, returns_pure] at h
  obtain ⟨balance, -, inW, -, ⟨hused, rfl⟩ | ⟨hfree, rfl⟩⟩ := h
  · rw [if_pos hused]
  · rw [if_neg hfree]

/-- Every withdrawal leaves its slot. -/
theorem recordWithdrawal_slot {kind : PoolKind} {ud ud' : UserDeposit} {clock : Clock}
    {amount : UInt64} {proofUsed : Bool}
    (h : (recordWithdrawal kind ud clock amount proofUsed).Returns ud') :
    ud'.lastWithdrawSlot = clock.slot := by
  obtain ⟨balance, -, h⟩ := returns_bind.mp h
  cases kind with
  | timeLocked =>
    obtain rfl := returns_pure.mp h
    rfl
  | limit =>
    simp only [returns_bind, returns_ite, returns_pure] at h
    obtain ⟨inW, -, ⟨-, rfl⟩ | ⟨-, rfl⟩⟩ := h
    · rfl
    · rfl

/-- A withdrawal counts the balance down; the record stays the same user's, in
the same pool. -/
theorem recordWithdrawal_spec {kind : PoolKind} {ud ud' : UserDeposit} {clock : Clock}
    {amount : UInt64} {proofUsed : Bool}
    (h : (recordWithdrawal kind ud clock amount proofUsed).Returns ud') :
    ud'.pool = ud.pool ∧ ud'.user = ud.user ∧
      ud'.balance.toNat + amount.toNat = ud.balance.toNat := by
  simp only [recordWithdrawal, returns_bind, returns_u64Sub] at h
  obtain ⟨balance, ⟨hle, rfl⟩, h⟩ := h
  have hsub : (ud.balance - amount).toNat + amount.toNat = ud.balance.toNat := by
    rw [UInt64.toNat_sub_of_le _ _ hle]
    exact Nat.sub_add_cancel (UInt64.le_iff_toNat_le.mp hle)
  cases kind with
  | timeLocked =>
    obtain rfl := returns_pure.mp h
    exact ⟨rfl, rfl, hsub⟩
  | limit =>
    simp only [returns_bind, returns_ite, returns_pure] at h
    obtain ⟨inW, -, ⟨-, rfl⟩ | ⟨-, rfl⟩⟩ := h
    · exact ⟨rfl, rfl, hsub⟩
    · exact ⟨rfl, rfl, hsub⟩

/-- A successful `withdraw`, with what it wrote. -/
structure Withdrawn (d : Deployment) (env : Env) (ctx : Withdraw) (amount : UInt64)
    (l l' : Ledger) (policy : Policy) (proofUsed : Bool) (called : Ledger) (ud : UserDeposit) :
    Prop extends WithdrawSteps d env ctx amount l l' policy proofUsed called where
  found : poolAt l ctx.poolKey = some ctx.pool
  record : depositAt l ctx.userDepositKey = some ctx.userDeposit
  pool_eq : ctx.userDeposit.pool = ctx.poolKey
  user_eq : ctx.userDeposit.user = ctx.owner
  updated : (recordWithdrawal ctx.pool.kind ctx.userDeposit env.clock amount proofUsed).Returns ud
  stored : depositAt l' ctx.userDepositKey = some ud
  owners : ∀ k, (l' k).owner = (l k).owner
  frame : ∀ k, k ≠ ctx.userDepositKey → (l k).owner ≠ d.guard.programId → (l' k).data = (l k).data
  pool_debited : (l ctx.poolKey).lamports.toNat ≤
    (l' ctx.poolKey).lamports.toNat + amount.toNat
  credits : ∀ k, k ≠ ctx.poolKey → (l k).lamports ≤ (l' k).lamports

/-- The context of `withdraw`: a pool, and a record of it that is the signer's. -/
theorem withdraw_tryAccounts {ctx : Withdraw}
    (h : (Withdraw.tryAccounts d accounts l).Returns ctx) :
    poolAt l ctx.poolKey = some ctx.pool ∧ depositAt l ctx.userDepositKey = some ctx.userDeposit ∧
      ctx.userDeposit.pool = ctx.poolKey ∧ ctx.userDeposit.user = ctx.owner := by
  unfold Withdraw.tryAccounts at h
  split at h
  next pool userDeposit owner destination tranaGuardProgram tranaRegistry instructions rest =>
    simp only [returns_bind, returns_signer, constraintRaw, Exec.returns_require, returns_pure,
      exists_const] at h
    obtain ⟨p, hpool, ud, hud, _, ⟨-, rfl⟩, _, -, _, -, _, -, _, -, _, -, hpooleq, husereq, _, -, _,
      -, _, -, rfl⟩ := h
    exact ⟨accountAt_of_load hpool, accountAt_of_load hud, hpooleq, husereq⟩
  next => simp [notEnoughKeys] at h

/-- A successful `withdraw` did what `Withdrawn` says. -/
theorem withdraw_effect {amount : UInt64}
    (h : (execute d env accounts (.withdraw amount) l).Returns l') :
    ∃ ctx policy proofUsed called ud, (Withdraw.tryAccounts d accounts l).Returns ctx ∧
      Withdrawn d env ctx amount l l' policy proofUsed called ud := by
  simp only [execute, returns_bind, withdraw, returns_require, returns_emit, returns_pure,
    exists_const, true_and] at h
  obtain ⟨ctx, hctx, ⟨ud, l₁⟩, ⟨hpos, hbalance, ⟨policy, proofUsed⟩, hpolicy, called, hcall, l₂,
    hmove, ud', hupdated, hp⟩, l₃, hpool, hexit⟩ := h
  obtain ⟨rfl, rfl⟩ := Prod.mk.inj hp
  have hregistries : SameRegistries d.guard called l' :=
    ((SameRegistries.of_sameState (moveLamports_sameState hmove)).trans
      (exitAccount_sameRegistries hpool)).trans (exitAccount_sameRegistries hexit)
  obtain ⟨hfound, hrecord, hpooleq, husereq⟩ := withdraw_tryAccounts hctx
  obtain ⟨hkept, hdata⟩ := Guard.invokeEnforce_frame (returns_embed.mp hcall)
  have hmoved := moveLamports_sameState hmove
  -- outside the guard the state is as before, up to the write of the record
  have hstate : ∀ k, (l k).owner ≠ d.guard.programId →
      (l₂ k).owner = (l k).owner ∧ (l₂ k).data = (l k).data := fun k hk =>
    ⟨(hmoved k).1.trans (hkept k).2, (hmoved k).2.trans (hdata k hk)⟩
  have hvault : ∀ {k}, (l k).owner = vaultId → (l k).owner ≠ d.guard.programId :=
    fun hk heq => d.guard_ne (heq.symm.trans hk)
  have hpoolOwner := (accountAt_eq_some.mp hfound).1
  have hudOwner := (accountAt_eq_some.mp hrecord).1
  have hfound₂ : poolAt l₂ ctx.poolKey = some ctx.pool := by
    rw [poolAt_congr (hstate _ (hvault hpoolOwner)), hfound]
  obtain rfl := exitAccount_unchanged hfound₂ hpool
  obtain ⟨hstored, hlamports, hothers⟩ :=
    exitAccount_spec ((hstate _ (hvault hudOwner)).1.trans hudOwner) hexit
  obtain ⟨hdebit, hcredit⟩ := moveLamports_spec hmove
  refine ⟨ctx, policy, proofUsed, called, ud', hctx,
    { amount_pos := hpos
      balance := hbalance
      chosen := hpolicy
      call := hcall
      registries := hregistries
      found := hfound
      record := hrecord
      pool_eq := hpooleq
      user_eq := husereq
      updated := hupdated
      stored := hstored
      owners := fun k => ?_
      frame := fun k hk howner => ?_
      pool_debited := ?_
      credits := fun k hk => ?_ }⟩
  · exact (hlamports k).2.trans ((hmoved k).1.trans (hkept k).2)
  · rw [hothers k hk]
    exact (hstate k howner).2
  · rwa [(hlamports _).1, ← (hkept _).1]
  · rw [(hlamports k).1, ← (hkept k).1]
    exact hcredit k hk

/-- Its steps, for what only concerns the guard. -/
theorem withdraw_spec {amount : UInt64}
    (h : (execute d env accounts (.withdraw amount) l).Returns l') :
    ∃ ctx policy proofUsed called, (Withdraw.tryAccounts d accounts l).Returns ctx ∧
      WithdrawSteps d env ctx amount l l' policy proofUsed called := by
  obtain ⟨ctx, policy, proofUsed, called, ud, hctx, hw⟩ := withdraw_effect h
  exact ⟨ctx, policy, proofUsed, called, hctx, hw.toWithdrawSteps⟩

end Trana.Vault
