import Trana.Lib.Bank
import Trana.Security.Solvency

/-!
# The vault is a bank

Seen from one pool, a run of the chain is a run of the bank of
`Trana.Lib.Bank`: a successful deposit adds exactly its amount to the
depositor's balance, a successful withdrawal takes exactly its amount from the
owner's, and nothing else changes a balance.

The records count in 64 bits and `deposit` adds with saturation. What keeps the
addition exact is solvency: the pool's own lamports, which cover every record,
are a 64-bit number as well.

* `accounted_run` — every record names the pool and the user its address was
  derived for, and every pool covers its records.
* `credited_exact` — so a deposit never saturates.
* `vault_exact_balances` — the refinement, and the balance it leads to.

The bank knows nothing of addresses, rent or proofs. `balanceOf` maps a ledger
to its accounts by the record's PDA, `bankMoment` a step to its operation; steps
of the guard, of other programs and of other pools are idle in it. A call that
fails is idle as well.

`Apart` is asked of the pairs of pool and user that the run derives records for,
not of all keys: two of them with one record would share a balance. Lamports
sent to the pool from outside raise what it covers and no balance.
-/

namespace Trana.Security

open Trana.Lib Trana.Lib.Exec Trana.Solana Trana.Vault

/-! ## The bank of a pool -/

/-- The balance the record at an address keeps for this pool and this user. -/
def heldAt (l : Ledger) (key pool user : Pubkey) : ℕ :=
  match depositAt l key with
  | some ud => if ud.pool = pool ∧ ud.user = user then ud.balance.toNat else 0
  | none => 0

/-- The balance of a user in a pool. -/
def balanceOf (d : Vault.Deployment) (pool : Pubkey) (l : Ledger) (user : Pubkey) : ℕ :=
  heldAt l (d.findDeposit pool user).1 pool user

/-- What a call does to the bank of a pool. Deposits and withdrawals name the
pool first and the user third. -/
def opOf (pool : Pubkey) : Vault.Label → Bank.Op Pubkey
  | .vault c =>
    match c.accounts, (parseInstruction c.data).result with
    | p :: _ :: user :: _, .ok (.deposit amount) =>
      if p.pubkey = pool then .deposit user.pubkey amount.toNat else .idle
    | p :: _ :: user :: _, .ok (.withdraw amount) =>
      if p.pubkey = pool then .withdraw user.pubkey amount.toNat else .idle
    | _, _ => .idle
  | .guard _ => .idle
  | .rolledBack => .idle
  | .other => .idle

/-- A moment of a run, seen from one pool. -/
def bankMoment (d : Vault.Deployment) (pool : Pubkey) :
    Vault.Moment → Transition (Pubkey → ℕ) (Bank.Op Pubkey) :=
  Transition.map (balanceOf d pool) (opOf pool)

section Steps

variable {d : Vault.Deployment} {l l' : Ledger} {pool : Pubkey} {trace : List Vault.Moment}

theorem heldAt_congr {key user : Pubkey} (h : depositAt l' key = depositAt l key) :
    heldAt l' key pool user = heldAt l key pool user := by
  rw [heldAt, heldAt, h]

theorem heldAt_self {key : Pubkey} {ud : UserDeposit} (h : depositAt l key = some ud) :
    heldAt l key ud.pool ud.user = ud.balance.toNat := by
  rw [heldAt, h]
  exact if_pos ⟨rfl, rfl⟩

theorem heldAt_of_ne {key user : Pubkey} {ud : UserDeposit} (h : depositAt l key = some ud)
    (hne : ¬(ud.pool = pool ∧ ud.user = user)) : heldAt l key pool user = 0 := by
  rw [heldAt, h]
  exact if_neg hne

theorem heldAt_none {key user : Pubkey} (h : depositAt l key = none) :
    heldAt l key pool user = 0 := by
  rw [heldAt, h]

/-- The only records that differ are at `key`, and there they are those of
`pool` and `user`. -/
structure OneRecord (l l' : Ledger) (key pool user : Pubkey) : Prop where
  others : ∀ k, k ≠ key → depositAt l' k = depositAt l k
  before : ∀ ud, depositAt l key = some ud → ud.pool = pool ∧ ud.user = user
  after : ∀ ud, depositAt l' key = some ud → ud.pool = pool ∧ ud.user = user

theorem heldAt_foreign {key pool' user user' : Pubkey}
    (h : ∀ ud, depositAt l key = some ud → ud.pool = pool ∧ ud.user = user)
    (hne : ¬(pool' = pool ∧ user' = user)) : heldAt l key pool' user' = 0 := by
  cases hud : depositAt l key with
  | none => exact heldAt_none hud
  | some ud =>
    obtain ⟨hpool, huser⟩ := h ud hud
    refine heldAt_of_ne hud fun heq => hne ⟨?_, ?_⟩
    · rw [← heq.1, hpool]
    · rw [← heq.2, huser]

/-- Such a step changes one balance of one bank. -/
theorem OneRecord.balanceOf_eq {key pool' user user' : Pubkey} (h : OneRecord l l' key pool user)
    (hne : ¬(pool' = pool ∧ user' = user)) :
    balanceOf d pool' l' user' = balanceOf d pool' l user' := by
  unfold balanceOf
  by_cases hkey : (d.findDeposit pool' user').1 = key
  · rw [hkey, heldAt_foreign h.after hne, heldAt_foreign h.before hne]
  · exact heldAt_congr (h.others _ hkey)

theorem OneRecord.update {user : Pubkey}
    (h : OneRecord l l' (d.findDeposit pool user).1 pool user) :
    balanceOf d pool l' =
      Function.update (balanceOf d pool l) user (balanceOf d pool l' user) := by
  funext user'
  by_cases huser : user' = user
  · rw [huser, Function.update_self]
  · rw [Function.update_of_ne huser, h.balanceOf_eq fun heq => huser heq.2]

theorem OneRecord.other {pool' user : Pubkey}
    (h : OneRecord l l' (d.findDeposit pool user).1 pool user) (hne : pool ≠ pool') :
    balanceOf d pool' l' = balanceOf d pool' l := by
  funext user'
  exact h.balanceOf_eq fun heq => hne heq.1.symm

/-! ## Every record is its user's -/

/-- The record addresses derived in the run do not collide. -/
def Apart (d : Vault.Deployment) (trace : List Vault.Moment) : Prop :=
  ∀ pool user pool' user', Derives d trace pool user → Derives d trace pool' user' →
    (d.findDeposit pool user).1 = (d.findDeposit pool' user').1 → pool = pool' ∧ user = user'

theorem Apart.byPool (h : Apart d trace) : ApartByPool d trace :=
  fun pool user pool' user' hderives hderives' heq =>
    (h pool user pool' user' hderives hderives' heq).1

/-- Every record names the pool and the user its address was derived for, every
pool exists that a record names, and covers what the records name. -/
structure Accounted (d : Vault.Deployment) (trace : List Vault.Moment) (l : Ledger) : Prop where
  named : ∀ k ud, depositAt l k = some ud →
    Derives d trace ud.pool ud.user ∧ k = (d.findDeposit ud.pool ud.user).1
  backed : Backed d trace l
  covered : ∀ pool p, poolAt l pool = some p → Covers 0 pool l

theorem accounted_genesis (h : Ledger.Genesis vaultId l) : Accounted d trace l where
  named k ud hud := by
    have hnone : depositAt l k = none :=
      accountAt_zeros (fun howner => h k howner) ⟨69, by decide, by decide⟩
    cases hnone.symm.trans hud
  backed := backed_genesis h
  covered pool p hp := by
    have hnone : poolAt l pool = none :=
      accountAt_zeros (fun howner => h pool howner) ⟨241, by decide, by decide⟩
    cases hnone.symm.trans hp

/-- A record that a deposit finds is the depositor's, in the deposit's pool. -/
theorem named_found {t : Vault.Moment} {c : Guard.Call} {ctx : Deposit} {amount : UInt64}
    {ud : UserDeposit} (ht : t ∈ trace) (hapart : Apart d trace)
    (hinv : Accounted d trace t.before) (hdep : Deposits d t.before t.label c ctx amount)
    (heffect : Deposited d ctx amount t.before t.after)
    (hud : depositAt t.before ctx.userDepositKey = some ud) :
    ud.pool = ctx.poolKey ∧ ud.user = ctx.depositor := by
  obtain ⟨hderives, hkey⟩ := hinv.named _ _ hud
  have hhere : Derives d trace ctx.poolKey ctx.depositor :=
    ⟨t, ht, c, ctx, amount, hdep, rfl, rfl⟩
  exact hapart _ _ _ _ hderives hhere (hkey.symm.trans heffect.key_eq)

/-- So is the one it leaves. -/
theorem named_credited {t : Vault.Moment} {c : Guard.Call} {ctx : Deposit} {amount : UInt64}
    (ht : t ∈ trace) (hapart : Apart d trace) (hinv : Accounted d trace t.before)
    (hdep : Deposits d t.before t.label c ctx amount)
    (heffect : Deposited d ctx amount t.before t.after) :
    (ctx.credited amount).pool = ctx.poolKey ∧ (ctx.credited amount).user = ctx.depositor := by
  unfold Deposit.credited
  split
  next => exact ⟨rfl, rfl⟩
  next hnamed =>
    show ctx.userDeposit.pool = ctx.poolKey ∧ ctx.userDeposit.user = ctx.depositor
    rcases heffect.record with hud | ⟨-, hblank⟩
    · exact named_found ht hapart hinv hdep heffect hud
    · exact absurd (congrArg UserDeposit.pool hblank) hnamed

theorem named_kept {t : Vault.Moment} (ht : t ∈ trace) (hapart : Apart d trace)
    (h : Vault.Step d t.before t.label t.after) (hinv : Accounted d trace t.before) :
    ∀ k ud, depositAt t.after k = some ud →
      Derives d trace ud.pool ud.user ∧ k = (d.findDeposit ud.pool ud.user).1 := by
  intro k ud hud
  cases step_effect h with
  | quiet hquiet => exact hinv.named k ud (hquiet.records k ▸ hud)
  | deposit c ctx amount hdep heffect =>
    by_cases hk : k = ctx.userDepositKey
    · obtain rfl := Option.some.inj (hud.symm.trans (hk ▸ heffect.stored))
      -- a credited record is named after the pool and the user of the deposit
      obtain ⟨hpool, huser⟩ := named_credited ht hapart hinv hdep heffect
      rw [hpool, huser, hk]
      exact ⟨⟨t, ht, c, ctx, amount, hdep, rfl, rfl⟩, heffect.key_eq⟩
    · exact hinv.named k ud (heffect.depositAt_of_ne hk ▸ hud)
  | withdraw c ctx amount policy proofUsed called ud' hwith heffect =>
    by_cases hk : k = ctx.userDepositKey
    · obtain rfl := Option.some.inj (hud.symm.trans (hk ▸ heffect.stored))
      obtain ⟨hpool, huser, -⟩ := recordWithdrawal_spec heffect.updated
      rw [hpool, huser, hk]
      exact hinv.named _ _ heffect.record
    · exact hinv.named k ud (heffect.depositAt_of_ne hk ▸ hud)

/-- A pool that was not there before is named by no record yet. -/
theorem covers_new (hbacked : Backed d trace l)
    (hrecords : ∀ k, depositAt l' k = depositAt l k) (hnone : poolAt l pool = none) :
    Covers 0 pool l' := by
  have hzero : ∀ k, balanceIn pool l' k = 0 := by
    intro k
    rw [balanceIn_congr (hrecords k)]
    cases hud : depositAt l k with
    | none => rw [balanceIn, hud]
    | some ud =>
      rw [balanceIn_of_record hud]
      refine if_neg fun heq => ?_
      obtain ⟨-, p', hp'⟩ := hbacked k ud hud
      rw [heq, hnone] at hp'
      cases hp'
  exact covers_iff.mpr ((Till.solvent_of_zero hzero).mono (Nat.zero_le _) fun _ => Nat.le_refl _)

/-- A deposit or a withdrawal makes no pool. -/
theorem poolAt_of_write {key : Pubkey} {p : Pool} {ud : UserDeposit}
    (hstored : depositAt l' key = some ud)
    (hframe : ∀ k, k ≠ key → poolAt l' k = poolAt l k) (hp : poolAt l' pool = some p) :
    poolAt l pool = some p := by
  rw [← hframe pool (ne_of_poolAt hp hstored), hp]

theorem covered_step {t : Vault.Moment} (ht : t ∈ trace) (hapart : Apart d trace)
    (h : Vault.Step d t.before t.label t.after) (hinv : Accounted d trace t.before) :
    ∀ pool p, poolAt t.after pool = some p → Covers 0 pool t.after := by
  intro pool p hp
  cases hbefore : poolAt t.before pool with
  | some p' =>
    exact covers_step ht hapart.byPool h hinv.backed hbefore (hinv.covered pool p' hbefore)
  | none =>
    cases step_effect h with
    -- a pool that is new has no record to cover
    | quiet hquiet => exact covers_new hinv.backed hquiet.records hbefore
    | deposit c ctx amount hdep heffect =>
      have hp' := poolAt_of_write heffect.stored (fun k hk => poolAt_congr (heffect.frame k hk)) hp
      cases hbefore.symm.trans hp'
    | withdraw c ctx amount policy proofUsed called ud hwith heffect =>
      refine absurd (poolAt_of_write (l := t.before) heffect.stored (fun k hk => ?_) hp)
        (by rw [hbefore]; exact nofun)
      by_cases howner : (t.before k).owner = d.guard.programId
      · -- the guard's accounts hold no pools before or after
        have hne : (t.before k).owner ≠ vaultId := fun heq => d.guard_ne (howner.symm.trans heq)
        rw [poolAt, poolAt, accountAt, accountAt, if_neg hne, if_neg (heffect.owners k ▸ hne)]
      · exact poolAt_congr ⟨heffect.owners k, heffect.frame k hk howner⟩

theorem accounted_step {t : Vault.Moment} (ht : t ∈ trace) (hapart : Apart d trace)
    (h : Vault.Step d t.before t.label t.after) (hinv : Accounted d trace t.before) :
    Accounted d trace t.after where
  named := named_kept ht hapart h hinv
  backed := backed_step ht hapart.byPool h hinv.backed
  covered := covered_step ht hapart h hinv

theorem accounted_run (hgenesis : Ledger.Genesis vaultId l) (hapart : Apart d trace)
    (hrun : Run (Vault.Step d) l trace l') :
    Accounted d trace l' ∧ ∀ t ∈ trace, Accounted d trace t.before ∧ Accounted d trace t.after := by
  have hkeep : ∀ t ∈ trace, Accounted d trace t.before → Accounted d trace t.after := fun t ht =>
    accounted_step ht hapart (hrun.step t ht)
  exact ⟨hrun.stays (accounted_genesis hgenesis) hkeep,
    hrun.stays_at (accounted_genesis hgenesis) hkeep⟩

/-! ## Deposits -/

theorem saturatingAdd_exact {a b : UInt64} (h : a.toNat + b.toNat < 2 ^ 64) :
    (saturatingAdd a b).toNat = a.toNat + b.toNat := by
  rw [saturatingAdd, if_pos h, UInt64.toNat_add, Nat.mod_eq_of_lt h]

/-- The record after a deposit is the one before and the amount: the pool holds
both, in a 64-bit number of lamports. -/
theorem credited_exact {t : Vault.Moment} {c : Guard.Call} {ctx : Deposit} {amount : UInt64}
    (ht : t ∈ trace) (hapart : Apart d trace) (hinv : Accounted d trace t.before)
    (hdep : Deposits d t.before t.label c ctx amount)
    (heffect : Deposited d ctx amount t.before t.after) :
    (ctx.credited amount).balance.toNat = ctx.userDeposit.balance.toNat + amount.toNat := by
  have hsum : ctx.userDeposit.balance.toNat + amount.toNat < 2 ^ 64 := by
    have hcredited := heffect.pool_credited
    have hlt := (t.after ctx.poolKey).lamports.toNat_lt
    rcases heffect.record with hud | ⟨-, hblank⟩
    -- the pool now holds the amount and, still, what this record had
    · have hcovers := covers_iff.mp (hinv.covered _ _ heffect.found)
      have hone := hcovers.covers ctx.userDepositKey
      rw [balanceIn_of_record hud, if_pos (named_found ht hapart hinv hdep heffect hud).1] at hone
      omega
    · rw [hblank]
      exact (Nat.zero_add amount.toNat).symm ▸ amount.toNat_lt
  unfold Deposit.credited
  split
  next => exact saturatingAdd_exact hsum
  next => exact saturatingAdd_exact hsum

theorem deposited_oneRecord {t : Vault.Moment} {c : Guard.Call} {ctx : Deposit} {amount : UInt64}
    (ht : t ∈ trace) (hapart : Apart d trace) (hinv : Accounted d trace t.before)
    (hdep : Deposits d t.before t.label c ctx amount)
    (heffect : Deposited d ctx amount t.before t.after) :
    OneRecord t.before t.after (d.findDeposit ctx.poolKey ctx.depositor).1 ctx.poolKey
      ctx.depositor where
  others k hk := heffect.depositAt_of_ne (heffect.key_eq ▸ hk)
  before ud hud := named_found ht hapart hinv hdep heffect (heffect.key_eq ▸ hud)
  after ud hud := by
    obtain rfl := Option.some.inj (hud.symm.trans (heffect.key_eq ▸ heffect.stored))
    exact named_credited ht hapart hinv hdep heffect

/-- A deposit is the bank's. -/
theorem balanceOf_deposited {t : Vault.Moment} {c : Guard.Call} {ctx : Deposit} {amount : UInt64}
    (ht : t ∈ trace) (hapart : Apart d trace) (hinv : Accounted d trace t.before)
    (hdep : Deposits d t.before t.label c ctx amount)
    (heffect : Deposited d ctx amount t.before t.after) :
    balanceOf d ctx.poolKey t.after ctx.depositor =
      balanceOf d ctx.poolKey t.before ctx.depositor + amount.toNat := by
  obtain ⟨hpool, huser⟩ := named_credited ht hapart hinv hdep heffect
  have hafter := heldAt_self heffect.stored
  rw [hpool, huser, credited_exact ht hapart hinv hdep heffect] at hafter
  have hbefore : heldAt t.before ctx.userDepositKey ctx.poolKey ctx.depositor =
      ctx.userDeposit.balance.toNat := by
    -- the record is found or made; a made one counts from zero
    rcases heffect.record with hud | ⟨hsys, hblank⟩
    · obtain ⟨hpool', huser'⟩ := named_found ht hapart hinv hdep heffect hud
      rw [← hpool', ← huser', heldAt_self hud]
    · have hnone : depositAt t.before ctx.userDepositKey = none :=
        if_neg fun heq => owner_ne_system heq hsys
      rw [heldAt_none hnone, hblank]
      rfl
  rw [balanceOf, balanceOf, ← heffect.key_eq, hafter, hbefore]

/-! ## Withdrawals -/

theorem withdrawn_key_eq {env : Guard.Env} {ctx : Withdraw} {amount : UInt64}
    {policy : Guard.Policy} {proofUsed : Bool} {called : Ledger} {ud : UserDeposit}
    (hinv : Accounted d trace l)
    (heffect : Withdrawn d env ctx amount l l' policy proofUsed called ud) :
    ctx.userDepositKey = (d.findDeposit ctx.poolKey ctx.owner).1 := by
  rw [← heffect.pool_eq, ← heffect.user_eq]
  exact (hinv.named _ _ heffect.record).2

theorem withdrawn_oneRecord {env : Guard.Env} {ctx : Withdraw} {amount : UInt64}
    {policy : Guard.Policy} {proofUsed : Bool} {called : Ledger} {ud : UserDeposit}
    (hinv : Accounted d trace l)
    (heffect : Withdrawn d env ctx amount l l' policy proofUsed called ud) :
    OneRecord l l' (d.findDeposit ctx.poolKey ctx.owner).1 ctx.poolKey ctx.owner := by
  rw [← withdrawn_key_eq hinv heffect]
  refine ⟨fun k hk => heffect.depositAt_of_ne hk, fun ud₀ hud₀ => ?_, fun ud₁ hud₁ => ?_⟩
  · obtain rfl := Option.some.inj (hud₀.symm.trans heffect.record)
    exact ⟨heffect.pool_eq, heffect.user_eq⟩
  · obtain rfl := Option.some.inj (hud₁.symm.trans heffect.stored)
    obtain ⟨hpool, huser, -⟩ := recordWithdrawal_spec heffect.updated
    exact ⟨hpool.trans heffect.pool_eq, huser.trans heffect.user_eq⟩

/-- A withdrawal is the bank's, and was covered. -/
theorem balanceOf_withdrawn {env : Guard.Env} {ctx : Withdraw} {amount : UInt64}
    {policy : Guard.Policy} {proofUsed : Bool} {called : Ledger} {ud : UserDeposit}
    (hinv : Accounted d trace l)
    (heffect : Withdrawn d env ctx amount l l' policy proofUsed called ud) :
    balanceOf d ctx.poolKey l' ctx.owner + amount.toNat =
      balanceOf d ctx.poolKey l ctx.owner := by
  obtain ⟨hpool, huser, hbalance⟩ := recordWithdrawal_spec heffect.updated
  have hafter := heldAt_self heffect.stored
  have hbefore := heldAt_self heffect.record
  rw [hpool, huser, heffect.pool_eq, heffect.user_eq] at hafter
  rw [heffect.pool_eq, heffect.user_eq] at hbefore
  rw [balanceOf, balanceOf, ← withdrawn_key_eq hinv heffect, hafter, hbefore]
  exact hbalance

/-! ## Refinement -/

/-- The accounts of a deposit say which bank and which holder it is about. -/
theorem opOf_deposits {a : Vault.Label} {c : Guard.Call} {ctx : Deposit} {amount : UInt64}
    (h : Deposits d l a c ctx amount) :
    opOf pool a = if ctx.poolKey = pool then .deposit ctx.depositor amount.toNat else .idle := by
  obtain rfl := h.label
  have hparsed := h.parsed
  obtain ⟨l₁, hctx⟩ := h.context
  unfold Deposit.tryAccounts at hctx
  split at hctx
  next p ud user system rest hc =>
    simp only [returns_bind, returns_signer, returns_pure] at hctx
    obtain ⟨_, -, _, ⟨-, rfl⟩, _, -, _, -, ⟨_, _⟩, -, _, -, _, -, _, -, _, -, hp⟩ := hctx
    obtain ⟨rfl, -⟩ := Prod.mk.inj hp
    rw [Returns] at hparsed
    simp only [opOf, hc, hparsed]
  next => simp [Vault.notEnoughKeys] at hctx

theorem opOf_withdraws {a : Vault.Label} {c : Guard.Call} {ctx : Withdraw} {amount : UInt64}
    (h : Withdraws d l a c ctx amount) :
    opOf pool a = if ctx.poolKey = pool then .withdraw ctx.owner amount.toNat else .idle := by
  obtain rfl := h.label
  have hparsed := h.parsed
  have hctx := h.context
  unfold Withdraw.tryAccounts at hctx
  split at hctx
  next p ud user destination guardProgram registry instructions rest hc =>
    simp only [returns_bind, returns_signer, returns_pure] at hctx
    obtain ⟨_, -, _, -, _, ⟨-, rfl⟩, _, -, _, -, _, -, _, -, _, -, _, -, _, -, _, -, _, -, _, -,
      rfl⟩ := hctx
    rw [Returns] at hparsed
    simp only [opOf, hc, hparsed]
  next => simp [Vault.notEnoughKeys] at hctx

theorem opOf_initializePool {c : Guard.Call} {kind : PoolKind} {label : String}
    (h : (parseInstruction c.data).Returns (.initializePool kind label)) :
    opOf pool (.vault c) = .idle := by
  rw [Returns] at h
  simp only [opOf, h]
  split
  next heq => cases heq
  next heq => cases heq
  next => rfl

/-- Other steps than deposits and withdrawals are idle. -/
theorem idle_or_moves (pool : Pubkey) {a : Vault.Label} (h : Vault.Step d l a l') :
    (Quiet l l' ∧ opOf pool a = .idle) ∨
    (∃ c ctx amount, Deposits d l a c ctx amount ∧ Deposited d ctx amount l l') ∨
    ∃ c ctx amount policy proofUsed called ud, Withdraws d l a c ctx amount ∧
      Withdrawn d c.env ctx amount l l' policy proofUsed called ud := by
  cases hall : step_effect h with
  | deposit c ctx amount hdep heffect => exact Or.inr (Or.inl ⟨c, ctx, amount, hdep, heffect⟩)
  | withdraw c ctx amount policy proofUsed called ud hwith heffect =>
    exact Or.inr (Or.inr ⟨c, ctx, amount, policy, proofUsed, called, ud, hwith, heffect⟩)
  -- quiet is what the ledger shows; which operation it was, the call says
  | quiet hquiet =>
    cases h with
    | @vault _ c h =>
      obtain ⟨ix, hix, hrun⟩ := returns_bind.mp h
      cases ix with
      | initializePool kind label => exact Or.inl ⟨hquiet, opOf_initializePool hix⟩
      | deposit amount =>
        obtain ⟨ctx, l₁, hctx, heffect⟩ := deposit_effect hrun
        exact Or.inr (Or.inl ⟨c, ctx, amount, ⟨rfl, hix, l₁, hctx⟩, heffect⟩)
      | withdraw amount =>
        obtain ⟨ctx, policy, proofUsed, called, ud, hctx, heffect⟩ := withdraw_effect hrun
        exact Or.inr (Or.inr ⟨c, ctx, amount, policy, proofUsed, called, ud, ⟨rfl, hix, hctx⟩,
          heffect⟩)
    | guard h => exact Or.inl ⟨hquiet, rfl⟩
    | rolledBack => exact Or.inl ⟨hquiet, rfl⟩
    | other h => exact Or.inl ⟨hquiet, rfl⟩

/-- A step of the chain is a step of every pool's bank. -/
theorem bank_step {t : Vault.Moment} (ht : t ∈ trace) (hapart : Apart d trace)
    (h : Vault.Step d t.before t.label t.after) (hinv : Accounted d trace t.before) :
    Bank.Step (balanceOf d pool t.before) (opOf pool t.label) (balanceOf d pool t.after) := by
  rcases idle_or_moves pool h with ⟨hquiet, hidle⟩ | ⟨c, ctx, amount, hdep, heffect⟩ |
    ⟨c, ctx, amount, policy, proofUsed, called, ud, hwith, heffect⟩
  · have hsame : balanceOf d pool t.after = balanceOf d pool t.before :=
      funext fun user => heldAt_congr (hquiet.records _)
    rw [hidle, hsame]
    exact .idle _
  · have hone := deposited_oneRecord ht hapart hinv hdep heffect
    rw [opOf_deposits hdep]
    -- the step is about this pool, or this bank does not hear of it
    by_cases hpool : ctx.poolKey = pool
    · subst hpool
      rw [if_pos rfl, hone.update, balanceOf_deposited ht hapart hinv hdep heffect]
      exact .deposit _ _ _
    · rw [if_neg hpool, hone.other hpool]
      exact .idle _
  · have hone := withdrawn_oneRecord hinv heffect
    have hbalance := balanceOf_withdrawn hinv heffect
    rw [opOf_withdraws hwith]
    by_cases hpool : ctx.poolKey = pool
    · subst hpool
      have hsub : balanceOf d ctx.poolKey t.after ctx.owner =
          balanceOf d ctx.poolKey t.before ctx.owner - amount.toNat := by omega
      rw [if_pos rfl, hone.update, hsub]
      exact .withdraw _ _ _ (by omega)
    · rw [if_neg hpool, hone.other hpool]
      exact .idle _

theorem bank_run (pool : Pubkey) (hgenesis : Ledger.Genesis vaultId l)
    (hapart : Apart d trace) (hrun : Run (Vault.Step d) l trace l') :
    Run Bank.Step (balanceOf d pool l) (trace.map (bankMoment d pool)) (balanceOf d pool l') := by
  obtain ⟨-, hinv⟩ := accounted_run hgenesis hapart hrun
  exact hrun.simulate fun t ht => bank_step ht hapart (hrun.step t ht) (hinv t ht).1

/-- Before the program's first use no bank holds anything. -/
theorem balanceOf_genesis (h : Ledger.Genesis vaultId l) (user : Pubkey) :
    balanceOf d pool l user = 0 :=
  heldAt_none (accountAt_zeros (fun howner => h _ howner) ⟨69, by decide, by decide⟩)

end Steps

/-- Seen from a pool, every run of the chain from before the program's first use
is a run of a bank: deposits add exactly their amounts, withdrawals take exactly
theirs and never more than there is. So at its end every user's balance is what
they deposited less what they withdrew. -/
theorem vault_exact_balances {d : Vault.Deployment} {l₀ l : Ledger} {trace : List Vault.Moment}
    (hgenesis : Ledger.Genesis vaultId l₀) (hapart : Apart d trace)
    (hrun : Run (Vault.Step d) l₀ trace l) (pool : Pubkey) :
    Run Bank.Step (balanceOf d pool l₀) (trace.map (bankMoment d pool)) (balanceOf d pool l) ∧
    ∀ user, balanceOf d pool l user +
        Bank.withdrawn user (trace.map fun t => opOf pool t.label) =
      Bank.deposited user (trace.map fun t => opOf pool t.label) := by
  have hbank := bank_run pool hgenesis hapart hrun
  refine ⟨hbank, fun user => ?_⟩
  have hbalance := Bank.balance_run hbank user
  rw [balanceOf_genesis hgenesis user, Nat.zero_add, List.map_map] at hbalance
  exact hbalance

section Localnet

open Sdk.Localnet

/-- Three SOL go in, half a SOL comes out. -/
theorem opOf_poolLabels : poolLabels.map (opOf poolPda) =
    [.idle, .deposit wallet 3000000000, .withdraw wallet 500000000] := by
  decide +kernel

/-- Every record of the run is the wallet's, in the one pool. -/
theorem apart_poolLabels {d : Vault.Deployment} {trace : List Vault.Moment}
    (hlabels : ∀ t ∈ trace, t.label ∈ poolLabels) : Apart d trace := by
  have hnamed : ∀ pool user, Derives d trace pool user → pool = poolPda ∧ user = wallet := by
    intro pool user h
    obtain ⟨t, ht, c, ctx, amount, hdep, rfl, rfl⟩ := h
    have hmem := hlabels t ht
    have hpool : ctx.poolKey = poolPda :=
      Option.some.inj (hdep.first.symm.trans (first_poolLabels (hdep.label ▸ hmem)))
    have hop : opOf poolPda t.label ∈ poolLabels.map (opOf poolPda) := List.mem_map_of_mem hmem
    rw [opOf_poolLabels, opOf_deposits hdep, if_pos hpool] at hop
    simp only [List.mem_cons, Bank.Op.deposit.injEq, reduceCtorEq, List.not_mem_nil, or_false,
      false_or] at hop
    exact ⟨hpool, hop.1⟩
  intro pool user pool' user' h h' _
  obtain ⟨rfl, rfl⟩ := hnamed pool user h
  obtain ⟨rfl, rfl⟩ := hnamed pool' user' h'
  exact ⟨rfl, rfl⟩

theorem apart_wallet {trace : List Vault.Moment}
    (hlabels : trace.map Transition.label = poolLabels) : Apart vaultDeployment trace :=
  apart_poolLabels fun _ ht => hlabels ▸ List.mem_map_of_mem ht

/-- The wallet is left with two and a half SOL in the pool. -/
theorem vault_exact_balances_localnet : ∃ (trace : List Vault.Moment) (l : Ledger),
    Run (Vault.Step vaultDeployment) genesis trace l ∧
    trace.map Transition.label = poolLabels ∧
    balanceOf vaultDeployment poolPda l wallet = 2500000000 := by
  have hsome : (runLabels vaultDeployment genesis poolLabels).isSome = true := by decide +kernel
  obtain ⟨l, hl⟩ := Option.isSome_iff_exists.mp hsome
  obtain ⟨trace, hrun, hlabels⟩ := run_of_runLabels hl
  refine ⟨trace, l, hrun, hlabels, ?_⟩
  have hops : (trace.map fun t => opOf poolPda t.label) = poolLabels.map (opOf poolPda) := by
    rw [← hlabels, List.map_map]
    rfl
  have hbalance := (vault_exact_balances (genesis_of_ne vaultId_ne_system) (apart_wallet hlabels)
    hrun poolPda).2 wallet
  rw [hops, opOf_poolLabels] at hbalance
  have hin : Bank.deposited wallet
      [.idle, .deposit wallet 3000000000, .withdraw wallet 500000000] = 3000000000 := by decide
  have hout : Bank.withdrawn wallet
      [.idle, .deposit wallet 3000000000, .withdraw wallet 500000000] = 500000000 := by decide
  rw [hin, hout] at hbalance
  omega

end Localnet

end Trana.Security
