import Trana.Security.Solvency

/-!
# Drain protection of a limit pool

The window after a free withdrawal is counted in seconds, the policy inside it
in slots. Where 150 slots go by in less than a minute, a withdrawal inside the
window is free, whatever its amount.

* `remembered` — what the record of a user in a pool says; a run changes it by
  that user's own withdrawals only (`remembered_step`, `remembered_last`).
* `openedAt` — when the window of a user in a pool was opened.
* `limit_withdrawal` — what a withdrawal from a limit pool asks for.
* `drain_protection` — a run protects the pool at each of its withdrawals
  exactly when every withdrawal inside a window comes before its unlock slot.
* `window_outrun` — half a SOL and, 59 seconds later, two more without a proof.

Protection is stated over the run: a large withdrawal consumes a nonce of the
wallet's registry, and so does one that comes less than a window after the same
user's last, if that one was free. `Previous` finds this last withdrawal among
the moments before; what the record says enters the proof and not the statement.

A run is `Ordinary` when its withdrawals are top-level instructions at positive
times. The first keeps apart what `LimitPolicy` shows of wrappers; the second is
because the record marks a window that is not open by the time zero. Clocks are
otherwise free: neither slots nor seconds need move forward, and the two need not
keep step with each other.
-/

namespace Trana.Security

open Trana.Lib Trana.Lib.Exec Trana.Solana Trana.Vault

/-- A nonce of the wallet's own registry was consumed. -/
def ConsumesOwn (d : Guard.Deployment) (l l' : Ledger) (w : Pubkey) : Prop :=
  ConsumesNonce d l l' (d.findRegistry w) w

section Run

variable {d : Vault.Deployment} {l l' : Ledger} {a : Vault.Label} {pool user : Pubkey}

/-! ## Named records -/

/-- No pool has the address of the system program, which marks a blank record. -/
def PoolsApart (d : Vault.Deployment) : Prop :=
  ∀ authority bump, d.createPool authority bump ≠ some systemProgramId

/-- Every record sits at the PDA of the pool and user it names. -/
def Named (d : Vault.Deployment) (l : Ledger) : Prop :=
  ∀ k ud, depositAt l k = some ud →
    k = (d.findDeposit ud.pool ud.user).1 ∧ ud.pool ≠ systemProgramId

theorem named_genesis (h : Ledger.Genesis vaultId l) : Named d l := by
  intro k ud hud
  have hnone : depositAt l k = none :=
    accountAt_zeros (fun howner => h k howner) ⟨69, by decide, by decide⟩
  cases hnone.symm.trans hud

/-- A deposit names a blank record, and no other. -/
theorem credited_names {ctx : Deposit} {amount : UInt64} (hnamed : Named d l)
    (heffect : Deposited d ctx amount l l') :
    (depositAt l ctx.userDepositKey = some ctx.userDeposit ∧
      (ctx.credited amount).pool = ctx.userDeposit.pool ∧
      (ctx.credited amount).user = ctx.userDeposit.user) ∨
    (depositAt l ctx.userDepositKey = none ∧ ctx.userDeposit = UserDeposit.blank ∧
      (ctx.credited amount).pool = ctx.poolKey ∧ (ctx.credited amount).user = ctx.depositor) := by
  rcases heffect.record with hud | ⟨hsys, hblank⟩
  · have hne : ctx.userDeposit.pool ≠ systemProgramId := (hnamed _ _ hud).2
    left
    unfold Deposit.credited
    rw [if_neg hne]
    exact ⟨hud, rfl, rfl⟩
  · right
    have hnone : depositAt l ctx.userDepositKey = none :=
      if_neg fun howner => owner_ne_system howner hsys
    unfold Deposit.credited
    rw [hblank, if_pos (show UserDeposit.blank.pool = systemProgramId from rfl)]
    exact ⟨hnone, rfl, rfl, rfl⟩

theorem named_step (hpools : PoolsApart d) (h : Vault.Step d l a l') (hnamed : Named d l) :
    Named d l' := by
  intro k ud hud
  cases step_effect h with
  | quiet hquiet => exact hnamed k ud (hquiet.records k ▸ hud)
  | deposit c ctx amount hdep heffect =>
    by_cases hk : k = ctx.userDepositKey
    · obtain rfl := Option.some.inj (hud.symm.trans (hk ▸ heffect.stored))
      -- a new record is named after its pool, which is no system address
      rcases credited_names hnamed heffect with ⟨hfound, hpool, huser⟩ | ⟨-, -, hpool, huser⟩
      · rw [hk, hpool, huser]
        exact hnamed _ _ hfound
      · rw [hk, hpool, huser]
        exact ⟨heffect.key_eq, fun heq => hpools _ _ (heq ▸ heffect.derived)⟩
    · exact hnamed k ud (heffect.depositAt_of_ne hk ▸ hud)
  | withdraw c ctx amount policy proofUsed called ud' hwith heffect =>
    by_cases hk : k = ctx.userDepositKey
    · obtain rfl := Option.some.inj (hud.symm.trans (hk ▸ heffect.stored))
      obtain ⟨hpool, huser, -⟩ := recordWithdrawal_spec heffect.updated
      rw [hk, hpool, huser]
      exact hnamed _ _ heffect.record
    · exact hnamed k ud (heffect.depositAt_of_ne hk ▸ hud)

/-! ## What a record remembers -/

/-- The step is a withdrawal of the user from the pool. -/
def WithdrawsOf (d : Vault.Deployment) (pool user : Pubkey) (l : Ledger) (a : Vault.Label) : Prop :=
  ∃ c ctx amount, Withdraws d l a c ctx amount ∧ ctx.poolKey = pool ∧ ctx.owner = user

section Remembered

variable {α : Type} {f : UserDeposit → α}

/-- What the user's record in the pool says; without one, what a blank one says. -/
def remembered (f : UserDeposit → α) (d : Vault.Deployment) (pool user : Pubkey) (l : Ledger) : α :=
  match depositAt l (d.findDeposit pool user).1 with
  | some ud => if ud.pool = pool ∧ ud.user = user then f ud else f UserDeposit.blank
  | none => f UserDeposit.blank

theorem remembered_of_some {ud : UserDeposit}
    (h : depositAt l (d.findDeposit pool user).1 = some ud) :
    remembered f d pool user l =
      if ud.pool = pool ∧ ud.user = user then f ud else f UserDeposit.blank := by
  rw [remembered, h]

theorem remembered_of_none (h : depositAt l (d.findDeposit pool user).1 = none) :
    remembered f d pool user l = f UserDeposit.blank := by
  rw [remembered, h]

/-- Before the first record there are only blank ones. -/
theorem remembered_genesis (h : Ledger.Genesis vaultId l) :
    remembered f d pool user l = f UserDeposit.blank :=
  remembered_of_none (accountAt_zeros (fun howner => h _ howner) ⟨69, by decide, by decide⟩)

theorem remembered_congr
    (h : depositAt l' (d.findDeposit pool user).1 = depositAt l (d.findDeposit pool user).1) :
    remembered f d pool user l' = remembered f d pool user l := by
  rw [remembered, remembered, h]

/-- The record a withdrawal finds is the one of its user and pool. -/
theorem remembered_of_record {k : Pubkey} {ud : UserDeposit} (hnamed : Named d l)
    (hud : depositAt l k = some ud) : remembered f d ud.pool ud.user l = f ud := by
  rw [remembered_of_some ((hnamed k ud hud).1 ▸ hud), if_pos ⟨rfl, rfl⟩]

/-- Deposits do not touch it. -/
def KeptByDeposits (f : UserDeposit → α) : Prop :=
  ∀ (ctx : Deposit) amount, f (ctx.credited amount) = f ctx.userDeposit

/-- A deposit writes the names of a blank record, and the balance. -/
theorem keptByDeposits_of_fields
    (hf : ∀ (ud : UserDeposit) pool user bump balance,
      f { ud with pool := pool, user := user, bump := bump, balance := balance } = f ud) :
    KeptByDeposits f := by
  intro ctx amount
  unfold Deposit.credited
  split
  next => exact hf ctx.userDeposit ctx.poolKey ctx.depositor ctx.bump _
  next => exact hf ctx.userDeposit ctx.userDeposit.pool ctx.userDeposit.user ctx.userDeposit.bump _

/-- Only the user's own withdrawals move it. -/
theorem remembered_step (hf : KeptByDeposits f) (hnamed : Named d l) (h : Vault.Step d l a l')
    (hno : ¬WithdrawsOf d pool user l a) :
    remembered f d pool user l' = remembered f d pool user l := by
  cases step_effect h with
  | quiet hquiet => exact remembered_congr (hquiet.records _)
  | deposit c ctx amount hdep heffect =>
    by_cases hk : (d.findDeposit pool user).1 = ctx.userDepositKey
    · have hafter := heffect.stored
      rw [← hk] at hafter
      rw [remembered_of_some hafter, hf]
      rcases credited_names hnamed heffect with ⟨hfound, hpool, huser⟩ | ⟨hnone, hblank, -, -⟩
      · rw [← hk] at hfound
        rw [remembered_of_some hfound, hpool, huser]
      · rw [← hk] at hnone
        rw [remembered_of_none hnone, hblank]
        exact ite_self _
    · exact remembered_congr (heffect.depositAt_of_ne hk)
  | withdraw c ctx amount policy proofUsed called ud hwith heffect =>
    by_cases hk : (d.findDeposit pool user).1 = ctx.userDepositKey
    · obtain ⟨hpool, huser, -⟩ := recordWithdrawal_spec heffect.updated
      -- another user's record, or one in another pool, before and after
      have hother : ¬(ctx.userDeposit.pool = pool ∧ ctx.userDeposit.user = user) := by
        rw [heffect.pool_eq, heffect.user_eq]
        exact fun heq => hno ⟨c, ctx, amount, hwith, heq.1, heq.2⟩
      have hbefore := heffect.record
      have hafter := heffect.stored
      rw [← hk] at hbefore hafter
      rw [remembered_of_some hafter, remembered_of_some hbefore, hpool, huser, if_neg hother,
        if_neg hother]
    · exact remembered_congr (heffect.depositAt_of_ne hk)

end Remembered

/-! ## The window -/

/-- When the user's window in the pool was opened; zero when it is not open. -/
def openedAt (d : Vault.Deployment) (pool user : Pubkey) (l : Ledger) : Int64 :=
  remembered UserDeposit.lastWithdrawAt d pool user l

theorem lastWithdrawAt_credited : KeptByDeposits UserDeposit.lastWithdrawAt :=
  keptByDeposits_of_fields fun _ _ _ _ _ => rfl

theorem openedAt_of_record {k : Pubkey} {ud : UserDeposit} (hnamed : Named d l)
    (hud : depositAt l k = some ud) : openedAt d ud.pool ud.user l = ud.lastWithdrawAt :=
  remembered_of_record hnamed hud

/-! ## One withdrawal -/

/-- The call is its transaction's current top-level instruction. -/
def TopLevel (c : Guard.Call) : Prop :=
  ∃ top, c.env.ixSysvar.instructions[c.env.ixSysvar.currentIndex.toNat]? = some top ∧
    top.data = c.data

/-- What the guard does for a withdrawal: where the policy is idle it leaves every
registry as it was, and where it fires it consumes a nonce of the owner's
registry among the withdrawal's accounts. -/
theorem guard_effect {env : Guard.Env} {ctx : Withdraw} {amount : UInt64}
    {policy : Guard.Policy} {proofUsed : Bool} {called : Ledger}
    (h : WithdrawSteps d env ctx amount l l' policy proofUsed called) :
    (policy.fires env = false ∧
      ∀ k, Guard.registryAt d.guard l' k = Guard.registryAt d.guard l k) ∨
    (policy.fires env = true ∧ ConsumesNonce d.guard l l' ctx.tranaRegistry ctx.owner) := by
  obtain ⟨ix, hix, heffect⟩ := Guard.executed_effect h.guardStep
  obtain rfl := (Guard.parse_enforceData policy).unique hix
  -- what the vault does afterwards leaves the registries as the guard left them
  have hsame : ∀ k, Guard.registryAt d.guard l' k = Guard.registryAt d.guard called k :=
    h.registries
  cases heffect with
  | enforceFree idle evaluable same => exact Or.inl ⟨idle, fun k => same ▸ hsame k⟩
  | enforceProof w key r names fires found owner_eq verified stores =>
    have hnames : Guard.Names (ctx.cpiContext.toAccountMetas) ctx.tranaRegistry ctx.owner :=
      ⟨rfl, _, rfl, rfl, rfl⟩
    obtain ⟨rfl, rfl⟩ := names.unique hnames
    refine Or.inr ⟨fires, r, found, owner_eq, ?_⟩
    rw [hsame]
    exact stores.registryAt_self

/-- A nonce is consumed exactly when the policy fires. -/
theorem consumesOwn_iff {env : Guard.Env} {ctx : Withdraw} {amount : UInt64}
    {policy : Guard.Policy} {proofUsed : Bool} {called : Ledger} (hl : Guard.Layout d.guard l)
    (h : WithdrawSteps d env ctx amount l l' policy proofUsed called) :
    ConsumesOwn d.guard l l' ctx.owner ↔ policy.fires env = true := by
  rcases guard_effect h with ⟨hidle, hsame⟩ | ⟨hfires, hconsumes⟩
  · exact iff_of_false (not_consumesNonce (hsame _)) (by simp [hidle])
  · obtain ⟨r, hfound, howner, -⟩ := id hconsumes
    have hkey : ctx.tranaRegistry = d.guard.findRegistry ctx.owner := by
      rw [hl _ r hfound, howner]
    rw [hkey] at hconsumes
    exact iff_of_true hconsumes hfires

/-- For a top-level withdrawal the limit is compared with its own amount. -/
theorem fires_limit_top {c : Guard.Call} {amount bound : UInt64} (htop : TopLevel c)
    (hparsed : (parseInstruction c.data).Returns (.withdraw amount)) :
    (Guard.Policy.limit 0 bound).fires c.env = true ↔ bound ≤ amount := by
  obtain ⟨top, htop, hdata⟩ := htop
  have hamount : Guard.protectedU64 c.env.ixSysvar 0 = some amount :=
    protectedU64_eq_some.mpr ⟨top, htop, hdata ▸ u64At_withdraw hparsed⟩
  rw [Guard.Policy.fires_limit]
  constructor
  · intro h
    obtain ⟨v, hv, hle⟩ := h
    obtain rfl := Option.some.inj (hamount.symm.trans hv)
    exact hle
  · exact fun hle => ⟨amount, hamount, hle⟩

/-- What a top-level withdrawal from a limit pool asks for, inside its user's
window and outside. -/
theorem limit_withdrawal {c : Guard.Call} {ctx : Withdraw} {amount : UInt64}
    {policy : Guard.Policy} {proofUsed : Bool} {called : Ledger} (hl : Guard.Layout d.guard l)
    (htop : TopLevel c) (hwith : Withdraws d l a c ctx amount) (hkind : ctx.pool.kind = .limit)
    (h : WithdrawSteps d c.env ctx amount l l' policy proofUsed called) :
    (InWindow ctx.userDeposit c.env.clock.unixTimestamp ∧ proofUsed = true ∧
      (ConsumesOwn d.guard l l' ctx.owner ↔ c.env.clock.slot < unlockSlot ctx.userDeposit)) ∨
    (¬InWindow ctx.userDeposit c.env.clock.unixTimestamp ∧
      proofUsed = decide (withdrawLimit ≤ amount) ∧
      (ConsumesOwn d.guard l l' ctx.owner ↔ withdrawLimit ≤ amount)) := by
  have hconsumes := consumesOwn_iff hl h
  have hchosen := h.chosen
  rw [hkind] at hchosen
  rcases choosePolicy_limit hchosen with ⟨hin, rfl, hused⟩ | ⟨hout, rfl, hused⟩
  · exact Or.inl ⟨hin, hused, hconsumes.trans Guard.Policy.fires_notBefore⟩
  · exact Or.inr ⟨hout, hused, hconsumes.trans (fires_limit_top htop hwith.parsed)⟩

/-- What a withdrawal leaves in its user's record. -/
theorem remembered_withdrawn {α : Type} {f : UserDeposit → α} {env : Guard.Env} {ctx : Withdraw}
    {amount : UInt64} {policy : Guard.Policy} {proofUsed : Bool} {called : Ledger}
    {ud : UserDeposit} (hnamed : Named d l')
    (h : Withdrawn d env ctx amount l l' policy proofUsed called ud) :
    remembered f d ctx.poolKey ctx.owner l' = f ud := by
  obtain ⟨hpool, huser, -⟩ := recordWithdrawal_spec h.updated
  have hremembered : remembered f d ud.pool ud.user l' = f ud :=
    remembered_of_record hnamed h.stored
  rwa [hpool, huser, h.pool_eq, h.user_eq] at hremembered

/-- From a limit pool that is the start of its user's window. -/
theorem openedAt_withdrawn {c : Guard.Call} {ctx : Withdraw} {amount : UInt64}
    {policy : Guard.Policy} {proofUsed : Bool} {called : Ledger} {ud : UserDeposit}
    (hnamed : Named d l') (hkind : ctx.pool.kind = .limit)
    (h : Withdrawn d c.env ctx amount l l' policy proofUsed called ud) :
    openedAt d ctx.poolKey ctx.owner l' =
      if proofUsed then 0 else c.env.clock.unixTimestamp := by
  have hupdated := h.updated
  rw [hkind] at hupdated
  rw [← recordWithdrawal_limit hupdated]
  exact remembered_withdrawn hnamed h

/-- The one effect of a withdrawal step. -/
theorem withdrawn_of_step {c : Guard.Call} {ctx : Withdraw} {amount : UInt64}
    (h : Vault.Step d l a l') (hwith : Withdraws d l a c ctx amount) :
    ∃ policy proofUsed called ud,
      Withdrawn d c.env ctx amount l l' policy proofUsed called ud := by
  obtain rfl := hwith.label
  cases h with
  | vault h =>
    obtain ⟨ix, hix, hrun⟩ := returns_bind.mp h
    obtain rfl := hix.unique hwith.parsed
    obtain ⟨ctx', policy, proofUsed, called, ud, hctx, heffect⟩ := withdraw_effect hrun
    obtain rfl := hctx.unique hwith.context
    exact ⟨policy, proofUsed, called, ud, heffect⟩

/-! ## Along a run -/

/-- The user's last withdrawal from the pool before some moment. -/
def Previous (d : Vault.Deployment) (pool user : Pubkey) (pre : List Vault.Moment)
    (t₀ : Vault.Moment) : Prop :=
  ∃ pre₁ mid, pre = pre₁ ++ t₀ :: mid ∧ WithdrawsOf d pool user t₀.before t₀.label ∧
    ∀ u ∈ mid, ¬WithdrawsOf d pool user u.before u.label

/-- Drain protection at one moment, after the moments in `pre`: a withdrawal
from a limit pool consumes a nonce of its owner's registry when it is large,
and when it comes within the window after one that needed no proof. -/
structure DrainProtected (d : Vault.Deployment) (pre : List Vault.Moment) (t : Vault.Moment) :
    Prop where
  large : ∀ c ctx amount, Withdraws d t.before t.label c ctx amount → ctx.pool.kind = .limit →
    withdrawLimit ≤ amount → ConsumesOwn d.guard t.before t.after ctx.owner
  burst : ∀ c ctx amount t₀ c₀ ctx₀ amount₀, Withdraws d t.before t.label c ctx amount →
    ctx.pool.kind = .limit → Previous d ctx.poolKey ctx.owner pre t₀ →
    Withdraws d t₀.before t₀.label c₀ ctx₀ amount₀ →
    ¬ConsumesOwn d.guard t₀.before t₀.after ctx.owner →
    c.env.clock.unixTimestamp.toInt - c₀.env.clock.unixTimestamp.toInt < drainWindow.toInt →
    ConsumesOwn d.guard t.before t.after ctx.owner

theorem not_protected_of_large {c : Guard.Call} {ctx : Withdraw} {amount : UInt64}
    {pre : List Vault.Moment} (hwith : Withdraws d l (.vault c) c ctx amount)
    (hkind : ctx.pool.kind = .limit) (hlarge : withdrawLimit ≤ amount)
    (hfree : ¬ConsumesOwn d.guard l l' ctx.owner) :
    ¬DrainProtected d pre ⟨l, .vault c, l'⟩ :=
  fun h => hfree (h.large c ctx amount hwith hkind hlarge)

/-- A withdrawal from a limit pool inside a window comes before its unlock slot. -/
def BeforeUnlock (d : Vault.Deployment) (t : Vault.Moment) : Prop :=
  ∀ c ctx amount, Withdraws d t.before t.label c ctx amount → ctx.pool.kind = .limit →
    InWindow ctx.userDeposit c.env.clock.unixTimestamp →
    c.env.clock.slot < unlockSlot ctx.userDeposit

/-- Withdrawals are top-level, at positive times. -/
def Ordinary (d : Vault.Deployment) (t : Vault.Moment) : Prop :=
  ∀ c ctx amount, Withdraws d t.before t.label c ctx amount →
    TopLevel c ∧ 0 < c.env.clock.unixTimestamp

/-- What holds of every ledger of a run. -/
structure Sound (d : Vault.Deployment) (l : Ledger) : Prop where
  named : Named d l
  layout : Guard.Layout d.guard l

theorem sound_step (hpools : PoolsApart d) (h : Vault.Step d l a l') (hs : Sound d l) :
    Sound d l' :=
  ⟨named_step hpools h hs.named, Vault.layout_step hs.layout h⟩

/-- What a record says is what the user's last withdrawal left, or what a blank
one says. -/
theorem remembered_last {α : Type} {f : UserDeposit → α} (pool user : Pubkey)
    {pre : List Vault.Moment} {l₀ : Ledger} (hf : KeptByDeposits f) (hpools : PoolsApart d)
    (hs : Sound d l₀)
    (hrun : Run (Vault.Step d) l₀ pre l) :
    ((∀ u ∈ pre, ¬WithdrawsOf d pool user u.before u.label) ∧
      remembered f d pool user l = remembered f d pool user l₀) ∨
    ∃ t₀, Previous d pool user pre t₀ ∧
      remembered f d pool user l = remembered f d pool user t₀.after := by
  have hsound := hrun.stays_at hs fun u hu => sound_step hpools (hrun.step u hu)
  rcases hrun.last_change (f := remembered f d pool user)
      (E := fun u => WithdrawsOf d pool user u.before u.label)
      (fun u hu hno => remembered_step hf (hsound u hu).1.named (hrun.step u hu) hno)
    with hnone | ⟨pre₁, t₀, mid, heq, hwithOf, hno, hlast⟩
  · exact Or.inl hnone
  · exact Or.inr ⟨t₀, ⟨pre₁, mid, heq, hwithOf, hno⟩, hlast⟩

/-- After a withdrawal of the user and up to the next it says the same. -/
theorem remembered_previous {α : Type} {f : UserDeposit → α} {mid : List Vault.Moment}
    {t₀ : Vault.Moment} (hf : KeptByDeposits f) (hpools : PoolsApart d) (hs : Sound d t₀.after)
    (hrun : Run (Vault.Step d) t₀.after mid l)
    (hno : ∀ u ∈ mid, ¬WithdrawsOf d pool user u.before u.label) :
    remembered f d pool user l = remembered f d pool user t₀.after := by
  have hsound := hrun.stays_at hs fun u hu => sound_step hpools (hrun.step u hu)
  exact hrun.stays
    (P := fun l => remembered f d pool user l = remembered f d pool user t₀.after) rfl
    fun u hu heq => (remembered_step hf (hsound u hu).1.named (hrun.step u hu) (hno u hu)).trans heq

theorem openedAt_previous {mid : List Vault.Moment} {t₀ : Vault.Moment} (hpools : PoolsApart d)
    (hs : Sound d t₀.after) (hrun : Run (Vault.Step d) t₀.after mid l)
    (hno : ∀ u ∈ mid, ¬WithdrawsOf d pool user u.before u.label) :
    openedAt d pool user l = openedAt d pool user t₀.after :=
  remembered_previous lastWithdrawAt_credited hpools hs hrun hno

theorem openedAt_last (pool user : Pubkey) {pre : List Vault.Moment} {l₀ : Ledger}
    (hpools : PoolsApart d) (hs : Sound d l₀) (hrun : Run (Vault.Step d) l₀ pre l) :
    ((∀ u ∈ pre, ¬WithdrawsOf d pool user u.before u.label) ∧
      openedAt d pool user l = openedAt d pool user l₀) ∨
    ∃ t₀, Previous d pool user pre t₀ ∧ openedAt d pool user l = openedAt d pool user t₀.after :=
  remembered_last pool user lastWithdrawAt_credited hpools hs hrun

/-- A pool is the same at a later withdrawal. -/
theorem same_pool {l₀ l₀' : Ledger} {mid : List Vault.Moment} {env₀ env : Guard.Env}
    {ctx₀ ctx : Withdraw} {amount₀ amount : UInt64} {policy₀ policy : Guard.Policy}
    {proofUsed₀ proofUsed : Bool} {called₀ called : Ledger} {ud₀ ud : UserDeposit}
    (hstep₀ : Vault.Step d l₀ a l₀')
    (h₀ : Withdrawn d env₀ ctx₀ amount₀ l₀ l₀' policy₀ proofUsed₀ called₀ ud₀)
    (hmid : Run (Vault.Step d) l₀' mid l)
    (h : Withdrawn d env ctx amount l l' policy proofUsed called ud)
    (hpool : ctx₀.poolKey = ctx.poolKey) : ctx₀.pool = ctx.pool := by
  have hkept := pool_stays hmid (pool_step hstep₀ h₀.found)
  rw [hpool] at hkept
  exact Option.some.inj (hkept.symm.trans h.found)

variable {trace : List Vault.Moment} {l₀ : Ledger}

/-- Before the unlock slot, a withdrawal is protected. -/
theorem protected_of_beforeUnlock {pre post : List Vault.Moment} {t : Vault.Moment}
    (hpools : PoolsApart d) (hs : Sound d l₀)
    (hrun : Run (Vault.Step d) l₀ (pre ++ t :: post) l)
    (hordinary : ∀ u ∈ pre ++ t :: post, Ordinary d u)
    (hunlock : ∀ u ∈ pre ++ t :: post, BeforeUnlock d u) : DrainProtected d pre t := by
  have ht : t ∈ pre ++ t :: post := List.mem_append_right _ (List.mem_cons_self ..)
  have hsound := hrun.stays_at hs fun u hu => sound_step hpools (hrun.step u hu)
  -- a withdrawal that used a proof consumed a nonce
  have hused : ∀ u ∈ pre ++ t :: post, ∀ c ctx amount policy proofUsed called,
      Withdraws d u.before u.label c ctx amount → ctx.pool.kind = .limit →
      WithdrawSteps d c.env ctx amount u.before u.after policy proofUsed called →
      (InWindow ctx.userDeposit c.env.clock.unixTimestamp ∨ proofUsed = true) →
      ConsumesOwn d.guard u.before u.after ctx.owner := by
    intro u hu c ctx amount policy proofUsed called hwith hkind hsteps hor
    rcases limit_withdrawal (hsound u hu).1.layout (hordinary u hu c ctx amount hwith).1 hwith
      hkind hsteps with ⟨hin, -, hiff⟩ | ⟨hout, rfl, hiff⟩
    · exact hiff.mpr (hunlock u hu c ctx amount hwith hkind hin)
    · exact hiff.mpr (of_decide_eq_true (hor.resolve_left hout))
  obtain ⟨hpre, hstep, -⟩ := hrun.split
  constructor
  · intro c ctx amount hwith hkind hlarge
    obtain ⟨policy, proofUsed, called, ud, heffect⟩ := withdrawn_of_step hstep hwith
    rcases limit_withdrawal (hsound t ht).1.layout (hordinary t ht c ctx amount hwith).1 hwith
      hkind heffect.toWithdrawSteps with ⟨hin, -, hiff⟩ | ⟨-, -, hiff⟩
    · exact hiff.mpr (hunlock t ht c ctx amount hwith hkind hin)
    · exact hiff.mpr hlarge
  · intro c ctx amount t₀ c₀ ctx₀ amount₀ hwith hkind hprev hwith₀ hfree hclose
    obtain ⟨policy, proofUsed, called, ud, heffect⟩ := withdrawn_of_step hstep hwith
    obtain ⟨pre₁, mid, rfl, ⟨c₁, ctx₁, amount₁, hwith₁, hpool, huser⟩, hno⟩ := hprev
    obtain ⟨rfl, rfl, rfl⟩ := hwith₁.unique hwith₀
    obtain ⟨-, hstep₀, hmid⟩ := hpre.split
    have ht₀ : t₀ ∈ (pre₁ ++ t₀ :: mid) ++ t :: post :=
      List.mem_append_left _ (List.mem_append_right _ (List.mem_cons_self ..))
    obtain ⟨policy₀, proofUsed₀, called₀, ud₀, heffect₀⟩ := withdrawn_of_step hstep₀ hwith₀
    -- the pool was a limit pool then as well
    have hkind₀ : ctx₁.pool.kind = .limit := by
      rw [same_pool hstep₀ heffect₀ hmid heffect hpool, hkind]
    have hproof₀ : proofUsed₀ = false := by
      by_contra hne
      rw [← huser] at hfree
      exact hfree (hused t₀ ht₀ _ _ _ _ _ _ hwith₀ hkind₀ heffect₀.toWithdrawSteps
        (Or.inr (Bool.not_eq_false _ ▸ hne)))
    have hopened := openedAt_withdrawn (hsound t₀ ht₀).2.named hkind₀ heffect₀
    rw [hproof₀, hpool, huser] at hopened
    have hlast := openedAt_of_record (hsound t ht).1.named heffect.record
    rw [heffect.pool_eq, heffect.user_eq,
      openedAt_previous hpools (hsound t₀ ht₀).2 hmid hno, hopened] at hlast
    have hin : InWindow ctx.userDeposit c.env.clock.unixTimestamp := by
      rw [InWindow, ← hlast]
      exact ⟨(hordinary t₀ ht₀ _ _ _ hwith₀).2, hclose⟩
    exact hused t ht c ctx amount policy proofUsed called hwith hkind heffect.toWithdrawSteps
      (Or.inl hin)

/-- A protected withdrawal inside a window comes before the unlock slot. -/
theorem beforeUnlock_of_protected {pre post : List Vault.Moment} {t : Vault.Moment}
    (hpools : PoolsApart d) (hs : Sound d l₀) (hopen : ∀ pool user, openedAt d pool user l₀ = 0)
    (hrun : Run (Vault.Step d) l₀ (pre ++ t :: post) l)
    (hordinary : ∀ u ∈ pre ++ t :: post, Ordinary d u) (hprotected : DrainProtected d pre t) :
    BeforeUnlock d t := by
  have ht : t ∈ pre ++ t :: post := List.mem_append_right _ (List.mem_cons_self ..)
  have hsound := hrun.stays_at hs fun u hu => sound_step hpools (hrun.step u hu)
  obtain ⟨hpre, hstep, -⟩ := hrun.split
  intro c ctx amount hwith hkind hin
  obtain ⟨policy, proofUsed, called, ud, heffect⟩ := withdrawn_of_step hstep hwith
  have hlast := openedAt_of_record (hsound t ht).1.named heffect.record
  rw [heffect.pool_eq, heffect.user_eq] at hlast
  -- an open window was opened by the user's last withdrawal
  rcases openedAt_last ctx.poolKey ctx.owner hpools hs hpre with
    ⟨-, heq⟩ | ⟨t₀, ⟨pre₁, mid, rfl, hwithOf, hno⟩, heq⟩
  · have hzero : ctx.userDeposit.lastWithdrawAt = 0 := by rw [← hlast, heq, hopen]
    have hpos := hin.1
    rw [hzero] at hpos
    exact absurd hpos (by decide)
  · have ht₀ : t₀ ∈ (pre₁ ++ t₀ :: mid) ++ t :: post :=
      List.mem_append_left _ (List.mem_append_right _ (List.mem_cons_self ..))
    obtain ⟨-, hstep₀, hmid⟩ := hpre.split
    obtain ⟨c₀, ctx₀, amount₀, hwith₀, hpool, huser⟩ := id hwithOf
    obtain ⟨policy₀, proofUsed₀, called₀, ud₀, heffect₀⟩ := withdrawn_of_step hstep₀ hwith₀
    have hkind₀ : ctx₀.pool.kind = .limit := by
      rw [same_pool hstep₀ heffect₀ hmid heffect hpool, hkind]
    have hopened := openedAt_withdrawn (hsound t₀ ht₀).2.named hkind₀ heffect₀
    rw [hpool, huser, ← heq, hlast] at hopened
    have hproof₀ : proofUsed₀ = false := by
      by_contra hne
      rw [Bool.not_eq_false] at hne
      rw [hne, if_pos rfl] at hopened
      have hpos := hin.1
      rw [hopened] at hpos
      exact absurd hpos (by decide)
    rw [hproof₀] at hopened
    -- that withdrawal was a small one outside any window, so it was free
    have hfree : ¬ConsumesOwn d.guard t₀.before t₀.after ctx.owner := by
      rw [← huser]
      rcases limit_withdrawal (hsound t₀ ht₀).1.layout (hordinary t₀ ht₀ _ _ _ hwith₀).1 hwith₀
        hkind₀ heffect₀.toWithdrawSteps with ⟨-, hone, -⟩ | ⟨-, hflag, hiff⟩
      · cases hone.symm.trans hproof₀
      · exact fun hconsumes => of_decide_eq_false (hflag.symm.trans hproof₀) (hiff.mp hconsumes)
    have hclose := hin.2
    rw [hopened] at hclose
    have hconsumes := hprotected.burst c ctx amount t₀ c₀ ctx₀ amount₀ hwith hkind
      ⟨pre₁, mid, rfl, hwithOf, hno⟩ hwith₀ hfree hclose
    rcases limit_withdrawal (hsound t ht).1.layout (hordinary t ht _ _ _ hwith).1 hwith hkind
      heffect.toWithdrawSteps with ⟨-, -, hiff⟩ | ⟨hout, -, -⟩
    · exact hiff.mp hconsumes
    · exact absurd hin hout

end Run

/-- A run protects its limit pools at every moment exactly when every withdrawal
inside a window comes before its unlock slot. -/
theorem drain_protection {d : Vault.Deployment} {l₀ l : Ledger} {trace : List Vault.Moment}
    (hpools : PoolsApart d) (hvault : Ledger.Genesis vaultId l₀)
    (hguard : Ledger.Genesis d.guard.programId l₀) (hrun : Run (Vault.Step d) l₀ trace l)
    (hordinary : ∀ t ∈ trace, Ordinary d t) :
    (∀ t ∈ trace, BeforeUnlock d t) ↔
      ∀ pre t post, trace = pre ++ t :: post → DrainProtected d pre t := by
  have hs : Sound d l₀ := ⟨named_genesis hvault, Guard.layout_genesis hguard⟩
  have hopen : ∀ pool user, openedAt d pool user l₀ = 0 := fun pool user =>
    remembered_genesis hvault
  constructor
  · intro hunlock pre t post heq
    subst heq
    exact protected_of_beforeUnlock hpools hs hrun hordinary hunlock
  · intro hprotected t ht
    obtain ⟨pre, post, rfl⟩ := List.append_of_mem ht
    exact beforeUnlock_of_protected hpools hs hopen hrun hordinary (hprotected pre t post rfl)

/-! ### A window outrun by its slots -/

section Localnet

open Sdk.Localnet

theorem topLevel_vaultCall (clock : Clock) (ix : Instruction) : TopLevel (vaultCall clock ix) :=
  ⟨ix, rfl, rfl⟩

/-- The registered wallet puts three SOL into its pool and takes half a SOL out. -/
def burstLabels : List Vault.Label :=
  setup.map .guard ++ [.vault (vaultCall ⟨5, 500⟩ initializePoolIx),
    .vault (vaultCall ⟨5, 500⟩ depositIx), .vault (vaultCall ⟨5, 500⟩ smallWithdrawIx)]

/-- Two SOL more, 59 seconds and 155 slots later. -/
def outrunCall : Guard.Call := vaultCall ⟨160, 559⟩ withdrawIx

/-- The ledger after the first withdrawal. -/
def burst : Ledger := (runLabels vaultDeployment genesis burstLabels).getD genesis

theorem run_burst : ∃ trace, Run (Vault.Step vaultDeployment) genesis trace burst ∧
    trace.map Transition.label = burstLabels := by
  have hsome : (runLabels vaultDeployment genesis burstLabels).isSome = true := by decide +kernel
  obtain ⟨l, hl⟩ := Option.isSome_iff_exists.mp hsome
  have hburst : burst = l := by rw [burst, hl]; rfl
  rw [hburst]
  exact run_of_runLabels hl

theorem poolsApart_vault : PoolsApart vaultDeployment := by
  intro authority bump hpool
  have hcreate : (if bump = 251 then some poolPda else none) = some systemProgramId := hpool
  split at hcreate
  next => exact absurd (Option.some.inj hcreate) (by decide)
  next => cases hcreate

/-- Every call of the vault here is direct, at a positive time. -/
theorem ordinary_vaultCall {t : Vault.Moment}
    (h : t.label ∈ burstLabels ++ [.vault outrunCall]) : Ordinary vaultDeployment t := by
  intro c ctx amount hwith
  rw [hwith.label] at h
  have hcall : ∃ clock ix, c = vaultCall clock ix ∧ 0 < clock.unixTimestamp := by
    simp only [burstLabels, setup, List.map_cons, List.map_nil, List.cons_append, List.nil_append,
      List.mem_cons, reduceCtorEq, Vault.Label.vault.injEq, List.not_mem_nil, or_false,
      false_or] at h
    rcases h with rfl | rfl | rfl | rfl
    all_goals exact ⟨_, _, rfl, by decide⟩
  obtain ⟨clock, ix, rfl, hpos⟩ := hcall
  exact ⟨topLevel_vaultCall clock ix, hpos⟩

/-- The run of the first withdrawal. -/
theorem drain_protection_burst : ∃ trace, Run (Vault.Step vaultDeployment) genesis trace burst ∧
    trace.map Transition.label = burstLabels ∧
    ((∀ t ∈ trace, BeforeUnlock vaultDeployment t) ↔
      ∀ pre t post, trace = pre ++ t :: post → DrainProtected vaultDeployment pre t) := by
  obtain ⟨trace, hrun, hlabels⟩ := run_burst
  exact ⟨trace, hrun, hlabels, drain_protection poolsApart_vault
    (genesis_of_ne vaultId_ne_system) (genesis_of_ne deployment.programId_ne) hrun fun t ht =>
      ordinary_vaultCall (List.mem_append_left _ (hlabels ▸ List.mem_map_of_mem ht))⟩

/-- The second withdrawal succeeds, and the registry keeps its nonce. -/
theorem outrun_succeeds : ∃ l',
    (Vault.process vaultDeployment outrunCall.env outrunCall.accounts outrunCall.data
      burst).Returns l' ∧
    Guard.registryAt deployment l' registryPda = Guard.registryAt deployment burst registryPda := by
  have hrun : (Vault.process vaultDeployment outrunCall.env outrunCall.accounts outrunCall.data
      burst).result.toOption.map (fun l => Guard.registryAt deployment l registryPda) =
      some (Guard.registryAt deployment burst registryPda) := by
    decide +kernel
  obtain ⟨l', hl', heq⟩ := Option.map_eq_some_iff.mp hrun
  exact ⟨l', toOption_eq_some.mp hl', heq⟩

/-- Two SOL within a minute of half a SOL, neither with a proof. -/
theorem window_outrun : ∃ (pre : List Vault.Moment) (t : Vault.Moment),
    Run (Vault.Step vaultDeployment) genesis (pre ++ [t]) t.after ∧
    pre.map Transition.label = burstLabels ∧ t.label = .vault outrunCall ∧
    (∀ u ∈ pre ++ [t], Ordinary vaultDeployment u) ∧ ¬DrainProtected vaultDeployment pre t := by
  obtain ⟨pre, hrun, hlabels⟩ := run_burst
  obtain ⟨l', hprocess, hsame⟩ := outrun_succeeds
  have hstep : Vault.Step vaultDeployment burst (.vault outrunCall) l' := .vault hprocess
  refine ⟨pre, ⟨burst, .vault outrunCall, l'⟩, hrun.append (.cons hstep (.nil l')), hlabels, rfl,
    ?_, ?_⟩
  · intro u hu
    refine ordinary_vaultCall ?_
    rcases List.mem_append.mp hu with hu | hu
    · exact List.mem_append_left _ (hlabels ▸ List.mem_map_of_mem hu)
    · obtain rfl := List.mem_singleton.mp hu
      exact List.mem_append_right _ (List.mem_singleton_self _)
  · have hctx : (Withdraw.tryAccounts vaultDeployment outrunCall.accounts
        burst).result.toOption.map (fun ctx => (ctx.pool.kind, ctx.owner)) =
        some (.limit, wallet) := by
      decide +kernel
    obtain ⟨ctx, hctx, heq⟩ := Option.map_eq_some_iff.mp hctx
    obtain ⟨hkind, howner⟩ := Prod.mk.inj heq
    have hparsed : (parseInstruction outrunCall.data).Returns (.withdraw 2000000000) := by
      decide +kernel
    refine not_protected_of_large ⟨rfl, hparsed, toOption_eq_some.mp hctx⟩ hkind (by decide) ?_
    rw [howner]
    exact not_consumesNonce hsame

end Localnet

end Trana.Security
