import Trana.Security.Cooldown

/-!
# The audit flag of a withdrawal

`withdraw` says in its event whether a proof was used, and resets the drain
window by the same flag, before it knows: the flag is set from the vault's own
conditions, the guard decides by a slot and by the amount in the top-level
instruction.

* `mem_logs_withdraw` — the one event of a successful withdrawal.
* `consumesOf_iff` — a nonce is consumed exactly when the policy fires.
* `audit_flag` — when the flag tells the truth.
* `flag_lies` — a withdrawal that consumed a nonce and is logged as free, and
  one that did not and is logged as proved.

The two ask about different things:

* a time-locked pool sets the flag to false throughout, and its policy fires
  below the unlock slot;
* a limit pool inside its drain window sets it to true, and the policy there is
  a slot again, though the window is counted in seconds;
* outside the window both ask for the limit, the vault in its argument, the
  guard in bytes 8 to 16 of the top-level instruction.

`FlagApplies` puts these three side by side. It reads the clock, the record and
the transaction, so an indexer can tell from outside which flags to trust. What
the guard logs during the call is told from the vault's event by its origin, as
an indexer tells them by the program that is on top of the stack.
-/

namespace Trana.Security

open Trana.Lib Trana.Lib.Exec Trana.Solana Trana.Vault

variable {d : Vault.Deployment} {env : Guard.Env} {accounts : List AccountMeta} {l l' : Ledger}

/-- A nonce of a registry of the wallet was consumed, wherever that registry is. -/
def ConsumesOf (d : Guard.Deployment) (l l' : Ledger) (w : Pubkey) : Prop :=
  ∃ key, ConsumesNonce d l l' key w

/-! ## The event -/

/-- The line is the event of a withdrawal. -/
def IsWithdrawn : Log → Prop
  | .withdrawn .. => True
  | _ => False

theorem not_withdrawn_parse {data : Bytes} {line : Log}
    (h : line ∈ (Vault.parseInstruction data).logs) : ¬IsWithdrawn line := by
  unfold Vault.parseInstruction at h
  dsimp only at h
  split at h
  next =>
    simp [mem_logs_bind, emit, Vault.readArgs] at h
    subst h
    exact id
  next =>
    split at h
    next =>
      simp [mem_logs_bind, emit, Vault.readArgs] at h
      subst h
      exact id
    next =>
      split at h
      next =>
        simp [mem_logs_bind, emit, Vault.readArgs] at h
        subst h
        exact id
      next => simp at h

theorem logs_withdraw_tryAccounts : (Withdraw.tryAccounts d accounts l).logs = [] := by
  unfold Withdraw.tryAccounts
  split
  next => simp
  next => rfl

@[simp] theorem logs_inDrainWindow {ud : UserDeposit} {now : Int64} :
    (inDrainWindow ud now).logs = [] := by
  unfold inDrainWindow i64Sub
  split
  next => simp [logs_ite]
  next => rfl

theorem logs_choosePolicy {kind : PoolKind} {ud : UserDeposit} {clock : Clock} {amount : UInt64} :
    (choosePolicy kind ud clock amount).logs = [] := by
  cases kind with
  | timeLocked => rfl
  | limit => simp [choosePolicy]

theorem logs_vaultRequire {p : Prop} [Decidable p] {e : VaultError} :
    (Vault.require p e).logs = [] :=
  Exec.logs_require

theorem logs_moveLamports {src dst : Pubkey} {amount : UInt64} :
    (moveLamports l src dst amount).logs = [] := by
  simp [moveLamports, u64Sub, u64Add, logs_ite]

theorem logs_recordWithdrawal {kind : PoolKind} {ud : UserDeposit} {clock : Clock}
    {amount : UInt64} {proofUsed : Bool} :
    (recordWithdrawal kind ud clock amount proofUsed).logs = [] := by
  unfold recordWithdrawal
  rw [logs_bind_eq_nil]
  refine ⟨by simp [u64Sub, logs_ite], fun balance _ => ?_⟩
  cases kind with
  | timeLocked => rfl
  | limit => simp [logs_ite]

/-- What the guard logs is marked as the guard's. -/
theorem not_withdrawn_call {ctx : Withdraw} {policy : Guard.Policy} {line : Log}
    (h : line ∈ (cpiEnforce d env ctx policy l).logs) : ¬IsWithdrawn line := by
  rw [cpiEnforce, logs_embed] at h
  obtain ⟨inner, -, rfl⟩ := List.mem_map.mp h
  exact id

/-- A successful withdrawal logs what the guard logs, and then its event. -/
theorem logs_withdraw {ctx : Withdraw} {amount : UInt64} {policy : Guard.Policy}
    {proofUsed : Bool} (hctx : (Withdraw.tryAccounts d accounts l).Returns ctx)
    (hchosen : (choosePolicy ctx.pool.kind ctx.userDeposit env.clock amount).Returns
      (policy, proofUsed))
    (h : (Vault.execute d env accounts (.withdraw amount) l).Returns l') :
    (Vault.execute d env accounts (.withdraw amount) l).logs =
      (cpiEnforce d env ctx policy l).logs ++
        [.withdrawn ctx.poolKey ctx.owner ctx.destination amount proofUsed] := by
  simp only [Vault.execute, returns_bind] at h
  obtain ⟨ctx', hctx', ⟨ud, l₁⟩, hrun, l₂, hpool, hexit⟩ := h
  obtain rfl := hctx'.unique hctx
  have hrun' := hrun
  simp only [withdraw, returns_bind, returns_pure] at hrun'
  obtain ⟨u, hpos, u', hbalance, chosen, hchosen', called, hcall, moved, hmove, ud', hrecord, u'',
    hevent, -⟩ := hrun'
  obtain rfl := hchosen'.unique hchosen
  -- the handler logs its event last; of all before, only the call to the guard logs anything
  have hwithdraw : (withdraw d env ctx' amount l).logs = (cpiEnforce d env ctx' policy l).logs ++
      [.withdrawn ctx'.poolKey ctx'.owner ctx'.destination amount proofUsed] := by
    unfold withdraw
    rw [logs_bind_ok hpos, logs_vaultRequire, logs_bind_ok hbalance, logs_vaultRequire,
      logs_bind_ok hchosen, logs_choosePolicy]
    dsimp only
    rw [logs_bind_ok hcall, logs_bind_ok hmove, logs_moveLamports, logs_bind_ok hrecord,
      logs_recordWithdrawal, logs_bind_ok hevent]
    rfl
  unfold Vault.execute
  dsimp only
  rw [logs_bind_ok hctx', logs_withdraw_tryAccounts, logs_bind_ok hrun, hwithdraw]
  dsimp only
  rw [logs_bind_ok hpool, logs_exitAccount, logs_exitAccount]
  simp

/-- A successful withdrawal has one event, with the flag it was chosen with. -/
theorem mem_logs_withdraw {data : Bytes} {ctx : Withdraw} {amount : UInt64}
    {policy : Guard.Policy} {proofUsed : Bool} {line : Log}
    (hparsed : (Vault.parseInstruction data).Returns (.withdraw amount))
    (hctx : (Withdraw.tryAccounts d accounts l).Returns ctx)
    (hchosen : (choosePolicy ctx.pool.kind ctx.userDeposit env.clock amount).Returns
      (policy, proofUsed))
    (h : (Vault.process d env accounts data l).Returns l') (hline : IsWithdrawn line) :
    line ∈ (Vault.process d env accounts data l).logs ↔
      line = .withdrawn ctx.poolKey ctx.owner ctx.destination amount proofUsed := by
  obtain ⟨ix, hix, hrun⟩ := returns_bind.mp h
  obtain rfl := hix.unique hparsed
  rw [Vault.process, logs_bind_ok hparsed, logs_withdraw hctx hchosen hrun, List.mem_append,
    List.mem_append, List.mem_singleton]
  constructor
  · intro hmem
    rcases hmem with hparse | hcall | hevent
    · exact absurd hline (not_withdrawn_parse hparse)
    · exact absurd hline (not_withdrawn_call hcall)
    · exact hevent
  · exact fun hevent => Or.inr (Or.inr hevent)

/-! ## The flag and the guard -/

/-- The record after a withdrawal from a limit pool: the window is closed after
a flagged one, and otherwise counts from this one. -/
theorem recordWithdrawal_window {ud ud' : UserDeposit} {clock : Clock} {amount : UInt64}
    {proofUsed : Bool} (hout : proofUsed = false → ¬InWindow ud clock.unixTimestamp)
    (h : (recordWithdrawal .limit ud clock amount proofUsed).Returns ud') :
    ud'.windowWithdrawn = (if proofUsed then 0 else amount) ∧
      ud'.lastWithdrawAt = if proofUsed then 0 else clock.unixTimestamp := by
  refine ⟨?_, recordWithdrawal_limit h⟩
  simp only [recordWithdrawal, returns_bind, returns_ite, returns_pure] at h
  obtain ⟨balance, -, inW, hin, ⟨hused, rfl⟩ | ⟨hfree, rfl⟩⟩ := h
  · rw [if_pos hused]
  · have hfalse : inW = false := by
      rw [inDrainWindow_eq hin]
      exact decide_eq_false (hout (Bool.not_eq_true _ ▸ hfree))
    rw [if_neg hfree, hfalse]
    rfl

/-- A nonce of the owner is consumed exactly when the policy fires. -/
theorem consumesOf_iff {ctx : Withdraw} {amount : UInt64} {policy : Guard.Policy}
    {proofUsed : Bool} {called : Ledger}
    (h : WithdrawSteps d env ctx amount l l' policy proofUsed called) :
    ConsumesOf d.guard l l' ctx.owner ↔ policy.fires env = true := by
  rcases guard_effect h with ⟨hidle, hsame⟩ | ⟨hfires, hconsumes⟩
  · refine iff_of_false ?_ (by simp [hidle])
    rintro ⟨key, hconsumes⟩
    exact not_consumesNonce (hsame key) hconsumes
  · exact iff_of_true ⟨_, hconsumes⟩ hfires

/-- What the vault's flag and the guard's answer go by, where they go by the
same: a time-locked pool is past its cooldown, a window has the slot behind it
as well, and outside a window the amount in the top-level instruction is on the
same side of the limit as the amount withdrawn. -/
def FlagApplies (env : Guard.Env) (ctx : Withdraw) (amount : UInt64) : Prop :=
  match ctx.pool.kind with
  | .timeLocked => unlockSlot ctx.userDeposit ≤ env.clock.slot
  | .limit =>
    if InWindow ctx.userDeposit env.clock.unixTimestamp then
      env.clock.slot < unlockSlot ctx.userDeposit
    else
      withdrawLimit ≤ amount ↔
        ∃ shown, Guard.protectedU64 env.ixSysvar 0 = some shown ∧ withdrawLimit ≤ shown

/-- The flag of a withdrawal: the event's, and the one a limit pool's window was
reset by. -/
structure FlagOf (d : Vault.Deployment) (env : Guard.Env) (accounts : List AccountMeta)
    (data : Bytes) (l l' : Ledger) (ctx : Withdraw) (amount : UInt64) (flag : Bool) : Prop where
  logged : ∀ line, IsWithdrawn line → (line ∈ (Vault.process d env accounts data l).logs ↔
    line = .withdrawn ctx.poolKey ctx.owner ctx.destination amount flag)
  window : ctx.pool.kind = .limit → ∃ ud, depositAt l' ctx.userDepositKey = some ud ∧
    ud.windowWithdrawn = (if flag then 0 else amount) ∧
    ud.lastWithdrawAt = if flag then 0 else env.clock.unixTimestamp

theorem FlagOf.unique {data : Bytes} {ctx : Withdraw} {amount : UInt64} {flag flag' : Bool}
    (h : FlagOf d env accounts data l l' ctx amount flag)
    (h' : FlagOf d env accounts data l l' ctx amount flag') : flag = flag' := by
  have hmem := (h.logged (.withdrawn ctx.poolKey ctx.owner ctx.destination amount flag)
    trivial).mpr rfl
  have heq := (h'.logged (.withdrawn ctx.poolKey ctx.owner ctx.destination amount flag)
    trivial).mp hmem
  injection heq

/-- The flag of the withdrawal is the one its policy was chosen with. -/
theorem flagOf_chosen {data : Bytes} {ctx : Withdraw} {amount : UInt64} {policy : Guard.Policy}
    {proofUsed : Bool} {called : Ledger} {ud : UserDeposit}
    (hparsed : (Vault.parseInstruction data).Returns (.withdraw amount))
    (hctx : (Withdraw.tryAccounts d accounts l).Returns ctx)
    (h : (Vault.process d env accounts data l).Returns l')
    (heffect : Withdrawn d env ctx amount l l' policy proofUsed called ud) :
    FlagOf d env accounts data l l' ctx amount proofUsed where
  logged _ hline := mem_logs_withdraw hparsed hctx heffect.chosen h hline
  window hkind := by
    have hchosen := heffect.chosen
    have hupdated := heffect.updated
    rw [hkind] at hchosen hupdated
    refine ⟨ud, heffect.stored, recordWithdrawal_window (fun hfalse => ?_) hupdated⟩
    rcases choosePolicy_limit hchosen with ⟨-, -, htrue⟩ | ⟨hout, -, -⟩
    · cases htrue.symm.trans hfalse
    · exact hout

/-- It is what the guard does exactly when the two go by the same. -/
theorem flag_iff {ctx : Withdraw} {amount : UInt64} {policy : Guard.Policy} {proofUsed : Bool}
    {called : Ledger} (h : WithdrawSteps d env ctx amount l l' policy proofUsed called) :
    (proofUsed = true ↔ ConsumesOf d.guard l l' ctx.owner) ↔ FlagApplies env ctx amount := by
  rw [consumesOf_iff h]
  have hchosen := h.chosen
  unfold FlagApplies
  cases hkind : ctx.pool.kind with
  | timeLocked =>
    rw [hkind] at hchosen
    obtain ⟨rfl, rfl⟩ := choosePolicy_timeLocked hchosen
    rw [Guard.Policy.fires_notBefore, ← UInt64.not_lt]
    simp
  | limit =>
    rw [hkind] at hchosen
    dsimp only
    rcases choosePolicy_limit hchosen with ⟨hin, rfl, rfl⟩ | ⟨hout, rfl, rfl⟩
    -- inside a window the flag is true, so the slot has to make the policy fire
    · rw [Guard.Policy.fires_notBefore, if_pos hin]
      simp only [true_iff]
    -- outside it the vault compares its argument, the guard what the transaction shows
    · rw [Guard.Policy.fires_limit, if_neg hout, decide_eq_true_iff]

/-- The event of a withdrawal says that a proof was used, and its window is
reset, exactly when a nonce of the owner was consumed: this holds of a
withdrawal exactly when the vault and the guard go by the same. -/
theorem audit_flag {data : Bytes} {ctx : Withdraw} {amount : UInt64}
    (hparsed : (Vault.parseInstruction data).Returns (.withdraw amount))
    (hctx : (Withdraw.tryAccounts d accounts l).Returns ctx)
    (h : (Vault.process d env accounts data l).Returns l') :
    ∃ flag, FlagOf d env accounts data l l' ctx amount flag ∧
      ((flag = true ↔ ConsumesOf d.guard l l' ctx.owner) ↔ FlagApplies env ctx amount) := by
  obtain ⟨ix, hix, hrun⟩ := returns_bind.mp h
  obtain rfl := hix.unique hparsed
  obtain ⟨ctx', policy, proofUsed, called, ud, hctx', heffect⟩ := withdraw_effect hrun
  obtain rfl := hctx'.unique hctx
  exact ⟨proofUsed, flagOf_chosen hparsed hctx h heffect, flag_iff heffect.toWithdrawSteps⟩

/-- Where they do not, the flag says the opposite of what the guard did. -/
theorem flag_opposite {data : Bytes} {ctx : Withdraw} {amount : UInt64} {policy : Guard.Policy}
    {flag : Bool} (hparsed : (Vault.parseInstruction data).Returns (.withdraw amount))
    (hctx : (Withdraw.tryAccounts d accounts l).Returns ctx)
    (h : (Vault.process d env accounts data l).Returns l')
    (hchosen : (choosePolicy ctx.pool.kind ctx.userDeposit env.clock amount).Returns
      (policy, flag))
    (hnot : ¬FlagApplies env ctx amount) :
    FlagOf d env accounts data l l' ctx amount flag ∧
      (ConsumesOf d.guard l l' ctx.owner ↔ flag = false) := by
  obtain ⟨ix, hix, hrun⟩ := returns_bind.mp h
  obtain rfl := hix.unique hparsed
  obtain ⟨ctx', policy', proofUsed, called, ud, hctx', heffect⟩ := withdraw_effect hrun
  obtain rfl := hctx'.unique hctx
  obtain ⟨rfl, rfl⟩ := Prod.mk.inj (heffect.chosen.unique hchosen)
  refine ⟨flagOf_chosen hparsed hctx h heffect, ?_⟩
  have hiff : ¬(proofUsed = true ↔ ConsumesOf d.guard l l' ctx'.owner) :=
    fun heq => hnot ((flag_iff heffect.toWithdrawSteps).mp heq)
  cases proofUsed with
  | false => simpa using hiff
  | true => simpa using hiff

/-! ### A flag that lies -/

section Localnet

open Sdk Sdk.Localnet

/-- The context of the two SOL that leave the pool after the half. -/
def outrunWithdrawal : Withdraw where
  poolKey := poolPda
  pool := ⟨wallet, .limit, "", 251⟩
  userDepositKey := depositPda
  userDeposit := ⟨poolPda, wallet, 2500000000, 5, 500000000, 500, 255⟩
  owner := wallet
  destination := treasury
  tranaRegistry := registryPda

theorem outrun_context :
    (Withdraw.tryAccounts vaultDeployment outrunCall.accounts burst).Returns outrunWithdrawal ∧
      (parseInstruction outrunCall.data).Returns (.withdraw 2000000000) := by
  decide +kernel

/-- They come inside the window, past its slots. -/
theorem outrun_not_applies : ¬FlagApplies outrunCall.env outrunWithdrawal 2000000000 := by
  intro happlies
  have hin : InWindow outrunWithdrawal.userDeposit outrunCall.env.clock.unixTimestamp := by decide
  have hslot : outrunCall.env.clock.slot < unlockSlot outrunWithdrawal.userDeposit := by
    unfold FlagApplies at happlies
    rwa [show outrunWithdrawal.pool.kind = .limit from rfl, if_pos hin] at happlies
  exact absurd hslot (by decide)

theorem audit_flag_outrun : ∃ (l' : Ledger) (flag : Bool),
    FlagOf vaultDeployment outrunCall.env outrunCall.accounts outrunCall.data burst l'
      outrunWithdrawal 2000000000 flag ∧
    ((flag = true ↔ ConsumesOf deployment burst l' wallet) ↔
      FlagApplies outrunCall.env outrunWithdrawal 2000000000) := by
  obtain ⟨l', hprocess, -⟩ := outrun_succeeds
  obtain ⟨flag, hflag, hiff⟩ := audit_flag outrun_context.2 outrun_context.1 hprocess
  exact ⟨l', flag, hflag, hiff⟩

/-- A first withdrawal from a time-locked pool that used its proof is logged without
one, and two SOL that left a limit pool without a proof are logged with one. -/
theorem flag_lies :
    (∃ trace l', Run (Vault.Step vaultDeployment) genesis trace locked ∧
      (Vault.process vaultDeployment firstCall.env firstCall.accounts firstCall.data
        locked).Returns l' ∧
      FlagOf vaultDeployment firstCall.env firstCall.accounts firstCall.data locked l'
        lockedWithdrawal 500000000 false ∧
      ConsumesOf deployment locked l' wallet) ∧
    ∃ trace l', Run (Vault.Step vaultDeployment) genesis trace burst ∧
      (Vault.process vaultDeployment outrunCall.env outrunCall.accounts outrunCall.data
        burst).Returns l' ∧
      FlagOf vaultDeployment outrunCall.env outrunCall.accounts outrunCall.data burst l'
        outrunWithdrawal 2000000000 true ∧
      ¬ConsumesOf deployment burst l' wallet := by
  constructor
  · obtain ⟨trace, hrun, -⟩ := run_locked
    obtain ⟨l', hstep⟩ := first_succeeds
    cases hstep with
    | vault hprocess =>
      obtain ⟨hflag, hiff⟩ := flag_opposite withdraw_is locked_context.1 hprocess
        (show (choosePolicy .timeLocked lockedWithdrawal.userDeposit firstCall.env.clock
          500000000).Returns (.notBefore 150, false) by decide)
        (show ¬unlockSlot lockedWithdrawal.userDeposit ≤ firstCall.env.clock.slot by decide)
      exact ⟨trace, l', hrun, hprocess, hflag, hiff.mpr rfl⟩
  · obtain ⟨trace, hrun, -⟩ := run_burst
    obtain ⟨l', hprocess, -⟩ := outrun_succeeds
    obtain ⟨hflag, hiff⟩ := flag_opposite outrun_context.2 outrun_context.1 hprocess
      (show (choosePolicy .limit outrunWithdrawal.userDeposit outrunCall.env.clock
        2000000000).Returns (.notBefore 155, true) by decide)
      outrun_not_applies
    exact ⟨trace, l', hrun, hprocess, hflag, fun hconsumes => by cases hiff.mp hconsumes⟩

end Localnet

end Trana.Security
