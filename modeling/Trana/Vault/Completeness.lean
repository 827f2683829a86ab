import Trana.Vault.ProgramSpec

/-!
# What suffices for a withdrawal to succeed

The converse of `withdraw_effect`: when the context is satisfied, the checks
pass, the guard lets the call through and the lamports are there, the
withdrawal succeeds. The write of the record cannot fail, as all records have
one size, and neither can that of the pool, which is what it was.

* `CanMove` — the two lamport writes succeed: the pool has the amount, and the
  destination does not overflow. The destination may be the pool itself; then
  the amount comes back.
* `inDrainWindow_of`, `choosePolicy_of`, `recordWithdrawal_of` — after the epoch
  there is always a policy, and a record to write: the subtraction of two times
  overflows for a clock before 1970 only.
* `execute_withdraw_of` — the theorem.

This is about the instruction. The transaction around it also takes a fee and is
refused when it leaves an account below the rent it needs.
-/

namespace Trana.Vault

open Trana.Lib Trana.Lib.Exec Trana.Solana Trana.Guard

variable {d : Deployment} {env : Env} {accounts : List AccountMeta} {l l' : Ledger}

/-- A record is its seven fields, in a row. -/
theorem write_userDeposit_eq (ud : UserDeposit) : UserDeposit.codec.write ud =
    some (ud.pool.bytes ++ (ud.user.bytes ++ (leBytes 8 ud.balance.toNat ++
      (leBytes 8 ud.lastWithdrawSlot.toNat ++ (leBytes 8 ud.windowWithdrawn.toNat ++
        (leBytes 8 ud.lastWithdrawAt.toUInt64.toNat ++ leBytes 1 ud.bump.toNat)))))) := by
  simp [UserDeposit.codec, Codec.map, Codec.pair, Pubkey.codec, Codec.bytesN, Codec.u64,
    Codec.i64, Codec.ofWord, Codec.u8]

/-- All records have one size. -/
theorem write_userDeposit (ud : UserDeposit) :
    ∃ body, UserDeposit.codec.write ud = some body ∧ body.length = 97 := by
  refine ⟨_, write_userDeposit_eq ud, ?_⟩
  simp only [List.length_append, length_leBytes, ud.pool.length_eq, ud.user.length_eq]

/-- The lamports are there, and the destination can take them. -/
def CanMove (l : Ledger) (src dst : Pubkey) (amount : UInt64) : Prop :=
  amount ≤ (l src).lamports ∧
    (l.set src { l src with lamports := (l src).lamports - amount } dst).lamports.toNat +
      amount.toNat < 2 ^ 64

/-- Then the two writes succeed. -/
theorem moveLamports_of {src dst : Pubkey} {amount : UInt64} (h : CanMove l src dst amount) :
    ∃ l', (moveLamports l src dst amount).Returns l' := by
  simp only [moveLamports, returns_bind, returns_u64Sub, returns_u64Add, returns_pure]
  exact ⟨_, _, ⟨h.1, rfl⟩, _, ⟨h.2, rfl⟩, rfl⟩

/-- The call to the guard changes neither lamports nor owners. -/
theorem CanMove.of_call {ctx : Withdraw} {policy : Policy} {called : Ledger} {src dst : Pubkey}
    {amount : UInt64} (hcall : (cpiEnforce d env ctx policy l).Returns called)
    (h : CanMove l src dst amount) : CanMove called src dst amount := by
  obtain ⟨hkept, -⟩ := Guard.invokeEnforce_frame (returns_embed.mp hcall)
  obtain ⟨hle, hlt⟩ := h
  refine ⟨by rwa [(hkept src).1], ?_⟩
  by_cases hdst : dst = src
  · subst hdst
    rw [Ledger.set_self] at hlt ⊢
    rwa [(hkept dst).1]
  · rw [Ledger.set_of_ne _ hdst] at hlt ⊢
    rwa [(hkept dst).1]

/-- Context, checks, the guard's answer and the lamports are all it takes. -/
theorem execute_withdraw_of {ctx : Withdraw} {amount : UInt64} {policy : Policy} {proofUsed : Bool}
    {called : Ledger} {ud : UserDeposit} (hctx : (Withdraw.tryAccounts d accounts l).Returns ctx)
    (hpos : 0 < amount) (hbalance : amount ≤ ctx.userDeposit.balance)
    (hchosen : (choosePolicy ctx.pool.kind ctx.userDeposit env.clock amount).Returns
      (policy, proofUsed))
    (hcall : (cpiEnforce d env ctx policy l).Returns called)
    (hmove : CanMove l ctx.poolKey ctx.destination amount)
    (hrecord : (recordWithdrawal ctx.pool.kind ctx.userDeposit env.clock amount
      proofUsed).Returns ud) :
    ∃ l', (execute d env accounts (.withdraw amount) l).Returns l' := by
  obtain ⟨hpool, hfound, -, -⟩ := withdraw_tryAccounts hctx
  obtain ⟨hkept, hdata⟩ := Guard.invokeEnforce_frame (returns_embed.mp hcall)
  obtain ⟨moved, hmoved⟩ := moveLamports_of (hmove.of_call hcall)
  have hsame := moveLamports_sameState hmoved
  -- neither account is the guard's
  have hstate : ∀ k, (l k).owner = vaultId →
      (moved k).owner = (l k).owner ∧ (moved k).data = (l k).data := by
    intro k hk
    have hne : (l k).owner ≠ d.guard.programId := fun heq => d.guard_ne (heq.symm.trans hk)
    exact ⟨(hsame k).1.trans (hkept k).2, (hsame k).2.trans (hdata k hne)⟩
  have hpool' : poolAt moved ctx.poolKey = some ctx.pool := by
    rw [poolAt_congr (hstate _ (accountAt_eq_some.mp hpool).1), hpool]
  have hfound' : depositAt moved ctx.userDepositKey = some ctx.userDeposit := by
    rw [depositAt_congr (hstate _ (accountAt_eq_some.mp hfound).1), hfound]
  obtain ⟨image, -, himage, -⟩ := AccountLayout.image_of_tryDeserialize
    (accountAt_eq_some.mp hpool').2
  -- the pool is written back as it was
  obtain ⟨l₁, hexit⟩ := exitAccount_replaces hpool' himage fun body hbody => by
    rw [Option.some.inj (himage.symm.trans hbody)]
  obtain rfl := exitAccount_unchanged hpool' hexit
  obtain ⟨body', hbody', hlen'⟩ := write_userDeposit ud
  obtain ⟨l', hexit'⟩ := exitAccount_replaces hfound' hbody' fun body hbody => by
    obtain ⟨body₀, hbody₀, hlen₀⟩ := write_userDeposit ctx.userDeposit
    obtain rfl := Option.some.inj (hbody₀.symm.trans hbody)
    rw [hlen', hlen₀]
  refine ⟨l', ?_⟩
  simp only [execute, returns_bind, withdraw, returns_require, returns_emit, returns_pure,
    exists_const, true_and]
  exact ⟨ctx, hctx, _, ⟨hpos, hbalance, _, hchosen, called, hcall, _, hmoved, ud, hrecord, rfl⟩, _,
    hexit, hexit'⟩

/-! ## The parts of a withdrawal -/

/-- After the epoch the time since the last withdrawal is a 64-bit number. -/
theorem inDrainWindow_of {now : Int64} (ud : UserDeposit) (hnow : 0 ≤ now) :
    (inDrainWindow ud now).Returns (decide (InWindow ud now)) := by
  have hfits : ∃ b, (inDrainWindow ud now).Returns b := by
    unfold inDrainWindow
    by_cases hpos : ud.lastWithdrawAt > 0
    · rw [if_pos hpos]
      have hlow : 0 ≤ now.toInt := Int64.le_iff_toInt_le.mp hnow
      have hlast : 0 < ud.lastWithdrawAt.toInt := Int64.lt_iff_toInt_lt.mp hpos
      have hhigh := now.toInt_lt
      have hhigh' := ud.lastWithdrawAt.toInt_lt
      simp only [returns_bind, returns_i64Sub, returns_pure]
      exact ⟨_, _, ⟨⟨by omega, by omega⟩, rfl⟩, rfl⟩
    · rw [if_neg hpos]
      exact ⟨_, returns_pure.mpr rfl⟩
  obtain ⟨b, hb⟩ := hfits
  rw [← inDrainWindow_eq hb]
  exact hb

/-- So there is a policy for every withdrawal. -/
theorem choosePolicy_of {clock : Clock} (kind : PoolKind) (ud : UserDeposit) (amount : UInt64)
    (hnow : 0 ≤ clock.unixTimestamp) :
    ∃ policy proofUsed, (choosePolicy kind ud clock amount).Returns (policy, proofUsed) := by
  cases kind with
  | timeLocked => exact ⟨_, _, returns_pure.mpr rfl⟩
  | limit =>
    refine ⟨_, _, returns_bind.mpr ⟨_, inDrainWindow_of ud hnow, returns_pure.mpr rfl⟩⟩

/-- And a record after it, when the balance suffices. -/
theorem recordWithdrawal_of {clock : Clock} {ud : UserDeposit} {amount : UInt64} (kind : PoolKind)
    (proofUsed : Bool) (hnow : 0 ≤ clock.unixTimestamp) (hbalance : amount ≤ ud.balance) :
    ∃ ud', (recordWithdrawal kind ud clock amount proofUsed).Returns ud' := by
  have hsub : (u64Sub ud.balance amount : Result UInt64).Returns (ud.balance - amount) :=
    returns_u64Sub.mpr ⟨hbalance, rfl⟩
  cases kind with
  | timeLocked => exact ⟨_, returns_bind.mpr ⟨_, hsub, returns_pure.mpr rfl⟩⟩
  | limit =>
    -- the balance does not matter for the window
    have hwindow := inDrainWindow_of { ud with balance := ud.balance - amount } hnow
    cases proofUsed with
    | true =>
      exact ⟨_, returns_bind.mpr ⟨_, hsub, returns_bind.mpr ⟨_, hwindow, returns_pure.mpr rfl⟩⟩⟩
    | false =>
      exact ⟨_, returns_bind.mpr ⟨_, hsub, returns_bind.mpr ⟨_, hwindow, returns_pure.mpr rfl⟩⟩⟩

end Trana.Vault
