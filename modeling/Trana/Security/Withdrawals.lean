import Trana.Security.Cooldown
import Trana.Security.ExactBalances
import Trana.Security.WireFormat
import Trana.Vault.Canonical

/-!
# Money that can be withdrawn

The withdrawal instruction the demo builds, from any reachable state: it goes
through exactly when the amount is positive, the user's balance covers it, and a
proof is there if the pool's policy asks for one. Bumps, other users'
withdrawals, the guard's accounts and the destination cannot get in its way.

* `duePolicy` — what a withdrawal has to be approved for, if anything.
* `invokeEnforce_iff` — the guard's answer.
* `tryAccounts_demo` — the accounts the demo lists satisfy the context.
* `withdrawal_succeeds_iff` — the whole.

This is about the instruction and not about the transaction around it. Two things
come on top there and are not modelled here: the fee, which the runtime takes
from the fee payer before the first instruction, and its check after the last
that every account it wrote to is rent-exempt or empty. A withdrawal of one
lamport to a fresh destination passes the program and fails that check.

`Approves` says that the transaction carries a proof that verifies: precompile
instruction in front, `record_proof` behind it, a registered key, the present
nonce, a challenge for the demo's instruction and an expiry to come. It has to
be there only when the policy fires, and which policy that is, `duePolicy` reads
off the pool's kind, the record, the clock and the amount.

The demo passes the registry's own address, which exists or not; for a policy
that does not fire the guard never looks.
-/

namespace Trana.Security

open Trana.Lib Trana.Lib.Exec Trana.Solana Trana.Vault

/-- The policy that is due for a withdrawal, if one is: before the unlock slot
in a time-locked pool or an open window, and for a whole limit outside of one. -/
def duePolicy (kind : PoolKind) (ud : UserDeposit) (clock : Clock) (amount : UInt64) :
    Option Guard.Policy :=
  match kind with
  | .timeLocked => if clock.slot < unlockSlot ud then some (.notBefore (unlockSlot ud)) else none
  | .limit =>
    if InWindow ud clock.unixTimestamp then
      if clock.slot < unlockSlot ud then some (.notBefore (unlockSlot ud)) else none
    else if withdrawLimit ≤ amount then some (.limit 0 withdrawLimit) else none

/-- The transaction carries a proof of the wallet's registry for this policy. -/
def Approves (d : Guard.Deployment) (env : Guard.Env) (l : Ledger) (w : Pubkey)
    (policy : Guard.Policy) : Prop :=
  ∃ r proof ix secpIx, Guard.registryOf d l w = some r ∧
    Guard.Verified env.clock env.ixSysvar r w d.programId env.ixSysvar.currentIndex policy.domain
      proof ix secpIx

/-- The demo's withdrawal, with the addresses derived for this user and pool. -/
def demoWithdrawal (d : Vault.Deployment) (pool w destination : Pubkey) (lamports : ℤ) :
    Instruction :=
  Landing.buildWithdrawIx pool (d.findDeposit pool w).1 w destination (d.guard.findRegistry w)
    lamports

section Policy

variable {d : Vault.Deployment} {env : Guard.Env} {l l' : Ledger} {kind : PoolKind}
  {ud : UserDeposit} {amount : UInt64} {policy : Guard.Policy} {proofUsed : Bool}

/-- Due is the policy that was chosen, when it fires. -/
theorem duePolicy_eq (hamount : Guard.protectedU64 env.ixSysvar 0 = some amount)
    (hchosen : (choosePolicy kind ud env.clock amount).Returns (policy, proofUsed)) :
    policy.evaluable env = true ∧
      duePolicy kind ud env.clock amount = if policy.fires env then some policy else none := by
  -- a slot decides in two of the three cases
  have hbefore : (if env.clock.slot < unlockSlot ud then
        some (Guard.Policy.notBefore (unlockSlot ud)) else none) =
      if (Guard.Policy.notBefore (unlockSlot ud)).fires env then
        some (.notBefore (unlockSlot ud)) else none :=
    if_congr Guard.Policy.fires_notBefore.symm rfl rfl
  cases kind with
  | timeLocked =>
    obtain ⟨rfl, -⟩ := choosePolicy_timeLocked hchosen
    exact ⟨rfl, hbefore⟩
  | limit =>
    rcases choosePolicy_limit hchosen with ⟨hin, rfl, -⟩ | ⟨hout, rfl, -⟩
    · refine ⟨rfl, ?_⟩
      rw [duePolicy, if_pos hin]
      exact hbefore
    -- the demo's instruction is top-level, so the guard reads the amount the vault has
    · have hfires : (Guard.Policy.limit 0 withdrawLimit).fires env = true ↔
          withdrawLimit ≤ amount := by
        rw [Guard.Policy.fires_limit, hamount]
        simp
      refine ⟨?_, ?_⟩
      · show (Guard.protectedU64 env.ixSysvar 0).isSome = true
        rw [hamount]
        rfl
      · rw [duePolicy, if_neg hout]
        exact if_congr hfires.symm rfl rfl

/-- A program that hands a wallet's registry through is let go on exactly when
its policy does not fire or the proof is there. -/
theorem invokeEnforce_iff {d : Guard.Deployment} {w : Pubkey} (hl : Guard.Layout d l)
    (heval : policy.evaluable env = true) :
    (∃ called, (Guard.invokeEnforce d env ⟨d.findRegistry w, w⟩ policy l).Returns called) ↔
      (policy.fires env = true → Approves d env l w policy) := by
  have hctx : (Guard.Enforce.tryAccounts
      (Guard.Enforce.toAccountMetas ⟨d.findRegistry w, w⟩)).Returns ⟨d.findRegistry w, w⟩ := rfl
  have hnames : Guard.Names (Guard.Enforce.toAccountMetas ⟨d.findRegistry w, w⟩)
      (d.findRegistry w) w := ⟨rfl, _, rfl, rfl, rfl⟩
  constructor
  · intro hcall hfires
    obtain ⟨called, hcall⟩ := hcall
    obtain ⟨ix, hix, hrun⟩ := returns_bind.mp hcall
    obtain rfl := (Guard.parse_enforceData policy).unique hix
    cases Guard.enforce_effect hrun with
    | enforceFree idle evaluable same => cases idle.symm.trans hfires
    | enforceProof w key r names fires found owner_eq verified stores =>
      -- the registry that was checked is the one stored at the wallet's address
      obtain ⟨rfl, rfl⟩ := names.unique hnames
      obtain ⟨proof, ix, secpIx, hverified⟩ := verified
      exact ⟨r, proof, ix, secpIx, found, hverified⟩
  · intro happroves
    have hparsed := Guard.parse_enforceData policy
    by_cases hfires : policy.fires env = true
    · obtain ⟨r, proof, ix, secpIx, hfound, hverified⟩ := happroves hfires
      obtain ⟨called, hcalled, -⟩ := Guard.execute_enforce_of env policy hctx hfires hfound
        (hl.owner_eq hfound) hverified
      exact ⟨called, returns_bind.mpr ⟨_, hparsed, hcalled⟩⟩
    · have hidle : policy.fires env = false := Bool.eq_false_iff.mpr hfires
      exact ⟨l, returns_bind.mpr ⟨_, hparsed, Guard.execute_enforce_idle hctx hidle heval⟩⟩

/-- So is a withdrawal. -/
theorem cpiEnforce_iff {ctx : Withdraw} (hl : Guard.Layout d.guard l)
    (hregistry : ctx.tranaRegistry = d.guard.findRegistry ctx.owner)
    (heval : policy.evaluable env = true) :
    (∃ called, (cpiEnforce d env ctx policy l).Returns called) ↔
      (policy.fires env = true → Approves d.guard env l ctx.owner policy) := by
  simp only [cpiEnforce, Withdraw.cpiContext, hregistry, returns_embed]
  exact invokeEnforce_iff hl heval

end Policy

section Demo

variable {d : Vault.Deployment} {l : Ledger} {pool w destination : Pubkey} {p : Pool}
  {ud : UserDeposit}

/-- The context of the demo's withdrawal. -/
def demoContext (d : Vault.Deployment) (pool w destination : Pubkey) (p : Pool)
    (ud : UserDeposit) : Withdraw where
  poolKey := pool
  pool := p
  userDepositKey := (d.findDeposit pool w).1
  userDeposit := ud
  owner := w
  destination := destination
  tranaRegistry := d.guard.findRegistry w

/-- Where pools and records carry their bumps, the listed accounts satisfy it. -/
theorem tryAccounts_demo (destination : Pubkey) (lamports : ℤ)
    (hguard : d.guard.programId = Landing.guardProgram) (hcanonical : Canonical d l)
    (hp : poolAt l pool = some p) (hud : depositAt l (d.findDeposit pool w).1 = some ud)
    (hpool : ud.pool = pool) (huser : ud.user = w) :
    (Withdraw.tryAccounts d (demoWithdrawal d pool w destination lamports).accounts l).Returns
      (demoContext d pool w destination p ud) := by
  have hpoolBump := hcanonical.pools pool p hp
  have hrecordBump := hcanonical.records _ ud hud
  rw [hpool, huser] at hrecordBump
  simp only [demoWithdrawal, Landing.buildWithdrawIx, Withdraw.tryAccounts, returns_bind,
    returns_signer, returns_programAccount, returns_constraintBump, returns_constraintMut,
    returns_constraintRaw, returns_constraintAddress, returns_pure, exists_const]
  exact ⟨p, load_of_accountAt vaultId_ne_system hp, ud, load_of_accountAt vaultId_ne_system hud, w,
    ⟨trivial, rfl⟩, hguard.symm, hpoolBump, trivial, hrecordBump, trivial, hpool, huser, trivial,
    trivial, trivial, rfl⟩

/-- And no other context is read from them. -/
theorem demoContext_of_tryAccounts (lamports : ℤ) {ctx : Withdraw}
    (h : (Withdraw.tryAccounts d (demoWithdrawal d pool w destination lamports).accounts
      l).Returns ctx) :
    ctx = demoContext d pool w destination ctx.pool ctx.userDeposit := by
  simp only [demoWithdrawal, Landing.buildWithdrawIx, Withdraw.tryAccounts, returns_bind,
    returns_signer, returns_pure] at h
  obtain ⟨p, -, ud, -, _, ⟨-, rfl⟩, _, -, _, -, _, -, _, -, _, -, _, -, _, -, _, -, _, -, _, -,
    rfl⟩ := h
  rfl

/-- A positive balance is kept in a record of this pool and user. -/
theorem record_of_balance (h : 0 < balanceOf d pool l w) :
    ∃ ud, depositAt l (d.findDeposit pool w).1 = some ud ∧ ud.pool = pool ∧ ud.user = w ∧
      balanceOf d pool l w = ud.balance.toNat := by
  cases hud : depositAt l (d.findDeposit pool w).1 with
  | none =>
    rw [balanceOf, heldAt_none hud] at h
    exact absurd h (Nat.lt_irrefl 0)
  | some ud =>
    by_cases hnamed : ud.pool = pool ∧ ud.user = w
    · obtain ⟨rfl, rfl⟩ := hnamed
      exact ⟨ud, rfl, rfl, rfl, heldAt_self hud⟩
    · rw [balanceOf, heldAt_of_ne hud hnamed] at h
      exact absurd h (Nat.lt_irrefl 0)

/-- The pool has the lamports, and the destination the room for them. -/
theorem canMove_demo {amount : UInt64} (hcovers : Covers 0 pool l)
    (hud : depositAt l (d.findDeposit pool w).1 = some ud) (hpool : ud.pool = pool)
    (hbalance : amount ≤ ud.balance)
    (hroom : destination ≠ pool →
      (l pool).lamports.toNat + (l destination).lamports.toNat < 2 ^ 64) :
    CanMove l pool destination amount := by
  -- the pool covers all records, and so this one, and so the amount
  have hone := (covers_iff.mp hcovers).covers (d.findDeposit pool w).1
  rw [balanceIn_of_record hud, if_pos hpool] at hone
  have hle := UInt64.le_iff_toNat_le.mp hbalance
  have hcovered : amount ≤ (l pool).lamports := by
    rw [UInt64.le_iff_toNat_le]
    omega
  refine ⟨hcovered, ?_⟩
  by_cases hdst : destination = pool
  · -- what the pool sends to itself was in it before
    rw [hdst, Ledger.set_self]
    show ((l pool).lamports - amount).toNat + amount.toNat < 2 ^ 64
    rw [UInt64.toNat_sub_of_le _ _ hcovered]
    have hlt := (l pool).lamports.toNat_lt
    omega
  · rw [Ledger.set_of_ne _ hdst]
    have hsum := hroom hdst
    omega

end Demo

/-- In every reachable state the demo's withdrawal instruction goes through exactly
when its amount is positive and within the user's balance, and a proof is there if
a policy is due. The fee and the rent check of its transaction come on top. -/
theorem withdrawal_succeeds_iff {d : Vault.Deployment} {l₀ l : Ledger}
    {trace : List Vault.Moment} {pool w destination : Pubkey} {lamports : ℤ} {p : Pool}
    {env : Guard.Env} (hguard : d.guard.programId = Landing.guardProgram)
    (hvault : Ledger.Genesis vaultId l₀) (hgenesis : Ledger.Genesis d.guard.programId l₀)
    (hapart : Apart d trace) (hrun : Run (Vault.Step d) l₀ trace l)
    (hp : poolAt l pool = some p)
    (htop : env.ixSysvar.instructions[env.ixSysvar.currentIndex.toNat]? =
      some (demoWithdrawal d pool w destination lamports))
    (hnow : 0 ≤ env.clock.unixTimestamp)
    (hroom : destination ≠ pool →
      (l pool).lamports.toNat + (l destination).lamports.toNat < 2 ^ 64) :
    (∃ l', Vault.Step d l (.vault ⟨env, (demoWithdrawal d pool w destination lamports).accounts,
        (demoWithdrawal d pool w destination lamports).data⟩) l') ↔
      0 < Landing.lowU64 lamports ∧
      (Landing.lowU64 lamports).toNat ≤ balanceOf d pool l w ∧
      ∀ ud policy, depositAt l (d.findDeposit pool w).1 = some ud →
        duePolicy p.kind ud env.clock (Landing.lowU64 lamports) = some policy →
        Approves d.guard env l w policy := by
  generalize hamount : Landing.lowU64 lamports = amount
  have hparsed : (parseInstruction (demoWithdrawal d pool w destination lamports).data).Returns
      (.withdraw amount) := by
    rw [← hamount]
    exact vault_wire.mpr ⟨_, [], withdraw_data .., (List.append_nil _).symm⟩
  -- the instruction is the transaction's own, so the amount shown is the amount asked for
  have hshown : Guard.protectedU64 env.ixSysvar 0 = some amount :=
    protectedU64_eq_some.mpr ⟨_, htop, u64At_withdraw hparsed⟩
  have hlayout : Guard.Layout d.guard l :=
    hrun.invariant (fun _ _ _ hl hstep => layout_step hl hstep) (Guard.layout_genesis hgenesis)
  have hcanonical := canonical_run hvault hrun
  obtain ⟨hinv, -⟩ := accounted_run hvault hapart hrun
  constructor
  · rintro ⟨l', hstep⟩
    cases hstep with
    | vault h =>
      obtain ⟨ix, hix, hwithdraw⟩ := returns_bind.mp h
      obtain rfl := hix.unique hparsed
      obtain ⟨ctx, policy, proofUsed, called, ud', hctx, heffect⟩ := withdraw_effect hwithdraw
      have hfound := heffect.found
      have hrecord := heffect.record
      have hpool := heffect.pool_eq
      have huser := heffect.user_eq
      have hbalance := UInt64.le_iff_toNat_le.mp heffect.balance
      have hchosen := heffect.chosen
      have hcall := heffect.call
      -- the accounts are the demo's: what the handler found is what is stored there
      have hcontext := demoContext_of_tryAccounts lamports hctx
      rw [hcontext] at hfound hrecord hpool huser hbalance hchosen hcall
      dsimp only [demoContext] at hfound hrecord hpool huser hbalance hchosen
      obtain rfl := Option.some.inj (hfound.symm.trans hp)
      have hheld := heldAt_self hrecord
      rw [hpool, huser] at hheld
      obtain ⟨heval, hdue⟩ := duePolicy_eq hshown hchosen
      refine ⟨heffect.amount_pos, by rw [balanceOf, hheld]; exact hbalance, ?_⟩
      intro ud policy' hud hpolicy'
      obtain rfl := Option.some.inj (hrecord.symm.trans hud)
      rw [hdue] at hpolicy'
      split at hpolicy'
      next hfires =>
        obtain rfl := Option.some.inj hpolicy'
        exact (cpiEnforce_iff hlayout rfl heval).mp ⟨called, hcall⟩ hfires
      next => cases hpolicy'
  · rintro ⟨hpos, hbalance, happroved⟩
    have hpositive : 0 < amount.toNat := UInt64.lt_iff_toNat_lt.mp hpos
    -- a positive balance has a record, with the canonical bump
    obtain ⟨ud, hud, hpool, huser, hheld⟩ :=
      record_of_balance (Nat.lt_of_lt_of_le hpositive hbalance)
    have hle : amount ≤ ud.balance := by
      rw [UInt64.le_iff_toNat_le, ← hheld]
      exact hbalance
    have hctx := tryAccounts_demo destination lamports hguard hcanonical hp hud hpool huser
    obtain ⟨policy, proofUsed, hchosen⟩ := choosePolicy_of p.kind ud amount hnow
    obtain ⟨heval, hdue⟩ := duePolicy_eq hshown hchosen
    have hlets : ∃ called,
        (cpiEnforce d env (demoContext d pool w destination p ud) policy l).Returns called :=
      (cpiEnforce_iff hlayout rfl heval).mpr fun hfires =>
        happroved ud policy hud (by rw [hdue, if_pos hfires])
    obtain ⟨called, hcall⟩ := hlets
    obtain ⟨ud', hrecorded⟩ := recordWithdrawal_of p.kind proofUsed hnow hle
    obtain ⟨l', hl'⟩ := execute_withdraw_of hctx hpos hle hchosen hcall
      (canMove_demo (hinv.covered pool p hp) hud hpool hle hroom) hrecorded
    exact ⟨l', .vault (returns_bind.mpr ⟨_, hparsed, hl'⟩)⟩

section Devnet

open Sdk.Localnet

/-- The vault next to the guard the demo runs with, with this wallet's addresses. -/
def devnetVault : Vault.Deployment where
  guard :=
    { deployment with
      programId := Guard.devnetId
      programId_ne := devnetId_ne_system
      programId_ne_secp := devnetId_ne_secp }
  findPool := vaultDeployment.findPool
  findDeposit := vaultDeployment.findDeposit
  createPool := vaultDeployment.createPool
  createDeposit := vaultDeployment.createDeposit
  guard_ne := by decide
  createPool_find := vaultDeployment.createPool_find
  createDeposit_find := vaultDeployment.createDeposit_find

/-- The wallet's pool, with three SOL in it. -/
def demoLabels : List Vault.Label :=
  [.vault (vaultCall ⟨5, 500⟩ initializePoolIx), .vault (vaultCall ⟨5, 500⟩ depositIx)]

def demoLedger : Ledger := (runLabels devnetVault genesis demoLabels).getD genesis

theorem run_demo : ∃ trace, Run (Vault.Step devnetVault) genesis trace demoLedger ∧
    trace.map Transition.label = demoLabels := by
  have hsome : (runLabels devnetVault genesis demoLabels).isSome = true := by decide +kernel
  obtain ⟨l, hl⟩ := Option.isSome_iff_exists.mp hsome
  have hdemo : demoLedger = l := by rw [demoLedger, hl]; rfl
  rw [hdemo]
  exact run_of_runLabels hl

theorem demo_accounts : poolAt demoLedger poolPda = some ⟨wallet, .limit, "", 251⟩ ∧
    depositAt demoLedger depositPda = some ⟨poolPda, wallet, 3000000000, 0, 0, 0, 255⟩ ∧
    (demoLedger poolPda).lamports.toNat + (demoLedger treasury).lamports.toNat < 2 ^ 64 := by
  decide +kernel

/-- Half a SOL out of it, to the treasury. -/
def halfIx : Instruction := demoWithdrawal devnetVault poolPda wallet treasury 500000000

theorem withdrawal_succeeds_devnet : ∃ trace l', Run (Vault.Step devnetVault) genesis trace
      demoLedger ∧ trace.map Transition.label = demoLabels ∧
    Vault.Step devnetVault demoLedger (.vault (vaultCall ⟨5, 500⟩ halfIx)) l' := by
  obtain ⟨trace, hrun, hlabels⟩ := run_demo
  obtain ⟨hpool, hud, hroom⟩ := demo_accounts
  have hapart : Apart devnetVault trace := apart_poolLabels fun t ht => by
    have hmem : t.label ∈ demoLabels := hlabels ▸ List.mem_map_of_mem ht
    exact List.mem_of_mem_take (i := 2) hmem
  have hheld : balanceOf devnetVault poolPda demoLedger wallet = (3000000000 : UInt64).toNat := by
    have hfound : heldAt demoLedger depositPda poolPda wallet = (3000000000 : UInt64).toNat := by
      rw [heldAt, hud]
      exact if_pos ⟨rfl, rfl⟩
    exact hfound
  have hcovered : (Landing.lowU64 500000000).toNat ≤
      balanceOf devnetVault poolPda demoLedger wallet := by
    rw [hheld]
    decide
  -- half a SOL is below the limit, outside any window
  have hfree : duePolicy .limit ⟨poolPda, wallet, 3000000000, 0, 0, 0, 255⟩ ⟨5, 500⟩
      (Landing.lowU64 500000000) = none := by decide
  have hsucceeds :
      ∃ l', Vault.Step devnetVault demoLedger (.vault (vaultCall ⟨5, 500⟩ halfIx)) l' :=
    (withdrawal_succeeds_iff rfl (genesis_of_ne vaultId_ne_system)
      (genesis_of_ne devnetVault.guard.programId_ne) hapart hrun hpool rfl (by decide)
      fun _ => hroom).mpr ⟨by decide, hcovered, fun ud policy hud' hdue => by
        obtain rfl := Option.some.inj (hud.symm.trans hud')
        cases hfree.symm.trans hdue⟩
  obtain ⟨l', hstep⟩ := hsucceeds
  exact ⟨trace, l', hrun, hlabels, hstep⟩

end Devnet

end Trana.Security
