import Trana.Vault.State

/-!
# trana_test_vault: the instructions

`lib.rs` of the demo vault: account contexts, handlers and dispatch, in the
shape of `Guard/Program.lean`. The one call to another program is `enforce`,
which runs the guard on the accounts handed through.

* `InitializePool`, `Deposit`, `Withdraw` — the accounts of each instruction;
  `tryAccounts` validates them in the order Anchor's derive macro does: types in
  the order of the fields, then what is created, then the constraints.
* `choosePolicy`, `recordWithdrawal` — the two halves of `withdraw` around the
  CPI: which policy is enforced, and what the record remembers afterwards.
* `process` — one invocation, dispatched on its discriminator.

Arithmetic is as in the release profile: plain `+` and `-` are checked and panic,
`saturating_add` saturates. `withdraw` moves lamports by writing to the two
accounts, which the runtime lets the pool's owner do; that a transaction as a
whole must leave accounts rent exempt is the runtime's check after the last
instruction, and is not modelled here.
-/

namespace Trana.Vault

open Trana.Lib Trana.Lib.Exec Trana.Solana Trana.Guard

/-- The vault's derived addresses, with their canonical bumps. -/
structure Deployment where
  guard : Guard.Deployment
  findPool : Pubkey → Pubkey × UInt8
  findDeposit : Pubkey → Pubkey → Pubkey × UInt8
  createPool : Pubkey → UInt8 → Option Pubkey
  createDeposit : Pubkey → Pubkey → UInt8 → Option Pubkey
  guard_ne : guard.programId ≠ vaultId
  createPool_find : ∀ authority,
    createPool authority (findPool authority).2 = some (findPool authority).1
  createDeposit_find : ∀ pool user,
    createDeposit pool user (findDeposit pool user).2 = some (findDeposit pool user).1

/-- Fewer accounts than the context has. -/
def notEnoughKeys {α : Type} : Result α := fail (.anchor .accountNotEnoughKeys)

/-- `a.saturating_add(b)` -/
def saturatingAdd (a b : UInt64) : UInt64 :=
  if a.toNat + b.toNat < 2 ^ 64 then a + b else UInt64.ofNat (2 ^ 64 - 1)

/-! ## Initialize pool -/

/-- The accounts of `initialize_pool`, and the bump its seeds gave. -/
structure InitializePool where
  pool : Pubkey
  authority : Pubkey
  bump : UInt8

/-- Only the authority signs; it pays for the pool's account. -/
def InitializePool.tryAccounts (d : Deployment) (env : Env) (accounts : List AccountMeta)
    (l : Ledger) : Result (InitializePool × Ledger) :=
  match accounts with
  | pool :: authority :: systemProgram :: _ => do
    let authorityKey ← signer authority
    programAccount systemProgram systemProgramId
    constraintSeeds pool (d.findPool authorityKey).1
    let l ← okOr (l.initAccount env.minimumBalance authorityKey pool.pubkey vaultId
      Pool.layout.space) .system
    constraintMut pool
    constraintMut authority
    pure (⟨pool.pubkey, authorityKey, (d.findPool authorityKey).2⟩, l)
  | _ => notEnoughKeys

/-- Create the shared pool. -/
def initializePool (ctx : InitializePool) (kind : PoolKind) (label : String) : Result Pool := do
  -- `require!(label.len() <= 32)`: bytes of UTF-8, not characters
  require ((Codec.utf8 label).length ≤ 32) .labelTooLong
  emit (.poolInitialized ctx.pool ctx.authority label)
  pure ⟨ctx.authority, kind, label, ctx.bump⟩

/-! ## Deposit -/

/-- The accounts of `deposit`, with the record's bump. -/
structure Deposit where
  poolKey : Pubkey
  pool : Pool
  userDepositKey : Pubkey
  userDeposit : UserDeposit
  depositor : Pubkey
  bump : UInt8

/-- Anyone may deposit into any pool; the record is the depositor's, and is created
on the first deposit. -/
def Deposit.tryAccounts (d : Deployment) (env : Env) (accounts : List AccountMeta) (l : Ledger) :
    Result (Deposit × Ledger) :=
  match accounts with
  | pool :: userDeposit :: depositor :: systemProgram :: _ => do
    let p ← loadAccount Pool.layout vaultId (l pool.pubkey)
    let depositorKey ← signer depositor
    programAccount systemProgram systemProgramId
    let found := d.findDeposit pool.pubkey depositorKey
    constraintSeeds userDeposit found.1
    let (ud, l) ← initIfNeeded UserDeposit.layout vaultId env.minimumBalance depositorKey
      userDeposit.pubkey l
    constraintBump pool (d.createPool p.authority p.bump)
    constraintMut pool
    constraintMut userDeposit
    constraintMut depositor
    pure (⟨pool.pubkey, p, userDeposit.pubkey, ud, depositorKey, found.2⟩, l)
  | _ => notEnoughKeys

/-- Deposit SOL into the shared pool. -/
def deposit (ctx : Deposit) (amount : UInt64) (l : Ledger) : Result (UserDeposit × Ledger) := do
  require (amount > 0) .zeroAmount
  let l ← invokeTransfer l ctx.depositor ctx.poolKey amount
  let ud :=
    -- a record with the default key for its pool is a new one
    if ctx.userDeposit.pool = systemProgramId then
      { ctx.userDeposit with pool := ctx.poolKey, user := ctx.depositor, bump := ctx.bump }
    else ctx.userDeposit
  let ud := { ud with balance := saturatingAdd ud.balance amount }
  emit (.deposited ctx.poolKey ctx.depositor amount ud.balance)
  pure (ud, l)

/-! ## Withdraw -/

/-- The accounts of `withdraw`. -/
structure Withdraw where
  poolKey : Pubkey
  pool : Pool
  userDepositKey : Pubkey
  userDeposit : UserDeposit
  owner : Pubkey
  destination : Pubkey
  tranaRegistry : Pubkey
  deriving DecidableEq

/-- The record must be the signer's, in this pool; the destination is any account. -/
def Withdraw.tryAccounts (d : Deployment) (accounts : List AccountMeta) (l : Ledger) :
    Result Withdraw :=
  match accounts with
  | pool :: userDeposit :: owner :: destination :: tranaGuardProgram :: tranaRegistry ::
      instructions :: _ => do
    let p ← loadAccount Pool.layout vaultId (l pool.pubkey)
    let ud ← loadAccount UserDeposit.layout vaultId (l userDeposit.pubkey)
    let ownerKey ← signer owner
    programAccount tranaGuardProgram d.guard.programId
    constraintBump pool (d.createPool p.authority p.bump)
    constraintMut pool
    constraintBump userDeposit (d.createDeposit pool.pubkey ownerKey ud.bump)
    constraintMut userDeposit
    constraintRaw (ud.pool = pool.pubkey)
    constraintRaw (ud.user = ownerKey)
    constraintMut destination
    constraintMut tranaRegistry
    constraintAddress instructions instructionsId
    pure ⟨pool.pubkey, p, userDeposit.pubkey, ud, ownerKey, destination.pubkey,
      tranaRegistry.pubkey⟩
  | _ => notEnoughKeys

/-- A prior withdrawal lies within the drain window. -/
def inDrainWindow (ud : UserDeposit) (now : Int64) : Result Bool :=
  if ud.lastWithdrawAt > 0 then do
    -- `now - last`: checked, and only when there was a withdrawal
    let elapsed ← i64Sub now ud.lastWithdrawAt
    pure (elapsed < drainWindow)
  else pure false

/-- The policy of a withdrawal, and the flag that it needs a proof. -/
def choosePolicy (kind : PoolKind) (ud : UserDeposit) (clock : Clock) (amount : UInt64) :
    Result (Policy × Bool) :=
  let unlockSlot := saturatingAdd ud.lastWithdrawSlot cooldownSlots
  match kind with
  -- the flag is `false` even where the policy asks for a proof
  | .timeLocked => pure (.notBefore unlockSlot, false)
  | .limit => do
    let inWindow ← inDrainWindow ud clock.unixTimestamp
    -- `param_offset: 0`: the guard reads the amount from the data of the instruction
    -- at the top of the transaction, not from this call's
    let p := if inWindow then .notBefore unlockSlot else .limit 0 withdrawLimit
    pure (p, inWindow || decide (amount ≥ withdrawLimit))

/-- The registry and the owner that are handed on. -/
def Withdraw.cpiContext (ctx : Withdraw) : Guard.Enforce := ⟨ctx.tranaRegistry, ctx.owner⟩

/-- `trana_guard::cpi::enforce(ctx, policy)?` -/
def cpiEnforce (d : Deployment) (env : Env) (ctx : Withdraw) (policy : Policy) (l : Ledger) :
    Result Ledger :=
  (Guard.invokeEnforce d.guard env ctx.cpiContext policy l).embed
    (fun e => .custom (.guard e)) .guard

/-- Two lamport writes, one account after the other. -/
def moveLamports (l : Ledger) (src dst : Pubkey) (amount : UInt64) : Result Ledger := do
  let debited ← u64Sub (l src).lamports amount
  let l := l.set src { l src with lamports := debited }
  -- the destination is read after the pool was debited; it may be the pool
  let credited ← u64Add (l dst).lamports amount
  pure (l.set dst { l dst with lamports := credited })

/-- The user's record after a withdrawal. -/
def recordWithdrawal (kind : PoolKind) (ud : UserDeposit) (clock : Clock) (amount : UInt64)
    (proofUsed : Bool) : Result UserDeposit := do
  let balance ← u64Sub ud.balance amount
  let ud := { ud with balance }
  match kind with
  -- the slot is recorded, the window's time is not touched
  | .timeLocked => pure { ud with lastWithdrawSlot := clock.slot }
  | .limit => do
    let now := clock.unixTimestamp
    let inW ← inDrainWindow ud now
    let ud := { ud with lastWithdrawSlot := clock.slot }
    -- a proof resets the window, so that the next withdrawal is the first again
    if proofUsed then pure { ud with windowWithdrawn := 0, lastWithdrawAt := 0 }
    else
      let windowWithdrawn := if inW then saturatingAdd ud.windowWithdrawn amount else amount
      pure { ud with windowWithdrawn, lastWithdrawAt := now }

/-- Withdraw SOL from the pool. -/
def withdraw (d : Deployment) (env : Env) (ctx : Withdraw) (amount : UInt64) (l : Ledger) :
    Result (UserDeposit × Ledger) := do
  require (amount > 0) .zeroAmount
  require (ctx.userDeposit.balance ≥ amount) .insufficientFunds
  let (policy, proofUsed) ← choosePolicy ctx.pool.kind ctx.userDeposit env.clock amount
  -- checks, policy and CPI before any lamport moves
  let l ← cpiEnforce d env ctx policy l
  let l ← moveLamports l ctx.poolKey ctx.destination amount
  let ud ← recordWithdrawal ctx.pool.kind ctx.userDeposit env.clock amount proofUsed
  emit (.withdrawn ctx.poolKey ctx.owner ctx.destination amount proofUsed)
  pure (ud, l)

/-! ## Dispatch -/

/-- The three instructions. -/
inductive VaultInstruction where
  | initializePool (kind : PoolKind) (label : String)
  | deposit (amount : UInt64)
  | withdraw (amount : UInt64)
  deriving DecidableEq

/-- The hash of `global:initialize_pool`. -/
def initializePoolDisc : Bytes := [95, 180, 10, 172, 84, 174, 232, 40]
/-- The hash of `global:deposit`. -/
def depositDisc : Bytes := [242, 35, 198, 137, 82, 225, 242, 182]
/-- The hash of `global:withdraw`. -/
def withdrawDisc : Bytes := [183, 18, 70, 156, 148, 109, 161, 34]

/-- Arguments are read from the front; bytes behind them are not looked at. -/
def readArgs {α : Type} (c : Codec α) (args : Bytes) : Result α :=
  okOr ((c.read args).map Prod.fst) (.anchor .instructionDidNotDeserialize)

/-- Anchor's dispatch. -/
def parseInstruction (data : Bytes) : Result VaultInstruction :=
  let disc := data.take 8
  let args := data.drop 8
  if disc = initializePoolDisc then do
    emit (.msg "Instruction: InitializePool")
    let a ← readArgs (PoolKind.codec.pair Codec.string) args
    pure (.initializePool a.1 a.2)
  else if disc = depositDisc then do
    emit (.msg "Instruction: Deposit")
    let amount ← readArgs Codec.u64 args
    pure (.deposit amount)
  else if disc = withdrawDisc then do
    emit (.msg "Instruction: Withdraw")
    let amount ← readArgs Codec.u64 args
    pure (.withdraw amount)
  else fail (.anchor .instructionFallbackNotFound)

/-- Validation, handler, exit: all `mut` accounts are written back. -/
def execute (d : Deployment) (env : Env) (accounts : List AccountMeta) (ix : VaultInstruction)
    (l : Ledger) : Result Ledger :=
  match ix with
  | .initializePool kind label => do
    let (ctx, l) ← InitializePool.tryAccounts d env accounts l
    let pool ← initializePool ctx kind label
    exitAccount Pool.layout vaultId ctx.pool pool l
  | .deposit amount => do
    let (ctx, l) ← Deposit.tryAccounts d env accounts l
    let (ud, l) ← deposit ctx amount l
    -- Anchor writes the pool back although nothing in it changed
    let l ← exitAccount Pool.layout vaultId ctx.poolKey ctx.pool l
    exitAccount UserDeposit.layout vaultId ctx.userDepositKey ud l
  | .withdraw amount => do
    let ctx ← Withdraw.tryAccounts d accounts l
    let (ud, l) ← withdraw d env ctx amount l
    let l ← exitAccount Pool.layout vaultId ctx.poolKey ctx.pool l
    exitAccount UserDeposit.layout vaultId ctx.userDepositKey ud l

/-- The program's entry point. -/
def process (d : Deployment) (env : Env) (accounts : List AccountMeta) (data : Bytes)
    (l : Ledger) : Result Ledger := do
  let ix ← parseInstruction data
  execute d env accounts ix l

end Trana.Vault
