import Trana.Landing.Registry
import Trana.Vault.Program

/-!
# Landing app: the vault client

`apps/landing/lib/vault.ts`: what the demo reads of pools, records and the
guard's config, and the instructions it builds, each with data and account list
written out by hand. Derived addresses are those of the deployment, the network
the function that answers `getAccountInfo`.

Where the model is not the file:

* `lamports` of an account, the rent `getMinimumBalanceForRentExemption` answers,
  and their difference in a `PoolState` are JS numbers. Here they are natural
  numbers and an integer, so what is said of `fetchPoolState` is exact up to 2^53
  lamports (about nine million SOL) and not beyond. Amounts that are read from
  account data are `bigint`s throughout.
* `connection` is asked once for each account; an answer that never comes, or a
  rejected promise, is not modelled, and neither is what the page displays.
* A `PublicKey` of fewer than 32 bytes is filled up in front, as web3.js does.
* The message that carries an instruction merges the flags of its accounts over
  the whole transaction; the lists here are those the file writes.

What the reads say along a run is in `Trana.Security.DemoReads`, what the
programs make of the instructions in `Trana.Security.WireFormat`.
-/

namespace Trana.Landing

open Trana.Lib Trana.Solana

/-- `GUARD_PROGRAM`: the demo runs on devnet. -/
def guardProgram : Pubkey := Guard.devnetId

/-- `VAULT_PROGRAM` -/
def vaultProgram : Pubkey := Vault.vaultId

/-! ## On-chain reads -/

/-- An account as web3.js gives it. `lamports` is a JS number there, exact below 2^53. -/
structure AccountInfo where
  lamports : ℕ
  data : Window

/-- What the page shows of a pool. -/
structure PoolState where
  lamports : ℤ
  exists_ : Bool
  deriving DecidableEq

/-- What it shows of the user's record; a record too short counts as empty. -/
structure UserDepositState where
  balance : ℕ
  exists_ : Bool
  windowWithdrawn : ℕ
  lastWithdrawAt : ℤ
  lastWithdrawSlot : ℕ
  deriving DecidableEq

/-- `view.getBigInt64(offset, true)` -/
def getBigInt64 (view : Bytes) (offset : Nat) : Throws ℤ :=
  (getBigUint64 view offset).map fun n => (UInt64.ofNat n).toInt64.toInt

/-- What a read of the config can end in. -/
inductive ConfigError where
  | notInitialized
  deriving DecidableEq

/-- `new PublicKey(bytes)` of at most 32 bytes, filled up in front. -/
def publicKey (bytes : Bytes) (h : bytes.length ≤ 32) : Pubkey :=
  ⟨List.replicate (32 - bytes.length) 0 ++ bytes, by
    rw [List.length_append, List.length_replicate]
    omega⟩

/-- A slice is no longer than it was asked for. -/
theorem length_sliceBytes_le (data : Bytes) (start n : Nat) :
    (sliceBytes data start (start + n)).length ≤ n := by
  rw [sliceBytes, List.length_drop, List.length_take]
  omega

section Reads

variable (getAccountInfo : Pubkey → Option AccountInfo)

/-- The pool's lamports above the rent-exempt minimum for its size. Both are JS
numbers when they are subtracted, so this is exact up to 2^53 lamports. -/
def fetchPoolState (getMinimumBalanceForRentExemption : Nat → ℕ) (poolPda : Pubkey) : PoolState :=
  match getAccountInfo poolPda with
  | none => ⟨0, false⟩
  | some info =>
    let rent := getMinimumBalanceForRentExemption info.data.length
    ⟨max 0 ((info.lamports : ℤ) - rent), true⟩

/-- The record's fields at their offsets, without a look at the discriminator. -/
def fetchUserDeposit (depositPda : Pubkey) : Throws UserDepositState :=
  let empty : UserDepositState := ⟨0, false, 0, 0, 0⟩
  match getAccountInfo depositPda with
  | none => pure empty
  | some info =>
    -- 97 bytes: the record without its discriminator, so the check is eight too weak
    if info.data.length < 97 then pure { empty with exists_ := true }
    else do
      let dv ← dataViewFrom info.data.buffer info.data.byteOffset
      let balance ← getBigUint64 dv (8 + 32 + 32)
      let lastWithdrawSlot ← getBigUint64 dv (8 + 32 + 32 + 8)
      let windowWithdrawn ← getBigUint64 dv (8 + 32 + 32 + 16)
      let lastWithdrawAt ← getBigInt64 dv (8 + 32 + 32 + 24)
      pure ⟨balance, true, windowWithdrawn, lastWithdrawAt, lastWithdrawSlot⟩

/-- The treasury, at offset 40 of the config. -/
def fetchTreasury (configPda : Pubkey) : Except ConfigError Pubkey :=
  match getAccountInfo configPda with
  | none => .error .notInitialized
  | some info => .ok (publicKey (sliceBytes info.data.bytes 40 72)
      (length_sliceBytes_le info.data.bytes 40 32))

end Reads

/-! ## Instructions -/

/-- The low 64 bits of a `bigint`. -/
def lowU64 (n : ℤ) : UInt64 := UInt64.ofNat (n % 2 ^ 64).toNat

/-- `setBigUint64` keeps them. -/
def u64LE (n : ℤ) : Bytes := leBytes 8 (lowU64 n).toNat

/-- A byte vector with its length in front, as a `u32`. -/
def borshBytes (b : Bytes) : Bytes := leBytes 4 (b.length % 2 ^ 32) ++ b

/-- `DEPOSIT_DISC` -/
def depositDisc : Bytes := [242, 35, 198, 137, 82, 225, 242, 182]

/-- `WITHDRAW_DISC` -/
def withdrawDisc : Bytes := [183, 18, 70, 156, 148, 109, 161, 34]

/-- `REGISTER_PASSKEY_DISC` -/
def registerPasskeyDisc : Bytes := [16, 2, 121, 116, 194, 17, 247, 233]

/-- `ADD_PASSKEY_DISC` -/
def addPasskeyDisc : Bytes := [173, 230, 84, 153, 54, 144, 214, 37]

/-- A deposit of the depositor's. -/
def buildDepositIx (pool userDeposit depositor : Pubkey) (lamports : ℤ) : Instruction where
  programId := vaultProgram
  accounts :=
    [⟨pool, false, true⟩,
     ⟨userDeposit, false, true⟩,
     ⟨depositor, true, true⟩,
     ⟨systemProgramId, false, false⟩]
  data := depositDisc ++ u64LE lamports
  accounts_lt := by simp

/-- A withdrawal, with what the call to the guard needs. -/
def buildWithdrawIx (pool userDeposit owner destination registry : Pubkey) (lamports : ℤ) :
    Instruction where
  programId := vaultProgram
  accounts :=
    [⟨pool, false, true⟩,
     ⟨userDeposit, false, true⟩,
     ⟨owner, true, false⟩,
     ⟨destination, false, true⟩,
     ⟨guardProgram, false, false⟩,
     ⟨registry, false, true⟩,
     ⟨instructionsId, false, false⟩]
  data := withdrawDisc ++ u64LE lamports
  accounts_lt := by simp

section Guard

variable (getAccountInfo : Pubkey → Option AccountInfo) (findRegistry : Pubkey → Pubkey)
  (configPda owner : Pubkey) (pubkeyBytes credentialId : Bytes)

/-- A registration; the config must be there to name the treasury. -/
def buildRegisterPasskeyIx : Except ConfigError Instruction := do
  let treasury ← fetchTreasury getAccountInfo configPda
  pure
    { programId := guardProgram
      accounts :=
        [⟨findRegistry owner, false, true⟩,
         ⟨owner, true, true⟩,
         ⟨systemProgramId, false, false⟩,
         ⟨configPda, false, false⟩,
         ⟨treasury, false, true⟩]
      -- `Secp256r1Passkey` is the kind of every key the page registers
      data := registerPasskeyDisc ++ [0] ++ borshBytes pubkeyBytes ++ borshBytes credentialId
      accounts_lt := by simp }

/-- An added key: the sysvar comes last. -/
def buildAddPasskeyIx : Except ConfigError Instruction := do
  let treasury ← fetchTreasury getAccountInfo configPda
  pure
    { programId := guardProgram
      accounts :=
        [⟨findRegistry owner, false, true⟩,
         ⟨owner, true, true⟩,
         ⟨systemProgramId, false, false⟩,
         ⟨configPda, false, false⟩,
         ⟨treasury, false, true⟩,
         ⟨instructionsId, false, false⟩]
      data := addPasskeyDisc ++ [0] ++ borshBytes pubkeyBytes ++ borshBytes credentialId
      accounts_lt := by simp }

end Guard

end Trana.Landing
