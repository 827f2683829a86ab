import Trana.Guard.Program

/-!
# trana_test_vault: state, events and errors

The demo vault's types under their source names (`state.rs`, `errors.rs`,
`events.rs`), and its two account layouts.

A pool belongs to an authority and has a kind, which decides what a withdrawal
needs; a deposit record belongs to one user in one pool and carries, besides the
balance, what the policies look at: the slot and the time of the last
withdrawal. Borsh writes the fields in the order of the declaration, so the
codecs are pairs in that order. The two discriminators are the hashes Anchor
computes at compile time; they tell a pool from a record.

Lamports are not a field: they are the account's, on the ledger. What a record
says of a balance and what the pool's account holds are two things, and that the
second covers the first is a theorem about runs.

* `PoolKind`, `Pool`, `UserDeposit` — the types, with their codecs.
* `Log`, `Failure` — what the vault logs or fails with, and what the guard does
  inside its call.
-/

namespace Trana.Vault

open Trana.Lib Trana.Solana

/-- `declare_id!` -/
def vaultId : Pubkey :=
  ⟨[117, 156, 9, 155, 146, 189, 161, 149, 158, 212, 79, 46, 87, 47, 30, 119, 179, 54, 129, 111, 25,
    153, 137, 194, 32, 114, 104, 187, 144, 214, 71, 223], by decide⟩

example : vaultId.toBase58 = "8v6hfEZ32JLMJE4kk63zTzow7VbygewhrPhqiVdyxtaa" := by decide +kernel

/-- 1 SOL -/
def withdrawLimit : UInt64 := 1000000000

/-- Seconds, for the drain window of a `limit` pool. -/
def drainWindow : Int64 := 60

/-- About a minute, for a `timeLocked` pool. -/
def cooldownSlots : UInt64 := 150

/-- `VaultError`, in declaration order. -/
inductive VaultError where
  | unauthorized
  | zeroAmount
  | insufficientFunds
  | labelTooLong
  deriving DecidableEq, Repr

/-- Policy governing withdrawals from a pool. -/
inductive PoolKind where
  | limit
  | timeLocked
  deriving DecidableEq, Repr

/-- The variant's byte. -/
def PoolKind.codec : Codec PoolKind :=
  Codec.enum
    (fun | .limit => 0 | .timeLocked => 1)
    (fun t => if t = 0 then some .limit else if t = 1 then some .timeLocked else none)
    (fun k => by cases k <;> rfl)
    (fun t k h => by
      split at h
      next ht =>
        obtain rfl := Option.some.inj h
        exact ht.symm
      next =>
        split at h
        next ht =>
          obtain rfl := Option.some.inj h
          exact ht.symm
        next => nomatch h)

/-- Shared pool, at the PDA of `["trana-pool", authority]`. -/
structure Pool where
  authority : Pubkey
  kind : PoolKind
  label : String
  bump : UInt8
  deriving DecidableEq

/-- The fields in their order. -/
def Pool.codec : Codec Pool :=
  (Pubkey.codec.pair (PoolKind.codec.pair (Codec.string.pair Codec.u8))).map
    (fun p => ⟨p.1, p.2.1, p.2.2.1, p.2.2.2⟩) (fun p => (p.authority, p.kind, p.label, p.bump))
    (fun _ => rfl) (fun _ => rfl)

/-- The account: `INIT_SPACE` with a label of 32 bytes at most. -/
def Pool.layout : AccountLayout Pool where
  discriminator := [241, 154, 109, 4, 17, 177, 109, 188]
  initSpace := 32 + 1 + (4 + 32) + 1
  codec := Pool.codec

/-- Per-user deposit record, at the PDA of `["deposit", pool, user]`. -/
structure UserDeposit where
  pool : Pubkey
  user : Pubkey
  balance : UInt64
  lastWithdrawSlot : UInt64
  windowWithdrawn : UInt64
  lastWithdrawAt : Int64
  bump : UInt8
  deriving DecidableEq

/-- The fields in their order. -/
def UserDeposit.codec : Codec UserDeposit :=
  (Pubkey.codec.pair (Pubkey.codec.pair (Codec.u64.pair (Codec.u64.pair (Codec.u64.pair
    (Codec.i64.pair Codec.u8)))))).map
    (fun p => ⟨p.1, p.2.1, p.2.2.1, p.2.2.2.1, p.2.2.2.2.1, p.2.2.2.2.2.1, p.2.2.2.2.2.2⟩)
    (fun u => (u.pool, u.user, u.balance, u.lastWithdrawSlot, u.windowWithdrawn, u.lastWithdrawAt,
      u.bump))
    (fun _ => rfl) (fun _ => rfl)

/-- The account: all fields have fixed widths. -/
def UserDeposit.layout : AccountLayout UserDeposit where
  discriminator := [69, 238, 23, 217, 255, 137, 185, 35]
  initSpace := 32 + 32 + 8 + 8 + 8 + 8 + 1
  codec := UserDeposit.codec

/-- A log line, an event, or what the guard logged during the call to it. -/
inductive Log where
  | msg (line : String)
  | poolInitialized (pool authority : Pubkey) (label : String)
  | deposited (pool user : Pubkey) (amount newBalance : UInt64)
  | withdrawn (pool user destination : Pubkey) (amount : UInt64) (proofUsed : Bool)
  | guard (line : Guard.Log)
  deriving DecidableEq

/-- The vault's own error, or the one the guard failed with. -/
inductive Failure where
  | vault (e : VaultError)
  | guard (e : ProgramError Guard.GuardError)
  deriving DecidableEq

/-- What a handler returns, logs or fails with. -/
abbrev Result := ProgramExec Failure Log

/-- `require!(p, VaultError::e)` -/
def require (p : Prop) [Decidable p] (e : VaultError) : Result Unit :=
  Exec.require p (.custom (.vault e))

/-- A requirement passes when it holds. -/
@[simp] theorem returns_require {p : Prop} [Decidable p] {e : VaultError} {u : Unit} :
    (require p e).Returns u ↔ p :=
  Exec.returns_require

/-- A log line or an event. -/
def emit (event : Log) : Result Unit := Exec.log event

/-- Logging always succeeds. -/
@[simp] theorem returns_emit {event : Log} {u : Unit} : (emit event).Returns u ↔ True :=
  Exec.returns_log

end Trana.Vault
