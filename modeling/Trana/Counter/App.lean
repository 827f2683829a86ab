import Trana.Counter.Run
import Trana.Landing.Vault
import Trana.Lib.Sha256

/-!
# The counter example: its app

`app/src/counter.ts`: the two instructions it builds, and what it reads of a
counter by byte offsets. Each instruction's data is the eight bytes of its
discriminator, which the app computes as a hash (`disc`) where the program has
them as constants; `disc_increment` says that the two agree for the instruction
that needs a passkey.

The app asks the SDK for the proof and the cluster for the account; both are
elsewhere (`Trana.Sdk`, `Trana.Solana.Ledger`). Its reader `fetchCounter` takes
the account's data as it comes: it checks neither the owner nor the
discriminator, and reads the count, a little-endian `bigint`, at byte 8 and the
wallet at byte 16. An account too short for the count throws a `RangeError`.

What the app prints and how its page is laid out is not modelled.
-/

namespace Trana.Counter

open Trana.Lib Trana.Solana
open Trana.Landing (AccountInfo publicKey length_sliceBytes_le)

/-- `COUNTER_PROGRAM_ID` -/
def counterProgramId : Pubkey := counterId

/-- `TRANA_GUARD_ID` -/
def tranaGuardId : Pubkey := Guard.localnetId

/-- Anchor's discriminator: the first eight bytes of a hash. -/
def disc (name : String) : Bytes := (sha256 (Codec.utf8 name)).take 8

/-- It is the constant the program compares with. -/
theorem disc_increment : disc "global:increment" = incrementDisc := by decide +kernel

section Instructions

variable (d : Deployment) (owner : Pubkey)

/-- The wallet's counter. -/
def counterPda : Pubkey := (d.findCounter owner).1

/-- The wallet's registry. -/
def registryPda : Pubkey := d.guard.findRegistry owner

/-- The instruction that creates the counter; the wallet pays. -/
def initializeIx : Instruction where
  programId := counterProgramId
  accounts :=
    [⟨counterPda d owner, false, true⟩,
     ⟨owner, true, true⟩,
     ⟨systemProgramId, false, false⟩]
  data := disc "global:initialize"
  accounts_lt := by simp

/-- The instruction that increments it; the guard and the sysvar are passed for the CPI. -/
def incrementIx : Instruction where
  programId := counterProgramId
  accounts :=
    [⟨counterPda d owner, false, true⟩,
     -- the wallet does not pay here, so it is not writable
     ⟨owner, true, false⟩,
     ⟨tranaGuardId, false, false⟩,
     ⟨registryPda d owner, false, true⟩,
     ⟨instructionsId, false, false⟩]
  data := disc "global:increment"
  accounts_lt := by simp

end Instructions

/-- What the page shows: `bigint` and key. -/
structure CounterAccount where
  count : ℕ
  owner : Pubkey
  deriving DecidableEq

/-- The count at offset 8 of the account, the owner at 16. -/
def fetchCounter (d : Deployment) (getAccountInfo : Pubkey → Option AccountInfo)
    (owner : Pubkey) : Throws (Option CounterAccount) :=
  match getAccountInfo (counterPda d owner) with
  | none => pure none
  | some info => do
    let count ← getBigUint64 info.data.bytes 8
    pure (some ⟨count, publicKey (sliceBytes info.data.bytes 16 48)
      (length_sliceBytes_le info.data.bytes 16 32)⟩)

end Trana.Counter
