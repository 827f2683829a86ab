import Trana.Guard.Program
import Trana.Solana.Loader

/-!
# trana_authority: state, events and addresses

The upgrade-authority program's one account type, its events, and its derived
addresses.

A record names an owner and a target program; its address, derived from both, is
what the loader has as the target's upgrade authority. The bump is stored with
it, so that later instructions derive the address without a search.

The program is built with one of two ids: the devnet one under its feature, and
one that localnet and mainnet share. A deployment is a build next to a guard of
the same network, and next to the BPF loader, which is not under the
repository's sources and stands here as `Loader`, with the checks its
documentation promises (`Trana.Solana.Loader`).

* `AuthorityRecord` — the record, with its layout.
* `Log` — what the program logs; a call to the loader is on it with the ledger
  it finds, so that failed attempts can be spoken of.
* `Deployment` — the program, its guard and its loader.
-/

namespace Trana.Authority

open Trana.Lib Trana.Solana

/-- `declare_id!` of the devnet build. -/
def devnetId : Pubkey :=
  ⟨[6, 196, 166, 127, 161, 67, 76, 189, 243, 240, 238, 119, 183, 124, 134, 200, 60, 7, 14, 139, 23,
    185, 164, 101, 101, 219, 55, 219, 40, 28, 44, 99], by decide⟩

/-- `declare_id!` of every other build. -/
def authorityId : Pubkey :=
  ⟨[4, 209, 17, 227, 134, 168, 236, 9, 238, 251, 87, 212, 135, 20, 244, 121, 217, 92, 129, 154, 113,
    7, 16, 96, 19, 180, 174, 107, 217, 63, 187, 67], by decide⟩

example : authorityId.toBase58 = "KoXvrg4DBLKa5U6LCUpWXJE1FHYqwaozqDqDcBXvGEE" ∧
    devnetId.toBase58 = "TRNA8iyPm9AuBGiTeSirJm6F4jsxvq66LqfFeU7G4AN" := by
  decide +kernel

/-- `declare_id!` of the build for the network. -/
def declareId : Guard.Network → Pubkey
  | .devnet => devnetId
  | .localnet => authorityId
  | .mainnetBeta => authorityId

/-- The record whose PDA, of `["trana-authority", owner, target]`, is the
program's upgrade authority. -/
structure AuthorityRecord where
  owner : Pubkey
  target : Pubkey
  bump : UInt8
  deriving DecidableEq

/-- The fields in their order. -/
def AuthorityRecord.codec : Codec AuthorityRecord :=
  (Pubkey.codec.pair (Pubkey.codec.pair Codec.u8)).map (fun p => ⟨p.1, p.2.1, p.2.2⟩)
    (fun r => (r.owner, r.target, r.bump)) (fun _ => rfl) (fun _ => rfl)

/-- The account. -/
def AuthorityRecord.layout : AccountLayout AuthorityRecord where
  discriminator := [177, 116, 28, 129, 149, 56, 73, 128]
  initSpace := 32 + 32 + 1
  codec := AuthorityRecord.codec

/-- A log line, an event, a call to the loader with the accounts it finds, or
what the guard logged during the call to it. -/
inductive Log where
  | msg (line : String)
  | upgradeExecuted (owner program : Pubkey)
  | authorityReclaimed (owner target newAuthority : Pubkey)
  | invoked (call : SignedCall) (l : Ledger)
  | guard (line : Guard.Log)

/-- The program has no errors of its own that it uses: it fails with the guard's. -/
abbrev Result := ProgramExec (ProgramError Guard.GuardError) Log

/-- A log line or an event. -/
def emit (event : Log) : Result Unit := Exec.log event

/-- Logging always succeeds, -/
@[simp] theorem returns_emit {event : Log} {u : Unit} : (emit event).Returns u ↔ True :=
  Exec.returns_log

/-- and puts one entry on the log. -/
@[simp] theorem logs_emit {event : Log} : (emit event).logs = [event] := rfl

/-- The program next to a guard and the loader, with its derived addresses and
their canonical bumps. -/
structure Deployment where
  guard : Guard.Deployment
  loader : Loader
  network : Guard.Network
  findRecord : Pubkey → Pubkey → Pubkey × UInt8
  createRecord : Pubkey → Pubkey → UInt8 → Option Pubkey
  guard_network : guard.programId = network.declareId
  createRecord_find : ∀ owner target,
    createRecord owner target (findRecord owner target).2 = some (findRecord owner target).1

namespace Deployment

variable (d : Deployment)

/-- The build's id. -/
def programId : Pubkey := declareId d.network

/-- The two programs of a network have different ids. -/
theorem guard_ne : d.guard.programId ≠ d.programId := by
  rw [guard_network, programId]
  cases d.network <;> decide

/-- The program is not the system program, -/
theorem programId_ne : d.programId ≠ systemProgramId := by
  rw [programId]
  cases d.network <;> decide

/-- nor the loader; -/
theorem programId_ne_loader : d.programId ≠ bpfLoaderId := by
  rw [programId]
  cases d.network <;> decide

/-- neither is the guard. -/
theorem guard_ne_loader : d.guard.programId ≠ bpfLoaderId := by
  rw [guard_network]
  cases d.network <;> decide

end Deployment

end Trana.Authority
