import Trana.Solana.Anchor

/-!
# The upgradeable BPF loader

The two loader instructions that act on a deployed program, and what the
loader's documentation says of them. The loader itself is a parameter.

`Loader` is a structure, whose fields are the function from ledger to ledger and
the facts about it that the programs rely on: which accounts an upgrade may
write, that it takes a program and a buffer for what they are, and that it leaves
the accounts of other programs alone. No result assumes that a call succeeds, and
none says what an upgraded program does.

That a program's data account is another one than every other program's is not a
field. The loader derives it from the program's address, so equal ones would be a
collision of derived addresses; results that need it name the two programs.

* `upgradeIx`, `setUpgradeAuthorityIx` — the calls, as the helpers build them.
* `Loader.ActsOn` — the instruction is one of the two, about this program.
* `Loader.spares` — a call about one program leaves every other program's data
  account, where its code and its upgrade authority are.
-/

namespace Trana.Solana

open Trana.Lib

/-- `BPFLoaderUpgradeab1e11111111111111111111111` -/
def bpfLoaderId : Pubkey :=
  ⟨[2, 168, 246, 145, 78, 136, 161, 176, 226, 16, 21, 62, 247, 99, 174, 43, 0, 194, 185, 61, 22,
    193, 36, 210, 192, 83, 122, 16, 4, 128, 0, 0], by decide⟩

/-- `SysvarRent111111111111111111111111111111111` -/
def rentId : Pubkey :=
  ⟨[6, 167, 213, 23, 25, 44, 92, 81, 33, 140, 201, 76, 61, 74, 241, 127, 88, 218, 238, 8, 155, 161,
    253, 68, 227, 219, 217, 138, 0, 0, 0, 0], by decide⟩

/-- `SysvarC1ock11111111111111111111111111111111` -/
def clockId : Pubkey :=
  ⟨[6, 167, 213, 23, 24, 199, 116, 201, 40, 86, 99, 152, 105, 29, 94, 182, 139, 94, 184, 163, 155,
    75, 109, 92, 115, 85, 91, 33, 0, 0, 0, 0], by decide⟩

example : bpfLoaderId.toBase58 = "BPFLoaderUpgradeab1e11111111111111111111111" ∧
    rentId.toBase58 = "SysvarRent111111111111111111111111111111111" ∧
    clockId.toBase58 = "SysvarC1ock11111111111111111111111111111111" := by
  decide +kernel

/-- What `invoke_signed` hands to the runtime: the caller's own accounts with
their privileges, the account infos passed along, the derived addresses that
sign, and the instruction. -/
structure SignedCall where
  caller : List AccountMeta
  infos : List Pubkey
  signers : List Pubkey
  ix : Instruction
  deriving DecidableEq

/-- `UpgradeableLoaderState`, without its fields. -/
inductive UpgradeableLoaderState where
  | uninitialized
  | buffer
  | program
  | programData
  deriving DecidableEq, Repr

/-- The state of a loader account, by its tag. -/
def loaderState (a : Account) : Option UpgradeableLoaderState :=
  let tag := a.data.take 4
  if tag = leBytes 4 0 then some .uninitialized
  else if tag = leBytes 4 1 then some .buffer
  else if tag = leBytes 4 2 then some .program
  else if tag = leBytes 4 3 then some .programData
  else none

/-- `bpf_loader_upgradeable::upgrade` -/
def upgradeIx (programData program buffer authority spill : Pubkey) : Instruction where
  programId := bpfLoaderId
  accounts := [⟨programData, false, true⟩, ⟨program, false, true⟩, ⟨buffer, false, true⟩,
    ⟨spill, false, true⟩, ⟨rentId, false, false⟩, ⟨clockId, false, false⟩,
    ⟨authority, true, false⟩]
  data := leBytes 4 3
  accounts_lt := (by decide : 7 < 65536)

/-- `bpf_loader_upgradeable::set_upgrade_authority` with a new authority. -/
def setUpgradeAuthorityIx (programData current new : Pubkey) : Instruction where
  programId := bpfLoaderId
  accounts := [⟨programData, false, true⟩, ⟨current, true, false⟩, ⟨new, false, false⟩]
  data := leBytes 4 4
  accounts_lt := (by decide : 3 < 65536)

/-- The loader, with the runtime's checks of a call to it. -/
structure Loader where
  /-- `get_program_data_address` -/
  programData : Pubkey → Pubkey
  invoke : SignedCall → Ledger → Option Ledger
  /-- It writes only to its own accounts and the system program's. -/
  external : ∀ call l l' p, invoke call l = some l' → p ≠ bpfLoaderId → p ≠ systemProgramId →
    Ledger.External p l l'
  /-- An upgrade takes a program account and a buffer account. -/
  upgrade_checks : ∀ call l l' pd program buffer authority spill, invoke call l = some l' →
    call.ix = upgradeIx pd program buffer authority spill →
    loaderState (l program) = some .program ∧ loaderState (l buffer) = some .buffer
  /-- It writes to them and to the program data; the spill account is credited. -/
  upgrade_writes : ∀ call l l' pd program buffer authority spill, invoke call l = some l' →
    call.ix = upgradeIx pd program buffer authority spill →
    ∀ k, k ≠ pd → k ≠ program → k ≠ buffer →
      (l' k).owner = (l k).owner ∧ (l' k).data = (l k).data
  /-- A new authority is written to the program data. -/
  setAuthority_writes : ∀ call l l' pd current new, invoke call l = some l' →
    call.ix = setUpgradeAuthorityIx pd current new →
    ∀ k, k ≠ pd → (l' k).owner = (l k).owner ∧ (l' k).data = (l k).data

namespace Loader

variable (L : Loader)

/-- The instruction upgrades this program, or gives it a new upgrade authority. -/
inductive ActsOn (program authority : Pubkey) : Instruction → Prop where
  | upgrade (buffer spill : Pubkey) :
    ActsOn program authority (upgradeIx (L.programData program) program buffer authority spill)
  | setAuthority (new : Pubkey) :
    ActsOn program authority (setUpgradeAuthorityIx (L.programData program) authority new)

variable {L}

/-- A call about one program leaves the data of every other. -/
theorem spares {call : SignedCall} {l l' : Ledger} {program authority other : Pubkey}
    (hacts : L.ActsOn program authority call.ix) (h : L.invoke call l = some l')
    (hne : L.programData other ≠ L.programData program)
    (hdata : loaderState (l (L.programData other)) = some .programData) :
    (l' (L.programData other)).owner = (l (L.programData other)).owner ∧
      (l' (L.programData other)).data = (l (L.programData other)).data := by
  obtain ⟨ix, hix⟩ : ∃ ix, ix = call.ix := ⟨_, rfl⟩
  rw [← hix] at hacts
  cases hacts with
  | upgrade buffer spill =>
    obtain ⟨hprogram, hbuffer⟩ := L.upgrade_checks _ _ _ _ _ _ _ _ h hix.symm
    -- neither the program account nor the buffer is anybody's program data
    refine L.upgrade_writes _ _ _ _ _ _ _ _ h hix.symm _ hne (fun heq => ?_) fun heq => ?_
    · rw [heq, hprogram] at hdata
      cases hdata
    · rw [heq, hbuffer] at hdata
      cases hdata
  | setAuthority new => exact L.setAuthority_writes _ _ _ _ _ _ h hix.symm _ hne

end Loader

end Trana.Solana
