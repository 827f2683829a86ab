import Trana.Authority.Run

/-!
# Calling the upgrade-authority program

What the SDK's `authority/client.ts` builds, and what the three scripts for the
command line build by hand. Both list accounts with the flags the source gives
them; the message that carries an instruction merges flags over the whole
transaction (the fee payer signs and is writable everywhere), which only adds to
them and is not done here.

* `TranaAuthorityClient` — the SDK's three builders. They take the program's and
  the guard's id from the IDL, which is devnet's, whatever cluster the client
  was made for.
* `Scripts.registerIx`, `Scripts.executeUpgradeIx`, `Scripts.reclaimIx` — the
  scripts' lists.
* `Scripts.upgrade_refused`, `Scripts.reclaim_refused` — two of the scripts list
  accounts that no ledger satisfies: the loader stands at the place of the
  instructions sysvar, or an account is missing.
-/

namespace Trana.Authority

open Trana.Lib Trana.Lib.Exec Trana.Solana

section Build

variable (d : Deployment) (owner : Pubkey)

/-! ## `TranaAuthorityClient` -/

namespace TranaAuthorityClient

/-- Derive the `AuthorityRecord` PDA for an (owner, target) pair. -/
def recordPda (target : Pubkey) : Pubkey := (d.findRecord owner target).1

/-- Build the `register` instruction. The IDL's address stays as it is, on every
cluster, here and in the next two. -/
def register (target : Pubkey) : Instruction where
  programId := devnetId
  accounts :=
    [⟨recordPda d owner target, false, true⟩,
     ⟨owner, true, true⟩,
     ⟨target, false, false⟩,
     ⟨systemProgramId, false, false⟩]
  data := registerDisc
  accounts_lt := by simp

/-- Build the `execute_upgrade` instruction. -/
def executeUpgrade (program programData buffer spill : Pubkey) : Instruction where
  programId := devnetId
  accounts :=
    [⟨recordPda d owner program, false, false⟩,
     ⟨owner, true, false⟩,
     ⟨program, false, true⟩,
     ⟨programData, false, true⟩,
     ⟨buffer, false, true⟩,
     ⟨spill, false, true⟩,
     ⟨rentId, false, false⟩,
     ⟨clockId, false, false⟩,
     ⟨bpfLoaderId, false, false⟩,
     ⟨Guard.devnetId, false, false⟩,
     ⟨d.guard.findRegistry owner, false, true⟩,
     ⟨instructionsId, false, false⟩]
  data := executeUpgradeDisc
  accounts_lt := by simp

/-- Build the `reclaim_authority` instruction. -/
def reclaimAuthority (target programData newAuthority : Pubkey) : Instruction where
  programId := devnetId
  accounts :=
    [⟨recordPda d owner target, false, true⟩,
     ⟨owner, true, true⟩,
     ⟨target, false, true⟩,
     ⟨programData, false, true⟩,
     ⟨newAuthority, false, false⟩,
     ⟨bpfLoaderId, false, false⟩,
     ⟨Guard.devnetId, false, false⟩,
     ⟨d.guard.findRegistry owner, false, true⟩,
     ⟨instructionsId, false, false⟩,
     ⟨systemProgramId, false, false⟩]
  data := reclaimAuthorityDisc ++ newAuthority.bytes
  accounts_lt := by simp

end TranaAuthorityClient

/-! ## The scripts -/

namespace Scripts

/-- `secure-upgrade-authority.mjs`, before the authority is handed over. -/
def registerIx (target : Pubkey) : Instruction where
  programId := d.programId
  accounts :=
    [⟨(d.findRecord owner target).1, false, true⟩,
     ⟨owner, true, true⟩,
     ⟨target, false, false⟩,
     ⟨systemProgramId, false, false⟩]
  data := registerDisc
  accounts_lt := by simp

/-- `upgrade-program.mjs`. The owner is the spill account, and the loader comes last. -/
def executeUpgradeIx (target programData buffer : Pubkey) : Instruction where
  programId := d.programId
  accounts :=
    [⟨(d.findRecord owner target).1, false, false⟩,
     ⟨owner, true, false⟩,
     ⟨target, false, true⟩,
     ⟨programData, false, true⟩,
     ⟨buffer, false, true⟩,
     -- the spill account, which the loader credits
     ⟨owner, false, true⟩,
     ⟨rentId, false, false⟩,
     ⟨clockId, false, false⟩,
     ⟨d.guard.programId, false, false⟩,
     ⟨d.guard.findRegistry owner, false, true⟩,
     ⟨instructionsId, false, false⟩,
     ⟨bpfLoaderId, false, false⟩]
  data := executeUpgradeDisc
  accounts_lt := by simp

/-- `reclaim-authority.mjs`. The loader comes last again, and the system program
is missing. -/
def reclaimIx (target programData newAuthority : Pubkey) : Instruction where
  programId := d.programId
  accounts :=
    [⟨(d.findRecord owner target).1, false, true⟩,
     ⟨owner, true, true⟩,
     ⟨target, false, false⟩,
     ⟨programData, false, true⟩,
     ⟨newAuthority, false, false⟩,
     ⟨d.guard.programId, false, false⟩,
     ⟨d.guard.findRegistry owner, false, true⟩,
     ⟨instructionsId, false, false⟩,
     ⟨bpfLoaderId, false, false⟩]
  data := reclaimAuthorityDisc ++ newAuthority.bytes
  accounts_lt := by simp

end Scripts

end Build

/-! ## Account lists -/

section Accounts

variable {d : Deployment} {accounts : List AccountMeta} {l : Ledger}

/-- The twelfth account of an upgrade is the sysvar. -/
theorem upgrade_instructions {ctx : ExecuteUpgrade}
    (h : (ExecuteUpgrade.tryAccounts d accounts l).Returns ctx) :
    (accounts.map AccountMeta.pubkey)[11]? = some instructionsId := by
  unfold ExecuteUpgrade.tryAccounts at h
  split at h
  next authorityRecord owner program programData buffer spill rent clock bpfLoader guardProgram
      registry instructions rest =>
    simp only [returns_bind, returns_constraintAddress, returns_pure] at h
    obtain ⟨_, -, _, -, _, -, _, -, _, -, _, -, _, -, _, -, _, -, _, -, _, -, _, -, _, -, _, -, _,
      -, _, -, _, hinstructions, -⟩ := h
    exact congrArg some hinstructions
  next => simp [notEnoughKeys] at h

/-- A reclaim lists ten accounts. -/
theorem reclaim_length {ctx : ReclaimAuthority}
    (h : (ReclaimAuthority.tryAccounts d accounts l).Returns ctx) : 10 ≤ accounts.length := by
  unfold ReclaimAuthority.tryAccounts at h
  split at h
  next => simp
  next => simp [notEnoughKeys] at h

end Accounts

namespace Scripts

variable {d : Deployment} {owner target programData : Pubkey} {accounts : List AccountMeta}
  {l : Ledger}

/-- The loader stands where the instructions sysvar is expected. -/
theorem upgrade_refused {buffer : Pubkey} {ctx : ExecuteUpgrade}
    (haccounts : accounts.map AccountMeta.pubkey =
      (executeUpgradeIx d owner target programData buffer).accountKeys) :
    ¬(ExecuteUpgrade.tryAccounts d accounts l).Returns ctx := by
  intro h
  have hinstructions := upgrade_instructions h
  rw [haccounts] at hinstructions
  exact absurd (Option.some.inj hinstructions) (by decide : bpfLoaderId ≠ instructionsId)

/-- An account is missing. -/
theorem reclaim_refused {newAuthority : Pubkey} {ctx : ReclaimAuthority}
    (haccounts : accounts.map AccountMeta.pubkey =
      (reclaimIx d owner target programData newAuthority).accountKeys) :
    ¬(ReclaimAuthority.tryAccounts d accounts l).Returns ctx := by
  intro h
  have hten := reclaim_length h
  have hnine := congrArg List.length haccounts
  rw [List.length_map] at hnine
  rw [hnine] at hten
  exact absurd hten (by decide : ¬10 ≤ 9)

end Scripts

end Trana.Authority
