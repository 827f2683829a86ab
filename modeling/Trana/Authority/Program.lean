import Trana.Authority.State

/-!
# trana_authority: the instructions

`lib.rs` of the upgrade-authority program: account contexts, handlers and
dispatch. It calls two programs, the guard to have a proof enforced and then
the loader, for which the record's PDA signs.

* `Register`, `ExecuteUpgrade`, `ReclaimAuthority` — the accounts of each
  instruction, validated in the order Anchor's derive macro does.
* `enforceProof`, `invokeSigned` — the two calls. The first is `enforce` with
  `Policy::Require` on the registry the owner derives.
* `executeUpgrade`, `reclaimAuthority` — proof first, loader second; what the
  loader refuses takes the whole instruction down.
* `process` — one invocation, dispatched on its discriminator.

`register` asks for the owner's signature only, as the source says; it gives
nobody any authority, since it is the current authority who must hand it to the
record's address. `reclaim_authority` closes its record by Anchor's
`close = owner`, after the handler. The account infos handed to the loader are
those the source lists, and the loader sees nothing else.
-/

namespace Trana.Authority

open Trana.Lib Trana.Lib.Exec Trana.Solana Trana.Guard

/-- Fewer accounts than the context has. -/
def notEnoughKeys {α : Type} : Result α := fail (.anchor .accountNotEnoughKeys)

/-! ## Private helpers -/

/-- `enforce` with `Policy::Require`, through the guard. -/
def enforceProof (d : Deployment) (env : Env) (registry owner : Pubkey) (l : Ledger) :
    Result Ledger :=
  (Guard.invokeEnforce d.guard env ⟨registry, owner⟩ .require l).embed .custom .guard

/-- The address that `authority_seeds` derive. -/
def authoritySeeds (d : Deployment) (record : AuthorityRecord) : Option Pubkey :=
  d.createRecord record.owner record.target record.bump

/-- `invoke_signed`, into the loader. The call is on record before it runs. -/
def invokeSigned (d : Deployment) (call : SignedCall) (l : Ledger) : Result Ledger := do
  emit (.invoked call l)
  okOr (d.loader.invoke call l) .system

/-! ## Register -/

/-- The accounts of `register`, and the bump its seeds gave. -/
structure Register where
  authorityRecord : Pubkey
  owner : Pubkey
  target : Pubkey
  bump : UInt8

/-- The target is any account: that it is a program is not checked. -/
def Register.tryAccounts (d : Deployment) (env : Env) (accounts : List AccountMeta) (l : Ledger) :
    Result (Register × Ledger) :=
  match accounts with
  | authorityRecord :: owner :: target :: systemProgram :: _ => do
    let ownerKey ← signer owner
    programAccount systemProgram systemProgramId
    let found := d.findRecord ownerKey target.pubkey
    constraintSeeds authorityRecord found.1
    let l ← okOr (l.initAccount env.minimumBalance ownerKey authorityRecord.pubkey d.programId
      AuthorityRecord.layout.space) .system
    constraintMut authorityRecord
    constraintMut owner
    pure (⟨authorityRecord.pubkey, ownerKey, target.pubkey, found.2⟩, l)
  | _ => notEnoughKeys

/-- Create the record of an owner and a target. No passkey required. -/
def register (ctx : Register) : Result AuthorityRecord := do
  let record : AuthorityRecord := ⟨ctx.owner, ctx.target, ctx.bump⟩
  emit (.msg (s!"TRANA_AUTHORITY register | owner={record.owner.toBase58} | " ++
    s!"target={record.target.toBase58}"))
  pure record

/-! ## Execute upgrade -/

/-- The accounts of `execute_upgrade`. -/
structure ExecuteUpgrade where
  recordKey : Pubkey
  authorityRecord : AuthorityRecord
  owner : Pubkey
  program : Pubkey
  programData : Pubkey
  buffer : Pubkey
  spill : Pubkey
  tranaRegistry : Pubkey
  deriving DecidableEq

/-- Twelve accounts; the record must be the signer's and name the program. -/
def ExecuteUpgrade.tryAccounts (d : Deployment) (accounts : List AccountMeta) (l : Ledger) :
    Result ExecuteUpgrade :=
  match accounts with
  | authorityRecord :: owner :: program :: programData :: buffer :: spill :: rent :: clock ::
      bpfLoader :: tranaGuardProgram :: tranaRegistry :: instructions :: _ => do
    let record ← loadAccount AuthorityRecord.layout d.programId (l authorityRecord.pubkey)
    let ownerKey ← signer owner
    -- `Sysvar<Rent>` and `Sysvar<Clock>`
    sysvarAccount rent rentId
    sysvarAccount clock clockId
    programAccount tranaGuardProgram d.guard.programId
    -- `Account<PasskeyRegistry>`: unlike the vault, this program has the registry loaded
    let _ ← loadAccount PasskeyRegistry.layout d.guard.programId (l tranaRegistry.pubkey)
    constraintBump authorityRecord (d.createRecord ownerKey program.pubkey record.bump)
    constraintRaw (record.owner = ownerKey)
    constraintRaw (record.target = program.pubkey)
    constraintMut program
    constraintMut programData
    constraintMut buffer
    constraintMut spill
    constraintAddress bpfLoader bpfLoaderId
    constraintSeeds tranaRegistry (d.guard.findRegistry ownerKey)
    constraintMut tranaRegistry
    constraintAddress instructions instructionsId
    pure ⟨authorityRecord.pubkey, record, ownerKey, program.pubkey, programData.pubkey,
      buffer.pubkey, spill.pubkey, tranaRegistry.pubkey⟩
  | _ => notEnoughKeys

/-- The call that upgrades the program. -/
def ExecuteUpgrade.call (d : Deployment) (accounts : List AccountMeta) (ctx : ExecuteUpgrade)
    (pda : Pubkey) : SignedCall where
  caller := accounts
  infos := [ctx.programData, ctx.program, ctx.buffer, ctx.spill, rentId, clockId, ctx.recordKey]
  signers := [pda]
  ix := upgradeIx (d.loader.programData ctx.program) ctx.program ctx.buffer ctx.recordKey ctx.spill

/-- Upgrade a program. Requires passkey proof. -/
def executeUpgrade (d : Deployment) (env : Env) (accounts : List AccountMeta)
    (ctx : ExecuteUpgrade) (l : Ledger) : Result Ledger := do
  -- proof before upgrade; a loader that refuses has both rolled back
  let l ← enforceProof d env ctx.tranaRegistry ctx.owner l
  let pda ← okOr (authoritySeeds d ctx.authorityRecord) .system
  let l ← invokeSigned d (ctx.call d accounts pda) l
  emit (.upgradeExecuted ctx.owner ctx.program)
  emit (.msg (s!"TRANA_AUTHORITY upgrade | owner={ctx.owner.toBase58} | " ++
    s!"program={ctx.program.toBase58}"))
  pure l

/-! ## Reclaim authority -/

/-- The accounts of `reclaim_authority`. -/
structure ReclaimAuthority where
  recordKey : Pubkey
  authorityRecord : AuthorityRecord
  owner : Pubkey
  target : Pubkey
  programData : Pubkey
  newAuthorityInfo : Pubkey
  tranaRegistry : Pubkey
  deriving DecidableEq

/-- Ten accounts; the new authority's is any account. -/
def ReclaimAuthority.tryAccounts (d : Deployment) (accounts : List AccountMeta) (l : Ledger) :
    Result ReclaimAuthority :=
  match accounts with
  | authorityRecord :: owner :: target :: programData :: newAuthorityInfo :: bpfLoader ::
      tranaGuardProgram :: tranaRegistry :: instructions :: systemProgram :: _ => do
    let record ← loadAccount AuthorityRecord.layout d.programId (l authorityRecord.pubkey)
    let ownerKey ← signer owner
    programAccount tranaGuardProgram d.guard.programId
    let _ ← loadAccount PasskeyRegistry.layout d.guard.programId (l tranaRegistry.pubkey)
    programAccount systemProgram systemProgramId
    constraintBump authorityRecord (d.createRecord ownerKey target.pubkey record.bump)
    constraintMut authorityRecord
    constraintRaw (record.owner = ownerKey)
    constraintRaw (record.target = target.pubkey)
    constraintClose authorityRecord owner
    constraintMut owner
    constraintMut target
    constraintMut programData
    constraintAddress bpfLoader bpfLoaderId
    constraintSeeds tranaRegistry (d.guard.findRegistry ownerKey)
    constraintMut tranaRegistry
    constraintAddress instructions instructionsId
    pure ⟨authorityRecord.pubkey, record, ownerKey, target.pubkey, programData.pubkey,
      newAuthorityInfo.pubkey, tranaRegistry.pubkey⟩
  | _ => notEnoughKeys

/-- The call that hands the upgrade authority on. -/
def ReclaimAuthority.call (d : Deployment) (accounts : List AccountMeta) (ctx : ReclaimAuthority)
    (newAuthority pda : Pubkey) : SignedCall where
  caller := accounts
  infos := [ctx.programData, ctx.recordKey, ctx.newAuthorityInfo]
  signers := [pda]
  ix := setUpgradeAuthorityIx (d.loader.programData ctx.target) ctx.recordKey newAuthority

/-- Return the upgrade authority to a new key. Requires passkey proof. -/
def reclaimAuthority (d : Deployment) (env : Env) (accounts : List AccountMeta)
    (ctx : ReclaimAuthority) (newAuthority : Pubkey) (l : Ledger) : Result Ledger := do
  let l ← enforceProof d env ctx.tranaRegistry ctx.owner l
  let pda ← okOr (authoritySeeds d ctx.authorityRecord) .system
  let l ← invokeSigned d (ctx.call d accounts newAuthority pda) l
  emit (.authorityReclaimed ctx.owner ctx.target newAuthority)
  emit (.msg (s!"TRANA_AUTHORITY reclaim | owner={ctx.owner.toBase58} | " ++
    s!"target={ctx.target.toBase58} | new_authority={newAuthority.toBase58}"))
  pure l

/-! ## Dispatch -/

/-- The three instructions. -/
inductive AuthorityInstruction where
  | register
  | executeUpgrade
  | reclaimAuthority (newAuthority : Pubkey)
  deriving DecidableEq

/-- The hash of `global:register`. -/
def registerDisc : Bytes := [211, 124, 67, 15, 211, 194, 178, 240]
/-- The hash of `global:execute_upgrade`. -/
def executeUpgradeDisc : Bytes := [205, 219, 100, 218, 66, 39, 215, 24]
/-- The hash of `global:reclaim_authority`. -/
def reclaimAuthorityDisc : Bytes := [156, 147, 67, 113, 251, 229, 162, 166]

/-- Anchor's dispatch; only `reclaim_authority` has an argument. -/
def parseInstruction (data : Bytes) : Result AuthorityInstruction :=
  let disc := data.take 8
  let args := data.drop 8
  if disc = registerDisc then do
    emit (.msg "Instruction: Register")
    pure .register
  else if disc = executeUpgradeDisc then do
    emit (.msg "Instruction: ExecuteUpgrade")
    pure .executeUpgrade
  else if disc = reclaimAuthorityDisc then do
    emit (.msg "Instruction: ReclaimAuthority")
    let newAuthority ← okOr ((Pubkey.codec.read args).map Prod.fst)
      (.anchor .instructionDidNotDeserialize)
    pure (.reclaimAuthority newAuthority)
  else fail (.anchor .instructionFallbackNotFound)

/-- Validation, handler, exit. -/
def execute (d : Deployment) (env : Env) (accounts : List AccountMeta) (ix : AuthorityInstruction)
    (l : Ledger) : Result Ledger :=
  match ix with
  | .register => do
    let (ctx, l) ← Register.tryAccounts d env accounts l
    let record ← register ctx
    exitAccount AuthorityRecord.layout d.programId ctx.authorityRecord record l
  -- the record is not `mut` here, so it is not written back
  | .executeUpgrade => do
    let ctx ← ExecuteUpgrade.tryAccounts d accounts l
    executeUpgrade d env accounts ctx l
  | .reclaimAuthority newAuthority => do
    let ctx ← ReclaimAuthority.tryAccounts d accounts l
    let l ← reclaimAuthority d env accounts ctx newAuthority l
    -- `close = owner` is an exit routine, after the handler
    closeAccount ctx.recordKey ctx.owner l

/-- The program's entry point. -/
def process (d : Deployment) (env : Env) (accounts : List AccountMeta) (data : Bytes)
    (l : Ledger) : Result Ledger := do
  let ix ← parseInstruction data
  execute d env accounts ix l

end Trana.Authority
