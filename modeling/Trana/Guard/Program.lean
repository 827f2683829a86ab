import Trana.Guard.Verify

/-!
# trana_guard: the instructions

`lib.rs` and the account contexts of `state.rs`: for each instruction the
accounts struct Anchor validates (`tryAccounts`), the handler, and `process`,
which decodes the instruction data, runs both and writes the mutable accounts
back. A run takes the ledger and returns the new one; a run that fails returns
none, as the transaction is rolled back.

A context keeps the accounts its handler reads, with what Anchor loaded of them.
An account that is only checked (the system program, the sysvar) is a check in
`tryAccounts` and no field. Anchor checks in two rounds, first each field's type
and then its constraints, in the order of the fields; the error a client sees
depends on that order, and so the model follows it.

Derived addresses belong to the deployment. Finding one is a hash outside the
curve, of which the programs need that different wallets get different ones, and
this is the one fact a `Deployment` carries about them besides that the program is
neither the system program nor the precompile.

The dispatch is the one `#[program]` generates, less the instruction Anchor adds
for the IDL; data that would select that one end in the fallback error here.
Compute units, the heap and the depth of calls are not modelled: a run that
exceeds them fails on chain and succeeds here.

* `tryAccounts`, one for each context; `execute`, `process` — the whole program.
* `invokeEnforce` — the same entry point, as another program calls it.
-/

namespace Trana.Guard

open Trana.Lib Trana.Lib.Exec Trana.Solana

/-- The program at its address, with its derived addresses: the registry PDA
of each wallet and the config PDA. -/
structure Deployment where
  programId : Pubkey
  findRegistry : Pubkey → Pubkey
  findConfig : Pubkey
  registry_inj : Function.Injective findRegistry
  programId_ne : programId ≠ systemProgramId
  programId_ne_secp : programId ≠ Secp256r1.programId

/-- What an invocation reads besides its accounts. -/
structure Env where
  clock : Clock
  ixSysvar : InstructionsSysvar
  minimumBalance : Nat → UInt64

/-- A handler got fewer accounts than its context names. -/
def notEnoughKeys {α : Type} : Result α := fail (.anchor .accountNotEnoughKeys)

/-! ## Private helpers -/

/-- Deserialize the registry, validate ownership, run `f`, then write back. -/
def withRegistry (d : Deployment) (l : Ledger) (info ownerKey : Pubkey)
    (f : PasskeyRegistry → Result PasskeyRegistry) : Result Ledger := do
  -- any account can have been passed: this is the only place that asks what it is
  require ((l info).owner = d.programId) GuardError.registryRequired
  let registry ← okOr (PasskeyRegistry.layout.tryDeserialize (l info).data).toOption
    GuardError.registryRequired
  require (registry.owner = ownerKey) GuardError.invalidProof
  let registry ← f registry
  let data ← okOr (PasskeyRegistry.layout.trySerialize registry (l info).data)
    GuardError.invalidProof
  pure (l.set info { l info with data })

/-- The two lengths are bounded above; an empty key passes. -/
def validateKeyInputs (pubkeyBytes credentialId : Bytes) : Result Unit := do
  require (pubkeyBytes.length ≤ PasskeyRegistry.maxPubkeyLen) GuardError.invalidProof
  require (credentialId.length ≤ PasskeyRegistry.maxCredIdLen) GuardError.invalidProof

/-- Pay a fee, when there is one. -/
def collectFee (l : Ledger) (payer dst : Pubkey) (fee : UInt64) : Result Ledger :=
  if fee > 0 then invokeTransfer l payer dst fee else pure l

/-! ## Fee config -/

/-- The accounts of `init_config` that its handler reads. -/
structure InitConfig where
  config : Pubkey
  authority : Pubkey

/-- The signer pays for the config it becomes the authority of; there is one per deployment. -/
def InitConfig.tryAccounts (d : Deployment) (env : Env) (accounts : List AccountMeta)
    (l : Ledger) : Result (InitConfig × Ledger) :=
  match accounts with
  | config :: authority :: systemProgram :: _ => do
    let authorityKey ← signer authority
    programAccount systemProgram systemProgramId
    constraintSeeds config d.findConfig
    let l ← okOr (l.initAccount env.minimumBalance authorityKey config.pubkey d.programId
      TranaConfig.layout.space) .system
    constraintMut config
    constraintMut authority
    pure (⟨config.pubkey, authorityKey⟩, l)
  | _ => notEnoughKeys

/-- One-time initialization of the global fee config PDA. -/
def initConfig (ctx : InitConfig) (registerFee addKeyFee : UInt64) (treasury : Pubkey) :
    Result TranaConfig := do
  msg s!"TRANA config | register_fee={registerFee} | add_key_fee={addKeyFee} | treasury={treasury.toBase58}"
  pure ⟨ctx.authority, treasury, registerFee, addKeyFee⟩

/-- The accounts of `update_config`. -/
structure UpdateConfig where
  configKey : Pubkey
  config : TranaConfig

/-- The authority the config names has to sign. -/
def UpdateConfig.tryAccounts (d : Deployment) (accounts : List AccountMeta) (l : Ledger) :
    Result UpdateConfig :=
  match accounts with
  | config :: authority :: _ => do
    let cfg ← loadAccount TranaConfig.layout d.programId (l config.pubkey)
    let authorityKey ← signer authority
    constraintSeeds config d.findConfig
    constraintMut config
    require (cfg.authority = authorityKey) GuardError.unauthorized
    pure ⟨config.pubkey, cfg⟩
  | _ => notEnoughKeys

/-- Update registration/add-key fees or treasury address. -/
def updateConfig (ctx : UpdateConfig) (registerFee addKeyFee : UInt64) (treasury : Pubkey) :
    Result TranaConfig := do
  msg s!"TRANA config updated | register_fee={registerFee} | add_key_fee={addKeyFee} | treasury={treasury.toBase58}"
  pure { ctx.config with registerFee, addKeyFee, treasury }

/-! ## Passkey registration -/

/-- The accounts of `register_passkey`. -/
structure RegisterPasskey where
  registryKey : Pubkey
  registry : PasskeyRegistry
  owner : Pubkey
  config : TranaConfig
  treasury : Pubkey

/-- The registry is created when it is not there. -/
def initRegistryIfNeeded (d : Deployment) (env : Env) (payer key : Pubkey) (l : Ledger) :
    Result (PasskeyRegistry × Ledger) :=
  initIfNeeded PasskeyRegistry.layout d.programId env.minimumBalance payer key l

/-- The wallet signs and pays; the registry is the one at its derived address. -/
def RegisterPasskey.tryAccounts (d : Deployment) (env : Env) (accounts : List AccountMeta)
    (l : Ledger) : Result (RegisterPasskey × Ledger) :=
  match accounts with
  | registry :: owner :: systemProgram :: config :: treasury :: _ => do
    let ownerKey ← signer owner
    programAccount systemProgram systemProgramId
    let cfg ← loadAccount TranaConfig.layout d.programId (l config.pubkey)
    constraintSeeds registry (d.findRegistry ownerKey)
    let (reg, l) ← initRegistryIfNeeded d env ownerKey registry.pubkey l
    constraintMut registry
    constraintMut owner
    constraintSeeds config d.findConfig
    constraintMut treasury
    require (treasury.pubkey = cfg.treasury) GuardError.invalidTreasury
    pure (⟨registry.pubkey, reg, ownerKey, cfg, treasury.pubkey⟩, l)
  | _ => notEnoughKeys

/-- Register the first passkey for a wallet. -/
def registerPasskey (ctx : RegisterPasskey) (keyKind : KeyKind)
    (pubkeyBytes credentialId : Bytes) (l : Ledger) : Result (PasskeyRegistry × Ledger) := do
  validateKeyInputs pubkeyBytes credentialId
  -- a registry with keys has been registered before
  require (ctx.registry.keys.isEmpty) GuardError.unauthorized
  let l ← collectFee l ctx.owner ctx.treasury ctx.config.registerFee
  let r := { ctx.registry with
    owner := ctx.owner, keys := ctx.registry.keys ++ [⟨keyKind, pubkeyBytes, credentialId⟩] }
  msg s!"TRANA register_passkey | owner={r.owner.toBase58}"
  pure (r, l)

/-- The accounts of `recover_registry`. -/
structure RecoverRegistry where
  registryKey : Pubkey
  registry : PasskeyRegistry
  owner : Pubkey

/-- The wallet's signature is all that is asked for. -/
def RecoverRegistry.tryAccounts (d : Deployment) (accounts : List AccountMeta) (l : Ledger) :
    Result RecoverRegistry :=
  match accounts with
  | registry :: owner :: systemProgram :: _ => do
    let reg ← loadAccount PasskeyRegistry.layout d.programId (l registry.pubkey)
    let ownerKey ← signer owner
    programAccount systemProgram systemProgramId
    constraintSeeds registry (d.findRegistry ownerKey)
    constraintMut registry
    constraintMut owner
    pure ⟨registry.pubkey, reg, ownerKey⟩
  | _ => notEnoughKeys

/-- Emergency recovery: clear all passkeys and register a fresh one. -/
def recoverRegistry (ctx : RecoverRegistry) (keyKind : KeyKind)
    (pubkeyBytes credentialId : Bytes) : Result PasskeyRegistry := do
  validateKeyInputs pubkeyBytes credentialId
  -- the nonce starts over, and every key that was there is gone
  let r : PasskeyRegistry := ⟨ctx.owner, 0, [⟨keyKind, pubkeyBytes, credentialId⟩]⟩
  msg s!"TRANA recover_registry | owner={r.owner.toBase58}"
  pure r

/-- The accounts of `add_passkey`. -/
structure AddPasskey where
  registryKey : Pubkey
  registry : PasskeyRegistry
  owner : Pubkey
  config : TranaConfig
  treasury : Pubkey

/-- As for the first key, with the Instructions sysvar for the proof. -/
def AddPasskey.tryAccounts (d : Deployment) (accounts : List AccountMeta) (l : Ledger) :
    Result AddPasskey :=
  match accounts with
  | registry :: owner :: systemProgram :: config :: treasury :: instructions :: _ => do
    let reg ← loadAccount PasskeyRegistry.layout d.programId (l registry.pubkey)
    let ownerKey ← signer owner
    programAccount systemProgram systemProgramId
    let cfg ← loadAccount TranaConfig.layout d.programId (l config.pubkey)
    constraintSeeds registry (d.findRegistry ownerKey)
    constraintMut registry
    constraintMut owner
    constraintSeeds config d.findConfig
    constraintMut treasury
    require (treasury.pubkey = cfg.treasury) GuardError.invalidTreasury
    constraintAddress instructions instructionsId
    pure ⟨registry.pubkey, reg, ownerKey, cfg, treasury.pubkey⟩
  | _ => notEnoughKeys

/-- Add an additional passkey to an existing registry. -/
def addPasskey (d : Deployment) (env : Env) (ctx : AddPasskey) (keyKind : KeyKind)
    (pubkeyBytes credentialId : Bytes) (l : Ledger) : Result (PasskeyRegistry × Ledger) := do
  validateKeyInputs pubkeyBytes credentialId
  -- room is checked before the proof, so a full registry keeps its nonce
  require (ctx.registry.keys.length < maxKeys) GuardError.maxKeysReached
  let r ← verifyWithPolicy env.clock env.ixSysvar ctx.registry ctx.owner d.programId policyRequire
  let l ← collectFee l ctx.owner ctx.treasury ctx.config.addKeyFee
  let r := { r with keys := r.keys ++ [⟨keyKind, pubkeyBytes, credentialId⟩] }
  msg s!"TRANA add_passkey | owner={ctx.owner.toBase58} | total_keys={r.keys.length}"
  pure (r, l)

/-- The accounts of `remove_passkey`. -/
structure RemovePasskey where
  registryKey : Pubkey
  registry : PasskeyRegistry
  owner : Pubkey

/-- No config: removing a key is free. -/
def RemovePasskey.tryAccounts (d : Deployment) (accounts : List AccountMeta) (l : Ledger) :
    Result RemovePasskey :=
  match accounts with
  | registry :: owner :: instructions :: _ => do
    let reg ← loadAccount PasskeyRegistry.layout d.programId (l registry.pubkey)
    let ownerKey ← signer owner
    constraintSeeds registry (d.findRegistry ownerKey)
    constraintMut registry
    constraintAddress instructions instructionsId
    pure ⟨registry.pubkey, reg, ownerKey⟩
  | _ => notEnoughKeys

/-- Remove a passkey by its credential ID. -/
def removePasskey (d : Deployment) (env : Env) (ctx : RemovePasskey) (credentialId : Bytes) :
    Result PasskeyRegistry := do
  require (ctx.registry.keys.length > 1) GuardError.lastKeyCannotBeRemoved
  let r ← verifyWithPolicy env.clock env.ixSysvar ctx.registry ctx.owner d.programId policyRequire
  let before := r.keys.length
  -- more than one key before, but an entry for every key with this id goes
  let keys := r.keys.filter (·.credentialId != credentialId)
  let after := keys.length
  require (after < before) GuardError.credentialNotFound
  msg s!"TRANA remove_passkey | owner={ctx.owner.toBase58} | remaining_keys={after}"
  pure { r with keys }

/-! ## Data carrier -/

/-- The sysvar, and nothing else. -/
def RecordProof.tryAccounts (accounts : List AccountMeta) : Result Unit :=
  match accounts with
  | instructions :: _ => constraintAddress instructions instructionsId
  | _ => notEnoughKeys

/-- Pure data-carrier instruction. -/
def recordProof (proof : ProofData) : Result Unit :=
  require (proof.version = 1) GuardError.invalidProof

/-! ## Single enforcement entry point -/

/-- The accounts of `enforce`. The registry may be any account here: its owner and
contents are looked at when the policy fires, and its address never. -/
structure Enforce where
  registry : Pubkey
  owner : Pubkey

/-- The wallet signs, also through another program. -/
def Enforce.tryAccounts (accounts : List AccountMeta) : Result Enforce :=
  match accounts with
  | registry :: owner :: instructions :: _ => do
    let ownerKey ← signer owner
    -- the registry's address is not compared with the wallet's
    constraintMut registry
    constraintAddress instructions instructionsId
    pure ⟨registry.pubkey, ownerKey⟩
  | _ => notEnoughKeys

/-- The accounts of `cpi::accounts::Enforce`, for a program that calls. -/
def Enforce.toAccountMetas (ctx : Enforce) : List AccountMeta :=
  [⟨ctx.registry, false, true⟩, ⟨ctx.owner, true, false⟩, ⟨instructionsId, false, false⟩]

/-- Enforce authorization according to the given policy. -/
def enforce (d : Deployment) (env : Env) (ctx : Enforce) (policy : Policy) (l : Ledger) :
    Result Ledger :=
  let verify (policyId : String) (reg : PasskeyRegistry) : Result PasskeyRegistry :=
    verifyWithPolicy env.clock env.ixSysvar reg ctx.owner d.programId policyId
  match policy with
  | .require => do
    msg s!"TRANA require | policy={policyRequire} | owner={ctx.owner.toBase58}"
    withRegistry d l ctx.registry ctx.owner (verify policyRequire)
  | .notBefore slot =>
    let currentSlot := env.clock.slot
    if currentSlot < slot then do
      msg s!"TRANA require | policy={policyNotBefore} | current={currentSlot} | required={slot} | owner={ctx.owner.toBase58}"
      withRegistry d l ctx.registry ctx.owner (verify policyNotBefore)
    else pure l
  | .notAfter slot =>
    let currentSlot := env.clock.slot
    if currentSlot > slot then do
      msg s!"TRANA require | policy={policyNotAfter} | current={currentSlot} | expiry={slot} | owner={ctx.owner.toBase58}"
      withRegistry d l ctx.registry ctx.owner (verify policyNotAfter)
    else pure l
  | .limit paramOffset bound => do
    -- the amount of the top-level instruction, whichever program called
    let (amount, currentIdx) ← readU64FromProtectedIx env.ixSysvar paramOffset
    if amount ≥ bound then do
      msg s!"TRANA require | policy={policyLimit} | amount={amount} | limit={bound} | owner={ctx.owner.toBase58}"
      withRegistry d l ctx.registry ctx.owner fun reg =>
        verifyAtIdx env.clock env.ixSysvar reg ctx.owner d.programId policyLimit currentIdx
    else pure l

/-! ## Dispatch -/

/-- A decoded instruction. -/
inductive GuardInstruction where
  | initConfig (registerFee addKeyFee : UInt64) (treasury : Pubkey)
  | updateConfig (registerFee addKeyFee : UInt64) (treasury : Pubkey)
  | registerPasskey (keyKind : KeyKind) (pubkeyBytes credentialId : Bytes)
  | recoverRegistry (keyKind : KeyKind) (pubkeyBytes credentialId : Bytes)
  | addPasskey (keyKind : KeyKind) (pubkeyBytes credentialId : Bytes)
  | removePasskey (credentialId : Bytes)
  | recordProof (proof : ProofData)
  | enforce (policy : Policy)
  deriving DecidableEq

/-- The arguments of `init_config` and `update_config`. -/
def configArgs : Codec (UInt64 × UInt64 × Pubkey) :=
  Codec.u64.pair (Codec.u64.pair Pubkey.codec)

/-- The discriminators: the first eight bytes of the hash of each instruction's name. -/
def initConfigDisc : Bytes := [23, 235, 115, 232, 168, 96, 1, 231]
def updateConfigDisc : Bytes := [29, 158, 252, 191, 10, 83, 219, 99]
def registerPasskeyDisc : Bytes := [16, 2, 121, 116, 194, 17, 247, 233]
def recoverRegistryDisc : Bytes := [136, 166, 31, 45, 33, 116, 115, 12]
def addPasskeyDisc : Bytes := [173, 230, 84, 153, 54, 144, 214, 37]
def removePasskeyDisc : Bytes := [121, 198, 177, 145, 248, 134, 170, 239]
def enforceDisc : Bytes := [145, 247, 86, 94, 97, 48, 101, 169]

/-- The instruction data of `cpi::enforce`. -/
def enforceData (policy : Policy) : Bytes := enforceDisc ++ (Policy.codec.write policy).getD []

/-- Arguments are read from the front; bytes after them are ignored. -/
def readArgs {α : Type} (c : Codec α) (args : Bytes) : Result α :=
  okOr ((c.read args).map Prod.fst) (.anchor .instructionDidNotDeserialize)

/-- Choose the handler by discriminator and decode its arguments. -/
def parseInstruction (data : Bytes) : Result GuardInstruction :=
  let disc := data.take 8
  let args := data.drop 8
  if disc = initConfigDisc then do
    msg "Instruction: InitConfig"
    let a ← readArgs configArgs args
    pure (.initConfig a.1 a.2.1 a.2.2)
  else if disc = updateConfigDisc then do
    msg "Instruction: UpdateConfig"
    let a ← readArgs configArgs args
    pure (.updateConfig a.1 a.2.1 a.2.2)
  else if disc = registerPasskeyDisc then do
    msg "Instruction: RegisterPasskey"
    let e ← readArgs PasskeyEntry.codec args
    pure (.registerPasskey e.keyKind e.pubkeyBytes e.credentialId)
  else if disc = recoverRegistryDisc then do
    msg "Instruction: RecoverRegistry"
    let e ← readArgs PasskeyEntry.codec args
    pure (.recoverRegistry e.keyKind e.pubkeyBytes e.credentialId)
  else if disc = addPasskeyDisc then do
    msg "Instruction: AddPasskey"
    let e ← readArgs PasskeyEntry.codec args
    pure (.addPasskey e.keyKind e.pubkeyBytes e.credentialId)
  else if disc = removePasskeyDisc then do
    msg "Instruction: RemovePasskey"
    let credentialId ← readArgs Codec.vecU8 args
    pure (.removePasskey credentialId)
  else if disc = recordProofDisc then do
    msg "Instruction: RecordProof"
    let proof ← readArgs ProofData.codec args
    pure (.recordProof proof)
  else if disc = enforceDisc then do
    msg "Instruction: Enforce"
    let policy ← readArgs Policy.codec args
    pure (.enforce policy)
  else fail (.anchor .instructionFallbackNotFound)

/-- Run a decoded instruction on its accounts. -/
def execute (d : Deployment) (env : Env) (accounts : List AccountMeta) (ix : GuardInstruction)
    (l : Ledger) : Result Ledger :=
  match ix with
  | .initConfig registerFee addKeyFee treasury => do
    let (ctx, l) ← InitConfig.tryAccounts d env accounts l
    let cfg ← initConfig ctx registerFee addKeyFee treasury
    exitAccount TranaConfig.layout d.programId ctx.config cfg l
  | .updateConfig registerFee addKeyFee treasury => do
    let ctx ← UpdateConfig.tryAccounts d accounts l
    let cfg ← updateConfig ctx registerFee addKeyFee treasury
    exitAccount TranaConfig.layout d.programId ctx.configKey cfg l
  | .registerPasskey keyKind pubkeyBytes credentialId => do
    let (ctx, l) ← RegisterPasskey.tryAccounts d env accounts l
    let (r, l) ← registerPasskey ctx keyKind pubkeyBytes credentialId l
    exitAccount PasskeyRegistry.layout d.programId ctx.registryKey r l
  | .recoverRegistry keyKind pubkeyBytes credentialId => do
    let ctx ← RecoverRegistry.tryAccounts d accounts l
    let r ← recoverRegistry ctx keyKind pubkeyBytes credentialId
    exitAccount PasskeyRegistry.layout d.programId ctx.registryKey r l
  | .addPasskey keyKind pubkeyBytes credentialId => do
    let ctx ← AddPasskey.tryAccounts d accounts l
    let (r, l) ← addPasskey d env ctx keyKind pubkeyBytes credentialId l
    exitAccount PasskeyRegistry.layout d.programId ctx.registryKey r l
  | .removePasskey credentialId => do
    let ctx ← RemovePasskey.tryAccounts d accounts l
    let r ← removePasskey d env ctx credentialId
    exitAccount PasskeyRegistry.layout d.programId ctx.registryKey r l
  | .recordProof proof => do
    RecordProof.tryAccounts accounts
    recordProof proof
    pure l
  | .enforce policy => do
    let ctx ← Enforce.tryAccounts accounts
    enforce d env ctx policy l

/-- The program's entry point. -/
def process (d : Deployment) (env : Env) (accounts : List AccountMeta) (data : Bytes)
    (l : Ledger) : Result Ledger := do
  let ix ← parseInstruction data
  execute d env accounts ix l

/-- `cpi::enforce`: the entry point, with the caller's accounts. -/
def invokeEnforce (d : Deployment) (env : Env) (ctx : Enforce) (policy : Policy) (l : Ledger) :
    Result Ledger :=
  process d env ctx.toAccountMetas (enforceData policy) l

end Trana.Guard
