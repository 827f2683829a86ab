import Trana.Guard.Program

/-!
# The counter example: state and instructions

`lib.rs` of the example program the guard ships with: a counter per wallet, and
an increment that needs a passkey every time. It is the guard's smallest
caller, and its `increment` is the shape every integration has: validate the
accounts, call `enforce` by CPI with the wallet's registry, then do the work.

The state is a record with the three fields of the source, written after its
discriminator by Anchor. `initialize` creates the account at the address the
wallet derives (a canonical bump, stored), `increment` finds it by the stored
bump and by `has_one = owner`.

* `Initialize.tryAccounts`, `Increment.tryAccounts` — the account contexts.
* `initializeCounter`, `increment` — the handlers. The count is a `u64` and the
  addition is checked: at its largest value the increment fails.
* `process` — one invocation, dispatched on its discriminator.

Anchor's log lines and error codes are kept as far as the two handlers produce
them; the IDL instruction Anchor injects into every program is not modelled.
-/

namespace Trana.Counter

open Trana.Lib Trana.Lib.Exec Trana.Solana Trana.Guard

/-- `declare_id!` -/
def counterId : Pubkey :=
  ⟨[152, 45, 114, 37, 52, 24, 96, 192, 190, 46, 72, 115, 48, 171, 84, 164, 210, 242, 189, 89, 81,
    195, 66, 56, 116, 209, 11, 74, 16, 17, 100, 225], by decide⟩

example : counterId.toBase58 = "BF3AS5PQSbGvipTZo99CzPJmnLUJkyq3z8cY8RTimwTv" := by
  decide +kernel

/-- `Counter`: a wallet's counter, at the PDA of `["counter", owner]`. -/
structure CounterState where
  count : UInt64
  owner : Pubkey
  bump : UInt8
  deriving DecidableEq

/-- The fields in their order. -/
def CounterState.codec : Codec CounterState :=
  (Codec.u64.pair (Pubkey.codec.pair Codec.u8)).map
    (fun p => ⟨p.1, p.2.1, p.2.2⟩) (fun c => (c.count, c.owner, c.bump))
    (fun _ => rfl) (fun _ => rfl)

/-- The account: the hash of `account:Counter`, then the fields. -/
def CounterState.layout : AccountLayout CounterState where
  discriminator := [255, 176, 4, 245, 188, 253, 124, 25]
  initSpace := 8 + 32 + 1
  codec := CounterState.codec

/-- A log line, or what the guard logged during the call to it. -/
inductive Log where
  | msg (line : String)
  | guard (line : Guard.Log)
  deriving DecidableEq

/-- The program has no errors of its own: the framework's for `has_one`, or the
one the guard failed with. -/
inductive Failure where
  | constraintHasOne
  | guard (e : ProgramError Guard.GuardError)
  deriving DecidableEq

/-- What a handler returns, logs or fails with. -/
abbrev Result := ProgramExec Failure Log

/-- The program's derived addresses, with their canonical bumps. -/
structure Deployment where
  guard : Guard.Deployment
  findCounter : Pubkey → Pubkey × UInt8
  createCounter : Pubkey → UInt8 → Option Pubkey
  guard_ne : guard.programId ≠ counterId
  createCounter_find : ∀ owner,
    createCounter owner (findCounter owner).2 = some (findCounter owner).1

/-- Fewer accounts than the context has. -/
def notEnoughKeys {α : Type} : Result α := fail (.anchor .accountNotEnoughKeys)

/-- `has_one = owner` -/
def constraintHasOne (stored key : Pubkey) : Result Unit :=
  Exec.require (stored = key) (.custom .constraintHasOne)

/-- It holds when the stored key is the given one. -/
@[simp] theorem returns_constraintHasOne {stored key : Pubkey} {u : Unit} :
    (constraintHasOne stored key).Returns u ↔ stored = key :=
  Exec.returns_require

/-! ## Initialize -/

/-- The accounts of `initialize`, and the bump its seeds gave. -/
structure Initialize where
  counter : Pubkey
  owner : Pubkey
  bump : UInt8

/-- Anchor's validation, in the order its derive macro generates; what it creates is
in the new ledger. -/
def Initialize.tryAccounts (d : Deployment) (env : Env) (accounts : List AccountMeta)
    (l : Ledger) : Result (Initialize × Ledger) :=
  match accounts with
  | counter :: owner :: systemProgram :: _ => do
    let ownerKey ← signer owner
    programAccount systemProgram systemProgramId
    constraintSeeds counter (d.findCounter ownerKey).1
    let l ← okOr (l.initAccount env.minimumBalance ownerKey counter.pubkey counterId
      CounterState.layout.space) .system
    constraintMut counter
    constraintMut owner
    -- no field of `Initialize` names the bump; `ctx.bumps.counter` does
    pure (⟨counter.pubkey, ownerKey, (d.findCounter ownerKey).2⟩, l)
  | _ => notEnoughKeys

/-- `initialize`: create a passkey-gated counter for the signing wallet. -/
def initializeCounter (ctx : Initialize) : CounterState := ⟨0, ctx.owner, ctx.bump⟩

/-! ## Increment -/

/-- The accounts of `increment`. -/
structure Increment where
  counterKey : Pubkey
  counter : CounterState
  owner : Pubkey
  tranaRegistry : Pubkey
  deriving DecidableEq

/-- The registry is unchecked here; the guard checks it. -/
def Increment.tryAccounts (d : Deployment) (accounts : List AccountMeta) (l : Ledger) :
    Result Increment :=
  match accounts with
  | counter :: owner :: tranaGuardProgram :: tranaRegistry :: instructions :: _ => do
    let c ← loadAccount CounterState.layout counterId (l counter.pubkey)
    let ownerKey ← signer owner
    programAccount tranaGuardProgram d.guard.programId
    -- `seeds` and `bump = counter.bump`: the stored bump, not the canonical one
    constraintBump counter (d.createCounter ownerKey c.bump)
    constraintMut counter
    constraintHasOne c.owner ownerKey
    -- `UncheckedAccount`: writable is all that Anchor asks of it
    constraintMut tranaRegistry
    constraintAddress instructions instructionsId
    pure ⟨counter.pubkey, c, ownerKey, tranaRegistry.pubkey⟩
  | _ => notEnoughKeys

/-- The registry and the owner that are handed on. -/
def Increment.cpiContext (ctx : Increment) : Guard.Enforce := ⟨ctx.tranaRegistry, ctx.owner⟩

/-- `trana_guard::cpi::enforce(ctx, policy)?` -/
def cpiEnforce (d : Deployment) (env : Env) (ctx : Increment) (policy : Policy) (l : Ledger) :
    Result Ledger :=
  (Guard.invokeEnforce d.guard env ctx.cpiContext policy l).embed
    (fun e => .custom (.guard e)) .guard

/-- Increment the counter — passkey required every time. -/
def increment (d : Deployment) (env : Env) (ctx : Increment) (l : Ledger) :
    Result (CounterState × Ledger) := do
  -- the CPI comes first: without a proof nothing is counted
  let l ← cpiEnforce d env ctx .require l
  -- `+=` under `overflow-checks`: the largest count panics
  let count ← u64Add ctx.counter.count 1
  pure ({ ctx.counter with count }, l)

/-! ## Dispatch -/

/-- The two instructions. -/
inductive CounterInstruction where
  | initializeCounter
  | increment
  deriving DecidableEq

/-- The hash of `global:initialize`. -/
def initializeDisc : Bytes := [175, 175, 109, 31, 13, 152, 155, 237]
/-- The hash of `global:increment`. -/
def incrementDisc : Bytes := [11, 18, 104, 9, 104, 174, 59, 33]

/-- Neither instruction has arguments; bytes behind the discriminator are not read. -/
def parseInstruction (data : Bytes) : Result CounterInstruction :=
  let disc := data.take 8
  if disc = initializeDisc then do
    Exec.log (.msg "Instruction: Initialize")
    pure .initializeCounter
  else if disc = incrementDisc then do
    Exec.log (.msg "Instruction: Increment")
    pure .increment
  else fail (.anchor .instructionFallbackNotFound)

/-- Validation, handler, exit. -/
def execute (d : Deployment) (env : Env) (accounts : List AccountMeta) (ix : CounterInstruction)
    (l : Ledger) : Result Ledger :=
  match ix with
  | .initializeCounter => do
    let (ctx, l) ← Initialize.tryAccounts d env accounts l
    exitAccount CounterState.layout counterId ctx.counter (initializeCounter ctx) l
  | .increment => do
    let ctx ← Increment.tryAccounts d accounts l
    let (c, l) ← increment d env ctx l
    exitAccount CounterState.layout counterId ctx.counterKey c l

/-- The program's entry point. -/
def process (d : Deployment) (env : Env) (accounts : List AccountMeta) (data : Bytes)
    (l : Ledger) : Result Ledger := do
  let ix ← parseInstruction data
  execute d env accounts ix l

end Trana.Counter
