import Trana.Lib.Search
import Trana.Solana.Types

/-!
# SDK: sending

The end of `authorizeAndSend` in `react/useTrana.ts`, from the approval on: each
attempt fetches a blockhash, has the caller build the transaction, puts the
proof pair in front of the guarded instruction and hands it to the wallet. What
cluster, caller and wallet answer may depend on everything handed over so far,
as it does when the caller returns an object the loop has changed already.

* `InstructionObject` — the guarded instruction is found by `indexOf`, that is by
  identity; two objects that say the same are different.
* `BuiltTransaction` — a legacy transaction has an array of instructions, a
  versioned one a compiled message, into which the source puts nothing.
* `Host` — cluster, wallet and caller.
* `sendLoop` — the loop, with two attempts; the second only for an expired
  blockhash.
* `sendLoop_made` — how a transaction comes to be handed over, whatever the
  attempt.

What the UI shows while it waits is not part of it, nor is a promise that never
settles.
-/

namespace Trana.Sdk

open Trana.Lib Trana.Solana

/-- A `TransactionInstruction`: an object, told apart from others that say the same. -/
structure InstructionObject where
  ref : Nat
  ix : Instruction
  deriving DecidableEq

/-- What `buildTransaction` may return. A versioned transaction has its
instructions compiled into a message. -/
inductive BuiltTransaction where
  | legacy (instructions : List InstructionObject)
  | versioned (message : List Instruction)

/-- The duck-typed test: an array of instructions is there. -/
def BuiltTransaction.isLegacyTransaction : BuiltTransaction → Bool
  | .legacy _ => true
  | .versioned _ => false

/-- The instructions the transaction runs. -/
def BuiltTransaction.content : BuiltTransaction → List Instruction
  | .legacy instructions => instructions.map InstructionObject.ix
  | .versioned message => message

/-- What the caller built, and what the wallet was handed of it. -/
structure Handover where
  built : BuiltTransaction
  handed : BuiltTransaction

/-- Caller, wallet and cluster: a signature, or the message of an error. -/
structure Host where
  getLatestBlockhash : List Handover → Except String String
  buildTx : List Handover → String → Except String BuiltTransaction
  signTransaction : Option (List Handover → BuiltTransaction → Except String BuiltTransaction)
  sendRawTransaction : List Handover → BuiltTransaction → Except String String
  walletSend : List Handover → BuiltTransaction → Except String String

/-- All handovers, and how the call ended. -/
structure SendResult where
  handovers : List Handover
  result : Except String String

/-- `xs.splice(start, 0, ...ins)` -/
def splice {α : Type} (xs : List α) (start : Nat) (ins : List α) : List α :=
  xs.take start ++ (ins ++ xs.drop start)

/-- The wallet signs, or signs and sends in one. -/
def deliver (host : Host) (history : List Handover) (tx : BuiltTransaction) :
    Except String String :=
  match host.signTransaction with
  | some signTransaction => do
    let signed ← signTransaction history tx
    host.sendRawTransaction history signed
  | none => host.walletSend history tx

/-- The blockhash was too old. -/
def expired (msg : String) : Bool :=
  includes "Blockhash not found".toList msg.toList ||
    includes "block height exceeded".toList msg.toList

/-- `MAX_BLOCKHASH_RETRIES` -/
def maxBlockhashRetries : Nat := 2

section Loop

variable (host : Host) (instruction secp256r1Ix recordProofIx : InstructionObject)

/-- The retry loop, with so many attempts left. -/
def sendLoop : Nat → List Handover → SendResult
  | 0, history => ⟨history, .error "Transaction expired — please try again"⟩
  | attempts + 1, history =>
    match host.getLatestBlockhash history with
    | .error e => ⟨history, .error e⟩
    | .ok recentBlockhash =>
      match host.buildTx history recentBlockhash with
      | .error e => ⟨history, .error e⟩
      | .ok (.legacy instructions) =>
        -- located by object identity
        match instructions.idxOf? instruction with
        | none => ⟨history, .error "Trana: instruction not found in transaction"⟩
        | some idx =>
          -- the pair goes right in front of the guarded instruction
          let tx := .legacy (splice instructions idx [secp256r1Ix, recordProofIx])
          let history' := history ++ [⟨.legacy instructions, tx⟩]
          match deliver host history tx with
          | .ok signature => ⟨history', .ok signature⟩
          | .error e =>
            if expired e ∧ 0 < attempts then sendLoop attempts history' else ⟨history', .error e⟩
      -- no pair is put into a versioned transaction, and no retry follows
      | .ok (.versioned message) =>
        ⟨history ++ [⟨.versioned message, .versioned message⟩],
          host.walletSend history (.versioned message)⟩

/-- Without enforcement the transaction is sent as it is built. -/
def authorizeAndSend (needed : Bool) : SendResult :=
  if needed then sendLoop host instruction secp256r1Ix recordProofIx maxBlockhashRetries []
  else
    match host.getLatestBlockhash [] with
    | .error e => ⟨[], .error e⟩
    | .ok blockhash =>
      match host.buildTx [] blockhash with
      | .error e => ⟨[], .error e⟩
      | .ok tx => ⟨[⟨tx, tx⟩], host.walletSend [] tx⟩

end Loop

/-! ## What is handed over -/

section Made

variable {host : Host} {instruction secp256r1Ix recordProofIx : InstructionObject}

/-- A found object splits the list where it is. -/
theorem exists_of_idxOf?_eq_some {α : Type} [DecidableEq α] {x : α} {xs : List α} {i : Nat}
    (h : xs.idxOf? x = some i) : ∃ pre post, xs = pre ++ x :: post ∧ pre.length = i := by
  induction xs generalizing i with
  | nil => cases h
  | cons y xs ih =>
    rw [List.idxOf?_cons] at h
    split at h
    next heq =>
      obtain rfl := Option.some.inj h
      exact ⟨[], xs, by rw [List.nil_append, eq_of_beq heq], rfl⟩
    next =>
      obtain ⟨j, hj, rfl⟩ := Option.map_eq_some_iff.mp h
      obtain ⟨pre, post, rfl, rfl⟩ := ih hj
      exact ⟨y :: pre, post, rfl, rfl⟩

/-- Spliced in between the two parts. -/
theorem splice_append {α : Type} {pre post ins : List α} :
    splice (pre ++ post) pre.length ins = pre ++ (ins ++ post) := by
  unfold splice
  rw [List.take_left, List.drop_left]

/-- How a handover comes about: a legacy transaction with the pair put in, or a
versioned one as it is. -/
inductive Made (instruction secp256r1Ix recordProofIx : InstructionObject) : Handover → Prop where
  | legacy (pre post : List InstructionObject) :
    Made instruction secp256r1Ix recordProofIx ⟨.legacy (pre ++ instruction :: post),
      .legacy (pre ++ secp256r1Ix :: recordProofIx :: instruction :: post)⟩
  | versioned (message : List Instruction) :
    Made instruction secp256r1Ix recordProofIx ⟨.versioned message, .versioned message⟩

/-- One attempt adds one handover at most. -/
theorem made_concat {history : List Handover} {h : Handover}
    (hmade : ∀ h ∈ history, Made instruction secp256r1Ix recordProofIx h)
    (hlast : Made instruction secp256r1Ix recordProofIx h) :
    ∀ h' ∈ history ++ [h], Made instruction secp256r1Ix recordProofIx h' := by
  intro h' hmem
  rcases List.mem_append.mp hmem with hmem | hmem
  · exact hmade h' hmem
  · rw [List.mem_singleton.mp hmem]
    exact hlast

/-- Every handover is made by an attempt. -/
theorem sendLoop_made (attempts : Nat) (history : List Handover)
    (hmade : ∀ h ∈ history, Made instruction secp256r1Ix recordProofIx h) :
    ∀ h ∈ (sendLoop host instruction secp256r1Ix recordProofIx attempts history).handovers,
      Made instruction secp256r1Ix recordProofIx h := by
  -- one attempt less; the history grows, whatever the caller builds next
  induction attempts generalizing history with
  | zero => exact hmade
  | succ attempts ih =>
    unfold sendLoop
    split
    next => exact hmade
    next recentBlockhash hhash =>
      split
      next => exact hmade
      next instructions hbuilt =>
        split
        next => exact hmade
        next idx hidx =>
          obtain ⟨pre, post, rfl, rfl⟩ := exists_of_idxOf?_eq_some hidx
          have hlast := made_concat hmade (Made.legacy pre post)
          rw [splice_append]
          dsimp only
          split
          next => exact hlast
          next e herror =>
            split
            next => exact ih _ hlast
            next => exact hlast
      next message hbuilt => exact made_concat hmade (Made.versioned message)

end Made

end Trana.Sdk
