import Trana.Landing.Vault
import Trana.Scripts.Proof

/-!
# Command line: the keys of a wallet

`register-passkey.mjs`, `add-passkey.mjs`, `remove-passkey.mjs` and
`recover-registry.mjs`: what they read of the registry and the config, and the
transactions they send. What becomes of a transaction is in `Trana.Scripts.Run`.

Each script is a function to `Script`: the instructions it sends, or how it ends
before it sends anything. The first two command-line inputs, the guard's program id
and the wallet (a path, or `ANCHOR_WALLET`), are the deployment `d` and the keypair
here; that they can be read is assumed. The other two are strings as they were
typed, and a missing one reads as the empty one: `!pubkeyHex` is true of both, and
the script prints its usage and leaves. `getAccountInfo` is the cluster's answer,
`dateNow` the clock of the machine the script runs on.

Three things differ from the files:

* What a script prints is left out, with what it computes only to print it. The one
  exception is the number of keys that `recover-registry.mjs` reads for its log:
  reading it can throw, so it stays.
* The accounts are listed with the flags the scripts write. The message a wallet
  signs has one entry for each address, with the flags of all of them together, so
  that the guard sees the owner writable everywhere, as the fee payer. None of the
  guard's checks is about a flag that is missing, and no flag is hashed.
* `findProgramAddressSync` is the deployment's derived address.
-/

namespace Trana.Scripts

open Trana.Lib Trana.Solana Trana.Sdk
open Trana.Landing (AccountInfo publicKey length_sliceBytes_le)

/-- How a script ends without sending anything. -/
inductive ScriptError where
  | usage
  | noRegistry
  | noConfig
  | alreadyRegistered
  | lastPasskey
  | pubkeyLength (length : ℕ)
  | range (e : RangeError)
  | notBuilt
  deriving DecidableEq

/-- What a script does before it sends anything. -/
abbrev Script (α : Type) := Except ScriptError α

/-- An exception that nobody catches. -/
def orThrow {α : Type} (x : Throws α) : Script α := x.mapError .range

/-- `if (!guardId || …) { console.error("Usage: …"); process.exit(1) }` -/
def requireArguments (arguments : List String) : Script Unit :=
  if "" ∈ arguments then .error .usage else pure ()

/-- `writeUInt32LE(n)`, which throws when the number does not fit. -/
def u32le (n : ℕ) : Throws Bytes := if n < 2 ^ 32 then .ok (leBytes 4 n) else .error .outOfBounds

/-- Borsh's byte vector: its length, then the bytes. -/
def borshBytes (b : Bytes) : Throws Bytes := do
  let length ← u32le b.length
  pure (length ++ b)

/-- An account that has to be there. -/
def getAccount (getAccountInfo : Pubkey → Option AccountInfo) (key : Pubkey)
    (missing : ScriptError) : Script AccountInfo :=
  match getAccountInfo key with
  | none => .error missing
  | some info => .ok info

/-- `new DataView(data.buffer, data.byteOffset + 40, 8).getBigUint64(0, true)` -/
def readNonce (info : AccountInfo) : Throws ℕ := do
  let view ← dataView info.data.buffer (info.data.byteOffset + 40) 8
  getBigUint64 view 0

/-- `new DataView(data.buffer, data.byteOffset + 8+32+8, 4).getUint32(0, true)` -/
def readVecLen (info : AccountInfo) : Throws ℕ := do
  let view ← dataView info.data.buffer (info.data.byteOffset + (8 + 32 + 8)) 4
  getUint32 view 0

/-- The number of keys, where there is a registry. -/
def nKeys : Option AccountInfo → Script ℕ
  | some regInfo => orThrow (readVecLen regInfo)
  | none => pure 0

/-- The treasury's bytes are 32 at most. -/
theorem length_slice_treasury (info : AccountInfo) :
    (sliceBytes info.data.bytes 40 72).length ≤ 32 :=
  length_sliceBytes_le info.data.bytes 40 32

/-- The treasury, behind discriminator and authority. -/
def readTreasury (info : AccountInfo) : Pubkey :=
  publicKey (sliceBytes info.data.bytes 40 72) (length_slice_treasury info)

/-- Discriminator, kind 0, key and credential id. -/
def credentialData (disc pubkeyBytes credentialId : Bytes) : Throws Bytes := do
  let key ← borshBytes pubkeyBytes
  let id ← borshBytes credentialId
  pure (disc ++ [0] ++ key ++ id)

/-- The discriminators are written out in the scripts, as here. -/
def registerDisc : Bytes := [16, 2, 121, 116, 194, 17, 247, 233]
/-- `add_passkey`, as the script writes it. -/
def addDisc : Bytes := [173, 230, 84, 153, 54, 144, 214, 37]
/-- `remove_passkey`. -/
def removeDisc : Bytes := [121, 198, 177, 145, 248, 134, 170, 239]
/-- `recover_registry`. -/
def recoverDisc : Bytes := [136, 166, 31, 45, 33, 116, 115, 12]

/-! ## The instructions -/

section Instructions

variable (d : Guard.Deployment) (owner treasury : Pubkey) (data : Bytes)

/-- The wallet pays the new account's rent and the fee. -/
def registerIx : Instruction where
  programId := d.programId
  accounts :=
    [⟨d.findRegistry owner, false, true⟩,
     ⟨owner, true, true⟩,
     ⟨systemProgramId, false, false⟩,
     ⟨d.findConfig, false, false⟩,
     ⟨treasury, false, true⟩]
  data
  accounts_lt := by simp

/-- The same accounts, and the sysvar the proof is read from. -/
def addPasskeyIx : Instruction where
  programId := d.programId
  accounts :=
    [⟨d.findRegistry owner, false, true⟩,
     ⟨owner, true, true⟩,
     ⟨systemProgramId, false, false⟩,
     ⟨d.findConfig, false, false⟩,
     ⟨treasury, false, true⟩,
     ⟨instructionsId, false, false⟩]
  data
  accounts_lt := by simp

/-- A removal costs nothing but the transaction fee. -/
def removeIx : Instruction where
  programId := d.programId
  accounts :=
    [⟨d.findRegistry owner, false, true⟩,
     ⟨owner, true, false⟩,
     ⟨instructionsId, false, false⟩]
  data
  accounts_lt := by simp

/-- No sysvar: a recovery takes no proof. -/
def recoverIx : Instruction where
  programId := d.programId
  accounts :=
    [⟨d.findRegistry owner, false, true⟩,
     ⟨owner, true, true⟩,
     ⟨systemProgramId, false, false⟩]
  data
  accounts_lt := by simp

end Instructions

/-! ## The scripts -/

section Scripts

variable {curve : Secp256r1.Curve} (p256 : P256 curve) (alloc : AllocUnsafe)
  (d : Guard.Deployment) (getAccountInfo : Pubkey → Option AccountInfo) (owner : Keypair)
  (pubkeyHex credIdHex : String) (dateNow : ℕ)

/-- The id that goes with the derived key. -/
def derivedCredentialId : Bytes :=
  (sha256 (Codec.utf8 "trana:credid:v1" ++ owner.publicKey.bytes)).take 16

/-- `register-passkey.mjs`: the derived key as the wallet's first. -/
def registerPasskey : Script (List Instruction) := do
  let configInfo ← getAccount getAccountInfo d.findConfig .noConfig
  -- any account at all, also one that holds lamports and nothing else
  if (getAccountInfo (d.findRegistry owner.publicKey)).isSome then
    .error .alreadyRegistered
  else
    let data ← orThrow (credentialData registerDisc (pubkeyBytes p256 owner)
      (derivedCredentialId owner))
    pure [registerIx d owner.publicKey (readTreasury configInfo) data]

/-- `add-passkey.mjs`: another key, behind the derived key's proof. -/
def addPasskey : Script (List Instruction) := do
  requireArguments [pubkeyHex, credIdHex]
  let regInfo ← getAccount getAccountInfo (d.findRegistry owner.publicKey) .noRegistry
  let nonce ← orThrow (readNonce regInfo)
  let configInfo ← getAccount getAccountInfo d.findConfig .noConfig
  let data ← orThrow (credentialData addDisc (hexDecode pubkeyHex) (hexDecode credIdHex))
  let ix := addPasskeyIx d owner.publicKey (readTreasury configInfo) data
  (proofTransaction p256 alloc owner d.programId ix nonce dateNow).elim (.error .notBuilt) .ok

/-- `remove-passkey.mjs`: never the last one. -/
def removePasskey : Script (List Instruction) := do
  requireArguments [credIdHex]
  let regInfo ← getAccount getAccountInfo (d.findRegistry owner.publicKey) .noRegistry
  let nonce ← orThrow (readNonce regInfo)
  let vecLen ← orThrow (readVecLen regInfo)
  if vecLen ≤ 1 then
    .error .lastPasskey
  else
    let id ← orThrow (borshBytes (hexDecode credIdHex))
    let ix := removeIx d owner.publicKey (removeDisc ++ id)
    (proofTransaction p256 alloc owner d.programId ix nonce dateNow).elim (.error .notBuilt) .ok

/-- `recover-registry.mjs`: all keys go, a new one comes. -/
def recoverRegistry : Script (List Instruction) := do
  requireArguments [pubkeyHex, credIdHex]
  let key := hexDecode pubkeyHex
  if key.length ≠ 33 then
    .error (.pubkeyLength key.length)
  else
    -- for the log only, but a registry that is cut off stops the script here
    let _nKeys ← nKeys (getAccountInfo (d.findRegistry owner.publicKey))
    let data ← orThrow (credentialData recoverDisc key (hexDecode credIdHex))
    pure [recoverIx d owner.publicKey data]

end Scripts

end Trana.Scripts
