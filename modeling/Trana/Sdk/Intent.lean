import Trana.Guard.VerifySpec
import Trana.Lib.Text

/-!
# SDK: intents

`core/intent.ts`: an intent keeps its fields as text (base58 addresses, hex
hashes, a decimal nonce) and `hashIntent` turns the text back into the bytes
it hashes. A call that would throw is `none`.

* `intentFromInstruction` — the input an instruction gives: discriminator, account
  keys and parameters. Flags are not part of it.
* `buildIntent` — the intent, as text.
* `hashIntent` — the hash of the bytes the text stands for. Every text is parsed
  again (`PublicKey`, `Buffer.from(…, "hex")`, `BigInt`), so that `hashIntent` is
  a function of an intent a user has seen.
* `hashIntent_buildIntent` — for an instruction with a discriminator the hash
  of the built intent is the guard's `intentHash`.

An instruction of fewer than eight bytes has no discriminator; the SDK fills it
up with zeros, while the guard refuses it. `Date.now() / 1000` is rounded down
and the difference to the expiry added as a JS number, exact below 2^53.
-/

namespace Trana.Sdk

open Trana.Lib Trana.Solana Trana.Guard

/-- Developer-supplied description of the action to authorize. -/
structure IntentInput where
  targetProgramId : Pubkey ⊕ String
  instructionDiscriminator : Option (Bytes ⊕ String)
  accounts : Option (List Pubkey)
  params : Option Bytes
  policy : Option String

/-- The intent, as text that can be shown. -/
structure TranaIntent where
  version : UInt8
  domain : String
  wallet : String
  tranaGuardProgramId : String
  targetProgramId : String
  policyId : String
  instructionDiscriminator : String
  accountsHash : String
  paramsHash : String
  nonce : String
  expiryUnix : Int
  rawParamsHex : String
  accountsCount : Nat

/-- What the caller decides: the policy and how long the approval holds. -/
structure IntentConfig where
  policy : String
  expiryTtlSec : Option Int

/-- Derive the input directly from an instruction. -/
def intentFromInstruction (ix : Instruction) : IntentInput where
  targetProgramId := .inl ix.programId
  instructionDiscriminator := if ix.data.length ≥ 8 then some (.inl (ix.data.take 8)) else none
  accounts := some ix.accountKeys
  -- no member at all when nothing follows the discriminator
  params := if ix.data.length > 8 then some (ix.data.drop 8) else none
  policy := none

/-- `text.padStart(16, "0")` -/
def padStart16 (text : String) : String :=
  String.ofList (List.replicate (16 - text.toList.length) '0') ++ text

/-- The hash of no bytes. -/
def emptyHash : String := hexEncode (sha256 [])

/-- The hash of a member that is present and not empty, else the hash of nothing. -/
def hexHash {α : Type} (toBytes : List α → Bytes) (o : Option (List α)) : String :=
  match o with
  | some (a :: l) => hexEncode (sha256 (toBytes (a :: l)))
  | _ => emptyHash

/-- Build an intent from developer input and runtime context. `dateNow` is `Date.now()`. -/
def buildIntent (wallet tranaGuardProgramId : Pubkey) (input : IntentInput) (nonce : Nat)
    (config : IntentConfig) (dateNow : Nat) : TranaIntent where
  version := 1
  domain := "trana:v1"
  wallet := wallet.toBase58
  tranaGuardProgramId := tranaGuardProgramId.toBase58
  targetProgramId :=
    match input.targetProgramId with
    | .inl key => key.toBase58
    | .inr text => text
  policyId := input.policy.getD config.policy
  instructionDiscriminator :=
    match input.instructionDiscriminator with
    | none => "0000000000000000"
    | some (.inl bytes) => hexEncode (bytes.take 8)
    | some (.inr text) => padStart16 text.toLower
  accountsHash := hexHash (fun accounts => accounts.flatMap Pubkey.bytes) input.accounts
  paramsHash := hexHash id input.params
  nonce := toDecimal nonce
  expiryUnix := (dateNow / 1000 : Nat) + config.expiryTtlSec.getD 120
  rawParamsHex := hexEncode (input.params.getD [])
  accountsCount := (input.accounts.getD []).length

/-- `setBigInt64(0, BigInt(n), true)` -/
def i64le (n : Int) : Bytes := leBytes 8 (n % 2 ^ 64).toNat

/-- The 32-byte canonical challenge of an intent. -/
def hashIntent (intent : TranaIntent) : Option Bytes := do
  let wallet ← Pubkey.ofBase58? intent.wallet
  let tranaGuard ← Pubkey.ofBase58? intent.tranaGuardProgramId
  let target ← Pubkey.ofBase58? intent.targetProgramId
  let nonce ← ofDecimal? intent.nonce
  some (sha256 (
    [intent.version]
      ++ lenPrefixed 2 (Codec.utf8 intent.domain)
      ++ wallet.bytes
      ++ tranaGuard.bytes
      ++ target.bytes
      ++ lenPrefixed 2 (Codec.utf8 intent.policyId)
      ++ hexDecode intent.instructionDiscriminator
      ++ hexDecode intent.accountsHash
      ++ hexDecode intent.paramsHash
      ++ leBytes 8 nonce
      ++ i64le intent.expiryUnix))

/-- The intent of an instruction, as `buildProof` builds it. -/
def instructionIntent (wallet tranaGuardProgramId : Pubkey) (ix : Instruction) (nonce : Nat)
    (config : IntentConfig) (dateNow : Nat) : TranaIntent :=
  buildIntent wallet tranaGuardProgramId (intentFromInstruction ix) nonce config dateNow

/-! ## The React package's copy

`react/intent.ts` states the two functions over, word for word. Its input has a
label besides, for the confirmation modal. -/

namespace React

/-- The input, with what the modal shows of it. -/
structure IntentInput extends Sdk.IntentInput where
  label : Option String

/-- Derive it from an instruction. -/
def intentFromInstruction (ix : Instruction) (label : Option String) : React.IntentInput :=
  { Sdk.intentFromInstruction ix with label }

/-- The label is not part of the intent. -/
def buildIntent (wallet tranaGuardProgramId : Pubkey) (input : React.IntentInput) (nonce : Nat)
    (config : IntentConfig) (dateNow : Nat) : TranaIntent :=
  Sdk.buildIntent wallet tranaGuardProgramId input.toIntentInput nonce config dateNow

/-- The same hash. -/
def hashIntent (intent : TranaIntent) : Option Bytes := Sdk.hashIntent intent

end React

/-! ## The fields, read back -/

section Fields

variable {wallet guardId : Pubkey} {ix : Instruction} {nonce dateNow : Nat} {config : IntentConfig}

/-- The discriminator is read back, -/
theorem hexDecode_discriminator (h : 8 ≤ ix.data.length) :
    hexDecode (instructionIntent wallet guardId ix nonce config dateNow).instructionDiscriminator
      = ix.data.take 8 := by
  simp [instructionIntent, buildIntent, intentFromInstruction, h, hexDecode_hexEncode]

/-- An absent member hashes as an empty one. -/
theorem hexDecode_hexHash {α : Type} {toBytes : List α → Bytes} (hnil : toBytes [] = [])
    (o : Option (List α)) : hexDecode (hexHash toBytes o) = sha256 (toBytes (o.getD [])) := by
  unfold hexHash
  split
  next a l => exact hexDecode_hexEncode _
  next hne =>
    have hempty : o.getD [] = [] := by
      cases o with
      | none => rfl
      | some l =>
        cases l with
        | nil => rfl
        | cons a l => exact absurd rfl (hne a l)
    rw [hempty, hnil]
    exact hexDecode_hexEncode _

/-- and the hash of the account keys, -/
theorem hexDecode_accountsHash :
    hexDecode (instructionIntent wallet guardId ix nonce config dateNow).accountsHash
      = sha256 (accBytes ix) :=
  hexDecode_hexHash rfl (some ix.accountKeys)

/-- and that of what follows the discriminator. -/
theorem hexDecode_paramsHash (h : 8 ≤ ix.data.length) :
    hexDecode (instructionIntent wallet guardId ix nonce config dateNow).paramsHash
      = sha256 (ix.data.drop 8) := by
  have hparams : (intentFromInstruction ix).params.getD [] = ix.data.drop 8 := by
    unfold intentFromInstruction
    dsimp only
    split
    next => rfl
    next hle => exact (List.drop_eq_nil_of_le (by omega)).symm
  rw [← hparams]
  exact hexDecode_hexHash rfl (intentFromInstruction ix).params

/-- `setBigInt64` writes what Borsh writes for an `i64`. -/
theorem i64le_expiry (n : Int) : i64le n = leBytes 8 (Int64.ofInt n).toUInt64.toNat := by
  have h : (Int64.ofInt n).toUInt64.toNat = (n % 2 ^ 64).toNat := BitVec.toNat_ofInt ..
  rw [i64le, h]

/-- Hashing the intent of an instruction is computing the guard's hash of it. -/
theorem hashIntent_buildIntent (hdata : 8 ≤ ix.data.length) (hnonce : nonce < 2 ^ 64) :
    hashIntent (instructionIntent wallet guardId ix nonce config dateNow)
      = some (intentHash wallet guardId config.policy ix (UInt64.ofNat nonce)
          (Int64.ofInt (instructionIntent wallet guardId ix nonce config dateNow).expiryUnix)) := by
  unfold hashIntent
  rw [hexDecode_discriminator hdata, hexDecode_accountsHash, hexDecode_paramsHash hdata,
    i64le_expiry]
  simp only [instructionIntent, buildIntent, intentFromInstruction, Pubkey.ofBase58?_toBase58,
    ofDecimal?_toDecimal, Option.bind_eq_bind, Option.bind_some, Option.getD_none]
  rw [intentHash, intentPreimage, intentDomain, UInt64.toNat_ofNat_of_lt' hnonce]

end Fields

end Trana.Sdk
