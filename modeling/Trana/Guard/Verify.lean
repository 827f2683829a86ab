import Trana.Guard.State
import Trana.Lib.Sha256
import Trana.Solana.Secp256r1

/-!
# trana_guard: verification

`verify.rs`, function by function. A `&mut PasskeyRegistry` parameter becomes
the registry a function returns; `Clock::get()` is the `clock` parameter.

Every slice, every index and every sum on `usize` goes through a primitive that
may panic, also where a check in front of it rules that out: whether it does is a
result (`NoPanic`), not something the model decides. The steps of
`run_verification` are numbered as in the source, and each that is more than a
line is a definition of its own.

Two things the source does not do are worth knowing before reading on. The
precompile instruction's own index fields are not read, so the key and the
message are looked for in that instruction whatever the precompile was told; and
the flags, the type and the origin in what the authenticator signed are hashed
and never looked at.

* `computeIntentHash`, `intentPreimage` — what a proof commits to.
* `extractChallenge`, `base64urlDecode` — the challenge in the client data.
* `readSecpProof` — the precompile instruction, read again.
* `runVerification`, `verifyAtIdx` — the whole pipeline.
-/

namespace Trana.Guard

open Trana.Lib Trana.Lib.Exec Trana.Solana

/-- The domain of every intent hash. -/
def intentDomain : String := "trana:v1"

/-- First eight bytes of sha256("global:record_proof"). -/
def recordProofDisc : Bytes := [0x90, 0xac, 0x90, 0x23, 0x7c, 0xaa, 0x5d, 0x50]

example : recordProofDisc = (sha256 (Codec.utf8 "global:record_proof")).take 8 := by
  decide +kernel

/-- `u64::from_le_bytes(window.try_into().expect(..))` -/
def u64FromLeBytes (window : Bytes) : Result UInt64 :=
  expect (if window.length = 8 then some (UInt64.ofNat (leNat window)) else none)

/-- Read the protected instruction at the current index and extract a u64 from
its parameter data at `byteOffset` bytes after the discriminator. -/
def readU64FromProtectedIx (ixSysvar : InstructionsSysvar) (byteOffset : UInt8) :
    Result (UInt64 × UInt16) := do
  let currentIdx := loadCurrentIndexChecked ixSysvar
  let ix ← okOr (loadInstructionAtChecked currentIdx.toNat ixSysvar) GuardError.invalidProof
  let offset ← usizeAdd 8 byteOffset.toNat
  let stop ← usizeAdd offset 8
  require (ix.data.length ≥ stop) GuardError.invalidProof
  let window ← slice ix.data offset stop
  let value ← u64FromLeBytes window
  pure (value, currentIdx)

/-! ## Intent hash -/

/-- The canonical binary encoding: length prefixes u16, integers, all little-endian. -/
def intentPreimage (domain : String) (wallet tranaGuardProgramId targetProgramId : Pubkey)
    (policyId : String) (discriminator accountsHash paramsHash : Bytes) (nonce : UInt64)
    (expiry : Int64) : Bytes :=
  [1] ++ lenPrefixed 2 (Codec.utf8 domain)
    ++ wallet.bytes ++ tranaGuardProgramId.bytes ++ targetProgramId.bytes
    ++ lenPrefixed 2 (Codec.utf8 policyId)
    ++ discriminator ++ accountsHash ++ paramsHash
    ++ leBytes 8 nonce.toNat ++ leBytes 8 expiry.toUInt64.toNat

/-- The intent hash of its fields; the capacity is asked for before anything is written. -/
def computeIntentHash (domain : String) (wallet tranaGuardProgramId targetProgramId : Pubkey)
    (policyId : String) (discriminator accountsHash paramsHash : Bytes) (nonce : UInt64)
    (expiry : Int64) : Result Bytes := do
  withCapacity (1 + 2 + (Codec.utf8 domain).length + 32 + 32 + 32
    + 2 + (Codec.utf8 policyId).length + 8 + 32 + 32 + 8 + 8)
  pure (sha256 (intentPreimage domain wallet tranaGuardProgramId targetProgramId policyId
    discriminator accountsHash paramsHash nonce expiry))

/-! ## Challenge -/

/-- The text that is searched for in the client data, quotes included. -/
def challengeKey : Bytes := Codec.utf8 "\"challenge\":\""

/-- `bs.windows(n)` -/
def windows (n : Nat) (bs : Bytes) : List Bytes :=
  (List.range (bs.length + 1 - n)).map fun i => (bs.drop i).take n

/-- From the first `"challenge":"` up to the next quote. -/
def extractChallenge (clientDataJson : Bytes) : Result (Option Bytes) :=
  -- the first occurrence, wherever in the client data it stands
  match (windows challengeKey.length clientDataJson).findIdx? (· == challengeKey) with
  | none => pure none
  | some position => do
    let start ← usizeAdd position challengeKey.length
    let tail ← sliceFrom clientDataJson start
    -- an escaped quote ends the challenge as well
    match tail.findIdx? (· == '"'.toUInt8) with
    | none => pure none
    | some quote => do
      let stop ← usizeAdd quote start
      let challenge ← slice clientDataJson start stop
      pure (some challenge)

/-- The match arms of the decoder, apart from the padding character. -/
def base64urlValue? (c : UInt8) : Option UInt32 :=
  if 'A'.toUInt8 ≤ c ∧ c ≤ 'Z'.toUInt8 then some (c - 'A'.toUInt8).toUInt32
  else if 'a'.toUInt8 ≤ c ∧ c ≤ 'z'.toUInt8 then some ((c - 'a'.toUInt8).toUInt32 + 26)
  else if '0'.toUInt8 ≤ c ∧ c ≤ '9'.toUInt8 then some ((c - '0'.toUInt8).toUInt32 + 52)
  else if c = '-'.toUInt8 then some 62
  else if c = '_'.toUInt8 then some 63
  else none

/-- The decoder's loop variables. -/
structure DecodeState where
  acc : UInt32
  accLen : UInt32
  out : Bytes
  deriving DecidableEq

/-- The loop body for one six-bit value. -/
def base64urlStep (s : DecodeState) (val : UInt32) : Result DecodeState := do
  -- bits shifted out at the top are lost: only the low ones are still to be given out
  let acc := (s.acc <<< 6) ||| val
  let accLen ← u32Add s.accLen 6
  if accLen ≥ 8 then do
    let accLen ← u32Sub accLen 8
    let byte ← u32Shr acc accLen
    let bit ← u32Shl 1 accLen
    let mask ← u32Sub bit 1
    pure ⟨acc &&& mask, accLen, s.out ++ [byte.toUInt8]⟩
  else pure ⟨acc, accLen, s.out⟩

/-- Padding is skipped wherever it stands; a foreign character ends the loop
without a result. -/
def base64urlLoop : DecodeState → Bytes → Result (Option DecodeState)
  | s, [] => pure (some s)
  | s, c :: rest =>
    if c = '='.toUInt8 then base64urlLoop s rest
    else
      match base64urlValue? c with
      | none => pure none
      | some val => do
        let s' ← base64urlStep s val
        base64urlLoop s' rest

/-- `None` for a foreign character. The capacity is three quarters of the input,
rounded up, which is more than comes out. -/
def base64urlDecode (input : Bytes) : Result (Option Bytes) :=
  if input.isEmpty then pure (some [])
  else do
    let bits ← usizeMul input.length 3
    let total ← usizeAdd bits 3
    withCapacity (total / 4)
    let s ← base64urlLoop ⟨0, 0, []⟩ input
    match s with
    | none => pure none
    -- up to six bits may be left over here; they are dropped
    | some s => if s.accLen ≥ 8 then pure none else pure (some s.out)

/-! ## Core verification -/

/-- `MissingProof` behind the log line that clients look for. -/
def missingProof {α : Type} : Result α := do
  msg "TRANA_MISSING_PROOF"
  fail GuardError.missingProof

/-- A missing proof instead of an error of its own. -/
def requireProof (p : Prop) [Decidable p] : Result Unit := if p then pure () else missingProof

/-- The same for a value that is not there. -/
def okOrMissingProof {α : Type} (o : Option α) : Result α :=
  match o with
  | some a => pure a
  | none => missingProof

/-- The proof in the `record_proof` instruction in front of the protected one. -/
def loadProofFromPrecedingIx (ixSysvar : InstructionsSysvar) (currentIdx : UInt16)
    (tranaGuardProgramId : Pubkey) : Result ProofData := do
  -- index zero has no instruction in front of it; callers have checked that
  let idx ← unsignedSub currentIdx.toNat 1
  let proofIx ← okOr (loadInstructionAtChecked idx ixSysvar) GuardError.invalidProof
  require (proofIx.programId = tranaGuardProgramId) GuardError.invalidProof
  require (proofIx.data.length ≥ 8) GuardError.invalidProof
  let disc ← slice proofIx.data 0 8
  require (disc = recordProofDisc) GuardError.invalidProof
  let payload ← sliceFrom proofIx.data 8
  -- exactly the payload: trailing bytes are an error here, unlike in the dispatch
  okOr (ProofData.codec.fromSlice payload) GuardError.invalidProof

/-- The addresses of an instruction, one after the other. -/
def accBytes (ix : Instruction) : Bytes := ix.accountKeys.flatMap Pubkey.bytes

/-- Steps 1 and 3: the intent hash of a protected instruction in the context
of one verification. -/
def protectedIntentHash (owner tranaGuardProgramId : Pubkey) (policy : String)
    (protectedIx : Instruction) (nonce : UInt64) (expiry : Int64) : Result Bytes := do
  require (protectedIx.data.length ≥ 8) GuardError.invalidProof
  let discriminator ← slice protectedIx.data 0 8
  withCapacity (protectedIx.accounts.length * 32)
  let accountsHash := sha256 (accBytes protectedIx)
  let params ← sliceFrom protectedIx.data 8
  let paramsHash := sha256 params
  computeIntentHash intentDomain owner tranaGuardProgramId protectedIx.programId policy
    discriminator accountsHash paramsHash nonce expiry

/-- Step 4: the challenge in the client data is the intent hash. -/
def checkChallenge (clientDataJson intentHash : Bytes) : Result Unit := do
  let extracted ← extractChallenge clientDataJson
  let challengeB64 ← okOr extracted GuardError.invalidProof
  let decoded ← base64urlDecode challengeB64
  let challengeBytes ← okOr decoded GuardError.invalidProof
  require (challengeBytes = intentHash) GuardError.payloadMismatch

/-- Step 6, reading: the public key and the message at the offsets the
precompile instruction states. Its instruction-index fields are not read. -/
def readSecpProof (data : Bytes) : Result (Bytes × Bytes) := do
  -- one record; its signature offset and its three instruction indices are skipped
  require (data.length ≥ 16 ∧ data.head? = some 1) GuardError.invalidProof
  let b6 ← index data 6
  let b7 ← index data 7
  let b10 ← index data 10
  let b11 ← index data 11
  let b12 ← index data 12
  let b13 ← index data 13
  let pkOffset := leNat [b6, b7]
  let msgOffset := leNat [b10, b11]
  let msgSize := leNat [b12, b13]
  let pkEnd ← usizeAdd pkOffset 33
  require (data.length ≥ pkEnd) GuardError.invalidProof
  let msgEnd ← usizeAdd msgOffset msgSize
  require (data.length ≥ msgEnd) GuardError.invalidProof
  require (msgSize > 0) GuardError.invalidProof
  let proofPubkey ← slice data pkOffset pkEnd
  let proofMessage ← slice data msgOffset msgEnd
  pure (proofPubkey, proofMessage)

/-- Step 7: increment the nonce. -/
def consumeNonce (registry : PasskeyRegistry) : Result PasskeyRegistry := do
  let nonce ← okOr (if registry.nonce.toNat + 1 < 2 ^ 64 then some (registry.nonce + 1) else none)
    GuardError.nonceOverflow
  pure { registry with nonce }

/-- The shared verification pipeline. -/
def runVerification (clock : Clock) (ixSysvar : InstructionsSysvar) (registry : PasskeyRegistry)
    (owner tranaGuardProgramId : Pubkey) (currentIdx : UInt16) (proof : ProofData)
    (policy : String) : Result PasskeyRegistry := do
  -- 1. protected instruction; the hash it enters (3.) is taken after the expiry check
  let protectedIx ← okOr (loadInstructionAtChecked currentIdx.toNat ixSysvar)
    GuardError.invalidProof
  require (protectedIx.data.length ≥ 8) GuardError.invalidProof
  -- 2. expiry
  require (clock.unixTimestamp < proof.expiry) GuardError.proofExpired
  -- 3. intent hash
  let intentHash ← protectedIntentHash owner tranaGuardProgramId policy protectedIx
    registry.nonce proof.expiry
  -- 4. challenge binding
  checkChallenge proof.clientDataJson intentHash
  -- 5. WebAuthn e-value
  let clientDataHash := sha256 proof.clientDataJson
  withCapacity (proof.authenticatorData.length + 32)
  let expectedEValue := sha256 (proof.authenticatorData ++ clientDataHash)
  -- 6. secp256r1 precompile at ix[N-2]
  let secpIdx ← unsignedSub currentIdx.toNat 2
  let secpIx ← okOrMissingProof (loadInstructionAtChecked secpIdx ixSysvar)
  requireProof (secpIx.programId = Secp256r1.programId)
  let (proofPubkey, proofMessage) ← readSecpProof secpIx.data
  require (registry.keys.any (·.pubkeyBytes == proofPubkey)) GuardError.wrongSigner
  require (sha256 proofMessage = expectedEValue) GuardError.payloadMismatch
  -- 7. consume nonce
  let updated ← consumeNonce registry
  -- 8. audit event
  msg (s!"TRANA enforce | policy={policy} | target={protectedIx.programId.toBase58}"
    ++ s!" | nonce={registry.nonce}")
  emit ⟨owner, policy, protectedIx.programId, registry.nonce, proof.expiry⟩
  pure updated

/-- Verify at a known instruction index. -/
def verifyAtIdx (clock : Clock) (ixSysvar : InstructionsSysvar) (registry : PasskeyRegistry)
    (owner tranaGuardProgramId : Pubkey) (expectedPolicy : String) (currentIdx : UInt16) :
    Result PasskeyRegistry := do
  requireProof (2 ≤ currentIdx)
  let proof ← loadProofFromPrecedingIx ixSysvar currentIdx tranaGuardProgramId
  require (proof.policy = expectedPolicy) GuardError.policyMismatch
  runVerification clock ixSysvar registry owner tranaGuardProgramId currentIdx proof expectedPolicy

/-- Verify at the index the sysvar gives. -/
def verifyWithPolicy (clock : Clock) (ixSysvar : InstructionsSysvar) (registry : PasskeyRegistry)
    (owner tranaGuardProgramId : Pubkey) (expectedPolicy : String) : Result PasskeyRegistry :=
  verifyAtIdx clock ixSysvar registry owner tranaGuardProgramId expectedPolicy
    (loadCurrentIndexChecked ixSysvar)

end Trana.Guard
