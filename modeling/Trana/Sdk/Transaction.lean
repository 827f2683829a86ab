import Mathlib.Logic.Equiv.Basic
import Trana.Guard.Decoder
import Trana.Guard.Calls
import Trana.Sdk.ProofIx

/-!
# The transaction shape

An assertion (what an authenticator returns, with the key that signed), and
the two instructions it contributes in front of a protected instruction.
`verified_of_proofPair` is the completeness of one verification: behind such
a pair, for a registered key and a live nonce, every check of the guard holds.

* `Assertion` — the key, its signature, the authenticator data and the client data
  behind the challenge, with the lengths the wire allows.
* `verify_secpIx` — the precompile's verdict on the pair is the curve's.
* `secpHeader_secpIx` — the guard reads key and message back.
* `verified_of_recordProof`, `verified_of_proofPair` — a verification that goes
  through.
* `verified_proofPair_iff` — what a proof pair leaves open.

The last section fixes one wallet and one passkey on localnet, for the
concrete transactions of the later modules: addresses derived with the
canonical bumps, a ledger with a config and a registered wallet, and calls with
their proofs in front. Its curve accepts one signature (`Assertion.curve`); the
other curves of the later modules are put together from such.
-/

namespace Trana.Sdk

open Trana.Lib Trana.Solana Trana.Guard

/-- Every short tail makes client data with a u32 length. -/
theorem length_clientData_lt {challenge tail : Bytes} (h : challenge.length = 32)
    (htail : tail.length < 2 ^ 31) : (clientData challenge tail).length < 2 ^ 32 := by
  have hle := length_base64urlEncode_le challenge
  have hhead := length_clientDataHead
  have hkey := length_challengeKey
  simp only [clientData, List.length_append, List.length_cons]
  omega

/-- A WebAuthn assertion over a challenge: the signing key, its signature, the
authenticator data, and the client data behind the challenge text. -/
structure Assertion where
  pubkey : Bytes
  signature : Bytes
  authenticatorData : Bytes
  clientTail : Bytes
  length_pubkey : pubkey.length = 33
  length_signature : signature.length = 64
  length_message : authenticatorData.length + 32 < 65536
  length_clientData : ∀ challenge : Bytes, challenge.length = 32 →
    (clientData challenge clientTail).length < 2 ^ 32

namespace Assertion

variable (a : Assertion)

/-- The client data for a challenge. -/
def clientDataJSON (challenge : Bytes) : Bytes := clientData challenge a.clientTail

/-- The signed message: authenticator data and client data hash. -/
def message (challenge : Bytes) : Bytes :=
  a.authenticatorData ++ sha256 (a.clientDataJSON challenge)

/-- A hash behind the authenticator data. -/
theorem length_message_eq (challenge : Bytes) :
    (a.message challenge).length = a.authenticatorData.length + 32 := by
  simp [message]

/-- It fits a Borsh vector. -/
theorem length_clientDataJSON {challenge : Bytes} (h : challenge.length = 32) :
    (a.clientDataJSON challenge).length < 2 ^ 32 :=
  a.length_clientData challenge h

/-- ix[N-2] -/
def secpIx (challenge : Bytes) : Instruction where
  programId := Secp256r1.programId
  accounts := []
  data := secpData a.pubkey a.signature (a.message challenge)
  accounts_lt := length_noAccounts

/-- ix[N-1] -/
def recordProofIx (tranaGuardProgramId : Pubkey) (challenge : Bytes) (expiryUnix : Int)
    (policy : String) : Instruction :=
  buildRecordProofIx tranaGuardProgramId a.authenticatorData (a.clientDataJSON challenge)
    expiryUnix policy

/-- The two instructions in front of a protected one. -/
def proofPair (tranaGuardProgramId : Pubkey) (challenge : Bytes) (expiryUnix : Int)
    (policy : String) : List Instruction :=
  [a.secpIx challenge, a.recordProofIx tranaGuardProgramId challenge expiryUnix policy]

/-- The proof data the pair carries. -/
def proof (challenge : Bytes) (expiryUnix : Int) (policy : String) : ProofData :=
  ⟨1, Int64.ofInt expiryUnix, policy, a.authenticatorData, a.clientDataJSON challenge⟩

/-- The precompile's verdict on the pair is the curve's on the signature. -/
theorem verify_secpIx {p256 : Secp256r1.Curve} {datas : List Bytes} (challenge : Bytes) :
    Secp256r1.verify p256 (a.secpIx challenge).data datas
      = p256 a.pubkey (sha256 (a.message challenge)) a.signature :=
  verify_built a.length_pubkey a.length_signature
    (by rw [a.length_message_eq]; exact a.length_message)

/-- The guard reads the assertion's key and message. -/
theorem secpHeader_secpIx (challenge : Bytes) : SecpHeader (a.secpIx challenge).data ∧
    ownKey (a.secpIx challenge).data = a.pubkey ∧
      ownMessage (a.secpIx challenge).data = a.message challenge :=
  secpHeader_built a.length_pubkey a.length_signature
    (by rw [a.length_message_eq]; omega)
    (by rw [a.length_message_eq]; exact a.length_message)

/-- The record_proof instruction is its proof data in Borsh. -/
theorem recordProofIx_data (guardId : Pubkey) (expiry : Int) {policy : String} {challenge : Bytes}
    (hchallenge : challenge.length = 32) (hpolicy : (Codec.utf8 policy).length < 2 ^ 32) :
    ∃ payload, (a.recordProofIx guardId challenge expiry policy).data = recordProofDisc ++ payload ∧
      ProofData.codec.write (a.proof challenge expiry policy) = some payload := by
  have hauth : a.authenticatorData.length < 2 ^ 32 := by
    have := a.length_message
    omega
  exact buildRecordProofIx_eq hauth (a.length_clientDataJSON hchallenge) hpolicy

/-- The curve on this one signature: it verifies under the assertion's key. -/
def curve (challenge : Bytes) : Secp256r1.Curve := fun key digest signature =>
  key == a.pubkey && digest == sha256 (a.message challenge) && signature == a.signature

end Assertion

/-- A hash. -/
theorem length_intentHash {owner guardId : Pubkey} {policy : String} {ix : Instruction}
    {nonce : UInt64} {expiry : Int64} :
    (intentHash owner guardId policy ix nonce expiry).length = 32 :=
  length_sha256 _

/-- A record_proof instruction carries its proof data. -/
theorem proofAt_recordProofIx {a : Assertion} {ixSysvar : InstructionsSysvar} {guardId : Pubkey}
    {i : UInt16} {challenge : Bytes} {expiry : Int} {policy : String}
    (hpos : 1 ≤ i.toNat) (hchallenge : challenge.length = 32)
    (hpolicy : (Codec.utf8 policy).length < 2 ^ 32)
    (hix : ixSysvar.instructions[i.toNat - 1]? =
      some (a.recordProofIx guardId challenge expiry policy)) :
    ProofAt ixSysvar guardId i (a.proof challenge expiry policy) := by
  obtain ⟨payload, hdata, hwrite⟩ := a.recordProofIx_data guardId expiry hchallenge hpolicy
  refine ⟨hpos, _, hix, rfl, ?_, ?_, ?_⟩
  · rw [hdata, List.length_append]
    exact Nat.le_add_right 8 _
  · rw [hdata]
    rfl
  · rw [hdata, Codec.fromSlice_eq_some_iff]
    exact hwrite

/-- Behind a record_proof made for its intent hash, and a precompile
instruction in which the guard reads a registered key and the signed message, a
protected instruction is verified. -/
theorem verified_of_recordProof {a : Assertion} {clock : Clock} {ixSysvar : InstructionsSysvar}
    {r : PasskeyRegistry} {owner guardId : Pubkey} {policy : String} {i : UInt16}
    {ix secpIx : Instruction} {expiry : Int} {challenge : Bytes}
    (hchallenge : challenge =
      intentHash owner guardId policy ix r.nonce (Int64.ofInt expiry))
    (htwo : 2 ≤ i.toNat)
    (hsecp : ixSysvar.instructions[i.toNat - 2]? = some secpIx)
    (hrecord : ixSysvar.instructions[i.toNat - 1]? =
      some (a.recordProofIx guardId challenge expiry policy))
    (hix : ixSysvar.instructions[i.toNat]? = some ix)
    (hdata : 8 ≤ ix.data.length)
    (hpolicy : (Codec.utf8 policy).length < 2 ^ 32)
    (hfresh : clock.unixTimestamp < Int64.ofInt expiry)
    (hid : secpIx.programId = Secp256r1.programId) (hheader : SecpHeader secpIx.data)
    (hknown : ∃ k ∈ r.keys, k.pubkeyBytes = ownKey secpIx.data)
    (hmessage : ownMessage secpIx.data = a.message challenge)
    (hnonce : r.nonce.toNat + 1 < 2 ^ 64) :
    Verified clock ixSysvar r owner guardId i policy (a.proof challenge expiry policy) ix
      secpIx := by
  have hlen : challenge.length = 32 := by
    rw [hchallenge]
    exact length_intentHash
  have hauth := a.length_message
  have hbound : ChallengeIs (a.proof challenge expiry policy).clientDataJson
      (intentHash owner guardId policy ix r.nonce (Int64.ofInt expiry)) := by
    rw [← hchallenge]
    exact challengeIs_clientData (by omega)
  exact
    { protectedIx := hix
      data_length := hdata
      fresh := hfresh
      fits := by unfold PolicyFits; omega
      challenge := hbound
      auth_fits := by show a.authenticatorData.length + 32 < 2 ^ 63; omega
      two_le := htwo
      secp := hsecp
      secp_id := hid
      header := hheader
      known := hknown
      eValue := congrArg sha256 hmessage
      nonce_lt := hnonce
      proofAt := proofAt_recordProofIx (by omega) hlen hpolicy hrecord
      policy_eq := rfl }

/-- Behind a proof pair made for its intent hash, a protected instruction is verified. -/
theorem verified_of_proofPair {a : Assertion} {clock : Clock} {ixSysvar : InstructionsSysvar}
    {r : PasskeyRegistry} {owner guardId : Pubkey} {policy : String} {i : UInt16}
    {ix : Instruction} {expiry : Int} {challenge : Bytes}
    (hchallenge : challenge =
      intentHash owner guardId policy ix r.nonce (Int64.ofInt expiry))
    (htwo : 2 ≤ i.toNat)
    (hsecp : ixSysvar.instructions[i.toNat - 2]? = some (a.secpIx challenge))
    (hrecord : ixSysvar.instructions[i.toNat - 1]? =
      some (a.recordProofIx guardId challenge expiry policy))
    (hix : ixSysvar.instructions[i.toNat]? = some ix)
    (hdata : 8 ≤ ix.data.length)
    (hpolicy : (Codec.utf8 policy).length < 2 ^ 32)
    (hfresh : clock.unixTimestamp < Int64.ofInt expiry)
    (hknown : ∃ k ∈ r.keys, k.pubkeyBytes = a.pubkey)
    (hnonce : r.nonce.toNat + 1 < 2 ^ 64) :
    Verified clock ixSysvar r owner guardId i policy (a.proof challenge expiry policy) ix
      (a.secpIx challenge) := by
  -- the precompile's index is two before, the carrier's one
  obtain ⟨hheader, hkey, hmessage⟩ := a.secpHeader_secpIx challenge
  obtain ⟨k, hk, heq⟩ := hknown
  exact verified_of_recordProof hchallenge htwo hsecp hrecord hix hdata hpolicy hfresh rfl hheader
    ⟨k, hk, heq.trans hkey.symm⟩ hmessage hnonce

/-- What a proof pair leaves open: its expiry, whose key it is and the end of the nonces. -/
theorem verified_proofPair_iff {a : Assertion} {clock : Clock} {ixSysvar : InstructionsSysvar}
    {r : PasskeyRegistry} {owner guardId : Pubkey} {policy : String} {i : UInt16}
    {ix : Instruction} {expiry : Int} {challenge : Bytes}
    (hchallenge : challenge =
      intentHash owner guardId policy ix r.nonce (Int64.ofInt expiry))
    (htwo : 2 ≤ i.toNat)
    (hsecp : ixSysvar.instructions[i.toNat - 2]? = some (a.secpIx challenge))
    (hrecord : ixSysvar.instructions[i.toNat - 1]? =
      some (a.recordProofIx guardId challenge expiry policy))
    (hix : ixSysvar.instructions[i.toNat]? = some ix)
    (hdata : 8 ≤ ix.data.length) (hpolicy : (Codec.utf8 policy).length < 2 ^ 32) :
    (∃ proof ix' secpIx, Verified clock ixSysvar r owner guardId i policy proof ix' secpIx) ↔
      clock.unixTimestamp < Int64.ofInt expiry ∧ (∃ k ∈ r.keys, k.pubkeyBytes = a.pubkey) ∧
        r.nonce.toNat + 1 < 2 ^ 64 := by
  constructor
  · intro h
    obtain ⟨proof, ix', secpIx, h⟩ := h
    have hlen : challenge.length = 32 := by
      rw [hchallenge]
      exact length_intentHash
    have hproof := h.proofAt.unique (proofAt_recordProofIx (by omega) hlen hpolicy hrecord)
    obtain rfl := Option.some.inj (hsecp.symm.trans h.secp)
    have hfresh := h.fresh
    have hknown := h.known
    rw [(a.secpHeader_secpIx challenge).2.1] at hknown
    rw [hproof] at hfresh
    exact ⟨hfresh, hknown, h.nonce_lt⟩
  · intro h
    obtain ⟨hfresh, hknown, hnonce⟩ := h
    exact ⟨_, _, _, verified_of_proofPair hchallenge htwo hsecp hrecord hix hdata hpolicy hfresh
      hknown hnonce⟩

/-! ## A wallet on localnet -/

namespace Localnet

/-- The wallet, -/
def wallet : Pubkey := ⟨List.replicate 32 7, by decide⟩

/-- the treasury its config names, -/
def treasury : Pubkey := ⟨List.replicate 32 8, by decide⟩

/-- The wallet's registry PDA, bump 253. -/
def registryPda : Pubkey :=
  ⟨[218, 108, 57, 134, 43, 30, 130, 45, 199, 193, 194, 133, 189, 190, 74, 142, 227, 233, 248, 95,
    135, 9, 212, 240, 204, 185, 176, 247, 23, 123, 172, 46], by decide⟩

/-- and the config's PDA. -/
def configPda : Pubkey :=
  ⟨[138, 237, 80, 12, 78, 102, 55, 254, 11, 116, 53, 165, 213, 238, 42, 152, 90, 130, 75, 46, 87,
    17, 33, 28, 239, 120, 28, 253, 81, 153, 144, 79], by decide⟩

/-- The same PDA under the devnet program. -/
def devnetConfigPda : Pubkey :=
  ⟨[251, 169, 116, 42, 133, 26, 68, 8, 12, 247, 162, 51, 65, 180, 111, 53, 158, 9, 166, 189, 44,
    139, 89, 93, 245, 159, 7, 189, 162, 134, 228, 146], by decide⟩

/-- The devnet program is not the system program, -/
theorem devnetId_ne_system : devnetId ≠ systemProgramId := by decide

/-- nor the precompile. -/
theorem devnetId_ne_secp : devnetId ≠ Secp256r1.programId := by decide

/-- The localnet program, with the derived addresses of this wallet. -/
def deployment : Deployment where
  programId := localnetId
  findRegistry := Equiv.swap wallet registryPda
  findConfig := configPda
  registry_inj := (Equiv.swap wallet registryPda).injective
  programId_ne := by decide
  programId_ne_secp := by decide

/-- The wallet's registry is the PDA above. -/
theorem findRegistry_wallet : deployment.findRegistry wallet = registryPda :=
  Equiv.swap_apply_left ..

/-- A P-256 key in compressed form. -/
def passkey : Bytes :=
  [3, 181, 51, 91, 49, 154, 156, 236, 130, 217, 185, 110, 70, 209, 170, 254, 55, 146, 236, 181,
    198, 1, 71, 171, 123, 107, 122, 250, 229, 204, 62, 113, 72]

/-- SHA-256 of the relying party id, the flags UP and UV, and a counter. -/
def authenticatorData : Bytes := sha256 (Codec.utf8 "trana.so") ++ [5, 0, 0, 0, 1]

/-- Origin and flags, behind the challenge. -/
def clientTail : Bytes :=
  Codec.utf8 ",\"origin\":\"https://trana.so\",\"crossOrigin\":false\x7d"

/-- The passkey's assertion with this signature. -/
def assertion (signature : Bytes) (h : signature.length = 64) : Assertion where
  pubkey := passkey
  signature
  authenticatorData
  clientTail
  length_pubkey := by decide
  length_signature := h
  length_message := by simp [authenticatorData]
  length_clientData := fun _ h => length_clientData_lt h (by decide +kernel)

/-- The passkey, as it is registered. -/
def entry : PasskeyEntry := ⟨.secp256r1Passkey, passkey, [1]⟩

/-- The wallet's registry with this one passkey. -/
def registry (nonce : UInt64) : PasskeyRegistry := ⟨wallet, nonce, [entry]⟩

/-- The rent-exempt minimum. -/
def minimumBalance (size : Nat) : UInt64 := UInt64.ofNat ((128 + size) * 6960)

/-- Nothing exists but the wallet's ten SOL. -/
def genesis : Ledger :=
  Ledger.set (fun _ => ⟨0, systemProgramId, []⟩) wallet ⟨10000000000, systemProgramId, []⟩

/-- The wallets' ledger is a start for any program, -/
theorem genesis_of_ne {p : Pubkey} (hp : p ≠ systemProgramId) : Ledger.Genesis p genesis := by
  intro k hk
  by_cases hw : k = wallet
  · subst hw
    rw [genesis, Ledger.set_self] at hk
    exact absurd hk.symm hp
  · rw [genesis, Ledger.set_of_ne _ hw] at hk
    exact absurd hk.symm hp

/-- and for the guard. -/
theorem genesis_genesis : Ledger.Genesis localnetId genesis := genesis_of_ne (by decide)

/-- A signer that pays. -/
def signerMeta (key : Pubkey) : AccountMeta := ⟨key, true, true⟩
/-- An account that is written. -/
def writableMeta (key : Pubkey) : AccountMeta := ⟨key, false, true⟩
/-- One that is read. -/
def readonlyMeta (key : Pubkey) : AccountMeta := ⟨key, false, false⟩

/-- Instruction `i` of a transaction runs, in slot 5 at time 500. -/
def env (instructions : List Instruction) (i : UInt16) : Env :=
  ⟨⟨5, 500⟩, ⟨instructions, i⟩, minimumBalance⟩

/-- The instruction at `i` as a direct call. -/
def call (instructions : List Instruction) (i : UInt16) (ix : Instruction) : Call :=
  ⟨env instructions i, ix.accounts, ix.data⟩

/-- The fee config of this deployment, without fees. -/
def initConfigIx : Instruction where
  programId := localnetId
  accounts := [writableMeta configPda, signerMeta wallet, readonlyMeta systemProgramId]
  data := initConfigDisc ++ leBytes 8 0 ++ leBytes 8 0 ++ treasury.bytes

/-- The registration of the passkey. -/
def registerPasskeyIx : Instruction where
  programId := localnetId
  accounts := [writableMeta registryPda, signerMeta wallet, readonlyMeta systemProgramId,
    readonlyMeta configPda, writableMeta treasury]
  data := registerPasskeyDisc ++ [0] ++ lenPrefixed 4 passkey ++ lenPrefixed 4 [1]

/-- Set-up: the config, and the wallet's first passkey. -/
def setup : List Call :=
  [call [initConfigIx] 0 initConfigIx, call [registerPasskeyIx] 0 registerPasskeyIx]

/-- The ledger after the set-up. -/
def registered : Ledger := ((runCalls deployment genesis setup).map Prod.snd).getD genesis

/-- Config and registration go through. -/
theorem runCalls_setup : ∃ trace, runCalls deployment genesis setup = some (trace, registered) := by
  have hsome : (runCalls deployment genesis setup).isSome = true := by decide +kernel
  obtain ⟨⟨trace, l⟩, h⟩ := Option.isSome_iff_exists.mp hsome
  exact ⟨trace, by rw [registered, h]; rfl⟩

/-- What the set-up left in the registry account. -/
theorem registryAt_registered : registryAt deployment registered registryPda = some (registry 0) ∧
    (registered registryPda).data.length = PasskeyRegistry.layout.space := by
  decide +kernel

/-- Then the registry is there, -/
theorem holds_registered : Holds deployment registered wallet (registry 0) := by
  obtain ⟨hfound, hsize⟩ := registryAt_registered
  refine ⟨?_, rfl, ?_⟩
  · rw [registryOf, findRegistry_wallet]
    exact hfound
  · rw [findRegistry_wallet]
    exact hsize

/-- and the config. -/
theorem holdsConfig_registered :
    HoldsConfig deployment registered ⟨wallet, treasury, 0, 0⟩ := by
  unfold HoldsConfig
  decide +kernel

/-- A run from here, with the set-up in front: its second step registers the
first passkey. -/
theorem run_registered {trace : List Moment} {l : Ledger}
    (h : Run (Step deployment) registered trace l) :
    ∃ t₁ t₂, t₂.label = .executed (call [registerPasskeyIx] 0 registerPasskeyIx) ∧
      Run (Step deployment) genesis ([t₁, t₂] ++ trace) l := by
  obtain ⟨before, hbefore⟩ := runCalls_setup
  have hlabels := labels_runCalls hbefore
  obtain ⟨t₁, rest, rfl, -, hrest⟩ := List.map_eq_cons_iff.mp hlabels
  obtain ⟨t₂, rest, rfl, ht₂, hnil⟩ := List.map_eq_cons_iff.mp hrest
  obtain rfl := List.map_eq_nil_iff.mp hnil
  exact ⟨t₁, t₂, ht₂, (run_of_runCalls hbefore).append h⟩

/-- A run leads there. -/
theorem reachable_registered : Reachable deployment registered := by
  obtain ⟨t₁, t₂, -, hrun⟩ := run_registered (.nil registered)
  exact ⟨genesis, _, genesis_genesis, hrun⟩

/-- A credential as instruction arguments. -/
def credentialArgs (pubkeyBytes credentialId : Bytes) : Bytes :=
  [0] ++ lenPrefixed 4 pubkeyBytes ++ lenPrefixed 4 credentialId

/-- A recovery to this key. -/
def recoverRegistryIx (pubkeyBytes credentialId : Bytes) : Instruction where
  programId := localnetId
  accounts := recoverMetas deployment wallet
  data := recoverRegistryDisc ++ credentialArgs pubkeyBytes credentialId

/-- An added key. -/
def addPasskeyIx (pubkeyBytes credentialId : Bytes) : Instruction where
  programId := localnetId
  accounts := addMetas deployment wallet treasury
  data := addPasskeyDisc ++ credentialArgs pubkeyBytes credentialId

/-- A removed one. -/
def removePasskeyIx (credentialId : Bytes) : Instruction where
  programId := localnetId
  accounts := removeMetas deployment wallet
  data := removePasskeyDisc ++ lenPrefixed 4 credentialId

/-- A program with a guarded instruction. -/
def callerId : Pubkey := ⟨List.replicate 32 9, by decide⟩

/-- An instruction of some program, with a discriminator. -/
def protectedIx : Instruction where
  programId := callerId
  accounts := [signerMeta wallet, readonlyMeta localnetId, writableMeta registryPda,
    readonlyMeta instructionsId]
  data := [1, 2, 3, 4, 5, 6, 7, 8] ++ leBytes 8 2000000000

/-- The accounts of its call to `enforce`. -/
def enforceAccounts : List AccountMeta :=
  [writableMeta registryPda, signerMeta wallet, readonlyMeta instructionsId]

/-- The accounts that program passes on. -/
theorem enforce_context : (Enforce.tryAccounts enforceAccounts).Returns ⟨registryPda, wallet⟩ :=
  rfl

/-- A program's call to `enforce(Require)` below instruction 2. -/
def enforceCall (instructions : List Instruction) : Call :=
  ⟨env instructions 2, enforceMetas deployment wallet, enforceDisc ++ [0]⟩

/-- Its call is an `enforce` with `Require`. -/
theorem enforceCall_is (instructions : List Instruction) :
    (enforceCall instructions).Is (.enforce .require) := by
  show (parseInstruction (enforceDisc ++ [0])).Returns (.enforce .require)
  decide

/-- The wallet's challenge for an instruction, good until time 1000. -/
def challenge (policy : String) (ix : Instruction) (nonce : UInt64) : Bytes :=
  intentHash wallet localnetId policy ix nonce 1000

/-- The instruction behind its proof. -/
def proven (a : Assertion) (policy : String) (ix : Instruction) (nonce : UInt64) :
    List Instruction :=
  a.proofPair localnetId (challenge policy ix nonce) 1000 policy ++ [ix]

/-- Such a transaction passes the precompile under the curve that knows the assertion. -/
theorem accepted_proven {a : Assertion} {policy : String} {ix : Instruction} {nonce : UInt64}
    (hix : ix.programId ≠ Secp256r1.programId) :
    Secp256r1.Accepted (a.curve (challenge policy ix nonce)) (proven a policy ix nonce) := by
  intro i hi hid
  rcases List.mem_cons.mp hi with rfl | hi
  · rw [a.verify_secpIx]
    simp [Assertion.curve]
  · rcases List.mem_cons.mp hi with rfl | hi
    · exact absurd hid (by decide : localnetId ≠ Secp256r1.programId)
    · obtain rfl := List.mem_singleton.mp hi
      exact absurd hid hix

/-- The instruction behind its proof verifies while the nonce is current. -/
theorem verified_proven (a : Assertion) (ix : Instruction) (r : PasskeyRegistry) {policy : String}
    {nonce : UInt64} (hnonce : r.nonce = nonce) (hlt : nonce.toNat + 1 < 2 ^ 64)
    (hdata : 8 ≤ ix.data.length) (hpolicy : (Codec.utf8 policy).length < 2 ^ 32)
    (hkey : ∃ k ∈ r.keys, k.pubkeyBytes = a.pubkey) :
    Verified ⟨5, 500⟩ ⟨proven a policy ix nonce, 2⟩ r wallet localnetId 2 policy
      (a.proof (challenge policy ix nonce) 1000 policy) ix
      (a.secpIx (challenge policy ix nonce)) := by
  subst hnonce
  exact verified_of_proofPair rfl (by decide) rfl rfl rfl hdata hpolicy (by decide) hkey hlt

/-- The instruction behind its proof, as a direct call. -/
def provenCall (a : Assertion) (ix : Instruction) (nonce : UInt64) : Call :=
  call (proven a policyRequire ix nonce) 2 ix

/-- The policy fits a Borsh string. -/
theorem length_utf8_policyRequire : (Codec.utf8 policyRequire).length < 2 ^ 32 :=
  Nat.lt_trans Policy.require.length_domain (by decide)

/-- A call with its proof in front verifies, for a registered key. -/
theorem provenCall_verifies {a : Assertion} {ix : Instruction} {r : PasskeyRegistry}
    {nonce : UInt64} (hnonce : r.nonce = nonce) (hlt : nonce.toNat + 1 < 2 ^ 64)
    (hdata : 8 ≤ ix.data.length) (hkey : ∃ k ∈ r.keys, k.pubkeyBytes = a.pubkey) :
    (provenCall a ix nonce).Verifies deployment r wallet policyRequire
      (a.proof (challenge policyRequire ix nonce) 1000 policyRequire) ix
      (a.secpIx (challenge policyRequire ix nonce)) :=
  verified_proven a ix r hnonce hlt hdata length_utf8_policyRequire hkey

/-- The passkey's signature for the protected instruction at nonce zero. -/
def approval : Assertion :=
  assertion
    [11, 157, 103, 126, 228, 20, 140, 152, 47, 234, 113, 195, 251, 18, 5, 105, 129, 72, 226,
     112, 5, 231, 137, 72, 21, 142, 160, 158, 150, 17, 131, 135, 38, 49, 38, 32, 77, 49, 102,
     30, 131, 106, 4, 32, 58, 79, 196, 144, 89, 237, 198, 148, 206, 130, 41, 107, 40, 105, 3,
     85, 195, 196, 150, 96] (by decide)

/-- The approval verifies as long as the registry is at nonce zero. -/
theorem verified_approval {r : PasskeyRegistry} (hkey : ∃ k ∈ r.keys, k.pubkeyBytes = passkey)
    (hnonce : r.nonce = 0) :
    Verified ⟨5, 500⟩ ⟨proven approval policyRequire protectedIx 0, 2⟩ r wallet localnetId 2
      policyRequire (approval.proof (challenge policyRequire protectedIx 0) 1000 policyRequire)
      protectedIx (approval.secpIx (challenge policyRequire protectedIx 0)) :=
  verified_proven approval protectedIx r hnonce (by decide) (by decide) length_utf8_policyRequire
    hkey

end Localnet

end Trana.Sdk
