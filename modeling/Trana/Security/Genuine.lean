import Trana.Lib.Json
import Trana.Security.Soundness

/-!
# What an accepted assertion need not be

The verification hashes the authenticator data and searches the client data for
a challenge. It reads no flag, no length and no type, so wherever it accepts
anything at all it accepts authenticator data of length zero behind client data
that is no JSON object.

* `Genuine` — a user-verified WebAuthn assertion.
* `accepted_of_open` — any authenticator data, any text around the challenge.
* `only_genuine_iff` — a guarded call accepts genuine assertions only exactly
  when it accepts nothing.
* `unverified_accepted` — a signed assertion without user verification.

The question is asked of a guarded call with everything the program knows before
it sees a proof: clock, registry, owner, its place, the protected instruction and
the policy. `Open` says of these that some proof is accepted at all; the two
instructions in front, precompile included, are the sender's to choose.

What is genuine follows the specification of WebAuthn: 37 bytes at least, with
the flags for presence and verification, and a JSON object with type, challenge
and origin. An authenticator does sign what it is given only in this shape, so
this is about keys that are not held by one: the program takes any P-256 key
for a passkey's.
-/

namespace Trana.Security

open Trana.Lib Trana.Lib.Exec Trana.Solana Trana.Guard

/-! ## Genuine assertions -/

/-- Long enough for the flags and the counter, with the flags UP and UV set. -/
def UserVerified (authenticatorData : Bytes) : Prop :=
  37 ≤ authenticatorData.length ∧ ∃ flags, authenticatorData[32]? = some flags ∧
    flags &&& 0x01 ≠ 0 ∧ flags &&& 0x04 ≠ 0

/-- The client data of an assertion: a JSON object with a challenge, an origin
and this type. -/
def WebauthnGet (clientDataJson : Bytes) : Prop :=
  ∃ members, Json.parse clientDataJson = some (.object members) ∧
    Json.member? members "type" = some (.string (Codec.utf8 "webauthn.get")) ∧
    (∃ challenge, Json.member? members "challenge" = some (.string challenge)) ∧
    ∃ origin, Json.member? members "origin" = some (.string origin)

example : WebauthnGet (Codec.utf8 ("\x7b\"type\":\"webauthn.get\",\"challenge\":\"AAAA\"," ++
    "\"origin\":\"https://trana.so\",\"crossOrigin\":false\x7d")) :=
  ⟨_, by rfl, by rfl, ⟨_, by rfl⟩, _, by rfl⟩

structure Genuine (proof : ProofData) : Prop where
  userVerified : UserVerified proof.authenticatorData
  webauthnGet : WebauthnGet proof.clientDataJson

/-! ## What a guarded call accepts -/

/-- A guarded call, without the transaction's proof instructions. -/
structure GuardedCall where
  clock : Clock
  registry : PasskeyRegistry
  owner : Pubkey
  guardId : Pubkey
  currentIdx : UInt16
  protectedIx : Instruction
  policy : String

namespace GuardedCall

variable (g : GuardedCall)

/-- In some transaction around the call the verification of this proof returns. -/
def AcceptsProof (proof : ProofData) : Prop :=
  ∃ ixSysvar : InstructionsSysvar,
    ixSysvar.instructions[g.currentIdx.toNat]? = some g.protectedIx ∧
    ∃ r, (runVerification g.clock ixSysvar g.registry g.owner g.guardId g.currentIdx proof
      g.policy).Returns r

/-- Every proof the call accepts has the property. -/
def Only (P : ProofData → Prop) : Prop := ∀ proof, g.AcceptsProof proof → P proof

/-- The call can be approved at all: there is a key to approve it with, a nonce
and a second left, and room for the two instructions in front. -/
structure Open : Prop where
  two_le : 2 ≤ g.currentIdx.toNat
  data_length : 8 ≤ g.protectedIx.data.length
  before_end : g.clock.unixTimestamp < Int64.maxValue
  fits : PolicyFits g.policy
  key : ∃ k ∈ g.registry.keys, k.pubkeyBytes.length = 33
  nonce_lt : g.registry.nonce.toNat + 1 < 2 ^ 64

variable {g}

theorem open_of_acceptsProof {proof : ProofData} (h : g.AcceptsProof proof) : g.Open := by
  obtain ⟨ixSysvar, hix, r, hrun⟩ := h
  obtain ⟨-, ix, secpIx, ha⟩ := returns_runVerification.mp hrun
  obtain rfl := Option.some.inj (ha.protectedIx.symm.trans hix)
  obtain ⟨k, hk, hkey⟩ := ha.known
  refine ⟨ha.two_le, ha.data_length, ?_, ha.fits, ⟨k, hk, ?_⟩, ha.nonce_lt⟩
  · exact Int64.lt_of_lt_of_le ha.fresh (Int64.le_maxValue _)
  · have hin := ha.header.key_in
    rw [hkey, ownKey, List.length_take, List.length_drop]
    omega

/-- A proof for the call with these authenticator data and this text around the challenge. -/
def proofAround (g : GuardedCall) (authenticatorData head tail : Bytes) : ProofData where
  version := 1
  authenticatorData
  clientDataJson := head ++ challengeKey ++
    base64urlEncode (intentHash g.owner g.guardId g.policy g.protectedIx g.registry.nonce
      Int64.maxValue) ++ '"'.toUInt8 :: tail
  expiry := Int64.maxValue
  policy := g.policy

/-- An open call accepts any authenticator data, and any text around the
challenge in which the key does not start earlier. -/
theorem accepted_of_open {authenticatorData head : Bytes} (tail : Bytes) (hopen : g.Open)
    (hauth : authenticatorData.length + 32 < 65536) (hhead : head.length < 2 ^ 32)
    (hfirst : ∀ i < head.length, ((head ++ challengeKey).drop i).take 13 ≠ challengeKey) :
    g.AcceptsProof (g.proofAround authenticatorData head tail) := by
  obtain ⟨k, hk, hlen⟩ := hopen.key
  have htwo := hopen.two_le
  let message := authenticatorData ++
    sha256 (g.proofAround authenticatorData head tail).clientDataJson
  have hmessage : message.length = authenticatorData.length + 32 := by
    simp [message]
  obtain ⟨hheader, hkey, hmsg⟩ := Sdk.secpHeader_unsigned hlen
    (show 0 < message.length by omega) (by omega)
  -- the protected instruction behind the precompile's and one of no matter
  let front := List.replicate (g.currentIdx.toNat - 2) g.protectedIx
  have hfront : front.length = g.currentIdx.toNat - 2 := List.length_replicate
  let ixSysvar : InstructionsSysvar :=
    ⟨front ++ [Sdk.unsignedSecpIx k.pubkeyBytes message, g.protectedIx, g.protectedIx],
      g.currentIdx⟩
  have hsecp : ixSysvar.instructions[g.currentIdx.toNat - 2]? =
      some (Sdk.unsignedSecpIx k.pubkeyBytes message) := by
    show (front ++ _)[_]? = _
    rw [← hfront, List.getElem?_append_right (Nat.le_refl _), Nat.sub_self]
    rfl
  have hix : ixSysvar.instructions[g.currentIdx.toNat]? = some g.protectedIx := by
    show (front ++ _)[_]? = _
    rw [List.getElem?_append_right (by omega), hfront,
      show g.currentIdx.toNat - (g.currentIdx.toNat - 2) = 2 by omega]
    rfl
  refine ⟨ixSysvar, hix, g.registry.consume, returns_runVerification.mpr ⟨rfl, g.protectedIx,
    Sdk.unsignedSecpIx k.pubkeyBytes message, ?_⟩⟩
  exact
    { protectedIx := hix
      data_length := hopen.data_length
      fresh := hopen.before_end
      fits := hopen.fits
      challenge := challengeIs_behind hhead (by rw [Sdk.length_intentHash]; omega) hfirst
      auth_fits := by show authenticatorData.length + 32 < 2 ^ 63; omega
      two_le := htwo
      secp := hsecp
      secp_id := rfl
      header := hheader
      known := ⟨k, hk, hkey.symm⟩
      eValue := congrArg sha256 hmsg
      nonce_lt := hopen.nonce_lt }

/-- No authenticator data, and nothing around the challenge. -/
theorem accepted_bare (hopen : g.Open) : g.AcceptsProof (g.proofAround [] [] []) :=
  accepted_of_open [] hopen (by decide) (by decide) fun _ hi => absurd hi (Nat.not_lt_zero _)

/-- A property the bare proof lacks holds of all accepted proofs only where
there are none. -/
theorem only_iff {P : ProofData → Prop} (hbare : ¬P (g.proofAround [] [] [])) :
    g.Only P ↔ ¬g.Open :=
  ⟨fun honly hopen => hbare (honly _ (accepted_bare hopen)),
    fun hclosed _ haccepts => absurd (open_of_acceptsProof haccepts) hclosed⟩

theorem not_userVerified_bare :
    ¬UserVerified (g.proofAround [] [] []).authenticatorData := by
  intro h
  exact Nat.not_succ_le_zero _ h.1

theorem not_webauthnGet_bare : ¬WebauthnGet (g.proofAround [] [] []).clientDataJson := by
  intro h
  obtain ⟨members, hparse, -⟩ := h
  exact Json.not_object_of_quote hparse

end GuardedCall

open GuardedCall in
/-- A guarded call accepts genuine assertions only exactly when it accepts
nothing; the same for the flags and for the client data alone. -/
theorem only_genuine_iff (g : GuardedCall) :
    (g.Only Genuine ↔ ¬g.Open) ∧ (g.Only (UserVerified ·.authenticatorData) ↔ ¬g.Open) ∧
      (g.Only (WebauthnGet ·.clientDataJson) ↔ ¬g.Open) :=
  ⟨only_iff fun h => not_userVerified_bare h.userVerified, only_iff not_userVerified_bare,
    only_iff not_webauthnGet_bare⟩

section Localnet

open Sdk Sdk.Localnet

/-- The localnet wallet's passkey without user verification: UP alone is set. -/
def unverified : Assertion :=
  { assertion
      [129, 102, 91, 72, 187, 100, 19, 227, 169, 197, 38, 246, 232, 126, 76, 141, 50, 138, 249,
       10, 27, 205, 199, 212, 180, 177, 99, 84, 145, 247, 44, 110, 44, 3, 134, 124, 21, 178, 68,
       159, 41, 30, 28, 144, 147, 99, 191, 45, 219, 217, 225, 165, 64, 110, 223, 74, 95, 212, 132,
       212, 183, 42, 139, 54] (by decide) with
    authenticatorData := sha256 (Codec.utf8 "trana.so") ++ [1, 0, 0, 0, 1]
    length_message := by
      rw [List.length_append, length_sha256]
      decide }

/-- Its transaction passes the precompile and the guard's verification. -/
theorem unverified_accepted :
    Secp256r1.Accepted (unverified.curve (challenge policyRequire protectedIx 0))
      (proven unverified policyRequire protectedIx 0) ∧
    (runVerification ⟨5, 500⟩ ⟨proven unverified policyRequire protectedIx 0, 2⟩ (registry 0)
      wallet localnetId 2 (unverified.proof (challenge policyRequire protectedIx 0) 1000
        policyRequire) policyRequire).Returns (registry 0).consume ∧
    ¬Genuine (unverified.proof (challenge policyRequire protectedIx 0) 1000 policyRequire) := by
  have hv := verified_proven unverified protectedIx (registry 0) rfl (by decide) (by decide)
    length_utf8_policyRequire ⟨entry, List.mem_singleton_self _, rfl⟩
  refine ⟨accepted_proven (by decide), returns_runVerification.mpr ⟨rfl, _, _, hv.toAccepts⟩, ?_⟩
  intro hgenuine
  obtain ⟨-, flags, hflags, -, huv⟩ := hgenuine.userVerified
  have hone : unverified.authenticatorData[32]? = some 1 := by
    show (sha256 _ ++ _)[32]? = _
    rw [List.getElem?_append_right (by simp)]
    simp
  obtain rfl := Option.some.inj (hone.symm.trans hflags)
  exact huv (by decide)

end Localnet

end Trana.Security
