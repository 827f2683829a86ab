import Trana.Sdk.Client

/-!
# Command line: the proof

The scripts under `scripts/` that need a passkey's approval sign with a P-256 key
derived from the wallet's own secret key. Each of them puts the intent hash, the
client data and the two proof instructions together by hand, byte by byte, and
they all do it in the same way; here it is one definition, `proofTransaction`.

* `proofTransaction_eq` — what they send is a proof pair with the guard's own
  intent hash.
* `accepted_proofTransaction` — the precompile accepts it.
* `verified_proofTransaction_iff` — the guard verifies it as long as it is fresh,
  the derived key is registered and there is a next nonce.

Where the model is not the files:

* `p256` of `@noble/curves` is a parameter, with its documented lengths and the
  promise that a signature verifies. The library throws on a key that is no
  scalar of the curve; a SHA-256 hash is one up to an event of probability below
  2^-31, which is left out.
* `Date.now()` is a natural number of milliseconds, and the expiry that is made
  of it a whole number of seconds, written in eight bytes.
* The instruction's accounts are hashed in the order in which the script lists
  them, which is the order the guard finds them in; flags are not hashed.
* Nothing of what the scripts print is kept.
-/

namespace Trana.Scripts

open Trana.Lib Trana.Solana Trana.Guard Trana.Sdk

/-- `Keypair`: the first 32 bytes of the secret key are the seed. -/
structure Keypair where
  publicKey : Pubkey
  secretKey : Bytes

/-- `p256` of `@noble/curves`: compressed keys, compact signatures over the
SHA-256 of the message. -/
structure P256 (curve : Secp256r1.Curve) where
  getPublicKey : Bytes → Bytes
  sign : Bytes → Bytes → Bytes
  length_getPublicKey : ∀ key, (getPublicKey key).length = 33
  length_sign : ∀ message key, (sign message key).length = 64
  verifies : ∀ message key, curve (getPublicKey key) (sha256 message) (sign message key) = true

/-- Derive the P-256 key deterministically from the wallet keypair. -/
def seed (owner : Keypair) : Bytes :=
  sha256 (Codec.utf8 "trana:passkey:v1" ++ owner.secretKey.take 32)

/-- The intent, in front of its hash. The discriminator is the first eight bytes
of the instruction data, written out once more. -/
def payload (owner guardProg : Pubkey) (ix : Instruction) (nonce : ℕ) (expiryUnix : Int) : Bytes :=
  let domain := Codec.utf8 "trana:v1"
  let policy := Codec.utf8 "trana.require"
  [1]
    ++ leBytes 2 domain.length ++ domain
    ++ owner.bytes
    ++ guardProg.bytes
    ++ ix.programId.bytes
    ++ leBytes 2 policy.length ++ policy
    ++ ix.data.take 8
    ++ sha256 (ix.accountKeys.flatMap Pubkey.bytes) ++ sha256 (ix.data.drop 8)
    ++ leBytes 8 nonce ++ i64le expiryUnix

/-- `JSON.stringify({ type: "webauthn.get", challenge })` -/
def clientJSON (challenge : Bytes) : Bytes :=
  Codec.utf8 "\x7b\"type\":\"webauthn.get\",\"challenge\":\"" ++ base64urlEncode challenge ++
    Codec.utf8 "\"\x7d"

/-- The relying party is `localhost`; flags UP and UV, and a counter of zero. -/
def authData : Bytes := sha256 (Codec.utf8 "localhost") ++ [5, 0, 0, 0, 0]

section Build

variable {curve : Secp256r1.Curve} (p256 : P256 curve) (alloc : AllocUnsafe) (owner : Keypair)
  (guardProg : Pubkey)

/-- The derived key, compressed. -/
def pubkeyBytes : Bytes := p256.getPublicKey (seed owner)

/-- Good for two minutes. -/
def expiryUnix (dateNow : ℕ) : Int := (dateNow / 1000 : ℕ) + 120

/-- The instruction behind its proof. -/
def proofTransaction (ix : Instruction) (nonce dateNow : ℕ) : Option (List Instruction) := do
  let challenge := sha256 (payload owner.publicKey guardProg ix nonce (expiryUnix dateNow))
  let message := authData ++ sha256 (clientJSON challenge)
  let compact := p256.sign message (seed owner)
  let secp256r1Ix ← buildSecp256r1Ix alloc (pubkeyBytes p256 owner) compact message
  let recordProofIx := buildRecordProofIx guardProg authData (clientJSON challenge)
    (expiryUnix dateNow) "trana.require"
  some [secp256r1Ix, recordProofIx, ix]

end Build

/-! ## What is built -/

section Built

variable {curve : Secp256r1.Curve} {p256 : P256 curve} {alloc : AllocUnsafe} {owner : Keypair}
  {guardProg : Pubkey} {ix : Instruction} {nonce dateNow : ℕ}

/-- Client data with no member behind the challenge. -/
theorem clientJSON_eq (challenge : Bytes) :
    clientJSON challenge = clientData challenge (Codec.utf8 "\x7d") := by
  have hhead : Codec.utf8 "\x7b\"type\":\"webauthn.get\",\"challenge\":\"" =
      clientDataHead ++ challengeKey := by decide +kernel
  have htail : Codec.utf8 "\"\x7d" = '"'.toUInt8 :: Codec.utf8 "\x7d" := by decide +kernel
  rw [clientJSON, clientData, hhead, htail]

/-- No extensions follow the counter. -/
theorem length_authData : authData.length = 37 := by simp [authData]

/-- The derived key's assertion over a challenge. -/
def approval (p256 : P256 curve) (owner : Keypair) (challenge : Bytes) : Assertion where
  pubkey := pubkeyBytes p256 owner
  signature := p256.sign (authData ++ sha256 (clientJSON challenge)) (seed owner)
  authenticatorData := authData
  clientTail := Codec.utf8 "\x7d"
  length_pubkey := p256.length_getPublicKey _
  length_signature := p256.length_sign _ _
  length_message := by rw [length_authData]; decide
  length_clientData := fun _ h => length_clientData_lt h (by decide +kernel)

/-- What is hashed is the guard's preimage. -/
theorem sha256_payload (owner guardProg : Pubkey) (ix : Instruction) (expiry : Int)
    (hnonce : nonce < 2 ^ 64) :
    sha256 (payload owner guardProg ix nonce expiry) =
      intentHash owner guardProg policyRequire ix (UInt64.ofNat nonce) (Int64.ofInt expiry) := by
  unfold intentHash intentPreimage
  rw [UInt64.toNat_ofNat_of_lt' hnonce, ← i64le_expiry]
  simp only [payload, lenPrefixed, accBytes, policyRequire, intentDomain, List.append_assoc]

/-- The challenge the guard expects. -/
def challengeOf (owner guardProg : Pubkey) (ix : Instruction) (nonce dateNow : ℕ) : Bytes :=
  intentHash owner guardProg policyRequire ix (UInt64.ofNat nonce)
    (Int64.ofInt (expiryUnix dateNow))

/-- The approval for an instruction. -/
def approvalFor (p256 : P256 curve) (owner : Keypair) (guardProg : Pubkey) (ix : Instruction)
    (nonce dateNow : ℕ) : Assertion :=
  approval p256 owner (challengeOf owner.publicKey guardProg ix nonce dateNow)

/-- The transaction is a proof pair in front of the instruction. -/
theorem proofTransaction_eq (hnonce : nonce < 2 ^ 64) :
    proofTransaction p256 alloc owner guardProg ix nonce dateNow =
      some ((approvalFor p256 owner guardProg ix nonce dateNow).proofPair guardProg
        (challengeOf owner.publicKey guardProg ix nonce dateNow) (expiryUnix dateNow)
          policyRequire ++ [ix]) := by
  unfold proofTransaction
  rw [sha256_payload owner.publicKey guardProg ix (expiryUnix dateNow) hnonce]
  generalize hchallenge : intentHash owner.publicKey guardProg policyRequire ix
    (UInt64.ofNat nonce) (Int64.ofInt (expiryUnix dateNow)) = challenge
  have hfor : challengeOf owner.publicKey guardProg ix nonce dateNow = challenge := hchallenge
  have hkey : (pubkeyBytes p256 owner).length = 33 := p256.length_getPublicKey _
  rw [approvalFor, hfor]
  simp only [buildSecp256r1Ix_eq hkey (p256.length_sign _ _), Option.bind_eq_bind,
    Option.bind_some]
  have hclient := clientJSON_eq challenge
  simp only [Assertion.proofPair, Assertion.secpIx, Assertion.recordProofIx, Assertion.message,
    Assertion.clientDataJSON, approval, hclient, policyRequire, List.cons_append,
    List.nil_append]

/-- The derived key's signature passes the precompile. -/
theorem accepted_proofTransaction (hguard : guardProg ≠ Secp256r1.programId)
    (hix : ix.programId ≠ Secp256r1.programId) {tx : List Instruction} (hnonce : nonce < 2 ^ 64)
    (h : proofTransaction p256 alloc owner guardProg ix nonce dateNow = some tx) :
    Secp256r1.Accepted curve tx := by
  rw [proofTransaction_eq hnonce] at h
  obtain rfl := Option.some.inj h
  intro i hi hid
  rcases List.mem_cons.mp hi with rfl | hi
  · rw [Assertion.verify_secpIx]
    have hclient := clientJSON_eq (challengeOf owner.publicKey guardProg ix nonce dateNow)
    have hsigned := p256.verifies (authData ++ sha256 (clientJSON
      (challengeOf owner.publicKey guardProg ix nonce dateNow))) (seed owner)
    rw [hclient] at hsigned
    show curve (pubkeyBytes p256 owner) _ (p256.sign (authData ++ sha256 (clientJSON _)) _) = true
    rw [hclient]
    exact hsigned
  · rcases List.mem_cons.mp hi with rfl | hi
    · exact absurd hid hguard
    · obtain rfl := List.mem_singleton.mp hi
      exact absurd hid hix

/-- The proof holds as long as it is fresh and the derived key is registered. -/
theorem verified_proofTransaction_iff {tx : List Instruction} {clock : Clock}
    {r : PasskeyRegistry} (hdata : 8 ≤ ix.data.length)
    (h : proofTransaction p256 alloc owner guardProg ix r.nonce.toNat dateNow = some tx) :
    (∃ proof ix' secpIx, Verified clock ⟨tx, 2⟩ r owner.publicKey guardProg 2 policyRequire proof
        ix' secpIx) ↔
      clock.unixTimestamp < Int64.ofInt (expiryUnix dateNow) ∧
        (∃ k ∈ r.keys, k.pubkeyBytes = pubkeyBytes p256 owner) ∧ r.nonce.toNat + 1 < 2 ^ 64 := by
  rw [proofTransaction_eq r.nonce.toNat_lt] at h
  have htx := (Option.some.inj h).symm
  generalize hfor : approvalFor p256 owner guardProg ix r.nonce.toNat dateNow = a at htx
  generalize hof : challengeOf owner.publicKey guardProg ix r.nonce.toNat dateNow = challenge
    at htx
  have hsecp : tx[0]? = some (a.secpIx challenge) := by
    rw [htx]
    rfl
  have hrecord : tx[1]? =
      some (a.recordProofIx guardProg challenge (expiryUnix dateNow) policyRequire) := by
    rw [htx]
    rfl
  have hix : tx[2]? = some ix := by
    rw [htx]
    rfl
  have hchallenge : challenge = intentHash owner.publicKey guardProg policyRequire ix r.nonce
      (Int64.ofInt (expiryUnix dateNow)) := by
    rw [← hof, challengeOf, UInt64.ofNat_toNat]
  have hkey : a.pubkey = pubkeyBytes p256 owner := by
    rw [← hfor]
    rfl
  rw [← hkey]
  have htwo : 2 ≤ (2 : UInt16).toNat := by decide
  exact verified_proofPair_iff hchallenge htwo hsecp hrecord hix hdata
    (Nat.lt_trans Policy.require.length_domain (by decide))

end Built

end Trana.Scripts
