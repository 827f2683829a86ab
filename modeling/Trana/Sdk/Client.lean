import Trana.Sdk.Transaction

/-!
# SDK: building proofs

`guard/client.ts`: `buildProof` makes the two instructions that go in front of
a protected one. The authenticator's answer to the challenge (`signIntent`)
and the registered key that signed are an `Assertion`; the clock is
`Date.now()`. A call that would throw is `none`.

* `buildProof` — the client's method: it fetches the registry, takes the nonce
  from it unless the caller gives one, lets the approval hold for 120 seconds
  unless the caller says otherwise, and looks up the key by its credential id.
* `proofInstructions` — what it does once nonce, expiry and key are known.
* `assemble` — a transaction around the pairs, item by item. Put together from
  the client's pairs it is `clientTransaction`, from pairs for the keys that
  signed it is `buildTransaction`; `clientTransaction_eq` says when the two agree.
* `proofInstructions_eq`, `buildProof_eq` — the pair carries the guard's intent
  hash as challenge.
* `buildTransaction_eq` — several protected instructions in one transaction,
  each behind its pair at consecutive nonces, among other instructions.
* `accepted_transactionOf` — the precompile lets it through.

Putting several pairs into one transaction is the caller's work in the source:
`buildProof` takes the nonce as an option for that purpose.
-/

namespace Trana.Sdk

open Trana.Lib Trana.Lib.Exec Trana.Solana Trana.Guard

/-- Canonical string ID used in `record_proof` payload and intent hash. -/
def policyId : Policy → String
  | .require => "trana.require"
  | .notBefore _ => "trana.not_before"
  | .notAfter _ => "trana.not_after"
  | .limit _ _ => "trana.limit"

/-- The client's ids are the guard's. -/
theorem policyId_eq (policy : Policy) : policyId policy = policy.domain := by
  cases policy with
  | require => rfl
  | notBefore slot => rfl
  | notAfter slot => rfl
  | limit paramOffset bound => rfl

/-- The proof pair for a protected instruction, `buildProof` once the signing
key is known. -/
def proofInstructions (alloc : AllocUnsafe) (tranaGuardProgramId owner : Pubkey)
    (protectedIx : Instruction) (policy : Policy) (nonce : Nat) (expiryTtlSec : Int)
    (dateNow : Nat) (a : Assertion) (pubkeyBytes : Bytes) : Option (Instruction × Instruction) := do
  let input := intentFromInstruction protectedIx
  let intent := buildIntent owner tranaGuardProgramId input nonce
    ⟨policyId policy, some expiryTtlSec⟩ dateNow
  let challenge ← hashIntent intent
  let clientDataJSON := a.clientDataJSON challenge
  let message ← buildWebAuthnMessage a.authenticatorData clientDataJSON
  let secp256r1Ix ← buildSecp256r1Ix alloc pubkeyBytes a.signature message
  let recordProofIx := buildRecordProofIx tranaGuardProgramId a.authenticatorData clientDataJSON
    intent.expiryUnix intent.policyId
  some (secp256r1Ix, recordProofIx)

/-- Build the proof pair for a protected instruction, for the key that the
registry of the owner has under the credential id. The nonce is the registry's
unless the caller gives one; without a registry, or without the key, it throws. -/
def buildProof (alloc : AllocUnsafe) (tranaGuardProgramId owner : Pubkey)
    (fetchRegistry : Option PasskeyRegistry) (credentialId : Bytes) (protectedIx : Instruction)
    (policy : Policy) (nonce : Option Nat) (expiryTtlSec : Option Int) (dateNow : Nat)
    (a : Assertion) : Option (Instruction × Instruction) := do
  -- `expiryTtlSec = 120`
  let expiryTtlSec := expiryTtlSec.getD 120
  -- both lookups throw when there is nothing: no registry, no key of that id
  let registry ← fetchRegistry
  let nonce := nonce.getD registry.nonce.toNat
  let matchedEntry ← registry.keys.find? fun k => k.credentialId == credentialId
  proofInstructions alloc tranaGuardProgramId owner protectedIx policy nonce expiryTtlSec dateNow a
    matchedEntry.pubkeyBytes

/-- A protected instruction, with what the caller and the authenticator add,
and the accounts its program passes to `enforce`. -/
structure Guarded where
  ix : Instruction
  policy : Policy
  assertion : Assertion
  expiryTtlSec : Int
  dateNow : Nat
  metas : List AccountMeta

/-- A step of a transaction: another instruction, or a guarded one. -/
inductive Item where
  | other (ix : Instruction)
  | guarded (g : Guarded)

/-- Put a transaction together, from this nonce on, with the pairs a builder makes. -/
def assemble (proofOf : Guarded → Nat → Option (Instruction × Instruction)) :
    List Item → Nat → Option (List Instruction)
  | [], _ => some []
  | .other ix :: items, nonce => do
    let rest ← assemble proofOf items nonce
    some (ix :: rest)
  | .guarded g :: items, nonce => do
    let (secp256r1Ix, recordProofIx) ← proofOf g nonce
    -- each pair consumes one nonce, so the next pair is for the next
    let rest ← assemble proofOf items (nonce + 1)
    some (secp256r1Ix :: recordProofIx :: g.ix :: rest)

/-- With pairs made for the keys that signed. -/
def buildTransaction (alloc : AllocUnsafe) (tranaGuardProgramId owner : Pubkey) :
    List Item → Nat → Option (List Instruction) :=
  assemble fun g nonce => proofInstructions alloc tranaGuardProgramId owner g.ix g.policy nonce
    g.expiryTtlSec g.dateNow g.assertion g.assertion.pubkey

/-- With pairs the client makes, for keys it looks up by credential id. -/
def clientTransaction (alloc : AllocUnsafe) (tranaGuardProgramId owner : Pubkey)
    (registry : PasskeyRegistry) (credentialIdOf : Guarded → Bytes) :
    List Item → Nat → Option (List Instruction) :=
  assemble fun g nonce => buildProof alloc tranaGuardProgramId owner (some registry)
    (credentialIdOf g) g.ix g.policy (some nonce) (some g.expiryTtlSec) g.dateNow g.assertion

/-- How many are guarded. -/
def guardedCount : List Item → Nat
  | [] => 0
  | .other _ :: items => guardedCount items
  | .guarded _ :: items => guardedCount items + 1

/-! ## What is built -/

section Built

variable {alloc : AllocUnsafe} (guardId owner : Pubkey)

namespace Guarded

variable (g : Guarded)

/-- When the approval ends, in seconds. -/
def expiryUnix : Int := (g.dateNow / 1000 : Nat) + g.expiryTtlSec

/-- The guard's intent hash at this nonce. -/
def challenge (nonce : Nat) : Bytes :=
  intentHash owner guardId g.policy.domain g.ix (UInt64.ofNat nonce) (Int64.ofInt g.expiryUnix)

/-- The precompile instruction at this nonce, -/
def secpIx (nonce : Nat) : Instruction := g.assertion.secpIx (g.challenge guardId owner nonce)

/-- and the carrier behind it. -/
def recordProofIx (nonce : Nat) : Instruction :=
  g.assertion.recordProofIx guardId (g.challenge guardId owner nonce) g.expiryUnix g.policy.domain

end Guarded

/-- The transaction, as a value. -/
def transactionOf : List Item → Nat → List Instruction
  | [], _ => []
  | .other ix :: items, nonce => ix :: transactionOf items nonce
  | .guarded g :: items, nonce =>
    g.secpIx guardId owner nonce :: g.recordProofIx guardId owner nonce
    :: g.ix :: transactionOf items (nonce + 1)

variable {guardId owner} {g : Guarded} {nonce : Nat}

/-- The proof pair of an instruction with a discriminator. -/
theorem proofInstructions_eq (hdata : 8 ≤ g.ix.data.length) (hnonce : nonce < 2 ^ 64) :
    proofInstructions alloc guardId owner g.ix g.policy nonce g.expiryTtlSec g.dateNow g.assertion
        g.assertion.pubkey =
      some (g.secpIx guardId owner nonce, g.recordProofIx guardId owner nonce) := by
  have hhash : hashIntent (buildIntent owner guardId (intentFromInstruction g.ix) nonce
      ⟨g.policy.domain, some g.expiryTtlSec⟩ g.dateNow) =
        some (g.challenge guardId owner nonce) :=
    hashIntent_buildIntent hdata hnonce
  rw [proofInstructions, policyId_eq]
  simp only [hhash, buildWebAuthnMessage_eq, Option.bind_eq_bind, Option.bind_some,
    buildSecp256r1Ix_eq g.assertion.length_pubkey g.assertion.length_signature]
  rfl

/-- The registry lists the key that signed under this credential id, in front of
any other entry that has it. -/
def Guarded.ListedAs (g : Guarded) (registry : PasskeyRegistry) (credentialId : Bytes) : Prop :=
  ∃ k, registry.keys.find? (fun k => k.credentialId == credentialId) = some k ∧
    k.pubkeyBytes = g.assertion.pubkey

/-- Then the client builds the pair for the key that signed, at the nonce it is given. -/
theorem buildProof_eq {registry : PasskeyRegistry} {credentialId : Bytes}
    (h : g.ListedAs registry credentialId) :
    buildProof alloc guardId owner (some registry) credentialId g.ix g.policy (some nonce)
        (some g.expiryTtlSec) g.dateNow g.assertion =
      proofInstructions alloc guardId owner g.ix g.policy nonce g.expiryTtlSec g.dateNow g.assertion
        g.assertion.pubkey := by
  obtain ⟨k, hentry, hkey⟩ := h
  rw [← hkey, buildProof, Option.bind_eq_bind, Option.bind_some, hentry, Option.bind_eq_bind,
    Option.bind_some]
  rfl

/-- Builders that agree on the guarded items make one transaction. -/
theorem assemble_congr {proofOf proofOf' : Guarded → Nat → Option (Instruction × Instruction)}
    {items : List Item}
    (h : ∀ g, Item.guarded g ∈ items → ∀ nonce, proofOf g nonce = proofOf' g nonce) :
    assemble proofOf items nonce = assemble proofOf' items nonce := by
  induction items generalizing nonce with
  | nil => rfl
  | cons item items ih =>
    have hrest : ∀ nonce, assemble proofOf items nonce = assemble proofOf' items nonce := fun _ =>
      ih fun g hg => h g (List.mem_cons_of_mem _ hg)
    cases item with
    | other ix => rw [assemble, assemble, hrest]
    | guarded g => rw [assemble, assemble, h g (List.mem_cons_self ..), hrest]

/-- The client's transaction is the one made for the keys that signed. -/
theorem clientTransaction_eq {registry : PasskeyRegistry} {credentialIdOf : Guarded → Bytes}
    {items : List Item}
    (hlisted : ∀ g, Item.guarded g ∈ items → g.ListedAs registry (credentialIdOf g)) :
    clientTransaction alloc guardId owner registry credentialIdOf items nonce =
      buildTransaction alloc guardId owner items nonce :=
  assemble_congr fun g hg _ => buildProof_eq (hlisted g hg)

/-- The transaction is built, and is the value, when every nonce is a `u64`. -/
theorem buildTransaction_eq {items : List Item}
    (hdata : ∀ g, Item.guarded g ∈ items → 8 ≤ g.ix.data.length)
    (hnonce : nonce + guardedCount items ≤ 2 ^ 64) :
    buildTransaction alloc guardId owner items nonce =
      some (transactionOf guardId owner items nonce) := by
  induction items generalizing nonce with
  | nil => rfl
  | cons item items ih =>
    have hrest : ∀ g, Item.guarded g ∈ items → 8 ≤ g.ix.data.length := fun g hg =>
      hdata g (List.mem_cons_of_mem _ hg)
    cases item with
    | other ix =>
      have hitems := ih hrest hnonce
      rw [buildTransaction] at hitems ⊢
      rw [assemble, hitems]
      rfl
    | guarded g =>
      have hlt : nonce + 1 + guardedCount items ≤ 2 ^ 64 := by
        rw [guardedCount] at hnonce
        omega
      have hitems := ih hrest hlt
      rw [buildTransaction] at hitems ⊢
      rw [assemble, proofInstructions_eq (hdata g (List.mem_cons_self ..)) (by omega), hitems]
      rfl

/-- Every answer verifies under its key, for the challenge it was given. -/
def Signed (p256 : Secp256r1.Curve) (guardId owner : Pubkey) : List Item → Nat → Prop
  | [], _ => True
  | .other _ :: items, nonce => Signed p256 guardId owner items nonce
  | .guarded g :: items, nonce =>
    p256 g.assertion.pubkey (sha256 (g.assertion.message (g.challenge guardId owner nonce)))
      g.assertion.signature = true ∧ Signed p256 guardId owner items (nonce + 1)

/-- The precompile accepts what was built, and so the transaction when it
accepts the instructions that were not. -/
theorem accepted_transactionOf {p256 : Secp256r1.Curve} {items : List Item} {datas : List Bytes}
    (hid : guardId ≠ Secp256r1.programId) (hsigned : Signed p256 guardId owner items nonce)
    (hother : ∀ ix, Item.other ix ∈ items → ix.programId = Secp256r1.programId →
      Secp256r1.verify p256 ix.data datas = true)
    (hguarded : ∀ g, Item.guarded g ∈ items → g.ix.programId ≠ Secp256r1.programId) :
    ∀ ix ∈ transactionOf guardId owner items nonce, ix.programId = Secp256r1.programId →
      Secp256r1.verify p256 ix.data datas = true := by
  induction items generalizing nonce with
  | nil => exact fun ix hix => absurd hix List.not_mem_nil
  | cons item items ih =>
    have hother' : ∀ ix, Item.other ix ∈ items → ix.programId = Secp256r1.programId →
        Secp256r1.verify p256 ix.data datas = true := fun ix hix =>
      hother ix (List.mem_cons_of_mem _ hix)
    have hguarded' : ∀ g, Item.guarded g ∈ items → g.ix.programId ≠ Secp256r1.programId :=
      fun g hg => hguarded g (List.mem_cons_of_mem _ hg)
    cases item with
    | other ix₀ =>
      intro ix hix hprogram
      rcases List.mem_cons.mp hix with rfl | hix
      · exact hother ix (List.mem_cons_self ..) hprogram
      · exact ih hsigned hother' hguarded' ix hix hprogram
    | guarded g =>
      intro ix hix hprogram
      rcases List.mem_cons.mp hix with rfl | hix
      · rw [Guarded.secpIx, g.assertion.verify_secpIx]
        exact hsigned.1
      rcases List.mem_cons.mp hix with rfl | hix
      · exact absurd hprogram hid
      rcases List.mem_cons.mp hix with rfl | hix
      · exact absurd hprogram (hguarded g (List.mem_cons_self ..))
      · exact ih hsigned.2 hother' hguarded' ix hix hprogram

end Built

end Trana.Sdk
