import Trana.Solana.Anchor

/-!
# trana_guard: state, wire types and errors

The program's types under their source names, each with the Borsh codec its
derive produces, and the two account layouts with their Anchor discriminators.

The discriminators are written out as the bytes the generated IDL lists, and the
addresses as bytes with an `example` that checks their text form. `INIT_SPACE` is
the number Anchor computes from the `max_len` attributes, and the account is
created with it: a registry of ten keys of the greatest lengths fills it to the
byte.

A log is a list of lines and events. `msg!` lines are texts, since a client reads
them as such; an event is its fields, and the base64 form in which `emit!` prints
it is left out, because nothing under the SDK decodes it.

* `PasskeyRegistry`, `TranaConfig` — the two account types.
* `PasskeyRegistry.blank` — what the zeros of a new account read as.
* `Policy`, `Policy.domain` — what a caller can demand, and the id that is hashed.
* `Result` — a run of this program.
-/

namespace Trana.Guard

open Trana.Lib Trana.Solana

/-- `GuardError`, in declaration order. -/
inductive GuardError where
  | missingProof
  | proofExpired
  | payloadMismatch
  | wrongSigner
  | invalidProof
  | nonceOverflow
  | policyMismatch
  | unauthorized
  | invalidTreasury
  | maxKeysReached
  | lastKeyCannotBeRemoved
  | credentialNotFound
  | registryRequired
  deriving DecidableEq, Repr

/-- `declare_id!` of the localnet build, which mainnet-beta shares so far. -/
def localnetId : Pubkey :=
  ⟨[230, 254, 109, 115, 35, 15, 121, 145, 40, 42, 115, 85, 166, 241, 216, 24, 251, 133, 157, 136,
    90, 35, 218, 96, 65, 24, 4, 233, 133, 13, 210, 145], by decide⟩

/-- `declare_id!` of the devnet build. -/
def devnetId : Pubkey :=
  ⟨[6, 196, 109, 248, 210, 156, 62, 6, 137, 28, 169, 128, 10, 208, 138, 251, 22, 173, 20, 238, 29,
    215, 79, 49, 244, 89, 140, 192, 92, 1, 124, 107], by decide⟩

example : localnetId.toBase58 = "GYhng7fbz51319ZwD1uBunBZs777C3KjmS52rYRcKfXn" ∧
    devnetId.toBase58 = "TRAqChewX8boPDuBbVXjS7iCQAnh9gDThfBRwXauwsG" := by
  decide +kernel

/-- The network features; a build selects exactly one. -/
inductive Network where
  | devnet
  | localnet
  | mainnetBeta
  deriving DecidableEq

/-- `declare_id!` of the build for the network. -/
def Network.declareId : Network → Pubkey
  | devnet => devnetId
  | localnet => localnetId
  -- the source's own to-do: a mainnet id before launch
  | mainnetBeta => localnetId

/-- Maximum number of passkeys a single wallet can register. -/
def maxKeys : Nat := 10

/-! ## Policies -/

/-- Standard authorization policies. -/
inductive Policy where
  | require
  | notBefore (slot : UInt64)
  | notAfter (slot : UInt64)
  | limit (paramOffset : UInt8) (limit : UInt64)
  deriving DecidableEq

/-- The four policy ids, as they enter the intent hash. -/
def policyRequire : String := "trana.require"
def policyLimit : String := "trana.limit"
def policyNotBefore : String := "trana.not_before"
def policyNotAfter : String := "trana.not_after"

/-- The domain string of a policy; its parameters are not part of it. -/
def Policy.domain : Policy → String
  | .require => policyRequire
  | .notBefore _ => policyNotBefore
  | .notAfter _ => policyNotAfter
  | .limit _ _ => policyLimit

/-- What holds of the four strings holds of every domain. -/
theorem Policy.domain_cases {P : String → Prop} (hrequire : P policyRequire)
    (hbefore : P policyNotBefore) (hafter : P policyNotAfter) (hlimit : P policyLimit)
    (policy : Policy) : P policy.domain := by
  cases policy with
  | require => exact hrequire
  | notBefore slot => exact hbefore
  | notAfter slot => exact hafter
  | limit paramOffset bound => exact hlimit

/-- An id's length fits the `u16` in front of it. -/
theorem Policy.length_domain (policy : Policy) : (Codec.utf8 policy.domain).length < 65536 :=
  Policy.domain_cases (P := fun domain => (Codec.utf8 domain).length < 65536) (by decide +kernel)
    (by decide +kernel) (by decide +kernel) (by decide +kernel) policy

/-- `limit`'s two parameters in a row. -/
def limitCodec : Codec (UInt8 × UInt64) := Codec.u8.pair Codec.u64

/-- A variant tag followed by the variant's fields. -/
def Policy.codec : Codec Policy where
  write
    | .require => some [0]
    | .notBefore slot => (Codec.u64.write slot).map (1 :: ·)
    | .notAfter slot => (Codec.u64.write slot).map (2 :: ·)
    | .limit paramOffset bound => (limitCodec.write (paramOffset, bound)).map (3 :: ·)
  read
    | 0 :: r => some (.require, r)
    | 1 :: r => (Codec.u64.read r).map fun p => (.notBefore p.1, p.2)
    | 2 :: r => (Codec.u64.read r).map fun p => (.notAfter p.1, p.2)
    | 3 :: r => (limitCodec.read r).map fun p => (.limit p.1.1 p.1.2, p.2)
    | _ => none
  read_write {p bs} h r := by
    cases p with
    | require =>
      obtain rfl := Option.some.inj h
      rfl
    | notBefore slot =>
      obtain ⟨w, hw, rfl⟩ := Option.map_eq_some_iff.mp h
      simp [Codec.u64.read_write hw]
    | notAfter slot =>
      obtain ⟨w, hw, rfl⟩ := Option.map_eq_some_iff.mp h
      simp [Codec.u64.read_write hw]
    | limit paramOffset bound =>
      obtain ⟨w, hw, rfl⟩ := Option.map_eq_some_iff.mp h
      simp [limitCodec.read_write hw]
  write_read {bs p r} h := by
    split at h
    next r' =>
      simp only [Option.some.injEq, Prod.mk.injEq] at h
      obtain ⟨rfl, rfl⟩ := h
      exact ⟨[0], rfl, rfl⟩
    next r' =>
      obtain ⟨⟨slot, rest⟩, hread, heq⟩ := Option.map_eq_some_iff.mp h
      simp only [Prod.mk.injEq] at heq
      obtain ⟨rfl, rfl⟩ := heq
      obtain ⟨w, hw, rfl⟩ := Codec.u64.write_read hread
      exact ⟨1 :: w, by simp [hw], rfl⟩
    next r' =>
      obtain ⟨⟨slot, rest⟩, hread, heq⟩ := Option.map_eq_some_iff.mp h
      simp only [Prod.mk.injEq] at heq
      obtain ⟨rfl, rfl⟩ := heq
      obtain ⟨w, hw, rfl⟩ := Codec.u64.write_read hread
      exact ⟨2 :: w, by simp [hw], rfl⟩
    next r' =>
      obtain ⟨⟨p', rest⟩, hread, heq⟩ := Option.map_eq_some_iff.mp h
      simp only [Prod.mk.injEq] at heq
      obtain ⟨rfl, rfl⟩ := heq
      obtain ⟨w, hw, rfl⟩ := limitCodec.write_read hread
      exact ⟨3 :: w, by simp [hw], rfl⟩
    next => nomatch h

/-! ## Proof data -/

/-- The payload of `record_proof`. -/
structure ProofData where
  version : UInt8
  expiry : Int64
  policy : String
  authenticatorData : Bytes
  clientDataJson : Bytes
  deriving DecidableEq

/-- The fields in order, strings and byte vectors with their length in front. -/
def ProofData.codec : Codec ProofData :=
  (Codec.u8.pair (Codec.i64.pair (Codec.string.pair (Codec.vecU8.pair Codec.vecU8)))).map
    (fun p => ⟨p.1, p.2.1, p.2.2.1, p.2.2.2.1, p.2.2.2.2⟩)
    (fun d => (d.version, d.expiry, d.policy, d.authenticatorData, d.clientDataJson))
    (fun _ => rfl) (fun _ => rfl)

/-! ## On-chain state -/

/-- How a key signs; there is one way so far. -/
inductive KeyKind where
  | secp256r1Passkey
  | ed25519
  deriving DecidableEq, Repr

/-- One byte. -/
def KeyKind.codec : Codec KeyKind :=
  Codec.enum
    (fun | .secp256r1Passkey => 0 | .ed25519 => 1)
    (fun t => if t = 0 then some .secp256r1Passkey else if t = 1 then some .ed25519 else none)
    (fun k => by cases k <;> rfl)
    (fun t k h => by
      split at h
      next ht =>
        obtain rfl := Option.some.inj h
        exact ht.symm
      next =>
        split at h
        next ht =>
          obtain rfl := Option.some.inj h
          exact ht.symm
        next => nomatch h)

/-- A single registered passkey credential. -/
structure PasskeyEntry where
  keyKind : KeyKind
  pubkeyBytes : Bytes
  credentialId : Bytes
  deriving DecidableEq

/-- The fields in order. -/
def PasskeyEntry.codec : Codec PasskeyEntry :=
  (KeyKind.codec.pair (Codec.vecU8.pair Codec.vecU8)).map
    (fun p => ⟨p.1, p.2.1, p.2.2⟩) (fun e => (e.keyKind, e.pubkeyBytes, e.credentialId))
    (fun _ => rfl) (fun _ => rfl)

/-- Per-user passkey registry, at the PDA of `["passkey", owner]`. -/
structure PasskeyRegistry where
  owner : Pubkey
  nonce : UInt64
  keys : List PasskeyEntry
  deriving DecidableEq

namespace PasskeyRegistry

/-- A compressed key. -/
def maxPubkeyLen : Nat := 33
/-- A credential id longer than this is refused. -/
def maxCredIdLen : Nat := 128

/-- The owner, the nonce, then the keys. -/
def codec : Codec PasskeyRegistry :=
  (Pubkey.codec.pair (Codec.u64.pair (Codec.vec PasskeyEntry.codec))).map
    (fun p => ⟨p.1, p.2.1, p.2.2⟩) (fun r => (r.owner, r.nonce, r.keys))
    (fun _ => rfl) (fun _ => rfl)

/-- `PasskeyRegistry` as an account: owner, nonce and a list of ten entries at
their maximal lengths. -/
def layout : AccountLayout PasskeyRegistry where
  discriminator := [201, 107, 52, 207, 15, 250, 77, 253]
  initSpace := 32 + 8 + (4 + 10 * (1 + (4 + 33) + (4 + 128)))
  codec := codec

/-- The registry a freshly created, zeroed account reads as. -/
def blank : PasskeyRegistry := ⟨systemProgramId, 0, []⟩

/-- The zeros of a new account read as a registry without keys, whose owner is the
zero address. -/
theorem tryDeserializeUnchecked_blank :
    layout.tryDeserializeUnchecked (List.replicate layout.space 0) = .ok blank := by
  decide +kernel

end PasskeyRegistry

/-- Global fee configuration, at the PDA of `["config"]`. -/
structure TranaConfig where
  authority : Pubkey
  treasury : Pubkey
  registerFee : UInt64
  addKeyFee : UInt64
  deriving DecidableEq

namespace TranaConfig

/-- The two addresses, then the two fees. -/
def codec : Codec TranaConfig :=
  (Pubkey.codec.pair (Pubkey.codec.pair (Codec.u64.pair Codec.u64))).map
    (fun p => ⟨p.1, p.2.1, p.2.2.1, p.2.2.2⟩)
    (fun c => (c.authority, c.treasury, c.registerFee, c.addKeyFee))
    (fun _ => rfl) (fun _ => rfl)

/-- `TranaConfig` as an account: of one size, whatever it holds. -/
def layout : AccountLayout TranaConfig where
  discriminator := [158, 219, 168, 100, 121, 7, 12, 34]
  initSpace := 32 + 32 + 8 + 8
  codec := codec

/-- A config is no registry. -/
theorem discriminator_ne : layout.discriminator ≠ PasskeyRegistry.layout.discriminator := by
  decide

end TranaConfig

/-! ## Logs -/

/-- The audit event of a successful verification. -/
structure ProofVerified where
  owner : Pubkey
  policy : String
  target : Pubkey
  nonce : UInt64
  expiry : Int64
  deriving DecidableEq

/-- A log line or an event. -/
inductive Log where
  | msg (line : String)
  | proofVerified (event : ProofVerified)
  deriving DecidableEq

/-- `Result<T>` of this program, with what was logged on the way. -/
abbrev Result := ProgramExec GuardError Log

/-- `msg!(line)` -/
def msg (line : String) : Result Unit := Exec.log (.msg line)

/-- Logging a line does not end a run. -/
@[simp] theorem returns_msg {line : String} {u : Unit} : (msg line).Returns u ↔ True := by
  simp [msg]

/-- `emit!(event)` -/
def emit (event : ProofVerified) : Result Unit := Exec.log (.proofVerified event)

/-- Nor does emitting an event. -/
@[simp] theorem returns_emit {event : ProofVerified} {u : Unit} :
    (emit event).Returns u ↔ True := by
  simp [emit]

end Trana.Guard
