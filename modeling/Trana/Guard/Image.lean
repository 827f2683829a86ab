import Trana.Guard.Completeness
import Trana.Lib.DataView

/-!
# The bytes of a registry account

Where the fields of a registry stand in its account, for readers that know
nothing of Borsh: the SDK's `react/registry.ts` and the landing page read the
key list and the nonce by byte offset. The image is that of `state.rs` field by
field: eight discriminator bytes, the owner, the nonce, the number of keys, the
entries, and then whatever an earlier, longer key list left behind, since
Anchor's exit overwrites the front of an account and clears nothing.

* `RegistryImage` — the image.
* `write_entry` — an entry's bytes, with its credential id behind a length.
* `registryImage_of_read` — the account of a registry has its image.

Only the program reads the account through Borsh; that the two readings agree is
what the decoders' own modules are about.
-/

namespace Trana.Guard

open Trana.Lib Trana.Solana

/-- The variant's byte. -/
def KeyKind.tag : KeyKind → UInt8
  | .secp256r1Passkey => 0
  | .ed25519 => 1

/-- Kind, then key and credential id behind their lengths. -/
def PasskeyEntry.bytes (e : PasskeyEntry) : Bytes :=
  [e.keyKind.tag] ++ (lenPrefixed 4 e.pubkeyBytes ++ lenPrefixed 4 e.credentialId)

/-- Both lengths fit their prefixes. -/
def PasskeyEntry.Prefixable (e : PasskeyEntry) : Prop :=
  e.pubkeyBytes.length < 256 ^ 4 ∧ e.credentialId.length < 256 ^ 4

/-- What Borsh writes for an entry. -/
theorem write_entry {e : PasskeyEntry} {x : Bytes} (h : PasskeyEntry.codec.write e = some x) :
    e.Prefixable ∧ x = e.bytes := by
  obtain ⟨keyKind, pubkeyBytes, credentialId⟩ := e
  obtain ⟨tag, rest, htag, hrest, rfl⟩ := Codec.pair_write_eq_some.mp h
  obtain ⟨key, id, hkey, hid, rfl⟩ := Codec.pair_write_eq_some.mp hrest
  obtain ⟨hkeylt, rfl⟩ := Codec.vecU8_write_eq_some.mp hkey
  obtain ⟨hidlt, rfl⟩ := Codec.vecU8_write_eq_some.mp hid
  refine ⟨⟨hkeylt, hidlt⟩, ?_⟩
  obtain rfl := Option.some.inj htag
  cases keyKind with
  | secp256r1Passkey => rfl
  | ed25519 => rfl

/-- The fields of the registry, each where it belongs. -/
structure RegistryImage (data : Bytes) (r : PasskeyRegistry) : Prop where
  owner : At data 8 r.owner.bytes
  nonce : At data 40 (leBytes 8 r.nonce.toNat)
  count : At data 48 (leBytes 4 r.keys.length)
  keys : At data 52 (r.keys.flatMap PasskeyEntry.bytes)
  count_lt : r.keys.length < 256 ^ 4
  prefixable : ∀ e ∈ r.keys, e.Prefixable

/-- An account that deserialises has the image of its registry. -/
theorem registryImage_of_read {data : Bytes} {r : PasskeyRegistry}
    (h : PasskeyRegistry.layout.tryDeserialize data = .ok r) : RegistryImage data r := by
  obtain ⟨body, rest, hbody, rfl⟩ := AccountLayout.image_of_tryDeserialize h
  obtain ⟨keys, hkeys, rfl⟩ := registry_image hbody
  obtain ⟨hcount, entries, hentries, rfl⟩ := Codec.vec_write_eq_some hkeys
  obtain ⟨hprefixable, rfl⟩ := Codec.writeMany_eq_some write_entry hentries
  have hat := at_prefix (PasskeyRegistry.layout.discriminator ++ (r.owner.bytes ++
    (leBytes 8 r.nonce.toNat ++ (leBytes 4 r.keys.length ++
      r.keys.flatMap PasskeyEntry.bytes)))) rest
  rw [List.append_assoc] at hat
  simp only [at_append, PasskeyRegistry.layout.length_discriminator, r.owner.length_eq,
    length_leBytes, Nat.zero_add, Nat.reduceAdd] at hat
  obtain ⟨-, howner, hnonce, hlen, hentries⟩ := hat
  exact ⟨howner, hnonce, hlen, hentries, hcount, hprefixable⟩

end Trana.Guard
