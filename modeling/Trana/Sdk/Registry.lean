import Trana.Lib.DataView
import Trana.Solana.Types

/-!
# SDK: the registry decoder

`react/registry.ts`: what `useTrana` knows of a wallet's registry account, the
nonce and the key it signs with among it. The decoder follows the layout of the
comment above it, one key with an enabled flag and the nonce behind it, which is
an older one than `state.rs` writes.

* `parseRegistryAccount` — the decoder, offset by offset. Reading past the end
  throws; slicing past it gives less.
* `OldImage` — the account reads as a state in that layout.
* `parseRegistryAccount_eq_ok` — what is parsed is what stands in the account in
  the order the decoder expects.
* `fetchRegistry` — nothing for an account that is missing or too short.

What this makes of the accounts the guard writes is in
`Trana.Security.OldLayout`. Offsets are JS numbers and natural numbers here.
-/

namespace Trana.Sdk

open Trana.Lib Trana.Solana

/-- What the app keeps of a registry. -/
structure RegistryState where
  owner : Bytes
  pubkey : Bytes
  credentialId : Bytes
  enabled : Bool
  nonce : Nat
  deriving DecidableEq

/-- Parse a raw registry account, in the layout the comment above the source
gives: owner, kind, key, credential id, an enabled flag and the nonce. -/
def parseRegistryAccount (data : Bytes) : Throws RegistryState := do
  let offset := 8 -- skip 8-byte Anchor discriminator
  let owner := sliceBytes data offset (offset + 32)
  let offset := offset + 32
  let offset := offset + 1 -- key_kind
  let pkLen ← getUint32 data offset
  let offset := offset + 4
  let pubkey := sliceBytes data offset (offset + pkLen)
  let offset := offset + pkLen
  let credLen ← getUint32 data offset
  let offset := offset + 4
  let credentialId := sliceBytes data offset (offset + credLen)
  let offset := offset + credLen
  -- a missing byte is `undefined`, which is not 1
  let enabled := data[offset]? == some 1
  let offset := offset + 1
  let nonce ← getBigUint64 data offset
  pure { owner, pubkey, credentialId, enabled, nonce }

/-- The account reads as `s` in the decoder's layout. -/
structure OldImage (data : Bytes) (s : RegistryState) : Prop where
  owner : s.owner = sliceBytes data 8 40
  entry : At data 41 (lenPrefixed 4 s.pubkey ++ lenPrefixed 4 s.credentialId)
  enabled : s.enabled = (data[49 + s.pubkey.length + s.credentialId.length]? == some 1)
  nonce : At data (50 + s.pubkey.length + s.credentialId.length) (leBytes 8 s.nonce)
  pubkey_lt : s.pubkey.length < 256 ^ 4
  credentialId_lt : s.credentialId.length < 256 ^ 4
  nonce_lt : s.nonce < 256 ^ 8

/-- A length and that many bytes behind it. -/
theorem at_lenPrefixed {data : Bytes} {off n : Nat} (hlen : At data off (leBytes 4 n))
    (hle : off + 4 + n ≤ data.length) :
    At data off (lenPrefixed 4 (sliceBytes data (off + 4) (off + 4 + n))) ∧
      (sliceBytes data (off + 4) (off + 4 + n)).length = n := by
  obtain ⟨hat, hlength⟩ := at_sliceBytes hle
  refine ⟨at_append.mpr ⟨?_, ?_⟩, hlength⟩
  · rwa [hlength]
  · rwa [length_leBytes]

/-- The decoder succeeds exactly on accounts that read that way. -/
theorem parseRegistryAccount_eq_ok {data : Bytes} {s : RegistryState} :
    parseRegistryAccount data = .ok s ↔ OldImage data s := by
  unfold parseRegistryAccount
  simp only [bind_eq_ok, Nat.reduceAdd]
  constructor
  · rintro ⟨pkLen, hpkLen, credLen, hcredLen, nonce, hnonce, heq⟩
    obtain rfl := Except.ok.inj heq
    obtain ⟨hpk, hpklt⟩ := at_of_getUint hpkLen
    obtain ⟨hcred, hcredlt⟩ := at_of_getUint hcredLen
    obtain ⟨hat, hlt⟩ := at_of_getUint hnonce
    have hend := hat.le_length (by simp)
    rw [length_leBytes] at hend
    obtain ⟨hkey, hkeylen⟩ := at_lenPrefixed hpk (by omega)
    obtain ⟨hid, hidlen⟩ := at_lenPrefixed hcred (by omega)
    simp only [Nat.reduceAdd] at hkey hkeylen
    have hbehind : 41 + (lenPrefixed 4 (sliceBytes data 45 (45 + pkLen))).length = 45 + pkLen := by
      rw [length_lenPrefixed, hkeylen]
      omega
    have hflag : 45 + pkLen + 4 + credLen = 49 + pkLen + credLen := by omega
    have hoff : 45 + pkLen + 4 + credLen + 1 = 50 + pkLen + credLen := by omega
    rw [hoff] at hat
    refine ⟨rfl, at_append.mpr ⟨hkey, ?_⟩, ?_, ?_, ?_, ?_, hlt⟩
    · rwa [hbehind]
    · rw [hkeylen, hidlen, hflag]
    · rwa [hkeylen, hidlen]
    · rwa [hkeylen]
    · rwa [hidlen]
  · intro h
    obtain ⟨hkey, hid⟩ := at_append.mp h.entry
    obtain ⟨hpkLen, hpk⟩ := at_append.mp hkey
    obtain ⟨hcredLen, hcred⟩ := at_append.mp hid
    have hbehind : 41 + (lenPrefixed 4 s.pubkey).length = 45 + s.pubkey.length := by
      rw [length_lenPrefixed]
      omega
    rw [hbehind] at hcredLen hcred
    rw [length_leBytes] at hpk hcred
    have hflag : 45 + s.pubkey.length + 4 + s.credentialId.length =
        49 + s.pubkey.length + s.credentialId.length := by omega
    have hoff : 45 + s.pubkey.length + 4 + s.credentialId.length + 1 =
        50 + s.pubkey.length + s.credentialId.length := by omega
    refine ⟨_, getUint_at hpkLen (by decide) h.pubkey_lt, _,
      getUint_at hcredLen (by decide) h.credentialId_lt, s.nonce, ?_, ?_⟩
    · rw [hoff]
      exact getUint_at h.nonce (by decide) h.nonce_lt
    · rw [sliceBytes_at hcred, hflag, ← h.enabled, ← h.owner]
      rw [show 45 = 41 + 4 from rfl, sliceBytes_at hpk]
      rfl

/-- Fetch and parse the registry of a wallet; `none` when it is not registered. -/
def fetchRegistry (getAccountInfo : Pubkey → Option Window) (findRegistryPda : Pubkey → Pubkey)
    (walletPubkey : Pubkey) : Throws (Option RegistryState) :=
  match getAccountInfo (findRegistryPda walletPubkey) with
  | none => pure none
  | some info =>
    if info.length < 46 then pure none
    else some <$> parseRegistryAccount info.bytes

end Trana.Sdk
