import Trana.Guard.Image

/-!
# Landing app: the registry decoders

`apps/landing/lib/vault.ts`: the nonce, all passkeys and the first passkey of a
wallet, read off its registry account by offsets. The network is the function
that answers `getAccountInfo`, the PDA derivation a parameter, and an account's
data is a window into a buffer, as a `Buffer` is: the decoders build `DataView`s
over the buffer itself and slice the window.

The nonce is a `bigint` there and a natural number here. A `u32` is a JS number,
and so are the offsets; they stay far below 2^53 and are natural numbers too.
Reading past the end throws a `RangeError`, slicing past it gives less.

* `fetchRegistryNonce`, `fetchAllPasskeys`, `fetchFirstPasskey` — the three
  decoders. None of them looks at the owner or the discriminator of the account,
  and only the last two check a length (53 bytes).
* `readPasskey_at`, `readPasskeys_at` — an entry and a list of entries are read
  where they stand, and what follows is where they end.

What they read from the accounts the guard writes is in
`Trana.Security.LandingDecoders`.
-/

namespace Trana.Landing

open Trana.Lib Trana.Solana Trana.Guard

/-- What the page keeps of an entry. -/
structure StoredPasskey where
  credentialId : Bytes
  pubkeyBytes : Bytes
  deriving DecidableEq

/-- `new DataView(d.buffer, d.byteOffset + off, 4).getUint32(0, true)` -/
def u32At (d : Window) (off : Nat) : Throws Nat := do
  let view ← dataView d.buffer (d.byteOffset + off) 4
  getUint32 view 0

/-- One `PasskeyEntry` from `off` on, and the offset behind it. -/
def readPasskey (d : Window) (off : Nat) : Throws (StoredPasskey × Nat) := do
  let off := off + 1 -- KeyKind byte
  let pkLen ← u32At d off
  let off := off + 4
  let pubkeyBytes := sliceBytes d.bytes off (off + pkLen)
  let off := off + pkLen
  let cidLen ← u32At d off
  let off := off + 4
  let credentialId := sliceBytes d.bytes off (off + cidLen)
  pure (⟨credentialId, pubkeyBytes⟩, off + cidLen)

/-- `for (let i = 0; i < vecLen; i++)` -/
def readPasskeys (d : Window) : Nat → Nat → Throws (List StoredPasskey)
  | 0, _ => pure []
  | n + 1, off => do
    let (entry, off) ← readPasskey d off
    let entries ← readPasskeys d n off
    pure (entry :: entries)

section Fetch

variable (getAccountInfo : Pubkey → Option Window) (findRegistry : Pubkey → Pubkey)
  (owner : Pubkey)

/-- The `u64` at offset 40; zero when there is no account. -/
def fetchRegistryNonce : Throws Nat :=
  match getAccountInfo (findRegistry owner) with
  | none => pure 0
  | some info => do
    let view ← dataView info.buffer (info.byteOffset + 40) 8
    getBigUint64 view 0

/-- Parse all entries of the on-chain registry. -/
def fetchAllPasskeys : Throws (List StoredPasskey) :=
  match getAccountInfo (findRegistry owner) with
  | none => pure []
  | some d =>
    if d.length < 53 then pure []
    else do
      let off := 8 + 32 + 8 -- disc + owner + nonce
      let vecLen ← u32At d off
      readPasskeys d vecLen (off + 4)

/-- Parse the first entry of the on-chain registry. -/
def fetchFirstPasskey : Throws (Option StoredPasskey) :=
  match getAccountInfo (findRegistry owner) with
  | none => pure none
  | some d =>
    if d.length < 53 then pure none
    else do
      let off := 8 + 32 + 8 + 4 -- disc + owner + nonce + vec_len
      let (entry, _) ← readPasskey d off
      pure (some entry)

end Fetch

/-! ## What is read -/

/-- What the decoders keep of an entry. -/
def stored (e : PasskeyEntry) : StoredPasskey := ⟨e.credentialId, e.pubkeyBytes⟩

variable {d : Window} {off n : Nat}

/-- The view starts where the window does. -/
theorem u32At_eq : u32At d off = getUint 4 d.buffer (d.byteOffset + off) := dataView_getUint

/-- It reads the `u32` that stands there. -/
theorem u32At_at (h : At d.bytes off (leBytes 4 n)) (hn : n < 256 ^ 4) : u32At d off = .ok n := by
  rw [u32At_eq]
  exact getUint_at (Window.at_buffer h (by simp)) (by decide) hn

/-- An entry is read where it stands. -/
theorem readPasskey_at {e : PasskeyEntry} (h : At d.bytes off e.bytes) (hlen : e.Prefixable) :
    readPasskey d off = .ok (stored e, off + e.bytes.length) := by
  obtain ⟨hkeylt, hidlt⟩ := hlen
  have hlength : e.bytes.length = 1 + (4 + e.pubkeyBytes.length + (4 + e.credentialId.length)) := by
    simp only [PasskeyEntry.bytes, List.length_append, List.length_singleton, length_lenPrefixed]
  -- the kind is skipped, then come the key and the credential id behind their lengths
  simp only [PasskeyEntry.bytes, lenPrefixed, at_append, List.length_singleton, length_leBytes,
    List.length_append] at h
  obtain ⟨-, ⟨hpkLen, hkey⟩, hcidLen, hid⟩ := h
  have hoff : off + 1 + (4 + e.pubkeyBytes.length) = off + 1 + 4 + e.pubkeyBytes.length := by
    omega
  rw [hoff] at hcidLen hid
  unfold readPasskey
  dsimp only
  rw [u32At_at hpkLen hkeylt]
  show (u32At d (off + 1 + 4 + e.pubkeyBytes.length) >>= _) = _
  rw [u32At_at hcidLen hidlt]
  show Except.ok (_, _) = _
  rw [sliceBytes_at hkey, sliceBytes_at hid, hlength]
  congr 2
  omega

/-- As many entries as there are, one after the other. -/
theorem readPasskeys_at {keys : List PasskeyEntry}
    (h : At d.bytes off (keys.flatMap PasskeyEntry.bytes)) (hlen : ∀ e ∈ keys, e.Prefixable) :
    readPasskeys d keys.length off = .ok (keys.map stored) := by
  induction keys generalizing off with
  | nil => rfl
  | cons e keys ih =>
    rw [List.flatMap_cons, at_append] at h
    obtain ⟨hhead, htail⟩ := h
    obtain ⟨he, hkeys⟩ := List.forall_mem_cons.mp hlen
    rw [List.length_cons, readPasskeys, readPasskey_at hhead he]
    show (readPasskeys d keys.length _ >>= _) = _
    rw [ih htail hkeys]
    rfl

end Trana.Landing
