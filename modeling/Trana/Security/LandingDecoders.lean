import Trana.Landing.Registry
import Trana.Security.RegistryFits
import Trana.Security.RegistrySize

/-!
# The landing app's decoders

An account keeps the size and, behind a shorter key list, the entries it had.
Two of the three decoders go by the count and do not see them; the one for the
first passkey skips the count, and on an empty list reads whatever is left.

* `first_of_stale` — after the last key is gone it is still the first passkey.
* `landing_decoders` — the nonce and the list are right in every reachable
  state, the first passkey when there is one.
* `removed_passkey_first` — a removed passkey, read as the first one.

The cluster is asked for the account's data, and answers with the bytes of the
ledger; one answer is enough for each decoder. The decoders read with `DataView`
at fixed offsets, where a read past the end throws, and with `slice`, which stops
at the end; the model has both. The nonce is a bigint, the lengths are numbers.

An empty list is reachable, though the program means to keep one key: a removal
takes away every entry with its credential id. A registry account of that kind
goes on existing, and the app goes on offering its passkey.
-/

namespace Trana.Security

open Trana.Lib Trana.Lib.Exec Trana.Solana Trana.Guard Trana.Landing

variable {d : Guard.Deployment} {l l' : Ledger} {w : Pubkey} {r : PasskeyRegistry} {b : Window}
  {getAccountInfo : Pubkey → Option Window} {findRegistry : Pubkey → Pubkey}

/-- The three decoders give the registry's nonce, its keys in order, and the
first of them. -/
structure DecodesRegistry (getAccountInfo : Pubkey → Option Window)
    (findRegistry : Pubkey → Pubkey) (w : Pubkey) (r : PasskeyRegistry) : Prop where
  nonce : fetchRegistryNonce getAccountInfo findRegistry w = .ok r.nonce.toNat
  all : fetchAllPasskeys getAccountInfo findRegistry w = .ok (r.keys.map stored)
  first : fetchFirstPasskey getAccountInfo findRegistry w = .ok (r.keys.head?.map stored)

section Decoders

variable (hinfo : getAccountInfo (findRegistry w) = some b)
include hinfo

theorem fetchRegistryNonce_eq (himage : RegistryImage b.bytes r) :
    fetchRegistryNonce getAccountInfo findRegistry w = .ok r.nonce.toNat := by
  unfold fetchRegistryNonce
  rw [hinfo]
  show (dataView b.buffer (b.byteOffset + 40) 8 >>= fun view => getUint 8 view 0) = _
  rw [dataView_getUint]
  exact getUint_at (Window.at_buffer himage.nonce (by simp)) (by decide) r.nonce.toNat_lt

theorem fetchAllPasskeys_eq (himage : RegistryImage b.bytes r) (hlen : 53 ≤ b.length) :
    fetchAllPasskeys getAccountInfo findRegistry w = .ok (r.keys.map stored) := by
  unfold fetchAllPasskeys
  rw [hinfo]
  dsimp only
  rw [if_neg (Nat.not_lt.mpr hlen), u32At_at himage.count himage.count_lt]
  exact readPasskeys_at himage.keys himage.prefixable

/-- It reads the entry at offset 52, whatever the count. -/
theorem fetchFirstPasskey_at {e : PasskeyEntry} (hlen : 53 ≤ b.length)
    (hentry : At b.bytes 52 e.bytes) (he : e.Prefixable) :
    fetchFirstPasskey getAccountInfo findRegistry w = .ok (some (stored e)) := by
  unfold fetchFirstPasskey
  rw [hinfo]
  dsimp only
  rw [if_neg (Nat.not_lt.mpr hlen), readPasskey_at hentry he]
  rfl

/-- There is always a first passkey, or an exception. -/
theorem fetchFirstPasskey_ne_null (hlen : 53 ≤ b.length) :
    fetchFirstPasskey getAccountInfo findRegistry w ≠ .ok none := by
  unfold fetchFirstPasskey
  rw [hinfo]
  dsimp only
  rw [if_neg (Nat.not_lt.mpr hlen)]
  cases readPasskey b (8 + 32 + 8 + 4) with
  | error e => exact fun h => nomatch h
  | ok p => exact fun h => nomatch h

theorem decodes_iff (himage : RegistryImage b.bytes r) (hlen : 53 ≤ b.length) :
    DecodesRegistry getAccountInfo findRegistry w r ↔ r.keys ≠ [] := by
  constructor
  · intro h hnil
    have hfirst := h.first
    rw [hnil] at hfirst
    exact fetchFirstPasskey_ne_null hinfo hlen hfirst
  · intro hne
    obtain ⟨e, rest, hkeys⟩ := List.exists_cons_of_ne_nil hne
    refine ⟨fetchRegistryNonce_eq hinfo himage, fetchAllPasskeys_eq hinfo himage hlen, ?_⟩
    -- the first entry starts where the decoder looks, right behind the count
    have hentries := himage.keys
    rw [hkeys, List.flatMap_cons, at_append] at hentries
    have he : e ∈ r.keys := hkeys ▸ List.mem_cons_self ..
    rw [hkeys]
    exact fetchFirstPasskey_at hinfo hlen hentries.1 (himage.prefixable e he)

end Decoders

/-- Removing the last key leaves its entry where it was. -/
theorem first_of_stale {e : PasskeyEntry} {rest : List PasskeyEntry}
    {data data' : Bytes} {r' : PasskeyRegistry}
    (hread : PasskeyRegistry.layout.tryDeserialize data = .ok r) (hkeys : r.keys = e :: rest)
    (hnil : r'.keys = []) (hwrite : PasskeyRegistry.layout.trySerialize r' data = some data') :
    At data' 52 e.bytes ∧ e.Prefixable := by
  have himage := registryImage_of_read hread
  have hentries := himage.keys
  rw [hkeys, List.flatMap_cons, at_append] at hentries
  refine ⟨?_, himage.prefixable e (hkeys ▸ List.mem_cons_self ..)⟩
  obtain ⟨body, hbody, -, rfl⟩ := AccountLayout.trySerialize_eq_some hwrite
  obtain ⟨keys, hwritten, rfl⟩ := registry_image hbody
  rw [hnil] at hwritten
  obtain rfl := Option.some.inj hwritten
  -- the new image is 52 bytes long, and the old first entry starts at 52
  have hfront : (PasskeyRegistry.layout.discriminator ++
      (r'.owner.bytes ++ (leBytes 8 r'.nonce.toNat ++ (leBytes 4 0 ++ [])))).length = 52 := by
    simp only [List.length_append, PasskeyRegistry.layout.length_discriminator,
      r'.owner.length_eq, length_leBytes, List.length_nil]
  unfold At at hentries ⊢
  rw [show List.length ([] : List PasskeyEntry) = 0 from rfl, hfront, List.drop_left' hfront]
  exact hentries.1

/-- In every reachable state the landing app reads a wallet's nonce and keys off
its account, with whatever is left behind them; and its first passkey exactly
when it has one. -/
theorem landing_decoders (h : Reachable d l) (hr : registryOf d l w = some r)
    (hinfo : getAccountInfo (d.findRegistry w) = some b)
    (hbytes : b.bytes = (l (d.findRegistry w)).data) :
    fetchRegistryNonce getAccountInfo d.findRegistry w = .ok r.nonce.toNat ∧
      fetchAllPasskeys getAccountInfo d.findRegistry w = .ok (r.keys.map stored) ∧
      (DecodesRegistry getAccountInfo d.findRegistry w r ↔ r.keys ≠ []) := by
  have himage : RegistryImage b.bytes r := by
    rw [hbytes]
    exact registryImage_of_read (registryAt_eq_some.mp hr).2
  have hlen : b.length = PasskeyRegistry.layout.space := by
    rw [← Window.length_bytes, hbytes]
    exact (fitting_of_reachable h _ r hr).size
  have hspace : 53 ≤ PasskeyRegistry.layout.space := by decide
  exact ⟨fetchRegistryNonce_eq hinfo himage, fetchAllPasskeys_eq hinfo himage (hlen ▸ hspace),
    decodes_iff hinfo himage (hlen ▸ hspace)⟩

/-! ### A removed passkey -/

section Localnet

open Sdk.Localnet

/-- A cluster that answers with whole buffers. -/
def answering (l : Ledger) (key : Pubkey) : Option Window := some (.whole (l key).data)

theorem landing_decoders_registered :
    fetchRegistryNonce (answering registered) deployment.findRegistry wallet = .ok 0 ∧
      fetchAllPasskeys (answering registered) deployment.findRegistry wallet =
        .ok [⟨[1], passkey⟩] ∧
      (DecodesRegistry (answering registered) deployment.findRegistry wallet (registry 0) ↔
        (registry 0).keys ≠ []) :=
  landing_decoders reachable_registered holds_registered.found rfl (Window.bytes_whole _)

/-- A wallet's two passkeys share a credential id. One removal takes both away,
and the landing app reads the first of them as the wallet's passkey. -/
theorem removed_passkey_first : ∃ l, Reachable deployment l ∧
    registryOf deployment l wallet = some ⟨wallet, 2, []⟩ ∧
    fetchFirstPasskey (answering l) deployment.findRegistry wallet = .ok (some (stored entry)) ∧
    ¬DecodesRegistry (answering l) deployment.findRegistry wallet ⟨wallet, 2, []⟩ := by
  obtain ⟨l₁, l₂, hcalls, hh₁, hh₂⟩ :=
    addAndRemove_run (a := twinApproval) rfl ⟨by decide, by decide⟩ addTwin_is
  obtain ⟨t₁, t₂, -, hrun⟩ := run_registered hcalls
  have hreach : Reachable deployment l₂ := ⟨genesis, _, genesis_genesis, hrun⟩
  have hempty : registryOf deployment l₂ wallet = some ⟨wallet, 2, []⟩ := hh₂.found
  obtain ⟨-, hstep, -⟩ := (show Run (Step deployment) registered
    ([⟨registered, .executed (provenCall twinApproval (addIx twinEntry) 0), l₁⟩] ++
      ⟨l₁, .executed (provenCall removeApproval removeFirstIx 1), l₂⟩ :: []) l₂ from hcalls).split
  obtain ⟨ix, hix, heffect⟩ := executed_effect hstep
  obtain rfl := removeFirst_is.unique hix
  cases heffect with
  | removePasskey w r names found several verified shorter stores =>
    have howner : (provenCall removeApproval removeFirstIx 1).owner? = some wallet := rfl
    obtain rfl := Option.some.inj (names.second.symm.trans howner)
    obtain rfl := Option.some.inj (found.symm.trans hh₁.found)
    obtain ⟨hguard, hread⟩ := registryAt_eq_some.mp found
    have himage := stores.image
    rw [baseData, if_pos hguard] at himage
    -- the removal writes the front of the account and stops before the entries
    obtain ⟨hstale, hentry⟩ := first_of_stale hread rfl rfl himage
    have hlen : 53 ≤ (Window.whole (l₂ (deployment.findRegistry wallet)).data).length := by
      show 53 ≤ (l₂ (deployment.findRegistry wallet)).data.length
      rw [hh₂.size]
      decide
    have hfirst : fetchFirstPasskey (answering l₂) deployment.findRegistry wallet =
        .ok (some (stored entry)) :=
      fetchFirstPasskey_at rfl hlen ((Window.bytes_whole _).symm ▸ hstale) hentry
    refine ⟨l₂, hreach, hempty, hfirst, fun hdecodes => ?_⟩
    exact absurd (hfirst.symm.trans hdecodes.first) (by decide)

end Localnet

end Trana.Security
