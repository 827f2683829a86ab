import Trana.Sdk.Registry
import Trana.Guard.Image
import Trana.Security.RegistryFits

/-!
# An old layout

The SDK's decoder expects one key, its credential id, a flag and the nonce where
the program stores the nonce, a count and a list of keys. If it finds the first
key of a registry all the same, that key stands in the account twice, at 41
where the decoder looks and at 53, so the bytes repeat with period twelve. Both
lengths are small and have three zeros behind them, which leaves few places for
them modulo twelve; and one registry in the end.

* `zeros_behind` — where three zeros in a row can be.
* `same_twice` — the bytes of an account that reads alike both ways.
* `old_layout` — the decoder is right about that one registry only.
* `registered_not_decoded` — it throws on a fresh registration.

Right means the first entry's key and credential id, and the nonce, as the
program stores them. The bytes behind the list are whatever earlier keys left,
and the decoder may read there; the result holds for all of them, since it is
about the account's bytes as a whole and not about one serialisation.

The one registry, `Coincides`, has nine keys, the first of nine bytes that
spell the lengths themselves, and a nonce that takes more than 2^51 approvals to
reach. No check of the program rules it out, which is why it is named here.
-/

namespace Trana.Security

open Trana.Lib Trana.Lib.Exec Trana.Solana Trana.Guard Trana.Sdk

/-! ## Period twelve -/

section Period

variable {b : Nat → Nat} {n p c m : Nat}

theorem eq_mod_twelve (h : ∀ i < n, b (i + 12) = b i) : ∀ i < n + 12, b i = b (i % 12) := by
  intro i
  induction i using Nat.strongRecOn with
  | ind i ih =>
    intro hi
    rcases Nat.lt_or_ge i 12 with hlt | hge
    · rw [Nat.mod_eq_of_lt hlt]
    · have hstep := h (i - 12) (by omega)
      rw [Nat.sub_add_cancel hge] at hstep
      rw [hstep, ih (i - 12) (by omega) (by omega), Nat.mod_eq_sub_mod hge]

/-- The twelve bytes from 41 on: the low length byte, three zeros, three bytes
of the nonce, the count, three zeros and the kind. -/
structure Pattern (b : Nat → Nat) (p c : Nat) : Prop where
  length : b 0 = p
  length_zeros : b 1 = 0 ∧ b 2 = 0 ∧ b 3 = 0
  count : b 7 = c
  count_zeros : b 8 = 0 ∧ b 9 = 0 ∧ b 10 = 0

/-- Three zeros come behind the length, the count, or among other zeros. -/
theorem zeros_behind {y : Nat} (hb : Pattern b p c) (hp : 0 < p) (hc : 0 < c) (hy : y < 12)
    (h₁ : b ((y + 1) % 12) = 0) (h₂ : b ((y + 2) % 12) = 0) (h₃ : b ((y + 3) % 12) = 0) :
    (y = 0 ∧ b y = p) ∨ (y = 7 ∧ b y = c) ∨ ((y = 1 ∨ y = 2 ∨ y = 3 ∨ y = 8) ∧ b y = 0) := by
  obtain ⟨hlength, ⟨hz₁, hz₂, hz₃⟩, hcount, hz₈, hz₉, hz₁₀⟩ := hb
  interval_cases y <;> simp only [Nat.reduceAdd, Nat.reduceMod] at h₁ h₂ h₃ <;> omega

/-- The account reads alike both ways: then the lengths, the count and the bytes
of the nonce are these. -/
theorem same_twice (hb : Pattern b p c) (hc : 0 < c) (hten : c ≤ 10)
    (hperiod : ∀ i < 8 + p + m, b (i + 12) = b i) (hm : b (4 + p) = m)
    (hmzeros : b (5 + p) = 0 ∧ b (6 + p) = 0 ∧ b (7 + p) = 0)
    (hnonce : ∀ j < 7, b (10 + p + m + j) = b j) :
    p = 9 ∧ c = 9 ∧ m = 0 ∧ b 4 = 0 ∧ b 5 = 9 ∧ b 6 = 0 ∧ b 11 = 0 := by
  obtain ⟨hm₁, hm₂, hm₃⟩ := hmzeros
  have hp : 0 < p := by
    rcases Nat.eq_zero_or_pos p with rfl | hpos
    · exact absurd (hb.count.symm.trans hm₃) (by omega)
    · exact hpos
  have hmod := eq_mod_twelve hperiod
  have hshift : ∀ i k, b ((i + k) % 12) = b ((i % 12 + k) % 12) := fun i k => by
    rw [Nat.mod_add_mod]
  -- behind the length of the credential id
  have hid := zeros_behind (y := (4 + p) % 12) hb hp hc (Nat.mod_lt _ (by decide))
    (by rw [← hshift, ← hmod _ (by omega), ← hm₁]; congr 1; omega)
    (by rw [← hshift, ← hmod _ (by omega), ← hm₂]; congr 1; omega)
    (by rw [← hshift, ← hmod _ (by omega), ← hm₃]; congr 1; omega)
  rw [← hmod _ (by omega), hm] at hid
  -- behind the second byte of the nonce, which is the length of the key
  obtain ⟨hz₁, hz₂, hz₃⟩ := hb.length_zeros
  have hsecond := zeros_behind (y := (10 + p + m) % 12) hb hp hc (Nat.mod_lt _ (by decide))
    (by rw [← hshift, ← hmod _ (by omega), hnonce 1 (by omega), hz₁])
    (by rw [← hshift, ← hmod _ (by omega), hnonce 2 (by omega), hz₂])
    (by rw [← hshift, ← hmod _ (by omega), hnonce 3 (by omega), hz₃])
  have hfirst := hnonce 0 (by omega)
  rw [Nat.add_zero, hb.length] at hfirst
  rw [← hmod _ (by omega), hfirst] at hsecond
  have hvalues : p = 9 ∧ c = 9 ∧ m = 0 := by omega
  obtain ⟨rfl, rfl, rfl⟩ := hvalues
  have hfour : b 16 = b 4 := hmod 16 (by omega)
  have hmzero : b 16 = 0 := hm₃
  have heleven : b 23 = b 11 := hmod 23 (by omega)
  have hzero : b 24 = b 0 := hmod 24 (by omega)
  have hone : b 25 = b 1 := hmod 25 (by omega)
  have hnonce₄ : b 23 = b 4 := hnonce 4 (by omega)
  have hnonce₅ : b 24 = b 5 := hnonce 5 (by omega)
  have hnonce₆ : b 25 = b 6 := hnonce 6 (by omega)
  have hlength := hb.length
  refine ⟨rfl, rfl, rfl, ?_, ?_, ?_, ?_⟩
  all_goals omega

end Period

/-! ## The decoder and the account -/

/-- The decoder gives the registry's owner and nonce, and the key and credential
id of its first entry. -/
def DecodesFirst (data : Bytes) (r : PasskeyRegistry) : Prop :=
  ∃ s e, parseRegistryAccount data = .ok s ∧ r.keys.head? = some e ∧
    s.owner = r.owner.bytes ∧ s.nonce = r.nonce.toNat ∧ s.pubkey = e.pubkeyBytes ∧
    s.credentialId = e.credentialId

/-- The first key of a registry that reads alike both ways. -/
def coincidingEntry : PasskeyEntry := ⟨.secp256r1Passkey, [0, 9, 0, 9, 0, 0, 0, 0, 9], []⟩

/-- Nine keys, that one in front, and a nonce of 9 · 256 + 9 · 256⁶. -/
structure Coincides (r : PasskeyRegistry) : Prop where
  nonce : r.nonce.toNat = 9 * 256 + 9 * 256 ^ 6
  count : r.keys.length = 9
  first : r.keys.head? = some coincidingEntry

/-- What stands in front of the first key's length. -/
theorem image_head {data : Bytes} {r : PasskeyRegistry} {e : PasskeyEntry}
    (himage : RegistryImage data r) (hhead : r.keys.head? = some e) :
    At data 52 [e.keyKind.tag] ∧
      At data 53 (lenPrefixed 4 e.pubkeyBytes ++ lenPrefixed 4 e.credentialId) := by
  obtain ⟨rest, hkeys⟩ := List.head?_eq_some_iff.mp hhead
  have hentries := himage.keys
  rw [hkeys, List.flatMap_cons, at_append, PasskeyEntry.bytes, at_append] at hentries
  exact hentries.1

theorem leBytes_coinciding : leBytes 8 (9 * 256 + 9 * 256 ^ 6) = [0, 9, 0, 0, 0, 0, 9, 0] := by
  decide

/-- In that registry the decoder finds everything. -/
theorem decodes_of_coincides {data : Bytes} {r : PasskeyRegistry} (himage : RegistryImage data r)
    (h : Coincides r) : DecodesFirst data r := by
  obtain ⟨hkind, hentry⟩ := image_head himage h.first
  have hnonce := himage.nonce
  have hcount := himage.count
  rw [h.nonce, leBytes_coinciding] at hnonce
  rw [h.count] at hcount
  have hall : At data 40 ([0, 9, 0, 0, 0, 0, 9, 0] ++ (leBytes 4 9 ++
      ([coincidingEntry.keyKind.tag] ++ (lenPrefixed 4 coincidingEntry.pubkeyBytes ++
        lenPrefixed 4 coincidingEntry.credentialId)))) :=
    at_append.mpr ⟨hnonce, at_append.mpr ⟨hcount, at_append.mpr ⟨hkind, hentry⟩⟩⟩
  -- the same bytes, cut where the decoder cuts them
  have hcut : [0, 9, 0, 0, 0, 0, 9, 0] ++ (leBytes 4 9 ++
      ([coincidingEntry.keyKind.tag] ++ (lenPrefixed 4 coincidingEntry.pubkeyBytes ++
        lenPrefixed 4 coincidingEntry.credentialId))) =
      [0] ++ ((lenPrefixed 4 coincidingEntry.pubkeyBytes ++
        lenPrefixed 4 coincidingEntry.credentialId) ++
          ([9] ++ (leBytes 8 (9 * 256 + 9 * 256 ^ 6) ++ [0, 0, 0]))) := by
    decide
  rw [hcut] at hall
  obtain ⟨-, hrest⟩ := at_append.mp hall
  obtain ⟨hold, hrest⟩ := at_append.mp hrest
  obtain ⟨-, hrest⟩ := at_append.mp hrest
  obtain ⟨hread, -⟩ := at_append.mp hrest
  have howner := sliceBytes_at himage.owner
  rw [r.owner.length_eq] at howner
  refine ⟨⟨r.owner.bytes, coincidingEntry.pubkeyBytes, coincidingEntry.credentialId,
    data[58]? == some 1, r.nonce.toNat⟩, coincidingEntry, ?_, h.first, rfl, rfl, rfl, rfl⟩
  refine parseRegistryAccount_eq_ok.mpr ⟨howner.symm, hold, rfl, ?_,
    (show coincidingEntry.pubkeyBytes.length < 256 ^ 4 by decide),
    (show coincidingEntry.credentialId.length < 256 ^ 4 by decide), r.nonce.toNat_lt⟩
  show At data 59 (leBytes 8 r.nonce.toNat)
  rw [h.nonce]
  exact hread

section SameTwice

variable {data : Bytes} {e : PasskeyEntry} {count nonce : Nat}

/-- The first entry where the decoder expects it and where it is, and the nonce likewise. -/
structure SameTwice (data : Bytes) (e : PasskeyEntry) (count nonce : Nat) : Prop where
  key_le : e.pubkeyBytes.length ≤ 33
  id_le : e.credentialId.length ≤ 128
  count_pos : 0 < count
  count_le : count ≤ 10
  nonce_lt : nonce < 256 ^ 8
  nonceAt : At data 40 (leBytes 8 nonce)
  read : At data 41 (lenPrefixed 4 e.pubkeyBytes ++ lenPrefixed 4 e.credentialId)
  countAt : At data 48 (leBytes 4 count)
  kind : At data 52 [e.keyKind.tag]
  stored : At data 53 (lenPrefixed 4 e.pubkeyBytes ++ lenPrefixed 4 e.credentialId)
  nonceRead : At data (50 + e.pubkeyBytes.length + e.credentialId.length) (leBytes 8 nonce)

theorem SameTwice.periodic (h : SameTwice data e count nonce) :
    ∀ i < 8 + e.pubkeyBytes.length + e.credentialId.length,
      byteAt data (41 + (i + 12)) = byteAt data (41 + i) := by
  intro i hi
  have hlen : i < (lenPrefixed 4 e.pubkeyBytes ++ lenPrefixed 4 e.credentialId).length := by
    rw [List.length_append, length_lenPrefixed, length_lenPrefixed]
    omega
  rw [h.read.byteAt hlen, ← h.stored.byteAt hlen]
  congr 1
  omega

theorem SameTwice.nonce_twice (h : SameTwice data e count nonce) {j : Nat} (hj : j < 8) :
    byteAt data (50 + e.pubkeyBytes.length + e.credentialId.length + j) =
      byteAt data (40 + j) := by
  have hlen : j < (leBytes 8 nonce).length := by rwa [length_leBytes]
  rw [h.nonceRead.byteAt hlen, h.nonceAt.byteAt hlen]

/-- A small number in front of something, byte by byte. -/
theorem small_at {off n : Nat} (h : At data off (leBytes 4 n)) (hn : n < 256) :
    byteAt data off = n ∧ byteAt data (off + 1) = 0 ∧ byteAt data (off + 2) = 0 ∧
      byteAt data (off + 3) = 0 := by
  have hlen : (leBytes 4 n).length = 4 := length_leBytes 4 n
  have hzero := h.byteAt (i := 0) (by omega)
  rw [h.byteAt (by omega), h.byteAt (by omega), h.byteAt (by omega), ← Nat.add_zero off, hzero]
  exact ⟨(byteAt_leBytes_of_lt (i := 0) hn (by omega)).1, (byteAt_leBytes_of_lt hn (by omega)).2,
    (byteAt_leBytes_of_lt hn (by omega)).2, (byteAt_leBytes_of_lt hn (by omega)).2⟩

theorem SameTwice.bytes (h : SameTwice data e count nonce) :
    e.pubkeyBytes.length = 9 ∧ count = 9 ∧ e.credentialId.length = 0 ∧
      byteAt data 45 = 0 ∧ byteAt data 46 = 9 ∧ byteAt data 47 = 0 ∧ byteAt data 52 = 0 := by
  obtain ⟨hkey, hid⟩ := at_append.mp h.read
  rw [length_lenPrefixed] at hid
  have hp := small_at (at_append.mp hkey).1 (Nat.lt_of_le_of_lt h.key_le (by decide))
  have hm := small_at (at_append.mp hid).1 (Nat.lt_of_le_of_lt h.id_le (by decide))
  have hc := small_at h.countAt (Nat.lt_of_le_of_lt h.count_le (by decide))
  -- read from 41 on, both lengths are small, and so is the count: a pattern of zeros
  have hpattern : Pattern (fun i => byteAt data (41 + i)) e.pubkeyBytes.length count :=
    ⟨hp.1, hp.2, hc.1, hc.2⟩
  have hshift : ∀ i, 41 + (4 + e.pubkeyBytes.length) + i = 41 + (4 + i + e.pubkeyBytes.length) :=
    fun i => by omega
  rw [hshift, hshift, hshift] at hm
  refine same_twice (b := fun i => byteAt data (41 + i)) hpattern h.count_pos h.count_le h.periodic
    hm.1 hm.2 fun j hj => ?_
  have htwice := h.nonce_twice (j := j + 1) (by omega)
  rw [show 50 + e.pubkeyBytes.length + e.credentialId.length + (j + 1) =
    41 + (10 + e.pubkeyBytes.length + e.credentialId.length + j) by omega,
    show 40 + (j + 1) = 41 + j by omega] at htwice
  exact htwice

/-- The first byte of the nonce is read from behind the key. -/
theorem SameTwice.first_byte (h : SameTwice data e count nonce) : byteAt data 40 = 0 := by
  obtain ⟨hp, -, hm, -, -, h47, -⟩ := h.bytes
  have htwice := h.nonce_twice (j := 0) (by omega)
  have hperiod := h.periodic 6 (by omega)
  rw [hp, hm] at htwice
  exact htwice.symm.trans (hperiod.trans h47)

theorem SameTwice.nonce_eq (h : SameTwice data e count nonce) :
    nonce = 9 * 256 + 9 * 256 ^ 6 := by
  obtain ⟨hp, -, -, h45, h46, h47, -⟩ := h.bytes
  obtain ⟨h41, h42, h43, h44⟩ :=
    small_at (at_append.mp (at_append.mp h.read).1).1 (Nat.lt_of_le_of_lt h.key_le (by decide))
  rw [hp] at h41
  have hend := h.nonceAt.le_length (by simp)
  rw [length_leBytes] at hend
  -- all eight bytes are known by now
  have hat : At data 40 [0, 9, 0, 0, 0, 0, 9, 0] := by
    refine at_of_byteAt hend fun i hi => ?_
    have hi : i < 8 := hi
    interval_cases i
    · exact h.first_byte
    · exact h41
    · exact h42
    · exact h43
    · exact h44
    · exact h45
    · exact h46
    · exact h47
  have hbytes : leBytes 8 nonce = [0, 9, 0, 0, 0, 0, 9, 0] := h.nonceAt.unique hat (by simp)
  rw [← leNat_leBytes_of_lt h.nonce_lt, hbytes]
  decide

theorem SameTwice.entry_eq (h : SameTwice data e count nonce) : e = coincidingEntry := by
  obtain ⟨hp, hc, hm, h45, h46, h47, h52⟩ := h.bytes
  obtain ⟨h48, h49, h50, h51⟩ := small_at h.countAt (Nat.lt_of_le_of_lt h.count_le (by decide))
  have hlength := small_at (at_append.mp (at_append.mp h.stored).1).1
    (Nat.lt_of_le_of_lt h.key_le (by decide))
  rw [hc] at h48
  have hkey : At data 45 e.pubkeyBytes := by
    have hread := (at_append.mp (at_append.mp h.read).1).2
    rwa [length_leBytes] at hread
  have hend := hkey.le_length (by omega)
  rw [hp] at hend
  -- the nine bytes of the key, four of them its own lengths
  have hat : At data 45 [0, 9, 0, 9, 0, 0, 0, 0, 9] := by
    refine at_of_byteAt hend fun i hi => ?_
    have hi : i < 9 := hi
    interval_cases i
    · exact h45
    · exact h46
    · exact h47
    · exact h48
    · exact h49
    · exact h50
    · exact h51
    · exact h52
    · exact hlength.1.trans hp
  -- the byte in front of the key is zero, which is the passkey's tag
  have hkind : e.keyKind = .secp256r1Passkey := by
    have htag := h.kind.byteAt (i := 0) Nat.one_pos
    rw [Nat.add_zero, h52] at htag
    cases hkind : e.keyKind with
    | secp256r1Passkey => rfl
    | ed25519 =>
      rw [hkind] at htag
      exact absurd htag (by decide)
  have hpubkey : e.pubkeyBytes = [0, 9, 0, 9, 0, 0, 0, 0, 9] := hkey.unique hat hp
  have hid : e.credentialId = [] := List.length_eq_zero_iff.mp hm
  obtain ⟨keyKind, pubkeyBytes, credentialId⟩ := e
  subst hkind hpubkey hid
  rfl

end SameTwice

/-- The bytes of an account the decoder reads right. -/
theorem coincides_of_decodes {data : Bytes} {r : PasskeyRegistry} (himage : RegistryImage data r)
    (hcount : r.keys.length ≤ maxKeys) (hvalid : AllValid r.keys) (h : DecodesFirst data r) :
    Coincides r := by
  obtain ⟨s, e, hparse, hhead, -, hnonceEq, hpubkeyEq, hidEq⟩ := h
  have hold := parseRegistryAccount_eq_ok.mp hparse
  obtain ⟨hkind, hentry⟩ := image_head himage hhead
  have he : e ∈ r.keys := List.mem_of_mem_head? (hhead ▸ rfl)
  have hfirst := hold.entry
  have hread := hold.nonce
  rw [hpubkeyEq, hidEq] at hfirst hread
  rw [hnonceEq] at hread
  have hsame : SameTwice data e r.keys.length r.nonce.toNat :=
    ⟨(hvalid e he).1, (hvalid e he).2, List.length_pos_of_mem he, hcount, r.nonce.toNat_lt,
      himage.nonce, hfirst, himage.count, hkind, hentry, hread⟩
  exact ⟨hsame.nonce_eq, hsame.bytes.2.1, hsame.entry_eq ▸ hhead⟩

/-- The SDK reads a wallet's registry right in no reachable state but those of
that one registry. -/
theorem old_layout {d : Guard.Deployment} {l : Ledger} {key : Pubkey} {r : PasskeyRegistry}
    (h : Reachable d l) (hr : registryAt d l key = some r) :
    DecodesFirst (l key).data r ↔ Coincides r := by
  have himage := registryImage_of_read (registryAt_eq_some.mp hr).2
  have hroom := fitting_of_reachable h key r hr
  exact ⟨coincides_of_decodes himage hroom.count hroom.valid, decodes_of_coincides himage⟩

/-- Up to nonce 255 it takes the count for the high byte of a length, and throws. -/
theorem parse_throws {data : Bytes} {r : PasskeyRegistry} (himage : RegistryImage data r)
    (hsize : data.length ≤ 256 ^ 3) (hnonce : r.nonce.toNat < 256) (hkeys : r.keys ≠ [])
    (hcount : r.keys.length ≤ maxKeys) :
    parseRegistryAccount data = .error .outOfBounds := by
  have hten : r.keys.length ≤ 10 := hcount
  have hpos : 0 < r.keys.length := List.length_pos_of_ne_nil hkeys
  have hnonceAt : At data 40 ([UInt8.ofNat r.nonce.toNat] ++ (leBytes 4 0 ++ leBytes 3 0)) := by
    have hbytes : leBytes 8 r.nonce.toNat = UInt8.ofNat r.nonce.toNat :: leBytes 7 0 := by
      rw [leBytes, Nat.div_eq_of_lt hnonce]
    have hnonceAt := himage.nonce
    rw [hbytes] at hnonceAt
    exact hnonceAt
  have hcountAt : At data 48 ([UInt8.ofNat r.keys.length] ++ leBytes 3 0) := by
    have hbytes : leBytes 4 r.keys.length = UInt8.ofNat r.keys.length :: leBytes 3 0 := by
      rw [leBytes, Nat.div_eq_of_lt (by omega)]
    have hcountAt := himage.count
    rw [hbytes] at hcountAt
    exact hcountAt
  obtain ⟨-, hrest⟩ := at_append.mp hnonceAt
  obtain ⟨hpkLen, hzeros⟩ := at_append.mp hrest
  -- where the decoder looks for the id's length stand three bytes of the nonce and the count
  have hcredLen : At data 45 (leBytes 4 (256 ^ 3 * r.keys.length)) := by
    have hbytes : leBytes 4 (256 ^ 3 * r.keys.length) =
        leBytes 3 0 ++ [UInt8.ofNat r.keys.length] := by
      have hnumber : leNat (leBytes 3 0 ++ [UInt8.ofNat r.keys.length]) =
          256 ^ 3 * r.keys.length := by
        show 0 + 256 * (0 + 256 * (0 + 256 * ((UInt8.ofNat r.keys.length).toNat + 256 * 0))) = _
        rw [UInt8.toNat_ofNat', Nat.mod_eq_of_lt (show r.keys.length < 2 ^ 8 by omega)]
        omega
      rw [← hnumber]
      exact leBytes_leNat (leBytes 3 0 ++ [UInt8.ofNat r.keys.length])
    rw [hbytes]
    exact at_append.mpr ⟨hzeros, (at_append.mp hcountAt).1⟩
  -- so the nonce is looked for megabytes behind the end of the account
  have hbehind : ¬45 + 0 + 4 + 256 ^ 3 * r.keys.length + 1 + 8 ≤ data.length := by omega
  unfold parseRegistryAccount
  dsimp only
  rw [show getUint32 data (8 + 32 + 1) = .ok 0 from getUint_at hpkLen (by decide) (by decide)]
  show (getUint32 data 45 >>= _) = _
  rw [show getUint32 data 45 = .ok (256 ^ 3 * r.keys.length) from
    getUint_at hcredLen (by decide) (by omega)]
  show (getBigUint64 data (45 + 0 + 4 + 256 ^ 3 * r.keys.length + 1) >>= _) = _
  rw [getBigUint64, getUint, if_neg hbehind]
  rfl

/-! ### A fresh registration -/

section Localnet

open Sdk.Localnet

theorem old_layout_registered :
    DecodesFirst (registered registryPda).data (registry 0) ↔ Coincides (registry 0) :=
  old_layout reachable_registered registryAt_registered.1

/-- The decoder throws on a registration at nonce zero, and with it every attempt
to fetch the wallet's registry. -/
theorem registered_not_decoded : Reachable deployment registered ∧
    registryAt deployment registered registryPda = some (registry 0) ∧
    parseRegistryAccount (registered registryPda).data = .error .outOfBounds ∧
    fetchRegistry (fun key => some (.whole (registered key).data)) deployment.findRegistry
      wallet = .error .outOfBounds ∧
    ¬DecodesFirst (registered registryPda).data (registry 0) := by
  have hroom := fitting_of_reachable reachable_registered _ _ registryAt_registered.1
  have hspace : PasskeyRegistry.layout.space ≤ 256 ^ 3 := by decide
  have hthrows : parseRegistryAccount (registered registryPda).data = .error .outOfBounds :=
    parse_throws (registryImage_of_read (registryAt_eq_some.mp registryAt_registered.1).2)
      (hroom.size ▸ hspace) (by decide) (by decide) hroom.count
  have hfetch : fetchRegistry (fun key => some (.whole (registered key).data))
      deployment.findRegistry wallet = .error .outOfBounds := by
    have hpda : deployment.findRegistry wallet = registryPda := rfl
    have hlen : ¬(Window.whole (registered registryPda).data).length < 46 := by
      rw [← Window.length_bytes, Window.bytes_whole, hroom.size]
      decide
    unfold fetchRegistry
    rw [hpda]
    dsimp only
    rw [if_neg hlen, Window.bytes_whole, hthrows]
    rfl
  refine ⟨reachable_registered, registryAt_registered.1, hthrows, hfetch, ?_⟩
  rintro ⟨s, e, hparse, -⟩
  cases hthrows.symm.trans hparse

end Localnet

end Trana.Security
