import Trana.Landing.Vault
import Trana.Security.Books
import Trana.Vault.Canonical
import Trana.Vault.Completeness

/-!
# What the demo shows

The demo reads records and the config by byte offsets, and takes for a pool's
funds the lamports above the rent-exempt minimum of its size. Every record is
read as it is, so is the treasury; and the funds shown of a pool are never less
than its records add up to.

* `fetchUserDeposit_eq`, `fetchTreasury_eq` — reads by offset.
* `fetchPoolState_eq` — the funds shown of a pool since its creation.
* `demo_reads` — all three, over the runs of the chain.

`Answers` says what the demo gets from its connection: the account's bytes,
owner and lamports as the ledger has them, and nothing for an empty account. An
answer that is late or of another slot is one about another ledger.

web3.js gives the lamports of an account as a JavaScript number, exact below
2^53, which is more than nine million SOL. The model takes them as the integer
they stand for, and so do these results; above that bound the number shown is
the nearest a double has. Balances inside a record are read as bigints and exact
throughout.

A pool may show more than its records add up to: whoever sends it lamports, or
withdraws into it, gives to no record. The rent is asked for at the moment of
reading and has to be the one the pool was created with.
-/

namespace Trana.Security

open Trana.Lib Trana.Lib.Exec Trana.Solana Trana.Vault Trana.Landing

/-- The cluster answers with the accounts of this ledger. An account it does not
have is empty. -/
structure Answers (getAccountInfo : Pubkey → Option AccountInfo) (l : Ledger) : Prop where
  found : ∀ k info, getAccountInfo k = some info →
    info.lamports = (l k).lamports.toNat ∧ info.data.bytes = (l k).data
  missing : ∀ k, getAccountInfo k = none → (l k).data = []

section Reads

variable {l : Ledger} {getAccountInfo : Pubkey → Option AccountInfo}

/-- Whatever has data is there. -/
theorem Answers.info (h : Answers getAccountInfo l) {k : Pubkey} (hdata : (l k).data ≠ []) :
    ∃ info, getAccountInfo k = some info ∧ info.lamports = (l k).lamports.toNat ∧
      info.data.bytes = (l k).data := by
  cases hinfo : getAccountInfo k with
  | none => exact absurd (h.missing k hinfo) hdata
  | some info => exact ⟨info, rfl, h.found k info hinfo⟩

/-- An account with a discriminator has data. -/
theorem data_ne_nil {α : Type} {t : AccountLayout α} {p k : Pubkey} {a : α}
    (h : accountAt t p l k = some a) : (l k).data ≠ [] := by
  obtain ⟨-, hread⟩ := accountAt_eq_some.mp h
  obtain ⟨body, rest, -, hdata⟩ := AccountLayout.image_of_tryDeserialize hread
  intro hnil
  have hlen := congrArg List.length (hdata.symm.trans hnil)
  rw [List.length_append, t.length_discriminator] at hlen
  exact absurd hlen (by simp)

/-- An `i64` read back. -/
theorem getBigInt64_at {view : Bytes} {off : Nat} {n : Int64}
    (h : At view off (leBytes 8 n.toUInt64.toNat)) : getBigInt64 view off = .ok n.toInt := by
  rw [getBigInt64, getBigUint64, getUint_at h (by decide) n.toUInt64.toNat_lt]
  show Except.ok (UInt64.ofNat n.toUInt64.toNat).toInt64.toInt = _
  rw [UInt64.ofNat_toNat]
  rfl

/-- A record is read as it is. -/
theorem fetchUserDeposit_eq {k : Pubkey} {ud : UserDeposit} (h : Answers getAccountInfo l)
    (hud : depositAt l k = some ud) :
    fetchUserDeposit getAccountInfo k = .ok ⟨ud.balance.toNat, true, ud.windowWithdrawn.toNat,
      ud.lastWithdrawAt.toInt, ud.lastWithdrawSlot.toNat⟩ := by
  obtain ⟨info, hinfo, -, hbytes⟩ := h.info (data_ne_nil hud)
  obtain ⟨-, hread⟩ := accountAt_eq_some.mp hud
  obtain ⟨body, rest, hbody, hdata⟩ := AccountLayout.image_of_tryDeserialize hread
  obtain rfl := Option.some.inj ((write_userDeposit_eq ud).symm.trans hbody)
  have himage := at_prefix (UserDeposit.layout.discriminator ++
    (ud.pool.bytes ++ (ud.user.bytes ++ (leBytes 8 ud.balance.toNat ++
      (leBytes 8 ud.lastWithdrawSlot.toNat ++ (leBytes 8 ud.windowWithdrawn.toNat ++
        (leBytes 8 ud.lastWithdrawAt.toUInt64.toNat ++ leBytes 1 ud.bump.toNat))))))) rest
  rw [List.append_assoc, ← hdata, ← hbytes] at himage
  have hlen : 105 ≤ info.data.length := by
    have hle := himage.le_length (by simp)
    simp only [List.length_append, UserDeposit.layout.length_discriminator, ud.pool.length_eq,
      ud.user.length_eq, length_leBytes, Window.length_bytes] at hle
    omega
  obtain ⟨view, hview, hat⟩ := Window.at_view himage (by simp)
  simp only [at_append, UserDeposit.layout.length_discriminator, ud.pool.length_eq,
    ud.user.length_eq, length_leBytes] at hat
  -- the fields in the order of the codec, at the offsets the demo has
  obtain ⟨-, -, -, hbalance, hslot, hwindow, hlast, -⟩ := hat
  unfold fetchUserDeposit
  rw [hinfo]
  dsimp only
  rw [if_neg (by omega), hview]
  show (getUint 8 view 72 >>= _) = _
  rw [getUint_at hbalance (by decide) ud.balance.toNat_lt]
  show (getUint 8 view 80 >>= _) = _
  rw [getUint_at hslot (by decide) ud.lastWithdrawSlot.toNat_lt]
  show (getUint 8 view 88 >>= _) = _
  rw [getUint_at hwindow (by decide) ud.windowWithdrawn.toNat_lt]
  show (getBigInt64 view 96 >>= _) = _
  rw [getBigInt64_at hlast]
  rfl

/-- A key is read where it stands. -/
theorem publicKey_at {bytes : Bytes} {off : Nat} {key : Pubkey} (h : At bytes off key.bytes) :
    publicKey (sliceBytes bytes off (off + 32)) (length_sliceBytes_le bytes off 32) = key := by
  have hslice := sliceBytes_at h
  rw [key.length_eq] at hslice
  refine Pubkey.bytes_inj ?_
  show List.replicate (32 - (sliceBytes bytes off (off + 32)).length) 0 ++
    sliceBytes bytes off (off + 32) = key.bytes
  rw [hslice, key.length_eq]
  rfl

/-- So is the treasury. -/
theorem fetchTreasury_eq {d : Guard.Deployment} {cfg : Guard.TranaConfig}
    (h : Answers getAccountInfo l) (hcfg : Guard.configOf d l = some cfg) :
    fetchTreasury getAccountInfo d.findConfig = .ok cfg.treasury := by
  obtain ⟨info, hinfo, -, hbytes⟩ := h.info (data_ne_nil hcfg)
  obtain ⟨-, hread⟩ := accountAt_eq_some.mp hcfg
  obtain ⟨body, rest, hbody, hdata⟩ := AccountLayout.image_of_tryDeserialize hread
  have hfields : Guard.TranaConfig.codec.write cfg = some (cfg.authority.bytes ++
      (cfg.treasury.bytes ++ (leBytes 8 cfg.registerFee.toNat ++
        leBytes 8 cfg.addKeyFee.toNat))) := by
    simp [Guard.TranaConfig.codec, Codec.map, Codec.pair, Pubkey.codec, Codec.bytesN, Codec.u64,
      Codec.ofWord]
  obtain rfl := Option.some.inj (hfields.symm.trans hbody)
  have himage := at_prefix (Guard.TranaConfig.layout.discriminator ++ (cfg.authority.bytes ++
    (cfg.treasury.bytes ++ (leBytes 8 cfg.registerFee.toNat ++
      leBytes 8 cfg.addKeyFee.toNat)))) rest
  rw [List.append_assoc, ← hdata, ← hbytes] at himage
  simp only [at_append, Guard.TranaConfig.layout.length_discriminator,
    cfg.authority.length_eq] at himage
  -- authority first, then the treasury, at 40
  obtain ⟨-, -, htreasury, -⟩ := himage
  unfold fetchTreasury
  rw [hinfo]
  exact congrArg Except.ok (publicKey_at htreasury)

end Reads

section Pool

variable {d : Vault.Deployment} {l₀ l : Ledger} {pre post : List Vault.Moment} {t : Vault.Moment}
  {c : Guard.Call} {ctx : InitializePool} {getAccountInfo : Pubkey → Option AccountInfo}
  {rent : Nat → ℕ}

/-- A pool is made with its size and the rent for it. -/
theorem created_account (h : Vault.Step d t.before t.label t.after)
    (hcreates : Creates d t.before t.label c ctx) :
    (∃ p, poolAt t.after ctx.pool = some p) ∧
      (t.after ctx.pool).data.length = Pool.layout.space ∧
      (c.env.minimumBalance Pool.layout.space).toNat ≤ (t.after ctx.pool).lamports.toNat := by
  refine ⟨(hcreates.initialized h).stored, ?_⟩
  obtain ⟨kind, name, hparsed⟩ := hcreates.parsed
  obtain ⟨l₁, hctx⟩ := hcreates.context
  rw [hcreates.label] at h
  cases h with
  | vault h =>
    obtain ⟨ix, hix, hrun⟩ := returns_bind.mp h
    obtain rfl := hix.unique hparsed
    exact initializePool_account hrun hctx

/-- What the demo shows of it is what it has above that rent, and that covers its records. -/
theorem fetchPoolState_eq (hgenesis : Ledger.Genesis vaultId l₀)
    (hapart : ApartByPool d (pre ++ t :: post))
    (hrun : Run (Vault.Step d) l₀ (pre ++ t :: post) l)
    (hcreates : Creates d t.before t.label c ctx) (hanswers : Answers getAccountInfo l)
    (hrent : rent Pool.layout.space = (c.env.minimumBalance Pool.layout.space).toNat) :
    ∃ shown : ℕ, fetchPoolState getAccountInfo rent ctx.pool = ⟨shown, true⟩ ∧
      shown + rent Pool.layout.space = lamportsOf l ctx.pool ∧
      ∑ k, balanceIn ctx.pool l k ≤ shown := by
  obtain ⟨-, hstep, hpost⟩ := hrun.split
  -- the pool was created with its rent, and covers the records on top of that
  have hcovers := covers_run hgenesis hapart hrun hcreates
  obtain ⟨⟨p, hp⟩, hsize, hexempt⟩ := created_account hstep hcreates
  have hkept : (l ctx.pool).data = (t.after ctx.pool).data := pool_data_run hpost hp
  obtain ⟨info, hinfo, hlamports, hbytes⟩ := hanswers.info (data_ne_nil (pool_stays hpost hp))
  have hlen : info.data.length = Pool.layout.space := by
    rw [← Window.length_bytes, hbytes, hkept, hsize]
  unfold Covers at hcovers
  refine ⟨(l ctx.pool).lamports.toNat - rent Pool.layout.space, ?_, ?_, ?_⟩
  · unfold fetchPoolState
    rw [hinfo]
    dsimp only
    rw [hlen, hlamports]
    congr 1
    omega
  · show _ = (l ctx.pool).lamports.toNat
    omega
  · omega

end Pool

/-- In every run of the chain the demo reads every record and the treasury as
they are, and shows of a pool what it has above its rent, which is never less
than its records add up to. Lamports of an account are a JS number there, so
this is for amounts below 2^53. -/
theorem demo_reads {d : Vault.Deployment} {l₀ l : Ledger} {pre post : List Vault.Moment}
    {t : Vault.Moment} {c : Guard.Call} {ctx : InitializePool}
    {getAccountInfo : Pubkey → Option AccountInfo} {rent : Nat → ℕ}
    (hgenesis : Ledger.Genesis vaultId l₀) (hapart : ApartByPool d (pre ++ t :: post))
    (hrun : Run (Vault.Step d) l₀ (pre ++ t :: post) l)
    (hcreates : Creates d t.before t.label c ctx) (hanswers : Answers getAccountInfo l)
    (hrent : rent Pool.layout.space = (c.env.minimumBalance Pool.layout.space).toNat) :
    (∀ k ud, depositAt l k = some ud → fetchUserDeposit getAccountInfo k =
      .ok ⟨ud.balance.toNat, true, ud.windowWithdrawn.toNat, ud.lastWithdrawAt.toInt,
        ud.lastWithdrawSlot.toNat⟩) ∧
    (∀ cfg, Guard.configOf d.guard l = some cfg →
      fetchTreasury getAccountInfo d.guard.findConfig = .ok cfg.treasury) ∧
    ∃ shown : ℕ, fetchPoolState getAccountInfo rent ctx.pool = ⟨shown, true⟩ ∧
      shown + rent Pool.layout.space = lamportsOf l ctx.pool ∧
      ∑ k, balanceIn ctx.pool l k ≤ shown :=
  ⟨fun _ _ hud => fetchUserDeposit_eq hanswers hud, fun _ hcfg => fetchTreasury_eq hanswers hcfg,
    fetchPoolState_eq hgenesis hapart hrun hcreates hanswers hrent⟩

section Localnet

open Sdk.Localnet

/-- A cluster that answers with the whole of every account. -/
def answer (l : Ledger) (k : Pubkey) : Option AccountInfo :=
  some ⟨(l k).lamports.toNat, Window.whole (l k).data⟩

theorem answers_answer (l : Ledger) : Answers (answer l) l where
  found k info h := by
    obtain rfl := Option.some.inj h
    exact ⟨rfl, Window.bytes_whole _⟩
  missing k h := nomatch h

/-- And with the cluster's rent. -/
def rentOf (size : Nat) : ℕ := (minimumBalance size).toNat

/-- The wallet's pool, after its deposit and withdrawal. -/
theorem demo_reads_localnet : ∃ (l : Ledger) (shown : ℕ),
    (∃ trace, Run (Vault.Step vaultDeployment) genesis trace l ∧
      trace.map Transition.label = poolLabels) ∧
    fetchPoolState (answer l) rentOf poolPda = ⟨shown, true⟩ ∧
    shown + rentOf Pool.layout.space = lamportsOf l poolPda ∧
    ∑ k, balanceIn poolPda l k ≤ shown := by
  obtain ⟨t, post, l, ctx, hrun, hlabels, hcreates, hpool⟩ := run_pool
  have hrent : rentOf Pool.layout.space = (minimumBalance Pool.layout.space).toNat := rfl
  obtain ⟨-, -, shown, hshown⟩ := demo_reads (genesis_of_ne vaultId_ne_system)
    (apart_wallet hlabels).byPool hrun hcreates (answers_answer l) hrent
  rw [hpool] at hshown
  exact ⟨l, shown, ⟨_, hrun, hlabels⟩, hshown⟩

end Localnet

end Trana.Security
