import Trana.Authority.Program
import Trana.Landing.Vault
import Trana.Guard.ProgramSpec

/-!
# The programs' instruction data

Clients encode by the IDL: the discriminator of the instruction, then its
arguments in Borsh. Each program decodes what a client encodes, whatever stands
behind it, and nothing else to one of its instructions.

* `startsWith_of_args`, `args_of_startsWith` — one branch of a dispatch.
* `guard_wire`, `vault_wire`, `authority_wire` — one program each.
* `wire_format` — all three, and what the demo builds by hand.

The dispatch is Anchor's: eight bytes choose the instruction, the rest is read
as its arguments, and bytes left over are ignored. Anchor adds one more
instruction to every program, for an IDL kept on chain, with a discriminator of
its own. That one is not the repository's, is not modelled, and "nothing else"
does not speak of it.

The demo does not use Anchor's client for four of the instructions: it writes
discriminators and lengths into a byte array itself. An amount is a bigint there
and is written as its low 64 bits, a negative one in two's complement, so a
decoded amount is the intended one modulo 2^64. Lengths are JavaScript numbers
written as four bytes, which is where the bound on them comes from.
-/

/-! ## What a client encodes -/

namespace Trana.Guard

open Trana.Lib

/-- The instruction's data, as the IDL describes it. -/
def GuardInstruction.encode : GuardInstruction → Option Bytes
  | .initConfig registerFee addKeyFee treasury =>
    (configArgs.tagged initConfigDisc).write (registerFee, addKeyFee, treasury)
  | .updateConfig registerFee addKeyFee treasury =>
    (configArgs.tagged updateConfigDisc).write (registerFee, addKeyFee, treasury)
  | .registerPasskey keyKind pubkeyBytes credentialId =>
    (PasskeyEntry.codec.tagged registerPasskeyDisc).write
      ⟨keyKind, pubkeyBytes, credentialId⟩
  | .recoverRegistry keyKind pubkeyBytes credentialId =>
    (PasskeyEntry.codec.tagged recoverRegistryDisc).write
      ⟨keyKind, pubkeyBytes, credentialId⟩
  | .addPasskey keyKind pubkeyBytes credentialId =>
    (PasskeyEntry.codec.tagged addPasskeyDisc).write
      ⟨keyKind, pubkeyBytes, credentialId⟩
  | .removePasskey credentialId =>
    (Codec.vecU8.tagged removePasskeyDisc).write credentialId
  | .recordProof proof => (ProofData.codec.tagged recordProofDisc).write proof
  | .enforce policy => (Policy.codec.tagged enforceDisc).write policy

end Trana.Guard

namespace Trana.Vault

open Trana.Lib

/-- The pool's kind is one byte, its label a string. -/
def VaultInstruction.encode : VaultInstruction → Option Bytes
  | .initializePool kind label =>
    ((PoolKind.codec.pair Codec.string).tagged initializePoolDisc).write (kind, label)
  | .deposit amount => (Codec.u64.tagged depositDisc).write amount
  | .withdraw amount => (Codec.u64.tagged withdrawDisc).write amount

end Trana.Vault

namespace Trana.Authority

open Trana.Lib Trana.Solana

/-- Two of its instructions have no arguments. -/
def AuthorityInstruction.encode : AuthorityInstruction → Option Bytes
  | .register => some registerDisc
  | .executeUpgrade => some executeUpgradeDisc
  | .reclaimAuthority newAuthority =>
    (Pubkey.codec.tagged reclaimAuthorityDisc).write newAuthority

end Trana.Authority

namespace Trana.Security

open Trana.Lib Trana.Lib.Exec Trana.Solana

/-! ## One branch -/

/-- Data in front of which an instruction's encoding stands. -/
def StartsWith (encoded : Option Bytes) (data : Bytes) : Prop :=
  ∃ front rest, encoded = some front ∧ data = front ++ rest

section Branch

variable {ε ℓ α β : Type} {c : Codec α} {disc data : Bytes} {log : ProgramExec ε ℓ Unit}
  {e : ProgramError ε} {f : α → β} {b : β}

/-- What a branch decodes, the data encode, up to bytes behind it. -/
theorem startsWith_of_args (hlen : disc.length = 8) (hdisc : data.take 8 = disc)
    (h : (log >>= fun _ => okOr ((c.read (data.drop 8)).map Prod.fst) e >>= fun a =>
      pure (f a) : ProgramExec ε ℓ β).Returns b) :
    ∃ a, f a = b ∧ StartsWith ((c.tagged disc).write a) data := by
  have hread : (c.tagged disc).read data = c.read (data.drop 8) := by
    rw [← hlen] at hdisc ⊢
    exact if_pos hdisc
  simp only [returns_bind, returns_okOr, returns_pure, Option.map_eq_some_iff] at h
  obtain ⟨-, -, a, ⟨⟨a', rest⟩, ha, rfl⟩, rfl⟩ := h
  rw [← hread] at ha
  exact ⟨a', rfl, _, rest, ((c.tagged disc).read_eq_some_iff.mp ha).choose_spec⟩

/-- And what they encode, the branch decodes. -/
theorem args_of_startsWith {a : α} {front rest : Bytes} (hlen : disc.length = 8)
    (hlog : log.Returns ()) (hwrite : (c.tagged disc).write a = some front) :
    (log >>= fun _ => okOr ((c.read ((front ++ rest).drop 8)).map Prod.fst) e >>= fun a =>
      pure (f a) : ProgramExec ε ℓ β).Returns (f a) := by
  obtain ⟨body, hbody, rfl⟩ := Option.map_eq_some_iff.mp hwrite
  have hdrop : (disc ++ body ++ rest).drop 8 = body ++ rest := by
    rw [List.append_assoc, ← hlen, List.drop_left]
  simp only [returns_bind, returns_okOr, returns_pure, hdrop, c.read_write hbody]
  exact ⟨(), hlog, a, rfl, rfl⟩

/-- An encoding starts with its discriminator. -/
theorem take_tagged {front rest : Bytes} {a : α} (hlen : disc.length = 8)
    (h : (c.tagged disc).write a = some front) : (front ++ rest).take 8 = disc := by
  obtain ⟨body, -, rfl⟩ := Option.map_eq_some_iff.mp h
  rw [List.append_assoc, ← hlen, List.take_left]

end Branch

/-! ## The guard -/

theorem guard_wire {data : Bytes} {ix : Guard.GuardInstruction} :
    (Guard.parseInstruction data).Returns ix ↔ StartsWith ix.encode data := by
  constructor
  · intro h
    unfold Guard.parseInstruction at h
    dsimp only at h
    split at h
    next hdisc =>
      obtain ⟨⟨_, _, _⟩, rfl, hstarts⟩ := startsWith_of_args rfl hdisc h
      exact hstarts
    split at h
    next hdisc =>
      obtain ⟨⟨_, _, _⟩, rfl, hstarts⟩ := startsWith_of_args rfl hdisc h
      exact hstarts
    split at h
    next hdisc =>
      obtain ⟨e, rfl, hstarts⟩ := startsWith_of_args rfl hdisc h
      exact hstarts
    split at h
    next hdisc =>
      obtain ⟨e, rfl, hstarts⟩ := startsWith_of_args rfl hdisc h
      exact hstarts
    split at h
    next hdisc =>
      obtain ⟨e, rfl, hstarts⟩ := startsWith_of_args rfl hdisc h
      exact hstarts
    split at h
    next hdisc =>
      obtain ⟨credentialId, rfl, hstarts⟩ := startsWith_of_args rfl hdisc h
      exact hstarts
    split at h
    next hdisc =>
      obtain ⟨proof, rfl, hstarts⟩ := startsWith_of_args rfl hdisc h
      exact hstarts
    split at h
    next hdisc =>
      obtain ⟨policy, rfl, hstarts⟩ := startsWith_of_args rfl hdisc h
      exact hstarts
    next => simp at h
  · rintro ⟨front, rest, hwrite, rfl⟩
    unfold Guard.parseInstruction
    dsimp only
    -- the discriminator selects the branch
    cases ix with
    | initConfig registerFee addKeyFee treasury =>
      have hdisc : (front ++ rest).take 8 = Guard.initConfigDisc := take_tagged rfl hwrite
      rw [if_pos hdisc]
      exact args_of_startsWith rfl (by simp) hwrite
    | updateConfig registerFee addKeyFee treasury =>
      have hdisc : (front ++ rest).take 8 = Guard.updateConfigDisc := take_tagged rfl hwrite
      rw [if_neg (by rw [hdisc]; decide), if_pos hdisc]
      exact args_of_startsWith rfl (by simp) hwrite
    | registerPasskey keyKind pubkeyBytes credentialId =>
      have hdisc : (front ++ rest).take 8 = Guard.registerPasskeyDisc := take_tagged rfl hwrite
      rw [if_neg (by rw [hdisc]; decide), if_neg (by rw [hdisc]; decide), if_pos hdisc]
      exact args_of_startsWith rfl (by simp) hwrite
    | recoverRegistry keyKind pubkeyBytes credentialId =>
      have hdisc : (front ++ rest).take 8 = Guard.recoverRegistryDisc := take_tagged rfl hwrite
      rw [if_neg (by rw [hdisc]; decide), if_neg (by rw [hdisc]; decide),
        if_neg (by rw [hdisc]; decide), if_pos hdisc]
      exact args_of_startsWith rfl (by simp) hwrite
    | addPasskey keyKind pubkeyBytes credentialId =>
      have hdisc : (front ++ rest).take 8 = Guard.addPasskeyDisc := take_tagged rfl hwrite
      rw [if_neg (by rw [hdisc]; decide), if_neg (by rw [hdisc]; decide),
        if_neg (by rw [hdisc]; decide), if_neg (by rw [hdisc]; decide), if_pos hdisc]
      exact args_of_startsWith rfl (by simp) hwrite
    | removePasskey credentialId =>
      have hdisc : (front ++ rest).take 8 = Guard.removePasskeyDisc := take_tagged rfl hwrite
      rw [if_neg (by rw [hdisc]; decide), if_neg (by rw [hdisc]; decide),
        if_neg (by rw [hdisc]; decide), if_neg (by rw [hdisc]; decide),
        if_neg (by rw [hdisc]; decide), if_pos hdisc]
      exact args_of_startsWith rfl (by simp) hwrite
    | recordProof proof =>
      have hdisc : (front ++ rest).take 8 = Guard.recordProofDisc := take_tagged rfl hwrite
      rw [if_neg (by rw [hdisc]; decide), if_neg (by rw [hdisc]; decide),
        if_neg (by rw [hdisc]; decide), if_neg (by rw [hdisc]; decide),
        if_neg (by rw [hdisc]; decide), if_neg (by rw [hdisc]; decide), if_pos hdisc]
      exact args_of_startsWith rfl (by simp) hwrite
    | enforce policy =>
      have hdisc : (front ++ rest).take 8 = Guard.enforceDisc := take_tagged rfl hwrite
      rw [if_neg (by rw [hdisc]; decide), if_neg (by rw [hdisc]; decide),
        if_neg (by rw [hdisc]; decide), if_neg (by rw [hdisc]; decide),
        if_neg (by rw [hdisc]; decide), if_neg (by rw [hdisc]; decide),
        if_neg (by rw [hdisc]; decide), if_pos hdisc]
      exact args_of_startsWith rfl (by simp) hwrite

/-! ## The vault -/

theorem vault_wire {data : Bytes} {ix : Vault.VaultInstruction} :
    (Vault.parseInstruction data).Returns ix ↔ StartsWith ix.encode data := by
  constructor
  · intro h
    unfold Vault.parseInstruction at h
    dsimp only at h
    -- the discriminators are tried in the order of the source
    split at h
    next hdisc =>
      obtain ⟨⟨_, _⟩, rfl, hstarts⟩ := startsWith_of_args rfl hdisc h
      exact hstarts
    split at h
    next hdisc =>
      obtain ⟨amount, rfl, hstarts⟩ := startsWith_of_args rfl hdisc h
      exact hstarts
    split at h
    next hdisc =>
      obtain ⟨amount, rfl, hstarts⟩ := startsWith_of_args rfl hdisc h
      exact hstarts
    next => simp at h
  · rintro ⟨front, rest, hwrite, rfl⟩
    unfold Vault.parseInstruction
    dsimp only
    cases ix with
    | initializePool kind label =>
      have hdisc : (front ++ rest).take 8 = Vault.initializePoolDisc := take_tagged rfl hwrite
      rw [if_pos hdisc]
      exact args_of_startsWith rfl (by simp) hwrite
    | deposit amount =>
      have hdisc : (front ++ rest).take 8 = Vault.depositDisc := take_tagged rfl hwrite
      -- these differ, so the branches in front are not taken
      rw [if_neg (by rw [hdisc]; decide), if_pos hdisc]
      exact args_of_startsWith rfl (by simp) hwrite
    | withdraw amount =>
      have hdisc : (front ++ rest).take 8 = Vault.withdrawDisc := take_tagged rfl hwrite
      rw [if_neg (by rw [hdisc]; decide), if_neg (by rw [hdisc]; decide), if_pos hdisc]
      exact args_of_startsWith rfl (by simp) hwrite

/-! ## The authority -/

theorem startsWith_disc {disc data : Bytes} (h : data.take 8 = disc) :
    StartsWith (some disc) data :=
  ⟨disc, data.drop 8, rfl, by rw [← h, List.take_append_drop]⟩

theorem authority_wire {data : Bytes} {ix : Authority.AuthorityInstruction} :
    (Authority.parseInstruction data).Returns ix ↔
      StartsWith ix.encode data := by
  constructor
  · intro h
    unfold Authority.parseInstruction at h
    dsimp only at h
    split at h
    next hdisc =>
      simp only [returns_bind, returns_pure] at h
      obtain ⟨-, -, rfl⟩ := h
      -- two of the three have no arguments, and need nothing behind the discriminator
      exact startsWith_disc hdisc
    split at h
    next hdisc =>
      simp only [returns_bind, returns_pure] at h
      obtain ⟨-, -, rfl⟩ := h
      exact startsWith_disc hdisc
    split at h
    next hdisc =>
      obtain ⟨newAuthority, rfl, hstarts⟩ := startsWith_of_args rfl hdisc h
      exact hstarts
    next => simp at h
  · rintro ⟨front, rest, hwrite, rfl⟩
    unfold Authority.parseInstruction
    dsimp only
    cases ix with
    | register =>
      obtain rfl := Option.some.inj hwrite
      have hdisc : (Authority.registerDisc ++ rest).take 8 = Authority.registerDisc := rfl
      rw [if_pos hdisc]
      simp [Authority.emit]
    | executeUpgrade =>
      obtain rfl := Option.some.inj hwrite
      have hdisc : (Authority.executeUpgradeDisc ++ rest).take 8 =
          Authority.executeUpgradeDisc := rfl
      rw [if_neg (by rw [hdisc]; decide), if_pos hdisc]
      simp [Authority.emit]
    | reclaimAuthority newAuthority =>
      have hdisc : (front ++ rest).take 8 = Authority.reclaimAuthorityDisc :=
        take_tagged rfl hwrite
      rw [if_neg (by rw [hdisc]; decide), if_neg (by rw [hdisc]; decide), if_pos hdisc]
      exact args_of_startsWith rfl (by simp [Authority.emit]) hwrite

/-! ## What the demo builds -/

section Landing

open Landing

theorem deposit_data (pool userDeposit depositor : Pubkey) (lamports : ℤ) :
    (Vault.VaultInstruction.deposit (lowU64 lamports)).encode =
      some (buildDepositIx pool userDeposit depositor lamports).data :=
  rfl

theorem withdraw_data (pool userDeposit owner destination registry : Pubkey) (lamports : ℤ) :
    (Vault.VaultInstruction.withdraw (lowU64 lamports)).encode =
      some (buildWithdrawIx pool userDeposit owner destination registry lamports).data :=
  rfl

/-- A length of at most 32 bits is written as it is. -/
theorem borshBytes_eq {b : Bytes} (h : b.length < 2 ^ 32) : borshBytes b = lenPrefixed 4 b := by
  rw [borshBytes, lenPrefixed, Nat.mod_eq_of_lt h]

theorem write_passkey {pubkeyBytes credentialId : Bytes} (hkey : pubkeyBytes.length < 2 ^ 32)
    (hid : credentialId.length < 2 ^ 32) :
    Guard.PasskeyEntry.codec.write ⟨.secp256r1Passkey, pubkeyBytes, credentialId⟩ =
      some ([0] ++ (borshBytes pubkeyBytes ++ borshBytes credentialId)) := by
  rw [borshBytes_eq hkey, borshBytes_eq hid]
  refine Codec.pair_write_eq_some.mpr ⟨[0], _, rfl, ?_, rfl⟩
  exact Codec.pair_write_eq_some.mpr ⟨_, _, Codec.vecU8_write _ hkey, Codec.vecU8_write _ hid, rfl⟩

section Passkeys

variable {getAccountInfo : Pubkey → Option AccountInfo} {findRegistry : Pubkey → Pubkey}
  {configPda owner : Pubkey} {pubkeyBytes credentialId : Bytes} {ix : Instruction}

theorem registerPasskey_parsed (hkey : pubkeyBytes.length < 2 ^ 32)
    (hid : credentialId.length < 2 ^ 32)
    (h : buildRegisterPasskeyIx getAccountInfo findRegistry configPda owner pubkeyBytes
      credentialId = .ok ix) :
    (Guard.parseInstruction ix.data).Returns
      (.registerPasskey .secp256r1Passkey pubkeyBytes credentialId) := by
  unfold buildRegisterPasskeyIx at h
  cases htreasury : fetchTreasury getAccountInfo configPda with
  | error e =>
    rw [htreasury] at h
    cases h
  | ok treasury =>
    rw [htreasury] at h
    obtain rfl := Except.ok.inj h
    refine guard_wire.mpr ⟨_, [], Option.map_eq_some_iff.mpr ⟨_, write_passkey hkey hid, rfl⟩, ?_⟩
    simp [registerPasskeyDisc, Guard.registerPasskeyDisc]

theorem addPasskey_parsed (hkey : pubkeyBytes.length < 2 ^ 32)
    (hid : credentialId.length < 2 ^ 32)
    (h : buildAddPasskeyIx getAccountInfo findRegistry configPda owner pubkeyBytes
      credentialId = .ok ix) :
    (Guard.parseInstruction ix.data).Returns
      (.addPasskey .secp256r1Passkey pubkeyBytes credentialId) := by
  unfold buildAddPasskeyIx at h
  cases htreasury : fetchTreasury getAccountInfo configPda with
  | error e =>
    rw [htreasury] at h
    cases h
  | ok treasury =>
    rw [htreasury] at h
    obtain rfl := Except.ok.inj h
    refine guard_wire.mpr ⟨_, [], Option.map_eq_some_iff.mpr ⟨_, write_passkey hkey hid, rfl⟩, ?_⟩
    simp [addPasskeyDisc, Guard.addPasskeyDisc]

end Passkeys

end Landing

/-- Every program decodes what the IDL encodes, with any bytes behind it, and
nothing else to one of its own instructions, the one Anchor adds for the IDL aside;
and the four instructions the demo builds by hand decode to what they are called. -/
theorem wire_format :
    (∀ data ix, (Guard.parseInstruction data).Returns ix ↔
      StartsWith ix.encode data) ∧
    (∀ data ix, (Vault.parseInstruction data).Returns ix ↔
      StartsWith ix.encode data) ∧
    (∀ data ix, (Authority.parseInstruction data).Returns ix ↔
      StartsWith ix.encode data) ∧
    (∀ pool userDeposit depositor lamports, (Vault.parseInstruction
      (Landing.buildDepositIx pool userDeposit depositor lamports).data).Returns
        (.deposit (Landing.lowU64 lamports))) ∧
    (∀ pool userDeposit owner destination registry lamports, (Vault.parseInstruction
      (Landing.buildWithdrawIx pool userDeposit owner destination registry lamports).data).Returns
        (.withdraw (Landing.lowU64 lamports))) ∧
    ∀ getAccountInfo findRegistry configPda owner pubkeyBytes credentialId ix,
      pubkeyBytes.length < 2 ^ 32 → credentialId.length < 2 ^ 32 →
      (Landing.buildRegisterPasskeyIx getAccountInfo findRegistry configPda owner pubkeyBytes
          credentialId = .ok ix →
        (Guard.parseInstruction ix.data).Returns
          (.registerPasskey .secp256r1Passkey pubkeyBytes credentialId)) ∧
      (Landing.buildAddPasskeyIx getAccountInfo findRegistry configPda owner pubkeyBytes
          credentialId = .ok ix →
        (Guard.parseInstruction ix.data).Returns
          (.addPasskey .secp256r1Passkey pubkeyBytes credentialId)) := by
  refine ⟨fun _ _ => guard_wire, fun _ _ => vault_wire, fun _ _ => authority_wire, ?_, ?_, ?_⟩
  · intro pool userDeposit depositor lamports
    exact vault_wire.mpr ⟨_, [], deposit_data .., by rw [List.append_nil]⟩
  · intro pool userDeposit owner destination registry lamports
    exact vault_wire.mpr ⟨_, [], withdraw_data .., by rw [List.append_nil]⟩
  · intro getAccountInfo findRegistry configPda owner pubkeyBytes credentialId ix hkey hid
    exact ⟨registerPasskey_parsed hkey hid, addPasskey_parsed hkey hid⟩

end Trana.Security
