import Trana.Guard.ProgramSpec

/-!
# The guard and other programs' accounts

The guard writes to its own accounts, creates accounts of its own and moves
lamports of wallets. To the accounts of any other program it is a program like
all others: the runtime lets it do nothing with them but credit them, and the
model must have that as a consequence, since the vault, the counter and the
authority record run next to it on one ledger.

* `collectFee_respects` — a fee is a transfer through the system program, which
  moves lamports of system accounts only.
* `process_respects` — an invocation keeps owner and data of another program's
  accounts and does not debit them.
* `enforce_frame` — `enforce` moves no lamports at all, and what it writes is
  the one registry: the fact a caller by CPI relies on.

`p` is the other program; it is neither the guard nor the system program, whose
accounts are the wallets that pay.
-/

namespace Trana.Guard

open Trana.Lib Trana.Lib.Exec Trana.Solana

variable {d : Deployment} {env : Env} {accounts : List AccountMeta} {l l' : Ledger} {p : Pubkey}

/-- A write from and to accounts of others is none to a registry. -/
theorem sameRegistries_of_frame {key : Pubkey} (hbefore : (l key).owner ≠ d.programId)
    (hafter : (l' key).owner ≠ d.programId)
    (hframe : ∀ k, k ≠ key → (l' k).owner = (l k).owner ∧ (l' k).data = (l k).data) :
    SameRegistries d l l' := by
  intro k
  by_cases hk : k = key
  · subst hk
    rw [registryAt, registryAt, if_neg hbefore, if_neg hafter]
  · exact registryAt_congr (hframe k hk)

/-- A fee moves lamports of system accounts, and may credit any account. -/
theorem collectFee_respects {payer dst : Pubkey} {fee : UInt64} (hp : p ≠ systemProgramId)
    (h : (collectFee l payer dst fee).Returns l') : Ledger.Respects p l l' := by
  unfold collectFee at h
  split at h
  next =>
    simp only [invokeTransfer, returns_okOr] at h
    exact Ledger.transfer_respects hp h
  next =>
    obtain rfl := returns_pure.mp h
    exact .refl p l

/-- A created account was a system account before. -/
theorem initConfig_tryAccounts_respects {ctx : InitConfig} (hp : p ≠ systemProgramId)
    (hne : d.programId ≠ p) (h : (InitConfig.tryAccounts d env accounts l).Returns (ctx, l')) :
    Ledger.Respects p l l' := by
  unfold InitConfig.tryAccounts at h
  split at h
  next config authority systemProgram rest =>
    simp only [returns_bind, returns_okOr, returns_pure] at h
    obtain ⟨_, -, _, -, _, -, l₁, hinit, _, -, _, -, hp'⟩ := h
    obtain ⟨-, rfl⟩ := Prod.mk.inj hp'
    exact Ledger.initAccount_respects hp hne hinit
  next => simp [notEnoughKeys] at h

/-- `enforce` writes data of the guard's own accounts only, and moves no lamports. -/
theorem enforce_returns_frame {ctx : Enforce} {policy : Policy}
    (h : (enforce d env ctx policy l).Returns l') :
    (∀ k, (l' k).lamports = (l k).lamports ∧ (l' k).owner = (l k).owner) ∧
      ∀ k, (l k).owner ≠ d.programId → (l' k).data = (l k).data := by
  rcases returns_enforce.mp h with ⟨-, -, rfl⟩ | ⟨-, hrun⟩
  · exact ⟨fun _ => ⟨rfl, rfl⟩, fun _ _ => rfl⟩
  · rw [guarded, returns_withRegistry] at hrun
    obtain ⟨r, -, hfound, -, -, data, -, rfl⟩ := hrun
    refine ⟨fun k => ?_, fun k hk => ?_⟩
    · by_cases hkey : k = ctx.registry
      · rw [hkey, Ledger.set_self]
        exact ⟨rfl, rfl⟩
      · rw [Ledger.set_of_ne _ hkey]
        exact ⟨rfl, rfl⟩
    -- an address that holds a registry is the guard's, and so not `p`'s
    · have hkey : k ≠ ctx.registry := fun heq => hk (heq ▸ (registryAt_eq_some.mp hfound).1)
      rw [Ledger.set_of_ne _ hkey]

/-- `enforce` moves no lamports, and writes to the guard's accounts only. -/
theorem enforce_frame {policy : Policy}
    (h : (execute d env accounts (.enforce policy) l).Returns l') :
    (∀ k, (l' k).lamports = (l k).lamports ∧ (l' k).owner = (l k).owner) ∧
      ∀ k, (l k).owner ≠ d.programId → (l' k).data = (l k).data := by
  simp only [execute, returns_bind] at h
  obtain ⟨ctx, -, hrun⟩ := h
  exact enforce_returns_frame hrun

/-- Nor does a call by another program. -/
theorem invokeEnforce_frame {ctx : Enforce} {policy : Policy}
    (h : (invokeEnforce d env ctx policy l).Returns l') :
    (∀ k, (l' k).lamports = (l k).lamports ∧ (l' k).owner = (l k).owner) ∧
      ∀ k, (l k).owner ≠ d.programId → (l' k).data = (l k).data := by
  obtain ⟨ix, hix, hrun⟩ := returns_bind.mp h
  obtain rfl := (parse_enforceData policy).unique hix
  exact enforce_frame hrun

/-- Instruction by instruction. -/
theorem execute_respects {ix : GuardInstruction} (hp : p ≠ systemProgramId)
    (hne : d.programId ≠ p) (h : (execute d env accounts ix l).Returns l') :
    Ledger.Respects p l l' := by
  cases ix with
  | initConfig registerFee addKeyFee treasury =>
    simp only [execute, returns_bind] at h
    obtain ⟨⟨ctx, l₁⟩, hctx, cfg, -, hexit⟩ := h
    exact (initConfig_tryAccounts_respects hp hne hctx).trans (exitAccount_respects hne hexit)
  | updateConfig registerFee addKeyFee treasury =>
    simp only [execute, returns_bind] at h
    obtain ⟨ctx, -, cfg, -, hexit⟩ := h
    exact exitAccount_respects hne hexit
  | registerPasskey keyKind pubkeyBytes credentialId =>
    simp only [execute, returns_bind] at h
    obtain ⟨⟨ctx, l₁⟩, hctx, ⟨r, l₂⟩, hrun, hexit⟩ := h
    obtain ⟨-, -, hinit⟩ := registerPasskey_tryAccounts hctx
    simp only [registerPasskey, returns_bind, returns_pure] at hrun
    obtain ⟨_, -, _, -, l₃, hfee, _, -, hp'⟩ := hrun
    obtain ⟨-, rfl⟩ := Prod.mk.inj hp'
    -- the account may be created, the fee paid, and the registry is written: each respects `p`
    exact ((initIfNeeded_respects hp hne hinit).trans (collectFee_respects hp hfee)).trans
      (exitAccount_respects hne hexit)
  | recoverRegistry keyKind pubkeyBytes credentialId =>
    simp only [execute, returns_bind] at h
    obtain ⟨ctx, -, r, -, hexit⟩ := h
    exact exitAccount_respects hne hexit
  | addPasskey keyKind pubkeyBytes credentialId =>
    simp only [execute, returns_bind] at h
    obtain ⟨ctx, -, ⟨r, l₁⟩, hrun, hexit⟩ := h
    simp only [addPasskey, returns_bind, returns_pure] at hrun
    obtain ⟨_, -, _, -, _, -, l₂, hfee, _, -, hp'⟩ := hrun
    obtain ⟨-, rfl⟩ := Prod.mk.inj hp'
    exact (collectFee_respects hp hfee).trans (exitAccount_respects hne hexit)
  | removePasskey credentialId =>
    simp only [execute, returns_bind] at h
    obtain ⟨ctx, -, r, -, hexit⟩ := h
    exact exitAccount_respects hne hexit
  | recordProof proof =>
    simp only [execute, returns_bind, returns_pure] at h
    obtain ⟨_, -, _, -, rfl⟩ := h
    exact .refl p l
  | enforce policy =>
    obtain ⟨hkept, hdata⟩ := enforce_frame h
    exact
      { keeps := fun k hk => ⟨(hkept k).2.trans hk, hdata k fun heq => hne (heq.symm.trans hk)⟩
        arrives := fun k hk hk' => absurd ((hkept k).2.symm.trans hk') hk
        credits := fun k _ => UInt64.le_of_eq (hkept k).1.symm }

/-- To the accounts of another program an invocation is any other's. -/
theorem process_respects {data : Bytes} (hp : p ≠ systemProgramId) (hne : d.programId ≠ p)
    (h : (process d env accounts data l).Returns l') : Ledger.Respects p l l' := by
  obtain ⟨ix, -, hrun⟩ := returns_bind.mp h
  exact execute_respects hp hne hrun

end Trana.Guard
