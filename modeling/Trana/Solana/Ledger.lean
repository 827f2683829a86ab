import Mathlib.Logic.Function.Basic
import Trana.Solana.Types

/-!
# Accounts and the ledger

The accounts of the chain, the two system-program operations the programs
call, and what the runtime allows everybody else to do to a program's
accounts.

A ledger is a function on addresses, so there is no account to be missing: an
address nobody has funded holds an empty account of the system program, which is
how the runtime sees it too. Lamports are 64-bit numbers, and a credit that would
overflow fails, as it does on chain.

Between two instructions of a program anything may happen to the ledger that the
runtime allows. `External` and `Respects` are that, taken from the runtime's rules
for accounts: only the owner changes an account's data or debits it, and an
account can only be given to a new owner with its data zeroed. Every result about
runs quantifies over such stretches, so none depends on what other programs do.

* `transfer_frame` — a transfer moves lamports and nothing else.
* `initAccount_frame` — a new account, and everything else as it was.
* `External`, `Respects` — a stretch of execution in which program `p` did not
  run: its accounts keep their data and are not debited, and an account handed
  to it arrives zeroed.
* `Genesis` — a ledger on which the program has stored nothing yet.
-/

namespace Trana.Solana

open Trana.Lib

/-- What the programs look at of an account: there is no executable flag, and no
epoch at which rent is due. -/
structure Account where
  lamports : UInt64
  owner : Pubkey
  data : Bytes

/-- Every address has an account; an absent one is empty, without lamports and
owned by the system program. -/
abbrev Ledger := Pubkey → Account

namespace Ledger

/-- Replace one account. -/
def set (l : Ledger) (key : Pubkey) (a : Account) : Ledger := Function.update l key a

@[simp] theorem set_self (l : Ledger) (key : Pubkey) (a : Account) : l.set key a key = a :=
  Function.update_self ..

/-- The other accounts are as they were. -/
theorem set_of_ne {l : Ledger} {key k : Pubkey} (a : Account) (h : k ≠ key) :
    l.set key a k = l k :=
  Function.update_of_ne h ..

/-- Owner and data agree at every address: at most lamports differ. -/
def SameState (l l' : Ledger) : Prop := ∀ k, (l' k).owner = (l k).owner ∧ (l' k).data = (l k).data

/-- Nothing happened. -/
theorem SameState.refl (l : Ledger) : SameState l l := fun _ => ⟨rfl, rfl⟩

/-- Two stretches that move lamports only are one. -/
theorem SameState.trans {l₁ l₂ l₃ : Ledger} (h : SameState l₁ l₂) (h' : SameState l₂ l₃) :
    SameState l₁ l₃ :=
  fun k => ⟨(h' k).1.trans (h k).1, (h' k).2.trans (h k).2⟩

/-- New lamports for one account. -/
theorem SameState.set_lamports (l : Ledger) (key : Pubkey) (lamports : UInt64) :
    SameState l (l.set key { l key with lamports }) := by
  intro k
  by_cases hk : k = key
  · subst hk
    rw [set_self]
    exact ⟨rfl, rfl⟩
  · rw [set_of_ne _ hk]
    exact ⟨rfl, rfl⟩

/-- `system_program::transfer`. The payer must be an account of the system
program without data and hold the amount; the credit must not overflow. -/
def transfer (l : Ledger) (payer dst : Pubkey) (lamports : UInt64) : Option Ledger :=
  if (l payer).owner = systemProgramId ∧ (l payer).data = [] ∧ lamports ≤ (l payer).lamports then
    let debited := l.set payer { l payer with lamports := (l payer).lamports - lamports }
    -- the source may be the destination, so the credit is read after the debit
    if (debited dst).lamports.toNat + lamports.toNat < 2 ^ 64 then
      some (debited.set dst { debited dst with lamports := (debited dst).lamports + lamports })
    else none
  else none

/-- A transfer moves lamports and nothing else. -/
theorem transfer_frame {l l' : Ledger} {payer dst : Pubkey} {lamports : UInt64}
    (h : l.transfer payer dst lamports = some l') : SameState l l' := by
  unfold transfer at h
  split at h
  next =>
    dsimp only at h
    split at h
    next =>
      obtain rfl := Option.some.inj h
      exact (SameState.set_lamports l payer _).trans (SameState.set_lamports _ dst _)
    next => nomatch h
  next => nomatch h

/-- What an Anchor `init` does: fund the account up to the rent minimum,
allocate `space` zero bytes and assign it. Only an empty account of the system
program can be initialised. -/
def initAccount (l : Ledger) (minimumBalance : Nat → UInt64) (payer key owner : Pubkey)
    (space : Nat) : Option Ledger :=
  let current := (l key).lamports
  -- lamports sent to the address beforehand count towards the minimum
  let target := if current = 0 then minimumBalance space else max (minimumBalance space) 1
  let required := if current ≤ target then target - current else 0
  if (l key).owner = systemProgramId ∧ (l key).data = [] then
    (l.set key { l key with owner, data := List.replicate space 0 }).transfer payer key required
  else none

/-- The initialised account, and everything else as it was. -/
theorem initAccount_frame {l l' : Ledger} {minimumBalance : Nat → UInt64}
    {payer key owner : Pubkey} {space : Nat}
    (h : l.initAccount minimumBalance payer key owner space = some l') :
    (l key).owner = systemProgramId ∧
    SameState (l.set key { l key with owner, data := List.replicate space 0 }) l' := by
  unfold initAccount at h
  dsimp only at h
  split at h
  next hsys => exact ⟨hsys.1, fun k => transfer_frame h k⟩
  next => nomatch h

/-- Other programs ran: accounts of program `p` keep owner and data, and what
was assigned to it meanwhile holds only zeros. -/
structure External (p : Pubkey) (l l' : Ledger) : Prop where
  keeps : ∀ k, (l k).owner = p → (l' k).owner = p ∧ (l' k).data = (l k).data
  arrives : ∀ k, (l k).owner ≠ p → (l' k).owner = p → ∀ b ∈ (l' k).data, b = 0

/-- The same, and no account of `p` was debited: only its owner can do that. -/
structure Respects (p : Pubkey) (l l' : Ledger) : Prop extends External p l l' where
  credits : ∀ k, (l k).owner = p → (l k).lamports ≤ (l' k).lamports

section Respects

variable {p : Pubkey} {l l' l'' : Ledger}

/-- Who only moves lamports touches nobody's data. -/
theorem External.of_sameState (h : SameState l l') : External p l l' where
  keeps k hk := ⟨(h k).1.trans hk, (h k).2⟩
  arrives k hk hk' := absurd ((h k).1.symm.trans hk') hk

/-- Two stretches without program `p` are one: what arrived in the first is all
zeros, and the second leaves it so. -/
theorem External.trans (h : External p l l') (h' : External p l' l'') : External p l l'' where
  keeps k hk := by
    obtain ⟨howner, hdata⟩ := h.keeps k hk
    obtain ⟨howner', hdata'⟩ := h'.keeps k howner
    exact ⟨howner', hdata'.trans hdata⟩
  arrives k hk hk'' := by
    by_cases hk' : (l' k).owner = p
    · rw [(h'.keeps k hk').2]
      exact h.arrives k hk hk'
    -- all zeros, so a type with a discriminator has no value there
    · exact h'.arrives k hk' hk''

/-- Nothing happened. -/
theorem Respects.refl (p : Pubkey) (l : Ledger) : Respects p l l where
  toExternal := .of_sameState (.refl l)
  credits _ _ := UInt64.le_refl _

/-- Two stretches without program `p` are one. -/
theorem Respects.trans (h : Respects p l l') (h' : Respects p l' l'') : Respects p l l'' where
  toExternal := h.toExternal.trans h'.toExternal
  credits k hk := UInt64.le_trans (h.credits k hk) (h'.credits k (h.keeps k hk).1)

/-- Writing to an account of another program. -/
theorem Respects.set {key : Pubkey} {a : Account} (h : (l key).owner ≠ p) (h' : a.owner ≠ p) :
    Respects p l (l.set key a) where
  keeps k hk := by
    have hne : k ≠ key := fun heq => h (heq ▸ hk)
    rw [set_of_ne _ hne]
    exact ⟨hk, rfl⟩
  arrives k hk hk' := by
    by_cases heq : k = key
    · rw [heq, set_self] at hk'
      exact absurd hk' h'
    · rw [set_of_ne _ heq] at hk'
      exact absurd hk' hk
  credits k hk := by
    have hne : k ≠ key := fun heq => h (heq ▸ hk)
    rw [set_of_ne _ hne]
    exact UInt64.le_refl _

/-- Crediting any account. -/
theorem Respects.credit {key : Pubkey} {lamports : UInt64} (h : (l key).lamports ≤ lamports) :
    Respects p l (l.set key { l key with lamports }) where
  toExternal := .of_sameState (.set_lamports l key lamports)
  credits k _ := by
    by_cases heq : k = key
    · rw [heq, set_self]
      exact h
    · rw [set_of_ne _ heq]
      exact UInt64.le_refl _

/-- A sum that does not overflow is no smaller. -/
theorem le_add_of_lt {a b : UInt64} (h : a.toNat + b.toNat < 2 ^ 64) : a ≤ a + b := by
  rw [UInt64.le_iff_toNat_le, UInt64.toNat_add, Nat.mod_eq_of_lt h]
  omega

/-- The payer of a transfer belongs to the system program. -/
theorem transfer_respects {payer dst : Pubkey} {lamports : UInt64} (hp : p ≠ systemProgramId)
    (h : l.transfer payer dst lamports = some l') : Respects p l l' := by
  unfold transfer at h
  split at h
  next hpayer =>
    have hne : (l payer).owner ≠ p := fun heq => hp (heq.symm.trans hpayer.1)
    dsimp only at h
    split at h
    next hlt =>
      obtain rfl := Option.some.inj h
      have hdebit : Respects p l
          (l.set payer { l payer with lamports := (l payer).lamports - lamports }) :=
        .set hne hne
      exact hdebit.trans (.credit (le_add_of_lt hlt))
    next => nomatch h
  next => nomatch h

/-- An account that is no wallet is credited with the whole amount. -/
theorem transfer_credit {payer dst : Pubkey} {lamports : UInt64}
    (hdst : (l dst).owner ≠ systemProgramId) (h : l.transfer payer dst lamports = some l') :
    (l' dst).lamports.toNat = (l dst).lamports.toNat + lamports.toNat := by
  unfold transfer at h
  split at h
  next hpayer =>
    have hne : dst ≠ payer := fun heq => hdst (heq ▸ hpayer.1)
    dsimp only at h
    rw [set_of_ne _ hne] at h
    split at h
    next hlt =>
      obtain rfl := Option.some.inj h
      rw [set_self]
      exact (UInt64.toNat_add _ _).trans (Nat.mod_eq_of_lt hlt)
    next => nomatch h
  next => nomatch h

/-- So does an address before it is initialised for another program. -/
theorem initAccount_respects {minimumBalance : Nat → UInt64} {payer key owner : Pubkey}
    {space : Nat} (hp : p ≠ systemProgramId) (howner : owner ≠ p)
    (h : l.initAccount minimumBalance payer key owner space = some l') : Respects p l l' := by
  unfold initAccount at h
  dsimp only at h
  split at h
  next hsys =>
    exact (Respects.set (fun heq => hp (heq.symm.trans hsys.1)) howner).trans
      (transfer_respects hp h)
  next => nomatch h

/-- Initialising debits no account but a wallet. -/
theorem initAccount_credits {minimumBalance : Nat → UInt64} {payer key owner k : Pubkey}
    {space : Nat} (h : l.initAccount minimumBalance payer key owner space = some l')
    (hk : (l k).owner ≠ systemProgramId) : (l k).lamports ≤ (l' k).lamports := by
  unfold initAccount at h
  dsimp only at h
  split at h
  next hsys =>
    have hne : k ≠ key := fun heq => hk (heq ▸ hsys.1)
    have hrespects := transfer_respects hk h
    have hset : l.set key { l key with owner, data := List.replicate space 0 } k = l k :=
      set_of_ne _ hne
    rw [← hset]
    exact hrespects.credits k (congrArg Account.owner hset)
  next => nomatch h

end Respects

/-- Before the first run of program `p`, its accounts hold only zeros. -/
def Genesis (p : Pubkey) (l : Ledger) : Prop := ∀ k, (l k).owner = p → ∀ b ∈ (l k).data, b = 0

end Ledger

end Trana.Solana
