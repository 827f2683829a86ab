import Trana.Lib.Payments
import Trana.Solana.Anchor

/-!
# Lamports as balances

What the system program and the framework do to lamports, as payments. Lamports
are 64-bit numbers; every operation here checks its funds and its credit, so
seen from a whole operation they are natural numbers and no wrapping shows.

Creating an account pays what its address lacks, not the whole minimum: an
address can be funded by anyone before it is an account, and the creator then
owes less, or nothing. `rentDue` is that difference. Who can pay is a wallet, an
account of the system program without data, and a payment of nothing needs no
wallet at all.

* `transfer_settles` — a transfer is one payment.
* `initAccount_settles`, `initAccount_exempt` — initialising pays what the account
  lacks to be rent exempt, and no more.
* `PaidBy` — all payments of a list come from one wallet.
* `transfer_succeeds`, `initAccount_succeeds` — what they need.
-/

namespace Trana.Solana

open Trana.Lib Trana.Lib.Exec

/-- The lamports of every address, as numbers. -/
def lamportsOf (l : Ledger) (k : Pubkey) : ℕ := (l k).lamports.toNat

section Settles

variable {l l' : Ledger} {payer key dst owner : Pubkey} {minimumBalance : Nat → UInt64}
  {space : Nat}

/-- Balances after one account was replaced. -/
theorem lamportsOf_set (l : Ledger) (key : Pubkey) (a : Account) :
    lamportsOf (l.set key a) = Function.update (lamportsOf l) key a.lamports.toNat := by
  funext k
  by_cases hk : k = key
  · rw [hk, Function.update_self, lamportsOf, Ledger.set_self]
  · rw [Function.update_of_ne hk, lamportsOf, Ledger.set_of_ne _ hk, lamportsOf]

/-- Writing owner or data moves nothing. -/
theorem lamportsOf_set_same {a : Account} (h : a.lamports = (l key).lamports) :
    lamportsOf (l.set key a) = lamportsOf l := by
  rw [lamportsOf_set, h]
  exact Function.update_eq_self key (lamportsOf l)

/-- Taking lamports from one account and adding them to another, both checked. -/
theorem move_settles {amount : UInt64} (hfunds : amount ≤ (l payer).lamports)
    (hcredit : ((l.set payer { l payer with lamports := (l payer).lamports - amount })
      dst).lamports.toNat + amount.toNat < 2 ^ 64) :
    let debited := l.set payer { l payer with lamports := (l payer).lamports - amount }
    Settles (lamportsOf l)
      (lamportsOf (debited.set dst
        { debited dst with lamports := (debited dst).lamports + amount }))
      [⟨payer, dst, amount.toNat⟩] := by
  intro debited
  have hle : amount.toNat ≤ lamportsOf l payer := UInt64.le_iff_toNat_le.mp hfunds
  have hdebited : lamportsOf debited =
      Function.update (lamportsOf l) payer (lamportsOf l payer - amount.toNat) := by
    rw [lamportsOf_set]
    exact congrArg _ (UInt64.toNat_sub_of_le _ _ hfunds)
  have hcredited : ((debited dst).lamports + amount).toNat =
      lamportsOf debited dst + amount.toNat :=
    (UInt64.toNat_add _ _).trans (Nat.mod_eq_of_lt hcredit)
  have hsettles := settles_transfer dst hle
  rw [lamportsOf_set, hcredited, hdebited]
  exact hsettles

/-- A transfer is one payment. -/
theorem transfer_settles {amount : UInt64} (h : l.transfer payer dst amount = some l') :
    Settles (lamportsOf l) (lamportsOf l') [⟨payer, dst, amount.toNat⟩] := by
  unfold Ledger.transfer at h
  split at h
  next hpayer =>
    dsimp only at h
    split at h
    next hlt =>
      obtain rfl := Option.some.inj h
      exact move_settles hpayer.2.2 hlt
    next => nomatch h
  next => nomatch h

/-- Only a wallet can pay by a transfer. -/
theorem transfer_payer {amount : UInt64} (h : l.transfer payer dst amount = some l') :
    (l payer).owner = systemProgramId := by
  unfold Ledger.transfer at h
  split at h
  next hpayer => exact hpayer.1
  next => nomatch h

/-- The new account cannot pay for itself. -/
theorem initAccount_payer_ne (howner : owner ≠ systemProgramId)
    (h : l.initAccount minimumBalance payer key owner space = some l') :
    payer ≠ key ∧ (l payer).owner = systemProgramId := by
  unfold Ledger.initAccount at h
  dsimp only at h
  split at h
  next =>
    have hpayer := transfer_payer h
    by_cases heq : payer = key
    · rw [heq, Ledger.set_self] at hpayer
      exact absurd hpayer howner
    · rw [Ledger.set_of_ne _ heq] at hpayer
      exact ⟨heq, hpayer⟩
  next => nomatch h

/-- An account is paid for by a wallet. -/
theorem initAccount_payer (howner : owner ≠ systemProgramId)
    (h : l.initAccount minimumBalance payer key owner space = some l') :
    (l payer).owner = systemProgramId :=
  (initAccount_payer_ne howner h).2

/-- All payments are by `w`, and `w` is a wallet if there is anything to pay. -/
def PaidBy (l : Ledger) (w : Pubkey) (ps : List (Payment Pubkey)) : Prop :=
  ∀ p ∈ ps, p.source = w ∧ (0 < p.amount → (l w).owner = systemProgramId)

/-- Nothing to pay. -/
theorem paidBy_nil (l : Ledger) (w : Pubkey) : PaidBy l w [] :=
  fun _ hp => absurd hp List.not_mem_nil

/-- One more payment of the same wallet. -/
theorem PaidBy.cons {w : Pubkey} {p : Payment Pubkey} {ps : List (Payment Pubkey)}
    (hsource : p.source = w) (hwallet : 0 < p.amount → (l w).owner = systemProgramId)
    (h : PaidBy l w ps) : PaidBy l w (p :: ps) :=
  List.forall_mem_cons.mpr ⟨⟨hsource, hwallet⟩, h⟩

/-- An account of a program pays nothing. -/
theorem PaidBy.paid_eq_zero {w k : Pubkey} {ps : List (Payment Pubkey)} (h : PaidBy l w ps)
    (hk : (l k).owner ≠ systemProgramId) : Payment.paid k ps = 0 := by
  induction ps with
  | nil => rfl
  | cons p ps ih =>
    obtain ⟨⟨hsource, hwallet⟩, hps⟩ := List.forall_mem_cons.mp h
    rw [Payment.paid_cons, ih hps, Nat.add_zero]
    split
    next heq =>
      by_contra hpos
      exact hk (heq ▸ hsource ▸ hwallet (Nat.pos_of_ne_zero hpos))
    next => rfl

/-- What the account lacks to be rent exempt, when the system program still has
its address. -/
def rentDue (l : Ledger) (minimumBalance : Nat → UInt64) (key : Pubkey) (space : Nat) : ℕ :=
  if (l key).owner = systemProgramId then
    (minimumBalance space).toNat - (l key).lamports.toNat
  else 0

/-- The three branches of `initAccount` are one truncated difference. -/
theorem toNat_required (current minimum : UInt64) :
    (if current ≤ (if current = 0 then minimum else max minimum 1) then
        (if current = 0 then minimum else max minimum 1) - current
      else 0).toNat = minimum.toNat - current.toNat := by
  have hone : (1 : UInt64).toNat = 1 := rfl
  have hmax : max minimum 1 = if minimum ≤ 1 then 1 else minimum := rfl
  by_cases hzero : current = 0
  · subst hzero
    rw [if_pos rfl, if_pos UInt64.zero_le, UInt64.sub_zero]
    rfl
  · have hpos : 1 ≤ current.toNat := by
      rw [Nat.one_le_iff_ne_zero]
      exact fun h => hzero (UInt64.toNat_inj.mp h)
    rw [if_neg hzero, hmax]
    by_cases hmin : minimum ≤ 1
    · rw [if_pos hmin]
      rw [UInt64.le_iff_toNat_le, hone] at hmin
      split
      next hle =>
        rw [UInt64.toNat_sub_of_le _ _ hle]
        omega
      next =>
        rw [UInt64.toNat_zero]
        omega
    · rw [if_neg hmin]
      split
      next hle => exact UInt64.toNat_sub_of_le _ _ hle
      next hlt =>
        rw [UInt64.le_iff_toNat_le] at hlt
        rw [UInt64.toNat_zero]
        omega

/-- Initialising an account is the payment of what it lacks to be rent exempt. -/
theorem initAccount_settles
    (h : l.initAccount minimumBalance payer key owner space = some l') :
    Settles (lamportsOf l) (lamportsOf l') [⟨payer, key, rentDue l minimumBalance key space⟩] := by
  unfold Ledger.initAccount at h
  dsimp only at h
  split at h
  next hsys =>
    have hsettles := transfer_settles h
    have hsame : lamportsOf (l.set key { l key with owner, data := List.replicate space 0 }) =
        lamportsOf l := lamportsOf_set_same rfl
    rw [hsame] at hsettles
    rw [rentDue, if_pos hsys.1]
    rwa [toNat_required] at hsettles
  next => nomatch h

/-- What was initialised is rent exempt. -/
theorem initAccount_exempt (howner : owner ≠ systemProgramId)
    (h : l.initAccount minimumBalance payer key owner space = some l') :
    (minimumBalance space).toNat ≤ lamportsOf l' key := by
  obtain ⟨hne, -⟩ := initAccount_payer_ne howner h
  obtain ⟨hsys, -⟩ := Ledger.initAccount_frame h
  have hsettles := initAccount_settles h key
  rw [rentDue, if_pos hsys] at hsettles
  simp only [Payment.paid_cons, Payment.received_cons, Payment.paid_nil, Payment.received_nil,
    if_neg hne, if_true, lamportsOf] at hsettles ⊢
  omega

/-- What `init_if_needed` finds it pays nothing for. -/
theorem initIfNeeded_settles {α ε ℓ : Type} {t : AccountLayout α} {programId : Pubkey} {x : α}
    (hne : programId ≠ systemProgramId)
    (h : (initIfNeeded t programId minimumBalance payer key l : ProgramExec ε ℓ _).Returns
      (x, l')) :
    Settles (lamportsOf l) (lamportsOf l')
      [⟨payer, key, rentDue l minimumBalance key t.space⟩] := by
  rcases initIfNeeded_spec h with ⟨hfound, rfl⟩ | ⟨-, hinit, -⟩
  · have howner := (accountAt_eq_some.mp hfound).1
    rw [rentDue, if_neg fun heq => hne (howner.symm.trans heq)]
    exact settles_zero _ _ _
  · exact initAccount_settles hinit

/-- `init_if_needed` has nothing to pay, or a wallet that pays. -/
theorem initIfNeeded_payer {α ε ℓ : Type} {t : AccountLayout α} {programId : Pubkey} {x : α}
    (hne : programId ≠ systemProgramId)
    (h : (initIfNeeded t programId minimumBalance payer key l : ProgramExec ε ℓ _).Returns
      (x, l')) :
    (l' = l ∧ rentDue l minimumBalance key t.space = 0) ∨ (l payer).owner = systemProgramId := by
  rcases initIfNeeded_spec h with ⟨hfound, rfl⟩ | ⟨-, hinit, -⟩
  · have howner := (accountAt_eq_some.mp hfound).1
    exact Or.inl ⟨rfl, if_neg fun heq => hne (howner.symm.trans heq)⟩
  · exact Or.inr (initAccount_payer hne hinit)

/-- Writing an account back moves nothing. -/
theorem exitAccount_lamports {α ε ℓ : Type} {t : AccountLayout α} {programId : Pubkey} {x : α}
    (h : (exitAccount t programId key x l : ProgramExec ε ℓ Ledger).Returns l') :
    lamportsOf l' = lamportsOf l := by
  unfold exitAccount at h
  rw [returns_ite] at h
  rcases h with ⟨-, h⟩ | ⟨-, h⟩
  · simp only [returns_bind, returns_okOr, returns_pure] at h
    obtain ⟨data, -, rfl⟩ := h
    exact lamportsOf_set_same rfl
  · rw [returns_pure.mp h]

/-! ## When they go through -/

/-- The payer has it and may pay it, and the receiver has room for it. -/
structure Affords (l : Ledger) (payer dst : Pubkey) (lamports : UInt64) : Prop where
  owner : (l payer).owner = systemProgramId
  data : (l payer).data = []
  covered : lamports ≤ (l payer).lamports
  room : dst ≠ payer → (l dst).lamports.toNat + lamports.toNat < 2 ^ 64

/-- A payment to oneself has room. -/
theorem Affords.credit {lamports : UInt64} (h : Affords l payer dst lamports) :
    ((l.set payer { l payer with lamports := (l payer).lamports - lamports }) dst).lamports.toNat +
      lamports.toNat < 2 ^ 64 := by
  by_cases hself : dst = payer
  · subst hself
    have hle := UInt64.le_iff_toNat_le.mp h.covered
    have hlt := (l dst).lamports.toNat_lt
    rw [Ledger.set_self, UInt64.toNat_sub_of_le _ _ h.covered]
    omega
  · rw [Ledger.set_of_ne _ hself]
    exact h.room hself

/-- What a transfer needs. -/
theorem transfer_succeeds {lamports : UInt64} :
    (∃ l', l.transfer payer dst lamports = some l') ↔ Affords l payer dst lamports := by
  constructor
  · intro h
    obtain ⟨l', h⟩ := h
    unfold Ledger.transfer at h
    split at h
    next hpays =>
      dsimp only at h
      split at h
      next hroom =>
        refine ⟨hpays.1, hpays.2.1, hpays.2.2, fun hne => ?_⟩
        rwa [Ledger.set_of_ne _ hne] at hroom
      next => nomatch h
    next => nomatch h
  · intro h
    unfold Ledger.transfer
    rw [if_pos ⟨h.owner, h.data, h.covered⟩]
    dsimp only
    rw [if_pos h.credit]
    exact ⟨_, rfl⟩

/-- A vacant address of which the payer can pay the rent. -/
structure CanInit (l : Ledger) (minimumBalance : Nat → UInt64) (payer key : Pubkey)
    (space : Nat) : Prop where
  vacant : (l key).owner = systemProgramId
  empty : (l key).data = []
  apart : payer ≠ key
  owner : (l payer).owner = systemProgramId
  data : (l payer).data = []
  covered : rentDue l minimumBalance key space ≤ lamportsOf l payer

/-- What creating an account needs. -/
theorem initAccount_succeeds (howner : owner ≠ systemProgramId) :
    (∃ l', l.initAccount minimumBalance payer key owner space = some l') ↔
      CanInit l minimumBalance payer key space := by
  constructor
  · intro h
    obtain ⟨l', h⟩ := h
    obtain ⟨hne, hpayer⟩ := initAccount_payer_ne howner h
    unfold Ledger.initAccount at h
    dsimp only at h
    split at h
    next hsys =>
      have haffords := transfer_succeeds.mp ⟨l', h⟩
      have hdata := haffords.data
      have hcovered := UInt64.le_iff_toNat_le.mp haffords.covered
      rw [toNat_required, Ledger.set_of_ne _ hne] at hcovered
      rw [Ledger.set_of_ne _ hne] at hdata
      refine ⟨hsys.1, hsys.2, hne, hpayer, hdata, ?_⟩
      rwa [rentDue, if_pos hsys.1]
    next => nomatch h
  · intro h
    have hcovered := h.covered
    rw [rentDue, if_pos h.vacant] at hcovered
    unfold Ledger.initAccount
    dsimp only
    rw [if_pos ⟨h.vacant, h.empty⟩]
    refine transfer_succeeds.mpr ⟨?_, ?_, ?_, fun _ => ?_⟩
    · rw [Ledger.set_of_ne _ h.apart]
      exact h.owner
    · rw [Ledger.set_of_ne _ h.apart]
      exact h.data
    · rw [UInt64.le_iff_toNat_le, toNat_required, Ledger.set_of_ne _ h.apart]
      exact hcovered
    · -- up to the minimum, or nothing at all
      have hcurrent := (l key).lamports.toNat_lt
      have hminimum := (minimumBalance space).toNat_lt
      rw [toNat_required, Ledger.set_self]
      show (l key).lamports.toNat + _ < _
      omega

end Settles

end Trana.Solana
