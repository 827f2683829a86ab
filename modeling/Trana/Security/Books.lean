import Trana.Security.ExactBalances
import Trana.Vault.Settlement

/-!
# The books of the chain

The payments of the calls of a run, guard and vault together, explain every
lamport that moves. From them follows what a pool holds, to the lamport.

* `chain_books` — double entry over a run, the total, and who can lose anything.
* `pool_books` — a pool holds what it was created with, its users' balances, and
  what others gave it.

A payment is listed by who pays whom and how much, and a call's list is read off
its accounts and arguments, not off what the ledger shows afterwards; that the
ledger moves by exactly these is what `Vault.Settlement` and `Solana.Settlement`
prove of one call, and what is carried here over a run.

Steps of other programs may do to the ledger what they like. `Untouched` says of
one account that they leave its lamports alone, and it is asked for only where
the account is named; the total asks of them that they create and destroy
nothing. Transaction fees are not part of any call and so not on the books: a
run is one of instructions, and its fees belong to the other steps.

A gift is a withdrawal, from this pool or another, whose destination is the
pool, or a payment that a guard call makes to it, such as a fee when the pool is
the treasury.
-/

namespace Trana.Security

open Trana.Lib Trana.Lib.Exec Trana.Solana Trana.Vault

/-- Other programs leave the lamports of `k` alone. -/
def Untouched (k : Pubkey) (t : Vault.Moment) : Prop :=
  t.label = .other → (t.after k).lamports = (t.before k).lamports

/-- All lamports there are. -/
noncomputable def supply (l : Ledger) : ℕ := ∑ k, lamportsOf l k

section Books

variable {d : Vault.Deployment} {t : Vault.Moment}

theorem payments_other (h : t.label = .other) : payments d t = [] := by
  rw [payments, h]

/-- A step makes its payments, as far as an untouched account can see. -/
theorem books_step (h : Vault.Step d t.before t.label t.after) {k : Pubkey}
    (huntouched : Untouched k t) :
    lamportsOf t.after k + Payment.paid k (payments d t) =
      lamportsOf t.before k + Payment.received k (payments d t) := by
  by_cases hother : t.label = .other
  · rw [payments_other hother]
    exact congrArg UInt64.toNat (huntouched hother)
  · exact step_settles h hother k

end Books

/-- Over every run of the chain: an account that other programs leave alone has
at the end what it had, what it received and not what it paid; the supply is
what it was, as far as other programs keep it; and an account loses lamports in
a step only when it signed the call, or as the pool of a withdrawal that the
record's owner signed. -/
theorem chain_books {d : Vault.Deployment} {l l' : Ledger} {trace : List Vault.Moment}
    (hrun : Run (Vault.Step d) l trace l') :
    (∀ k, (∀ t ∈ trace, Untouched k t) →
      lamportsOf l' k + Payment.paid k (trace.flatMap (payments d)) =
        lamportsOf l k + Payment.received k (trace.flatMap (payments d))) ∧
    ((∀ t ∈ trace, t.label = .other → supply t.after = supply t.before) →
      supply l' = supply l) ∧
    ∀ t ∈ trace, t.label ≠ .other → ∀ k, lamportsOf t.after k < lamportsOf t.before k →
      Spends d t k := by
  refine ⟨fun k huntouched => ?_, fun hothers => ?_, fun t ht hown k hlt => ?_⟩
  · exact settles_run (lamportsOf · k) hrun fun t ht =>
      books_step (hrun.step t ht) (huntouched t ht)
  · refine hrun.stays (P := fun l₁ => supply l₁ = supply l) rfl fun t ht hbefore => ?_
    by_cases hother : t.label = .other
    · exact (hothers t ht hother).trans hbefore
    · exact (step_settles (hrun.step t ht) hother).total.trans hbefore
  · obtain ⟨p, hp, rfl⟩ := (step_settles (hrun.step t ht) hown).paid_of_lt hlt
    exact spender_signed (hrun.step t ht) hp

/-! ## Gifts -/

/-- What a step brings to a pool without a deposit: a withdrawal sent to it, or
a fee when it is the treasury. -/
def gifts (d : Vault.Deployment) (pool : Pubkey) (t : Vault.Moment) : ℕ :=
  match t.label with
  | .vault c =>
    match (parseInstruction c.data).result, c.accounts with
    | .ok (.withdraw amount), _ :: _ :: _ :: destination :: _ =>
      if destination.pubkey = pool then amount.toNat else 0
    | _, _ => 0
  | .guard c => Payment.received pool (c.payments d.guard t.before)
  | .rolledBack => 0
  | .other => 0

section Pool

variable {d : Vault.Deployment} {l l' : Ledger} {pool : Pubkey} {p : Pool}
  {trace : List Vault.Moment}

theorem gifts_vault {c : Guard.Call} {ix : VaultInstruction}
    (hix : (parseInstruction c.data).Returns ix) (h : ∀ amount, ix ≠ .withdraw amount) :
    gifts d pool ⟨l, .vault c, l'⟩ = 0 := by
  rw [Returns] at hix
  simp only [gifts, hix]
  split
  next heq _ => exact absurd (Except.ok.inj heq) (h _)
  next => rfl

/-- Seen from a pool, lamports move with the bank's deposits and withdrawals, and
by gifts. -/
theorem pool_step_books {t : Vault.Moment} (h : Vault.Step d t.before t.label t.after)
    (hp : poolAt t.before pool = some p) (huntouched : Untouched pool t) :
    lamportsOf t.after pool + (opOf pool t.label).outflow =
      lamportsOf t.before pool + (opOf pool t.label).inflow + gifts d pool t := by
  have howner := (accountAt_eq_some.mp hp).1
  obtain ⟨l, a, l'⟩ := t
  cases h with
  | rolledBack => rfl
  | other h => exact congrArg UInt64.toNat (huntouched rfl)
  | @guard _ c h =>
    have hsettles := Guard.call_settles h pool
    -- the guard takes lamports from signers of the system program only
    rw [Guard.paid_eq_zero h (owner_ne_system howner)] at hsettles
    exact hsettles
  | @vault _ c h =>
    obtain ⟨ix, hix, hrun⟩ := returns_bind.mp h
    dsimp only at hp howner hrun ⊢
    cases ix with
    | initializePool kind label =>
      obtain ⟨ctx, l₁, hctx, hinit⟩ := initializePool_effect hrun
      obtain ⟨m₁, m₂, rest, hc, hkey, -, -⟩ := initializePool_accounts hctx
      have hsettles := initializePool_settles hrun pool
      -- a pool's address is in use, so it is not the one being created
      have hcredits := UInt64.le_iff_toNat_le.mp (hinit.credits pool howner)
      have hne : m₁.pubkey ≠ pool := fun heq =>
        owner_ne_system howner (heq ▸ hkey ▸ hinit.fresh)
      rw [hc] at hsettles
      simp only [VaultInstruction.payments, Payment.paid_cons, Payment.received_cons,
        Payment.paid_nil, Payment.received_nil, if_neg hne] at hsettles
      rw [opOf_initializePool hix, gifts_vault hix (by simp)]
      simp only [Bank.Op.outflow, Bank.Op.inflow, lamportsOf] at hsettles ⊢
      omega
    | deposit amount =>
      obtain ⟨ctx, l₁, hctx, heffect⟩ := deposit_effect hrun
      obtain ⟨m₁, m₂, m₃, rest, hc, hpool, hrecord, -, -⟩ := deposit_accounts hctx
      have hsettles := deposit_settles hrun pool
      have hcredits := UInt64.le_iff_toNat_le.mp (heffect.credits pool howner)
      -- nor can it be the record's, which is of another kind
      have hne : m₂.pubkey ≠ pool := by
        intro heq
        rw [hrecord] at heq
        rcases heffect.record with hud | ⟨hsys, -⟩
        · exact ne_of_poolAt hp hud heq.symm
        · exact owner_ne_system howner (heq ▸ hsys)
      rw [hc] at hsettles
      simp only [VaultInstruction.payments, Payment.paid_cons, Payment.received_cons,
        Payment.paid_nil, Payment.received_nil, if_neg hne, hpool] at hsettles
      rw [opOf_deposits ⟨rfl, hix, l₁, hctx⟩, gifts_vault hix (by simp)]
      by_cases hthis : ctx.poolKey = pool
      · have hcredited := heffect.pool_credited
        rw [hthis] at hcredited
        rw [if_pos hthis] at hsettles ⊢
        simp only [Bank.Op.outflow, Bank.Op.inflow, lamportsOf] at hsettles ⊢
        omega
      · rw [if_neg hthis] at hsettles ⊢
        simp only [Bank.Op.outflow, Bank.Op.inflow, lamportsOf] at hsettles ⊢
        omega
    | withdraw amount =>
      obtain ⟨ctx, policy, proofUsed, called, ud, hctx, -⟩ := withdraw_effect hrun
      obtain ⟨m₁, m₂, m₃, m₄, rest, hc, hpool, -, -, -⟩ := withdraw_accounts hctx
      have hsettles := withdraw_settles hrun pool
      -- the destination is paid whatever it is; into the pool itself that is a gift
      have hgifts : gifts d pool ⟨l, .vault c, l'⟩ =
          if m₄.pubkey = pool then amount.toNat else 0 := by
        rw [Returns] at hix
        simp only [gifts, hix, hc]
      rw [hc] at hsettles
      simp only [VaultInstruction.payments, Payment.paid_cons, Payment.received_cons,
        Payment.paid_nil, Payment.received_nil, hpool] at hsettles
      rw [opOf_withdraws ⟨rfl, hix, hctx⟩, hgifts]
      by_cases hthis : ctx.poolKey = pool
      · rw [if_pos hthis] at hsettles ⊢
        simp only [Bank.Op.outflow, Bank.Op.inflow] at hsettles ⊢
        omega
      · rw [if_neg hthis] at hsettles ⊢
        simp only [Bank.Op.outflow, Bank.Op.inflow] at hsettles ⊢
        omega

/-- A pool's lamports and its users' balances move together, gifts apart. -/
theorem pool_run_books {pre post : List Vault.Moment} (hgenesis : Ledger.Genesis vaultId l)
    (hapart : Apart d (pre ++ post)) {l₁ : Ledger} (hpre : Run (Vault.Step d) l pre l₁)
    (hpost : Run (Vault.Step d) l₁ post l') (hp : poolAt l₁ pool = some p)
    (huntouched : ∀ t ∈ post, Untouched pool t) :
    lamportsOf l' pool + ∑ user, balanceOf d pool l₁ user =
      lamportsOf l₁ pool + ∑ user, balanceOf d pool l' user + (post.map (gifts d pool)).sum := by
  obtain ⟨-, hinv⟩ := accounted_run hgenesis hapart (hpre.append hpost)
  have hpools := hpost.stays_at (P := fun l => poolAt l pool = some p) hp fun t ht =>
    pool_step (hpost.step t ht)
  refine hpost.telescope (f := fun l => lamportsOf l pool)
    (g := fun l => ∑ user, balanceOf d pool l user) fun t ht => ?_
  have ht' : t ∈ pre ++ post := List.mem_append_right _ ht
  have hbank : Bank.Step (balanceOf d pool t.before) (opOf pool t.label)
      (balanceOf d pool t.after) := bank_step ht' hapart (hpost.step t ht) (hinv t ht').1
  have htotal := Bank.total_step hbank
  have hlamports := pool_step_books (hpost.step t ht) (hpools t ht).1 (huntouched t ht)
  omega

/-- Nobody has a balance in a pool that has just been created. -/
theorem balanceOf_created {t : Vault.Moment} {c : Guard.Call} {ctx : InitializePool}
    (hinv : Accounted d trace t.before) (h : Vault.Step d t.before t.label t.after)
    (hcreates : Creates d t.before t.label c ctx) (user : Pubkey) :
    balanceOf d ctx.pool t.after user = 0 := by
  have hinit := hcreates.initialized h
  rw [balanceOf, heldAt_congr (hinit.quiet.records _)]
  cases hud : depositAt t.before (d.findDeposit ctx.pool user).1 with
  | none => exact heldAt_none hud
  | some ud =>
    refine heldAt_of_ne hud fun heq => ?_
    obtain ⟨-, p, hp⟩ := hinv.backed _ ud hud
    rw [heq.1] at hp
    exact owner_ne_system (accountAt_eq_some.mp hp).1 hinit.fresh

end Pool

/-- A pool holds what it was created with, what its users' balances add up to
and what it was given, to the lamport. -/
theorem pool_books {d : Vault.Deployment} {l₀ l : Ledger} {pre post : List Vault.Moment}
    {t : Vault.Moment} {c : Guard.Call} {ctx : InitializePool}
    (hgenesis : Ledger.Genesis vaultId l₀) (hapart : Apart d (pre ++ t :: post))
    (hrun : Run (Vault.Step d) l₀ (pre ++ t :: post) l)
    (hcreates : Creates d t.before t.label c ctx)
    (huntouched : ∀ u ∈ post, Untouched ctx.pool u) :
    lamportsOf l ctx.pool = lamportsOf t.after ctx.pool + ∑ user, balanceOf d ctx.pool l user +
      (post.map (gifts d ctx.pool)).sum := by
  obtain ⟨hpre, hstep, hpost⟩ := hrun.split
  obtain ⟨-, hinv⟩ := accounted_run hgenesis hapart hrun
  have ht : t ∈ pre ++ t :: post := List.mem_append_right _ (List.mem_cons_self ..)
  obtain ⟨p, hp⟩ := (hcreates.initialized hstep).stored
  have happend : pre ++ t :: post = (pre ++ [t]) ++ post := by simp
  have hcreated : Run (Vault.Step d) l₀ (pre ++ [t]) t.after :=
    hpre.append (.cons hstep (.nil _))
  rw [happend] at hapart
  have hbooks := pool_run_books hgenesis hapart hcreated hpost hp huntouched
  have hzero : ∑ user, balanceOf d ctx.pool t.after user = 0 :=
    Finset.sum_eq_zero fun user _ => balanceOf_created (hinv t ht).1 hstep hcreates user
  omega

section Localnet

open Sdk.Localnet

/-- No other program runs in between. -/
theorem untouched_pool {trace : List Vault.Moment}
    (hlabels : trace.map Transition.label = poolLabels) {t : Vault.Moment} (ht : t ∈ trace) :
    t.label ≠ .other := by
  have hmem : t.label ∈ poolLabels := hlabels ▸ List.mem_map_of_mem ht
  intro hother
  rw [hother] at hmem
  simp [poolLabels] at hmem

theorem chain_books_localnet : ∃ (trace : List Vault.Moment) (l : Ledger),
    Run (Vault.Step vaultDeployment) genesis trace l ∧
    lamportsOf l poolPda +
        Payment.paid poolPda (trace.flatMap (payments vaultDeployment)) =
      lamportsOf genesis poolPda +
        Payment.received poolPda (trace.flatMap (payments vaultDeployment)) ∧
    supply l = supply genesis := by
  obtain ⟨t, post, l, ctx, hrun, hlabels, -, -⟩ := run_pool
  obtain ⟨hbooks, hsupply, -⟩ := chain_books hrun
  exact ⟨_, l, hrun,
    hbooks poolPda fun t ht hother => absurd hother (untouched_pool hlabels ht),
    hsupply fun t ht hother => absurd hother (untouched_pool hlabels ht)⟩

/-- Two and a half SOL of balances, and no gifts. -/
theorem pool_books_localnet : ∃ (t : Vault.Moment) (post : List Vault.Moment) (l : Ledger),
    Run (Vault.Step vaultDeployment) genesis (t :: post) l ∧
    lamportsOf l poolPda = lamportsOf t.after poolPda +
      ∑ user, balanceOf vaultDeployment poolPda l user +
      (post.map (gifts vaultDeployment poolPda)).sum := by
  obtain ⟨t, post, l, ctx, hrun, hlabels, hcreates, hpool⟩ := run_pool
  have hbooks := pool_books (genesis_of_ne vaultId_ne_system) (apart_wallet hlabels) hrun hcreates
    fun u hu hother => absurd hother
      (untouched_pool hlabels (List.mem_append_right _ (List.mem_cons_of_mem _ hu)))
  rw [hpool] at hbooks
  exact ⟨t, post, l, hrun, hbooks⟩

end Localnet

end Trana.Security
