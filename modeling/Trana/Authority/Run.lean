import Trana.Authority.ProgramSpec
import Trana.Lib.Run

/-!
# Runs of the upgrade-authority program

A run interleaves calls of the program, failed ones included, with calls of the
guard and with what other programs do. A transaction that is rolled back leaves
no steps; up to its failure it is a run as well.

* `Registers`, `Reclaims`, `CallsLoader` — which event a step is.
* `named_step` — every record sits at the PDA of its owner and target.
* `noRecord_step` — a record of an owner and a target comes back by their own
  `register` only.
* `derived_step` — every record has the address and the bump its owner and target
  derive.
* `live_step` — the record of an owner and a target comes with a `register` and
  goes with a reclaim of theirs. The labels `registers` and `reclaims` read the
  call's bytes and accounts only, so that a run can be counted from outside.
* `layout_step` — registries stay in their places.

That different owners and targets derive different addresses is not assumed: two
pairs that shared one could hold one record at a time, and `live_step` is proved
for them as well.
-/

namespace Trana.Authority

open Trana.Lib Trana.Lib.Exec Trana.Solana
open Trana.Guard (Call)

/-- What happens: a call of the program that succeeds or fails, one of the guard, or
anything else. -/
inductive Label where
  | executed (c : Call)
  | failed (c : Call)
  | guard (c : Call)
  | rolledBack
  | other

/-- One step of the chain. -/
inductive Step (d : Deployment) : Ledger → Label → Ledger → Prop where
  | executed {l l' : Ledger} {c : Call} (h : (process d c.env c.accounts c.data l).Returns l') :
    Step d l (.executed c) l'
  | failed {l : Ledger} {c : Call} {e : Fault (ProgramError (ProgramError Guard.GuardError))}
    (h : (process d c.env c.accounts c.data l).result = .error e) : Step d l (.failed c) l
  | guard {l l' : Ledger} {c : Call}
    (h : (Guard.process d.guard c.env c.accounts c.data l).Returns l') : Step d l (.guard c) l'
  | rolledBack (l : Ledger) : Step d l .rolledBack l
  | other {l l' : Ledger} (h : Ledger.External d.programId l l')
    (hguard : Ledger.External d.guard.programId l l') : Step d l .other l'

/-- A step of a run, with the ledgers before and after it. -/
abbrev Moment := Transition Ledger Label

variable {d : Deployment} {l l' : Ledger} {a : Label}

/-! ## Events -/

/-- The step registers this owner and this target. -/
def Registers (d : Deployment) (l : Ledger) (a : Label) (owner target : Pubkey) : Prop :=
  ∃ c ctx l₁, a = .executed c ∧ (parseInstruction c.data).Returns .register ∧
    (Register.tryAccounts d c.env c.accounts l).Returns (ctx, l₁) ∧ ctx.owner = owner ∧
    ctx.target = target

/-- The step reclaims the authority over this target for this owner. -/
def Reclaims (d : Deployment) (l : Ledger) (a : Label) (owner target : Pubkey) : Prop :=
  ∃ c ctx newAuthority, a = .executed c ∧
    (parseInstruction c.data).Returns (.reclaimAuthority newAuthority) ∧
    (ReclaimAuthority.tryAccounts d c.accounts l).Returns ctx ∧ ctx.owner = owner ∧
    ctx.target = target

/-- The step, successful or not, makes this call to the loader. -/
def CallsLoader (d : Deployment) (l : Ledger) (a : Label) (c : Call) (call : SignedCall)
    (mid : Ledger) : Prop :=
  (a = .executed c ∨ a = .failed c) ∧
    Log.invoked call mid ∈ (process d c.env c.accounts c.data l).logs

/-! ## Records along a run -/

/-- What a step does to the records. -/
inductive StepEffect (d : Deployment) (l : Ledger) (a : Label) (l' : Ledger) : Prop where
  | quiet (h : ∀ k, recordAt d l' k = recordAt d l k)
  | register (ctx : Register) (h : Registers d l a ctx.owner ctx.target)
    (effect : Registered d ctx l l')
  | reclaim (ctx : ReclaimAuthority) (h : Reclaims d l a ctx.owner ctx.target)
    (effect : Reclaimed d ctx l l')

/-- Every step has one of the three effects. -/
theorem step_effect (h : Step d l a l') : StepEffect d l a l' := by
  cases h with
  | @executed _ c h =>
    obtain ⟨ix, hix, hrun⟩ := returns_bind.mp h
    cases ix with
    | register =>
      obtain ⟨ctx, l₁, hctx, heffect⟩ := register_effect hrun
      exact .register ctx ⟨c, ctx, l₁, rfl, hix, hctx, rfl, rfl⟩ heffect
    | executeUpgrade => exact .quiet (executeUpgrade_effect hrun)
    | reclaimAuthority newAuthority =>
      obtain ⟨ctx, hctx, heffect⟩ := reclaimAuthority_effect hrun
      exact .reclaim ctx ⟨c, ctx, newAuthority, rfl, hix, hctx, rfl, rfl⟩ heffect
  | failed h => exact .quiet fun _ => rfl
  | guard h =>
    exact .quiet (recordAt_external
      (Guard.process_respects d.programId_ne d.guard_ne h).toExternal)
  | rolledBack => exact .quiet fun _ => rfl
  | other h hguard => exact .quiet (recordAt_external h)

/-- Every record sits at the PDA of the owner and target it names. -/
def Named (d : Deployment) (l : Ledger) : Prop :=
  ∀ k record, recordAt d l k = some record → k = (d.findRecord record.owner record.target).1

/-- No record at the start. -/
theorem named_genesis (h : Ledger.Genesis d.programId l) : Named d l := by
  intro k record hrecord
  have hnone : recordAt d l k = none :=
    accountAt_zeros (fun howner => h k howner) ⟨177, by decide, by decide⟩
  cases hnone.symm.trans hrecord

/-- `register` makes a record at its PDA, and nothing else writes one. -/
theorem named_step (hnamed : Named d l) (h : Step d l a l') : Named d l' := by
  intro k record hrecord
  cases step_effect h with
  | quiet hsame => exact hnamed k record (hsame k ▸ hrecord)
  | register ctx hreg heffect =>
    by_cases hk : k = ctx.authorityRecord
    · obtain rfl := Option.some.inj (heffect.stored.symm.trans (hk ▸ hrecord))
      exact hk.trans heffect.key_eq
    · have hsame : recordAt d l' k = recordAt d l k := accountAt_congr (heffect.frame k hk)
      exact hnamed k record (hsame ▸ hrecord)
  | reclaim ctx hrec heffect =>
    by_cases hk : k = ctx.recordKey
    · rw [hk, heffect.closed] at hrecord
      cases hrecord
    · exact hnamed k record (heffect.others k hk ▸ hrecord)

/-- No record names this owner and this target. -/
def NoRecord (d : Deployment) (owner target : Pubkey) (l : Ledger) : Prop :=
  ∀ k record, recordAt d l k = some record → ¬(record.owner = owner ∧ record.target = target)

/-- Reclaiming removes the only record there can be. -/
theorem noRecord_of_reclaims {owner target : Pubkey} (hnamed : Named d l) (h : Step d l a l')
    (hreclaims : Reclaims d l a owner target) : NoRecord d owner target l' := by
  obtain ⟨c, ctx, newAuthority, rfl, hparsed, hctx, rfl, rfl⟩ := hreclaims
  have hnamed' := named_step hnamed h
  cases h with
  | executed h =>
    obtain ⟨ix, hix, hrun⟩ := returns_bind.mp h
    obtain rfl := hix.unique hparsed
    obtain ⟨ctx', hctx', heffect⟩ := reclaimAuthority_effect hrun
    obtain rfl := hctx'.unique hctx
    have hentitled := reclaimAuthority_tryAccounts hctx
    intro k record hrecord heq
    -- a record left would be at the address that was closed
    have hkey := hnamed' k record hrecord
    have hclosed := hnamed _ _ hentitled.live
    rw [heq.1, heq.2] at hkey
    rw [hentitled.owner_eq, hentitled.target_eq, ← hkey] at hclosed
    rw [← hclosed, heffect.closed] at hrecord
    cases hrecord

/-- Without a `register` of theirs, an owner and a target that have no record get none. -/
theorem noRecord_step {owner target : Pubkey} (h : Step d l a l')
    (hno : ¬Registers d l a owner target) (hnone : NoRecord d owner target l) :
    NoRecord d owner target l' := by
  intro k record hrecord
  cases step_effect h with
  | quiet hsame => exact hnone k record (hsame k ▸ hrecord)
  | register ctx hreg heffect =>
    by_cases hk : k = ctx.authorityRecord
    · obtain rfl := Option.some.inj (heffect.stored.symm.trans (hk ▸ hrecord))
      exact fun heq => hno (heq.1 ▸ heq.2 ▸ hreg)
    · have hsame : recordAt d l' k = recordAt d l k := accountAt_congr (heffect.frame k hk)
      exact hnone k record (hsame ▸ hrecord)
  | reclaim ctx hrec heffect =>
    by_cases hk : k = ctx.recordKey
    · rw [hk, heffect.closed] at hrecord
      cases hrecord
    · exact hnone k record (heffect.others k hk ▸ hrecord)

/-! ## Comings and goings -/

/-- The call is a `register` for an owner and a target. -/
def Label.registers (owner target : Pubkey) : Label → Bool
  | .executed c => decide (c.data.take 8 = registerDisc) &&
      decide (c.accounts[1]?.map AccountMeta.pubkey = some owner) &&
      decide (c.accounts[2]?.map AccountMeta.pubkey = some target)
  | _ => false

/-- The call is a `reclaim_authority` for them. -/
def Label.reclaims (owner target : Pubkey) : Label → Bool
  | .executed c => decide (c.data.take 8 = reclaimAuthorityDisc) &&
      decide (c.accounts[1]?.map AccountMeta.pubkey = some owner) &&
      decide (c.accounts[2]?.map AccountMeta.pubkey = some target)
  | _ => false

/-- Read off the discriminator and the second and third account, -/
theorem registers_executed {c : Call} {owner target : Pubkey} :
    (Label.executed c).registers owner target = true ↔ c.data.take 8 = registerDisc ∧
      c.accounts[1]?.map AccountMeta.pubkey = some owner ∧
      c.accounts[2]?.map AccountMeta.pubkey = some target := by
  simp [Label.registers, and_assoc]

/-- and so is a reclaim. -/
theorem reclaims_executed {c : Call} {owner target : Pubkey} :
    (Label.executed c).reclaims owner target = true ↔ c.data.take 8 = reclaimAuthorityDisc ∧
      c.accounts[1]?.map AccountMeta.pubkey = some owner ∧
      c.accounts[2]?.map AccountMeta.pubkey = some target := by
  simp [Label.reclaims, and_assoc]

/-- The discriminator of each instruction. -/
def discOf : AuthorityInstruction → Bytes
  | .register => registerDisc
  | .executeUpgrade => executeUpgradeDisc
  | .reclaimAuthority _ => reclaimAuthorityDisc

/-- What was parsed had the discriminator. -/
theorem take_of_parse {data : Bytes} {ix : AuthorityInstruction}
    (h : (parseInstruction data).Returns ix) : data.take 8 = discOf ix := by
  unfold parseInstruction at h
  dsimp only at h
  split at h
  next hdisc =>
    simp only [returns_bind, returns_emit, returns_pure, exists_const] at h
    obtain ⟨-, rfl⟩ := h
    exact hdisc
  next =>
    split at h
    next hdisc =>
      simp only [returns_bind, returns_emit, returns_pure, exists_const] at h
      obtain ⟨-, rfl⟩ := h
      exact hdisc
    next =>
      split at h
      next hdisc =>
        simp only [returns_bind, returns_emit, returns_okOr, returns_pure, exists_const] at h
        obtain ⟨-, newAuthority, -, rfl⟩ := h
        exact hdisc
      next => simp at h

/-- What the accounts of a `register` say. -/
theorem register_accounts {env : Guard.Env} {accounts : List AccountMeta} {ctx : Register}
    (h : (Register.tryAccounts d env accounts l).Returns (ctx, l')) :
    accounts[1]?.map AccountMeta.pubkey = some ctx.owner ∧
      accounts[2]?.map AccountMeta.pubkey = some ctx.target ∧
      ctx.bump = (d.findRecord ctx.owner ctx.target).2 := by
  unfold Register.tryAccounts at h
  split at h
  next authorityRecord owner target systemProgram rest =>
    simp only [returns_bind, returns_signer, returns_okOr, returns_pure] at h
    obtain ⟨_, ⟨-, rfl⟩, _, -, _, -, l₁, -, _, -, _, -, hp⟩ := h
    obtain ⟨rfl, rfl⟩ := Prod.mk.inj hp
    exact ⟨rfl, rfl, rfl⟩
  next => simp [notEnoughKeys] at h

/-- What those of a reclaim say. -/
theorem reclaim_accounts {accounts : List AccountMeta} {ctx : ReclaimAuthority}
    (h : (ReclaimAuthority.tryAccounts d accounts l).Returns ctx) :
    accounts[1]?.map AccountMeta.pubkey = some ctx.owner ∧
      accounts[2]?.map AccountMeta.pubkey = some ctx.target := by
  unfold ReclaimAuthority.tryAccounts at h
  split at h
  next authorityRecord owner target programData newAuthorityInfo bpfLoader tranaGuardProgram
      tranaRegistry instructions systemProgram rest =>
    simp only [returns_bind, returns_signer, returns_pure] at h
    obtain ⟨record, -, _, ⟨-, rfl⟩, h⟩ := h
    -- the constraints that follow only guard the result
    obtain ⟨_, -, _, -, _, -, _, -, _, -, _, -, _, -, _, -, _, -, _, -, _, -, _, -, _, -, _, -,
      _, -, rfl⟩ := h
    exact ⟨rfl, rfl⟩
  next => simp [notEnoughKeys] at h

/-- And those of an upgrade. -/
theorem upgrade_accounts {accounts : List AccountMeta} {ctx : ExecuteUpgrade}
    (h : (ExecuteUpgrade.tryAccounts d accounts l).Returns ctx) :
    accounts[1]?.map AccountMeta.pubkey = some ctx.owner ∧
      accounts[2]?.map AccountMeta.pubkey = some ctx.program := by
  unfold ExecuteUpgrade.tryAccounts at h
  split at h
  next authorityRecord owner program programData buffer spill rent clock bpfLoader
      tranaGuardProgram tranaRegistry instructions rest =>
    simp only [returns_bind, returns_signer, returns_pure] at h
    obtain ⟨record, -, _, ⟨-, rfl⟩, h⟩ := h
    obtain ⟨_, -, _, -, _, -, _, -, _, -, _, -, _, -, _, -, _, -, _, -, _, -, _, -, _, -, _, -,
      _, -, rfl⟩ := h
    exact ⟨rfl, rfl⟩
  next => simp [notEnoughKeys] at h

/-- What a step does to the records, with the label it shows. -/
inductive Change (d : Deployment) (l : Ledger) (a : Label) (l' : Ledger) : Prop where
  | quiet (same : ∀ k, recordAt d l' k = recordAt d l k)
    (idle : ∀ o t, a.registers o t = false ∧ a.reclaims o t = false)
  | registered (owner target : Pubkey)
    (label : ∀ o t, a.registers o t = true ↔ o = owner ∧ t = target)
    (idle : ∀ o t, a.reclaims o t = false)
    (fresh : recordAt d l (d.findRecord owner target).1 = none)
    (stored : recordAt d l' (d.findRecord owner target).1 =
      some ⟨owner, target, (d.findRecord owner target).2⟩)
    (others : ∀ k, k ≠ (d.findRecord owner target).1 → recordAt d l' k = recordAt d l k)
  | reclaimed (key : Pubkey) (record : AuthorityRecord)
    (label : ∀ o t, a.reclaims o t = true ↔ o = record.owner ∧ t = record.target)
    (idle : ∀ o t, a.registers o t = false)
    (live : recordAt d l key = some record)
    (closed : recordAt d l' key = none)
    (others : ∀ k, k ≠ key → recordAt d l' k = recordAt d l k)

/-- Every step is one of the three changes. -/
theorem step_change (h : Step d l a l') : Change d l a l' := by
  cases h with
  | @executed _ c h =>
    obtain ⟨ix, hix, hrun⟩ := returns_bind.mp h
    have hdisc := take_of_parse hix
    have hregisters : ∀ o t, (Label.executed c).registers o t = true → discOf ix = registerDisc :=
      fun o t hlabel => hdisc.symm.trans (registers_executed.mp hlabel).1
    have hreclaims : ∀ o t, (Label.executed c).reclaims o t = true →
        discOf ix = reclaimAuthorityDisc :=
      fun o t hlabel => hdisc.symm.trans (reclaims_executed.mp hlabel).1
    cases ix with
    | register =>
      obtain ⟨ctx, l₁, hctx, heffect⟩ := register_effect hrun
      obtain ⟨howner, htarget, hbump⟩ := register_accounts hctx
      have hfresh := (Ledger.initAccount_frame (register_tryAccounts hctx).2).1
      have hkey := heffect.key_eq
      have hstored := heffect.stored
      rw [hbump, hkey] at hstored
      refine .registered ctx.owner ctx.target (fun o t => ?_) (fun o t => ?_) ?_ hstored
        fun k hk => accountAt_congr (heffect.frame k fun heq => hk (heq.trans hkey))
      · rw [registers_executed, howner, htarget, Option.some.injEq, Option.some.injEq]
        exact ⟨fun hlabel => ⟨hlabel.2.1.symm, hlabel.2.2.symm⟩,
          fun heq => ⟨hdisc, heq.1.symm, heq.2.symm⟩⟩
      · exact Bool.eq_false_iff.mpr fun hlabel =>
          -- the discriminators differ, so a `register` is no reclaim
          absurd (hreclaims o t hlabel) (by decide : registerDisc ≠ reclaimAuthorityDisc)
      · rw [← hkey]
        exact if_neg fun heq => d.programId_ne (heq.symm.trans hfresh)
    | executeUpgrade =>
      refine .quiet (executeUpgrade_effect hrun) fun o t => ⟨?_, ?_⟩
      · exact Bool.eq_false_iff.mpr fun hlabel =>
          absurd (hregisters o t hlabel) (by decide : executeUpgradeDisc ≠ registerDisc)
      · exact Bool.eq_false_iff.mpr fun hlabel =>
          absurd (hreclaims o t hlabel) (by decide : executeUpgradeDisc ≠ reclaimAuthorityDisc)
    | reclaimAuthority newAuthority =>
      obtain ⟨ctx, hctx, heffect⟩ := reclaimAuthority_effect hrun
      obtain ⟨howner, htarget⟩ := reclaim_accounts hctx
      have hentitled := reclaimAuthority_tryAccounts hctx
      refine .reclaimed ctx.recordKey ctx.authorityRecord (fun o t => ?_) (fun o t => ?_)
        heffect.live heffect.closed heffect.others
      · rw [reclaims_executed, howner, htarget, Option.some.injEq, Option.some.injEq,
          hentitled.owner_eq, hentitled.target_eq]
        exact ⟨fun hlabel => ⟨hlabel.2.1.symm, hlabel.2.2.symm⟩,
          fun heq => ⟨hdisc, heq.1.symm, heq.2.symm⟩⟩
      · exact Bool.eq_false_iff.mpr fun hlabel =>
          absurd (hregisters o t hlabel) (by decide : reclaimAuthorityDisc ≠ registerDisc)
  | failed h => exact .quiet (fun _ => rfl) fun _ _ => ⟨rfl, rfl⟩
  | guard h =>
    exact .quiet (recordAt_external (Guard.process_respects d.programId_ne d.guard_ne h).toExternal)
      fun _ _ => ⟨rfl, rfl⟩
  | rolledBack => exact .quiet (fun _ => rfl) fun _ _ => ⟨rfl, rfl⟩
  | other h hguard => exact .quiet (recordAt_external h) fun _ _ => ⟨rfl, rfl⟩

/-- Every record has the address and the bump that its owner and target derive. -/
def Derived (d : Deployment) (l : Ledger) : Prop :=
  ∀ k record, recordAt d l k = some record →
    d.findRecord record.owner record.target = (k, record.bump)

/-- No record at the start. -/
theorem derived_genesis (h : Ledger.Genesis d.programId l) : Derived d l := by
  intro k record hrecord
  have hnone : recordAt d l k = none :=
    accountAt_zeros (fun howner => h k howner) ⟨177, by decide, by decide⟩
  cases hnone.symm.trans hrecord

/-- A new record stores the canonical bump of the address it is at. -/
theorem derived_step (h : Step d l a l') (hd : Derived d l) : Derived d l' := by
  intro k record hrecord
  cases step_change h with
  | quiet same idle =>
    rw [same k] at hrecord
    exact hd k record hrecord
  | registered owner target label idle fresh stored others =>
    -- by the address: at this one a record was just made, elsewhere nothing changed
    by_cases hk : k = (d.findRecord owner target).1
    · subst hk
      obtain rfl := Option.some.inj (stored.symm.trans hrecord)
      rfl
    · rw [others k hk] at hrecord
      exact hd k record hrecord
  | reclaimed key record' label idle live closed others =>
    by_cases hk : k = key
    · subst hk
      cases closed.symm.trans hrecord
    · rw [others k hk] at hrecord
      exact hd k record hrecord

/-- The record of an owner and a target is there. -/
def Live (d : Deployment) (owner target : Pubkey) (l : Ledger) : Prop :=
  recordAt d l (d.findRecord owner target).1 =
    some ⟨owner, target, (d.findRecord owner target).2⟩

instance (owner target : Pubkey) : Decidable (Live d owner target l) :=
  inferInstanceAs (Decidable (_ = _))

/-- So a record, wherever it was found, is the live one of its owner and target. -/
theorem Derived.live {k : Pubkey} {record : AuthorityRecord} (hd : Derived d l)
    (h : recordAt d l k = some record) : Live d record.owner record.target l := by
  rw [Live, hd k record h]
  exact h

/-- Whoever calls the loader names the owner and the target of a record that is
there, and the record's address signs. -/
theorem invoked_live {env : Guard.Env} {accounts : List AccountMeta} {data : Bytes}
    {call : SignedCall} {mid : Ledger} (hd : Derived d l)
    (h : Invoked d env accounts data l call mid) : ∃ owner target, Live d owner target l ∧
      call.signers = [(d.findRecord owner target).1] ∧
      accounts[1]?.map AccountMeta.pubkey = some owner ∧
      accounts[2]?.map AccountMeta.pubkey = some target := by
  cases h with
  | @upgrade ctx _ pda parsed context enforced seeds =>
    have hentitled := executeUpgrade_tryAccounts context
    have hlive := hd.live hentitled.live
    have haddress := hd _ _ hentitled.live
    rw [hentitled.owner_eq, hentitled.target_eq] at hlive haddress
    refine ⟨ctx.owner, ctx.program, hlive, ?_, upgrade_accounts context⟩
    show [pda] = _
    rw [hentitled.signer_eq seeds, haddress]
  | @reclaim ctx newAuthority _ pda parsed context enforced seeds =>
    have hentitled := reclaimAuthority_tryAccounts context
    have hlive := hd.live hentitled.live
    have haddress := hd _ _ hentitled.live
    rw [hentitled.owner_eq, hentitled.target_eq] at hlive haddress
    refine ⟨ctx.owner, ctx.target, hlive, ?_, reclaim_accounts context⟩
    show [pda] = _
    rw [hentitled.signer_eq seeds, haddress]

/-- One while the record is there. -/
def liveCount (d : Deployment) (owner target : Pubkey) (l : Ledger) : Nat :=
  if Live d owner target l then 1 else 0

section Count

variable {owner target : Pubkey}

/-- There is one, -/
theorem liveCount_one (h : Live d owner target l) : liveCount d owner target l = 1 := if_pos h

/-- or none. -/
theorem liveCount_zero (h : ¬Live d owner target l) : liveCount d owner target l = 0 := if_neg h

/-- It depends on the account at the derived address. -/
theorem liveCount_congr (h : recordAt d l' (d.findRecord owner target).1 =
    recordAt d l (d.findRecord owner target).1) :
    liveCount d owner target l' = liveCount d owner target l :=
  if_congr (by rw [Live, Live, h]) rfl rfl

/-- An account that holds no record holds not this one. -/
theorem not_live_of_none (h : recordAt d l (d.findRecord owner target).1 = none) :
    ¬Live d owner target l :=
  fun hlive => nomatch h.symm.trans hlive

/-- It comes with a `register` of the owner and the target, and goes with a
reclaim of theirs. -/
theorem live_step (hd : Derived d l) (h : Step d l a l') :
    liveCount d owner target l' + (if a.reclaims owner target then 1 else 0) =
      liveCount d owner target l + if a.registers owner target then 1 else 0 := by
  cases step_change h with
  | quiet same idle =>
    rw [(idle owner target).1, (idle owner target).2, liveCount_congr (same _)]
  | registered o t label idle fresh stored others =>
    rw [idle owner target]
    by_cases hself : owner = o ∧ target = t
    · obtain ⟨rfl, rfl⟩ := hself
      rw [(label owner target).mpr ⟨rfl, rfl⟩, liveCount_one stored,
        liveCount_zero (not_live_of_none fresh)]
      rfl
    · have hidle : a.registers owner target = false :=
        Bool.eq_false_iff.mpr fun hlabel => hself ((label owner target).mp hlabel)
      rw [hidle]
      by_cases hk : (d.findRecord owner target).1 = (d.findRecord o t).1
      · -- two derived addresses that agree hold one record at a time
        have hafter : ¬Live d owner target l' := by
          intro hlive
          rw [Live, hk, stored] at hlive
          obtain ⟨rfl, rfl, -⟩ := AuthorityRecord.mk.inj (Option.some.inj hlive)
          exact hself ⟨rfl, rfl⟩
        rw [liveCount_zero hafter, liveCount_zero (not_live_of_none (hk ▸ fresh))]
      · rw [liveCount_congr (others _ hk)]
  | reclaimed key record label idle live closed others =>
    rw [idle owner target]
    have haddress := hd key record live
    by_cases hself : owner = record.owner ∧ target = record.target
    · obtain ⟨rfl, rfl⟩ := hself
      have hafter : recordAt d l' (d.findRecord record.owner record.target).1 = none := by
        rw [haddress]
        exact closed
      rw [(label _ _).mpr ⟨rfl, rfl⟩, liveCount_one (hd.live live),
        liveCount_zero (not_live_of_none hafter)]
      rfl
    · have hidle : a.reclaims owner target = false :=
        Bool.eq_false_iff.mpr fun hlabel => hself ((label owner target).mp hlabel)
      rw [hidle]
      by_cases hk : (d.findRecord owner target).1 = key
      · have hbefore : ¬Live d owner target l := by
          intro hlive
          rw [Live, hk, live] at hlive
          obtain rfl := Option.some.inj hlive
          exact hself ⟨rfl, rfl⟩
        rw [liveCount_zero hbefore, liveCount_zero (not_live_of_none (hk ▸ closed))]
      · rw [liveCount_congr (others _ hk)]

end Count

/-! ## Registries -/

/-- The enforcement is a step of the guard. -/
theorem enforceProof_step {env : Guard.Env} {registry owner : Pubkey}
    (h : (enforceProof d env registry owner l).Returns l') :
    Guard.Step d.guard l (.executed ⟨env, [⟨registry, false, true⟩, ⟨owner, true, false⟩,
      ⟨instructionsId, false, false⟩], Guard.enforceData .require⟩) l' :=
  .executed (returns_embed.mp h)

/-- The only registries that change are those the guard changes. -/
theorem layout_step (hl : Guard.Layout d.guard l) (h : Step d l a l') :
    Guard.Layout d.guard l' := by
  cases h with
  | executed h =>
    obtain ⟨ix, hix, hrun⟩ := returns_bind.mp h
    cases ix with
    | register =>
      obtain ⟨ctx, l₁, hctx, heffect⟩ := register_effect hrun
      have hfresh := (Ledger.initAccount_frame (register_tryAccounts hctx).2).1
      have hafter := (accountAt_eq_some.mp heffect.stored).1
      refine (Guard.sameRegistries_of_frame ?_ ?_ heffect.frame).layout hl
      · exact fun heq => d.guard.programId_ne (heq.symm.trans hfresh)
      · exact fun heq => d.guard_ne (heq.symm.trans hafter)
    | executeUpgrade =>
      simp only [execute, returns_bind, returns_executeUpgrade] at hrun
      obtain ⟨ctx, -, mid, pda, hmid, -, hcall⟩ := hrun
      exact (loader_frame hcall).2.layout (Guard.layout_step hl (enforceProof_step hmid))
    | reclaimAuthority newAuthority =>
      simp only [execute, returns_bind, returns_reclaimAuthority] at hrun
      obtain ⟨ctx, hctx, l₂, ⟨mid, pda, hmid, -, hcall⟩, hclose⟩ := hrun
      have hlive : recordAt d l₂ _ = _ :=
        ((loader_frame hcall).1 _).trans ((recordAt_external (enforceProof_external hmid) _).trans
          (reclaimAuthority_tryAccounts hctx).live)
      -- closing gives the account back to the system program, so it is no registry
      exact (closeRecord_spec hlive hclose).2.2.layout
        ((loader_frame hcall).2.layout (Guard.layout_step hl (enforceProof_step hmid)))
  | failed h => exact hl
  | guard h => exact Guard.layout_step hl (.executed h)
  | rolledBack => exact hl
  | other h hguard => exact Guard.layout_step hl (.other hguard)

/-! ## Executing calls -/

/-- The ledger after a call, when it succeeds. -/
def next? (d : Deployment) (l : Ledger) : Label → Option Ledger
  | .executed c => (process d c.env c.accounts c.data l).result.toOption
  | .guard c => (Guard.process d.guard c.env c.accounts c.data l).result.toOption
  | .rolledBack => some l
  | .failed _ => none
  | .other => none

/-- What the function computes is a step. -/
theorem step_of_next? (h : next? d l a = some l') : Step d l a l' := by
  cases a with
  | executed c => exact .executed (toOption_eq_some.mp h)
  | guard c => exact .guard (toOption_eq_some.mp h)
  | rolledBack =>
    obtain rfl := Option.some.inj h
    exact .rolledBack l
  | failed c => cases h
  | other => cases h

end Trana.Authority
