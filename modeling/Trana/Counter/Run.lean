import Trana.Counter.Program
import Trana.Guard.Foreign
import Trana.Guard.Run

/-!
# Runs of the counter

A run interleaves calls of the counter and of the guard, each in a transaction
of its own, with what other programs do. The counter's accounts and the
registries lie on one ledger; neither program writes the other's, except that
an increment calls `enforce`.

* `initialize_effect`, `increment_effect` — what the two instructions found and
  wrote.
* `count_step` — the count of an address moves with increments of it only.
* `derived_step` — a counter sits at the address its owner derives.
* `layout_step`, `counter_mono` — registries stay in their places, and their
  nonces pay for the increments.
* `next?`, `runLabels` — the same step as a function, to run a given list of
  calls.

What a run of the counter is worth is in `Trana.Security.Counter`: there the
count is compared with the proofs the wallet approved. Here are the facts about
one step it is proved from.
-/

namespace Trana.Counter

open Trana.Lib Trana.Lib.Exec Trana.Solana
open Trana.Guard (Call Env SameRegistries registryAt)

/-- The counter at an address. -/
def counterAt (l : Ledger) (key : Pubkey) : Option CounterState :=
  accountAt CounterState.layout counterId l key

/-- The counter is not the system program. -/
theorem counterId_ne_system : counterId ≠ systemProgramId := by decide

section Instructions

variable {d : Deployment} {env : Env} {accounts : List AccountMeta} {l l' : Ledger}

/-- Owner and data decide. -/
theorem counterAt_congr {key : Pubkey}
    (h : (l' key).owner = (l key).owner ∧ (l' key).data = (l key).data) :
    counterAt l' key = counterAt l key :=
  accountAt_congr h

/-- Nothing is kept where another program is the owner. -/
theorem counterAt_none {key : Pubkey} (h : (l key).owner ≠ counterId) : counterAt l key = none := by
  rw [counterAt, accountAt, if_neg h]

/-- A successful `initialize`. -/
structure Initialized (d : Deployment) (ctx : Initialize) (l l' : Ledger) : Prop where
  key_eq : ctx.counter = (d.findCounter ctx.owner).1
  fresh : (l ctx.counter).owner = systemProgramId
  stored : counterAt l' ctx.counter = some ⟨0, ctx.owner, (d.findCounter ctx.owner).2⟩
  frame : ∀ k, k ≠ ctx.counter → (l' k).owner = (l k).owner ∧ (l' k).data = (l k).data

/-- A successful `initialize` did what `Initialized` says. -/
theorem initialize_effect (h : (execute d env accounts .initializeCounter l).Returns l') :
    ∃ ctx, Initialized d ctx l l' := by
  simp only [execute, returns_bind] at h
  obtain ⟨⟨ctx, l₁⟩, hctx, hexit⟩ := h
  unfold Initialize.tryAccounts at hctx
  split at hctx
  next counter owner systemProgram rest =>
    simp only [returns_bind, returns_signer, returns_constraintSeeds, returns_okOr,
      returns_pure] at hctx
    obtain ⟨_, ⟨-, rfl⟩, _, -, _, hkey, l₂, hinit, _, -, _, -, hp⟩ := hctx
    obtain ⟨rfl, rfl⟩ := Prod.mk.inj hp
    obtain ⟨hfresh, hframe⟩ := Ledger.initAccount_frame hinit
    have hnew := hframe counter.pubkey
    rw [Ledger.set_self] at hnew
    obtain ⟨hstored, -, hothers⟩ := exitAccount_spec hnew.1 hexit
    refine ⟨⟨counter.pubkey, owner.pubkey, (d.findCounter owner.pubkey).2⟩, hkey, hfresh,
      hstored, fun k hk => ?_⟩
    have hk' := hframe k
    rw [Ledger.set_of_ne _ hk] at hk'
    rwa [hothers k hk]
  next => simp [notEnoughKeys] at hctx

/-- A successful `increment`, with the ledger after the call to the guard. -/
structure Incremented (d : Deployment) (env : Env) (ctx : Increment) (l l' : Ledger)
    (called : Ledger) : Prop where
  found : counterAt l ctx.counterKey = some ctx.counter
  owner_eq : ctx.counter.owner = ctx.owner
  derived : d.createCounter ctx.owner ctx.counter.bump = some ctx.counterKey
  room : ctx.counter.count.toNat + 1 < 2 ^ 64
  call : Guard.Step d.guard l
    (.executed ⟨env, ctx.cpiContext.toAccountMetas, Guard.enforceData .require⟩) called
  stored : counterAt l' ctx.counterKey = some { ctx.counter with count := ctx.counter.count + 1 }
  owners : ∀ k, (l' k).owner = (l k).owner
  frame : ∀ k, k ≠ ctx.counterKey → (l k).owner ≠ d.guard.programId →
    (l' k).data = (l k).data
  registries : SameRegistries d.guard called l'

/-- The context of `increment`: a counter of the signing owner, at its address. -/
theorem increment_tryAccounts {ctx : Increment}
    (h : (Increment.tryAccounts d accounts l).Returns ctx) :
    counterAt l ctx.counterKey = some ctx.counter ∧ ctx.counter.owner = ctx.owner ∧
      d.createCounter ctx.owner ctx.counter.bump = some ctx.counterKey ∧
      ∃ counter owner rest, accounts = counter :: owner :: rest ∧
        counter.pubkey = ctx.counterKey ∧ owner.pubkey = ctx.owner ∧ owner.isSigner = true := by
  unfold Increment.tryAccounts at h
  split at h
  next counter owner tranaGuardProgram tranaRegistry instructions rest =>
    simp only [returns_bind, returns_signer, returns_constraintBump, returns_constraintHasOne,
      returns_pure] at h
    obtain ⟨c, hload, _, ⟨hsigned, rfl⟩, _, -, _, hbump, _, -, _, howner, _, -, _, -, rfl⟩ := h
    exact ⟨accountAt_of_load hload, howner, hbump, _, _, _, rfl, rfl, rfl, hsigned⟩
  next => simp [notEnoughKeys] at h

/-- Writing a counter writes no registry. -/
theorem exitAccount_sameRegistries {key : Pubkey} {c : CounterState}
    (howner : (l key).owner = counterId)
    (h : (exitAccount CounterState.layout counterId key c l : Result Ledger).Returns l') :
    SameRegistries d.guard l l' := by
  obtain ⟨-, hkept, hothers⟩ := exitAccount_spec howner h
  have hne : (l key).owner ≠ d.guard.programId := fun heq => d.guard_ne (heq.symm.trans howner)
  refine Guard.sameRegistries_of_frame hne ?_ fun k hk => ?_
  · rw [(hkept key).2]
    exact hne
  · rw [hothers k hk]
    exact ⟨rfl, rfl⟩

/-- A successful `increment` did what `Incremented` says. -/
theorem increment_effect (h : (execute d env accounts .increment l).Returns l') :
    ∃ ctx called, (Increment.tryAccounts d accounts l).Returns ctx ∧
      Incremented d env ctx l l' called := by
  simp only [execute, increment, returns_bind, returns_u64Add, returns_pure] at h
  obtain ⟨ctx, hctx, ⟨c, l₁⟩, ⟨called, hcall, count, ⟨hroom, rfl⟩, hp⟩, hexit⟩ := h
  obtain ⟨rfl, rfl⟩ := Prod.mk.inj hp
  obtain ⟨hfound, howner, hderived, -⟩ := increment_tryAccounts hctx
  obtain ⟨hkept, hdata⟩ := Guard.invokeEnforce_frame (returns_embed.mp hcall)
  have hprogram := (accountAt_eq_some.mp hfound).1
  have hcalled : (called ctx.counterKey).owner = counterId := by
    rw [(hkept _).2, hprogram]
  obtain ⟨hstored, hlamports, hothers⟩ := exitAccount_spec hcalled hexit
  have hstep : Guard.Step d.guard l
      (.executed ⟨env, ctx.cpiContext.toAccountMetas, Guard.enforceData .require⟩) called := by
    rw [cpiEnforce, returns_embed] at hcall
    exact .executed hcall
  refine ⟨ctx, called, hctx, hfound, howner, hderived, hroom, hstep, hstored, fun k => ?_,
    fun k hk hguard => ?_, exitAccount_sameRegistries hcalled hexit⟩
  · rw [(hlamports k).2, (hkept k).2]
  · rw [hothers k hk, hdata k hguard]

end Instructions

/-! ## Steps -/

/-- What happens: a call of the counter, of the guard, or anything else. -/
inductive Label where
  | counter (c : Call)
  | guard (c : Call)
  | rolledBack
  | other

/-- One step of the chain. -/
inductive Step (d : Deployment) : Ledger → Label → Ledger → Prop where
  | counter {l l' : Ledger} {c : Call} (h : (process d c.env c.accounts c.data l).Returns l') :
    Step d l (.counter c) l'
  | guard {l l' : Ledger} {c : Call}
    (h : (Guard.process d.guard c.env c.accounts c.data l).Returns l') : Step d l (.guard c) l'
  | rolledBack (l : Ledger) : Step d l .rolledBack l
  | other {l l' : Ledger} (h : Ledger.External counterId l l')
    (hguard : Ledger.External d.guard.programId l l') : Step d l .other l'

/-- A step of a run, with the ledgers before and after it. -/
abbrev Moment := Transition Ledger Label

/-- The call is an increment of the counter at an address. -/
def Label.increments (k : Pubkey) : Label → Bool
  | .counter c => decide ((parseInstruction c.data).Returns .increment) &&
      decide (c.accounts[0]?.map AccountMeta.pubkey = some k)
  | _ => false

variable {d : Deployment} {l l' : Ledger} {a : Label} {k : Pubkey}

/-- A call increments `k` when it parses as `increment` and `k` comes first. -/
theorem increments_counter {c : Call} : (Label.counter c).increments k = true ↔
    (parseInstruction c.data).Returns .increment ∧
      c.accounts[0]?.map AccountMeta.pubkey = some k := by
  simp [Label.increments]

/-- What a step does to the counters. -/
inductive StepEffect (d : Deployment) (l : Ledger) (a : Label) (l' : Ledger) : Prop where
  | quiet (counters : ∀ k, counterAt l' k = counterAt l k) (idle : ∀ k, a.increments k = false)
      (registries : Guard.Step d.guard l .other l' ∨
        ∃ c, a = .guard c ∧ Guard.Step d.guard l (.executed c) l')
  | created (ctx : Initialize) (effect : Initialized d ctx l l')
      (idle : ∀ k, a.increments k = false)
  | incremented (c : Call) (ctx : Increment) (called : Ledger) (label : a = .counter c)
      (signed : ∃ m, c.accounts[1]? = some m ∧ m.pubkey = ctx.owner ∧ m.isSigner = true)
      (names : ∀ k, a.increments k = true ↔ k = ctx.counterKey)
      (effect : Incremented d c.env ctx l l' called)

/-- Every step has the effect of its label. -/
theorem step_effect (h : Step d l a l') : StepEffect d l a l' := by
  cases h with
  | @counter _ c h =>
    obtain ⟨ix, hix, hrun⟩ := returns_bind.mp h
    cases ix with
    | initializeCounter =>
      obtain ⟨ctx, heffect⟩ := initialize_effect hrun
      refine .created ctx heffect fun k => Bool.eq_false_iff.mpr fun hincr => ?_
      cases hix.unique (increments_counter.mp hincr).1
    | increment =>
      obtain ⟨ctx, called, hctx, heffect⟩ := increment_effect hrun
      obtain ⟨-, -, -, counter, owner, rest, hc, hkey, howner, hsigned⟩ :=
        increment_tryAccounts hctx
      refine .incremented c ctx called rfl ⟨owner, by rw [hc]; rfl, howner, hsigned⟩ (fun k => ?_)
        heffect
      rw [increments_counter, hc]
      show _ ∧ some counter.pubkey = some k ↔ _
      rw [hkey, Option.some.injEq]
      exact ⟨fun hk => hk.2.symm, fun hk => ⟨hix, hk.symm⟩⟩
  | @guard _ c h =>
    have hext := Guard.process_respects counterId_ne_system d.guard_ne h
    exact .quiet (accountAt_external hext.toExternal ⟨255, by decide, by decide⟩) (fun _ => rfl)
      (Or.inr ⟨c, rfl, .executed h⟩)
  | rolledBack =>
    exact .quiet (fun _ => rfl) (fun _ => rfl)
      (Or.inl (.other (Ledger.Respects.refl _ l).toExternal))
  | other h hguard =>
    exact .quiet (accountAt_external h ⟨255, by decide, by decide⟩) (fun _ => rfl)
      (Or.inl (.other hguard))

/-! ## Counts -/

/-- What the counter at an address shows; nothing there counts as zero. -/
def countAt (k : Pubkey) (l : Ledger) : Nat :=
  match counterAt l k with
  | some c => c.count.toNat
  | none => 0

/-- A counter's count, -/
theorem countAt_some {c : CounterState} (h : counterAt l k = some c) :
    countAt k l = c.count.toNat := by
  rw [countAt, h]

/-- and zero where there is none. -/
theorem countAt_none (h : counterAt l k = none) : countAt k l = 0 := by
  rw [countAt, h]

/-- It is the counter's. -/
theorem countAt_congr (h : counterAt l' k = counterAt l k) : countAt k l' = countAt k l := by
  rw [countAt, countAt, h]

/-- An increment changes its own counter only. -/
theorem Incremented.counterAt_of_ne {env : Env} {ctx : Increment} {called : Ledger}
    (h : Incremented d env ctx l l' called) (hk : k ≠ ctx.counterKey) :
    counterAt l' k = counterAt l k := by
  by_cases howner : (l k).owner = d.guard.programId
  · -- the guard's accounts hold no counters before or after
    have hne : (l k).owner ≠ counterId := fun heq => d.guard_ne (howner.symm.trans heq)
    have hne' : (l' k).owner ≠ counterId := by
      rw [h.owners k]
      exact hne
    rw [counterAt_none hne, counterAt_none hne']
  · exact counterAt_congr ⟨h.owners k, h.frame k hk howner⟩

/-- There was no counter where one is made. -/
theorem Initialized.counterAt_before {ctx : Initialize} (h : Initialized d ctx l l') :
    counterAt l ctx.counter = none :=
  counterAt_none fun heq => counterId_ne_system (heq.symm.trans h.fresh)

/-- The count of an address moves by its increments. -/
theorem count_step (h : Step d l a l') :
    countAt k l' = countAt k l + if a.increments k then 1 else 0 := by
  cases step_effect h with
  | quiet counters idle registries =>
    rw [idle k, countAt_congr (counters k)]
    rfl
  | created ctx effect idle =>
    rw [idle k]
    show _ = countAt k l + 0
    by_cases hk : k = ctx.counter
    · subst hk
      rw [countAt_some effect.stored, countAt_none effect.counterAt_before]
      rfl
    · rw [countAt_congr (counterAt_congr (effect.frame k hk))]
      rfl
  | incremented c ctx called label signed names effect =>
    by_cases hk : k = ctx.counterKey
    · have hincr := (names k).mpr hk
      subst hk
      rw [hincr, countAt_some effect.stored, countAt_some effect.found]
      show (ctx.counter.count + 1).toNat = ctx.counter.count.toNat + 1
      rw [UInt64.toNat_add]
      exact Nat.mod_eq_of_lt effect.room
    · have hidle : a.increments k = false :=
        Bool.eq_false_iff.mpr fun hincr => hk ((names k).mp hincr)
      rw [hidle, countAt_congr (effect.counterAt_of_ne hk)]
      rfl

/-! ## Addresses -/

/-- A counter sits at the address its owner derives, and has the bump for it. -/
def Derived (d : Deployment) (l : Ledger) : Prop :=
  ∀ k c, counterAt l k = some c → d.findCounter c.owner = (k, c.bump)

/-- No counter at the start. -/
theorem derived_genesis (h : Ledger.Genesis counterId l) : Derived d l := by
  intro k c hc
  have hnone : counterAt l k = none :=
    accountAt_zeros (fun howner => h k howner) ⟨255, by decide, by decide⟩
  cases hnone.symm.trans hc

/-- Only `initialize` creates a counter, at the derived address, and only it and
`increment` write one. -/
theorem derived_step (h : Step d l a l') (hd : Derived d l) : Derived d l' := by
  intro k c hc
  cases step_effect h with
  | quiet counters idle registries =>
    rw [counters k] at hc
    exact hd k c hc
  | created ctx effect idle =>
    by_cases hk : k = ctx.counter
    · subst hk
      obtain rfl := Option.some.inj (effect.stored.symm.trans hc)
      show d.findCounter ctx.owner = (ctx.counter, (d.findCounter ctx.owner).2)
      rw [effect.key_eq]
    · rw [counterAt_congr (effect.frame k hk)] at hc
      exact hd k c hc
  | incremented c' ctx called label signed names effect =>
    by_cases hk : k = ctx.counterKey
    · subst hk
      obtain rfl := Option.some.inj (effect.stored.symm.trans hc)
      exact hd _ ctx.counter effect.found
    · rw [effect.counterAt_of_ne hk] at hc
      exact hd k c hc

/-- A counter stays, with its owner and its bump. -/
theorem owner_step {c : CounterState} (h : Step d l a l') (hc : counterAt l k = some c) :
    ∃ c', counterAt l' k = some c' ∧ c'.owner = c.owner ∧ c'.bump = c.bump := by
  cases step_effect h with
  | quiet counters idle registries =>
    exact ⟨c, by rw [counters k, hc], rfl, rfl⟩
  | created ctx effect idle =>
    have hk : k ≠ ctx.counter := by
      intro heq
      subst heq
      cases effect.counterAt_before.symm.trans hc
    exact ⟨c, by rw [counterAt_congr (effect.frame k hk), hc], rfl, rfl⟩
  | incremented c' ctx called label signed names effect =>
    by_cases hk : k = ctx.counterKey
    · subst hk
      obtain rfl := Option.some.inj (effect.found.symm.trans hc)
      exact ⟨_, effect.stored, rfl, rfl⟩
    · exact ⟨c, by rw [effect.counterAt_of_ne hk, hc], rfl, rfl⟩

/-! ## Registries -/

/-- The step is a successful `recover_registry` of `w`. -/
def Recovers (w : Pubkey) (a : Label) : Prop := ∃ c, a = .guard c ∧ Guard.Recovers w (.executed c)

/-- Creating a counter leaves the registries. -/
theorem Initialized.sameRegistries {ctx : Initialize} (h : Initialized d ctx l l') :
    SameRegistries d.guard l l' := by
  have hafter := (accountAt_eq_some.mp h.stored).1
  refine Guard.sameRegistries_of_frame ?_ ?_ h.frame
  · exact fun heq => d.guard.programId_ne (heq.symm.trans h.fresh)
  · exact fun heq => d.guard_ne (heq.symm.trans hafter)

/-- A step leaves registries at their places and to their owners. -/
theorem layout_step (hl : Guard.Layout d.guard l) (h : Step d l a l') :
    Guard.Layout d.guard l' := by
  cases step_effect h with
  | quiet counters idle registries =>
    rcases registries with hother | ⟨c, -, hguard⟩
    · exact Guard.layout_step hl hother
    · exact Guard.layout_step hl hguard
  | created ctx effect idle => exact effect.sameRegistries.layout hl
  | incremented c ctx called label signed names effect =>
    exact effect.registries.layout (Guard.layout_step hl effect.call)

/-- The call inside an increment asks for the owner's proof. -/
theorem opOf_call {env : Env} {ctx : Increment} :
    Guard.opOf ctx.owner
      (.executed ⟨env, ctx.cpiContext.toAccountMetas, Guard.enforceData .require⟩) = .use := by
  have hix : Call.Is ⟨env, ctx.cpiContext.toAccountMetas, Guard.enforceData .require⟩
      (.enforce .require) :=
    Guard.parse_enforceData .require
  have howner : Call.owner? ⟨env, ctx.cpiContext.toAccountMetas, Guard.enforceData .require⟩ =
      some ctx.owner := rfl
  rw [Guard.opOf_executed hix howner]
  rfl

/-- Every increment of a wallet's counter takes one of its nonces. -/
theorem counter_mono {w : Pubkey} {c : CounterState} (hl : Guard.Layout d.guard l)
    (h : Step d l a l') (hno : ¬Recovers w a)
    (hk : counterAt l k = none ∨ counterAt l k = some c ∧ c.owner = w) :
    (Keyring.counter (Guard.ringOf d.guard w l) + if a.increments k then 1 else 0) ≤
      Keyring.counter (Guard.ringOf d.guard w l') := by
  cases step_effect h with
  | quiet counters idle registries =>
    rw [idle k]
    rcases registries with hother | ⟨c, rfl, hguard⟩
    · exact Keyring.counter_le (Guard.step_refines hl hother w) id
    · refine Keyring.counter_le (Guard.step_refines hl hguard w) fun hrec => ?_
      exact hno ⟨c, rfl, Guard.recovers_of_isRecover hrec⟩
  | created ctx effect idle =>
    rw [idle k, effect.sameRegistries.ringOf]
    exact Nat.le_refl _
  | incremented c' ctx called label signed names effect =>
    have hring := Guard.step_refines hl effect.call w
    rw [effect.registries.ringOf]
    by_cases hkey : k = ctx.counterKey
    · rw [(names k).mpr hkey]
      subst hkey
      rcases hk with hnone | ⟨hfound, rfl⟩
      · cases hnone.symm.trans effect.found
      · obtain rfl := Option.some.inj (effect.found.symm.trans hfound)
        rw [effect.owner_eq, opOf_call] at hring
        rw [effect.owner_eq, Keyring.counter_authorised hring trivial]
        exact Nat.le_refl _
    · have hidle : a.increments k = false :=
        Bool.eq_false_iff.mpr fun hincr => hkey ((names k).mp hincr)
      rw [hidle]
      refine Keyring.counter_le hring fun hrec => ?_
      obtain ⟨_, _, _, _, heq, -, hix⟩ := Guard.recovers_of_isRecover hrec
      obtain rfl := Guard.Label.executed.inj heq
      cases (Guard.parse_enforceData .require).unique hix

/-! ## Executing calls -/

/-- The ledger after a call, when it succeeds. -/
def next? (d : Deployment) (l : Ledger) : Label → Option Ledger
  | .counter c => (process d c.env c.accounts c.data l).result.toOption
  | .guard c => (Guard.process d.guard c.env c.accounts c.data l).result.toOption
  | .rolledBack => some l
  | .other => none

/-- What the function computes is a step, -/
theorem step_of_next? (h : next? d l a = some l') : Step d l a l' := by
  cases a with
  | counter c => exact .counter (toOption_eq_some.mp h)
  | guard c => exact .guard (toOption_eq_some.mp h)
  | rolledBack =>
    obtain rfl := Option.some.inj h
    exact .rolledBack l
  | other => cases h

/-- Execute calls one after the other; none when one of them fails. -/
def runLabels (d : Deployment) : Ledger → List Label → Option Ledger := replay (next? d)

/-- and what it computes for a list is a run. -/
theorem run_of_runLabels {as : List Label} (h : runLabels d l as = some l') :
    ∃ trace, Run (Step d) l trace l' ∧ trace.map Transition.label = as :=
  run_of_replay (fun _ _ _ => step_of_next?) h

end Trana.Counter
