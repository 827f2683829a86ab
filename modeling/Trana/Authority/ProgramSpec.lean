import Trana.Authority.Program
import Trana.Guard.Foreign
import Trana.Guard.Run

/-!
# What the upgrade-authority program's instructions do

One lemma for each handler: what it stores, what it leaves alone, and the calls
to the loader it makes, successful or not.

* `Entitled` — what both guarded contexts check.
* `Attempt` — all there is to know of a call to the loader when it is made.
* `Invoked` — the two ways a run of the program comes to call the loader.
* `invoked_iff` — the calls a run puts on record are those `Invoked` lists; each
  is an attempt (`Invoked.attempt`).
* `Invoked.outcome` — the run succeeds only when that call did.
* `register_effect`, `executeUpgrade_effect`, `reclaimAuthority_effect` — the
  records afterwards.

A failed instruction is rolled back, and yet its call to the loader was made; to
state that none is made without a proof, the log keeps it (`Log.invoked`). The
loader leaves accounts of other programs alone, which is all `loader_frame`
takes from it.
-/

namespace Trana.Authority

open Trana.Lib Trana.Lib.Exec Trana.Solana
open Trana.Guard (Env PasskeyRegistry SameRegistries registryOf)

variable {d : Deployment} {env : Env} {accounts : List AccountMeta} {l l' : Ledger}

/-- The record at an address, if there is one. -/
def recordAt (d : Deployment) (l : Ledger) (key : Pubkey) : Option AuthorityRecord :=
  accountAt AuthorityRecord.layout d.programId l key

/-- Other programs neither make nor change a record. -/
theorem recordAt_external (h : Ledger.External d.programId l l') (key : Pubkey) :
    recordAt d l' key = recordAt d l key :=
  accountAt_external h ⟨177, by decide, by decide⟩ key

/-- The nonce of the wallet's own registry grew by one. -/
def NonceGrows (d : Guard.Deployment) (l l' : Ledger) (w : Pubkey) : Prop :=
  ∃ r r', registryOf d l w = some r ∧ r.owner = w ∧ registryOf d l' w = some r' ∧ r'.owner = w ∧
    r'.nonce.toNat = r.nonce.toNat + 1

/-- What follows and touches no registry keeps that. -/
theorem NonceGrows.of_sameRegistries {g : Guard.Deployment} {l₁ l₂ : Ledger} {w : Pubkey}
    (h : NonceGrows g l l₁ w) (hsame : SameRegistries g l₁ l₂) : NonceGrows g l l₂ w := by
  obtain ⟨r, r', hr, howner, hr', howner', hnonce⟩ := h
  exact ⟨r, r', hr, howner, (hsame _).trans hr', howner', hnonce⟩

/-! ## The proof -/

/-- The enforcement is a call to the guard, and consumes a nonce of the owner's registry. -/
theorem enforceProof_grows {owner : Pubkey}
    (h : (enforceProof d env (d.guard.findRegistry owner) owner l).Returns l') :
    NonceGrows d.guard l l' owner := by
  rw [enforceProof, returns_embed] at h
  obtain ⟨ix, hix, hrun⟩ := returns_bind.mp h
  obtain rfl := (Guard.parse_enforceData .require).unique hix
  cases Guard.execute_effect hrun with
  -- `Require` always fires, so the call cannot have been free
  | enforceFree idle => cases idle
  | enforceProof w key r names fires found owner_eq verified stores =>
    have hnames : Guard.Names [⟨d.guard.findRegistry owner, false, true⟩, ⟨owner, true, false⟩,
        ⟨instructionsId, false, false⟩] (d.guard.findRegistry owner) owner :=
      ⟨rfl, _, rfl, rfl, rfl⟩
    obtain ⟨rfl, rfl⟩ := names.unique hnames
    obtain ⟨proof, ix, secpIx, hverified⟩ := verified
    refine ⟨r, r.consume, found, owner_eq, stores.registryAt_self, owner_eq, ?_⟩
    exact (UInt64.toNat_add _ _).trans (Nat.mod_eq_of_lt hverified.nonce_lt)

/-- It leaves this program's accounts. -/
theorem enforceProof_external {registry owner : Pubkey}
    (h : (enforceProof d env registry owner l).Returns l') :
    Ledger.External d.programId l l' := by
  rw [enforceProof, returns_embed] at h
  exact (Guard.process_respects d.programId_ne d.guard_ne h).toExternal

/-- The guard calls no loader. -/
theorem not_invoked_enforceProof {registry owner : Pubkey} {call : SignedCall} {mid : Ledger} :
    Log.invoked call mid ∉ (enforceProof d env registry owner l).logs := by
  rw [enforceProof, logs_embed]
  intro h
  obtain ⟨line, -, hline⟩ := List.mem_map.mp h
  cases hline

/-! ## Calls to the loader -/

/-- The call succeeds when the loader accepts it. -/
theorem returns_invokeSigned {call : SignedCall} :
    (invokeSigned d call l).Returns l' ↔ d.loader.invoke call l = some l' := by
  simp only [invokeSigned, returns_bind, returns_emit, returns_okOr, true_and, exists_const]

/-- It is on record either way. -/
theorem mem_logs_invokeSigned {call : SignedCall} {line : Log} :
    line ∈ (invokeSigned d call l).logs ↔ line = .invoked call l := by
  simp only [invokeSigned, mem_logs_bind, logs_emit, logs_okOr, List.mem_singleton,
    List.not_mem_nil, and_false, exists_false, or_false]

/-- An upgrade is a proof, the seeds and the loader's answer. -/
theorem returns_executeUpgrade {ctx : ExecuteUpgrade} :
    (executeUpgrade d env accounts ctx l).Returns l' ↔
      ∃ mid pda, (enforceProof d env ctx.tranaRegistry ctx.owner l).Returns mid ∧
        authoritySeeds d ctx.authorityRecord = some pda ∧
        d.loader.invoke (ctx.call d accounts pda) mid = some l' := by
  simp only [executeUpgrade, returns_bind, returns_okOr, returns_invokeSigned, returns_emit,
    returns_pure, true_and, exists_const]
  constructor
  · intro h
    obtain ⟨mid, hmid, pda, hpda, _, hcall, rfl⟩ := h
    exact ⟨mid, pda, hmid, hpda, hcall⟩
  · intro h
    obtain ⟨mid, pda, hmid, hpda, hcall⟩ := h
    exact ⟨mid, hmid, pda, hpda, _, hcall, rfl⟩

/-- It calls the loader when the first two are there. -/
theorem invoked_executeUpgrade {ctx : ExecuteUpgrade} {call : SignedCall} {mid : Ledger} :
    Log.invoked call mid ∈ (executeUpgrade d env accounts ctx l).logs ↔
      ∃ pda, (enforceProof d env ctx.tranaRegistry ctx.owner l).Returns mid ∧
        authoritySeeds d ctx.authorityRecord = some pda ∧ call = ctx.call d accounts pda := by
  simp only [executeUpgrade, mem_logs_bind, not_invoked_enforceProof, logs_okOr, logs_emit,
    logs_pure, mem_logs_invokeSigned, returns_okOr, List.mem_singleton, List.not_mem_nil,
    reduceCtorEq, false_or, or_false, and_false, exists_false, Log.invoked.injEq]
  constructor
  · intro h
    obtain ⟨_, hmid, pda, hpda, rfl, rfl⟩ := h
    exact ⟨pda, hmid, hpda, rfl⟩
  · intro h
    obtain ⟨pda, hmid, hpda, rfl⟩ := h
    exact ⟨mid, hmid, pda, hpda, rfl, rfl⟩

/-- A reclaim is the same, with another call. -/
theorem returns_reclaimAuthority {ctx : ReclaimAuthority} {newAuthority : Pubkey} :
    (reclaimAuthority d env accounts ctx newAuthority l).Returns l' ↔
      ∃ mid pda, (enforceProof d env ctx.tranaRegistry ctx.owner l).Returns mid ∧
        authoritySeeds d ctx.authorityRecord = some pda ∧
        d.loader.invoke (ctx.call d accounts newAuthority pda) mid = some l' := by
  simp only [reclaimAuthority, returns_bind, returns_okOr, returns_invokeSigned, returns_emit,
    returns_pure, true_and, exists_const]
  constructor
  · intro h
    obtain ⟨mid, hmid, pda, hpda, _, hcall, rfl⟩ := h
    exact ⟨mid, pda, hmid, hpda, hcall⟩
  · intro h
    obtain ⟨mid, pda, hmid, hpda, hcall⟩ := h
    exact ⟨mid, hmid, pda, hpda, _, hcall, rfl⟩

/-- So are its calls. -/
theorem invoked_reclaimAuthority {ctx : ReclaimAuthority} {newAuthority : Pubkey}
    {call : SignedCall} {mid : Ledger} :
    Log.invoked call mid ∈ (reclaimAuthority d env accounts ctx newAuthority l).logs ↔
      ∃ pda, (enforceProof d env ctx.tranaRegistry ctx.owner l).Returns mid ∧
        authoritySeeds d ctx.authorityRecord = some pda ∧
        call = ctx.call d accounts newAuthority pda := by
  simp only [reclaimAuthority, mem_logs_bind, not_invoked_enforceProof, logs_okOr, logs_emit,
    logs_pure, mem_logs_invokeSigned, returns_okOr, List.mem_singleton, List.not_mem_nil,
    reduceCtorEq, false_or, or_false, and_false, exists_false, Log.invoked.injEq]
  constructor
  · intro h
    obtain ⟨_, hmid, pda, hpda, rfl, rfl⟩ := h
    exact ⟨pda, hmid, hpda, rfl⟩
  · intro h
    obtain ⟨pda, hmid, hpda, rfl⟩ := h
    exact ⟨mid, hmid, pda, hpda, rfl, rfl⟩

/-! ## Contexts -/

/-- What both guarded contexts check: a live record of the owner and the target
at its PDA, the owner's signature, and the owner's own registry. -/
structure Entitled (d : Deployment) (accounts : List AccountMeta) (l : Ledger) (key : Pubkey)
    (record : AuthorityRecord) (owner target registry : Pubkey) : Prop where
  live : recordAt d l key = some record
  owner_eq : record.owner = owner
  target_eq : record.target = target
  derived : d.createRecord owner target record.bump = some key
  signed : ∃ m ∈ accounts, m.pubkey = owner ∧ m.isSigner = true
  registry_eq : registry = d.guard.findRegistry owner

/-- The context of an upgrade entitles, -/
theorem executeUpgrade_tryAccounts {ctx : ExecuteUpgrade}
    (h : (ExecuteUpgrade.tryAccounts d accounts l).Returns ctx) :
    Entitled d accounts l ctx.recordKey ctx.authorityRecord ctx.owner ctx.program
      ctx.tranaRegistry := by
  unfold ExecuteUpgrade.tryAccounts at h
  split at h
  next authorityRecord owner program programData buffer spill rent clock bpfLoader
      tranaGuardProgram tranaRegistry instructions rest =>
    simp only [returns_bind, returns_signer, returns_sysvarAccount, returns_programAccount,
      returns_constraintBump, returns_constraintRaw, returns_constraintMut,
      returns_constraintAddress, returns_constraintSeeds, returns_pure, exists_const] at h
    obtain ⟨record, hrecord, _, ⟨hsigner, rfl⟩, -, -, -, _, -, hderived, howner, htarget, -, -, -,
      -, -, hregistry, -, -, rfl⟩ := h
    exact ⟨accountAt_of_load hrecord, howner, htarget, hderived,
      ⟨owner, List.mem_cons_of_mem _ (List.mem_cons_self ..), rfl, hsigner⟩, hregistry⟩
  next => simp [notEnoughKeys] at h

/-- and that of a reclaim. -/
theorem reclaimAuthority_tryAccounts {ctx : ReclaimAuthority}
    (h : (ReclaimAuthority.tryAccounts d accounts l).Returns ctx) :
    Entitled d accounts l ctx.recordKey ctx.authorityRecord ctx.owner ctx.target
      ctx.tranaRegistry := by
  unfold ReclaimAuthority.tryAccounts at h
  split at h
  next authorityRecord owner target programData newAuthorityInfo bpfLoader tranaGuardProgram
      tranaRegistry instructions systemProgram rest =>
    simp only [returns_bind, returns_signer, returns_programAccount, returns_constraintBump,
      returns_constraintRaw, returns_constraintClose, returns_constraintMut,
      returns_constraintAddress, returns_constraintSeeds, returns_pure, exists_const] at h
    obtain ⟨record, hrecord, _, ⟨hsigner, rfl⟩, -, _, -, -, hderived, -, howner, htarget, -, -, -,
      -, -, hregistry, -, -, rfl⟩ := h
    exact ⟨accountAt_of_load hrecord, howner, htarget, hderived,
      ⟨owner, List.mem_cons_of_mem _ (List.mem_cons_self ..), rfl, hsigner⟩, hregistry⟩
  next => simp [notEnoughKeys] at h

/-- The address that signs for such a context is its record's. -/
theorem Entitled.signer_eq {key owner target registry pda : Pubkey} {record : AuthorityRecord}
    (h : Entitled d accounts l key record owner target registry)
    (hpda : authoritySeeds d record = some pda) : pda = key := by
  -- the context checked the PDA with the stored bump, and the seeds derive the same
  rw [authoritySeeds, h.owner_eq, h.target_eq, h.derived] at hpda
  exact (Option.some.inj hpda).symm

/-! ## Attempts -/

/-- A call to the loader, and the ledger it finds: the PDA of a live record of
`owner` and `target` signs, `owner` signed the instruction, the call is about
`target`, and the guard has enforced a proof of `owner` just before. -/
structure Attempt (d : Deployment) (env : Env) (accounts : List AccountMeta) (l : Ledger)
    (call : SignedCall) (mid : Ledger) (owner target : Pubkey) : Prop where
  signed : ∃ m ∈ accounts, m.pubkey = owner ∧ m.isSigner = true
  authority : ∃ key record, recordAt d l key = some record ∧ record.owner = owner ∧
    record.target = target ∧ call.signers = [key] ∧ d.loader.ActsOn target key call.ix
  enforced : (enforceProof d env (d.guard.findRegistry owner) owner l).Returns mid

/-- Its call is about the program the record names. -/
theorem ExecuteUpgrade.attempt {ctx : ExecuteUpgrade} {mid : Ledger} {pda : Pubkey}
    (hctx : (ExecuteUpgrade.tryAccounts d accounts l).Returns ctx)
    (hmid : (enforceProof d env ctx.tranaRegistry ctx.owner l).Returns mid)
    (hpda : authoritySeeds d ctx.authorityRecord = some pda) :
    Attempt d env accounts l (ctx.call d accounts pda) mid ctx.owner ctx.program := by
  have hentitled := executeUpgrade_tryAccounts hctx
  have hkey := hentitled.signer_eq hpda
  exact ⟨hentitled.signed, ⟨ctx.recordKey, ctx.authorityRecord, hentitled.live,
    hentitled.owner_eq, hentitled.target_eq, congrArg (fun k => [k]) hkey, .upgrade _ _⟩,
    hentitled.registry_eq ▸ hmid⟩

/-- Its call is about the target the record names. -/
theorem ReclaimAuthority.attempt {ctx : ReclaimAuthority} {newAuthority : Pubkey} {mid : Ledger}
    {pda : Pubkey} (hctx : (ReclaimAuthority.tryAccounts d accounts l).Returns ctx)
    (hmid : (enforceProof d env ctx.tranaRegistry ctx.owner l).Returns mid)
    (hpda : authoritySeeds d ctx.authorityRecord = some pda) :
    Attempt d env accounts l (ctx.call d accounts newAuthority pda) mid ctx.owner ctx.target := by
  have hentitled := reclaimAuthority_tryAccounts hctx
  have hkey := hentitled.signer_eq hpda
  exact ⟨hentitled.signed, ⟨ctx.recordKey, ctx.authorityRecord, hentitled.live,
    hentitled.owner_eq, hentitled.target_eq, congrArg (fun k => [k]) hkey, .setAuthority _⟩,
    hentitled.registry_eq ▸ hmid⟩

/-- The two ways a run of the program comes to call the loader. -/
inductive Invoked (d : Deployment) (env : Env) (accounts : List AccountMeta) (data : Bytes)
    (l : Ledger) : SignedCall → Ledger → Prop where
  | upgrade {ctx : ExecuteUpgrade} {mid : Ledger} {pda : Pubkey}
    (parsed : (parseInstruction data).Returns .executeUpgrade)
    (context : (ExecuteUpgrade.tryAccounts d accounts l).Returns ctx)
    (enforced : (enforceProof d env ctx.tranaRegistry ctx.owner l).Returns mid)
    (seeds : authoritySeeds d ctx.authorityRecord = some pda) :
    Invoked d env accounts data l (ctx.call d accounts pda) mid
  | reclaim {ctx : ReclaimAuthority} {newAuthority : Pubkey} {mid : Ledger} {pda : Pubkey}
    (parsed : (parseInstruction data).Returns (.reclaimAuthority newAuthority))
    (context : (ReclaimAuthority.tryAccounts d accounts l).Returns ctx)
    (enforced : (enforceProof d env ctx.tranaRegistry ctx.owner l).Returns mid)
    (seeds : authoritySeeds d ctx.authorityRecord = some pda) :
    Invoked d env accounts data l (ctx.call d accounts newAuthority pda) mid

/-- Parsing calls no loader. -/
theorem not_invoked_parse {data : Bytes} {call : SignedCall} {mid : Ledger} :
    Log.invoked call mid ∉ (parseInstruction data).logs := by
  unfold parseInstruction
  dsimp only
  split
  next => simp [mem_logs_bind]
  next =>
    split
    next => simp [mem_logs_bind]
    next =>
      split
      next => simp [mem_logs_bind]
      next => simp

/-- Validating accounts logs nothing: neither for `register`, -/
theorem logs_register_tryAccounts : (Register.tryAccounts d env accounts l).logs = [] := by
  unfold Register.tryAccounts
  split
  next => simp
  next => rfl

/-- nor for `execute_upgrade`, -/
theorem logs_executeUpgrade_tryAccounts : (ExecuteUpgrade.tryAccounts d accounts l).logs = [] := by
  unfold ExecuteUpgrade.tryAccounts
  split
  next => simp
  next => rfl

/-- nor for `reclaim_authority`. -/
theorem logs_reclaimAuthority_tryAccounts :
    (ReclaimAuthority.tryAccounts d accounts l).logs = [] := by
  unfold ReclaimAuthority.tryAccounts
  split
  next => simp
  next => rfl

/-- There are no others. -/
theorem invoked_iff {data : Bytes} {call : SignedCall} {mid : Ledger} :
    Log.invoked call mid ∈ (process d env accounts data l).logs ↔
      Invoked d env accounts data l call mid := by
  rw [process, mem_logs_bind, or_iff_right not_invoked_parse]
  constructor
  · intro h
    obtain ⟨ix, hix, h⟩ := h
    cases ix with
    | register => simp [execute, mem_logs_bind, logs_register_tryAccounts, register] at h
    | executeUpgrade =>
      simp only [execute, mem_logs_bind, logs_executeUpgrade_tryAccounts, List.not_mem_nil,
        false_or] at h
      obtain ⟨ctx, hctx, h⟩ := h
      obtain ⟨pda, hmid, hpda, rfl⟩ := invoked_executeUpgrade.mp h
      exact .upgrade hix hctx hmid hpda
    | reclaimAuthority newAuthority =>
      simp only [execute, mem_logs_bind, logs_reclaimAuthority_tryAccounts, logs_closeAccount,
        List.not_mem_nil, false_or, and_false, exists_false, or_false] at h
      obtain ⟨ctx, hctx, h⟩ := h
      obtain ⟨pda, hmid, hpda, rfl⟩ := invoked_reclaimAuthority.mp h
      exact .reclaim hix hctx hmid hpda
  · intro h
    cases h with
    | upgrade parsed context enforced seeds =>
      refine ⟨_, parsed, mem_logs_bind.mpr (Or.inr ⟨_, context, ?_⟩)⟩
      exact invoked_executeUpgrade.mpr ⟨_, enforced, seeds, rfl⟩
    | reclaim parsed context enforced seeds =>
      refine ⟨_, parsed, mem_logs_bind.mpr (Or.inr ⟨_, context, mem_logs_bind.mpr (Or.inl ?_)⟩)⟩
      exact invoked_reclaimAuthority.mpr ⟨_, enforced, seeds, rfl⟩

/-- Every call to the loader is an attempt of some owner on some target. -/
theorem Invoked.attempt {data : Bytes} {call : SignedCall} {mid : Ledger}
    (h : Invoked d env accounts data l call mid) :
    ∃ owner target, Attempt d env accounts l call mid owner target := by
  cases h with
  | upgrade parsed context enforced seeds =>
    exact ⟨_, _, ExecuteUpgrade.attempt context enforced seeds⟩
  | reclaim parsed context enforced seeds =>
    exact ⟨_, _, ReclaimAuthority.attempt context enforced seeds⟩

/-! ## Effects -/

/-- What `register` leaves. -/
structure Registered (d : Deployment) (ctx : Register) (l l' : Ledger) : Prop where
  key_eq : ctx.authorityRecord = (d.findRecord ctx.owner ctx.target).1
  stored : recordAt d l' ctx.authorityRecord = some ⟨ctx.owner, ctx.target, ctx.bump⟩
  frame : ∀ k, k ≠ ctx.authorityRecord → (l' k).owner = (l k).owner ∧ (l' k).data = (l k).data

/-- The context of `register` has created the record's account at its PDA. -/
theorem register_tryAccounts {ctx : Register}
    (h : (Register.tryAccounts d env accounts l).Returns (ctx, l')) :
    ctx.authorityRecord = (d.findRecord ctx.owner ctx.target).1 ∧
      l.initAccount env.minimumBalance ctx.owner ctx.authorityRecord d.programId
        AuthorityRecord.layout.space = some l' := by
  unfold Register.tryAccounts at h
  split at h
  next authorityRecord owner target systemProgram rest =>
    simp only [returns_bind, returns_signer, returns_programAccount, returns_constraintSeeds,
      returns_okOr, returns_constraintMut, returns_pure, exists_const] at h
    obtain ⟨_, ⟨-, rfl⟩, -, hkey, l₁, hinit, -, -, hp⟩ := h
    obtain ⟨rfl, rfl⟩ := Prod.mk.inj hp
    exact ⟨hkey, hinit⟩
  next => simp [notEnoughKeys] at h

/-- A successful `register` did what `Registered` says. -/
theorem register_effect (h : (execute d env accounts .register l).Returns l') :
    ∃ ctx l₁, (Register.tryAccounts d env accounts l).Returns (ctx, l₁) ∧
      Registered d ctx l l' := by
  simp only [execute, returns_bind, register, returns_emit, returns_pure, exists_const,
    true_and] at h
  obtain ⟨⟨ctx, l₁⟩, hctx, _, rfl, hexit⟩ := h
  obtain ⟨hkey, hinit⟩ := register_tryAccounts hctx
  obtain ⟨-, hframe⟩ := Ledger.initAccount_frame hinit
  have hnew := hframe ctx.authorityRecord
  rw [Ledger.set_self] at hnew
  obtain ⟨hstored, -, hothers⟩ := exitAccount_spec hnew.1 hexit
  refine ⟨ctx, l₁, hctx, hkey, hstored, fun k hk => ?_⟩
  have hk' := hframe k
  rw [Ledger.set_of_ne _ hk] at hk'
  rwa [hothers k hk]

/-- The call to the loader leaves the program's records and the registries. -/
theorem loader_frame {call : SignedCall} (h : d.loader.invoke call l = some l') :
    (∀ k, recordAt d l' k = recordAt d l k) ∧ SameRegistries d.guard l l' := by
  refine ⟨recordAt_external (d.loader.external _ _ _ _ h d.programId_ne_loader d.programId_ne),
    fun k => ?_⟩
  exact Guard.external_registryAt
    (d.loader.external _ _ _ _ h d.guard_ne_loader d.guard.programId_ne) k

/-- An upgrade changes no record. -/
theorem executeUpgrade_effect (h : (execute d env accounts .executeUpgrade l).Returns l') :
    ∀ k, recordAt d l' k = recordAt d l k := by
  simp only [execute, returns_bind, returns_executeUpgrade] at h
  obtain ⟨ctx, -, mid, pda, hmid, -, hcall⟩ := h
  exact fun k => ((loader_frame hcall).1 k).trans (recordAt_external (enforceProof_external hmid) k)

/-- What `reclaimAuthority` leaves: the record is gone. -/
structure Reclaimed (d : Deployment) (ctx : ReclaimAuthority) (l l' : Ledger) : Prop where
  live : recordAt d l ctx.recordKey = some ctx.authorityRecord
  closed : recordAt d l' ctx.recordKey = none
  others : ∀ k, k ≠ ctx.recordKey → recordAt d l' k = recordAt d l k

/-- Closing a record removes it, and touches no registry. -/
theorem closeRecord_spec {key dest : Pubkey} {record : AuthorityRecord}
    (hlive : recordAt d l key = some record)
    (h : (closeAccount key dest l : Result Ledger).Returns l') :
    recordAt d l' key = none ∧ (∀ k, k ≠ key → recordAt d l' k = recordAt d l k) ∧
      SameRegistries d.guard l l' := by
  obtain ⟨hkey, hframe⟩ := closeAccount_spec h
  have hbefore : (l key).owner = d.programId := (accountAt_eq_some.mp hlive).1
  have hafter : (l' key).owner = systemProgramId := by rw [hkey]
  refine ⟨if_neg fun heq => d.programId_ne (heq.symm.trans hafter), fun k hk => accountAt_congr
    (hframe k hk), Guard.sameRegistries_of_frame ?_ ?_ hframe⟩
  · exact fun heq => d.guard_ne (heq.symm.trans hbefore)
  · exact fun heq => d.guard.programId_ne (heq.symm.trans hafter)

/-- A successful reclaim did what `Reclaimed` says. -/
theorem reclaimAuthority_effect {newAuthority : Pubkey}
    (h : (execute d env accounts (.reclaimAuthority newAuthority) l).Returns l') :
    ∃ ctx, (ReclaimAuthority.tryAccounts d accounts l).Returns ctx ∧ Reclaimed d ctx l l' := by
  simp only [execute, returns_bind, returns_reclaimAuthority] at h
  obtain ⟨ctx, hctx, l₂, ⟨mid, pda, hmid, -, hcall⟩, hclose⟩ := h
  -- the record was there up to the close: neither the guard nor the loader touched it
  have hsame : ∀ k, recordAt d l₂ k = recordAt d l k := fun k =>
    ((loader_frame hcall).1 k).trans (recordAt_external (enforceProof_external hmid) k)
  have hlive := (reclaimAuthority_tryAccounts hctx).live
  obtain ⟨hclosed, hothers, -⟩ := closeRecord_spec ((hsame _).trans hlive) hclose
  exact ⟨ctx, hctx, hlive, hclosed, fun k hk => (hothers k hk).trans (hsame k)⟩

/-- What suffices for a reclaim. -/
theorem process_reclaimAuthority_of {data : Bytes} {ctx : ReclaimAuthority} {pda : Pubkey}
    {newAuthority : Pubkey} {mid l₂ : Ledger}
    (hparsed : (parseInstruction data).Returns (.reclaimAuthority newAuthority))
    (hctx : (ReclaimAuthority.tryAccounts d accounts l).Returns ctx)
    (hmid : (enforceProof d env ctx.tranaRegistry ctx.owner l).Returns mid)
    (hpda : authoritySeeds d ctx.authorityRecord = some pda)
    (hcall : d.loader.invoke (ctx.call d accounts newAuthority pda) mid = some l₂)
    (hclose : (closeAccount ctx.recordKey ctx.owner l₂ : Result Ledger).Returns l') :
    (process d env accounts data l).Returns l' := by
  refine returns_bind.mpr ⟨_, hparsed, returns_bind.mpr ⟨ctx, hctx, returns_bind.mpr ⟨l₂, ?_,
    hclose⟩⟩⟩
  exact returns_reclaimAuthority.mpr ⟨mid, pda, hmid, hpda, hcall⟩

/-- The run succeeds only when its call to the loader did, and leaves the
registries as they were then. -/
theorem Invoked.outcome {data : Bytes} {call : SignedCall} {mid : Ledger}
    (h : Invoked d env accounts data l call mid)
    (hrun : (process d env accounts data l).Returns l') :
    ∃ l₂, d.loader.invoke call mid = some l₂ ∧ SameRegistries d.guard l₂ l' := by
  obtain ⟨ix, hix, hrun⟩ := returns_bind.mp hrun
  cases h with
  | upgrade parsed context enforced seeds =>
    obtain rfl := parsed.unique hix
    simp only [execute, returns_bind, returns_executeUpgrade] at hrun
    obtain ⟨ctx, hctx, mid, pda, hmid, hpda, hcall⟩ := hrun
    obtain rfl := context.unique hctx
    obtain rfl := enforced.unique hmid
    obtain rfl := Option.some.inj (seeds.symm.trans hpda)
    exact ⟨l', hcall, fun _ => rfl⟩
  | reclaim parsed context enforced seeds =>
    obtain rfl := parsed.unique hix
    simp only [execute, returns_bind, returns_reclaimAuthority] at hrun
    obtain ⟨ctx, hctx, l₂, ⟨mid, pda, hmid, hpda, hcall⟩, hclose⟩ := hrun
    obtain rfl := context.unique hctx
    obtain rfl := enforced.unique hmid
    obtain rfl := Option.some.inj (seeds.symm.trans hpda)
    have hlive : recordAt d l₂ _ = _ :=
      ((loader_frame hcall).1 _).trans ((recordAt_external (enforceProof_external hmid) _).trans
        (reclaimAuthority_tryAccounts hctx).live)
    exact ⟨l₂, hcall, (closeRecord_spec hlive hclose).2.2⟩

/-- A successful run with an attempt in it consumed one nonce of its owner. -/
theorem Attempt.grows {call : SignedCall} {mid : Ledger} {owner target : Pubkey}
    (h : Attempt d env accounts l call mid owner target) : NonceGrows d.guard l mid owner :=
  enforceProof_grows h.enforced

end Trana.Authority
