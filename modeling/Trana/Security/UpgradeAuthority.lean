import Trana.Authority.Run
import Trana.Sdk.Transaction
import Trana.Vault.State

/-!
# Upgrade authority behind a proof

What the upgrade-authority program promises of every call to the loader that
one of its records signs, over runs.

* `upgrade_authority` — such a call is made for the live record of an owner who
  signed, about that record's target, with a fresh proof, and not between a
  reclaim and the next registration.
* `upgrade_authority_reclaim` — the run in which a wallet registers a program
  and reclaims its authority.

The loader is a parameter of the deployment: a function on ledgers that may fail,
with the documented checks as fields, among them which accounts an upgrade and a
change of authority write to. A call to it is found inside the handler's run, so
calls of instructions that fail later count as well, and what they did is undone
with the instruction.

`Exercises` lists what stands behind one call: who signed, which record signs
for it, that the proof's nonce was used up before the loader is called, and that
the program data of other targets keep their owner and data. A step of another
program may do anything to the ledger but write to the accounts of this program
and of the guard.

`setAuthority` is the loader's own rule for `SetAuthority`, spelt out for the
example run; the theorem holds of any loader with these checks.
-/

namespace Trana.Security

open Trana.Lib Trana.Lib.Exec Trana.Solana Trana.Authority

/-- The call to the loader in this transition is made for `owner` and `target`:
`owner` signed, their live record's PDA signs, and the call is about `target`.
The loader finds a ledger in which the owner's nonce has grown; so has it after
the instruction, or nothing has changed. -/
structure Exercises (d : Authority.Deployment) (t : Authority.Moment) (c : Guard.Call)
    (call : SignedCall) (mid : Ledger) (owner target : Pubkey) : Prop where
  signed : ∃ m ∈ c.accounts, m.pubkey = owner ∧ m.isSigner = true
  authority : ∃ key record, recordAt d t.before key = some record ∧ record.owner = owner ∧
    record.target = target ∧ call.signers = [key] ∧ d.loader.ActsOn target key call.ix
  spares : ∀ other l', d.loader.invoke call mid = some l' →
    d.loader.programData other ≠ d.loader.programData target →
    loaderState (mid (d.loader.programData other)) = some .programData →
    (l' (d.loader.programData other)).owner = (mid (d.loader.programData other)).owner ∧
      (l' (d.loader.programData other)).data = (mid (d.loader.programData other)).data
  proof : Authority.NonceGrows d.guard t.before mid owner
  consumed : t.label = .executed c → Authority.NonceGrows d.guard t.before t.after owner
  undone : d.loader.invoke call mid = none → t.after = t.before

section Run

variable {d : Authority.Deployment} {l₀ l : Ledger} {trace : List Authority.Moment}

/-- Every call to the loader is made for some owner and target. -/
theorem exercises_of_callsLoader {t : Authority.Moment} {c : Guard.Call} {call : SignedCall}
    {mid : Ledger} (h : Authority.Step d t.before t.label t.after)
    (hcalls : CallsLoader d t.before t.label c call mid) :
    ∃ owner target, Exercises d t c call mid owner target := by
  obtain ⟨hlabel, hlog⟩ := hcalls
  have hinvoked := invoked_iff.mp hlog
  obtain ⟨owner, target, hattempt⟩ := hinvoked.attempt
  have hacts := hattempt.authority
  refine ⟨owner, target, hattempt.signed, hacts, fun other l' hcall hne hdata => ?_,
    hattempt.grows, fun heq => ?_, fun hnone => ?_⟩
  -- a loader that works on one target's program data leaves those of the others
  · obtain ⟨key, record, -, -, -, -, hacts⟩ := hacts
    exact Loader.spares hacts hcall hne hdata
  · rw [heq] at h
    cases h with
    | executed hrun =>
      obtain ⟨l₂, hcall, hsame⟩ := hinvoked.outcome hrun
      exact (hattempt.grows.of_sameRegistries (loader_frame hcall).2).of_sameRegistries hsame
  · rcases hlabel with heq | heq
    · -- a run whose call failed has failed
      rw [heq] at h
      cases h with
      | executed hrun =>
        obtain ⟨l₂, hcall, -⟩ := hinvoked.outcome hrun
        cases hnone.symm.trans hcall
    · rw [heq] at h
      generalize hbefore : t.before = s at h
      generalize hafter : t.after = s' at h
      cases h with
      | failed => rfl

/-- After a reclaim there is no call for that owner and target before they
register again. -/
theorem no_exercise_after_reclaim {pre between post : List Authority.Moment}
    {t₀ t₁ : Authority.Moment} {owner target : Pubkey} {c : Guard.Call} {call : SignedCall}
    {mid : Ledger} (hnamed : Authority.Named d l₀)
    (hrun : Run (Authority.Step d) l₀ (pre ++ t₀ :: (between ++ t₁ :: post)) l)
    (hreclaims : Reclaims d t₀.before t₀.label owner target)
    (hno : ∀ u ∈ between, ¬Registers d u.before u.label owner target) :
    ¬Exercises d t₁ c call mid owner target := by
  obtain ⟨hpre, hstep, hrest⟩ := hrun.split
  have hbefore : Authority.Named d t₀.before := hpre.stays hnamed fun u hu hn =>
    Authority.named_step hn (hpre.step u hu)
  obtain ⟨hbetween, -, -⟩ := hrest.split
  have hnone : NoRecord d owner target t₁.before :=
    hbetween.stays (noRecord_of_reclaims hbefore hstep hreclaims) fun u hu hn =>
      noRecord_step (hbetween.step u hu) (hno u hu) hn
  intro hex
  obtain ⟨key, record, hrecord, howner, htarget, -⟩ := hex.authority
  exact hnone key record hrecord ⟨howner, htarget⟩

end Run

/-- Every call to the loader that a record's PDA signs is made for an owner and a
target it is entitled to act on, and none comes between a reclaim and the next
registration. -/
theorem upgrade_authority {d : Authority.Deployment} {l₀ l : Ledger}
    {trace : List Authority.Moment} (hgenesis : Ledger.Genesis d.programId l₀)
    (hrun : Run (Authority.Step d) l₀ trace l) :
    (∀ t ∈ trace, ∀ c call mid, CallsLoader d t.before t.label c call mid →
      ∃ owner target, Exercises d t c call mid owner target) ∧
    ∀ pre t₀ between t₁ post owner target, trace = pre ++ t₀ :: (between ++ t₁ :: post) →
      Reclaims d t₀.before t₀.label owner target →
      (∀ u ∈ between, ¬Registers d u.before u.label owner target) →
      ∀ c call mid, ¬Exercises d t₁ c call mid owner target := by
  constructor
  · intro t ht c call mid hcalls
    exact exercises_of_callsLoader (hrun.step t ht) hcalls
  · intro pre t₀ between t₁ post owner target heq hreclaims hno c call mid
    subst heq
    exact no_exercise_after_reclaim (Authority.named_genesis hgenesis) hrun hreclaims hno

/-! ### A wallet reclaims its authority -/

section Localnet

open Sdk.Localnet

/-- The record PDA of the wallet and the demo vault, bump 255. -/
def recordPda : Pubkey :=
  ⟨[231, 98, 97, 233, 166, 134, 205, 94, 238, 168, 246, 143, 150, 216, 90, 109, 37, 68, 117, 143,
    110, 165, 244, 80, 118, 125, 118, 10, 89, 22, 50, 40], by decide⟩

/-- The program data address of the demo vault. -/
def programDataPda : Pubkey :=
  ⟨[157, 157, 102, 118, 221, 167, 246, 241, 169, 169, 33, 224, 105, 152, 79, 48, 143, 156, 147, 56,
    152, 252, 198, 52, 220, 46, 239, 54, 114, 236, 55, 140], by decide⟩

/-- The runtime's checks: every account is passed along, and no privilege goes
beyond the caller's and the signing PDAs'. -/
def Permitted (call : SignedCall) : Prop :=
  ∀ m ∈ call.ix.accounts, m.pubkey ∈ call.infos ∧
    (m.isSigner = true → m.pubkey ∈ call.signers ∨
      ∃ m' ∈ call.caller, m'.pubkey = m.pubkey ∧ m'.isSigner = true) ∧
    (m.isWritable = true → ∃ m' ∈ call.caller, m'.pubkey = m.pubkey ∧ m'.isWritable = true)

instance (call : SignedCall) : Decidable (Permitted call) :=
  inferInstanceAs (Decidable (∀ m ∈ call.ix.accounts, _ ∧ _ ∧ _))

/-- Tag, slot and the authority in front of the program's code. -/
def programDataOf (authority : Pubkey) (code : Bytes) : Bytes :=
  leBytes 4 3 ++ leBytes 8 0 ++ 1 :: authority.bytes ++ code

/-- `SetAuthority` on program data: the present authority signs. -/
def setAuthority (call : SignedCall) (l : Ledger) : Option Ledger :=
  match call.ix.accounts with
  | pd :: current :: new :: _ =>
    let a := l pd.pubkey
    if call.ix.data = leBytes 4 4 ∧ Permitted call ∧ current.isSigner = true ∧
        a.owner = bpfLoaderId ∧ loaderState a = some .programData ∧
        (a.data.drop 12).take 33 = 1 :: current.pubkey.bytes then
      some (l.set pd.pubkey
        { a with data := a.data.take 12 ++ 1 :: new.pubkey.bytes ++ a.data.drop 45 })
    else none
  | _ => none

theorem setAuthority_eq_some {call : SignedCall} {l l' : Ledger}
    (h : setAuthority call l = some l') :
    ∃ pd rest data, call.ix.accounts = pd :: rest ∧ call.ix.data = leBytes 4 4 ∧
      (l pd.pubkey).owner = bpfLoaderId ∧ l' = l.set pd.pubkey { l pd.pubkey with data } := by
  unfold setAuthority at h
  split at h
  next pd current new rest haccounts =>
    dsimp only at h
    split at h
    next hchecks =>
      obtain rfl := Option.some.inj h
      exact ⟨pd, _, _, haccounts, hchecks.1, hchecks.2.2.2.1, rfl⟩
    next => cases h
  next => cases h

theorem setAuthority_lamports {call : SignedCall} {l l' : Ledger}
    (h : setAuthority call l = some l') (k : Pubkey) : (l' k).lamports = (l k).lamports := by
  obtain ⟨pd, rest, data, -, -, -, rfl⟩ := setAuthority_eq_some h
  by_cases hk : k = pd.pubkey
  · rw [hk, Ledger.set_self]
  · rw [Ledger.set_of_ne _ hk]

/-- A loader with that one instruction. -/
def setAuthorityLoader : Loader where
  programData _ := programDataPda
  invoke := setAuthority
  external call l l' p h hne _ := by
    obtain ⟨pd, rest, data, -, -, howner, rfl⟩ := setAuthority_eq_some h
    have hother : (l pd.pubkey).owner ≠ p := fun heq => hne (heq.symm.trans howner)
    exact (Ledger.Respects.set (a := { l pd.pubkey with data }) hother hother).toExternal
  upgrade_checks call l l' pd program buffer authority spill h hix := by
    obtain ⟨-, -, -, -, hdata, -⟩ := setAuthority_eq_some h
    rw [hix] at hdata
    exact absurd hdata (by decide : leBytes 4 3 ≠ leBytes 4 4)
  upgrade_writes call l l' pd program buffer authority spill h hix := by
    obtain ⟨-, -, -, -, hdata, -⟩ := setAuthority_eq_some h
    rw [hix] at hdata
    exact absurd hdata (by decide : leBytes 4 3 ≠ leBytes 4 4)
  setAuthority_writes call l l' pd current new h hix k hk := by
    obtain ⟨pd', rest, data, haccounts, -, -, rfl⟩ := setAuthority_eq_some h
    rw [hix] at haccounts
    obtain ⟨rfl, -⟩ := List.cons.inj haccounts
    rw [Ledger.set_of_ne _ hk]
    exact ⟨rfl, rfl⟩

def authorityDeployment : Authority.Deployment where
  guard := deployment
  loader := setAuthorityLoader
  network := .localnet
  findRecord _ _ := (recordPda, 255)
  createRecord _ _ bump := if bump = 255 then some recordPda else none
  guard_network := rfl
  createRecord_find _ _ := rfl

/-- The wallet has ten SOL, and the vault's authority is the record PDA. -/
def delegated : Ledger :=
  genesis.set programDataPda ⟨10000000, bpfLoaderId, programDataOf recordPda [0, 0, 0, 0]⟩

def registerIx : Instruction where
  programId := authorityId
  accounts := [writableMeta recordPda, signerMeta wallet, readonlyMeta Vault.vaultId,
    readonlyMeta systemProgramId]
  data := registerDisc

/-- Back to the treasury. -/
def reclaimIx : Instruction where
  programId := authorityId
  accounts := [writableMeta recordPda, signerMeta wallet, writableMeta Vault.vaultId,
    writableMeta programDataPda, readonlyMeta treasury, readonlyMeta bpfLoaderId,
    readonlyMeta Guard.localnetId, writableMeta registryPda, readonlyMeta instructionsId,
    readonlyMeta systemProgramId]
  data := reclaimAuthorityDisc ++ treasury.bytes

/-- The passkey's signature for it at nonce zero. -/
def reclaimApproval : Sdk.Assertion :=
  assertion
    [208, 163, 158, 243, 27, 150, 118, 43, 152, 98, 173, 206, 191, 67, 49, 120, 142, 157, 53, 173,
     160, 94, 184, 221, 217, 41, 166, 221, 87, 206, 171, 87, 79, 118, 203, 59, 65, 205, 246, 71, 23,
     209, 164, 74, 107, 229, 114, 154, 203, 9, 213, 134, 16, 81, 56, 241, 52, 84, 23, 215, 14, 202,
     120, 65] (by decide)

/-- The wallet sets up its registry, then registers the vault. -/
def registerLabels : List Authority.Label :=
  setup.map .guard ++ [.executed (call [registerIx] 0 registerIx)]

def recorded : Ledger :=
  (replay (Authority.next? authorityDeployment) delegated registerLabels).getD delegated

theorem run_recorded : ∃ trace, Run (Authority.Step authorityDeployment) delegated trace recorded ∧
    trace.map Transition.label = registerLabels := by
  have hsome : (replay (Authority.next? authorityDeployment) delegated
      registerLabels).isSome = true := by
    decide +kernel
  obtain ⟨l, hl⟩ := Option.isSome_iff_exists.mp hsome
  have hrecorded : recorded = l := by rw [recorded, hl]; rfl
  rw [hrecorded]
  exact run_of_replay (fun _ _ _ => Authority.step_of_next?) hl

/-- What is there before the reclaim. -/
theorem recorded_state :
    Guard.registryAt deployment recorded registryPda = some (registry 0) ∧
    (recorded programDataPda).owner = bpfLoaderId ∧
    (recorded programDataPda).data = programDataOf recordPda [0, 0, 0, 0] ∧
    (recorded wallet).lamports.toNat + (recorded recordPda).lamports.toNat < 2 ^ 64 := by
  decide +kernel

/-- The reclaim behind its proof. -/
def reclaimCall : Guard.Call := provenCall reclaimApproval reclaimIx 0

def reclaimContext : ReclaimAuthority where
  recordKey := recordPda
  authorityRecord := ⟨wallet, Vault.vaultId, 255⟩
  owner := wallet
  target := Vault.vaultId
  programData := programDataPda
  newAuthorityInfo := treasury
  tranaRegistry := registryPda

/-- The call to the loader it makes. -/
def reclaimSigned : SignedCall :=
  reclaimContext.call authorityDeployment reclaimCall.accounts treasury recordPda

theorem reclaim_context :
    (ReclaimAuthority.tryAccounts authorityDeployment reclaimCall.accounts recorded).Returns
      reclaimContext := by
  decide +kernel

theorem reclaim_enforced : ∃ mid,
    (enforceProof authorityDeployment reclaimCall.env registryPda wallet recorded).Returns mid := by
  have hctx : (Guard.Enforce.tryAccounts [⟨registryPda, false, true⟩, ⟨wallet, true, false⟩,
      ⟨instructionsId, false, false⟩]).Returns ⟨registryPda, wallet⟩ := rfl
  obtain ⟨mid, hrun, -⟩ := Guard.execute_enforce_of (d := deployment) (l := recorded)
    reclaimCall.env .require hctx rfl recorded_state.1 rfl
    (provenCall_verifies (a := reclaimApproval) rfl (by decide) (by decide)
      ⟨entry, List.mem_singleton_self _, rfl⟩)
  exact ⟨mid, returns_embed.mpr (returns_bind.mpr ⟨_, Guard.parse_enforceData .require, hrun⟩)⟩

/-- The guard has changed nothing that the loader reads. -/
theorem reclaim_invoked {mid : Ledger}
    (hmid : (enforceProof authorityDeployment reclaimCall.env registryPda wallet recorded).Returns
      mid) :
    ∃ l', setAuthority reclaimSigned mid = some l' := by
  rw [enforceProof, returns_embed] at hmid
  obtain ⟨-, hbefore, hdata, -⟩ := recorded_state
  obtain ⟨howner, hsame⟩ := (Guard.process_respects (p := bpfLoaderId) (by decide)
    authorityDeployment.guard_ne_loader hmid).keeps programDataPda hbefore
  rw [hdata] at hsame
  have hstate : loaderState (mid programDataPda) = some .programData := by
    rw [loaderState, hsame]
    decide
  have hauthority : ((mid programDataPda).data.drop 12).take 33 = 1 :: recordPda.bytes := by
    rw [hsame]
    decide
  exact ⟨_, if_pos ⟨rfl, by decide, rfl, howner, hstate, hauthority⟩⟩

/-- The reclaim succeeds, and the loader is called in it. -/
theorem reclaim_succeeds : ∃ l' mid,
    Authority.Step authorityDeployment recorded (.executed reclaimCall) l' ∧
    CallsLoader authorityDeployment recorded (.executed reclaimCall) reclaimCall reclaimSigned
      mid := by
  obtain ⟨mid, hmid⟩ := reclaim_enforced
  obtain ⟨l₂, hcall⟩ := reclaim_invoked hmid
  have hlamports := setAuthority_lamports hcall
  have hparsed : (Authority.parseInstruction reclaimCall.data).Returns
      (.reclaimAuthority treasury) := by
    decide +kernel
  have hseeds : authoritySeeds authorityDeployment reclaimContext.authorityRecord =
      some recordPda := rfl
  have hframe := hmid
  rw [enforceProof, returns_embed] at hframe
  obtain ⟨ix, hix, hrun⟩ := returns_bind.mp hframe
  obtain rfl := (Guard.parse_enforceData .require).unique hix
  have hsame := fun k => ((Guard.enforce_frame hrun).1 k).1
  -- the record is closed last, into the owner's lamports, which the guard has not touched
  have hlt : (l₂ wallet).lamports.toNat + (l₂ recordPda).lamports.toNat < 2 ^ 64 := by
    rw [hlamports, hlamports, hsame, hsame]
    exact recorded_state.2.2.2
  have hclose : ∃ l', (closeAccount recordPda wallet l₂ : Authority.Result Ledger).Returns l' := by
    simp only [closeAccount, returns_bind, returns_u64Add, returns_pure]
    exact ⟨_, _, ⟨hlt, rfl⟩, rfl⟩
  obtain ⟨l', hclose⟩ := hclose
  refine ⟨l', mid, .executed ?_, Or.inl rfl, invoked_iff.mpr ?_⟩
  · exact process_reclaimAuthority_of hparsed reclaim_context hmid hseeds hcall hclose
  · exact .reclaim hparsed reclaim_context hmid hseeds

/-- The wallet's reclaim is made for the wallet and the vault. -/
theorem upgrade_authority_reclaim : ∃ (pre : List Authority.Moment) (t : Authority.Moment)
    (mid : Ledger),
    Run (Authority.Step authorityDeployment) delegated (pre ++ [t]) t.after ∧
    pre.map Transition.label = registerLabels ∧ t.label = .executed reclaimCall ∧
    CallsLoader authorityDeployment t.before t.label reclaimCall reclaimSigned mid ∧
    ∃ owner target, Exercises authorityDeployment t reclaimCall reclaimSigned mid owner target := by
  obtain ⟨pre, hrun, hlabels⟩ := run_recorded
  obtain ⟨l', mid, hstep, hcalls⟩ := reclaim_succeeds
  obtain ⟨s, hs⟩ : ∃ s, s = recorded := ⟨_, rfl⟩
  rw [← hs] at hrun hstep hcalls
  have hall := hrun.append (.cons hstep (.nil l'))
  have hgenesis : Ledger.Genesis authorityDeployment.programId delegated := by
    intro k hk
    by_cases hpd : k = programDataPda
    · rw [hpd, delegated, Ledger.set_self] at hk
      exact absurd hk.symm authorityDeployment.programId_ne_loader
    · rw [delegated, Ledger.set_of_ne _ hpd] at hk ⊢
      exact genesis_of_ne authorityDeployment.programId_ne k hk
  exact ⟨pre, _, mid, hall, hlabels, rfl, hcalls,
    (upgrade_authority hgenesis hall).1 _ (List.mem_append_right _ (List.mem_singleton_self _))
      reclaimCall reclaimSigned mid hcalls⟩

end Localnet

end Trana.Security
