import Trana.Guard.Logs
import Trana.Guard.Run

/-!
# The audit trail

Every successful verification emits a `ProofVerified` event (`verify.rs`, the
`emit!` at the end of `run_verification`), the program's own account of what it
let through. An indexer sees the events of the transactions that were
committed; what a failing transaction logs is rolled back with it, so only
executions that return a value count here.

An event is one entry of the log the programs of `Trana.Lib.Exec` write. The log
of `x >>= f` is the log of `x` followed by that of `f`, so the events of an
instruction are collected line by line along its body: everything before the
`emit!` is silent, and so is everything after it.

* `events_bind`, `events_bind_silent` — the events of two programs in a row.
* `events_verifyAtIdx` — a verification emits one event, about the protected
  instruction and the nonce it consumes.
* `logs_initConfig_tryAccounts`, … — validating accounts logs nothing.
* `events_execute` — an instruction emits that event when it demands a proof.
* `events_free` — and none otherwise.
-/

namespace Trana.Guard

open Trana.Lib Trana.Lib.Exec Trana.Solana

/-- The events among log lines. -/
def eventsOf (logs : List Log) : List ProofVerified :=
  logs.filterMap fun
    | .msg _ => none
    | .proofVerified event => some event

section Bind

variable {α β : Type} {x : Result α} {f : α → Result β} {a : α}

/-- Of two programs in a row, the first's events come first. -/
theorem events_bind (h : x.Returns a) :
    eventsOf (x >>= f).logs = eventsOf x.logs ++ eventsOf (f a).logs := by
  rw [logs_bind_ok h, eventsOf, List.filterMap_append]
  rfl

/-- What logs no event can be left out. -/
theorem events_bind_silent (h : x.Returns a) (hx : eventsOf x.logs = []) :
    eventsOf (x >>= f).logs = eventsOf (f a).logs := by
  rw [events_bind h, hx, List.nil_append]

/-- A program that logs nothing emits nothing. -/
theorem events_nil (h : x.logs = []) : eventsOf x.logs = [] := by rw [h]; rfl

end Bind

/-! ## Verifications -/

section Pipeline

variable {clock : Clock} {ixSysvar : InstructionsSysvar} {registry registry' : PasskeyRegistry}
  {owner guardId : Pubkey} {currentIdx : UInt16} {proof : ProofData} {policy : String}
  {ix secpIx : Instruction}

/-- The line that asks for a proof is no event. -/
theorem events_requireProof {p : Prop} [Decidable p] : eventsOf (requireProof p).logs = [] := by
  unfold requireProof
  split <;> rfl

/-- Neither is that line where a value was looked up. -/
theorem events_okOrMissingProof {α : Type} {o : Option α} :
    eventsOf (okOrMissingProof o).logs = [] := by
  unfold okOrMissingProof
  split <;> rfl

/-- Reading the precompile's header logs nothing. -/
theorem logs_readSecpProof {data : Bytes} : (readSecpProof data).logs = [] := by
  simp [readSecpProof]

/-- Consuming a nonce logs nothing. -/
theorem logs_consumeNonce : (consumeNonce registry).logs = [] := by
  simp [consumeNonce]

/-- The event of a verification. -/
def verifiedEvent (owner : Pubkey) (policy : String) (ix : Instruction) (r : PasskeyRegistry)
    (proof : ProofData) : ProofVerified :=
  ⟨owner, policy, ix.programId, r.nonce, proof.expiry⟩

/-- Once all checks passed, the event is emitted; the statements before it are
silent one by one. -/
theorem events_runVerification
    (h : Accepts clock ixSysvar registry owner guardId currentIdx proof policy ix secpIx) :
    eventsOf (runVerification clock ixSysvar registry owner guardId currentIdx proof policy).logs =
      [verifiedEvent owner policy ix registry proof] := by
  obtain ⟨k, hk, heq⟩ := h.known
  have hany : registry.keys.any (·.pubkeyBytes == ownKey secpIx.data) = true :=
    List.any_eq_true.mpr ⟨k, hk, by simpa using heq⟩
  have hprotected : loadInstructionAtChecked currentIdx.toNat ixSysvar = some ix := h.protectedIx
  have hsecp : loadInstructionAtChecked (currentIdx.toNat - 2) ixSysvar = some secpIx := h.secp
  unfold runVerification
  -- up to the precompile: nothing is logged before the checks passed
  rw [events_bind_silent (returns_okOr.mpr hprotected) (events_nil logs_okOr),
    events_bind_silent (a := ()) (returns_require.mpr h.data_length) (events_nil logs_require),
    events_bind_silent (a := ()) (returns_require.mpr h.fresh) (events_nil logs_require),
    events_bind_silent (returns_protectedIntentHash.mpr ⟨h.data_length, h.fits, rfl⟩)
      (events_nil logs_protectedIntentHash),
    events_bind_silent (a := ()) (returns_checkChallenge.mpr h.challenge)
      (events_nil logs_checkChallenge),
    events_bind_silent (a := ()) (returns_withCapacity.mpr h.auth_fits)
      (events_nil logs_withCapacity),
    events_bind_silent (returns_unsignedSub.mpr ⟨h.two_le, rfl⟩) (events_nil logs_unsignedSub),
    events_bind_silent (returns_okOrMissingProof.mpr hsecp) events_okOrMissingProof,
    events_bind_silent (a := ()) (returns_requireProof.mpr h.secp_id) events_requireProof,
    events_bind_silent (returns_readSecpProof.mpr ⟨h.header, rfl⟩) (events_nil logs_readSecpProof)]
  dsimp only
  -- from the key check on, ending with the `msg!` line and the `emit!`
  rw [events_bind_silent (a := ()) (returns_require.mpr hany) (events_nil logs_require),
    events_bind_silent (a := ()) (returns_require.mpr h.eValue) (events_nil logs_require),
    events_bind_silent (returns_consumeNonce.mpr ⟨h.nonce_lt, rfl⟩) (events_nil logs_consumeNonce),
    events_bind_silent (a := ()) (returns_msg.mpr trivial) rfl,
    events_bind (a := ()) (returns_emit.mpr trivial)]
  rfl

/-- So a verification at an index emits one event, of the proof it loaded. -/
theorem events_verifyAtIdx
    (h : Verified clock ixSysvar registry owner guardId currentIdx policy proof ix secpIx) :
    eventsOf (verifyAtIdx clock ixSysvar registry owner guardId policy currentIdx).logs =
      [verifiedEvent owner policy ix registry proof] := by
  have htwo : 2 ≤ currentIdx := UInt16.le_iff_toNat_le.mpr h.two_le
  unfold verifyAtIdx
  rw [events_bind_silent (a := ()) (returns_requireProof.mpr htwo) events_requireProof,
    events_bind_silent (returns_loadProofFromPrecedingIx.mpr h.proofAt)
      (events_nil logs_loadProofFromPrecedingIx),
    events_bind_silent (a := ()) (returns_require.mpr h.policy_eq) (events_nil logs_require),
    events_runVerification h.toAccepts]

end Pipeline

/-! ## Instructions -/

section Execute

variable {d : Deployment} {env : Env} {accounts : List AccountMeta} {l l' : Ledger}

/-- Creating or loading the registry account logs nothing. -/
theorem logs_initRegistryIfNeeded {payer key : Pubkey} :
    (initRegistryIfNeeded d env payer key l).logs = [] := by
  unfold initRegistryIfNeeded initIfNeeded
  split <;> simp

/-- No account context logs anything: neither that of `init_config`, -/
theorem logs_initConfig_tryAccounts : (InitConfig.tryAccounts d env accounts l).logs = [] := by
  unfold InitConfig.tryAccounts
  split
  next => simp
  next => rfl

/-- nor that of `update_config`, -/
theorem logs_updateConfig_tryAccounts : (UpdateConfig.tryAccounts d accounts l).logs = [] := by
  unfold UpdateConfig.tryAccounts
  split
  next => simp
  next => rfl

/-- nor that of `register_passkey`, -/
theorem logs_registerPasskey_tryAccounts :
    (RegisterPasskey.tryAccounts d env accounts l).logs = [] := by
  unfold RegisterPasskey.tryAccounts
  split
  next => simp [logs_initRegistryIfNeeded]
  next => rfl

/-- nor that of `recover_registry`, -/
theorem logs_recoverRegistry_tryAccounts :
    (RecoverRegistry.tryAccounts d accounts l).logs = [] := by
  unfold RecoverRegistry.tryAccounts
  split
  next => simp
  next => rfl

/-- nor that of `add_passkey`, -/
theorem logs_addPasskey_tryAccounts : (AddPasskey.tryAccounts d accounts l).logs = [] := by
  unfold AddPasskey.tryAccounts
  split
  next => simp
  next => rfl

/-- nor that of `remove_passkey`, -/
theorem logs_removePasskey_tryAccounts : (RemovePasskey.tryAccounts d accounts l).logs = [] := by
  unfold RemovePasskey.tryAccounts
  split
  next => simp
  next => rfl

/-- nor that of `record_proof`, -/
theorem logs_recordProof_tryAccounts : (RecordProof.tryAccounts accounts).logs = [] := by
  unfold RecordProof.tryAccounts
  split
  next => simp
  next => rfl

/-- nor that of `enforce`. -/
theorem logs_enforce_tryAccounts : (Enforce.tryAccounts accounts).logs = [] := by
  unfold Enforce.tryAccounts
  split
  next => simp
  next => rfl

/-- A fee is moved without a line. -/
@[simp] theorem logs_collectFee {payer dst : Pubkey} {fee : UInt64} :
    (collectFee l payer dst fee).logs = [] := by
  unfold collectFee
  split <;> simp [invokeTransfer]

/-- The bounds of a new key are checked without a line. -/
@[simp] theorem logs_validateKeyInputs {pubkeyBytes credentialId : Bytes} :
    (validateKeyInputs pubkeyBytes credentialId).logs = [] := by
  simp [validateKeyInputs]

/-- A log without events has none of their lines. -/
theorem eventsOf_eq_nil {logs : List Log} :
    eventsOf logs = [] ↔ ∀ event, Log.proofVerified event ∉ logs := by
  rw [eventsOf, List.filterMap_eq_nil_iff]
  constructor
  · intro h event hmem
    cases h _ hmem
  · intro h line hline
    cases line with
    | msg text => rfl
    | proofVerified event => exact absurd hline (h event)

/-- An instruction that demands no proof emits nothing. -/
theorem events_free {ix : GuardInstruction} (h : ix.requires env = none) :
    eventsOf (execute d env accounts ix l).logs = [] := by
  rw [eventsOf_eq_nil]
  intro event
  cases ix with
  | initConfig registerFee addKeyFee treasury =>
    simp [execute, mem_logs_bind, logs_initConfig_tryAccounts, initConfig]
  | updateConfig registerFee addKeyFee treasury =>
    simp [execute, mem_logs_bind, logs_updateConfig_tryAccounts, updateConfig]
  | registerPasskey keyKind pubkeyBytes credentialId =>
    simp [execute, mem_logs_bind, logs_registerPasskey_tryAccounts, registerPasskey]
  | recoverRegistry keyKind pubkeyBytes credentialId =>
    simp [execute, mem_logs_bind, logs_recoverRegistry_tryAccounts, recoverRegistry]
  | addPasskey keyKind pubkeyBytes credentialId => cases h
  | removePasskey credentialId => cases h
  | recordProof proof =>
    simp [execute, mem_logs_bind, logs_recordProof_tryAccounts, recordProof]
  | enforce policy =>
    -- a policy that does not fire returns before it verifies
    have hidle : policy.fires env = false := by
      cases hfires : policy.fires env with
      | false => rfl
      | true =>
        rw [GuardInstruction.requires, if_pos hfires] at h
        cases h
    simp [execute, mem_logs_bind, logs_enforce_tryAccounts, logs_enforce, hidle]

/-- `add_passkey` verifies under the `Require` policy, and emits that event alone. -/
theorem events_addPasskey {ctx : AddPasskey} {keyKind : KeyKind}
    {pubkeyBytes credentialId : Bytes} {p : PasskeyRegistry × Ledger}
    (h : (addPasskey d env ctx keyKind pubkeyBytes credentialId l).Returns p) :
    ∃ proof ix secpIx, Verified env.clock env.ixSysvar ctx.registry ctx.owner d.programId
        env.ixSysvar.currentIndex policyRequire proof ix secpIx ∧
      eventsOf (addPasskey d env ctx keyKind pubkeyBytes credentialId l).logs =
        [verifiedEvent ctx.owner policyRequire ix ctx.registry proof] := by
  simp only [addPasskey, returns_bind, returns_validateKeyInputs, returns_require,
    returns_verifyWithPolicy, returns_msg, returns_pure, exists_const, true_and] at h
  obtain ⟨hvalid, hroom, _, ⟨rfl, proof, ix, secpIx, hv⟩, l₂, hfee, -⟩ := h
  -- the run gives the proof; the log is then computed along the same path
  refine ⟨proof, ix, secpIx, hv, ?_⟩
  unfold addPasskey
  rw [events_bind_silent (a := ()) (returns_validateKeyInputs.mpr hvalid)
      (events_nil logs_validateKeyInputs),
    events_bind_silent (a := ()) (returns_require.mpr hroom) (events_nil logs_require),
    events_bind (returns_verifyWithPolicy.mpr ⟨rfl, proof, ix, secpIx, hv⟩), verifyWithPolicy,
    loadCurrentIndexChecked, events_verifyAtIdx hv,
    events_bind_silent hfee (events_nil logs_collectFee)]
  rfl

/-- `remove_passkey` does the same. -/
theorem events_removePasskey {ctx : RemovePasskey} {credentialId : Bytes} {r : PasskeyRegistry}
    (h : (removePasskey d env ctx credentialId).Returns r) :
    ∃ proof ix secpIx, Verified env.clock env.ixSysvar ctx.registry ctx.owner d.programId
        env.ixSysvar.currentIndex policyRequire proof ix secpIx ∧
      eventsOf (removePasskey d env ctx credentialId).logs =
        [verifiedEvent ctx.owner policyRequire ix ctx.registry proof] := by
  simp only [removePasskey, returns_bind, returns_require, returns_verifyWithPolicy, returns_msg,
    returns_pure, exists_const, true_and] at h
  obtain ⟨hseveral, _, ⟨rfl, proof, ix, secpIx, hv⟩, hshorter, -⟩ := h
  -- as for `add_passkey`, without a fee
  refine ⟨proof, ix, secpIx, hv, ?_⟩
  unfold removePasskey
  rw [events_bind_silent (a := ()) (returns_require.mpr hseveral) (events_nil logs_require),
    events_bind (returns_verifyWithPolicy.mpr ⟨rfl, proof, ix, secpIx, hv⟩), verifyWithPolicy,
    loadCurrentIndexChecked, events_verifyAtIdx hv]
  dsimp only
  rw [events_bind_silent (a := ()) (returns_require.mpr hshorter) (events_nil logs_require)]
  rfl

/-- A firing `enforce` verifies under the policy's own domain, over the registry it
was handed. -/
theorem events_guarded {ctx : Enforce} {policy : Policy}
    (h : (guarded d env ctx policy l).Returns l') :
    ∃ r proof ix secpIx, registryAt d l ctx.registry = some r ∧ r.owner = ctx.owner ∧
      Verified env.clock env.ixSysvar r ctx.owner d.programId env.ixSysvar.currentIndex
        policy.domain proof ix secpIx ∧
      eventsOf (guarded d env ctx policy l).logs =
        [verifiedEvent ctx.owner policy.domain ix r proof] := by
  simp only [guarded, withRegistry, returns_bind, returns_require, returns_okOr, returns_pure,
    returns_verifyWithPolicy, exists_const] at h
  obtain ⟨howner, r, hr, hrowner, _, ⟨rfl, proof, ix, secpIx, hv⟩, data, hdata, -⟩ := h
  -- the registry is the one at the address that was handed over, not the wallet's
  refine ⟨r, proof, ix, secpIx, registryAt_eq_some.mpr ⟨howner, toOption_eq_some.mp hr⟩, hrowner,
    hv, ?_⟩
  unfold guarded withRegistry
  rw [events_bind_silent (a := ()) (returns_require.mpr howner) (events_nil logs_require),
    events_bind_silent (returns_okOr.mpr hr) (events_nil logs_okOr),
    events_bind_silent (a := ()) (returns_require.mpr hrowner) (events_nil logs_require),
    events_bind (returns_verifyWithPolicy.mpr ⟨rfl, proof, ix, secpIx, hv⟩), verifyWithPolicy,
    loadCurrentIndexChecked, events_verifyAtIdx hv,
    events_bind_silent (returns_okOr.mpr hdata) (events_nil logs_okOr)]
  rfl

/-- An instruction that demands a proof emits one event: the signing wallet, the
policy, the protected instruction's program, and the nonce of the registry it
was verified over. -/
theorem events_execute {ix : GuardInstruction} {policy : String}
    (h : (execute d env accounts ix l).Returns l') (hreq : ix.requires env = some policy) :
    ∃ w key r proof pix secpIx, Names accounts key w ∧ registryAt d l key = some r ∧
      (key = d.findRegistry w ∨ r.owner = w) ∧
      Verified env.clock env.ixSysvar r w d.programId env.ixSysvar.currentIndex policy proof pix
        secpIx ∧
      eventsOf (execute d env accounts ix l).logs = [verifiedEvent w policy pix r proof] := by
  cases ix with
  | addPasskey keyKind pubkeyBytes credentialId =>
    obtain rfl := Option.some.inj hreq
    obtain ⟨ctx, hctx, hrun⟩ := returns_bind.mp h
    obtain ⟨p, hp, hexit⟩ := returns_bind.mp hrun
    obtain ⟨hnames, hkey, hfound⟩ := addPasskey_tryAccounts hctx
    obtain ⟨proof, pix, secpIx, hv, hevents⟩ := events_addPasskey hp
    refine ⟨ctx.owner, _, ctx.registry, proof, pix, secpIx, hkey ▸ hnames, hfound, Or.inl rfl, hv,
      ?_⟩
    rw [execute, events_bind_silent hctx (events_nil logs_addPasskey_tryAccounts),
      events_bind hp, hevents, events_nil logs_exitAccount, List.append_nil]
  | removePasskey credentialId =>
    obtain rfl := Option.some.inj hreq
    obtain ⟨ctx, hctx, hrun⟩ := returns_bind.mp h
    obtain ⟨r, hr, hexit⟩ := returns_bind.mp hrun
    obtain ⟨hnames, hkey, hfound⟩ := removePasskey_tryAccounts hctx
    obtain ⟨proof, pix, secpIx, hv, hevents⟩ := events_removePasskey hr
    refine ⟨ctx.owner, _, ctx.registry, proof, pix, secpIx, hkey ▸ hnames, hfound, Or.inl rfl, hv,
      ?_⟩
    rw [execute, events_bind_silent hctx (events_nil logs_removePasskey_tryAccounts),
      events_bind hr, hevents, events_nil logs_exitAccount, List.append_nil]
  | enforce policy' =>
    rw [GuardInstruction.requires] at hreq
    split at hreq
    next hfires =>
      obtain rfl := Option.some.inj hreq
      obtain ⟨ctx, hctx, hrun⟩ := returns_bind.mp h
      -- the policy fires, or it would demand nothing
      rcases returns_enforce.mp hrun with ⟨hidle, -⟩ | ⟨-, hguarded⟩
      · cases hfires.symm.trans hidle
      · obtain ⟨r, proof, pix, secpIx, hfound, howner, hv, hevents⟩ := events_guarded hguarded
        refine ⟨ctx.owner, ctx.registry, r, proof, pix, secpIx, enforce_tryAccounts hctx, hfound,
          Or.inr howner, hv, ?_⟩
        rw [execute, events_bind_silent hctx (events_nil logs_enforce_tryAccounts), logs_enforce,
          if_pos hfires, ← hevents]
        rfl
    next => cases hreq
  | initConfig registerFee addKeyFee treasury => cases hreq
  | updateConfig registerFee addKeyFee treasury => cases hreq
  | registerPasskey keyKind pubkeyBytes credentialId => cases hreq
  | recoverRegistry keyKind pubkeyBytes credentialId => cases hreq
  | recordProof proof => cases hreq

end Execute

end Trana.Guard
