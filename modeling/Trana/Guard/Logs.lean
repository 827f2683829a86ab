import Trana.Guard.ProgramSpec

/-!
# What an enforcement logs

A client that simulates a transaction sees nothing of the program but its log
lines, and the SDK's detector decides from them whether a passkey is needed.
`logs_process_enforce` gives all of them for a call to `enforce` in a
transaction without a precompile instruction: the dispatch line, then, when the
policy fires, its line, and then at most the line that asks for a proof.

The texts are the `msg!` lines of `lib.rs` and `verify.rs`. Lines the runtime
adds (`Program … invoke [1]`, consumed units) are not the program's and are
added where a transaction's log is read (`Trana.Sdk.Detector`).

* `logs_msg`, `logs_checkChallenge`, … — what is silent on the way.
* `mem_logs_verifyAtIdx` — that last line is logged exactly when the
  verification gets as far as looking for the precompile instruction
  (`ReachesPrecompile`).
* `mem_logs_guarded` — and only for a registry that is there.
* `logs_process_enforce` — the whole log.
-/

namespace Trana.Guard

open Trana.Lib Trana.Lib.Exec Trana.Solana

/-! ## Silent steps -/

/-- A `msg!` is one line. -/
@[simp] theorem logs_msg {line : String} : (msg line).logs = [.msg line] := rfl

/-- Reading the amount logs nothing, -/
@[simp] theorem logs_u64FromLeBytes {window : Bytes} : (u64FromLeBytes window).logs = [] :=
  logs_expect

/-- whether it is there or not. -/
@[simp] theorem logs_readU64FromProtectedIx {ixSysvar : InstructionsSysvar} {byteOffset : UInt8} :
    (readU64FromProtectedIx ixSysvar byteOffset).logs = [] := by
  simp [readU64FromProtectedIx]

/-- Hashing the intent logs nothing. -/
@[simp] theorem logs_protectedIntentHash {owner guardId : Pubkey} {policy : String}
    {ix : Instruction} {nonce : UInt64} {expiry : Int64} :
    (protectedIntentHash owner guardId policy ix nonce expiry).logs = [] := by
  simp [protectedIntentHash, computeIntentHash]

/-- Nor does looking for the challenge, -/
@[simp] theorem logs_extractChallenge {clientDataJson : Bytes} :
    (extractChallenge clientDataJson).logs = [] := by
  unfold extractChallenge
  split
  next => rfl
  next position hposition =>
    rw [logs_bind_eq_nil]
    refine ⟨logs_usizeAdd, fun start _ => ?_⟩
    rw [logs_bind_eq_nil]
    refine ⟨logs_sliceFrom, fun tail _ => ?_⟩
    split
    next => rfl
    next quote hquote => simp

/-- nor a step of the decoder, -/
@[simp] theorem logs_base64urlStep {s : DecodeState} {val : UInt32} :
    (base64urlStep s val).logs = [] := by
  unfold base64urlStep
  rw [logs_bind_eq_nil]
  refine ⟨logs_u32Add, fun accLen _ => ?_⟩
  split
  next => simp
  next => rfl

/-- nor its loop, -/
@[simp] theorem logs_base64urlLoop {s : DecodeState} {input : Bytes} :
    (base64urlLoop s input).logs = [] := by
  induction input generalizing s with
  | nil => rfl
  | cons c rest ih =>
    unfold base64urlLoop
    split
    next => exact ih
    next =>
      split
      next => rfl
      next val hval => exact logs_bind_eq_nil.mpr ⟨logs_base64urlStep, fun s' _ => ih⟩

/-- nor decoding, -/
@[simp] theorem logs_base64urlDecode {input : Bytes} : (base64urlDecode input).logs = [] := by
  unfold base64urlDecode
  split
  next => rfl
  next =>
    simp only [logs_bind_eq_nil, logs_usizeMul, logs_usizeAdd, logs_withCapacity,
      logs_base64urlLoop, true_and]
    intro bits _ total _ u _ s _
    cases s with
    | none => rfl
    | some s =>
      dsimp only
      split <;> rfl

/-- nor comparing the challenge. -/
@[simp] theorem logs_checkChallenge {clientDataJson h : Bytes} :
    (checkChallenge clientDataJson h).logs = [] := by
  simp [checkChallenge]

/-- A proof that is not there fails with an error and without a line. -/
@[simp] theorem logs_loadProofFromPrecedingIx {ixSysvar : InstructionsSysvar} {currentIdx : UInt16}
    {guardId : Pubkey} : (loadProofFromPrecedingIx ixSysvar currentIdx guardId).logs = [] := by
  simp [loadProofFromPrecedingIx]

/-! ## The missing proof -/

/-- The line that asks for a proof. -/
def missingProofLine : Log := .msg "TRANA_MISSING_PROOF"

/-- The line that asks for a proof. -/
theorem logs_missingProof {α : Type} : (missingProof : Result α).logs = [missingProofLine] := rfl

/-- It is logged when the condition fails, -/
theorem mem_logs_requireProof {p : Prop} [Decidable p] {line : Log} :
    line ∈ (requireProof p).logs ↔ ¬p ∧ line = missingProofLine := by
  unfold requireProof
  split <;> simp [*, logs_missingProof]

/-- or when the value is missing. -/
theorem mem_logs_okOrMissingProof {α : Type} {o : Option α} {line : Log} :
    line ∈ (okOrMissingProof o).logs ↔ o = none ∧ line = missingProofLine := by
  unfold okOrMissingProof
  split <;> simp [logs_missingProof]

section Pipeline

variable (clock : Clock) (ixSysvar : InstructionsSysvar) (registry : PasskeyRegistry)
  (owner guardId : Pubkey) (currentIdx : UInt16)

/-- The checks of `runVerification` in front of the precompile instruction:
the first ones of `Accepts`. -/
structure UpToPrecompile (proof : ProofData) (policy : String) (ix : Instruction) : Prop where
  protectedIx : ixSysvar.instructions[currentIdx.toNat]? = some ix
  data_length : 8 ≤ ix.data.length
  fresh : clock.unixTimestamp < proof.expiry
  fits : PolicyFits policy
  challenge : ChallengeIs proof.clientDataJson
    (intentHash owner guardId policy ix registry.nonce proof.expiry)
  auth_fits : proof.authenticatorData.length + 32 < 2 ^ 63

/-- Where a verification looks for the precompile instruction: at once in front
of the first two instructions, else behind a carried proof for this policy that
passes every check up to there. -/
def ReachesPrecompile (policy : String) : Prop :=
  currentIdx.toNat < 2 ∨ ∃ proof ix, ProofAt ixSysvar guardId currentIdx proof ∧
    proof.policy = policy ∧
    UpToPrecompile clock ixSysvar registry owner guardId currentIdx proof policy ix

end Pipeline

variable {d : Deployment} {env : Env} {accounts : List AccountMeta} {l : Ledger}
  {clock : Clock} {ixSysvar : InstructionsSysvar} {registry : PasskeyRegistry}
  {owner guardId : Pubkey} {currentIdx : UInt16} {proof : ProofData} {policy : String} {line : Log}

/-- No instruction of the transaction is the precompile's. -/
def NoPrecompile (instructions : List Instruction) : Prop :=
  ∀ ix ∈ instructions, ix.programId ≠ Secp256r1.programId

/-- Without a precompile instruction, verification logs that line exactly when the
checks before the lookup pass. -/
theorem mem_logs_runVerification (hno : NoPrecompile ixSysvar.instructions)
    (htwo : 2 ≤ currentIdx.toNat) :
    line ∈ (runVerification clock ixSysvar registry owner guardId currentIdx proof policy).logs ↔
      line = missingProofLine ∧ ∃ ix,
        UpToPrecompile clock ixSysvar registry owner guardId currentIdx proof policy ix := by
  simp only [runVerification, mem_logs_bind, logs_okOr, logs_require, logs_protectedIntentHash,
    logs_checkChallenge, logs_withCapacity, logs_unsignedSub, mem_logs_okOrMissingProof,
    mem_logs_requireProof, returns_okOr, returns_require, returns_protectedIntentHash,
    returns_checkChallenge, returns_withCapacity, returns_unsignedSub, returns_okOrMissingProof,
    returns_requireProof, List.not_mem_nil, false_or, exists_const, loadInstructionAtChecked]
  constructor
  · intro h
    obtain ⟨ix, hix, hlen, hfresh, _, ⟨-, hfits, rfl⟩, hchal, hauth, _, ⟨-, rfl⟩, hrest⟩ := h
    have hup : UpToPrecompile clock ixSysvar registry owner guardId currentIdx proof policy ix :=
      ⟨hix, hlen, hfresh, hfits, hchal, hauth⟩
    -- the precompile is missing either as an instruction or as the program of one
    rcases hrest with ⟨-, hline⟩ | ⟨secpIx, hsecp, ⟨-, hline⟩ | ⟨hid, -⟩⟩
    · exact ⟨hline, ix, hup⟩
    · exact ⟨hline, ix, hup⟩
    · exact absurd hid (hno secpIx (List.mem_of_getElem? hsecp))
  · intro h
    obtain ⟨rfl, ix, h⟩ := h
    -- the protected instruction is there, so the one two places before it is
    have hlt : currentIdx.toNat - 2 < ixSysvar.instructions.length := by
      have := (List.getElem?_eq_some_iff.mp h.protectedIx).1
      omega
    refine ⟨ix, h.protectedIx, h.data_length, h.fresh, _, ⟨h.data_length, h.fits, rfl⟩,
      h.challenge, h.auth_fits, _, ⟨htwo, rfl⟩, Or.inr ⟨_, List.getElem?_eq_getElem hlt, ?_⟩⟩
    exact Or.inl ⟨hno _ (List.getElem_mem hlt), rfl⟩

/-- Without a precompile instruction a verification logs nothing but the line
that asks for a proof, and that when it gets there. -/
theorem mem_logs_verifyAtIdx (hno : NoPrecompile ixSysvar.instructions) :
    line ∈ (verifyAtIdx clock ixSysvar registry owner guardId policy currentIdx).logs ↔
      line = missingProofLine ∧
        ReachesPrecompile clock ixSysvar registry owner guardId currentIdx policy := by
  have htwo : 2 ≤ currentIdx ↔ ¬currentIdx.toNat < 2 :=
    UInt16.le_iff_toNat_le.trans Nat.not_lt.symm
  simp only [verifyAtIdx, mem_logs_bind, mem_logs_requireProof, returns_requireProof,
    logs_loadProofFromPrecedingIx, returns_loadProofFromPrecedingIx, logs_require, returns_require,
    List.not_mem_nil, false_or, exists_const, htwo, not_not, ReachesPrecompile]
  constructor
  · intro h
    -- the first two instructions cannot have a proof in front of them
    rcases h with ⟨hfirst, hline⟩ | ⟨hthird, proof, hproof, hpolicy, hrun⟩
    · exact ⟨hline, Or.inl hfirst⟩
    · obtain ⟨hline, ix, hup⟩ := (mem_logs_runVerification hno (Nat.not_lt.mp hthird)).mp hrun
      exact ⟨hline, Or.inr ⟨proof, ix, hproof, hpolicy, hup⟩⟩
  · intro h
    obtain ⟨hline, hreach⟩ := h
    by_cases hfirst : currentIdx.toNat < 2
    · exact Or.inl ⟨hfirst, hline⟩
    · obtain ⟨proof, ix, hproof, hpolicy, hup⟩ := hreach.resolve_left hfirst
      exact Or.inr ⟨hfirst, proof, hproof, hpolicy,
        (mem_logs_runVerification hno (Nat.not_lt.mp hfirst)).mpr ⟨hline, ix, hup⟩⟩

/-- What runs over a registry logs only where there is one of the right owner. -/
theorem mem_logs_withRegistry {info ownerKey : Pubkey}
    {f : PasskeyRegistry → Result PasskeyRegistry} :
    line ∈ (withRegistry d l info ownerKey f).logs ↔
      ∃ r, registryAt d l info = some r ∧ r.owner = ownerKey ∧ line ∈ (f r).logs := by
  simp only [withRegistry, mem_logs_bind, logs_require, returns_require, logs_okOr, returns_okOr,
    logs_pure, List.not_mem_nil, false_or, or_false, exists_const, and_false, exists_false,
    toOption_eq_some, registryAt_eq_some]
  constructor
  · intro h
    obtain ⟨howner, r, hr, hrowner, hline⟩ := h
    exact ⟨r, ⟨howner, hr⟩, hrowner, hline⟩
  · intro h
    obtain ⟨r, ⟨howner, hr⟩, hrowner, hline⟩ := h
    exact ⟨howner, r, hr, hrowner, hline⟩

/-- What the verification of a firing policy logs. -/
theorem mem_logs_guarded {ctx : Enforce} {policy : Policy}
    (hno : NoPrecompile env.ixSysvar.instructions) :
    line ∈ (guarded d env ctx policy l).logs ↔ line = missingProofLine ∧
      ∃ r, registryAt d l ctx.registry = some r ∧ r.owner = ctx.owner ∧
        ReachesPrecompile env.clock env.ixSysvar r ctx.owner d.programId env.ixSysvar.currentIndex
          policy.domain := by
  simp only [guarded, mem_logs_withRegistry, verifyWithPolicy, loadCurrentIndexChecked,
    mem_logs_verifyAtIdx hno]
  constructor
  · intro h
    obtain ⟨r, hr, howner, hline, hreach⟩ := h
    exact ⟨hline, r, hr, howner, hreach⟩
  · intro h
    obtain ⟨hline, r, hr, howner, hreach⟩ := h
    exact ⟨r, hr, howner, hline, hreach⟩

/-! ## Enforcement -/

/-- The line of a firing policy. -/
def policyLine (env : Env) (owner : Pubkey) (policy : Policy) : String :=
  match policy with
  | .require => s!"TRANA require | policy={policyRequire} | owner={owner.toBase58}"
  | .notBefore slot =>
    s!"TRANA require | policy={policyNotBefore} | current={env.clock.slot} | required={slot} | owner={owner.toBase58}"
  | .notAfter slot =>
    s!"TRANA require | policy={policyNotAfter} | current={env.clock.slot} | expiry={slot} | owner={owner.toBase58}"
  | .limit paramOffset bound =>
    let amount := (protectedU64 env.ixSysvar paramOffset).getD 0
    s!"TRANA require | policy={policyLimit} | amount={amount} | limit={bound} | owner={owner.toBase58}"

/-- A line before a program stands before its log. -/
theorem logs_msg_bind {α : Type} {text : String} {f : Unit → Result α} :
    (msg text >>= f).logs = .msg text :: (f ()).logs :=
  logs_bind_ok (returns_msg.mpr trivial)

/-- `enforce` logs nothing unless the policy fires. -/
theorem logs_enforce {ctx : Enforce} {policy : Policy} :
    (enforce d env ctx policy l).logs =
      if policy.fires env = true then
        .msg (policyLine env ctx.owner policy) :: (guarded d env ctx policy l).logs
      else [] := by
  cases policy with
  | require => exact logs_msg_bind
  | notBefore slot =>
    simp only [enforce, Policy.fires, decide_eq_true_eq, logs_ite, logs_msg_bind, logs_pure]
    rfl
  | notAfter slot =>
    simp only [enforce, Policy.fires, decide_eq_true_eq, gt_iff_lt, logs_ite, logs_msg_bind,
      logs_pure]
    rfl
  | limit paramOffset bound =>
    cases hv : protectedU64 env.ixSysvar paramOffset with
    | none =>
      -- the amount is not there: the read fails, and silently
      have hfires : (Policy.limit paramOffset bound).fires env = false := by
        simp [Policy.fires, hv]
      rw [hfires, if_neg Bool.false_ne_true]
      refine logs_bind_eq_nil.mpr ⟨logs_readU64FromProtectedIx, fun p hp => ?_⟩
      rw [returns_readU64FromProtectedIx, hv] at hp
      cases hp.1
    | some amount =>
      -- the amount is there, so the policy compares it
      have hread : (readU64FromProtectedIx env.ixSysvar paramOffset).Returns
          (amount, env.ixSysvar.currentIndex) :=
        returns_readU64FromProtectedIx.mpr ⟨hv, rfl⟩
      have hfires : (Policy.limit paramOffset bound).fires env = true ↔ amount ≥ bound := by
        simp [Policy.fires, hv]
      have hline : policyLine env ctx.owner (.limit paramOffset bound) =
          s!"TRANA require | policy={policyLimit} | amount={amount} | limit={bound} | owner={ctx.owner.toBase58}" := by
        unfold policyLine
        dsimp only
        rw [hv]
        rfl
      rw [enforce, logs_bind_ok hread, logs_readU64FromProtectedIx, List.nil_append, logs_ite,
        logs_msg_bind, logs_pure, ← hline]
      exact if_congr hfires.symm rfl rfl

/-- The line Anchor's dispatch logs. -/
theorem logs_parse_enforceData (policy : Policy) :
    (parseInstruction (enforceData policy)).logs = [.msg "Instruction: Enforce"] := by
  have hdisc : (enforceDisc ++ (Policy.codec.write policy).getD []).take 8 = enforceDisc := rfl
  rw [enforceData, parseInstruction]
  simp only [hdisc]
  rw [if_neg (by decide), if_neg (by decide), if_neg (by decide), if_neg (by decide),
    if_neg (by decide), if_neg (by decide), if_neg (by decide), if_pos trivial, logs_msg_bind]
  simp [readArgs]

/-- All lines of a call to `enforce`. -/
theorem logs_process_enforce {ctx : Enforce} {policy : Policy}
    (hctx : (Enforce.tryAccounts accounts).Returns ctx) :
    (process d env accounts (enforceData policy) l).logs =
      .msg "Instruction: Enforce" ::
        if policy.fires env = true then
          .msg (policyLine env ctx.owner policy) :: (guarded d env ctx policy l).logs
        else [] := by
  have hparse := parse_enforceData policy
  have haccounts : (Enforce.tryAccounts accounts).logs = [] := by
    unfold Enforce.tryAccounts
    split
    next => simp
    next => rfl
  have hexecute : (execute d env accounts (.enforce policy) l).logs =
      (enforce d env ctx policy l).logs := by
    rw [execute, logs_bind_ok hctx, haccounts, List.nil_append]
  rw [process, logs_bind_ok hparse, logs_parse_enforceData, hexecute, logs_enforce,
    List.singleton_append]

end Trana.Guard
