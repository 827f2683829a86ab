import Trana.Guard.Completeness
import Trana.Sdk.Detector
import Trana.Sdk.Transaction

/-!
# Does the client detect what the program enforces?

The client simulates a transaction and reads the program's decision back from
its log lines. Between what the program logs for a firing policy and the line
the client looks for stand the registry and the first checks of a verification:

* `detection_agrees` — detection and enforcement agree exactly when a firing
  policy finds a registry and its verification gets as far as looking for the
  precompile instruction.
* `detect_never_noRegistry` — registration is never reached.
* `detection_misses` — a wallet without a registry is told that nothing is
  needed, and so is one whose instruction stands third.

The connection is a parameter: it simulates a transaction and answers for an
account. `Simulates` says what it owes the client, that the lines the program
logs are printed in order, among lines of the runtime and of other programs that
look like none of the program's. The text of a line is the program's own, with
the prefix the runtime puts before it.

The client takes a proof to be needed when some line has the missing-proof
marker, and reads the policy from the first line with the program's prefix. A
program that fails earlier prints no marker, and the answer is that nothing is
needed. The checks that come before the marker are those of `ReachesPrecompile`.
-/

namespace Trana.Security

open Trana.Lib Trana.Lib.Exec Trana.Solana Trana.Guard Trana.Sdk

/-! ## The program's lines -/

section Lines

variable {d : Guard.Deployment} {env : Env} {accounts : List AccountMeta} {l : Ledger}
  {policy : Policy} {event : ProofVerified → List Char}

theorem toString_string (s : String) : toString s = s := rfl

/-- No domain string has a space in it. -/
theorem domain_not_space (policy : Policy) :
    ∀ c ∈ policy.domain.toList, isJsSpace c = false := by
  have hany : (policy.domain.toList.any isJsSpace) = false :=
    Policy.domain_cases (P := fun domain => domain.toList.any isJsSpace = false) (by decide)
      (by decide) (by decide) (by decide) policy
  intro c hc
  exact Bool.eq_false_iff.mpr (List.any_eq_false.mp hany c hc)

theorem domain_count (policy : Policy) : policy.domain.toList.count '_' ≤ 1 :=
  Policy.domain_cases (P := fun domain => domain.toList.count '_' ≤ 1) (by decide) (by decide)
    (by decide) (by decide) policy

/-- An owner or a number brings no underscore in. -/
theorem not_mem_owner (owner : Pubkey) : '_' ∉ owner.toBase58.toList :=
  not_mem_encode (by decide) owner.bytes

theorem not_mem_u64 (n : UInt64) : '_' ∉ (toString n).toList :=
  not_mem_toString (by decide) n.toNat

/-- A line with two numbers and the owner behind the policy string. -/
theorem numbers_shape (domain : String) (n m : UInt64) (owner : Pubkey) {label second : String}
    {shown : List Char} (hlabel : label.toList = " | ".toList ++ shown) (hshown : '_' ∉ shown)
    (hsecond : '_' ∉ second.toList) :
    ∃ rest,
      s!"TRANA require | policy={domain}{label}{n}{second}{m} | owner={owner.toBase58}".toList =
        tranaRequirePrefix ++ (domain.toList ++ (" | ".toList ++ rest)) ∧ '_' ∉ rest := by
  refine ⟨shown ++ ((toString n).toList ++ (second.toList ++ ((toString m).toList ++
    (" | owner=".toList ++ owner.toBase58.toList)))), ?_, ?_⟩
  · repeat rw [String.toList_append]
    rw [toString_string, toString_string, toString_string, toString_string, toString_string, hlabel]
    repeat rw [List.append_assoc]
    rfl
  · simp only [List.mem_append, not_or]
    exact ⟨hshown, not_mem_u64 _, hsecond, not_mem_u64 _, by decide, not_mem_owner owner⟩

/-- The line of a policy: the prefix, the policy string, and behind a separator
text without underscores. -/
theorem policyLine_shape (env : Env) (owner : Pubkey) (policy : Policy) :
    ∃ rest, (policyLine env owner policy).toList =
        tranaRequirePrefix ++ (policy.domain.toList ++ (" | ".toList ++ rest)) ∧ '_' ∉ rest := by
  -- three policies print two numbers, `require` none
  cases policy with
  | require =>
    have hsep : " | owner=".toList = " | ".toList ++ "owner=".toList := by decide
    refine ⟨"owner=".toList ++ owner.toBase58.toList, ?_, ?_⟩
    · unfold policyLine
      dsimp only
      repeat rw [String.toList_append]
      rw [toString_string, toString_string, toString_string, toString_string, hsep]
      repeat rw [List.append_assoc]
      rfl
    · simp only [List.mem_append, not_or]
      exact ⟨by decide, not_mem_owner owner⟩
  | notBefore slot =>
    have hlabel : " | current=".toList = " | ".toList ++ "current=".toList := by decide
    exact numbers_shape policyNotBefore env.clock.slot slot owner hlabel (by decide) (by decide)
  | notAfter slot =>
    have hlabel : " | current=".toList = " | ".toList ++ "current=".toList := by decide
    exact numbers_shape policyNotAfter env.clock.slot slot owner hlabel (by decide) (by decide)
  | limit paramOffset bound =>
    have hlabel : " | amount=".toList = " | ".toList ++ "amount=".toList := by decide
    exact numbers_shape policyLimit ((protectedU64 env.ixSysvar paramOffset).getD 0) bound owner
      hlabel (by decide) (by decide)

/-- The policy is read back from its line. -/
theorem parsePolicyLine_policyLine (env : Env) (owner : Pubkey) (policy : Policy) :
    parsePolicyLine (renderLog event (.msg (policyLine env owner policy))) =
      some policy.domain.toList := by
  obtain ⟨rest, hline, -⟩ := policyLine_shape env owner policy
  rw [renderLog, hline]
  exact parsePolicyLine_behind (by decide) (domain_not_space policy)

/-- It does not ask for a proof: the marker has two underscores. -/
theorem policyLine_no_marker (env : Env) (owner : Pubkey) (policy : Policy) :
    includes tranaMissingProofMarker (renderLog event (.msg (policyLine env owner policy))) =
      false := by
  obtain ⟨rest, hline, hrest⟩ := policyLine_shape env owner policy
  have hdomain := domain_count policy
  have hlog : programLog.count '_' = 0 := by decide
  have hprefix : tranaRequirePrefix.count '_' = 0 := by decide
  have hsep : " | ".toList.count '_' = 0 := by decide
  have hmarker : tranaMissingProofMarker.count '_' = 2 := by decide
  refine not_includes_of_count '_' ?_
  rw [renderLog, hline, List.count_append, List.count_append, List.count_append, List.count_append,
    List.count_eq_zero_of_not_mem hrest, hlog, hprefix, hsep, hmarker]
  omega

theorem missingProofLine_marker :
    includes tranaMissingProofMarker (renderLog event missingProofLine) = true := by
  have hidx : indexOf? tranaMissingProofMarker
      (programLog ++ (tranaMissingProofMarker ++ [])) =
        some programLog.length :=
    indexOf?_behind (by decide)
  rw [List.append_nil] at hidx
  rw [includes, missingProofLine, renderLog]
  exact Option.isSome_of_eq_some hidx

theorem dispatchLine_plain : Plain (renderLog event (.msg "Instruction: Enforce")) := by
  have hcount : ∀ c, (renderLog event (.msg "Instruction: Enforce")).count c =
      (programLog ++ "Instruction: Enforce".toList).count c := fun c => rfl
  refine ⟨not_includes_of_count '_' ?_, not_includes_of_count '|' ?_⟩
  · rw [hcount]
    decide
  · rw [hcount]
    decide

end Lines

/-! ## Simulations -/

/-- The wallet's registry account: the address is unused, or holds a registry
of the wallet. -/
inductive RegistryAccount (d : Guard.Deployment) (l : Ledger) (w : Pubkey) : Prop where
  | absent (owner : (l (d.findRegistry w)).owner = systemProgramId)
      (data : (l (d.findRegistry w)).data = [])
  | present (r : PasskeyRegistry) (found : registryOf d l w = some r) (owner : r.owner = w)
      (lamports : (l (d.findRegistry w)).lamports ≠ 0)

/-- `getAccountInfo`: an account without lamports does not exist. -/
def accountInfo (l : Ledger) (key : Pubkey) : Option Account :=
  if (l key).lamports = 0 then none else some (l key)

/-- A transaction without a precompile instruction, and one of its instructions
calling `enforce(policy)` for wallet `w`, as the client's connection shows them:
the simulation prints what the program logs, among lines of its own that look
like none of the program's. -/
structure Simulates (d : Guard.Deployment) (l : Ledger) (env : Env) (accounts : List AccountMeta)
    (policy : Policy) (w : Pubkey) (tx : AnyTransaction) (connection : Connection) : Prop where
  carries : tx.Carries env.ixSysvar.instructions
  noPrecompile : NoPrecompile env.ixSysvar.instructions
  context : (Enforce.tryAccounts accounts).Returns ⟨d.findRegistry w, w⟩
  printed : ∃ event before after, (∀ line ∈ before, Plain line) ∧ (∀ line ∈ after, Plain line) ∧
    connection.simulateTransaction tx = some (some (before ++
      ((process d env accounts (enforceData policy) l).logs.map (renderLog event) ++ after)))
  info : connection.getAccountInfo (d.findRegistry w) = accountInfo l (d.findRegistry w)

/-- A detection's result is the program's decision: needed exactly when the
policy fires, with the string its verification compares against, and the
registry asked for when there is none. -/
def Agrees (d : Guard.Deployment) (l : Ledger) (env : Env) (policy : Policy) (w : Pubkey)
    (result : DetectionResult) : Prop :=
  (result.needed = false ↔ policy.fires env = false) ∧
    (policy.fires env = true → result =
      if (registryOf d l w).isSome then .missingProof policy.domain.toList
      else .noRegistry policy.domain.toList)

/-- The verification of wallet `w` finds a registry and gets as far as looking
for the precompile instruction. -/
def AsksForProof (d : Guard.Deployment) (l : Ledger) (env : Env) (policy : Policy) (w : Pubkey) :
    Prop :=
  ∃ r, registryOf d l w = some r ∧ ReachesPrecompile env.clock env.ixSysvar r w d.programId
    env.ixSysvar.currentIndex policy.domain

section Detect

variable {d : Guard.Deployment} {l : Ledger} {env : Env} {accounts : List AccountMeta}
  {policy : Policy} {w : Pubkey} {tx : AnyTransaction} {connection : Connection}
  {fallbackPolicy : List Char}

/-- An unused address holds no registry. -/
theorem registryOf_absent (howner : (l (d.findRegistry w)).owner = systemProgramId) :
    registryOf d l w = none := by
  refine registryAt_none fun hprogram => ?_
  exact absurd (hprogram.symm.trans howner) d.programId_ne

/-- A registry account is longer than its discriminator. -/
theorem length_of_registryOf {r : PasskeyRegistry} (h : registryOf d l w = some r) :
    8 < (l (d.findRegistry w)).data.length := by
  obtain ⟨-, hread⟩ := registryAt_eq_some.mp h
  obtain ⟨body, rest, hwrite, hdata⟩ := AccountLayout.image_of_tryDeserialize hread
  obtain ⟨keys, -, rfl⟩ := registry_image hwrite
  have howner := r.owner.length_eq
  have hdisc := PasskeyRegistry.layout.length_discriminator
  rw [hdata]
  simp only [List.length_append]
  omega

/-- The registry's owner is the wallet, whenever there is one. -/
theorem RegistryAccount.owner_eq (hreg : RegistryAccount d l w) {r : PasskeyRegistry}
    (h : registryOf d l w = some r) : r.owner = w := by
  cases hreg with
  | absent howner hdata =>
    rw [registryOf_absent howner] at h
    cases h
  | present r' found owner lamports =>
    rw [found] at h
    exact Option.some.inj h ▸ owner

/-- The client's look at the registry account. -/
theorem RegistryAccount.info_any (hreg : RegistryAccount d l w) :
    (accountInfo l (d.findRegistry w)).any (fun info => info.data.length > 8) =
      (registryOf d l w).isSome := by
  cases hreg with
  | absent howner hdata =>
    rw [registryOf_absent howner, accountInfo]
    split
    next => rfl
    next =>
      rw [Option.any_some, hdata]
      rfl
  | present r found owner lamports =>
    rw [accountInfo, if_neg lamports, Option.any_some, found]
    exact decide_eq_true (length_of_registryOf found)

/-- When the verification gets there, the program asks for a proof. -/
theorem guarded_asks (hreg : RegistryAccount d l w) (hno : NoPrecompile env.ixSysvar.instructions) :
    missingProofLine ∈ (guarded d env ⟨d.findRegistry w, w⟩ policy l).logs ↔
      AsksForProof d l env policy w := by
  rw [mem_logs_guarded hno]
  constructor
  · intro h
    obtain ⟨-, r, hr, -, hreach⟩ := h
    exact ⟨r, hr, hreach⟩
  · intro h
    obtain ⟨r, hr, hreach⟩ := h
    exact ⟨rfl, r, hr, hreg.owner_eq hr, hreach⟩

/-- Without a precompile instruction a firing policy rejects the transaction. -/
theorem firing_rejects (hno : NoPrecompile env.ixSysvar.instructions)
    (hctx : (Enforce.tryAccounts accounts).Returns ⟨d.findRegistry w, w⟩)
    (hfires : policy.fires env = true) (l' : Ledger) :
    ¬(process d env accounts (enforceData policy) l).Returns l' := by
  intro h
  obtain ⟨ix, hix, hrun⟩ := returns_bind.mp h
  obtain rfl := (parse_enforceData policy).unique hix
  rw [execute, returns_bind] at hrun
  obtain ⟨ctx, hctx', hrun⟩ := hrun
  obtain rfl := hctx.unique hctx'
  rcases returns_enforce.mp hrun with ⟨hidle, -⟩ | ⟨-, hguarded⟩
  · rw [hfires] at hidle
    cases hidle
  · simp only [guarded, returns_withRegistry, returns_verifyWithPolicy] at hguarded
    obtain ⟨r, r', -, -, ⟨-, proof, ix, secpIx, hverified⟩, -⟩ := hguarded
    exact hno secpIx (List.mem_of_getElem? hverified.secp) hverified.secp_id

/-- Nothing is detected while the policy does not fire. -/
theorem detect_idle (h : Simulates d l env accounts policy w tx connection)
    (hidle : policy.fires env = false) :
    detectEnforcement d tx connection w fallbackPolicy = .notNeeded := by
  obtain ⟨event, before, after, hbefore, hafter, hlogs⟩ := h.printed
  rw [logs_process_enforce h.context, hidle, if_neg Bool.false_ne_true] at hlogs
  rw [detectEnforcement_of_logs ((hasSecp256r1Ix_eq_false h.carries).mpr h.noPrecompile) hlogs]
  refine if_neg ?_
  rw [Bool.not_eq_true, List.any_eq_false]
  intro line hline
  rw [Bool.not_eq_true]
  -- an idle policy prints the dispatch line and no other
  rcases List.mem_append.mp hline with hline | hline
  · exact (hbefore line hline).1
  · rcases List.mem_append.mp hline with hline | hline
    · obtain rfl := List.mem_singleton.mp hline
      exact dispatchLine_plain.1
    · exact (hafter line hline).1

/-- The printed lines of a firing policy: its string can be read from them, and
the marker is among them exactly when the program asks for a proof. -/
theorem printed_firing (h : Simulates d l env accounts policy w tx connection)
    (hreg : RegistryAccount d l w) (hfires : policy.fires env = true) :
    ∃ logs, connection.simulateTransaction tx = some (some logs) ∧
      parsePolicyFromLogs logs = some policy.domain.toList ∧
      (logs.any (fun line => includes tranaMissingProofMarker line) = true ↔
        AsksForProof d l env policy w) := by
  obtain ⟨event, before, after, hbefore, hafter, hlogs⟩ := h.printed
  rw [logs_process_enforce h.context, if_pos hfires] at hlogs
  refine ⟨_, hlogs, ?_, ?_⟩
  · have hdispatch : ∀ line ∈ before ++ [renderLog event (.msg "Instruction: Enforce")],
        Plain line := by
      intro line hline
      rcases List.mem_append.mp hline with hline | hline
      · exact hbefore line hline
      · obtain rfl := List.mem_singleton.mp hline
        exact dispatchLine_plain
    have hpolicy : parsePolicyLine (renderLog event (.msg (policyLine env w policy))) =
        some policy.domain.toList := parsePolicyLine_policyLine env w policy
    have hparse : ∀ rest, parsePolicyFromLogs
        ((before ++ [renderLog event (.msg "Instruction: Enforce")]) ++
          renderLog event (.msg (policyLine env w policy)) :: rest) = some policy.domain.toList :=
      fun rest => parsePolicyFromLogs_of_behind hdispatch hpolicy
    simp only [List.append_assoc] at hparse
    exact hparse _
  · rw [← guarded_asks hreg h.noPrecompile, List.any_eq_true]
    constructor
    · intro hex
      obtain ⟨line, hline, hmarker⟩ := hex
      rcases List.mem_append.mp hline with hline | hline
      · exact absurd ((hbefore line hline).1.symm.trans hmarker) Bool.false_ne_true
      rcases List.mem_append.mp hline with hline | hline
      · rcases List.mem_cons.mp hline with rfl | hline
        · exact absurd (dispatchLine_plain.1.symm.trans hmarker) Bool.false_ne_true
        rcases List.mem_cons.mp hline with rfl | hline
        · have hno : includes tranaMissingProofMarker
              (renderLog event (.msg (policyLine env w policy))) = false :=
            policyLine_no_marker env w policy
          exact absurd (hno.symm.trans hmarker) Bool.false_ne_true
        · obtain ⟨log, hlog, rfl⟩ := List.mem_map.mp hline
          -- whatever the verification logs is the line that asks
          have heq := ((mem_logs_guarded h.noPrecompile).mp hlog).1
          rwa [heq] at hlog
      · exact absurd ((hafter line hline).1.symm.trans hmarker) Bool.false_ne_true
    · intro hasks
      refine ⟨renderLog event missingProofLine, ?_, missingProofLine_marker⟩
      refine List.mem_append_right _ (List.mem_append_left _ ?_)
      exact List.mem_cons_of_mem _ (List.mem_cons_of_mem _ (List.mem_map_of_mem hasks))

/-- A firing policy is detected when the program asks for a proof. -/
theorem detect_asked (h : Simulates d l env accounts policy w tx connection)
    (hreg : RegistryAccount d l w) (hfires : policy.fires env = true)
    (hasks : AsksForProof d l env policy w) :
    detectEnforcement d tx connection w fallbackPolicy = .missingProof policy.domain.toList := by
  obtain ⟨logs, hlogs, hparse, hmarker⟩ := printed_firing h hreg hfires
  obtain ⟨r, hr, -⟩ := id hasks
  have hsome : (registryOf d l w).isSome = true := Option.isSome_of_eq_some hr
  rw [detectEnforcement_of_logs ((hasSecp256r1Ix_eq_false h.carries).mpr h.noPrecompile) hlogs,
    if_pos (hmarker.mpr hasks), h.info, hreg.info_any, if_pos hsome, hparse, Option.getD_some]

/-- Else it is not, although the transaction fails. -/
theorem detect_silent (h : Simulates d l env accounts policy w tx connection)
    (hreg : RegistryAccount d l w) (hfires : policy.fires env = true)
    (hsilent : ¬AsksForProof d l env policy w) :
    detectEnforcement d tx connection w fallbackPolicy = .notNeeded := by
  obtain ⟨logs, hlogs, -, hmarker⟩ := printed_firing h hreg hfires
  rw [detectEnforcement_of_logs ((hasSecp256r1Ix_eq_false h.carries).mpr h.noPrecompile) hlogs,
    if_neg (mt hmarker.mp hsilent)]

/-- A detection never sends a wallet to registration. -/
theorem detect_never_noRegistry (h : Simulates d l env accounts policy w tx connection)
    (hreg : RegistryAccount d l w) (p : List Char) :
    detectEnforcement d tx connection w fallbackPolicy ≠ .noRegistry p := by
  cases hfires : policy.fires env with
  | false =>
    rw [detect_idle h hfires]
    intro hp
    cases hp
  | true =>
    by_cases hasks : AsksForProof d l env policy w
    · rw [detect_asked h hreg hfires hasks]
      intro hp
      cases hp
    · rw [detect_silent h hreg hfires hasks]
      intro hp
      cases hp

theorem not_agrees (h : Simulates d l env accounts policy w tx connection)
    (hreg : RegistryAccount d l w) (hfires : policy.fires env = true)
    (hsilent : ¬AsksForProof d l env policy w) :
    ¬Agrees d l env policy w (detectEnforcement d tx connection w fallbackPolicy) := by
  rw [detect_silent h hreg hfires hsilent]
  intro hagrees
  have hidle := hagrees.1.mp rfl
  rw [hfires] at hidle
  cases hidle

/-- Detection agrees with enforcement exactly when a firing policy finds a registry
and its verification gets as far as looking for the precompile instruction. -/
theorem detection_agrees (h : Simulates d l env accounts policy w tx connection)
    (hreg : RegistryAccount d l w) :
    Agrees d l env policy w (detectEnforcement d tx connection w fallbackPolicy) ↔
      (policy.fires env = true → AsksForProof d l env policy w) := by
  cases hfires : policy.fires env with
  | false =>
    rw [detect_idle h hfires, Agrees, hfires]
    simp [DetectionResult.needed]
  | true =>
    by_cases hasks : AsksForProof d l env policy w
    · obtain ⟨r, hr, -⟩ := id hasks
      rw [detect_asked h hreg hfires hasks, Agrees, hfires, hr]
      simp [DetectionResult.needed, hasks]
    · exact iff_of_false (not_agrees h hreg hfires hasks) fun himp => hasks (himp rfl)

end Detect

/-! ## On localnet -/

namespace Localnet

open Sdk.Localnet

/-- A cluster with this ledger, on which the simulation prints the program's
lines and no others. -/
def connectionOf (l : Ledger) (env : Env) : Connection where
  simulateTransaction _ := some (some ((process deployment env enforceAccounts
    (enforceData .require) l).logs.map (renderLog fun _ => [])))
  getAccountInfo := accountInfo l

theorem simulates_connectionOf (l : Ledger) {instructions : List Instruction} {i : UInt16}
    (hno : NoPrecompile instructions) :
    Simulates deployment l (env instructions i) enforceAccounts .require wallet
      (.legacy instructions) (connectionOf l (env instructions i)) where
  carries := rfl
  noPrecompile := hno
  context := by
    rw [findRegistry_wallet]
    exact enforce_context
  printed := by
    refine ⟨fun _ => [], [], [], fun line h => absurd h List.not_mem_nil,
      fun line h => absurd h List.not_mem_nil, ?_⟩
    rw [List.nil_append, List.append_nil]
    rfl
  info := rfl

theorem registryAccount_registered : RegistryAccount deployment registered wallet := by
  refine .present (registry 0) holds_registered.found rfl ?_
  rw [findRegistry_wallet]
  decide +kernel

theorem registryAccount_genesis : RegistryAccount deployment genesis wallet := by
  refine .absent ?_ ?_
  · rw [findRegistry_wallet]
    decide +kernel
  · rw [findRegistry_wallet]
    decide +kernel

theorem noPrecompile_protected : NoPrecompile [protectedIx] := by
  intro ix hix
  obtain rfl := List.mem_singleton.mp hix
  decide

/-- A registered wallet's guarded instruction alone: the proof is asked for. -/
theorem detection_agrees_registered :
    Agrees deployment registered (env [protectedIx] 0) .require wallet
      (detectEnforcement deployment (.legacy [protectedIx])
        (connectionOf registered (env [protectedIx] 0)) wallet policyRequire.toList) :=
  (detection_agrees (simulates_connectionOf registered noPrecompile_protected)
    registryAccount_registered).mpr fun _ =>
      ⟨registry 0, holds_registered.found, Or.inl (by decide)⟩

/-- `ComputeBudget111111111111111111111111111111` -/
def computeBudgetId : Pubkey :=
  ⟨[3, 6, 70, 111, 229, 33, 23, 50, 255, 236, 173, 186, 114, 195, 155, 231, 188, 140, 229, 187,
    197, 247, 18, 107, 44, 67, 155, 58, 64, 0, 0, 0], by decide⟩

/-- `setComputeUnitLimit(200000)` -/
def computeUnitLimitIx : Instruction where
  programId := computeBudgetId
  accounts := []
  data := [2] ++ leBytes 4 200000

/-- `setComputeUnitPrice(1)` -/
def computeUnitPriceIx : Instruction where
  programId := computeBudgetId
  accounts := []
  data := [3] ++ leBytes 8 1

/-- The guarded instruction behind the two that price its execution. -/
def priced : List Instruction := [computeUnitLimitIx, computeUnitPriceIx, protectedIx]

theorem noPrecompile_priced : NoPrecompile priced := by
  intro ix hix
  rcases List.mem_cons.mp hix with rfl | hix
  · decide
  rcases List.mem_cons.mp hix with rfl | hix
  · decide
  · exact noPrecompile_protected ix hix

/-- Nothing is asked of a wallet that has no registry. -/
theorem genesis_silent :
    ¬AsksForProof deployment genesis (env [protectedIx] 0) .require wallet := by
  intro h
  obtain ⟨r, hr, -⟩ := h
  have hnone : registryOf deployment genesis wallet = none := by
    refine registryOf_absent ?_
    rw [findRegistry_wallet]
    decide +kernel
  rw [hnone] at hr
  cases hr

/-- In third place the instruction before it is taken for the proof. -/
theorem priced_silent : ¬AsksForProof deployment registered (env priced 2) .require wallet := by
  intro h
  obtain ⟨r, -, hfirst | ⟨proof, ix, hproof, -⟩⟩ := h
  · exact absurd hfirst (by decide)
  · obtain ⟨proofIx, hix, hprogram, -⟩ := hproof.carried
    obtain rfl : computeUnitPriceIx = proofIx := Option.some.inj hix
    exact absurd hprogram (by decide : computeBudgetId ≠ localnetId)

/-- The client is told that nothing is needed where the program rejects: for a
wallet without a registry, and for a registered one whose instruction is third. -/
theorem detection_misses :
    (Simulates deployment genesis (env [protectedIx] 0) enforceAccounts .require wallet
        (.legacy [protectedIx]) (connectionOf genesis (env [protectedIx] 0)) ∧
      RegistryAccount deployment genesis wallet ∧
      (∀ l', ¬(process deployment (env [protectedIx] 0) enforceAccounts (enforceData .require)
        genesis).Returns l') ∧
      ¬Agrees deployment genesis (env [protectedIx] 0) .require wallet
        (detectEnforcement deployment (.legacy [protectedIx])
          (connectionOf genesis (env [protectedIx] 0)) wallet policyRequire.toList)) ∧
    (Simulates deployment registered (env priced 2) enforceAccounts .require wallet
        (.legacy priced) (connectionOf registered (env priced 2)) ∧
      RegistryAccount deployment registered wallet ∧
      (∀ l', ¬(process deployment (env priced 2) enforceAccounts (enforceData .require)
        registered).Returns l') ∧
      ¬Agrees deployment registered (env priced 2) .require wallet
        (detectEnforcement deployment (.legacy priced)
          (connectionOf registered (env priced 2)) wallet policyRequire.toList)) := by
  have hgenesis := simulates_connectionOf genesis (i := 0) noPrecompile_protected
  have hpriced := simulates_connectionOf registered (i := 2) noPrecompile_priced
  refine ⟨⟨hgenesis, registryAccount_genesis, ?_, ?_⟩, hpriced, registryAccount_registered, ?_, ?_⟩
  · exact firing_rejects noPrecompile_protected hgenesis.context rfl
  · exact not_agrees hgenesis registryAccount_genesis rfl genesis_silent
  · exact firing_rejects noPrecompile_priced hpriced.context rfl
  · exact not_agrees hpriced registryAccount_registered rfl priced_silent

end Localnet

end Trana.Security
