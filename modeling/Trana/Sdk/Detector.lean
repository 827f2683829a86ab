import Trana.Guard.Logs
import Trana.Lib.Search

/-!
# SDK: detecting enforcement

`react/detector.ts`: what a client makes of a simulation. The network is a
`Connection`; text is a list of characters. A simulation may fail, and then the
detector says that nothing is needed; its log may be missing, and then it is
empty.

* `AnyTransaction` — a legacy transaction carries its instructions, a versioned
  one indices into its keys; `Carries` says which instructions it is.
* `hasSecp256r1Ix_eq_false` — the static check is about the precompile.
* `parsePolicyFromLogs_of_behind` — the policy is read from the first line that
  has the prefix, up to the next separator.
* `detectEnforcement_of_logs` — the result, from the lines.

The runtime prints a program's `msg!` behind `Program log: `, and an event as a
base64 line; what it prints of its own (invocations, compute units) is any list
of `Plain` lines. What the detector answers for the guard's real log is in
`Trana.Security.Detection`.
-/

namespace Trana.Sdk

open Trana.Lib Trana.Solana Trana.Guard

/-! ## Transactions -/

/-- An instruction of a compiled message; the rest of it is not looked at. -/
structure CompiledInstruction where
  programIdIndex : Nat

/-- A legacy transaction, or a versioned one with its message. -/
inductive AnyTransaction where
  | legacy (instructions : List Instruction)
  | versioned (staticAccountKeys : List Pubkey) (compiledInstructions : List CompiledInstruction)

/-- The transaction is made of these instructions. A program is always named by
a static key. -/
def AnyTransaction.Carries (instructions : List Instruction) : AnyTransaction → Prop
  | .legacy own => own = instructions
  | .versioned staticAccountKeys compiledInstructions =>
    compiledInstructions.map (fun ix => staticAccountKeys[ix.programIdIndex]?) =
      instructions.map fun ix => some ix.programId

/-- Does the transaction already contain a secp256r1 verify instruction? -/
def hasSecp256r1Ix (tx : AnyTransaction) : Bool :=
  match tx with
  | .legacy instructions => instructions.any fun ix => ix.programId == Secp256r1.programId
  | .versioned staticAccountKeys compiledInstructions =>
    compiledInstructions.any fun ix =>
      match staticAccountKeys[ix.programIdIndex]? with
      | some programKey => programKey == Secp256r1.programId
      | none => false

/-- The check fails exactly when no instruction is the precompile's. -/
theorem hasSecp256r1Ix_eq_false {tx : AnyTransaction} {instructions : List Instruction}
    (h : tx.Carries instructions) : hasSecp256r1Ix tx = false ↔ NoPrecompile instructions := by
  cases tx with
  | legacy own =>
    obtain rfl : own = instructions := h
    simp [hasSecp256r1Ix, NoPrecompile]
  | versioned staticAccountKeys compiledInstructions =>
    have hkeys : compiledInstructions.map (fun ix => staticAccountKeys[ix.programIdIndex]?) =
        instructions.map fun ix => some ix.programId := h
    -- both sides say it of the list of program keys
    have hmem : ∀ key, some key ∈ compiledInstructions.map
        (fun ix => staticAccountKeys[ix.programIdIndex]?) ↔
          ∃ ix ∈ instructions, ix.programId = key := by
      intro key
      rw [hkeys]
      simp
    have hiff := (hmem Secp256r1.programId).not
    simp only [List.mem_map, not_exists, not_and] at hiff
    rw [NoPrecompile, ← hiff, hasSecp256r1Ix, List.any_eq_false]
    refine forall₂_congr fun ix _ => ?_
    cases staticAccountKeys[ix.programIdIndex]? with
    | none => simp
    | some programKey => simp

/-! ## Log lines -/

/-- Log prefixes emitted by the guard program. -/
def tranaRequirePrefix : List Char := "TRANA require | policy=".toList
/-- The line a verification without a proof ends with. -/
def tranaMissingProofMarker : List Char := "TRANA_MISSING_PROOF".toList

/-- The policy of one line: it runs up to the next separator or the end. -/
def parsePolicyLine (line : List Char) : Option (List Char) :=
  match indexOf? tranaRequirePrefix line with
  | none => none
  | some idx =>
    let after := line.drop (idx + tranaRequirePrefix.length)
    match indexOf? " | ".toList after with
    | none => some (trim after)
    | some stop => some (trim (after.take stop))

/-- Extract the policy string from the first `TRANA require | policy=X | ...`. -/
def parsePolicyFromLogs (logs : List (List Char)) : Option (List Char) :=
  logs.findSome? parsePolicyLine

/-- What the runtime puts in front of a program's line. -/
def programLog : List Char := "Program log: ".toList

/-- How the runtime prints what a program logs. -/
def renderLog (event : ProofVerified → List Char) : Log → List Char
  | .msg line => programLog ++ line.toList
  | .proofVerified e => event e

/-- Lines a detection does not look at. -/
def Plain (line : List Char) : Prop :=
  includes tranaMissingProofMarker line = false ∧ includes tranaRequirePrefix line = false

instance (line : List Char) : Decidable (Plain line) := inferInstanceAs (Decidable (_ ∧ _))

/-- A plain line names no policy. -/
theorem parsePolicyLine_plain {line : List Char} (h : Plain line) :
    parsePolicyLine line = none := by
  have hnone : indexOf? tranaRequirePrefix line = none :=
    Option.isNone_iff_eq_none.mp (Option.isSome_eq_false_iff.mp h.2)
  rw [parsePolicyLine, hnone]

/-- The policy of a program's line: without spaces in it, it is read whole. -/
theorem parsePolicyLine_behind {pre policy rest : List Char} (hpre : 'T' ∉ pre)
    (hpolicy : ∀ c ∈ policy, isJsSpace c = false) :
    parsePolicyLine (pre ++ (tranaRequirePrefix ++ (policy ++ (" | ".toList ++ rest)))) =
      some policy := by
  have hidx : indexOf? tranaRequirePrefix
      (pre ++ (tranaRequirePrefix ++ (policy ++ (" | ".toList ++ rest)))) = some pre.length :=
    indexOf?_behind hpre
  have hspace : ' ' ∉ policy := fun hc => absurd (hpolicy ' ' hc) (by decide)
  have hstop : indexOf? " | ".toList (policy ++ (" | ".toList ++ rest)) = some policy.length :=
    indexOf?_behind hspace
  have hafter : (pre ++ (tranaRequirePrefix ++ (policy ++ (" | ".toList ++ rest)))).drop
      (pre.length + tranaRequirePrefix.length) = policy ++ (" | ".toList ++ rest) := by
    rw [← List.append_assoc, ← List.length_append, List.drop_left]
  rw [parsePolicyLine, hidx]
  dsimp only
  rw [hafter, hstop]
  dsimp only
  rw [List.take_left, trim_of_none hpolicy]

/-- Plain lines in front do not matter. -/
theorem parsePolicyFromLogs_of_behind {before rest : List (List Char)} {line policy : List Char}
    (hbefore : ∀ line ∈ before, Plain line) (hline : parsePolicyLine line = some policy) :
    parsePolicyFromLogs (before ++ line :: rest) = some policy := by
  have hnone : before.findSome? parsePolicyLine = none :=
    List.findSome?_eq_none_iff.mpr fun line h => parsePolicyLine_plain (hbefore line h)
  rw [parsePolicyFromLogs, List.findSome?_append, hnone, Option.none_or, List.findSome?_cons, hline]

/-! ## Detection -/

/-- What is needed, and for which policy. -/
inductive DetectionResult where
  | notNeeded
  | noRegistry (policy : List Char)
  | missingProof (policy : List Char)
  deriving DecidableEq

/-- The result's `needed`. -/
def DetectionResult.needed : DetectionResult → Bool
  | notNeeded => false
  | noRegistry _ => true
  | missingProof _ => true

/-- The cluster, as the client sees it: a simulation fails or returns its log
lines, which may be missing; an account is there or not. -/
structure Connection where
  simulateTransaction : AnyTransaction → Option (Option (List (List Char)))
  getAccountInfo : Pubkey → Option Account

/-- Detect whether a transaction requires enforcement, and which policy fired. -/
def detectEnforcement (d : Deployment) (tx : AnyTransaction) (connection : Connection)
    (walletPubkey : Pubkey) (fallbackPolicy : List Char) : DetectionResult :=
  if hasSecp256r1Ix tx then .notNeeded
  else
    match connection.simulateTransaction tx with
    -- a failed simulation is not the guard's to explain
    | none => .notNeeded
    | some result =>
      let logs := result.getD []
      let needsProof := logs.any fun line => includes tranaMissingProofMarker line
      if !needsProof then .notNeeded
      else
        let policy := (parsePolicyFromLogs logs).getD fallbackPolicy
        let pdaInfo := connection.getAccountInfo (d.findRegistry walletPubkey)
        -- the length only: whose account it is, and what is in it, is not looked at
        let hasRegistry := pdaInfo.any fun info => info.data.length > 8
        if hasRegistry then .missingProof policy else .noRegistry policy

/-- What a detection makes of the lines of a simulation. -/
theorem detectEnforcement_of_logs {d : Deployment} {tx : AnyTransaction} {connection : Connection}
    {w : Pubkey} {fallbackPolicy : List Char} {logs : List (List Char)}
    (hsecp : hasSecp256r1Ix tx = false)
    (hlogs : connection.simulateTransaction tx = some (some logs)) :
    detectEnforcement d tx connection w fallbackPolicy =
      if logs.any (fun line => includes tranaMissingProofMarker line) then
        if (connection.getAccountInfo (d.findRegistry w)).any fun info => info.data.length > 8 then
          .missingProof ((parsePolicyFromLogs logs).getD fallbackPolicy)
        else .noRegistry ((parsePolicyFromLogs logs).getD fallbackPolicy)
      else .notNeeded := by
  rw [detectEnforcement, hsecp, hlogs]
  dsimp only [Option.getD_some]
  rw [if_neg Bool.false_ne_true]
  by_cases hneeds : logs.any (fun line => includes tranaMissingProofMarker line) = true
  · rw [if_neg (by rw [hneeds]; decide), if_pos hneeds]
  · rw [if_pos (by rw [Bool.eq_false_iff.mpr hneeds]; decide), if_neg hneeds]

end Trana.Sdk
