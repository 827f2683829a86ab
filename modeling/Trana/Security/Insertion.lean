import Trana.Sdk.SendLoop
import Trana.Sdk.Transaction

/-!
# Where the proof goes

The guard looks for the proof in the two instructions before the guarded one.
The send loop puts it there in a legacy transaction; a versioned one, which
`buildTransaction` may return as well, goes to the wallet without it.

* `proof_insertion` — what the wallet is handed, on every attempt.
* `versioned_without_proof` — an approval that is not in the transaction.

`buildTransaction`, the wallet and the cluster are a `Host`, and nothing is asked
of it: it may build another transaction on each attempt, return one it returned
before, refuse to sign or lose the blockhash. Instructions are objects with an
identity, because the loop finds the guarded one by `===` and changes the list
it was given in place.

A caller who returns the same transaction object on a second attempt therefore
hands over one that has the pair in it already, and the loop puts it in again.
The guard reads the two instructions next to the guarded one and accepts that;
the second part says when the rest is the caller's own instructions.
-/

namespace Trana.Security

open Trana.Lib Trana.Solana Trana.Sdk

variable {host : Host} {instruction secp256r1Ix recordProofIx : InstructionObject} {h : Handover}

/-- The pair stands immediately before the guarded instruction, and the rest is
what the caller built. -/
def Inserted (instruction secp256r1Ix recordProofIx : InstructionObject) (h : Handover) : Prop :=
  ∃ pre post, h.built.content = pre ++ instruction.ix :: post ∧
    h.handed.content = pre ++ secp256r1Ix.ix :: recordProofIx.ix :: instruction.ix :: post

/-- Those are the places the guard looks at. -/
theorem Inserted.positions (hins : Inserted instruction secp256r1Ix recordProofIx h) :
    ∃ n, 2 ≤ n ∧ h.handed.content[n]? = some instruction.ix ∧
      h.handed.content[n - 1]? = some recordProofIx.ix ∧
      h.handed.content[n - 2]? = some secp256r1Ix.ix := by
  obtain ⟨pre, post, -, hcontent⟩ := hins
  rw [hcontent]
  have hat : ∀ k, (pre ++ secp256r1Ix.ix :: recordProofIx.ix :: instruction.ix :: post)[
      pre.length + k]? = (secp256r1Ix.ix :: recordProofIx.ix :: instruction.ix :: post)[k]? :=
    fun k => by rw [List.getElem?_append_right (Nat.le_add_right ..), Nat.add_sub_cancel_left]
  exact ⟨pre.length + 2, Nat.le_add_left .., hat 2, hat 1, hat 0⟩

/-- The caller's own instructions, without this approval's pair. -/
def ownInstructions (secp256r1Ix recordProofIx : InstructionObject)
    (instructions : List InstructionObject) : List InstructionObject :=
  instructions.filter fun o => o ≠ secp256r1Ix ∧ o ≠ recordProofIx

/-- The same of legacy transactions, object by object, with the caller's own
instructions as the rest. -/
def InsertedOnce (instruction secp256r1Ix recordProofIx : InstructionObject)
    (built handed : List InstructionObject) : Prop :=
  ∃ pre post, ownInstructions secp256r1Ix recordProofIx built = pre ++ instruction :: post ∧
    handed = pre ++ secp256r1Ix :: recordProofIx :: instruction :: post

theorem ownInstructions_eq {built : List InstructionObject} :
    ownInstructions secp256r1Ix recordProofIx built = built ↔
      secp256r1Ix ∉ built ∧ recordProofIx ∉ built := by
  rw [ownInstructions, List.filter_eq_self]
  constructor
  · intro hall
    exact ⟨fun hmem => (of_decide_eq_true (hall _ hmem)).1 rfl,
      fun hmem => (of_decide_eq_true (hall _ hmem)).2 rfl⟩
  · rintro ⟨hsecp, hrecord⟩ o ho
    refine decide_eq_true ⟨?_, ?_⟩
    · rintro rfl
      exact hsecp ho
    · rintro rfl
      exact hrecord ho

theorem inserted_iff (hmade : Made instruction secp256r1Ix recordProofIx h) :
    Inserted instruction secp256r1Ix recordProofIx h ↔ h.built.isLegacyTransaction = true := by
  cases hmade with
  | legacy pre post =>
    refine iff_of_true ⟨pre.map InstructionObject.ix, post.map InstructionObject.ix, ?_, ?_⟩ rfl
    · exact List.map_append
    · exact List.map_append
  | versioned message =>
    refine iff_of_false ?_ Bool.false_ne_true
    rintro ⟨pre, post, hbuilt, hhanded⟩
    have hlen := congrArg List.length (hbuilt.symm.trans hhanded)
    simp only [List.length_append, List.length_cons] at hlen
    omega

/-- An object the loop has changed before has the pair in it already. -/
theorem insertedOnce_iff {built handed : List InstructionObject}
    (hmade : Made instruction secp256r1Ix recordProofIx ⟨.legacy built, .legacy handed⟩) :
    InsertedOnce instruction secp256r1Ix recordProofIx built handed ↔
      secp256r1Ix ∉ built ∧ recordProofIx ∉ built := by
  cases hmade with
  | legacy pre post =>
    rw [← ownInstructions_eq]
    constructor
    · rintro ⟨pre', post', hown, hhanded⟩
      have hlen := congrArg List.length hhanded
      have hsame : (ownInstructions secp256r1Ix recordProofIx (pre ++ instruction :: post)).length =
          (pre ++ instruction :: post).length := by
        rw [hown]
        simp only [List.length_append, List.length_cons] at hlen ⊢
        omega
      -- a sublist as long as the list is the list: the filter has dropped nothing
      exact List.filter_sublist.eq_of_length hsame
    · exact fun hown => ⟨pre, post, hown, rfl⟩

/-- Once enforcement was detected, whatever caller, wallet and cluster do and on
every attempt: the wallet is handed the pair in its place exactly when the
transaction is a legacy one, and the pair only, with the caller's instructions
around it, exactly when it was not in there before. -/
theorem proof_insertion {host : Host} {instruction secp256r1Ix recordProofIx : InstructionObject}
    {h : Handover}
    (hmem : h ∈ (authorizeAndSend host instruction secp256r1Ix recordProofIx true).handovers) :
    (Inserted instruction secp256r1Ix recordProofIx h ↔ h.built.isLegacyTransaction = true) ∧
      ∀ built handed, h = ⟨.legacy built, .legacy handed⟩ →
        (InsertedOnce instruction secp256r1Ix recordProofIx built handed ↔
          secp256r1Ix ∉ built ∧ recordProofIx ∉ built) := by
  have hmade := sendLoop_made maxBlockhashRetries []
    (fun h hnil => absurd hnil List.not_mem_nil) h hmem
  refine ⟨inserted_iff hmade, fun built handed heq => ?_⟩
  subst heq
  exact insertedOnce_iff hmade

/-! ### A transaction without its proof -/

section Localnet

open Sdk.Localnet

def guarded : InstructionObject := ⟨0, protectedIx⟩

/-- The pair for it, at nonce zero. -/
def secpObject : InstructionObject :=
  ⟨1, approval.secpIx (challenge Guard.policyRequire protectedIx 0)⟩

def recordObject : InstructionObject :=
  ⟨2, approval.recordProofIx deployment.programId (challenge Guard.policyRequire protectedIx 0) 1000
    Guard.policyRequire⟩

/-- The caller builds one transaction object and returns it every time; the
first blockhash is too old. -/
def keepingHost : Host where
  getLatestBlockhash _ := .ok "blockhash"
  buildTx history _ :=
    match history.getLast? with
    | none => .ok (.legacy [guarded])
    | some last => .ok last.handed
  signTransaction := none
  sendRawTransaction _ _ := .error "not used"
  walletSend history _ := if history = [] then .error "Blockhash not found" else .ok "signature"

/-- Its first transaction. -/
def firstBuilt : List InstructionObject := [guarded]

/-- The same object on the second attempt, and what becomes of it. -/
def keptBuilt : List InstructionObject := [secpObject, recordObject, guarded]

def keptHanded : List InstructionObject :=
  [secpObject, recordObject, secpObject, recordObject, guarded]

theorem handovers_kept :
    (authorizeAndSend keepingHost guarded secpObject recordObject true).handovers =
      [⟨.legacy firstBuilt, .legacy keptBuilt⟩, ⟨.legacy keptBuilt, .legacy keptHanded⟩] := by
  rfl

/-- On the second attempt the pair is in its place, and there twice. -/
theorem proof_insertion_kept :
    (Inserted guarded secpObject recordObject ⟨.legacy keptBuilt, .legacy keptHanded⟩ ↔
      (BuiltTransaction.legacy keptBuilt).isLegacyTransaction = true) ∧
    ∀ built handed,
      (⟨.legacy keptBuilt, .legacy keptHanded⟩ : Handover) = ⟨.legacy built, .legacy handed⟩ →
        (InsertedOnce guarded secpObject recordObject built handed ↔
          secpObject ∉ built ∧ recordObject ∉ built) :=
  proof_insertion (h := ⟨.legacy keptBuilt, .legacy keptHanded⟩)
    (handovers_kept ▸ List.mem_cons_of_mem _ (List.mem_singleton_self _))

/-- The caller builds a versioned transaction. -/
def versionedHost : Host where
  getLatestBlockhash _ := .ok "blockhash"
  buildTx _ _ := .ok (.versioned [protectedIx])
  signTransaction := none
  sendRawTransaction _ _ := .error "not used"
  walletSend _ _ := .ok "signature"

/-- The wallet is handed the guarded instruction alone. -/
theorem versioned_without_proof :
    (authorizeAndSend versionedHost guarded secpObject recordObject true).handovers =
      [⟨.versioned [protectedIx], .versioned [protectedIx]⟩] ∧
    ¬Inserted guarded secpObject recordObject
      ⟨.versioned [protectedIx], .versioned [protectedIx]⟩ := by
  refine ⟨rfl, ?_⟩
  rintro ⟨pre, post, hbuilt, hhanded⟩
  have hlen := congrArg List.length (hbuilt.symm.trans hhanded)
  simp only [List.length_append, List.length_cons] at hlen
  omega

end Localnet

end Trana.Security
