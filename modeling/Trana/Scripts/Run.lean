import Trana.Scripts.Keys
import Trana.Sdk.EndToEnd
import Trana.Solana.Runtime

/-!
# Command line: the transactions

What the cluster does with a script's transaction: it checks the precompile's
signatures, takes the transaction's fee from the wallet that sends it, lets the
guard execute its instructions one after the other, and looks at the rent of what
they leave behind. `Trana.Solana.Runtime` says what the fee and the rent are and
what is left out there.

A transaction either goes through or changes nothing that matters here: the fee a
failed one costs is not followed, since `Lands` is about the ones that go through.

> `Lands` holds for transactions of the guard and the precompile only. Whatever
> else a wallet might send along is not in it.

The transaction fee comes first, so the guard's instructions run on a ledger with
less in the wallet than the one the script looked at; the registries and the config
are the same on both (`charged_sameState`).

* `lands_single`, `lands_proofTransaction` — the two kinds of transactions, and the
  fee of each: one signature, or two.
-/

namespace Trana.Scripts

open Trana.Lib Trana.Lib.Exec Trana.Solana Trana.Guard Trana.Sdk

/-- The instructions from index `i` on. The precompile changes no account. -/
def runInstructions (d : Guard.Deployment) (cluster : Cluster) (tx : List Instruction) :
    List Instruction → ℕ → Ledger → Result Ledger
  | [], _, l => pure l
  | ix :: rest, i, l => do
    let l ← if ix.programId = d.programId then
        process d (envAt cluster.clock cluster.minimumBalance tx i) ix.accounts ix.data l
      else pure l
    runInstructions d cluster tx rest (i + 1) l

/-- The transaction goes through, paid by `payer`. It holds instructions of the guard
and of the precompile only. -/
structure Lands (cluster : Cluster) (d : Guard.Deployment) (payer : Pubkey)
    (tx : List Instruction) (l l' : Ledger) : Prop where
  own : ∀ ix ∈ tx, ix.programId = d.programId ∨ ix.programId = Secp256r1.programId
  accepted : Secp256r1.Accepted cluster.curve tx
  charge : CanCharge cluster.minimumBalance l payer (cluster.fee payer tx)
  runs : (runInstructions d cluster tx tx 0 (l.charged payer (cluster.fee payer tx))).Returns l'
  rent : RentKept cluster.minimumBalance (l.charged payer (cluster.fee payer tx)) l'

/-- A single run, when `fee` is taken before it and rent is looked at after it. -/
structure RunsCharged (cluster : Cluster) (payer : Pubkey) (fee : ℕ)
    (run : Ledger → Result Ledger) (l l' : Ledger) : Prop where
  charge : CanCharge cluster.minimumBalance l payer fee
  runs : (run (l.charged payer fee)).Returns l'
  rent : RentKept cluster.minimumBalance (l.charged payer fee) l'

/-- What succeeds alike is charged alike. -/
theorem RunsCharged.congr {cluster : Cluster} {payer : Pubkey} {fee : ℕ}
    {run run' : Ledger → Result Ledger} {l l' : Ledger}
    (h : ∀ l, (run l).Returns l' ↔ (run' l).Returns l') :
    RunsCharged cluster payer fee run l l' ↔ RunsCharged cluster payer fee run' l l' := by
  constructor
  · intro hruns
    exact ⟨hruns.charge, (h _).mp hruns.runs, hruns.rent⟩
  · intro hruns
    exact ⟨hruns.charge, (h _).mpr hruns.runs, hruns.rent⟩

/-- Nobody but the fee payer signs the instruction. -/
def SignedOnlyBy (payer : Pubkey) (ix : Instruction) : Prop :=
  ∀ m ∈ ix.accounts, m.isSigner = true → m.pubkey = payer

section Lands

variable {cluster : Cluster} {p256 : P256 cluster.curve} {alloc : AllocUnsafe} {owner : Keypair}
  {d : Guard.Deployment} {payer : Pubkey} {ix : Instruction} {l l' : Ledger}

/-- An instruction by itself costs one signature. -/
theorem fee_single (cluster : Cluster) (hid : ix.programId ≠ Secp256r1.programId)
    (hsigned : SignedOnlyBy payer ix) :
    cluster.fee payer [ix] = cluster.lamportsPerSignature := by
  have hcard : (signers payer [ix]).card = 1 :=
    card_signers fun ix' hix' => List.mem_singleton.mp hix' ▸ hsigned
  have hnone : precompileSignatures [ix] = 0 := by
    rw [precompileSignatures_cons, if_neg hid, precompileSignatures_nil]
  rw [Cluster.fee, hcard, hnone, Nat.mul_one]

/-- An instruction by itself. -/
theorem lands_single (hix : ix.programId = d.programId) (hsigned : SignedOnlyBy payer ix) :
    Lands cluster d payer [ix] l l' ↔
      RunsCharged cluster payer cluster.lamportsPerSignature
        (process d (envAt cluster.clock cluster.minimumBalance [ix] 0) ix.accounts ix.data)
        l l' := by
  have hid : ix.programId ≠ Secp256r1.programId := by
    rw [hix]
    exact d.programId_ne_secp
  have hfee := fee_single cluster hid hsigned
  have hruns : ∀ l, (runInstructions d cluster [ix] [ix] 0 l).Returns l' ↔
      (process d (envAt cluster.clock cluster.minimumBalance [ix] 0) ix.accounts ix.data
        l).Returns l' := by
    intro l
    simp [runInstructions, hix]
  constructor
  · intro h
    obtain ⟨-, -, hcharge, hrun, hrent⟩ := h
    rw [hfee] at hcharge hrun hrent
    exact ⟨hcharge, (hruns _).mp hrun, hrent⟩
  · intro h
    refine ⟨fun ix' hix' => ?_, fun ix' hix' hsecp => ?_, ?_, ?_, ?_⟩
    · rw [List.mem_singleton.mp hix']
      exact Or.inl hix
    · rw [List.mem_singleton.mp hix'] at hsecp
      exact absurd hsecp hid
    · rw [hfee]
      exact h.charge
    · rw [hfee]
      exact (hruns _).mpr h.runs
    · rw [hfee]
      exact h.rent

/-- The script's transaction, as the client's guarded item. -/
def guardedItem (p256 : P256 curve) (owner : Keypair) (guardProg : Pubkey) (ix : Instruction)
    (nonce dateNow : ℕ) : Guarded where
  ix
  policy := .require
  assertion := approvalFor p256 owner guardProg ix nonce dateNow
  expiryTtlSec := 120
  dateNow
  metas := ix.accounts

/-- The client of the SDK would send the same. -/
theorem proofTransaction_guardedItem {nonce dateNow : ℕ} {tx : List Instruction}
    (hnonce : nonce < 2 ^ 64)
    (h : proofTransaction p256 alloc owner d.programId ix nonce dateNow = some tx) :
    tx = transactionOf d.programId owner.publicKey
      [.guarded (guardedItem p256 owner d.programId ix nonce dateNow)] nonce := by
  rw [proofTransaction_eq hnonce] at h
  exact (Option.some.inj h).symm

/-- Behind a proof, the fee payer signs once and the precompile verifies one signature. -/
theorem fee_proofTransaction {nonce dateNow : ℕ} {tx : List Instruction}
    (hguard : d.programId ≠ Secp256r1.programId) (hid : ix.programId ≠ Secp256r1.programId)
    (hsigned : SignedOnlyBy payer ix) (hnonce : nonce < 2 ^ 64)
    (h : proofTransaction p256 alloc owner d.programId ix nonce dateNow = some tx) :
    cluster.fee payer tx = 2 * cluster.lamportsPerSignature := by
  rw [proofTransaction_eq hnonce] at h
  obtain rfl := Option.some.inj h
  generalize approvalFor p256 owner d.programId ix nonce dateNow = a
  generalize challengeOf owner.publicKey d.programId ix nonce dateNow = challenge
  have hcard : (signers payer (a.proofPair d.programId challenge (expiryUnix dateNow)
      policyRequire ++ [ix])).card = 1 := by
    refine card_signers fun ix' hix' m hm hsigner => ?_
    -- the precompile lists nobody, the data carrier only the sysvar
    rcases List.mem_cons.mp hix' with rfl | hix'
    · cases hm
    · rcases List.mem_cons.mp hix' with rfl | hix'
      · rw [List.mem_singleton.mp hm] at hsigner
        cases hsigner
      · rw [List.mem_singleton.mp hix'] at hm
        exact hsigned m hm hsigner
  have hone : precompileSignatures (a.proofPair d.programId challenge (expiryUnix dateNow)
      policyRequire ++ [ix]) = 1 := by
    have hcarrier : (a.recordProofIx d.programId challenge (expiryUnix dateNow)
        policyRequire).programId ≠ Secp256r1.programId := hguard
    have hprecompile : (a.secpIx challenge).programId = Secp256r1.programId := rfl
    have hcount : ((a.secpIx challenge).data.headD 0).toNat = 1 := rfl
    rw [Assertion.proofPair, List.cons_append, List.cons_append, List.nil_append,
      precompileSignatures_cons, precompileSignatures_cons, precompileSignatures_cons,
      if_pos hprecompile, if_neg hcarrier, if_neg hid, hcount, precompileSignatures_nil]
  rw [Cluster.fee, hcard, hone, Nat.mul_comm]

/-- Precompile and data carrier let it pass; what is left is the instruction. -/
theorem lands_proofTransaction {nonce dateNow : ℕ} {tx : List Instruction}
    (hix : ix.programId = d.programId) (hsigned : SignedOnlyBy payer ix) (hnonce : nonce < 2 ^ 64)
    (h : proofTransaction p256 alloc owner d.programId ix nonce dateNow = some tx) :
    Lands cluster d payer tx l l' ↔
      RunsCharged cluster payer (2 * cluster.lamportsPerSignature)
        (process d (envAt cluster.clock cluster.minimumBalance tx 2) ix.accounts ix.data)
        l l' := by
  have haccepted : Secp256r1.Accepted cluster.curve tx :=
    accepted_proofTransaction d.programId_ne_secp (hix ▸ d.programId_ne_secp) hnonce h
  have hfee : cluster.fee payer tx = 2 * cluster.lamportsPerSignature :=
    fee_proofTransaction d.programId_ne_secp (hix ▸ d.programId_ne_secp) hsigned hnonce h
  obtain rfl := proofTransaction_guardedItem hnonce h
  generalize hg : guardedItem p256 owner d.programId ix nonce dateNow = g at *
  have hgix : g.ix = ix := by
    rw [← hg]
    rfl
  have hsecp : (g.secpIx d.programId owner.publicKey nonce).programId ≠ d.programId := fun heq =>
    d.programId_ne_secp heq.symm
  have hrecord : (g.recordProofIx d.programId owner.publicKey nonce).programId = d.programId := rfl
  rw [← hgix] at hix ⊢
  generalize htx : transactionOf d.programId owner.publicKey [.guarded g] nonce = tx at *
  have hlist : tx = [g.secpIx d.programId owner.publicKey nonce,
      g.recordProofIx d.programId owner.publicKey nonce, g.ix] := htx.symm
  have hcarrier : ∀ l, (process d (envAt cluster.clock cluster.minimumBalance tx 1)
      (g.recordProofIx d.programId owner.publicKey nonce).accounts
      (g.recordProofIx d.programId owner.publicKey nonce).data l).Returns l := fun _ =>
    process_recordProofIx
  have hruns : ∀ l, (runInstructions d cluster tx tx 0 l).Returns l' ↔
      (process d (envAt cluster.clock cluster.minimumBalance tx 2) g.ix.accounts g.ix.data
        l).Returns l' := by
    intro l
    nth_rewrite 2 [hlist]
    simp only [runInstructions, if_neg hsecp, if_pos hrecord, if_pos hix, returns_bind,
      returns_pure, exists_eq_left', exists_eq_right, Nat.zero_add, Nat.reduceAdd]
    constructor
    · intro hrun
      obtain ⟨l₁, hl₁, hrun⟩ := hrun
      obtain rfl := hl₁.unique (hcarrier l)
      exact hrun
    · intro hrun
      exact ⟨l, hcarrier l, hrun⟩
  constructor
  · intro hlands
    obtain ⟨-, -, hcharge, hrun, hrent⟩ := hlands
    rw [hfee] at hcharge hrun hrent
    exact ⟨hcharge, (hruns _).mp hrun, hrent⟩
  · intro hrun
    refine ⟨fun ix' hix' => ?_, haccepted, ?_, ?_, ?_⟩
    · rw [hlist] at hix'
      rcases List.mem_cons.mp hix' with rfl | hix'
      · exact Or.inr rfl
      · rcases List.mem_cons.mp hix' with rfl | hix'
        · exact Or.inl rfl
        · rw [List.mem_singleton.mp hix']
          exact Or.inl hix
    · rw [hfee]
      exact hrun.charge
    · rw [hfee]
      exact (hruns _).mpr hrun.runs
    · rw [hfee]
      exact hrun.rent

end Lands

end Trana.Scripts
