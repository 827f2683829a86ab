import Mathlib.Data.Finset.Card
import Trana.Solana.Secp256r1
import Trana.Solana.Settlement

/-!
# Around a transaction

What the runtime does before and after the instructions of a transaction, as far
as it decides whether the transaction goes through. Before them it takes the fee
from the fee payer; after them it looks at every account that changed and turns
the whole transaction down if one of them is left below the rent minimum of its
size.

The fee is the base fee, so many lamports for each signature, and the signatures
in secp256r1 instructions count like the signers'. A transaction that asks for
priority pays more; nothing in the repository's scripts asks for it.

> `CanCharge`: the fee payer is a wallet, covers the fee and is not left short.
> `RentKept`: no account is left short by the instructions.

Both speak of the balance *before*: an account that already was below its minimum
may go on, as long as it keeps its size and gets no lamports. That is why charging
the fee and running the instructions are compared separately, and why the
conditions below cannot be merged into one about the first and the last balance.

`CanSettle` is the two of them in numbers, for a wallet that pays the transaction
fee, then the rent of a new account, then an amount to somebody.

What is left out: the age of the blockhash and the size of the packet; that a
durable nonce can pay for a transaction, too (a wallet here is an account without
data); and the addresses for which the runtime makes exceptions, the incinerator,
which owes no rent, and sysvars and builtin programs, which no transaction can
write to.

* `charged_sameState` — the fee changes lamports and nothing else.
* `rentKept_iff` — what rent asks for when two accounts' lamports moved.
* `rentKept_settled` — the same after a charge, in numbers.
-/

namespace Trana.Solana

open Trana.Lib

/-- What a transaction meets: the curve, the clock, the rent and the price of a signature. -/
structure Cluster where
  curve : Secp256r1.Curve
  clock : Clock
  minimumBalance : ℕ → UInt64
  lamportsPerSignature : ℕ

/-! ## The fee -/

/-- Who has to sign: the fee payer, and whoever an instruction lists as a signer. -/
def signers (payer : Pubkey) (tx : List Instruction) : Finset Pubkey :=
  insert payer (tx.flatMap fun ix => (ix.accounts.filter (·.isSigner)).map (·.pubkey)).toFinset

/-- The signatures the precompile verifies, by the first byte of its instructions. -/
def precompileSignatures (tx : List Instruction) : ℕ :=
  (tx.map fun ix =>
    if ix.programId = Secp256r1.programId then (ix.data.headD 0).toNat else 0).sum

@[simp] theorem precompileSignatures_nil : precompileSignatures [] = 0 := rfl

@[simp] theorem precompileSignatures_cons (ix : Instruction) (tx : List Instruction) :
    precompileSignatures (ix :: tx) =
      (if ix.programId = Secp256r1.programId then (ix.data.headD 0).toNat else 0) +
        precompileSignatures tx :=
  List.sum_cons

/-- The base fee. -/
def Cluster.fee (cluster : Cluster) (payer : Pubkey) (tx : List Instruction) : ℕ :=
  cluster.lamportsPerSignature * ((signers payer tx).card + precompileSignatures tx)

/-- Where the fee payer is the only signer, it signs once. -/
theorem card_signers {payer : Pubkey} {tx : List Instruction}
    (h : ∀ ix ∈ tx, ∀ m ∈ ix.accounts, m.isSigner = true → m.pubkey = payer) :
    (signers payer tx).card = 1 := by
  have hsubset : (tx.flatMap fun ix => (ix.accounts.filter (·.isSigner)).map (·.pubkey)).toFinset ⊆
      {payer} := by
    intro k hk
    obtain ⟨ix, hix, hk⟩ := List.mem_flatMap.mp (List.mem_toFinset.mp hk)
    obtain ⟨m, hm, rfl⟩ := List.mem_map.mp hk
    obtain ⟨hm, hsigner⟩ := List.mem_filter.mp hm
    exact Finset.mem_singleton.mpr (h ix hix m hm hsigner)
  have hone : signers payer tx = {payer} := by
    rw [signers, Finset.insert_eq, Finset.union_eq_left.mpr hsubset]
  rw [hone, Finset.card_singleton]

/-- Taking the fee from the fee payer. -/
def Ledger.charged (l : Ledger) (payer : Pubkey) (fee : ℕ) : Ledger :=
  l.set payer { l payer with lamports := (l payer).lamports - UInt64.ofNat fee }

/-! ## Rent -/

/-- What rent lets become of a balance while the size stays: the account is closed,
it is rent exempt, or it was short already and gets nothing. -/
def RentAllows (minimum before after : ℕ) : Prop :=
  after = 0 ∨ minimum ≤ after ∨ (0 < before ∧ before < minimum ∧ after ≤ before)

instance (minimum before after : ℕ) : Decidable (RentAllows minimum before after) :=
  inferInstanceAs (Decidable (_ ∨ _ ∨ _))

/-- An untouched account may stay as it is, also below its minimum. -/
theorem RentAllows.refl (minimum balance : ℕ) : RentAllows minimum balance balance := by
  unfold RentAllows
  omega

/-- The account is not left short. If it changed its size, it has to be rent exempt
now, or closed. -/
def RentKeptAt (minimumBalance : ℕ → UInt64) (l l' : Ledger) (k : Pubkey) : Prop :=
  if (l' k).data.length = (l k).data.length then
    RentAllows (minimumBalance (l k).data.length).toNat (lamportsOf l k) (lamportsOf l' k)
  else lamportsOf l' k = 0 ∨ (minimumBalance (l' k).data.length).toNat ≤ lamportsOf l' k

/-- The transaction leaves no account short of its rent. -/
def RentKept (minimumBalance : ℕ → UInt64) (l l' : Ledger) : Prop :=
  ∀ k, RentKeptAt minimumBalance l l' k

/-- The fee payer is a wallet that covers the fee, and rent has nothing against it. -/
structure CanCharge (minimumBalance : ℕ → UInt64) (l : Ledger) (payer : Pubkey) (fee : ℕ) :
    Prop where
  owner : (l payer).owner = systemProgramId
  data : (l payer).data = []
  funded : 0 < lamportsOf l payer
  covered : fee ≤ lamportsOf l payer
  rent : RentAllows (minimumBalance 0).toNat (lamportsOf l payer) (lamportsOf l payer - fee)

section Rent

variable {minimumBalance : ℕ → UInt64} {l l' : Ledger} {payer dst : Pubkey} {fee : ℕ}

/-- The fee changes lamports and nothing else. -/
theorem charged_sameState (l : Ledger) (payer : Pubkey) (fee : ℕ) :
    l.SameState (l.charged payer fee) :=
  .set_lamports l payer _

/-- A fee that is covered does not wrap around. -/
theorem lamportsOf_charged (h : fee ≤ lamportsOf l payer) :
    lamportsOf (l.charged payer fee) =
      Function.update (lamportsOf l) payer (lamportsOf l payer - fee) := by
  have hlt : fee < 2 ^ 64 := Nat.lt_of_le_of_lt h (l payer).lamports.toNat_lt
  have hfee : (UInt64.ofNat fee).toNat = fee := UInt64.toNat_ofNat_of_lt' hlt
  have hle : UInt64.ofNat fee ≤ (l payer).lamports := by
    rw [UInt64.le_iff_toNat_le, hfee]
    exact h
  rw [Ledger.charged, lamportsOf_set, UInt64.toNat_sub_of_le _ _ hle, hfee]
  rfl

/-- The payer has the fee less. -/
theorem lamportsOf_charged_self (h : fee ≤ lamportsOf l payer) :
    lamportsOf (l.charged payer fee) payer = lamportsOf l payer - fee := by
  rw [lamportsOf_charged h, Function.update_self]

/-- Nobody else is charged. -/
theorem charged_of_ne {k : Pubkey} (h : k ≠ payer) : l.charged payer fee k = l k :=
  Ledger.set_of_ne _ h

/-- Of an account that keeps its size, rent compares the two balances. -/
theorem rentKeptAt_iff {k : Pubkey} (hsize : (l' k).data.length = (l k).data.length) :
    RentKeptAt minimumBalance l l' k ↔
      RentAllows (minimumBalance (l k).data.length).toNat (lamportsOf l k) (lamportsOf l' k) :=
  iff_of_eq (if_pos hsize)

/-- What is rent exempt is not short, whatever it was before. -/
theorem rentKeptAt_of_exempt {k : Pubkey}
    (h : (minimumBalance (l' k).data.length).toNat ≤ lamportsOf l' k) :
    RentKeptAt minimumBalance l l' k := by
  by_cases hsize : (l' k).data.length = (l k).data.length
  · rw [rentKeptAt_iff hsize, ← hsize]
    exact Or.inr (Or.inl h)
  · rw [RentKeptAt, if_neg hsize]
    exact Or.inr h

/-- An account whose size and balance stay is not looked at twice. -/
theorem rentKeptAt_of_same {k : Pubkey} (hsize : (l' k).data.length = (l k).data.length)
    (hlamports : lamportsOf l' k = lamportsOf l k) : RentKeptAt minimumBalance l l' k := by
  rw [rentKeptAt_iff hsize, hlamports]
  exact .refl _ _

/-- Only two accounts are in question, and these keep their sizes. -/
theorem rentKept_iff {w : Pubkey} (hw : (l' w).data.length = (l w).data.length)
    (hdst : (l' dst).data.length = (l dst).data.length)
    (hothers : ∀ k, k ≠ w → k ≠ dst → RentKeptAt minimumBalance l l' k) :
    RentKept minimumBalance l l' ↔
      RentAllows (minimumBalance (l w).data.length).toNat (lamportsOf l w) (lamportsOf l' w) ∧
      RentAllows (minimumBalance (l dst).data.length).toNat (lamportsOf l dst)
        (lamportsOf l' dst) := by
  rw [← rentKeptAt_iff hw, ← rentKeptAt_iff hdst]
  constructor
  · intro h
    exact ⟨h w, h dst⟩
  · intro h k
    by_cases hkw : k = w
    · rw [hkw]
      exact h.1
    · by_cases hkdst : k = dst
      · rw [hkdst]
        exact h.2
      · exact hothers k hkw hkdst

end Rent

/-! ## A wallet that pays -/

/-- The wallet covers the transaction fee, then the rent of a new account, then an
amount to `dst`; there is room for the amount; and rent has nothing against what
is left in the wallet, nor against what `dst` has then. -/
structure CanSettle (minimumBalance : ℕ → UInt64) (l : Ledger) (w dst : Pubkey)
    (fee rent amount : ℕ) : Prop where
  charge : CanCharge minimumBalance l w fee
  covered : fee + rent + amount ≤ lamportsOf l w
  room : dst = w ∨ lamportsOf l dst + amount < 2 ^ 64
  left : RentAllows (minimumBalance 0).toNat (lamportsOf l w - fee)
    (lamportsOf l w - fee - rent - if dst = w then 0 else amount)
  received : dst = w ∨ RentAllows (minimumBalance (l dst).data.length).toNat (lamportsOf l dst)
    (lamportsOf l dst + amount)

/-- After the charge, the instructions move the rent and the amount, and they touch
nobody else's balance: what is left of the condition is about the two of them. -/
theorem rentKept_settled {minimumBalance : ℕ → UInt64} {l l' : Ledger} {w dst : Pubkey}
    {fee rent amount : ℕ} (hcharge : CanCharge minimumBalance l w fee)
    (hcovered : fee + rent + amount ≤ lamportsOf l w)
    (hpaid : lamportsOf l' w + rent + amount =
      lamportsOf (l.charged w fee) w + if dst = w then amount else 0)
    (hreceived : dst ≠ w → lamportsOf l' dst = lamportsOf (l.charged w fee) dst + amount)
    (hw : (l' w).data.length = (l.charged w fee w).data.length)
    (hdst : (l' dst).data.length = (l.charged w fee dst).data.length)
    (hothers : ∀ k, k ≠ w → k ≠ dst → RentKeptAt minimumBalance (l.charged w fee) l' k) :
    RentKept minimumBalance (l.charged w fee) l' ↔
      RentAllows (minimumBalance 0).toNat (lamportsOf l w - fee)
        (lamportsOf l w - fee - rent - if dst = w then 0 else amount) ∧
      (dst = w ∨ RentAllows (minimumBalance (l dst).data.length).toNat (lamportsOf l dst)
        (lamportsOf l dst + amount)) := by
  have hsame := charged_sameState l w fee
  have hbefore := lamportsOf_charged_self hcharge.covered
  rw [hbefore] at hpaid
  have hafter : lamportsOf l' w =
      lamportsOf l w - fee - rent - if dst = w then 0 else amount := by
    by_cases hself : dst = w
    · rw [if_pos hself] at hpaid ⊢
      omega
    · rw [if_neg hself] at hpaid ⊢
      omega
  rw [rentKept_iff hw hdst hothers, (hsame w).2, (hsame dst).2, hbefore, hafter, hcharge.data,
    List.length_nil]
  refine and_congr_right fun hleft => ?_
  by_cases hself : dst = w
  · -- the payment came back: both conditions are the wallet's
    subst hself
    rw [hbefore, hafter, hcharge.data, List.length_nil]
    exact iff_of_true hleft (Or.inl rfl)
  · have hother : lamportsOf (l.charged w fee) dst = lamportsOf l dst :=
      congrArg (fun a => a.lamports.toNat) (charged_of_ne hself)
    rw [hreceived hself, hother]
    exact (or_iff_right hself).symm

end Trana.Solana
