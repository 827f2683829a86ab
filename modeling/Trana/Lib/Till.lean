import Mathlib.Algebra.BigOperators.Group.Finset.Basic
import Mathlib.Algebra.Order.BigOperators.Group.Finset
import Mathlib.Data.Fintype.BigOperators

/-!
# A till against its holders' balances

Cash kept for many holders, on top of a base that is nobody's: the rent-exempt
minimum of an account, say. The till is solvent when base and balances together
are covered; that is a bound on an unbounded sum, of which one step changes one
summand.

The sum is over a finite type of all holders there could be, not over a list of
those who ever came: an address has 32 bytes, so all addresses are such a type,
and a holder who has nothing adds nothing. A step changes one summand and leaves
the others, which `Solvent.change` asks for as an equation for each of them.
What the cash is above the bound belongs to nobody; anyone may send to an
account, so a till is never claimed to be exact here.

* `Solvent.change` — one balance may grow by what the cash grows, and the cash
  may shrink by what one balance shrinks.
* `Solvent.covers` — a solvent till covers any one balance on top of its base.
-/

namespace Trana.Lib

namespace Till

variable {ι : Type} [Fintype ι] {base cash cash' : ℕ} {balance balance' : ι → ℕ}

/-- The cash covers the base and all balances. -/
def Solvent (base cash : ℕ) (balance : ι → ℕ) : Prop := base + ∑ i, balance i ≤ cash

/-- A till whose cash is its base, before there is any balance. -/
theorem solvent_of_zero (h : ∀ i, balance i = 0) : Solvent cash cash balance := by
  rw [Solvent, Finset.sum_eq_zero fun i _ => h i, Nat.add_zero]

/-- A solvent till covers any one balance. -/
theorem Solvent.covers (h : Solvent base cash balance) (i : ι) : base + balance i ≤ cash := by
  have hle : balance i ≤ ∑ j, balance j :=
    Finset.single_le_sum (fun _ _ => Nat.zero_le _) (Finset.mem_univ i)
  have := h
  rw [Solvent] at this
  omega

/-- More cash, and no larger balances. -/
theorem Solvent.mono (h : Solvent base cash balance) (hcash : cash ≤ cash')
    (hbalance : ∀ i, balance' i ≤ balance i) : Solvent base cash' balance' := by
  have hsum : ∑ i, balance' i ≤ ∑ i, balance i := Finset.sum_le_sum fun i _ => hbalance i
  rw [Solvent] at h ⊢
  omega

/-- One balance and the cash change together. -/
theorem Solvent.change (h : Solvent base cash balance) {i : ι}
    (hothers : ∀ j, j ≠ i → balance' j = balance j)
    (hcash : cash + balance' i ≤ cash' + balance i) : Solvent base cash' balance' := by
  classical
  have hsplit := Finset.add_sum_erase Finset.univ balance (Finset.mem_univ i)
  have hsplit' := Finset.add_sum_erase Finset.univ balance' (Finset.mem_univ i)
  -- the other summands are the same
  have hrest : ∑ j ∈ Finset.univ.erase i, balance' j = ∑ j ∈ Finset.univ.erase i, balance j :=
    Finset.sum_congr rfl fun j hj => hothers j (Finset.ne_of_mem_erase hj)
  rw [Solvent] at h ⊢
  omega

end Till

end Trana.Lib
