import Mathlib.Algebra.BigOperators.Group.Finset.Basic
import Mathlib.Algebra.BigOperators.Group.Finset.Piecewise
import Mathlib.Algebra.BigOperators.Group.List.Basic
import Mathlib.Algebra.Ring.Nat
import Mathlib.Logic.Function.Basic
import Trana.Lib.Run

/-!
# A bank

The abstract component behind any account that holds money for many: a balance
for each holder, deposits that add to one of them, and withdrawals that take
from one which covers them. Balances are numbers without an upper bound, so
nothing overflows here and nothing saturates. Which instruction of a program is
a deposit, and for whom, is for the program's refinement to say; an instruction
that concerns no balance is the operation `idle`.

The holders may be infinitely many (`balance_step`, `balance_run` look at one of
them at a time). Only `total_step` adds all balances up, and asks for a finite
type of holders: over an infinite one there is no sum to speak of, and a program
that wants it takes the holders of a finite set as its `ι`.

Subtraction is kept out of the statements: `b' i + withdrawn = b i + deposited`
has the balance on the side where the withdrawal is added, so that neither the
statements nor the `omega` steps under them meet a truncated difference.

* `balance_step` — what one operation does to one balance.
* `balance_run` — a balance is what was there, plus what was deposited, minus
  what was withdrawn; by induction on the run.
* `total_step` — the sum of all balances moves with what goes in and out.
-/

namespace Trana.Lib.Bank

/-- What a step does, and for whom. -/
inductive Op (ι : Type) where
  | deposit (i : ι) (amount : ℕ)
  | withdraw (i : ι) (amount : ℕ)
  | idle
  deriving DecidableEq

section Steps

variable {ι : Type} [DecidableEq ι]

/-- One operation on the balances. -/
inductive Step : (ι → ℕ) → Op ι → (ι → ℕ) → Prop where
  | deposit (b : ι → ℕ) (i : ι) (amount : ℕ) :
    Step b (.deposit i amount) (Function.update b i (b i + amount))
  | withdraw (b : ι → ℕ) (i : ι) (amount : ℕ) (covered : amount ≤ b i) :
    Step b (.withdraw i amount) (Function.update b i (b i - amount))
  | idle (b : ι → ℕ) : Step b .idle b

/-- What the operation adds to the balance of `i`. -/
def Op.deposited (i : ι) : Op ι → ℕ
  | .deposit j amount => if j = i then amount else 0
  | .withdraw _ _ => 0
  | .idle => 0

/-- What the operation takes from the balance of `i`. -/
def Op.withdrawn (i : ι) : Op ι → ℕ
  | .withdraw j amount => if j = i then amount else 0
  | .deposit _ _ => 0
  | .idle => 0

variable {b b' : ι → ℕ} {a : Op ι}

/-- One operation moves the balance of `i` by what it deposits for `i` and by what
it withdraws from `i`; every other balance stays. -/
theorem balance_step (h : Step b a b') (i : ι) :
    b' i + a.withdrawn i = b i + a.deposited i := by
  cases h with
  | deposit j amount =>
    by_cases hj : j = i
    · subst hj
      rw [Function.update_self, Op.withdrawn, Op.deposited, if_pos rfl, Nat.add_zero]
    · rw [Function.update_of_ne (Ne.symm hj), Op.withdrawn, Op.deposited, if_neg hj]
  | withdraw j amount covered =>
    by_cases hj : j = i
    · subst hj
      rw [Function.update_self, Op.withdrawn, Op.deposited, if_pos rfl, Nat.add_zero]
      exact Nat.sub_add_cancel covered
    · rw [Function.update_of_ne (Ne.symm hj), Op.withdrawn, Op.deposited, if_neg hj]
  | idle => rfl

/-- All that was deposited for `i`. -/
def deposited (i : ι) (ops : List (Op ι)) : ℕ := (ops.map (Op.deposited i)).sum

/-- All that `i` took out. -/
def withdrawn (i : ι) (ops : List (Op ι)) : ℕ := (ops.map (Op.withdrawn i)).sum

variable {trace : List (Transition (ι → ℕ) (Op ι))}

/-- Over a run the balance of `i` is accounted for to the unit: what is left plus
what was withdrawn is what was there plus what was deposited. -/
theorem balance_run (h : Run Step b trace b') (i : ι) :
    b' i + withdrawn i (trace.map Transition.label) =
      b i + deposited i (trace.map Transition.label) := by
  induction h with
  | nil b => rfl
  | @cons b b₁ b' a trace step rest ih =>
    have hone := balance_step step i
    simp only [withdrawn, deposited, List.map_cons, List.sum_cons] at ih ⊢
    omega

/-- What the operation brings to the bank. -/
def Op.inflow : Op ι → ℕ
  | .deposit _ amount => amount
  | .withdraw _ _ => 0
  | .idle => 0

/-- What the operation takes out of the bank. -/
def Op.outflow : Op ι → ℕ
  | .withdraw _ amount => amount
  | .deposit _ _ => 0
  | .idle => 0

/-- Summed over all holders, an operation deposits what it brings. -/
theorem sum_deposited [Fintype ι] (a : Op ι) : ∑ i, a.deposited i = a.inflow := by
  cases a with
  | deposit i amount => simp [Op.deposited, Op.inflow]
  | withdraw i amount => simp [Op.deposited, Op.inflow]
  | idle => simp [Op.deposited, Op.inflow]

/-- Summed over all holders, it withdraws what it takes out. -/
theorem sum_withdrawn [Fintype ι] (a : Op ι) : ∑ i, a.withdrawn i = a.outflow := by
  cases a with
  | deposit i amount => simp [Op.withdrawn, Op.outflow]
  | withdraw i amount => simp [Op.withdrawn, Op.outflow]
  | idle => simp [Op.withdrawn, Op.outflow]

/-- All balances together. -/
theorem total_step [Fintype ι] (h : Step b a b') :
    ∑ i, b' i + a.outflow = ∑ i, b i + a.inflow := by
  rw [← sum_withdrawn, ← sum_deposited, ← Finset.sum_add_distrib, ← Finset.sum_add_distrib]
  exact Finset.sum_congr rfl fun i _ => balance_step h i

end Steps

end Trana.Lib.Bank
