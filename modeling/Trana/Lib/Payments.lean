import Mathlib.Algebra.BigOperators.Group.Finset.Basic
import Mathlib.Algebra.BigOperators.Group.Finset.Piecewise
import Mathlib.Algebra.BigOperators.Group.List.Basic
import Mathlib.Algebra.Ring.Nat
import Trana.Lib.Run

/-!
# Payments

Balances that change by payments from one place to another, written down as a
double-entry ledger does: what a place has afterwards and what it paid is what
it had and what it received. Source and destination may be the same, and
nothing here subtracts.

`Settles b b' ps` is that equation for every place at once. It says nothing of
the order of the payments, nor that a place could afford each of them when it
was made; a program that moves money through checked transfers settles its
payments whichever way it gets there, and what an account must have beforehand
is a matter of its own guards.

The number of places is not bounded. Sums over all of them appear in
`Settles.total` alone, for a finite type of places.

* `Settles.append` — one list of payments after another.
* `Settles.total` — payments leave the sum of all balances alone.
* `settles_run` — over a run, for a place that nothing else touches.
* `Run.telescope` — what the steps of a run change the difference of two
  quantities by adds up.
-/

namespace Trana.Lib

/-- An amount that moves from one place to another. -/
structure Payment (ι : Type) where
  source : ι
  dest : ι
  amount : ℕ
  deriving DecidableEq

namespace Payment

variable {ι : Type} [DecidableEq ι]

/-- What the payments take from `i`. -/
def paid (i : ι) (ps : List (Payment ι)) : ℕ :=
  (ps.map fun p => if p.source = i then p.amount else 0).sum

/-- What the payments bring to `i`. -/
def received (i : ι) (ps : List (Payment ι)) : ℕ :=
  (ps.map fun p => if p.dest = i then p.amount else 0).sum

@[simp] theorem paid_nil (i : ι) : paid i [] = 0 := rfl

@[simp] theorem received_nil (i : ι) : received i [] = 0 := rfl

@[simp] theorem paid_cons (i : ι) (p : Payment ι) (ps : List (Payment ι)) :
    paid i (p :: ps) = (if p.source = i then p.amount else 0) + paid i ps := List.sum_cons ..

@[simp] theorem received_cons (i : ι) (p : Payment ι) (ps : List (Payment ι)) :
    received i (p :: ps) = (if p.dest = i then p.amount else 0) + received i ps :=
  List.sum_cons ..

/-- A later list of payments adds to what a place paid. -/
theorem paid_append (i : ι) (ps qs : List (Payment ι)) :
    paid i (ps ++ qs) = paid i ps + paid i qs := by
  rw [paid, List.map_append, List.sum_append, paid, paid]

/-- A later list of payments adds to what a place received. -/
theorem received_append (i : ι) (ps qs : List (Payment ι)) :
    received i (ps ++ qs) = received i ps + received i qs := by
  rw [received, List.map_append, List.sum_append, received, received]

/-- Who is no source pays nothing. -/
theorem paid_eq_zero {i : ι} {ps : List (Payment ι)} (h : ∀ p ∈ ps, p.source ≠ i) :
    paid i ps = 0 := by
  induction ps with
  | nil => rfl
  | cons p ps ih =>
    obtain ⟨hp, hps⟩ := List.forall_mem_cons.mp h
    rw [paid_cons, if_neg hp, ih hps]

end Payment

open Payment

section Settles

variable {ι : Type} [DecidableEq ι] {b b' b'' : ι → ℕ} {ps qs : List (Payment ι)}

/-- `b'` is `b` after the payments. -/
def Settles (b b' : ι → ℕ) (ps : List (Payment ι)) : Prop :=
  ∀ i, b' i + paid i ps = b i + received i ps

/-- No payment settles no change. -/
theorem Settles.refl (b : ι → ℕ) : Settles b b [] := fun _ => rfl

/-- Two settled stretches behind each other settle both lists together. -/
theorem Settles.append (h : Settles b b' ps) (h' : Settles b' b'' qs) :
    Settles b b'' (ps ++ qs) := by
  intro i
  have h₁ := h i
  have h₂ := h' i
  rw [paid_append, received_append]
  omega

/-- Nothing paid, nothing received. -/
theorem settles_zero (b : ι → ℕ) (source dest : ι) : Settles b b [⟨source, dest, 0⟩] := by
  intro i
  simp

/-- A payment that the source can make. -/
theorem settles_transfer {source : ι} (dest : ι) {amount : ℕ} (hfunds : amount ≤ b source) :
    let debited := Function.update b source (b source - amount)
    Settles b (Function.update debited dest (debited dest + amount)) [⟨source, dest, amount⟩] := by
  intro debited i
  simp only [paid_cons, received_cons, paid_nil, received_nil, Nat.add_zero]
  by_cases hdest : dest = i
  · subst hdest
    rw [Function.update_self, if_pos rfl]
    by_cases hsource : source = dest
    -- a payment from a place to itself takes the amount away and brings it back
    · subst hsource
      rw [if_pos rfl, show debited source = b source - amount from Function.update_self ..]
      omega
    · rw [if_neg hsource,
        show debited dest = b dest from Function.update_of_ne (Ne.symm hsource) ..]
      omega
  · rw [Function.update_of_ne (Ne.symm hdest), if_neg hdest]
    by_cases hsource : source = i
    · subst hsource
      rw [if_pos rfl, show debited source = b source - amount from Function.update_self ..]
      omega
    · rw [if_neg hsource, show debited i = b i from Function.update_of_ne (Ne.symm hsource) ..]

/-- Every payment is paid by one place. -/
theorem sum_paid [Fintype ι] (ps : List (Payment ι)) :
    ∑ i, paid i ps = (ps.map Payment.amount).sum := by
  induction ps with
  | nil => simp
  | cons p ps ih => simp [Finset.sum_add_distrib, ih]

/-- Every payment is received by one place. -/
theorem sum_received [Fintype ι] (ps : List (Payment ι)) :
    ∑ i, received i ps = (ps.map Payment.amount).sum := by
  induction ps with
  | nil => simp
  | cons p ps ih => simp [Finset.sum_add_distrib, ih]

/-- What one pays another receives. -/
theorem Settles.total [Fintype ι] (h : Settles b b' ps) : ∑ i, b' i = ∑ i, b i := by
  have hsum : ∑ i, (b' i + paid i ps) = ∑ i, (b i + received i ps) :=
    Finset.sum_congr rfl fun i _ => h i
  rw [Finset.sum_add_distrib, Finset.sum_add_distrib, sum_paid, sum_received] at hsum
  omega

/-- A loss needs a payment. -/
theorem Settles.paid_of_lt {i : ι} (h : Settles b b' ps) (hlt : b' i < b i) :
    ∃ p ∈ ps, p.source = i := by
  by_contra hnone
  have hpaid : paid i ps = 0 := paid_eq_zero fun p hp heq => hnone ⟨p, hp, heq⟩
  have := h i
  omega

variable {σ α : Type} {Step : σ → α → σ → Prop} {s s' : σ} {trace : List (Transition σ α)}

/-- Over a run each of whose steps makes its payments as far as `i` can see. -/
theorem settles_run (balance : σ → ℕ) {payments : Transition σ α → List (Payment ι)} {i : ι}
    (h : Run Step s trace s')
    (hstep : ∀ t ∈ trace, balance t.after + paid i (payments t) =
      balance t.before + received i (payments t)) :
    balance s' + paid i (trace.flatMap payments) =
      balance s + received i (trace.flatMap payments) := by
  induction h with
  | nil => rfl
  | @cons s s₁ s' a trace step rest ih =>
    have hone := hstep _ (List.mem_cons_self ..)
    dsimp only at hone
    have hrest := ih fun t ht => hstep t (List.mem_cons_of_mem _ ht)
    rw [List.flatMap_cons, paid_append, received_append]
    omega

/-- Two quantities whose difference each transition moves by `e`. -/
theorem Run.telescope {f g : σ → ℕ} {e : Transition σ α → ℕ} (h : Run Step s trace s')
    (hstep : ∀ t ∈ trace, f t.after + g t.before = f t.before + g t.after + e t) :
    f s' + g s = f s + g s' + (trace.map e).sum := by
  induction h with
  | nil => rfl
  | @cons s s₁ s' a trace step rest ih =>
    have hone := hstep _ (List.mem_cons_self ..)
    have hrest := ih fun t ht => hstep t (List.mem_cons_of_mem _ ht)
    rw [List.map_cons, List.sum_cons]
    dsimp only at hone
    omega

end Settles

end Trana.Lib
