import Trana.Lib.Exec

/-!
# Runs that do not panic

`NoPanic x`: the run `x` ends with a value or an error. One lemma per primitive
says exactly when it does, and `noPanic_bind` goes on behind a value that was
returned, so the guards of a function are at hand where its accesses are.

A program that slices its input has one obligation for each access, and the fact
that discharges it stands in front of it in the text: a length that was checked,
a value that was found. `noPanic_bind` hands these over as hypotheses, in the
form of what the first part returned, so that no proof walks through the text
twice. A bound that is nowhere checked shows as a goal that cannot be closed.

Every lemma here is an equivalence. That makes the set safe for `simp`: rewriting
with it loses nothing, and what is left of a goal is exactly what has to be shown
about the input.

* `noPanic_bind` — a sequence, the second part at every value the first returns.
* `noPanic_ite` — a conditional step.
* `noPanic_slice`, `noPanic_index`, `noPanic_expect` — the accesses.
-/

namespace Trana.Lib.Exec

variable {ε ℓ α β : Type}

/-- The run ends with a value or an error. -/
def NoPanic (x : Exec ε ℓ α) : Prop := x.result ≠ .error .panic

/-- A run that returns does not panic. -/
theorem Returns.noPanic {x : Exec ε ℓ α} {a : α} (h : x.Returns a) : x.NoPanic := by
  unfold Returns at h
  unfold NoPanic
  rw [h]
  nofun

@[simp] theorem noPanic_pure {a : α} : (pure a : Exec ε ℓ α).NoPanic := by
  intro h
  cases h

@[simp] theorem noPanic_fail {e : ε} : (fail e : Exec ε ℓ α).NoPanic := by
  intro h
  cases h

@[simp] theorem noPanic_panic : (panic : Exec ε ℓ α).NoPanic ↔ False :=
  ⟨fun h => h rfl, False.elim⟩

@[simp] theorem noPanic_log {l : ℓ} : (log l : Exec ε ℓ Unit).NoPanic := by
  intro h
  cases h

/-- A sequence does not panic when neither part does, the second behind every
value of the first. -/
@[simp] theorem noPanic_bind {x : Exec ε ℓ α} {f : α → Exec ε ℓ β} :
    (x >>= f).NoPanic ↔ x.NoPanic ∧ ∀ a, x.Returns a → (f a).NoPanic := by
  cases h : x.result with
  | ok a =>
    have hx : x.Returns a := h
    unfold NoPanic
    rw [result_bind_ok hx]
    constructor
    · intro hf
      refine ⟨hx.noPanic, fun b hb => ?_⟩
      rwa [hb.unique hx]
    · exact fun hand => hand.2 a hx
  | error e =>
    unfold NoPanic
    rw [result_bind_error h, h]
    constructor
    · exact fun he => ⟨fun heq => he (by cases heq; rfl), fun a ha => by cases h.symm.trans ha⟩
    · exact fun hand heq => hand.1 (by cases heq; rfl)

/-- Of a conditional step only the branch that is taken matters. -/
theorem noPanic_ite {p : Prop} [Decidable p] {x y : Exec ε ℓ α} :
    (if p then x else y).NoPanic ↔ (p → x.NoPanic) ∧ (¬p → y.NoPanic) := by
  by_cases h : p
  · simp [h]
  · simp [h]

/-- A condition that fails is an error. -/
@[simp] theorem noPanic_require {p : Prop} [Decidable p] {e : ε} :
    (require p e : Exec ε ℓ Unit).NoPanic :=
  noPanic_ite.mpr ⟨fun _ => noPanic_pure, fun _ => noPanic_fail⟩

/-- A missing value is an error here. -/
@[simp] theorem noPanic_okOr {o : Option α} {e : ε} : (okOr o e : Exec ε ℓ α).NoPanic := by
  cases o with
  | none => exact noPanic_fail
  | some a => exact noPanic_pure

/-! ## Primitives -/

/-- Rust's primitives panic exactly when their check fails. -/
theorem noPanic_check {p : Prop} [Decidable p] {a : α} :
    (if p then pure a else panic : Exec ε ℓ α).NoPanic ↔ p := by
  by_cases h : p
  · simp [h]
  · simp [h]

/-- A sum panics when it does not fit. -/
@[simp] theorem noPanic_usizeAdd {a b : Nat} :
    (usizeAdd a b : Exec ε ℓ Nat).NoPanic ↔ a + b < 2 ^ 64 :=
  noPanic_check

/-- So does a product. -/
@[simp] theorem noPanic_usizeMul {a b : Nat} :
    (usizeMul a b : Exec ε ℓ Nat).NoPanic ↔ a * b < 2 ^ 64 :=
  noPanic_check

/-- A difference panics when it is negative. -/
@[simp] theorem noPanic_unsignedSub {a b : Nat} :
    (unsignedSub a b : Exec ε ℓ Nat).NoPanic ↔ b ≤ a :=
  noPanic_check

/-- A slice panics unless its bounds are in order and inside. -/
@[simp] theorem noPanic_slice {xs : List α} {i j : Nat} :
    (slice xs i j : Exec ε ℓ (List α)).NoPanic ↔ i ≤ j ∧ j ≤ xs.length :=
  noPanic_check

/-- An open slice panics unless it starts inside. -/
@[simp] theorem noPanic_sliceFrom {xs : List α} {i : Nat} :
    (sliceFrom xs i : Exec ε ℓ (List α)).NoPanic ↔ i ≤ xs.length :=
  noPanic_check

/-- A vector's capacity is bounded by the address space. -/
@[simp] theorem noPanic_withCapacity {n : Nat} :
    (withCapacity n : Exec ε ℓ Unit).NoPanic ↔ n < 2 ^ 63 :=
  noPanic_check

/-- An access panics outside. -/
@[simp] theorem noPanic_index {xs : List α} {i : Nat} :
    (index xs i : Exec ε ℓ α).NoPanic ↔ i < xs.length := by
  unfold index
  cases h : xs[i]? with
  | none =>
    have hle := List.getElem?_eq_none_iff.mp h
    exact iff_of_false (fun hno => hno rfl) (by omega)
  | some x =>
    obtain ⟨hlt, -⟩ := List.getElem?_eq_some_iff.mp h
    exact iff_of_true noPanic_pure hlt

/-- A missing value is a panic here. -/
@[simp] theorem noPanic_expect {o : Option α} :
    (expect o : Exec ε ℓ α).NoPanic ↔ ∃ a, o = some a := by
  cases o with
  | none => exact iff_of_false (fun hno => hno rfl) (by nofun)
  | some a => exact iff_of_true noPanic_pure ⟨a, rfl⟩

end Trana.Lib.Exec
