import Mathlib.Order.Basic

/-!
# Runs of a labelled transition system

A run is recorded with all its transitions, each with the states before and
after, so that a property can speak about two moments of one run and about
what happened between them.

* `Run.split` — a run through a given transition is a run up to it, the
  transition, and a run from it.
* `Run.invariant` — what holds at the start and is kept by every step holds
  everywhere along the run.
* `Run.tally`, `Run.tally_le`, `Run.balance` — a quantity that counts certain
  transitions, or weighs some against others.
* `Run.mono`, `Run.mono_between` — a quantity no step decreases.
* `Run.stays` — a property of states that no step of this run destroys.
* `Run.last_change` — a quantity only certain transitions change is what the
  last of them left.
* `Run.simulate` — a run, seen through a function of its states and one of its
  labels.
* `run_of_replay` — a run, from labels that execute.
-/

namespace Trana.Lib

/-- One recorded step. -/
structure Transition (σ ι : Type) where
  before : σ
  label : ι
  after : σ

/-- The transition another system sees. -/
def Transition.map {σ ι σ' ι' : Type} (f : σ → σ') (g : ι → ι') (t : Transition σ ι) :
    Transition σ' ι' :=
  ⟨f t.before, g t.label, f t.after⟩

section Run

variable {σ ι : Type} (Step : σ → ι → σ → Prop)

/-- The runs of a step relation. -/
inductive Run : σ → List (Transition σ ι) → σ → Prop where
  | nil (s : σ) : Run s [] s
  | cons {s s' s'' : σ} {a : ι} {trace : List (Transition σ ι)} (step : Step s a s')
      (rest : Run s' trace s'') : Run s (⟨s, a, s'⟩ :: trace) s''

variable {Step} {s s' s'' : σ} {trace trace' : List (Transition σ ι)}

/-- Runs compose. -/
theorem Run.append (h : Run Step s trace s') (h' : Run Step s' trace' s'') :
    Run Step s (trace ++ trace') s'' := by
  induction h with
  | nil => exact h'
  | cons step _ ih => exact .cons step (ih h')

/-- A run comes apart wherever its trace does. -/
theorem Run.of_append (h : Run Step s (trace ++ trace') s'') :
    ∃ s', Run Step s trace s' ∧ Run Step s' trace' s'' := by
  induction trace generalizing s with
  | nil => exact ⟨s, .nil s, h⟩
  | cons t trace ih =>
    cases h with
    | cons step rest =>
      obtain ⟨s', h₁, h₂⟩ := ih rest
      exact ⟨s', .cons step h₁, h₂⟩

/-- A run through `t`: up to it, the step itself, and on from it. -/
theorem Run.split {t : Transition σ ι} (h : Run Step s (trace ++ t :: trace') s'') :
    Run Step s trace t.before ∧ Step t.before t.label t.after ∧
      Run Step t.after trace' s'' := by
  obtain ⟨s', h₁, h₂⟩ := h.of_append
  cases h₂ with
  | cons step rest => exact ⟨h₁, step, rest⟩

/-- Every recorded transition is a step. -/
theorem Run.step (h : Run Step s trace s') : ∀ t ∈ trace, Step t.before t.label t.after := by
  intro t ht
  obtain ⟨pre, post, rfl⟩ := List.append_of_mem ht
  exact h.split.2.1

/-- An invariant holds at the end of every run. -/
theorem Run.invariant {Inv : σ → Prop} (hstep : ∀ s a s', Inv s → Step s a s' → Inv s')
    (h : Run Step s trace s') (hs : Inv s) : Inv s' := by
  induction h with
  | nil => exact hs
  | cons step _ ih => exact ih (hstep _ _ _ hs step)

/-- A property that no transition of this run destroys. -/
theorem Run.stays {P : σ → Prop} (h : Run Step s trace s') (hs : P s)
    (hkeep : ∀ t ∈ trace, P t.before → P t.after) : P s' := by
  induction h with
  | nil => exact hs
  | cons step _ ih =>
    refine ih (hkeep _ (List.mem_cons_self ..) hs) fun t ht => ?_
    exact hkeep t (List.mem_cons_of_mem _ ht)

/-- The same, at every moment of the run. -/
theorem Run.stays_at {P : σ → Prop} (h : Run Step s trace s') (hs : P s)
    (hkeep : ∀ t ∈ trace, P t.before → P t.after) :
    ∀ t ∈ trace, P t.before ∧ P t.after := by
  intro t ht
  obtain ⟨pre, post, rfl⟩ := List.append_of_mem ht
  obtain ⟨h₁, -, -⟩ := h.split
  have hbefore : P t.before := h₁.stays hs fun u hu => hkeep u (List.mem_append_left _ hu)
  exact ⟨hbefore, hkeep t ht hbefore⟩

/-- A quantity that transitions outside `E` keep is the initial one, or what the
last transition in `E` left. -/
theorem Run.last_change {β : Type} {f : σ → β} {E : Transition σ ι → Prop}
    (h : Run Step s trace s') (hkeep : ∀ t ∈ trace, ¬E t → f t.after = f t.before) :
    ((∀ t ∈ trace, ¬E t) ∧ f s' = f s) ∨
    ∃ pre t post, trace = pre ++ t :: post ∧ E t ∧ (∀ u ∈ post, ¬E u) ∧ f s' = f t.after := by
  induction h with
  | nil s => exact Or.inl ⟨fun _ ht => absurd ht List.not_mem_nil, rfl⟩
  | @cons s s₁ s' a trace step rest ih =>
    rcases ih fun t ht => hkeep t (List.mem_cons_of_mem _ ht) with
      ⟨hnone, heq⟩ | ⟨pre, t, post, rfl, ht, hpost, heq⟩
    -- no change later: it is this transition or none at all
    · by_cases hE : E ⟨s, a, s₁⟩
      · exact Or.inr ⟨[], _, trace, rfl, hE, hnone, heq⟩
      · refine Or.inl ⟨fun t ht => ?_, heq.trans (hkeep _ (List.mem_cons_self ..) hE)⟩
        rcases List.mem_cons.mp ht with rfl | ht
        · exact hE
        · exact hnone t ht
    · exact Or.inr ⟨_ :: pre, t, post, rfl, ht, hpost, heq⟩

/-- A run whose transitions are steps of another system. -/
theorem Run.simulate {σ' ι' : Type} {Step' : σ' → ι' → σ' → Prop} {f : σ → σ'} {g : ι → ι'}
    (h : Run Step s trace s')
    (hstep : ∀ t ∈ trace, Step' (f t.before) (g t.label) (f t.after)) :
    Run Step' (f s) (trace.map (Transition.map f g)) (f s') := by
  induction h with
  | nil => exact .nil _
  | cons step rest ih =>
    exact .cons (hstep _ (List.mem_cons_self ..)) (ih fun t ht =>
      hstep t (List.mem_cons_of_mem _ ht))

/-- Execute one label after the other; none when one of them cannot be. -/
def replay (next? : σ → ι → Option σ) : σ → List ι → Option σ
  | s, [] => some s
  | s, a :: as => (next? s a).bind fun s' => replay next? s' as

/-- What executes is a run. -/
theorem run_of_replay {next? : σ → ι → Option σ} {as : List ι}
    (hstep : ∀ s a s', next? s a = some s' → Step s a s') (h : replay next? s as = some s') :
    ∃ trace, Run Step s trace s' ∧ trace.map Transition.label = as := by
  induction as generalizing s with
  | nil =>
    obtain rfl := Option.some.inj h
    exact ⟨[], .nil s, rfl⟩
  | cons a as ih =>
    obtain ⟨s₁, ha, hrest⟩ := Option.bind_eq_some_iff.mp h
    obtain ⟨trace, hrun, hlabels⟩ := ih hrest
    exact ⟨_ :: trace, .cons (hstep s a s₁ ha) hrun, by rw [List.map_cons, hlabels]⟩

/-- Replaying composes. -/
theorem replay_append {next? : σ → ι → Option σ} {as bs : List ι}
    (h : replay next? s as = some s') (h' : replay next? s' bs = some s'') :
    replay next? s (as ++ bs) = some s'' := by
  induction as generalizing s with
  | nil =>
    obtain rfl := Option.some.inj h
    exact h'
  | cons a as ih =>
    obtain ⟨s₁, ha, hrest⟩ := Option.bind_eq_some_iff.mp h
    exact Option.bind_eq_some_iff.mpr ⟨s₁, ha, ih hrest⟩

/-! ## Quantities -/

/-- A quantity that the transitions in `E` raise by one, and the others keep,
counts them. -/
theorem Run.tally {f : σ → Nat} {E : Transition σ ι → Bool} (h : Run Step s trace s')
    (hstep : ∀ t ∈ trace, f t.after = f t.before + if E t then 1 else 0) :
    f s' = f s + trace.countP E := by
  induction h with
  | nil => rfl
  | cons step _ ih =>
    have hone := hstep _ (List.mem_cons_self ..)
    have hrest := ih fun t ht => hstep t (List.mem_cons_of_mem _ ht)
    dsimp only at hone
    rw [List.countP_cons]
    omega

/-- One that they raise by one or more bounds their number. -/
theorem Run.tally_le {f : σ → Nat} {E : Transition σ ι → Bool} (h : Run Step s trace s')
    (hstep : ∀ t ∈ trace, (f t.before + if E t then 1 else 0) ≤ f t.after) :
    f s + trace.countP E ≤ f s' := by
  induction h with
  | nil => exact Nat.le_refl _
  | cons step _ ih =>
    have hone := hstep _ (List.mem_cons_self ..)
    have hrest := ih fun t ht => hstep t (List.mem_cons_of_mem _ ht)
    dsimp only at hone
    rw [List.countP_cons]
    omega

/-- One that some transitions raise by one and others lower by one keeps the
balance between them. -/
theorem Run.balance {f : σ → Nat} {up down : Transition σ ι → Bool} (h : Run Step s trace s')
    (hstep : ∀ t ∈ trace, f t.after + (if down t then 1 else 0) =
      f t.before + if up t then 1 else 0) :
    f s' + trace.countP down = f s + trace.countP up := by
  induction h with
  | nil => rfl
  | cons step _ ih =>
    have hone := hstep _ (List.mem_cons_self ..)
    have hrest := ih fun t ht => hstep t (List.mem_cons_of_mem _ ht)
    dsimp only at hone
    rw [List.countP_cons, List.countP_cons]
    omega

variable {α : Type} [Preorder α]

/-- A quantity that no transition decreases. -/
theorem Run.mono {f : σ → α} (h : Run Step s trace s')
    (hle : ∀ t ∈ trace, f t.before ≤ f t.after) : f s ≤ f s' := by
  induction h with
  | nil => exact le_refl _
  | cons step _ ih =>
    refine le_trans (hle _ (List.mem_cons_self ..)) (ih fun t ht => ?_)
    exact hle t (List.mem_cons_of_mem _ ht)

/-- From one transition to a later one, when none in between decreases the quantity. -/
theorem Run.mono_between {f : σ → α} {pre mid post : List (Transition σ ι)}
    {t u : Transition σ ι} (h : Run Step s (pre ++ t :: (mid ++ u :: post)) s')
    (hle : ∀ v ∈ mid, f v.before ≤ f v.after) : f t.after ≤ f u.before :=
  (h.split.2.2.split.1).mono hle

end Run

end Trana.Lib
