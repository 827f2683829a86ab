import Trana.Lib.Run

/-!
# A value with an owner

A cell that whoever comes first initialises, and that only this party changes
from then on. Nothing takes the cell away again and nothing hands it over. What
the cell holds, and what an update does to it, is left open.

A run speaks about one cell. A program that keeps many of them (one account for
each wallet, say) is seen through a function of its states that reads the one
cell, and its other steps are `idle` there (`Run.simulate`).

`history` is the form in which results about a program quote the component: it
does not only bound what a run may do but says which writes there were, in
which order, and that the value at the end is the one the last of them left.
From an owned cell on that is `owner_run`, by induction on the trace with the
value generalised; `history` adds the idle steps in front of the initialisation.

* `owner_run` — the owner of a cell is its owner for the rest of the run.
* `history` — what the cell holds at the end of a run tells who wrote to it:
  one initialisation, then updates by the same party, the last of which left
  what is there.
-/

namespace Trana.Lib.Owned

/-- What a step does to the cell, and on whose behalf. -/
inductive Op (α β : Type) where
  | init (party : α) (v : β)
  | update (party : α) (v : β)
  | idle
  deriving DecidableEq

section Steps

variable {α β : Type}

/-- One operation on the cell. -/
inductive Step : Option (α × β) → Op α β → Option (α × β) → Prop where
  | init (party : α) (v : β) : Step none (.init party v) (some (party, v))
  | update (party : α) (v v' : β) : Step (some (party, v)) (.update party v') (some (party, v'))
  | idle (s : Option (α × β)) : Step s .idle s

/-- What a step of an owned cell can do. -/
theorem step_owned {party : α} {v : β} {a : Op α β} {s' : Option (α × β)}
    (h : Step (some (party, v)) a s') :
    a = .idle ∧ s' = some (party, v) ∨ ∃ v', a = .update party v' ∧ s' = some (party, v') := by
  cases h with
  | update _ _ v' => exact Or.inr ⟨v', rfl, rfl⟩
  | idle => exact Or.inl ⟨rfl, rfl⟩

variable {s' : Option (α × β)} {trace : List (Transition (Option (α × β)) (Op α β))}

/-- From an owned cell on: its owner stays, everything else is idle, and the
last update left what is there at the end. -/
theorem owner_run {party : α} {v : β} (h : Run Step (some (party, v)) trace s') :
    ∃ v', s' = some (party, v') ∧
      (∀ a ∈ trace.map Transition.label, a = .idle ∨ ∃ u, a = .update party u) ∧
      ((∀ a ∈ trace.map Transition.label, a = .idle) ∧ v' = v ∨
        ∃ pre post, trace.map Transition.label = pre ++ .update party v' :: post ∧
          ∀ a ∈ post, a = .idle) := by
  induction trace generalizing v with
  | nil =>
    cases h with
    | nil =>
      exact ⟨v, rfl, fun _ ha => absurd ha List.not_mem_nil,
        Or.inl ⟨fun _ ha => absurd ha List.not_mem_nil, rfl⟩⟩
  | cons t trace ih =>
    cases h with
    | cons step rest =>
      rw [List.map_cons]
      rcases step_owned step with ⟨rfl, rfl⟩ | ⟨v₁, rfl, rfl⟩
      -- idle: the update that left the value, if there is one, comes later
      · obtain ⟨v', hs', hall, hlast⟩ := ih rest
        refine ⟨v', hs', List.forall_mem_cons.mpr ⟨Or.inl rfl, hall⟩, ?_⟩
        rcases hlast with ⟨hidle, hv⟩ | ⟨pre, post, heq, hpost⟩
        · exact Or.inl ⟨List.forall_mem_cons.mpr ⟨rfl, hidle⟩, hv⟩
        · exact Or.inr ⟨_ :: pre, post, by rw [heq]; rfl, hpost⟩
      · obtain ⟨v', hs', hall, hlast⟩ := ih rest
        refine ⟨v', hs', List.forall_mem_cons.mpr ⟨Or.inr ⟨v₁, rfl⟩, hall⟩, ?_⟩
        rcases hlast with ⟨hidle, rfl⟩ | ⟨pre, post, heq, hpost⟩
        · exact Or.inr ⟨[], _, rfl, hidle⟩
        · exact Or.inr ⟨_ :: pre, post, by rw [heq]; rfl, hpost⟩

/-- How an owned cell came about. -/
theorem history {party : α} {v : β} (h : Run Step none trace (some (party, v))) :
    ∃ pre post v₀, trace.map Transition.label = pre ++ .init party v₀ :: post ∧
      (∀ a ∈ pre, a = .idle) ∧ (∀ a ∈ post, a = .idle ∨ ∃ v', a = .update party v') ∧
      ((∀ a ∈ post, a = .idle) ∧ v = v₀ ∨
        ∃ mid rest, post = mid ++ .update party v :: rest ∧ ∀ a ∈ rest, a = .idle) := by
  induction trace with
  | nil => cases h
  | cons t trace ih =>
    cases h with
    | cons step rest =>
      rw [List.map_cons]
      cases step with
      | init party₀ v₀ =>
        obtain ⟨v', heq, hall, hlast⟩ := owner_run rest
        obtain ⟨rfl, rfl⟩ := Prod.mk.inj (Option.some.inj heq)
        exact ⟨[], _, v₀, rfl, fun _ ha => absurd ha List.not_mem_nil, hall, hlast⟩
      | idle =>
        obtain ⟨pre, post, v₀, heq, hpre, hall, hlast⟩ := ih rest
        exact ⟨_ :: pre, post, v₀, by rw [heq]; rfl, List.forall_mem_cons.mpr ⟨rfl, hpre⟩, hall,
          hlast⟩

/-- While the cell is empty nobody has written to it. -/
theorem unowned_run (h : Run Step none trace none) :
    ∀ a ∈ trace.map Transition.label, a = Op.idle (α := α) (β := β) := by
  induction trace with
  | nil => exact fun _ ha => absurd ha List.not_mem_nil
  | cons t trace ih =>
    cases h with
    | cons step rest =>
      cases step with
      | init party v =>
        obtain ⟨v', heq, -⟩ := owner_run rest
        cases heq
      | idle => exact List.forall_mem_cons.mpr ⟨rfl, ih rest⟩

end Steps

end Trana.Lib.Owned
