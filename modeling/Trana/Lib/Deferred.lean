import Mathlib.Data.List.Basic

/-!
# Promises behind one slot

A hub hands out promises and keeps the last of them in a single mutable slot;
settling goes through the slot and empties it. `issued` says of each promise
what it was handed out for, `outcomes` lists the settlements in order, so a
promise can be counted settled twice, or found to be settled never.

A promise is the number of its place in `issued`. Nothing is ever taken out of
either list, so two moments of one run can be compared (`Grows`), and a promise
whose slot was overwritten is still there to be found lost. Settling asks for a
kind of promise: a slot that holds another kind is left as it is, and the call
that wanted to settle it has no effect and says nothing.

* `Sound` — what holds whatever is done: only promises handed out are settled,
  none twice, and the one in the slot is not settled yet.
* `Kept` — every promise is settled once or still in the slot. Issuing keeps
  this exactly when the slot is free (`kept_issue_iff`); settling always does.
* `settleIf_cases` — a settlement does nothing, or settles what the slot holds.
-/

namespace Trana.Lib

/-- What the slot holds: a promise's number, with what it is for. -/
structure Held (κ : Type) where
  promise : Nat
  kind : κ
  deriving DecidableEq

/-- A hub that hands out promises of kind `κ` and settles them with `ρ`. -/
structure Deferred (κ ρ : Type) where
  issued : List κ
  outcomes : List (Nat × ρ)
  held : Option (Held κ)

namespace Deferred

variable {κ ρ : Type}

/-- Nothing handed out yet. -/
def empty : Deferred κ ρ := ⟨[], [], none⟩

/-- Hand out a promise: it takes the slot, whatever was in it. -/
def issue (h : Deferred κ ρ) (k : κ) : Deferred κ ρ where
  issued := h.issued ++ [k]
  outcomes := h.outcomes
  held := some ⟨h.issued.length, k⟩

/-- Settle what the slot holds, if that is of a wanted kind. -/
def settleIf (h : Deferred κ ρ) (want : κ → Bool) (o : ρ) : Deferred κ ρ :=
  match h.held with
  | none => h
  | some s => if want s.kind then ⟨h.issued, h.outcomes ++ [(s.promise, o)], none⟩ else h

/-- The settlements of one promise. -/
def outcomesOf (h : Deferred κ ρ) (p : Nat) : List ρ :=
  (h.outcomes.filter fun e => e.1 == p).map Prod.snd

/-- The promise in the slot is this one. -/
def Holds (h : Deferred κ ρ) (p : Nat) : Prop := ∃ k, h.held = some ⟨p, k⟩

/-- What holds of every hub that started empty. -/
structure Sound (h : Deferred κ ρ) : Prop where
  settled_lt : ∀ e ∈ h.outcomes, e.1 < h.issued.length
  once : ∀ p, (h.outcomesOf p).length ≤ 1
  held_issued : ∀ s, h.held = some s → h.issued[s.promise]? = some s.kind
  held_open : ∀ s, h.held = some s → h.outcomesOf s.promise = []

/-- Every promise handed out is settled exactly once, or unsettled and in the slot. -/
def Kept (h : Deferred κ ρ) : Prop :=
  ∀ p < h.issued.length, (h.outcomesOf p).length = 1 ∧ ¬h.Holds p ∨
    h.outcomesOf p = [] ∧ h.Holds p

variable {h : Deferred κ ρ} {k : κ} {want : κ → Bool} {o : ρ}

/-! ## One settlement more -/

/-- A settlement of `p` is one more outcome of `p`. -/
theorem outcomesOf_append_self (xs : List κ) (p : Nat) (s : Option (Held κ)) :
    (Deferred.mk xs (h.outcomes ++ [(p, o)]) s).outcomesOf p = h.outcomesOf p ++ [o] := by
  simp [outcomesOf]

/-- And of no other promise. -/
theorem outcomesOf_append_of_ne (xs : List κ) {p q : Nat} (s : Option (Held κ)) (hq : q ≠ p) :
    (Deferred.mk xs (h.outcomes ++ [(p, o)]) s).outcomesOf q = h.outcomesOf q := by
  simp [outcomesOf, hq.symm]

/-- A settlement settles what the slot holds, or does nothing. -/
theorem settleIf_cases (h : Deferred κ ρ) (want : κ → Bool) (o : ρ) :
    h.settleIf want o = h ∧ (∀ s, h.held = some s → want s.kind = false) ∨
      ∃ s, h.held = some s ∧ want s.kind = true ∧
        h.settleIf want o = ⟨h.issued, h.outcomes ++ [(s.promise, o)], none⟩ := by
  unfold settleIf
  cases hheld : h.held with
  | none =>
    refine Or.inl ⟨rfl, fun s hs => ?_⟩
    cases hs
  | some s =>
    by_cases hwant : want s.kind = true
    · exact Or.inr ⟨s, rfl, hwant, if_pos hwant⟩
    · refine Or.inl ⟨if_neg hwant, fun s' hs' => ?_⟩
      obtain rfl := Option.some.inj hs'
      exact Bool.eq_false_iff.mpr hwant

/-! ## Soundness -/

/-- The empty hub is sound. -/
theorem sound_empty : (empty : Deferred κ ρ).Sound where
  settled_lt e he := absurd he List.not_mem_nil
  once _ := Nat.zero_le _
  held_issued s hs := by cases hs
  held_open s hs := by cases hs

/-- A promise not handed out yet has no settlement. -/
theorem Sound.outcomesOf_of_ge (hs : h.Sound) {p : Nat} (hp : h.issued.length ≤ p) :
    h.outcomesOf p = [] := by
  rw [outcomesOf, List.map_eq_nil_iff, List.filter_eq_nil_iff]
  intro e he heq
  have hlt := hs.settled_lt e he
  have : e.1 = p := by simpa using heq
  omega

/-- Handing out a promise keeps a hub sound, also when it overwrites one. -/
theorem Sound.issue (hs : h.Sound) (k : κ) : (h.issue k).Sound where
  settled_lt e he := by
    have hlt := hs.settled_lt e he
    show e.1 < (h.issued ++ [k]).length
    rw [List.length_append]
    omega
  once := hs.once
  held_issued s hheld := by
    obtain rfl := Option.some.inj hheld
    exact List.getElem?_concat_length
  held_open s hheld := by
    obtain rfl := Option.some.inj hheld
    exact hs.outcomesOf_of_ge (Nat.le_refl _)

/-- Settling keeps a hub sound: the slot is emptied with it, so no promise is
settled a second time. -/
theorem Sound.settleIf (hs : h.Sound) (want : κ → Bool) (o : ρ) : (h.settleIf want o).Sound := by
  rcases settleIf_cases h want o with ⟨heq, -⟩ | ⟨s, hheld, -, heq⟩
  · rw [heq]
    exact hs
  · rw [heq]
    refine ⟨fun e he => ?_, fun p => ?_, fun s' hs' => ?_, fun s' hs' => ?_⟩
    · rcases List.mem_append.mp he with he | he
      · exact hs.settled_lt e he
      · obtain rfl := List.mem_singleton.mp he
        exact (List.getElem?_eq_some_iff.mp (hs.held_issued s hheld)).1
    · by_cases hp : p = s.promise
      · subst hp
        rw [outcomesOf_append_self, hs.held_open s hheld]
        exact Nat.le_refl 1
      · rw [outcomesOf_append_of_ne _ _ hp]
        exact hs.once p
    · cases hs'
    · cases hs'

/-! ## Growth -/

/-- Promises keep their purpose, and settlements stay. -/
structure Grows (h h' : Deferred κ ρ) : Prop where
  issued : ∀ (p : Nat) (k : κ), h.issued[p]? = some k → h'.issued[p]? = some k
  outcomes : h.outcomes ⊆ h'.outcomes

/-- Nothing is forgotten when nothing is done. -/
theorem Grows.refl (h : Deferred κ ρ) : h.Grows h := ⟨fun _ _ hp => hp, List.Subset.refl _⟩

/-- A promise handed out is added behind the others. -/
theorem grows_issue (h : Deferred κ ρ) (k : κ) : h.Grows (h.issue k) where
  issued p k' hp := by
    show (h.issued ++ [k])[p]? = some k'
    rw [List.getElem?_append_left (List.getElem?_eq_some_iff.mp hp).1]
    exact hp
  outcomes := List.Subset.refl _

/-- A settlement is added behind the others. -/
theorem grows_settleIf (h : Deferred κ ρ) (want : κ → Bool) (o : ρ) :
    h.Grows (h.settleIf want o) := by
  rcases settleIf_cases h want o with ⟨heq, -⟩ | ⟨s, -, -, heq⟩
  · rw [heq]
    exact Grows.refl h
  · rw [heq]
    exact ⟨fun _ _ hp => hp, List.subset_append_left _ _⟩

/-- A settlement adds one entry at most, for what the slot holds. -/
theorem mem_outcomes_settleIf {e : Nat × ρ} (he : e ∈ (h.settleIf want o).outcomes) :
    e ∈ h.outcomes ∨ (h.settleIf want o).outcomes = h.outcomes ++ [e] := by
  rcases settleIf_cases h want o with ⟨heq, -⟩ | ⟨s, -, -, heq⟩
  · rw [heq] at he
    exact Or.inl he
  · rw [heq] at he ⊢
    rcases List.mem_append.mp he with he | he
    · exact Or.inl he
    · obtain rfl := List.mem_singleton.mp he
      exact Or.inr rfl

/-- A settlement leaves the slot as it was, or empty. -/
theorem held_of_settleIf {s : Held κ} (hs : (h.settleIf want o).held = some s) :
    h.held = some s := by
  rcases settleIf_cases h want o with ⟨heq, -⟩ | ⟨s', -, -, heq⟩
  · rw [heq] at hs
    exact hs
  · rw [heq] at hs
    cases hs

/-- A settlement of a promise is on the list. -/
theorem mem_outcomesOf {p : Nat} : o ∈ h.outcomesOf p ↔ (p, o) ∈ h.outcomes := by
  simp [outcomesOf]

/-! ## Kept promises -/

/-- No promise, none lost. -/
theorem kept_empty : (empty : Deferred κ ρ).Kept := fun p hp => absurd hp (Nat.not_lt_zero p)

/-- What the slot holds has been handed out. -/
theorem Sound.held_lt (hs : h.Sound) {p : Nat} (hp : h.Holds p) : p < h.issued.length := by
  obtain ⟨k, hk⟩ := hp
  exact (List.getElem?_eq_some_iff.mp (hs.held_issued _ hk)).1

/-- After a promise is handed out, the slot holds that one and no other. -/
theorem holds_issue {p : Nat} : (h.issue k).Holds p ↔ p = h.issued.length := by
  constructor
  · intro hp
    obtain ⟨k', hk'⟩ := hp
    exact (congrArg Held.promise (Option.some.inj hk')).symm
  · intro hp
    subst hp
    exact ⟨k, rfl⟩

/-- Issuing keeps all promises exactly when the slot is free: a promise pushed
out of it is lost. -/
theorem kept_issue_iff (hs : h.Sound) (hkept : h.Kept) :
    (h.issue k).Kept ↔ h.held = none := by
  constructor
  · intro hissue
    cases hheld : h.held with
    | none => rfl
    | some s =>
      exfalso
      have hlt := hs.held_lt ⟨s.kind, hheld⟩
      have hopen : (h.issue k).outcomesOf s.promise = [] := hs.held_open s hheld
      have hlen : s.promise < (h.issue k).issued.length := by
        show s.promise < (h.issued ++ [k]).length
        rw [List.length_append]
        omega
      rcases hissue s.promise hlen with ⟨hone, -⟩ | ⟨-, hholds⟩
      · rw [hopen] at hone
        cases hone
      · have := holds_issue.mp hholds
        omega
  · intro hfree p hp
    have hp : p < (h.issued ++ [k]).length := hp
    rw [List.length_append] at hp
    by_cases hnew : p = h.issued.length
    · exact Or.inr ⟨hs.outcomesOf_of_ge (Nat.le_of_eq hnew.symm), holds_issue.mpr hnew⟩
    · have hlt : p < h.issued.length := by
        have : [k].length = 1 := rfl
        omega
      rcases hkept p hlt with ⟨hone, -⟩ | ⟨-, hholds⟩
      · exact Or.inl ⟨hone, fun hholds => hnew (holds_issue.mp hholds)⟩
      · obtain ⟨k', hk'⟩ := hholds
        rw [hfree] at hk'
        cases hk'

/-- Settling loses no promise. -/
theorem Kept.settleIf (hs : h.Sound) (hkept : h.Kept) (want : κ → Bool) (o : ρ) :
    (h.settleIf want o).Kept := by
  rcases settleIf_cases h want o with ⟨heq, -⟩ | ⟨s, hheld, -, heq⟩
  · rw [heq]
    exact hkept
  · rw [heq]
    intro p hp
    have hempty : ¬(Deferred.mk h.issued (h.outcomes ++ [(s.promise, o)]) none).Holds p := by
      intro hholds
      obtain ⟨k', hk'⟩ := hholds
      cases hk'
    refine Or.inl ⟨?_, hempty⟩
    by_cases hself : p = s.promise
    · subst hself
      rw [outcomesOf_append_self, hs.held_open s hheld]
      rfl
    · rw [outcomesOf_append_of_ne _ _ hself]
      rcases hkept p hp with ⟨hone, -⟩ | ⟨-, hholds⟩
      · exact hone
      · obtain ⟨k', hk'⟩ := hholds
        rw [hheld] at hk'
        exact absurd (congrArg Held.promise (Option.some.inj hk')).symm hself

end Deferred

end Trana.Lib
