import Mathlib.Order.Nat
import Trana.Lib.Run

/-!
# A key ring with a use counter

The abstract component behind any "sign with one of your registered keys"
scheme: a bounded list of keys and a counter that every authorised operation
moves on. The first key is free; afterwards adding, removing and using a key
each need an authorisation, which names the counter's current value. Recovery
starts over without one.

Nothing is said about what an entry is or how an authorisation is checked. A
program refines the ring by a function from its states, and is left with saying
which of its instructions is which operation.

Removal is the operation that looks simple and is not: it drops every entry
that fits, so a ring with several entries under one name can lose all of them in
one step. `Spares` is the condition that it does not, on the ring before the
step; the size bounds are stated for runs that meet it, and `live_run_iff` says
that nothing less will do.

* `counter_lt` — between two recoveries no counter value authorises twice.
* `sized_run`, `register_once` — the size bounds, from the first key on, as
  long as no removal empties the ring.
* `live_run_iff` — the ring never runs empty exactly when removals spare a key.
* `avoids_run`, `avoids_run_iff`, `entered_since_recover` — a key that is gone
  stays gone until it is entered again.
* `unchanged_step` — without authorisation and recovery a live ring is fixed.
-/

namespace Trana.Lib.Keyring

/-- Counter and keys. -/
structure Ring (κ : Type) where
  counter : Nat
  keys : List κ

/-- What a step does to a ring. -/
inductive Op (κ : Type) where
  | register (e : κ)
  | recover (e : κ)
  | add (e : κ)
  | remove (keep : κ → Bool)
  | use
  | idle

namespace Op

variable {κ : Type}

/-- The operations that need an authorisation. -/
def Authorised : Op κ → Prop
  | .add _ | .remove _ | .use => True
  | _ => False

/-- The operation starts the ring over. -/
def IsRecover : Op κ → Prop
  | .recover _ => True
  | _ => False

/-- The operation enters the first key. -/
def IsRegister : Op κ → Prop
  | .register _ => True
  | _ => False

/-- The operation enters a key with property `p`. -/
def Enters (p : κ → Prop) : Op κ → Prop
  | .register e | .recover e | .add e => p e
  | _ => False

end Op

section Steps

variable {κ : Type} (bound : Nat)

/-- A ring that does not exist yet is `none`. -/
inductive Step : Option (Ring κ) → Op κ → Option (Ring κ) → Prop where
  | registerNew (e : κ) : Step none (.register e) (some ⟨0, [e]⟩)
  | registerEmpty (n : Nat) (e : κ) : Step (some ⟨n, []⟩) (.register e) (some ⟨n, [e]⟩)
  | recover (r : Ring κ) (e : κ) : Step (some r) (.recover e) (some ⟨0, [e]⟩)
  | add (r : Ring κ) (e : κ) (room : r.keys.length < bound) :
    Step (some r) (.add e) (some ⟨r.counter + 1, r.keys ++ [e]⟩)
  | remove (r : Ring κ) (keep : κ → Bool) (several : 1 < r.keys.length)
      (shorter : (r.keys.filter keep).length < r.keys.length) :
    Step (some r) (.remove keep) (some ⟨r.counter + 1, r.keys.filter keep⟩)
  | use (r : Ring κ) : Step (some r) .use (some ⟨r.counter + 1, r.keys⟩)
  | idle (o : Option (Ring κ)) : Step o .idle o

variable {bound} {o o' : Option (Ring κ)} {a : Op κ}

/-- The counter; that of an absent ring is zero. -/
def counter (o : Option (Ring κ)) : Nat := o.elim 0 Ring.counter

/-- The keys; an absent ring has none. -/
def keys (o : Option (Ring κ)) : List κ := o.elim [] Ring.keys

/-! ## The counter -/

/-- Every authorised operation moves the counter on by one. -/
theorem counter_authorised (h : Step bound o a o') (ha : a.Authorised) :
    counter o' = counter o + 1 := by
  cases h with
  | add r e room => rfl
  | remove r keep several shorter => rfl
  | use r => rfl
  | registerNew e => exact ha.elim
  | registerEmpty n e => exact ha.elim
  | recover r e => exact ha.elim
  | idle o => exact ha.elim

/-- No other operation but a recovery moves it back. -/
theorem counter_le (h : Step bound o a o') (ha : ¬a.IsRecover) : counter o ≤ counter o' := by
  cases h with
  | recover r e => exact absurd trivial ha
  | registerNew e => exact Nat.le_refl _
  | registerEmpty n e => exact Nat.le_refl _
  | add r e room => exact Nat.le_succ _
  | remove r keep several shorter => exact Nat.le_succ _
  | use r => exact Nat.le_succ _
  | idle o => exact Nat.le_refl _

/-- Other operations than authorised ones leave it, but for recovery. -/
theorem counter_kept (h : Step bound o a o') (hauth : ¬a.Authorised) (hrecover : ¬a.IsRecover) :
    counter o' = counter o := by
  cases h with
  | recover r e => exact absurd trivial hrecover
  | add r e room => exact absurd trivial hauth
  | remove r keep several shorter => exact absurd trivial hauth
  | use r => exact absurd trivial hauth
  | registerNew e => rfl
  | registerEmpty n e => rfl
  | idle o => rfl

/-- Of two authorised operations without a recovery in between, the later one
finds a larger counter. -/
theorem counter_lt {s s' : Option (Ring κ)}
    {pre mid post : List (Transition (Option (Ring κ)) (Op κ))}
    {t u : Transition (Option (Ring κ)) (Op κ)}
    (h : Run (Step bound) s (pre ++ t :: (mid ++ u :: post)) s')
    (ht : t.label.Authorised) (hmid : ∀ v ∈ mid, ¬v.label.IsRecover) :
    counter t.before < counter u.before := by
  have hstep : counter t.after = counter t.before + 1 := counter_authorised h.split.2.1 ht
  have hsteps : ∀ v ∈ mid, Step bound v.before v.label v.after := h.split.2.2.split.1.step
  have hle : counter t.after ≤ counter u.before :=
    h.mono_between (f := counter) fun v hv => counter_le (hsteps v hv) (hmid v hv)
  omega

/-- A ring never goes away. -/
theorem isSome_step (h : Step bound o a o') (ho : o.isSome = true) : o'.isSome = true := by
  cases h with
  | registerNew e => rfl
  | registerEmpty n e => rfl
  | recover r e => rfl
  | add r e room => rfl
  | remove r keep several shorter => rfl
  | use r => rfl
  | idle o => exact ho

/-- A ring that is there stays there. -/
theorem isSome_run {s s' : Option (Ring κ)} {trace : List (Transition (Option (Ring κ)) (Op κ))}
    (h : Run (Step bound) s trace s') (hs : s.isSome = true) : s'.isSome = true :=
  h.stays (P := fun o => o.isSome = true) hs fun t ht => isSome_step (h.step t ht)

/-! ## The size -/

/-- The ring exists, with at least one key and at most `bound`. -/
def Sized (bound : Nat) (o : Option (Ring κ)) : Prop :=
  ∃ r, o = some r ∧ 1 ≤ r.keys.length ∧ r.keys.length ≤ bound

/-- A removal that spares some key. -/
def Spares (o : Option (Ring κ)) (a : Op κ) : Prop :=
  match a with
  | .remove keep => ∃ k ∈ keys o, keep k = true
  | _ => True

/-- The size bounds are kept by a step that spares a key. -/
theorem sized_step (hbound : 1 ≤ bound) (h : Step bound o a o') (ho : Sized bound o)
    (hspares : Spares o a) : Sized bound o' := by
  obtain ⟨r, rfl, hpos, hle⟩ := ho
  cases h with
  | registerEmpty n e => exact ⟨_, rfl, Nat.le_refl 1, hbound⟩
  | recover r e => exact ⟨_, rfl, Nat.le_refl 1, hbound⟩
  | add r e room => exact ⟨_, rfl, by simp, by simpa using Nat.succ_le_of_lt room⟩
  | remove r keep several shorter =>
    obtain ⟨k, hk, hkeep⟩ := hspares
    have hmem : k ∈ r.keys.filter keep := List.mem_filter.mpr ⟨hk, hkeep⟩
    exact ⟨_, rfl, List.length_pos_of_mem hmem, Nat.le_trans (Nat.le_of_lt shorter) hle⟩
  | use r => exact ⟨_, rfl, hpos, hle⟩
  | idle o => exact ⟨_, rfl, hpos, hle⟩

/-- No ring without keys. -/
def Live (o : Option (Ring κ)) : Prop := ∀ r, o = some r → r.keys ≠ []

/-- Without a ring there is nothing to run empty. -/
theorem live_none : Live (none : Option (Ring κ)) := by
  intro r hr
  cases hr

/-- A sized ring has a key. -/
theorem Sized.live (h : Sized bound o) : Live o := by
  intro r hr hnil
  obtain ⟨r', hr', hpos, -⟩ := h
  obtain rfl := Option.some.inj (hr.symm.trans hr')
  rw [hnil] at hpos
  exact absurd hpos (by simp)

/-- A step that spares a key leaves one. -/
theorem live_step (h : Step bound o a o') (ho : Live o) (hspares : Spares o a) : Live o' := by
  intro r' hr'
  cases h with
  | registerNew e =>
    obtain rfl := Option.some.inj hr'
    exact List.cons_ne_nil _ _
  | registerEmpty n e =>
    obtain rfl := Option.some.inj hr'
    exact List.cons_ne_nil _ _
  | recover r e =>
    obtain rfl := Option.some.inj hr'
    exact List.cons_ne_nil _ _
  | add r e room =>
    obtain rfl := Option.some.inj hr'
    exact List.append_ne_nil_of_right_ne_nil _ (List.cons_ne_nil _ _)
  | remove r keep several shorter =>
    obtain rfl := Option.some.inj hr'
    obtain ⟨k, hk, hkeep⟩ := hspares
    exact List.ne_nil_of_mem (List.mem_filter.mpr ⟨hk, hkeep⟩)
  | use r =>
    obtain rfl := Option.some.inj hr'
    exact ho r rfl
  | idle o => exact ho r' hr'

/-- A step that did not empty the ring spared a key. -/
theorem spares_of_live (h : Step bound o a o') (ho' : Live o') : Spares o a := by
  cases h with
  | remove r keep several shorter =>
    obtain ⟨k, hk⟩ := List.exists_mem_of_ne_nil _ (ho' _ rfl)
    obtain ⟨hmem, hkeep⟩ := List.mem_filter.mp hk
    exact ⟨k, hmem, hkeep⟩
  | registerNew e => trivial
  | registerEmpty n e => trivial
  | recover r e => trivial
  | add r e room => trivial
  | use r => trivial
  | idle o => trivial

/-- Along a run from an absent ring no ring is ever without keys exactly when
every removal spares one. -/
theorem live_run_iff {s s' : Option (Ring κ)}
    {trace : List (Transition (Option (Ring κ)) (Op κ))} (h : Run (Step bound) s trace s')
    (hs : Live s) :
    (∀ t ∈ trace, Spares t.before t.label) ↔ ∀ t ∈ trace, Live t.after := by
  constructor
  · intro hspares t ht
    have hkeep : ∀ t ∈ trace, Live t.before → Live t.after := fun t ht hbefore =>
      live_step (h.step t ht) hbefore (hspares t ht)
    exact (h.stays_at hs hkeep t ht).2
  · exact fun hlive t ht => spares_of_live (h.step t ht) (hlive t ht)

/-- The first key makes the ring sized. -/
theorem sized_register (hbound : 1 ≤ bound) {e : κ} (h : Step bound o (.register e) o') :
    Sized bound o' := by
  cases h with
  | registerNew e => exact ⟨_, rfl, Nat.le_refl 1, hbound⟩
  | registerEmpty n e => exact ⟨_, rfl, Nat.le_refl 1, hbound⟩

/-- A sized ring takes no first key. -/
theorem not_register (ho : Sized bound o) : ¬∃ e o', Step bound o (.register e) o' := by
  intro hex
  obtain ⟨e, o', h⟩ := hex
  obtain ⟨r, rfl, hpos, -⟩ := ho
  cases h with
  | registerEmpty n e => exact absurd hpos (by simp)

/-- The bounds hold along every run whose removals spare a key. -/
theorem sized_run {s s' : Option (Ring κ)} {trace : List (Transition (Option (Ring κ)) (Op κ))}
    (hbound : 1 ≤ bound) (h : Run (Step bound) s trace s') (hs : Sized bound s)
    (hspares : ∀ t ∈ trace, Spares t.before t.label) :
    Sized bound s' ∧ ∀ t ∈ trace, Sized bound t.before ∧ Sized bound t.after := by
  have hkeep : ∀ t ∈ trace, Sized bound t.before → Sized bound t.after := fun t ht hbefore =>
    sized_step hbound (h.step t ht) hbefore (hspares t ht)
  exact ⟨h.stays hs hkeep, h.stays_at hs hkeep⟩

/-- Along such a run no further first key is taken. -/
theorem register_once {s s' : Option (Ring κ)}
    {trace : List (Transition (Option (Ring κ)) (Op κ))} (hbound : 1 ≤ bound)
    (h : Run (Step bound) s trace s') (hs : Sized bound s)
    (hspares : ∀ t ∈ trace, Spares t.before t.label) : ∀ t ∈ trace, ¬t.label.IsRegister := by
  intro t ht hreg
  have hbefore := ((sized_run hbound h hs hspares).2 t ht).1
  have hstep := h.step t ht
  cases hlabel : t.label with
  | register e =>
    rw [hlabel] at hstep
    exact not_register hbefore ⟨e, _, hstep⟩
  | recover e => rw [hlabel] at hreg; exact hreg
  | add e => rw [hlabel] at hreg; exact hreg
  | remove keep => rw [hlabel] at hreg; exact hreg
  | use => rw [hlabel] at hreg; exact hreg
  | idle => rw [hlabel] at hreg; exact hreg

/-! ## Which keys -/

/-- No key of the ring has property `p`. -/
def Avoids (p : κ → Prop) (o : Option (Ring κ)) : Prop := ∀ k ∈ keys o, ¬p k

/-- Without a ring there is no entry. -/
theorem avoids_none {p : κ → Prop} : Avoids p none := by
  intro k hk
  cases hk

/-- A ring of one entry avoids what that entry avoids. -/
theorem avoids_singleton {p : κ → Prop} {n : Nat} {e : κ} (he : ¬p e) :
    Avoids p (some ⟨n, [e]⟩) := by
  intro k hk
  rw [List.mem_singleton.mp hk]
  exact he

/-- A step that enters no such key brings none. -/
theorem avoids_step {p : κ → Prop} (h : Step bound o a o') (ho : Avoids p o)
    (ha : ¬a.Enters p) : Avoids p o' := by
  cases h with
  | registerNew e => exact avoids_singleton ha
  | registerEmpty n e => exact avoids_singleton ha
  | recover r e => exact avoids_singleton ha
  | add r e room =>
    intro k hk
    rcases List.mem_append.mp hk with hk | hk
    · exact ho k hk
    · rw [List.mem_singleton.mp hk]
      exact ha
  | remove r keep several shorter => exact fun k hk => ho k (List.mem_filter.mp hk).1
  | use r => exact ho
  | idle o => exact ho

/-- An entered key is there afterwards. -/
theorem not_avoids_of_enters {p : κ → Prop} (h : Step bound o a o') (ha : a.Enters p) :
    ¬Avoids p o' := by
  intro havoids
  cases h with
  | registerNew e => exact havoids e (List.mem_singleton_self e) ha
  | registerEmpty n e => exact havoids e (List.mem_singleton_self e) ha
  | recover r e => exact havoids e (List.mem_singleton_self e) ha
  | add r e room =>
    exact havoids e (List.mem_append_right _ (List.mem_singleton_self e)) ha
  | remove r keep several shorter => exact ha
  | use r => exact ha
  | idle o => exact ha

/-- A property no key has is not acquired unless such a key is entered. -/
theorem avoids_run {p : κ → Prop} {s s' : Option (Ring κ)}
    {trace : List (Transition (Option (Ring κ)) (Op κ))} (h : Run (Step bound) s trace s')
    (hs : Avoids p s) (hentered : ∀ t ∈ trace, ¬t.label.Enters p) :
    Avoids p s' ∧ ∀ t ∈ trace, Avoids p t.before ∧ Avoids p t.after := by
  have hkeep : ∀ t ∈ trace, Avoids p t.before → Avoids p t.after := fun t ht hbefore =>
    avoids_step (h.step t ht) hbefore (hentered t ht)
  exact ⟨h.stays hs hkeep, h.stays_at hs hkeep⟩

/-- No key of the ring ever has the property exactly when no such key is entered. -/
theorem avoids_run_iff {p : κ → Prop} {s s' : Option (Ring κ)}
    {trace : List (Transition (Option (Ring κ)) (Op κ))} (h : Run (Step bound) s trace s')
    (hs : Avoids p s) :
    (∀ t ∈ trace, ¬t.label.Enters p) ↔ ∀ t ∈ trace, Avoids p t.after := by
  constructor
  · exact fun hentered t ht => ((avoids_run h hs hentered).2 t ht).2
  · exact fun havoids t ht henters => not_avoids_of_enters (h.step t ht) henters (havoids t ht)

/-- A recovery forgets all entries but the one it enters. -/
theorem avoids_recover {p : κ → Prop} (h : Step bound o a o') (ha : a.IsRecover)
    (hp : ¬a.Enters p) : Avoids p o' := by
  cases h with
  | recover r e => exact avoids_singleton hp
  | registerNew e => exact ha.elim
  | registerEmpty n e => exact ha.elim
  | add r e room => exact ha.elim
  | remove r keep several shorter => exact ha.elim
  | use r => exact ha.elim
  | idle o => exact ha.elim

/-- What the ring holds some time after a recovery was entered by the recovery
or since. -/
theorem entered_since_recover {p : κ → Prop} {s s' : Option (Ring κ)}
    {t : Transition (Option (Ring κ)) (Op κ)}
    {trace : List (Transition (Option (Ring κ)) (Op κ))} (h : Run (Step bound) s (t :: trace) s')
    (ht : t.label.IsRecover) (hp : ¬Avoids p s') : ∃ v ∈ t :: trace, v.label.Enters p := by
  by_contra hnone
  have hnot : ∀ v ∈ t :: trace, ¬v.label.Enters p := fun v hv henters => hnone ⟨v, hv, henters⟩
  cases h with
  | cons step rest =>
    have hafter := avoids_recover step ht (hnot _ (List.mem_cons_self ..))
    exact hp (avoids_run rest hafter fun v hv => hnot v (List.mem_cons_of_mem _ hv)).1

/-- Nothing happens to a live ring without authorisation or recovery. -/
theorem unchanged_step (h : Step bound o a o') (hlive : keys o ≠ []) (hauth : ¬a.Authorised)
    (hrecover : ¬a.IsRecover) : o' = o := by
  cases h with
  | registerNew e => exact absurd rfl hlive
  | registerEmpty n e => exact absurd rfl hlive
  | recover r e => exact absurd trivial hrecover
  | add r e room => exact absurd trivial hauth
  | remove r keep several shorter => exact absurd trivial hauth
  | use r => exact absurd trivial hauth
  | idle o => rfl

end Steps

end Trana.Lib.Keyring
