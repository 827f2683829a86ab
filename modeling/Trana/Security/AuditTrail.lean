import Trana.Guard.Audit
import Trana.Security.Replay

/-!
# The audit trail has no gaps

Between two recoveries the events about a wallet, in the order in which they
were committed, carry consecutive nonces: one event for each proof the guard
consumed, none for anything else, and none missing.

* `acceptance_event` — an accepted proof leaves exactly its own event.
* `trail_step`, `trail_run` — the trail of a step and of a run.
* `audit_trail` — the trail from a reachable state on.

The events are those of committed calls: what a call that rolls back has logged
is not part of the trail, as an indexer drops failed transactions. The guard may
be called at the top level or by another program; both are steps of `Guard.Step`
and leave their event alike. A recovery sets the nonce back to zero, so across
one the numbers start again, and a trail has to be cut there.

The event carries the nonce the proof was made for, the one before the registry
moves on, which is why the trail starts at the present nonce and not one above.
-/

namespace Trana.Security

open Trana.Lib Trana.Lib.Exec Trana.Solana Trana.Guard

/-- The events a step commits. -/
def momentEvents (d : Guard.Deployment) (t : Guard.Moment) : List ProofVerified :=
  match t.label with
  | .executed c => eventsOf (process d c.env c.accounts c.data t.before).logs
  | .rolledBack _ => []
  | .other => []

/-- The committed events about a wallet. -/
def trail (d : Guard.Deployment) (w : Pubkey) (trace : List Guard.Moment) : List ProofVerified :=
  (trace.flatMap (momentEvents d)).filter fun e => e.owner = w

section Trail

variable {d : Guard.Deployment} {w : Pubkey} {t : Guard.Moment} {l l' : Ledger}

theorem trail_cons (t : Guard.Moment) (trace : List Guard.Moment) :
    trail d w (t :: trace) = trail d w [t] ++ trail d w trace := by
  rw [trail, List.flatMap_cons, List.filter_append, trail, List.flatMap_singleton, trail]

theorem trail_singleton (t : Guard.Moment) :
    trail d w [t] = (momentEvents d t).filter fun e => e.owner = w := by
  rw [trail, List.flatMap_singleton]

/-- Dispatching emits nothing. -/
theorem events_parse (data : Bytes) : eventsOf (Guard.parseInstruction data).logs = [] := by
  rw [eventsOf_eq_nil]
  intro event
  unfold Guard.parseInstruction
  dsimp only
  repeat' split
  all_goals simp [mem_logs_bind, Guard.readArgs]

theorem momentEvents_executed {c : Call} {ix : GuardInstruction} (hlabel : t.label = .executed c)
    (hix : c.Is ix) :
    momentEvents d t = eventsOf (execute d c.env c.accounts ix t.before).logs := by
  rw [momentEvents, hlabel]
  dsimp only
  rw [process, events_bind_silent hix (events_parse _)]

/-- The event of an accepted proof. -/
def acceptedEvent (a : Acceptance d w t) : ProofVerified :=
  verifiedEvent w a.policy a.protectedIx a.registry a.proof

/-- An accepted proof leaves its own event and no other. -/
theorem acceptance_event (hl : Layout d t.before) (h : Guard.Step d t.before t.label t.after)
    (a : Acceptance d w t) : trail d w [t] = [acceptedEvent a] := by
  have hrun : (execute d a.call.env a.call.accounts a.ix t.before).Returns t.after := by
    rw [a.label] at h
    cases h with
    | executed h =>
      obtain ⟨ix, hix, hrun⟩ := returns_bind.mp h
      obtain rfl := a.carries.unique hix
      exact hrun
  obtain ⟨w', key, r, proof, pix, secpIx, hnames, hfound, hkey, hv, hevents⟩ :=
    events_execute hrun a.requires
  obtain rfl := Option.some.inj (hnames.second.symm.trans a.owner)
  -- the registry, the proof and the protected instruction are the acceptance's
  have hpda : key = d.findRegistry w' := hkey.elim id fun howner => by
    rw [hl key r hfound, howner]
  subst hpda
  obtain rfl := Option.some.inj (hfound.symm.trans a.found)
  obtain rfl := hv.proofAt.unique a.verifies.proofAt
  obtain rfl := Option.some.inj (hv.protectedIx.symm.trans a.verifies.protectedIx)
  rw [trail_singleton, momentEvents_executed a.label a.carries, hevents]
  exact List.filter_cons_of_pos (decide_eq_true rfl)

/-- Other steps leave no event about the wallet. -/
theorem trail_unauthorised (h : Guard.Step d t.before t.label t.after)
    (hauth : ¬(opOf w t.label).Authorised) : trail d w [t] = [] := by
  rw [trail_singleton]
  obtain ⟨s, label, s'⟩ := t
  cases h with
  | rolledBack c => rfl
  | other h => rfl
  | @executed _ c h =>
    obtain ⟨ix, hix, hrun⟩ := returns_bind.mp h
    rw [momentEvents_executed rfl hix]
    cases hreq : ix.requires c.env with
    | none => rw [events_free hreq, List.filter_nil]
    | some policy =>
      obtain ⟨w', key, r, proof, pix, secpIx, hnames, -, -, -, hevents⟩ := events_execute hrun hreq
      -- a proof was used up, but of another wallet
      have hne : w' ≠ w := by
        intro heq
        subst heq
        refine hauth ?_
        have hop : opOf w' (Guard.Label.executed c) = ix.op c.env :=
          opOf_executed hix hnames.second
        rw [hop, requires_isSome_iff]
        exact ⟨policy, hreq⟩
      rw [hevents]
      exact List.filter_cons_of_neg (by simp [verifiedEvent, hne])

/-- One step counts up what it emits. -/
theorem trail_step (hl : Layout d t.before) (h : Guard.Step d t.before t.label t.after)
    (hrecover : ¬(opOf w t.label).IsRecover) :
    (trail d w [t]).map (·.nonce.toNat) =
        List.range' (Keyring.counter (ringOf d w t.before)) (trail d w [t]).length ∧
      Keyring.counter (ringOf d w t.after) =
        Keyring.counter (ringOf d w t.before) + (trail d w [t]).length := by
  have hring := step_refines hl h w
  by_cases hauth : (opOf w t.label).Authorised
  · obtain ⟨a⟩ := acceptance_of_authorised hl h hauth
    rw [acceptance_event hl h a, a.counter_eq]
    refine ⟨rfl, ?_⟩
    rw [Keyring.counter_authorised hring hauth, a.counter_eq]
    rfl
  · rw [trail_unauthorised h hauth]
    exact ⟨rfl, Keyring.counter_kept hring hauth hrecover⟩

theorem trail_run {trace : List Guard.Moment} (hl : Layout d l)
    (hrun : Run (Guard.Step d) l trace l')
    (hno : ∀ t ∈ trace, ¬(opOf w t.label).IsRecover) :
    (trail d w trace).map (·.nonce.toNat) =
        List.range' (Keyring.counter (ringOf d w l)) (trail d w trace).length ∧
      Keyring.counter (ringOf d w l') =
        Keyring.counter (ringOf d w l) + (trail d w trace).length := by
  induction hrun with
  | nil l => exact ⟨rfl, rfl⟩
  | @cons l l₁ l' a trace step rest ih =>
    obtain ⟨hone, hcount⟩ := trail_step (w := w) (t := ⟨l, a, l₁⟩) hl step
      (hno _ (List.mem_cons_self ..))
    obtain ⟨hrest, hcounts⟩ := ih (layout_step hl step) fun t ht =>
      hno t (List.mem_cons_of_mem _ ht)
    rw [trail_cons, List.map_append, hone, hrest, List.length_append, hcounts, hcount]
    refine ⟨?_, Nat.add_assoc ..⟩
    rw [List.range'_append_1]

end Trail

/-- From any reachable state on, as long as the wallet does not recover its
registry: the events about it carry the nonces from its present one on, one
after the other, as many as the nonce moves; each is the event of a proof the
guard accepted, and every proof it accepts is among them. -/
theorem audit_trail {d : Guard.Deployment} {w : Pubkey} {l l' : Ledger}
    {trace : List Guard.Moment} (hreach : Reachable d l) (hrun : Run (Guard.Step d) l trace l')
    (hno : ∀ t ∈ trace, ¬Recovers w t.label) :
    (trail d w trace).map (·.nonce.toNat) =
        List.range' (Keyring.counter (ringOf d w l)) (trail d w trace).length ∧
      Keyring.counter (ringOf d w l') =
        Keyring.counter (ringOf d w l) + (trail d w trace).length ∧
      ∀ e, e ∈ trail d w trace ↔ ∃ t ∈ trace, ∃ a : Acceptance d w t, e = acceptedEvent a := by
  obtain ⟨hnonces, hcounter⟩ := trail_run hreach.layout hrun fun t ht hrecover =>
    hno t ht (recovers_of_isRecover hrecover)
  refine ⟨hnonces, hcounter, fun e => ?_⟩
  have hlayout : ∀ t ∈ trace, Layout d t.before := fun t ht =>
    (hrun.stays_at hreach.layout (fun t ht hl => layout_step hl (hrun.step t ht)) t ht).1
  have hmem : e ∈ trail d w trace ↔ ∃ t ∈ trace, e ∈ trail d w [t] := by
    simp only [trail, List.mem_filter, List.mem_flatMap, List.mem_singleton, exists_eq_left,
      decide_eq_true_eq]
    constructor
    · intro h
      obtain ⟨⟨t, ht, he⟩, howner⟩ := h
      exact ⟨t, ht, he, howner⟩
    · intro h
      obtain ⟨t, ht, he, howner⟩ := h
      exact ⟨⟨t, ht, he⟩, howner⟩
  rw [hmem]
  refine exists_congr fun t => and_congr_right fun ht => ?_
  constructor
  · intro he
    -- an event of the wallet in one step means that the step was authorised
    have hauth : (opOf w t.label).Authorised := by
      by_contra hnot
      rw [trail_unauthorised (hrun.step t ht) hnot] at he
      cases he
    obtain ⟨a⟩ := acceptance_of_authorised (hlayout t ht) (hrun.step t ht) hauth
    rw [acceptance_event (hlayout t ht) (hrun.step t ht) a] at he
    exact ⟨a, List.mem_singleton.mp he⟩
  · intro hex
    obtain ⟨a, rfl⟩ := hex
    rw [acceptance_event (hlayout t ht) (hrun.step t ht) a]
    exact List.mem_singleton_self _

section Localnet

open Sdk.Localnet

/-- The approved call of a fresh registry leaves the one event with nonce zero. -/
theorem audit_trail_approved : ∃ (trace : List Guard.Moment) (l : Ledger),
    Run (Guard.Step deployment) registered trace l ∧
    (trail deployment wallet trace).map (·.nonce.toNat) = [0] := by
  obtain ⟨l, hstep, hh⟩ := approved_step holds_registered
  have hrun : Run (Guard.Step deployment) registered
      [⟨registered, .executed (enforceCall approvedIxs), l⟩] l := .cons hstep (.nil _)
  have hno : ¬Recovers wallet (.executed (enforceCall approvedIxs)) := by
    intro h
    obtain ⟨c, keyKind, pubkeyBytes, credentialId, hc, -, hix⟩ := h
    obtain rfl := Guard.Label.executed.inj hc
    cases (enforceCall_is approvedIxs).unique hix
  obtain ⟨hnonces, hcounter, -⟩ := audit_trail (w := wallet) reachable_registered hrun
    fun t ht => by rw [List.mem_singleton.mp ht]; exact hno
  refine ⟨_, l, hrun, ?_⟩
  rw [ringOf_of_found hh.found, ringOf_of_found holds_registered.found] at hcounter
  have hlength : (trail deployment wallet
      [⟨registered, .executed (enforceCall approvedIxs), l⟩]).length = 1 := by
    have hone : Keyring.counter (some (registry 0).consume.ring) = 1 := rfl
    have hzero : Keyring.counter (some (registry 0).ring) = 0 := rfl
    omega
  rw [hnonces, hlength, ringOf_of_found holds_registered.found]
  rfl

end Localnet

end Trana.Security
