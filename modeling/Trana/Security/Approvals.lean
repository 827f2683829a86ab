import Trana.Sdk.Client
import Trana.Sdk.Session

/-!
# Are approvals lost, or given to the wrong flow?

All flows share `pendingRef`. Issuing a promise overwrites it, and settling asks
for the kind of promise only, not whose it is; a ceremony's late result goes to
whichever approval is pending then.

* `approvals_kept_and_own` — every promise stays settled or pending, and every
  result goes to the intent it was signed for, exactly in the runs that are
  orderly: no trigger while a promise is pending, no ceremony coming back to
  another intent's approval. In these a flow goes on with a signature for its
  own intent. It is enough to ask for one approval at a time, and for none while
  a ceremony runs.
* `approvals_lost_or_swapped` — two flows at once lose a promise, and a ceremony
  that outlives its cancelled approval approves the next one.

The runs are those of `Sdk.Session`: any number of flows, each event of the page
a step, in any order. `Orderly` looks at an event and at the state before it, so
the condition can be checked while a session runs; it says nothing of what the
step then does. `Calm` is the condition a caller can keep without looking into
the provider.

A promise counts as kept when it is settled exactly once or is the one in
`pendingRef`: JavaScript drops a second settlement silently, and one that nobody
can settle any more blocks its flow without an error.
-/

namespace Trana.Security

open Trana.Lib Trana.Guard Trana.Sdk Trana.Sdk.Session

/-- Each promise handed out so far is settled exactly once, or is unsettled and
the one in `pendingRef`. -/
def PromisesKept (s : Session) : Prop := s.promises.Kept

/-- The ceremony at this place was started for this intent. -/
def StartedFor (s : Session) (ceremony : Nat) (intent : Request) : Prop :=
  ∃ mounted, s.running[ceremony]? = some ⟨.approval intent, mounted⟩

/-- A result delivered by the event comes from a ceremony started for the
intent of the flow whose promise it settles. -/
def DeliversOwn (t : Turn) : Prop :=
  ∀ promise result, t.after.promises.outcomes =
      t.before.promises.outcomes ++ [(promise, .approved result)] →
    ∃ ceremony intent, t.label = .approvalDone ceremony result ∧
      StartedFor t.before ceremony intent ∧
      t.before.promises.issued[promise]? = some (.approval intent)

/-- Triggers find the slot free, and a ceremony that comes back to a pending
approval was started for it. -/
structure Orderly (t : Turn) : Prop where
  free : t.before.Triggers t.label → t.before.promises.held = none
  own : ∀ ceremony result intent promise own, t.label = .approvalDone ceremony result →
    StartedFor t.before ceremony intent →
    t.before.promises.held = some ⟨promise, .approval own⟩ → own = intent

variable {trace : List Turn} {s : Session} {t : Turn}

/-- A step keeps the promises exactly when it finds the slot free to trigger. -/
theorem kept_iff (hsound : t.before.Sound) (hkept : PromisesKept t.before)
    (h : t.before.Step t.label t.after) :
    PromisesKept t.after ↔ (t.before.Triggers t.label → t.before.promises.held = none) := by
  unfold PromisesKept at hkept ⊢
  -- whatever the step, a promise is issued, or one is settled, or neither
  cases promiseEffect_of_step h with
  | quiet still same =>
    rw [same]
    exact iff_of_true hkept fun htrigger => absurd htrigger still.1
  | issue purpose trigger other issued =>
    rw [issued, Deferred.kept_issue_iff hsound hkept]
    exact ⟨fun hfree _ => hfree, fun hfree => hfree trigger⟩
  | settle want outcome still plain settled =>
    rw [settled]
    exact iff_of_true (hkept.settleIf hsound want outcome) fun htrigger => absurd htrigger still.1
  | deliver ceremony result intent mounted event started settled =>
    rw [settled, event]
    exact iff_of_true (hkept.settleIf hsound _ _) fun htrigger => absurd htrigger id

theorem outcomes_ne_append {d : Deferred Purpose Outcome} {e : Nat × Outcome} :
    d.outcomes ≠ d.outcomes ++ [e] := by
  intro h
  have hlen := congrArg List.length h
  rw [List.length_append, List.length_singleton] at hlen
  omega

/-- Two ceremonies in one place are the same. -/
theorem StartedFor.unique {ceremony : Nat} {intent intent' : Request}
    (h : StartedFor s ceremony intent) (h' : StartedFor s ceremony intent') : intent = intent' := by
  obtain ⟨mounted, hrunning⟩ := h
  obtain ⟨mounted', hrunning'⟩ := h'
  rw [hrunning] at hrunning'
  cases hrunning'
  rfl

/-- A step delivers to the intent's own flow exactly when the ceremony comes
back to an approval it was started for. -/
theorem deliversOwn_iff (hsound : t.before.Sound) (h : t.before.Step t.label t.after) :
    DeliversOwn t ↔ ∀ ceremony result intent promise own, t.label = .approvalDone ceremony result →
      StartedFor t.before ceremony intent →
      t.before.promises.held = some ⟨promise, .approval own⟩ → own = intent := by
  constructor
  · intro hdelivers ceremony result intent promise own hlabel hstarted hheld
    have houtcomes : t.after.promises.outcomes =
        t.before.promises.outcomes ++ [(promise, .approved result)] := by
      cases promiseEffect_of_step h with
      | quiet still same => exact absurd hlabel (still.2 ceremony result)
      | issue purpose trigger other issued => exact absurd hlabel (other ceremony result)
      -- only a ceremony that comes back can deliver a result
      | settle want outcome still plain settled => exact absurd hlabel (still.2 ceremony result)
      | deliver ceremony' result' intent' mounted event started settled =>
        rw [hlabel] at event
        cases event
        rcases Deferred.settleIf_cases t.before.promises Purpose.isApproval
          (.approved result) with ⟨-, hno⟩ | ⟨s, hs, -, heq⟩
        · cases hno _ hheld
        · rw [hheld] at hs
          obtain rfl := Option.some.inj hs
          rw [settled, heq]
    obtain ⟨ceremony', intent', hlabel', hstarted', hissued⟩ := hdelivers promise result houtcomes
    rw [hlabel] at hlabel'
    cases hlabel'
    rw [hsound.held_issued _ hheld] at hissued
    cases hissued
    exact hstarted'.unique hstarted
  · intro hown promise result houtcomes
    cases promiseEffect_of_step h with
    | quiet still same =>
      rw [same] at houtcomes
      exact absurd houtcomes outcomes_ne_append
    | issue purpose trigger other issued =>
      rw [issued] at houtcomes
      exact absurd houtcomes outcomes_ne_append
    | settle want outcome still plain settled =>
      rw [settled] at houtcomes
      rcases Deferred.settleIf_cases t.before.promises want outcome with
        ⟨heq, -⟩ | ⟨s, -, -, heq⟩
      · rw [heq] at houtcomes
        exact absurd houtcomes outcomes_ne_append
      · rw [heq] at houtcomes
        have hlast := List.append_cancel_left houtcomes
        exact absurd (Prod.mk.inj (List.cons.inj hlast).1).2 (plain result)
    | deliver ceremony result' intent mounted event started settled =>
      rw [settled] at houtcomes
      rcases Deferred.settleIf_cases t.before.promises Purpose.isApproval
        (.approved result') with ⟨heq, -⟩ | ⟨⟨promise', kind⟩, hheld, hkind, heq⟩
      · rw [heq] at houtcomes
        exact absurd houtcomes outcomes_ne_append
      · rw [heq] at houtcomes
        have hlast := List.append_cancel_left houtcomes
        obtain ⟨hpromise, hresult⟩ := Prod.mk.inj (List.cons.inj hlast).1
        obtain rfl : promise' = promise := hpromise
        obtain rfl : result' = result := Outcome.approved.inj hresult
        have hissued := hsound.held_issued _ hheld
        cases kind with
        | registration flow => cases hkind
        | confirmation own => cases hkind
        | approval own =>
          have hsame := hown ceremony result' intent promise' own event ⟨mounted, started⟩ hheld
          exact ⟨ceremony, intent, event, ⟨mounted, started⟩, hsame ▸ hissued⟩

/-! ## Runs -/

/-- A run that keeps all promises and delivers to their own flows is orderly. -/
theorem orderly_of_kept (h : Run Step initial trace s) (hkept : ∀ t ∈ trace, PromisesKept t.after)
    (hown : ∀ t ∈ trace, DeliversOwn t) : ∀ t ∈ trace, Orderly t := by
  intro t ht
  obtain ⟨pre, post, rfl⟩ := List.append_of_mem ht
  obtain ⟨hpre, hstep, -⟩ := h.split
  have hsound := sound_of_run hpre
  have hstays : ∀ u ∈ pre, PromisesKept u.before → PromisesKept u.after := fun u hu _ =>
    hkept u (List.mem_append_left _ hu)
  have hbefore : PromisesKept t.before := hpre.stays Deferred.kept_empty hstays
  exact ⟨(kept_iff hsound hbefore hstep).mp (hkept t ht),
    (deliversOwn_iff hsound hstep).mp (hown t ht)⟩

theorem sound_before (h : Run Step initial trace s) : ∀ t ∈ trace, t.before.Sound := by
  intro t ht
  obtain ⟨pre, post, rfl⟩ := List.append_of_mem ht
  exact sound_of_run h.split.1

theorem kept_of_orderly (h : Run Step initial trace s) (horderly : ∀ t ∈ trace, Orderly t) :
    ∀ t ∈ trace, PromisesKept t.after := by
  have hkeep : ∀ t ∈ trace, PromisesKept t.before → PromisesKept t.after := fun t ht hbefore =>
    (kept_iff (sound_before h t ht) hbefore (h.step t ht)).mpr (horderly t ht).free
  intro t ht
  exact (h.stays_at Deferred.kept_empty hkeep t ht).2

theorem own_of_orderly (h : Run Step initial trace s) (horderly : ∀ t ∈ trace, Orderly t) :
    ∀ t ∈ trace, DeliversOwn t := by
  intro t ht
  exact (deliversOwn_iff (sound_before h t ht) (h.step t ht)).mpr (horderly t ht).own

/-- Settlements come one at a time. -/
theorem outcomes_step {e : Event} {s' : Session} (h : s.Step e s') {o : Nat × Outcome}
    (ho : o ∈ s'.promises.outcomes) :
    o ∈ s.promises.outcomes ∨ s'.promises.outcomes = s.promises.outcomes ++ [o] := by
  cases promiseEffect_of_step h with
  | quiet still same =>
    rw [same] at ho
    exact Or.inl ho
  | issue purpose trigger other issued =>
    rw [issued] at ho
    exact Or.inl ho
  | settle want outcome still plain settled =>
    rw [settled] at ho ⊢
    exact Deferred.mem_outcomes_settleIf ho
  | deliver ceremony result intent mounted event started settled =>
    rw [settled] at ho ⊢
    exact Deferred.mem_outcomes_settleIf ho

/-- A delivered result was brought by a ceremony of the run, started for the
intent the settled promise is about. -/
def FromCeremonies (trace : List Turn) (s : Session) : Prop :=
  ∀ promise result, (promise, .approved result) ∈ s.promises.outcomes →
    ∃ t ∈ trace, ∃ ceremony intent, t.label = .approvalDone ceremony result ∧
      StartedFor t.before ceremony intent ∧ s.promises.issued[promise]? = some (.approval intent)

theorem fromCeremonies_of_run (h : Run Step initial trace s)
    (hown : ∀ t ∈ trace, DeliversOwn t) : FromCeremonies trace s := by
  refine h.stays (fun promise result hmem => absurd hmem List.not_mem_nil) fun t ht hbefore => ?_
  have hstep := h.step t ht
  have hgrows := promises_grow hstep
  intro promise result hmem
  rcases outcomes_step hstep hmem with hold | hnew
  · obtain ⟨u, hu, ceremony, intent, hlabel, hstarted, hissued⟩ := hbefore promise result hold
    exact ⟨u, hu, ceremony, intent, hlabel, hstarted, hgrows.issued _ _ hissued⟩
  · obtain ⟨ceremony, intent, hlabel, hstarted, hissued⟩ := hown t ht promise result hnew
    exact ⟨t, ht, ceremony, intent, hlabel, hstarted, hgrows.issued _ _ hissued⟩

/-- Every flow that has gone on with a signature has one that a ceremony of the
run brought for that flow's own intent. -/
def ApprovedOwn (trace : List Turn) (s : Session) : Prop :=
  ∀ (flow : Nat) (intent : TranaIntent) (result : ApprovalResult),
    s.flows[flow]? = some (.approved intent result) →
      ∃ t ∈ trace, ∃ ceremony, t.label = .approvalDone ceremony result ∧
        StartedFor t.before ceremony ⟨flow, intent⟩

/-- An orderly run delivers to its flows what they asked for: the flow's own
promise was settled with the result, and the ceremony that brought the result
was started for the intent of that promise. -/
theorem approvedOwn_of_orderly (h : Run Step initial trace s) (horderly : ∀ t ∈ trace, Orderly t) :
    ApprovedOwn trace s := by
  intro flow intent result hflow
  have hown := own_of_orderly h horderly
  obtain ⟨promise, hissued, hmem⟩ := flowsOwn_of_run h flow _ hflow
  obtain ⟨t, ht, ceremony, intent', hlabel, hstarted, hissued'⟩ :=
    fromCeremonies_of_run h hown promise result hmem
  rw [hissued] at hissued'
  cases hissued'
  exact ⟨t, ht, ceremony, hlabel, hstarted⟩

/-! ## Calm runs -/

/-- Nothing is triggered while a promise is pending or an approval's ceremony
runs, and an approval is clicked on an up-to-date modal. -/
structure Calm (t : Turn) : Prop where
  free : t.before.Triggers t.label → t.before.promises.held = none
  alone : t.before.Triggers t.label → ∀ c ∈ t.before.running, c.prompt = .registration
  current : ∀ hasRegistry expired, t.label = .approve hasRegistry expired →
    t.before.modal.rendered = t.before.provider.state

/-- Every approval's ceremony is for the approval that is pending, if one is. -/
def MatchesPending (s : Session) : Prop :=
  ∀ c ∈ s.running, ∀ intent, c.prompt = .approval intent → ∀ promise own,
    s.promises.held = some ⟨promise, .approval own⟩ → own = intent

/-- Fewer ceremonies, and nothing newly pending. -/
theorem matchesPending_mono {s' : Session} (hs : MatchesPending s)
    (hrunning : s'.running ⊆ s.running)
    (hheld : ∀ x, s'.promises.held = some x → s.promises.held = some x) : MatchesPending s' :=
  fun c hc intent hprompt promise own hown =>
    hs c (hrunning hc) intent hprompt promise own (hheld _ hown)

/-- No approval's ceremony, no mismatch. -/
theorem matchesPending_of_alone {s' : Session} (hrunning : s'.running = s.running)
    (halone : ∀ c ∈ s.running, c.prompt = .registration) : MatchesPending s' := by
  intro c hc intent hprompt
  rw [hrunning] at hc
  rw [halone c hc] at hprompt
  cases hprompt

/-- The approval a current modal shows is the pending one. -/
theorem pending_of_shown (hstep : s.InStep) {intent : Request}
    (hshown : approvalIntent s.provider.state = some intent) :
    ∃ promise, s.promises.held = some ⟨promise, .approval intent⟩ := by
  unfold InStep at hstep
  cases hstate : s.provider.state with
  | needsApproval own =>
    rw [hstate] at hstep hshown
    obtain rfl : own = intent := Option.some.inj hshown
    exact hstep.approval
  | approving own =>
    rw [hstate] at hstep
    exact absurd hstep id
  | _ =>
    rw [hstate] at hshown
    cases hshown

theorem matchesPending_step (hs : MatchesPending t.before) (hinStep : t.before.InStep)
    (hcalm : Calm t) (h : t.before.Step t.label t.after) : MatchesPending t.after := by
  obtain ⟨s, e, s'⟩ := t
  have hs : MatchesPending s := hs
  have hsame : s'.provider = s.provider → ∀ x, s'.promises.held = some x →
      s.promises.held = some x := by
    intro hprovider x hx
    rw [promises_eq hprovider] at hx
    exact hx
  have hresolve : ∀ (kind : Purpose → Bool) (outcome : Outcome),
      s'.provider = s.provider.resolveKind kind outcome → ∀ x, s'.promises.held = some x →
        s.promises.held = some x := by
    intro kind outcome hprovider x hx
    rw [promises_eq hprovider, Provider.resolveKind_pendingRef] at hx
    exact Deferred.held_of_settleIf hx
  cases effect_of_step h with
  | quiet still provider running flows => exact matchesPending_mono hs running (hsame provider)
  | authorizeAndSend provider running flows =>
    exact matchesPending_mono hs (fun _ hc => running ▸ hc) (hsame provider)
  | stage flow stage plain still provider running flows =>
    exact matchesPending_mono hs (fun _ hc => running ▸ hc) (hsame provider)
  | register flow intentPreview stage plain provider running flows =>
    exact matchesPending_of_alone running (hcalm.alone trivial)
  | confirm flow intent label stage plain provider running flows =>
    exact matchesPending_of_alone running (hcalm.alone trivial)
  | goOn flow intent confirmed provider running flows =>
    exact matchesPending_of_alone running (hcalm.alone confirmed)
  | finish flow promise intent result still awaiting settled provider running flows =>
    exact matchesPending_mono hs (fun _ hc => running ▸ hc) (hsame provider)
  | setUp walletReady provider running flows =>
    intro c hc intent hprompt promise own hown
    rw [running] at hc
    rcases List.mem_append.mp hc with hc | hc
    · exact hs c hc intent hprompt promise own (hsame provider _ hown)
    · obtain rfl := List.mem_singleton.mp hc
      cases hprompt
  | setUpDone ceremony provider running flows =>
    exact matchesPending_mono hs running (hresolve _ _ provider)
  | proceed provider running flows =>
    exact matchesPending_mono hs (fun _ hc => running ▸ hc) (hresolve _ _ provider)
  | approve hasRegistry expired shownIntent shown provider running flows =>
    intro c hc intent hprompt promise own hown
    rw [running] at hc
    rcases List.mem_append.mp hc with hc | hc
    · exact hs c hc intent hprompt promise own (hsame provider _ hown)
    -- the ceremony just started is for the intent on the screen, which is pending
    · obtain rfl := List.mem_singleton.mp hc
      obtain rfl : shownIntent = intent := Prompt.approval.inj hprompt
      have hcurrent : s.modal.rendered = s.provider.state := hcalm.current hasRegistry expired rfl
      rw [hcurrent] at shown
      obtain ⟨pending, hpending⟩ := pending_of_shown hinStep shown
      rw [hsame provider _ hown] at hpending
      cases hpending
      rfl
  | approvalDone ceremony result intent mounted started provider running flows =>
    exact matchesPending_mono hs running (hresolve _ _ provider)
  | cancel provider running flows =>
    refine matchesPending_mono hs (fun _ hc => running ▸ hc) fun x hx => ?_
    rw [promises_eq provider] at hx
    exact Deferred.held_of_settleIf hx

/-- Calm runs are orderly: it takes two flows at once, or a trigger while a
ceremony runs, to go wrong. -/
theorem orderly_of_calm (h : Run Step initial trace s) (hcalm : ∀ t ∈ trace, Calm t) :
    ∀ t ∈ trace, Orderly t := by
  have hkeep : ∀ t ∈ trace, MatchesPending t.before → MatchesPending t.after := by
    intro t ht hbefore
    obtain ⟨pre, post, rfl⟩ := List.append_of_mem ht
    exact matchesPending_step hbefore (inStep_of_run h.split.1) (hcalm t ht) (h.step t ht)
  have hinitial : MatchesPending initial := fun c hc => absurd hc List.not_mem_nil
  intro t ht
  refine ⟨(hcalm t ht).free, fun ceremony result intent promise own _ hstarted hheld => ?_⟩
  obtain ⟨mounted, hrunning⟩ := hstarted
  exact (h.stays_at hinitial hkeep t ht).1 _ (List.mem_of_getElem? hrunning) intent rfl promise own
    hheld

/-- Every promise handed out stays settled exactly once or pending, and every
delivered result goes to the intent it was signed for, exactly in the orderly
runs. In these every flow goes on with a signature for its own intent; and a
run is orderly when it is calm. -/
theorem approvals_kept_and_own (h : Run Step initial trace s) :
    (((∀ t ∈ trace, PromisesKept t.after) ∧ ∀ t ∈ trace, DeliversOwn t) ↔
      ∀ t ∈ trace, Orderly t) ∧
    ((∀ t ∈ trace, Orderly t) → ApprovedOwn trace s) ∧
    ((∀ t ∈ trace, Calm t) → ∀ t ∈ trace, Orderly t) := by
  refine ⟨⟨?_, ?_⟩, approvedOwn_of_orderly h, orderly_of_calm h⟩
  · intro hall
    exact orderly_of_kept h hall.1 hall.2
  · intro horderly
    exact ⟨kept_of_orderly h horderly, own_of_orderly h horderly⟩

/-! ## Runs that go wrong -/

section Wrong

variable (first second : TranaIntent) (result : ApprovalResult)

/-- Two flows ask for a confirmation, one behind the other. -/
def concurrent : List Event :=
  [.authorizeAndSend, .authorizeAndSend, .confirm 0 first none, .confirm 1 second none]

/-- The first flow's promise is neither settled nor pending any more. -/
theorem concurrent_loses : ∃ trace s, Run Step initial trace s ∧
    trace.map Transition.label = concurrent first second ∧ ¬PromisesKept s := by
  have hreplay : replay next? initial (concurrent first second) = some _ := rfl
  obtain ⟨trace, hrun, hlabels⟩ := run_of_events hreplay
  refine ⟨trace, _, hrun, hlabels, fun hkept => ?_⟩
  rcases hkept 0 (Nat.zero_lt_succ 1) with ⟨hone, -⟩ | ⟨-, kind, hheld⟩
  · cases hone
  · cases hheld

/-- One flow up to the ceremony of its approval. -/
def upToCeremony : List Event :=
  [.authorizeAndSend, .confirm 0 first none, .render, .proceed, .resume 0, .render,
    .approve true false]

def atCeremony : Session where
  provider := ⟨.needsApproval ⟨0, first⟩, [.confirmation ⟨0, first⟩, .approval ⟨0, first⟩],
    [(0, .resolved)], some ⟨1, .approval ⟨0, first⟩⟩⟩
  modal := ⟨.needsApproval ⟨0, first⟩, 2, true⟩
  running := [⟨.approval ⟨0, first⟩, 2⟩]
  flows := [.awaitingApproval 1 first]

/-- The approval is cancelled; another flow comes to its own. -/
def cancelAndNext : List Event :=
  [.cancel, .resume 0, .render, .authorizeAndSend, .confirm 1 second none, .render, .proceed,
    .resume 1]

/-- The first flow has failed, its ceremony still runs, and the second flow's
approval is pending. -/
def atNext : Session where
  provider := ⟨.needsApproval ⟨1, second⟩,
    [.confirmation ⟨0, first⟩, .approval ⟨0, first⟩, .confirmation ⟨1, second⟩,
      .approval ⟨1, second⟩],
    [(0, .resolved), (1, .rejected "Cancelled"), (2, .resolved)],
    some ⟨3, .approval ⟨1, second⟩⟩⟩
  modal := ⟨.needsConfirmation ⟨1, second⟩ none, 4, false⟩
  running := [⟨.approval ⟨0, first⟩, 2⟩]
  flows := [.failed, .awaitingApproval 3 second]

theorem replay_upToCeremony :
    replay next? initial (upToCeremony first) = some (atCeremony first) := rfl

theorem replay_cancelAndNext :
    replay next? (atCeremony first) (cancelAndNext second) = some (atNext first second) := rfl

/-- The first flow's ceremony comes back and approves the second flow's intent. -/
theorem cancelled_swaps : ∃ trace t, Run Step initial (trace ++ [t]) t.after ∧
    (trace ++ [t]).map Transition.label =
      upToCeremony first ++ cancelAndNext second ++ [.approvalDone 0 result] ∧
    ¬DeliversOwn t := by
  have hreplay := replay_append (replay_upToCeremony first) (replay_cancelAndNext first second)
  obtain ⟨trace, hrun, hlabels⟩ := run_of_events hreplay
  refine ⟨trace, ⟨atNext first second, .approvalDone 0 result, _⟩,
    hrun.append (.cons rfl (.nil _)), ?_, fun hdelivers => ?_⟩
  · rw [List.map_append, hlabels]
    rfl
  · obtain ⟨ceremony, intent, hlabel, hstarted, hissued⟩ := hdelivers 3 result rfl
    obtain ⟨rfl, -⟩ := Event.approvalDone.inj hlabel
    obtain rfl := hstarted.unique ⟨2, rfl⟩
    cases hissued

end Wrong

/-! ## A run that goes right -/

section Right

/-- What calls no helper is calm, when it is no approval clicked on a modal of an
earlier phase. -/
theorem calm_of_still (h : ¬t.before.Triggers t.label)
    (hcurrent : ∀ hasRegistry expired, t.label = .approve hasRegistry expired →
      t.before.modal.rendered = t.before.provider.state) : Calm t where
  free htrigger := absurd htrigger h
  alone htrigger := absurd htrigger h
  current := hcurrent

/-- A trigger is calm when nothing is pending and no ceremony runs. -/
theorem calm_of_free (hfree : t.before.promises.held = none) (halone : t.before.running = [])
    (hother : ∀ hasRegistry expired, t.label ≠ .approve hasRegistry expired) : Calm t where
  free _ := hfree
  alone _ _ hc := absurd (halone ▸ hc) List.not_mem_nil
  current hasRegistry expired hlabel := absurd hlabel (hother hasRegistry expired)

variable (intent : TranaIntent) (result : ApprovalResult)

def asked : Provider := Provider.initial.triggerConfirmation ⟨0, intent⟩ none

def preview : Modal := ⟨.needsConfirmation ⟨0, intent⟩ none, 1, false⟩

def prompted : Provider := (asked intent).resolveConfirmation.triggerApproval ⟨0, intent⟩

/-- One flow alone, from its first call to its approval. -/
def approvedAlone : List Turn :=
  let started : Session := { initial with flows := [.started] }
  let asking : Session := ⟨asked intent, initial.modal, [], [.awaitingConfirmation 0 intent]⟩
  let shown : Session := { asking with modal := preview intent }
  let proceeded : Session := { shown with provider := (asked intent).resolveConfirmation }
  let prompting : Session :=
    ⟨prompted intent, preview intent, [], [.awaitingApproval 1 intent]⟩
  let waiting : Session := { prompting with modal := ⟨.needsApproval ⟨0, intent⟩, 2, false⟩ }
  let approved : Session :=
    { waiting with
      provider := (prompted intent).resolveApproval result
      modal := ⟨.needsApproval ⟨0, intent⟩, 2, true⟩ }
  [⟨initial, .authorizeAndSend, started⟩, ⟨started, .confirm 0 intent none, asking⟩,
    ⟨asking, .render, shown⟩, ⟨shown, .proceed, proceeded⟩, ⟨proceeded, .resume 0, prompting⟩,
    ⟨prompting, .render, waiting⟩, ⟨waiting, .approve true false, atCeremony intent⟩,
    ⟨atCeremony intent, .approvalDone 0 result, approved⟩,
    ⟨approved, .resume 0, approved.setStage 0 (.approved intent result)⟩]

/-- The flow waits with its result when the run is over. -/
theorem run_approvedAlone : ∃ s, Run Step initial (approvedAlone intent result) s ∧
    s.flows = [.approved intent result] :=
  ⟨_, .cons rfl (.cons rfl (.cons rfl (.cons rfl (.cons rfl (.cons rfl (.cons rfl (.cons rfl
    (.cons rfl (.nil _))))))))), rfl⟩

theorem calm_approvedAlone : ∀ t ∈ approvedAlone intent result, Calm t := by
  unfold approvedAlone
  simp only [List.forall_mem_cons]
  refine ⟨calm_of_still id ?_, calm_of_free rfl rfl ?_, calm_of_still id ?_, calm_of_still id ?_,
    calm_of_free rfl rfl ?_, calm_of_still id ?_, calm_of_still id ?_, calm_of_still id ?_,
    calm_of_still (still_resume rfl fun _ _ he => ?_).1 ?_, fun t ht => absurd ht List.not_mem_nil⟩
  -- the approval is clicked on the modal that shows it
  case refine_7 => exact fun _ _ _ => rfl
  case refine_9 => cases he
  all_goals
    intro hasRegistry expired hlabel
    cases hlabel

end Right

namespace Localnet

open Sdk.Localnet

/-- The intents of two calls, which differ in the time they are built at. -/
def intentAt (dateNow : Nat) : TranaIntent :=
  instructionIntent wallet localnetId protectedIx 0 ⟨policyId .require, none⟩ dateNow

/-- What the authenticator returns for the first. -/
def approvalResult : ApprovalResult :=
  ⟨approval.signature, approval.authenticatorData,
    approval.clientDataJSON (challenge policyRequire protectedIx 0)⟩

/-- A flow alone is calm, so its promises are kept and its result is its own. -/
theorem approvals_kept_and_own_alone :
    ∃ s, Run Step initial (approvedAlone (intentAt 0) approvalResult) s ∧
      s.flows = [.approved (intentAt 0) approvalResult] ∧
      (∀ t ∈ approvedAlone (intentAt 0) approvalResult, PromisesKept t.after) ∧
      (∀ t ∈ approvedAlone (intentAt 0) approvalResult, DeliversOwn t) ∧
      ApprovedOwn (approvedAlone (intentAt 0) approvalResult) s := by
  obtain ⟨s, hrun, hflows⟩ := run_approvedAlone (intentAt 0) approvalResult
  obtain ⟨hiff, howned, hcalm⟩ := approvals_kept_and_own hrun
  have horderly := hcalm (calm_approvedAlone (intentAt 0) approvalResult)
  obtain ⟨hkept, hown⟩ := hiff.mpr horderly
  exact ⟨s, hrun, hflows, hkept, hown, howned horderly⟩

/-- A flow that asks for a confirmation while another waits for one has that
other wait for ever; a ceremony that outlives its cancelled approval approves
the next intent. -/
theorem approvals_lost_or_swapped :
    (∃ trace s, Run Step initial trace s ∧
      trace.map Transition.label = concurrent (intentAt 0) (intentAt 1000) ∧ ¬PromisesKept s) ∧
    ∃ trace t, Run Step initial (trace ++ [t]) t.after ∧
      (trace ++ [t]).map Transition.label =
        upToCeremony (intentAt 0) ++ cancelAndNext (intentAt 1000) ++
          [.approvalDone 0 approvalResult] ∧
      ¬DeliversOwn t :=
  ⟨concurrent_loses _ _, cancelled_swaps _ _ _⟩

end Localnet

end Trana.Security
