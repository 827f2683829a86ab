import Trana.Lib.Run
import Trana.Sdk.Provider

/-!
# SDK: flows, modals and ceremonies

One provider with everything that goes on around it: the flows of
`authorizeAndSend` (`react/useTrana.ts`) that wait for its promises, the modal
`TranaModal` mounts (`react/modal.tsx`), and the WebAuthn ceremonies the modals
start, which run on after their modal is gone. A session takes one event after
the other, in any order that is enabled; a modal shows the phase it was last
rendered with.

* `Modal`, `Ceremony`, `Stage`, `Session` — the parts. A ceremony knows what it
  was started for, a flow how far it has come.
* `next?` — the session after an event, when that can happen.
* `effect_of_step`, `promises_cases` — what an event does to the provider; the
  theorems about promises know nothing else of it.
* `sound_of_run`, `inStep_of_run` — no promise is settled twice, and the phase
  shows what is pending.
* `flowsOwn_of_run` — the approval a flow waits for was handed out to it.

JavaScript runs one callback at a time, so events do not overlap; between two of
them anything may happen, a second flow included. Which button a modal offers
follows from the phase it shows, and a button stays clickable until React
renders again. Timers, styles and the backup nudge are left out.
-/

namespace Trana.Sdk

open Trana.Lib

/-! ## The modal -/

/-- The modals there are. -/
inductive ModalKind where
  | registration
  | confirmation
  | approval
  | error
  deriving DecidableEq

/-- Which modal `TranaModal` mounts. -/
def modalOf : TranaState → Option ModalKind
  | .needsRegistration _ | .registering => some .registration
  | .needsConfirmation _ _ | .confirming _ _ => some .confirmation
  | .needsApproval _ | .approving _ => some .approval
  | .error _ _ => some .error
  | .idle => none

/-- The intent an approval modal is rendered with. -/
def approvalIntent : TranaState → Option Request
  | .needsApproval intent | .approving intent => some intent
  | _ => none

/-- The phase last rendered, the number of the mounted modal, and its `busy`. -/
structure Modal where
  rendered : TranaState
  mounted : Nat
  busy : Bool

/-- A modal of the same kind stays mounted and keeps its `busy`. -/
def Modal.render (m : Modal) (state : TranaState) : Modal :=
  if modalOf state = modalOf m.rendered then { m with rendered := state }
  else ⟨state, m.mounted + 1, false⟩

/-- `setBusy` of the modal with this number, which may be unmounted by now. -/
def Modal.setBusy (m : Modal) (number : Nat) (busy : Bool) : Modal :=
  if m.mounted = number then { m with busy } else m

/-- What a ceremony was started for. -/
inductive Prompt where
  | registration
  | approval (intent : Request)

/-- A call of `handleSetup` or `handleApprove` that has not come back yet. -/
structure Ceremony where
  prompt : Prompt
  mounted : Nat

/-! ## Sessions -/

/-- How far a flow has come. -/
inductive Stage where
  | started
  | awaitingRegistration (promise : Nat)
  | registered
  | awaitingConfirmation (promise : Nat) (intent : TranaIntent)
  | awaitingApproval (promise : Nat) (intent : TranaIntent)
  | approved (intent : TranaIntent) (result : ApprovalResult)
  | sent
  | failed

/-- The intent is built from the registry, found or registered. -/
def Stage.canBuild : Stage → Bool
  | started | registered => true
  | _ => false

/-- A stage without an approval, asked for or received. -/
def Stage.plain : Stage → Bool
  | awaitingApproval _ _ | approved _ _ => false
  | _ => true

/-- The provider, the modal, the ceremonies that run, and the flows by number. -/
structure Session where
  provider : Provider
  modal : Modal
  running : List Ceremony
  flows : List Stage

/-- What can happen next. -/
inductive Event where
  /-- a new flow -/
  | authorizeAndSend
  /-- the detection needs no proof -/
  | notNeeded (flow : Nat)
  /-- no registry -/
  | register (flow : Nat) (intentPreview : IntentPreview)
  /-- the intent is built -/
  | confirm (flow : Nat) (intent : TranaIntent) (label : Option String)
  /-- a call in front of the confirmation throws -/
  | throw (flow : Nat)
  /-- the promise a flow waits for is settled -/
  | resume (flow : Nat)
  /-- "Set up passkey" -/
  | setUp (walletReady : Bool)
  | setUpDone (ceremony : Nat)
  /-- "Approve with device →" -/
  | proceed
  /-- "Approve with device" -/
  | approve (hasRegistry expired : Bool)
  | approvalDone (ceremony : Nat) (result : ApprovalResult)
  | ceremonyFailed (ceremony : Nat)
  /-- the button, Escape, or a click outside -/
  | cancel
  | render

namespace Session

/-- No flow yet. -/
def initial : Session := ⟨.initial, ⟨.idle, 0, false⟩, [], []⟩

/-- The promises and the slot of the provider. -/
def promises (s : Session) : Deferred Purpose Outcome := s.provider.pendingRef

/-- A flow gets to a stage. -/
def setStage (s : Session) (flow : Nat) (stage : Stage) : Session :=
  { s with flows := s.flows.set flow stage }

/-- The outcome of a promise, once it is settled. -/
def outcome (s : Session) (promise : Nat) : Option Outcome := (s.promises.outcomesOf promise).head?

/-- A flow behind its `await`. A rejected promise throws. -/
def resume (s : Session) (flow : Nat) (stage : Stage) : Option Session :=
  match stage with
  | .awaitingRegistration promise =>
    match s.outcome promise with
    | none => none
    -- a rejected promise throws inside the flow
    | some (.rejected _) => some (s.setStage flow .failed)
    | some _ => some (s.setStage flow .registered)
  | .awaitingConfirmation promise intent =>
    match s.outcome promise with
    | none => none
    | some (.rejected _) => some (s.setStage flow .failed)
    | some _ =>
      some ({ s with provider := s.provider.triggerApproval ⟨flow, intent⟩ }.setStage flow
        (.awaitingApproval s.promises.issued.length intent))
  | .awaitingApproval promise intent =>
    match s.outcome promise with
    | none => none
    | some (.rejected _) => some (s.setStage flow .failed)
    | some (.approved result) => some (s.setStage flow (.approved intent result))
    | some .resolved => none
  | _ => none

/-- A modal's handler up to its WebAuthn call. -/
def start (s : Session) (prompt : Prompt) : Session :=
  { s with
    modal := { s.modal with busy := true }
    running := s.running ++ [⟨prompt, s.modal.mounted⟩] }

/-- The session after an event, when that can happen. -/
def next? (s : Session) : Event → Option Session
  | .authorizeAndSend => some { s with flows := s.flows ++ [.started] }
  | .notNeeded flow =>
    match s.flows[flow]? with
    | some .started => some (s.setStage flow .sent)
    | _ => none
  | .register flow intentPreview =>
    match s.flows[flow]? with
    | some .started =>
      some ({ s with provider := s.provider.triggerRegistration flow (some intentPreview) }.setStage
        flow (.awaitingRegistration s.promises.issued.length))
    | _ => none
  | .confirm flow intent label =>
    if (s.flows[flow]?).any Stage.canBuild then
      some ({ s with provider := s.provider.triggerConfirmation ⟨flow, intent⟩ label }.setStage flow
        (.awaitingConfirmation s.promises.issued.length intent))
    else none
  | .throw flow =>
    if (s.flows[flow]?).any Stage.canBuild then some (s.setStage flow .failed) else none
  | .resume flow => (s.flows[flow]?).bind fun stage => s.resume flow stage
  | .setUp walletReady =>
    if modalOf s.modal.rendered = some .registration ∧ s.modal.busy = false then
      -- the wallet may have gone: the handler returns before its ceremony
      if walletReady then some (s.start .registration) else some s
    else none
  | .setUpDone ceremony =>
    match s.running[ceremony]? with
    | some ⟨.registration, _⟩ =>
      some { s with
        provider := s.provider.resolveRegistration
        running := s.running.eraseIdx ceremony }
    | _ => none
  | .proceed =>
    match s.modal.rendered with
    | .needsConfirmation _ _ => some { s with provider := s.provider.resolveConfirmation }
    | _ => none
  | .approve hasRegistry expired =>
    match approvalIntent s.modal.rendered with
    | none => none
    | some intent =>
      -- an expired intent has its button disabled
      if s.modal.busy || expired then none
      else if hasRegistry then some (s.start (.approval intent)) else some s
  | .approvalDone ceremony result =>
    match s.running[ceremony]? with
    | some ⟨.approval _, _⟩ =>
      some { s with
        -- whatever approval is pending is resolved with this result
        provider := s.provider.resolveApproval result
        running := s.running.eraseIdx ceremony }
    | _ => none
  | .ceremonyFailed ceremony =>
    match s.running[ceremony]? with
    | some c =>
      some { s with
        modal := s.modal.setBusy c.mounted false
        running := s.running.eraseIdx ceremony }
    | none => none
  | .cancel =>
    if modalOf s.modal.rendered = none then none
    else some { s with provider := s.provider.rejectPending "Cancelled" }
  | .render => some { s with modal := s.modal.render s.provider.state }

/-- The step relation. -/
def Step (s : Session) (e : Event) (s' : Session) : Prop := s.next? e = some s'

/-! ## Events and promises -/

/-- The event goes on with a flow whose confirmation came through. -/
def Confirmed (s : Session) (flow : Nat) : Prop :=
  ∃ promise intent outcome, s.flows[flow]? = some (.awaitingConfirmation promise intent) ∧
    s.outcome promise = some outcome ∧ ∀ message, outcome ≠ .rejected message

/-- The event calls one of the trigger helpers. -/
def Triggers (s : Session) : Event → Prop
  | .register _ _ | .confirm _ _ _ => True
  | .resume flow => s.Confirmed flow
  | _ => False

/-- The event neither calls a trigger helper nor brings a ceremony's result. -/
def Still (s : Session) (e : Event) : Prop :=
  ¬s.Triggers e ∧ ∀ ceremony result, e ≠ .approvalDone ceremony result

/-- What an event does to the provider, the ceremonies and the flows. -/
inductive Effect (s s' : Session) : Event → Prop where
  | quiet {e : Event} (still : s.Still e) (provider : s'.provider = s.provider)
      (running : s'.running ⊆ s.running) (flows : s'.flows = s.flows) : Effect s s' e
  | authorizeAndSend (provider : s'.provider = s.provider) (running : s'.running = s.running)
      (flows : s'.flows = s.flows ++ [.started]) : Effect s s' .authorizeAndSend
  | stage {e : Event} (flow : Nat) (stage : Stage) (plain : stage.plain = true) (still : s.Still e)
      (provider : s'.provider = s.provider) (running : s'.running = s.running)
      (flows : s'.flows = s.flows.set flow stage) : Effect s s' e
  | register (flow : Nat) (intentPreview : IntentPreview) (stage : Stage)
      (plain : stage.plain = true)
      (provider : s'.provider = s.provider.triggerRegistration flow (some intentPreview))
      (running : s'.running = s.running) (flows : s'.flows = s.flows.set flow stage) :
      Effect s s' (.register flow intentPreview)
  | confirm (flow : Nat) (intent : TranaIntent) (label : Option String) (stage : Stage)
      (plain : stage.plain = true)
      (provider : s'.provider = s.provider.triggerConfirmation ⟨flow, intent⟩ label)
      (running : s'.running = s.running) (flows : s'.flows = s.flows.set flow stage) :
      Effect s s' (.confirm flow intent label)
  | goOn (flow : Nat) (intent : TranaIntent) (confirmed : s.Confirmed flow)
      (provider : s'.provider = s.provider.triggerApproval ⟨flow, intent⟩)
      (running : s'.running = s.running)
      (flows : s'.flows =
        s.flows.set flow (.awaitingApproval s.promises.issued.length intent)) :
      Effect s s' (.resume flow)
  | finish (flow promise : Nat) (intent : TranaIntent) (result : ApprovalResult)
      (still : s.Still (.resume flow))
      (awaiting : s.flows[flow]? = some (.awaitingApproval promise intent))
      (settled : s.outcome promise = some (.approved result))
      (provider : s'.provider = s.provider) (running : s'.running = s.running)
      (flows : s'.flows = s.flows.set flow (.approved intent result)) : Effect s s' (.resume flow)
  | setUp (walletReady : Bool) (provider : s'.provider = s.provider)
      (running : s'.running = s.running ++ [⟨.registration, s.modal.mounted⟩])
      (flows : s'.flows = s.flows) : Effect s s' (.setUp walletReady)
  | setUpDone (ceremony : Nat) (provider : s'.provider = s.provider.resolveRegistration)
      (running : s'.running ⊆ s.running) (flows : s'.flows = s.flows) :
      Effect s s' (.setUpDone ceremony)
  | proceed (provider : s'.provider = s.provider.resolveConfirmation)
      (running : s'.running = s.running) (flows : s'.flows = s.flows) : Effect s s' .proceed
  | approve (hasRegistry expired : Bool) (intent : Request)
      (shown : approvalIntent s.modal.rendered = some intent) (provider : s'.provider = s.provider)
      (running : s'.running = s.running ++ [⟨.approval intent, s.modal.mounted⟩])
      (flows : s'.flows = s.flows) : Effect s s' (.approve hasRegistry expired)
  | approvalDone (ceremony : Nat) (result : ApprovalResult) (intent : Request) (mounted : Nat)
      (started : s.running[ceremony]? = some ⟨.approval intent, mounted⟩)
      (provider : s'.provider = s.provider.resolveApproval result)
      (running : s'.running ⊆ s.running) (flows : s'.flows = s.flows) :
      Effect s s' (.approvalDone ceremony result)
  | cancel (provider : s'.provider = s.provider.rejectPending "Cancelled")
      (running : s'.running = s.running) (flows : s'.flows = s.flows) : Effect s s' .cancel

variable {s s' : Session} {e : Event}

/-- A flow that waits for no confirmation is not confirmed. -/
theorem still_resume {flow : Nat} {stage : Stage} (hstage : s.flows[flow]? = some stage)
    (hne : ∀ promise intent, stage ≠ .awaitingConfirmation promise intent) :
    s.Still (.resume flow) := by
  refine ⟨fun h => ?_, fun ceremony result he => by cases he⟩
  obtain ⟨promise, intent, outcome, hflow, -⟩ := h
  rw [hstage] at hflow
  exact hne promise intent (Option.some.inj hflow)

/-- Behind an `await` a flow calls a helper in one case only. -/
theorem effect_of_resume {flow : Nat} {stage : Stage} (hstage : s.flows[flow]? = some stage)
    (h : s.resume flow stage = some s') : Effect s s' (.resume flow) := by
  unfold resume at h
  split at h
  next promise =>
    have hstill := still_resume hstage fun promise intent hp => by cases hp
    split at h
    next => cases h
    next =>
      obtain rfl := Option.some.inj h
      exact .stage flow .failed rfl hstill rfl rfl rfl
    next =>
      obtain rfl := Option.some.inj h
      exact .stage flow .registered rfl hstill rfl rfl rfl
  next promise intent =>
    split at h
    next => cases h
    next message houtcome =>
      obtain rfl := Option.some.inj h
      refine .stage flow .failed rfl ⟨fun hconfirmed => ?_, fun _ _ he => by cases he⟩ rfl rfl rfl
      obtain ⟨promise', intent', outcome, hflow, hsettled, hnot⟩ := hconfirmed
      rw [hstage] at hflow
      cases hflow
      rw [houtcome] at hsettled
      exact hnot message (Option.some.inj hsettled).symm
    next outcome hnot houtcome =>
      obtain rfl := Option.some.inj h
      exact .goOn flow intent ⟨promise, intent, outcome, hstage, houtcome, hnot⟩ rfl rfl rfl
  next promise intent =>
    have hstill := still_resume hstage fun promise intent hp => by cases hp
    split at h
    next => cases h
    next =>
      obtain rfl := Option.some.inj h
      exact .stage flow .failed rfl hstill rfl rfl rfl
    next result houtcome =>
      obtain rfl := Option.some.inj h
      exact .finish flow promise intent result hstill hstage houtcome rfl rfl rfl
    next => cases h
  next => cases h

/-- Every event has one of the effects. -/
theorem effect_of_step (h : s.Step e s') : Effect s s' e := by
  have h : s.next? e = some s' := h
  cases e with
  | authorizeAndSend =>
    obtain rfl := Option.some.inj h
    exact .authorizeAndSend rfl rfl rfl
  | notNeeded flow =>
    simp only [next?] at h
    split at h
    next =>
      obtain rfl := Option.some.inj h
      exact .stage flow .sent rfl ⟨id, fun _ _ he => by cases he⟩ rfl rfl rfl
    next => cases h
  | register flow intentPreview =>
    simp only [next?] at h
    split at h
    next =>
      obtain rfl := Option.some.inj h
      exact .register flow intentPreview (.awaitingRegistration _) rfl rfl rfl rfl
    next => cases h
  | confirm flow intent label =>
    simp only [next?] at h
    split at h
    next =>
      obtain rfl := Option.some.inj h
      exact .confirm flow intent label (.awaitingConfirmation _ intent) rfl rfl rfl rfl
    next => cases h
  | throw flow =>
    simp only [next?] at h
    split at h
    next =>
      obtain rfl := Option.some.inj h
      exact .stage flow .failed rfl ⟨id, fun _ _ he => by cases he⟩ rfl rfl rfl
    next => cases h
  | resume flow =>
    obtain ⟨stage, hstage, hresume⟩ := Option.bind_eq_some_iff.mp h
    exact effect_of_resume hstage hresume
  | setUp walletReady =>
    simp only [next?] at h
    split at h
    next =>
      split at h
      next =>
        obtain rfl := Option.some.inj h
        exact .setUp walletReady rfl rfl rfl
      next =>
        obtain rfl := Option.some.inj h
        exact .quiet ⟨id, fun _ _ he => by cases he⟩ rfl (List.Subset.refl _) rfl
    next => cases h
  | setUpDone ceremony =>
    simp only [next?] at h
    split at h
    next =>
      obtain rfl := Option.some.inj h
      exact .setUpDone ceremony rfl List.eraseIdx_subset rfl
    next => cases h
  | proceed =>
    simp only [next?] at h
    split at h
    next =>
      obtain rfl := Option.some.inj h
      exact .proceed rfl rfl rfl
    next => cases h
  | approve hasRegistry expired =>
    simp only [next?] at h
    split at h
    next => cases h
    next intent hshown =>
      split at h
      next => cases h
      next =>
        split at h
        next =>
          obtain rfl := Option.some.inj h
          exact .approve hasRegistry expired intent hshown rfl rfl rfl
        next =>
          obtain rfl := Option.some.inj h
          exact .quiet ⟨id, fun _ _ he => by cases he⟩ rfl (List.Subset.refl _) rfl
  | approvalDone ceremony result =>
    simp only [next?] at h
    split at h
    next intent mounted hrunning =>
      obtain rfl := Option.some.inj h
      exact .approvalDone ceremony result intent mounted hrunning rfl List.eraseIdx_subset rfl
    next => cases h
  | ceremonyFailed ceremony =>
    simp only [next?] at h
    split at h
    next =>
      obtain rfl := Option.some.inj h
      exact .quiet ⟨id, fun _ _ he => by cases he⟩ rfl List.eraseIdx_subset rfl
    next => cases h
  | cancel =>
    simp only [next?] at h
    split at h
    next => cases h
    next =>
      obtain rfl := Option.some.inj h
      exact .cancel rfl rfl rfl
  | render =>
    obtain rfl := Option.some.inj h
    exact .quiet ⟨id, fun _ _ he => by cases he⟩ rfl (List.Subset.refl _) rfl

/-- What an event does to the promises: nothing, one more is handed out, the
pending one is settled without a result, or a ceremony's result goes to a
pending approval. -/
inductive PromiseEffect (s s' : Session) (e : Event) : Prop where
  | quiet (still : s.Still e) (same : s'.promises = s.promises)
  | issue (purpose : Purpose) (trigger : s.Triggers e)
      (other : ∀ ceremony result, e ≠ .approvalDone ceremony result)
      (issued : s'.promises = s.promises.issue purpose)
  | settle (want : Purpose → Bool) (outcome : Outcome) (still : s.Still e)
      (plain : ∀ result, outcome ≠ .approved result)
      (settled : s'.promises = s.promises.settleIf want outcome)
  | deliver (ceremony : Nat) (result : ApprovalResult) (intent : Request) (mounted : Nat)
      (event : e = .approvalDone ceremony result)
      (started : s.running[ceremony]? = some ⟨.approval intent, mounted⟩)
      (settled : s'.promises = s.promises.settleIf Purpose.isApproval (.approved result))

/-- The promises are the provider's. -/
theorem promises_eq {p : Provider} (h : s.provider = p) : s.promises = p.pendingRef :=
  congrArg Provider.pendingRef h

/-- What it does to the promises, and nothing else. -/
theorem promiseEffect_of_step (h : s.Step e s') : PromiseEffect s s' e := by
  cases effect_of_step h with
  | quiet still provider running flows => exact .quiet still (promises_eq provider)
  | authorizeAndSend provider running flows =>
    exact .quiet ⟨id, fun _ _ he => by cases he⟩ (promises_eq provider)
  | stage flow stage plain still provider running flows =>
    exact .quiet still (promises_eq provider)
  | register flow intentPreview stage plain provider running flows =>
    exact .issue _ trivial (fun _ _ he => by cases he) (promises_eq provider)
  | confirm flow intent label stage plain provider running flows =>
    exact .issue _ trivial (fun _ _ he => by cases he) (promises_eq provider)
  | goOn flow intent confirmed provider running flows =>
    exact .issue _ confirmed (fun _ _ he => by cases he) (promises_eq provider)
  | finish flow promise intent result still awaiting settled provider running flows =>
    exact .quiet still (promises_eq provider)
  | setUp walletReady provider running flows =>
    exact .quiet ⟨id, fun _ _ he => by cases he⟩ (promises_eq provider)
  | setUpDone ceremony provider running flows =>
    refine .settle _ _ ⟨id, fun _ _ he => by cases he⟩ (fun result ho => ?_)
      ((promises_eq provider).trans (Provider.resolveKind_pendingRef ..))
    cases ho
  | proceed provider running flows =>
    refine .settle _ _ ⟨id, fun _ _ he => by cases he⟩ (fun result ho => ?_)
      ((promises_eq provider).trans (Provider.resolveKind_pendingRef ..))
    cases ho
  | approve hasRegistry expired intent shown provider running flows =>
    exact .quiet ⟨id, fun _ _ he => by cases he⟩ (promises_eq provider)
  | approvalDone ceremony result intent mounted started provider running flows =>
    exact .deliver ceremony result intent mounted rfl started
      ((promises_eq provider).trans (Provider.resolveKind_pendingRef ..))
  | cancel provider running flows =>
    refine .settle (fun _ => true) (.rejected "Cancelled") ⟨id, fun _ _ he => by cases he⟩
      (fun result ho => ?_) (promises_eq provider)
    cases ho

/-! ## What always holds -/

variable {trace : List (Transition Session Event)}

/-- No promise is settled twice, and the pending one not at all. -/
def Sound (s : Session) : Prop := s.promises.Sound

/-- No event settles a promise that is settled. -/
theorem sound_step (hs : s.Sound) (h : s.Step e s') : s'.Sound := by
  unfold Sound
  cases promiseEffect_of_step h with
  | quiet still same =>
    rw [same]
    exact hs
  | issue purpose trigger other issued =>
    rw [issued]
    exact Deferred.Sound.issue hs purpose
  | settle want outcome still plain settled =>
    rw [settled]
    exact Deferred.Sound.settleIf hs want outcome
  | deliver ceremony result intent mounted event started settled =>
    rw [settled]
    exact Deferred.Sound.settleIf hs _ _

/-- So no run does. -/
theorem sound_of_run (h : Run Step initial trace s) : s.Sound := by
  have hkeep : ∀ (s : Session) (e : Event) (s' : Session), s.Sound → s.Step e s' → s'.Sound :=
    fun s e s' hs hstep => sound_step hs hstep
  exact h.invariant hkeep Deferred.sound_empty

/-- The phase shows what is pending. -/
def InStep (s : Session) : Prop := Provider.Shows s.provider.state s.provider.pendingRef.held

/-- An event keeps the phase with the slot. -/
theorem inStep_step (hs : s.InStep) (h : s.Step e s') : s'.InStep := by
  have hsame : s'.provider = s.provider → s'.InStep := by
    intro hprovider
    unfold InStep
    rw [hprovider]
    exact hs
  cases effect_of_step h with
  | quiet still provider running flows => exact hsame provider
  | authorizeAndSend provider running flows => exact hsame provider
  | stage flow stage plain still provider running flows => exact hsame provider
  | register flow intentPreview stage plain provider running flows =>
    unfold InStep
    rw [provider]
    exact Provider.shows_triggerRegistration _ flow _
  | confirm flow intent label stage plain provider running flows =>
    unfold InStep
    rw [provider]
    exact Provider.shows_triggerConfirmation _ _ label
  | goOn flow intent confirmed provider running flows =>
    unfold InStep
    rw [provider]
    exact Provider.shows_triggerApproval _ _
  | finish flow promise intent result still awaiting settled provider running flows =>
    exact hsame provider
  | setUp walletReady provider running flows => exact hsame provider
  | setUpDone ceremony provider running flows =>
    unfold InStep
    rw [provider]
    exact Provider.shows_resolveKind _ _ hs
  | proceed provider running flows =>
    unfold InStep
    rw [provider]
    exact Provider.shows_resolveKind _ _ hs
  | approve hasRegistry expired intent shown provider running flows => exact hsame provider
  | approvalDone ceremony result intent mounted started provider running flows =>
    unfold InStep
    rw [provider]
    exact Provider.shows_resolveKind _ _ hs
  | cancel provider running flows =>
    unfold InStep
    rw [provider]
    exact Provider.shows_rejectPending _ _

/-- So does a run. -/
theorem inStep_of_run (h : Run Step initial trace s) : s.InStep := by
  have hkeep : ∀ (s : Session) (e : Event) (s' : Session), s.InStep → s.Step e s' → s'.InStep :=
    fun s e s' hs hstep => inStep_step hs hstep
  exact h.invariant hkeep Provider.shows_initial

/-- What a flow's stage says of its approval: it waits for a promise handed out
for its own intent, or has the result of one. -/
def Owns (promises : Deferred Purpose Outcome) (flow : Nat) : Stage → Prop
  | .awaitingApproval promise intent => promises.issued[promise]? = some (.approval ⟨flow, intent⟩)
  | .approved intent result =>
    ∃ promise, promises.issued[promise]? = some (.approval ⟨flow, intent⟩)
      ∧ (promise, .approved result) ∈ promises.outcomes
  | _ => True

/-- A stage without an approval owns none. -/
theorem owns_plain {promises : Deferred Purpose Outcome} {flow : Nat} {stage : Stage}
    (h : stage.plain = true) : Owns promises flow stage := by
  cases stage with
  | awaitingApproval promise intent => cases h
  | approved intent result => cases h
  | _ => trivial

/-- What was handed out stays so. -/
theorem owns_grows {d d' : Deferred Purpose Outcome} {flow : Nat} {stage : Stage}
    (hgrows : d.Grows d') (h : Owns d flow stage) : Owns d' flow stage := by
  cases stage with
  | awaitingApproval promise intent => exact hgrows.issued promise _ h
  | approved intent result =>
    obtain ⟨promise, hissued, hmem⟩ := h
    exact ⟨promise, hgrows.issued promise _ hissued, hgrows.outcomes hmem⟩
  | _ => trivial

/-- Every flow waits for an approval of its own. -/
def FlowsOwn (s : Session) : Prop :=
  ∀ flow stage, s.flows[flow]? = some stage → Owns s.promises flow stage

/-- Promises are only added, and outcomes only appended. -/
theorem promises_grow (h : s.Step e s') : s.promises.Grows s'.promises := by
  cases promiseEffect_of_step h with
  | quiet still same =>
    rw [same]
    exact Deferred.Grows.refl _
  | issue purpose trigger other issued =>
    rw [issued]
    exact Deferred.grows_issue _ _
  | settle want outcome still plain settled =>
    rw [settled]
    exact Deferred.grows_settleIf _ _ _
  | deliver ceremony result intent mounted event started settled =>
    rw [settled]
    exact Deferred.grows_settleIf _ _ _

/-- A changed stage has to be looked at, the others keep what they own. -/
theorem flowsOwn_set (hs : s.FlowsOwn) (hgrows : s.promises.Grows s'.promises) {flow : Nat}
    {stage : Stage} (hflows : s'.flows = s.flows.set flow stage)
    (hstage : Owns s'.promises flow stage) : s'.FlowsOwn := by
  intro f st hf
  rw [hflows, List.getElem?_set] at hf
  by_cases hself : flow = f
  · rw [if_pos hself] at hf
    split at hf
    next =>
      obtain rfl := Option.some.inj hf
      exact hself ▸ hstage
    next => cases hf
  · rw [if_neg hself] at hf
    exact owns_grows hgrows (hs f st hf)

/-- An event keeps it. -/
theorem flowsOwn_step (hs : s.FlowsOwn) (h : s.Step e s') : s'.FlowsOwn := by
  have hgrows := promises_grow h
  have hsame : s'.flows = s.flows → s'.FlowsOwn := by
    intro hflows flow stage hflow
    rw [hflows] at hflow
    exact owns_grows hgrows (hs flow stage hflow)
  cases effect_of_step h with
  | quiet still provider running flows => exact hsame flows
  | authorizeAndSend provider running flows =>
    intro flow stage hflow
    rw [flows] at hflow
    by_cases hlt : flow < s.flows.length
    · rw [List.getElem?_append_left hlt] at hflow
      exact owns_grows hgrows (hs flow stage hflow)
    · rw [List.getElem?_append_right (Nat.le_of_not_lt hlt)] at hflow
      obtain rfl := List.mem_singleton.mp (List.mem_of_getElem? hflow)
      trivial
  | stage flow stage plain still provider running flows =>
    exact flowsOwn_set hs hgrows flows (owns_plain plain)
  | register flow intentPreview stage plain provider running flows =>
    exact flowsOwn_set hs hgrows flows (owns_plain plain)
  | confirm flow intent label stage plain provider running flows =>
    exact flowsOwn_set hs hgrows flows (owns_plain plain)
  | goOn flow intent confirmed provider running flows =>
    refine flowsOwn_set hs hgrows flows ?_
    show s'.promises.issued[s.promises.issued.length]? = some (.approval ⟨flow, intent⟩)
    rw [promises_eq provider]
    exact List.getElem?_concat_length
  | finish flow promise intent result still awaiting settled provider running flows =>
    refine flowsOwn_set hs hgrows flows ⟨promise, hgrows.issued _ _ (hs flow _ awaiting), ?_⟩
    have hmem : Outcome.approved result ∈ s.promises.outcomesOf promise :=
      List.mem_of_mem_head? settled
    exact hgrows.outcomes (Deferred.mem_outcomesOf.mp hmem)
  | setUp walletReady provider running flows => exact hsame flows
  | setUpDone ceremony provider running flows => exact hsame flows
  | proceed provider running flows => exact hsame flows
  | approve hasRegistry expired intent shown provider running flows => exact hsame flows
  | approvalDone ceremony result intent mounted started provider running flows => exact hsame flows
  | cancel provider running flows => exact hsame flows

/-- The approval a flow waits for, or has, is for its own intent. -/
theorem flowsOwn_of_run (h : Run Step initial trace s) : s.FlowsOwn := by
  have hkeep : ∀ (s : Session) (e : Event) (s' : Session), s.FlowsOwn → s.Step e s' →
      s'.FlowsOwn :=
    fun s e s' hs hstep => flowsOwn_step hs hstep
  refine h.invariant hkeep fun flow stage hflow => ?_
  cases hflow

/-- Execute events one after the other. -/
theorem run_of_events {events : List Event} (h : replay next? initial events = some s) :
    ∃ trace, Run Step initial trace s ∧ trace.map Transition.label = events :=
  run_of_replay (fun _ _ _ hnext => hnext) h

end Session

/-- One recorded event. -/
abbrev Turn := Transition Session Event

end Trana.Sdk
