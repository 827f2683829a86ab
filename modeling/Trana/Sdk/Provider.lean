import Trana.Lib.Deferred
import Trana.Sdk.Intent

/-!
# SDK: the provider

`react/state.ts` and `react/provider.tsx`: the phase reducer, and the helpers
that hand out promises and settle them through `pendingRef`. An intent is an
object here, the one its flow builds; two flows' intents are different objects
whatever their fields.

* `tranaReducer` — the reducer, action by action.
* `triggerRegistration`, … — each dispatches and makes a promise, whose resolvers
  replace what `pendingRef` held; an earlier promise is then never settled.
* `resolveKind` — the three resolve helpers: they settle what is pending when it
  is of their kind, and do nothing otherwise.
* `Shows` — the phase always shows what `pendingRef` holds. Each helper keeps it.

A `dispatch` takes effect at once here. React may render later, but the modal
acts on a rendered phase only, which is one the provider has been in. The
registry subscription and the context object are not modelled.
-/

namespace Trana.Sdk

open Trana.Lib

/-! ## Phases -/

/-- The intent object of a flow. -/
structure Request where
  flow : Nat
  intent : TranaIntent

/-- What the registration modal may show of the action. -/
structure IntentPreview where
  label : Option String
  amountSol : Option String
  policy : String

/-- UI phases driven by the provider. -/
inductive TranaState where
  | idle
  | needsRegistration (intentPreview : Option IntentPreview)
  | registering
  | needsConfirmation (intent : Request) (label : Option String)
  | confirming (intent : Request) (label : Option String)
  | needsApproval (intent : Request)
  | approving (intent : Request)
  | error (message : String) (recoverable : Bool)

/-- The reducer's actions. -/
inductive TranaAction where
  | triggerRegistration (intentPreview : Option IntentPreview)
  | startRegister
  | triggerConfirmation (intent : Request) (label : Option String)
  | startConfirm
  | triggerApproval (intent : Request)
  | startApprove
  | resolve
  | error (message : String) (recoverable : Option Bool)
  | reset

/-- The phase after an action. Only the two `start` actions look at the phase before. -/
def tranaReducer (state : TranaState) (action : TranaAction) : TranaState :=
  match action with
  | .triggerRegistration intentPreview => .needsRegistration intentPreview
  | .startRegister => .registering
  | .triggerConfirmation intent label => .needsConfirmation intent label
  -- React's reducer ignores a start that comes too late
  | .startConfirm =>
    match state with
    | .needsConfirmation intent label => .confirming intent label
    | state => state
  | .triggerApproval intent => .needsApproval intent
  | .startApprove =>
    match state with
    | .needsApproval intent => .approving intent
    | state => state
  | .resolve => .idle
  | .error message recoverable => .error message (recoverable.getD true)
  | .reset => .idle

/-! ## Promises -/

/-- What the authenticator gave. -/
structure ApprovalResult where
  sig : Bytes
  authenticatorData : Bytes
  clientDataJSON : Bytes
  deriving DecidableEq

/-- What a promise was handed out for: its kind, and whose it is. -/
inductive Purpose where
  | registration (flow : Nat)
  | confirmation (intent : Request)
  | approval (intent : Request)

/-- `kind === "registration"`, and likewise below. -/
def Purpose.isRegistration : Purpose → Bool
  | registration _ => true
  | _ => false

/-- `kind === "confirmation"` -/
def Purpose.isConfirmation : Purpose → Bool
  | confirmation _ => true
  | _ => false

/-- `kind === "approval"` -/
def Purpose.isApproval : Purpose → Bool
  | approval _ => true
  | _ => false

/-- How a promise is settled. -/
inductive Outcome where
  | resolved
  | approved (result : ApprovalResult)
  | rejected (message : String)
  deriving DecidableEq

/-- The provider's state: the phase, and `pendingRef` with the promises handed
out through it. -/
structure Provider where
  state : TranaState
  pendingRef : Deferred Purpose Outcome

namespace Provider

/-- Nothing is shown, and nothing pending. -/
def initial : Provider := ⟨.idle, .empty⟩

/-- `dispatch(action)`, at once. -/
def dispatch (p : Provider) (action : TranaAction) : Provider :=
  { p with state := tranaReducer p.state action }

/-- `new Promise(..)`, whose resolvers go into `pendingRef`. -/
def newPromise (p : Provider) (purpose : Purpose) : Provider :=
  { p with pendingRef := p.pendingRef.issue purpose }

/-! ### Trigger helpers (called by `useTrana`) -/

/-- Pause a flow until the registration modal resolves. -/
def triggerRegistration (p : Provider) (flow : Nat) (intentPreview : Option IntentPreview) :
    Provider :=
  (p.dispatch (.triggerRegistration intentPreview)).newPromise (.registration flow)

/-- Pause a flow until the user goes on from the preview. -/
def triggerConfirmation (p : Provider) (intent : Request) (label : Option String) : Provider :=
  (p.dispatch (.triggerConfirmation intent label)).newPromise (.confirmation intent)

/-- Pause a flow until the approval modal resolves. -/
def triggerApproval (p : Provider) (intent : Request) : Provider :=
  (p.dispatch (.triggerApproval intent)).newPromise (.approval intent)

/-! ### Resolve helpers (called by the modal) -/

/-- Settle what is pending and dispatch, when it is of this kind. -/
def resolveKind (p : Provider) (kind : Purpose → Bool) (outcome : Outcome) : Provider :=
  if p.pendingRef.held.any (fun s => kind s.kind) then
    { p with pendingRef := p.pendingRef.settleIf kind outcome }.dispatch .resolve
  else p

/-- The ceremony is complete. -/
def resolveRegistration (p : Provider) : Provider := p.resolveKind Purpose.isRegistration .resolved

/-- The user goes on. -/
def resolveConfirmation (p : Provider) : Provider := p.resolveKind Purpose.isConfirmation .resolved

/-- The authenticator has signed. -/
def resolveApproval (p : Provider) (result : ApprovalResult) : Provider :=
  p.resolveKind Purpose.isApproval (.approved result)

/-- Cancelled, or failed: whatever is pending is rejected. -/
def rejectPending (p : Provider) (message : String) : Provider :=
  { p with pendingRef := p.pendingRef.settleIf (fun _ => true) (.rejected message) }.dispatch .reset

/-- What a resolve helper leaves of `pendingRef`. -/
theorem resolveKind_pendingRef (p : Provider) (kind : Purpose → Bool) (outcome : Outcome) :
    (p.resolveKind kind outcome).pendingRef = p.pendingRef.settleIf kind outcome := by
  unfold resolveKind
  by_cases hkind : p.pendingRef.held.any (fun s => kind s.kind) = true
  · rw [if_pos hkind]
    rfl
  · rw [if_neg hkind]
    rcases Deferred.settleIf_cases p.pendingRef kind outcome with ⟨heq, -⟩ | ⟨s, hheld, hs, -⟩
    · exact heq.symm
    · rw [hheld] at hkind
      exact absurd hs hkind

/-! ## The phase and what is pending -/

/-- A phase that shows this pending promise. -/
def Shows : TranaState → Option (Held Purpose) → Prop
  | .idle, none => True
  | .needsRegistration _, some ⟨_, .registration _⟩ => True
  | .needsConfirmation intent _, some ⟨_, .confirmation own⟩ => intent = own
  | .needsApproval intent, some ⟨_, .approval own⟩ => intent = own
  | _, _ => False

/-- At the start, -/
theorem shows_initial : Shows initial.state initial.pendingRef.held := trivial

/-- after a trigger, -/
theorem shows_triggerRegistration (p : Provider) (flow : Nat)
    (intentPreview : Option IntentPreview) :
    Shows (p.triggerRegistration flow intentPreview).state
      (p.triggerRegistration flow intentPreview).pendingRef.held :=
  trivial

/-- of each kind, -/
theorem shows_triggerConfirmation (p : Provider) (intent : Request) (label : Option String) :
    Shows (p.triggerConfirmation intent label).state
      (p.triggerConfirmation intent label).pendingRef.held :=
  rfl

/-- as the promise that is made is the one the phase shows, -/
theorem shows_triggerApproval (p : Provider) (intent : Request) :
    Shows (p.triggerApproval intent).state (p.triggerApproval intent).pendingRef.held :=
  rfl

/-- after a resolve, which leaves phase and promise or clears both, -/
theorem shows_resolveKind {p : Provider} (kind : Purpose → Bool) (outcome : Outcome)
    (h : Shows p.state p.pendingRef.held) :
    Shows (p.resolveKind kind outcome).state (p.resolveKind kind outcome).pendingRef.held := by
  rw [resolveKind_pendingRef]
  unfold resolveKind
  rcases Deferred.settleIf_cases p.pendingRef kind outcome with ⟨heq, hno⟩ | ⟨s, hheld, hs, heq⟩
  -- nothing of the kind is pending: neither side moves
  · have hany : p.pendingRef.held.any (fun s => kind s.kind) = false := by
      cases hheld : p.pendingRef.held with
      | none => rfl
      | some s => exact hno s hheld
    rw [heq, hany, if_neg Bool.false_ne_true]
    exact h
  · have hany : p.pendingRef.held.any (fun s => kind s.kind) = true := by
      rw [hheld]
      exact hs
    rw [heq, if_pos hany]
    trivial

/-- and after a rejection. -/
theorem shows_rejectPending (p : Provider) (message : String) :
    Shows (p.rejectPending message).state (p.rejectPending message).pendingRef.held := by
  show Shows .idle (p.pendingRef.settleIf (fun _ => true) (.rejected message)).held
  rcases Deferred.settleIf_cases p.pendingRef (fun _ => true) (Outcome.rejected message) with
    ⟨heq, hno⟩ | ⟨s, hheld, -, heq⟩
  · rw [heq]
    cases hheld : p.pendingRef.held with
    | none => trivial
    | some s => cases hno s hheld
  · rw [heq]
    trivial

/-- A phase that asks for an approval shows the approval that is pending. -/
theorem Shows.approval {intent : Request} {held : Option (Held Purpose)}
    (h : Shows (.needsApproval intent) held) : ∃ p, held = some ⟨p, .approval intent⟩ := by
  match held, h with
  | some ⟨p, .approval own⟩, heq =>
    have heq : intent = own := heq
    exact ⟨p, by rw [heq]⟩

end Provider

end Trana.Sdk
