import Trana.Guard.ProgramSpec
import Trana.Lib.Keyring

/-!
# Runs of the guard

A run is what the committed transactions did, step by step: successful
invocations of the program, invocations whose transaction was rolled back, and
what other programs did to the ledger. Each invocation comes with its own
transaction, clock and accounts, so a run is any interleaving of any wallets'
calls, top-level or through other programs.

Nothing ties the clock or the transaction of one call to those of the next. Time
may run backwards in a run, and two calls may claim the same transaction with
different instructions in it; a result about runs therefore holds without any
assumption on the order of transactions, and the few that need one say so.

A rolled-back call is a step that changes nothing, with the call itself in the
label. That keeps attempts visible, which results about what is never accepted
are about.

* `layout_run` — every registry sits at the PDA of the wallet it names.
* `step_refines`, `run_refines` — seen from one wallet, a run of the program
  is a run of the key ring (`Trana.Lib.Keyring`) with room for ten keys.
* `acceptance_of_authorised` — a step that the key ring calls authorised is one
  the guard verified, with the wallet's current registry (`Acceptance`).
-/

namespace Trana.Guard

open Trana.Lib Trana.Lib.Exec Trana.Solana

/-- One invocation of the program. -/
structure Call where
  env : Env
  accounts : List AccountMeta
  data : Bytes

/-- The call carries this instruction. -/
def Call.Is (c : Call) (ix : GuardInstruction) : Prop := (parseInstruction c.data).Returns ix

/-- What a step of the chain is. -/
inductive Label where
  | executed (c : Call)
  | rolledBack (c : Call)
  | other

/-- One step of the chain. -/
inductive Step (d : Deployment) : Ledger → Label → Ledger → Prop where
  | executed {l l' : Ledger} {c : Call} (h : (process d c.env c.accounts c.data l).Returns l') :
    Step d l (.executed c) l'
  | rolledBack (l : Ledger) (c : Call) : Step d l (.rolledBack c) l
  | other {l l' : Ledger} (h : Ledger.External d.programId l l') : Step d l .other l'

/-- One recorded step. -/
abbrev Moment := Transition Ledger Label

variable {d : Deployment} {l l' : Ledger} {a : Label} {w : Pubkey}

/-- A successful call has an effect. -/
theorem executed_effect {c : Call} (h : Step d l (.executed c) l') :
    ∃ ix, c.Is ix ∧ Effect d c.env c.accounts l l' ix := by
  cases h with
  | executed h =>
    simp only [process, returns_bind] at h
    obtain ⟨ix, hix, h⟩ := h
    exact ⟨ix, hix, execute_effect h⟩

/-- Instruction data decode to one instruction. -/
theorem Call.Is.unique {c : Call} {ix ix' : GuardInstruction} (h : c.Is ix) (h' : c.Is ix') :
    ix = ix' :=
  Returns.unique h h'

/-- Execute calls one after the other; none when one of them fails. -/
def runCalls (d : Deployment) : Ledger → List Call → Option (List Moment × Ledger)
  | l, [] => some ([], l)
  | l, c :: cs =>
    match (process d c.env c.accounts c.data l).result with
    | .error _ => none
    | .ok l' => (runCalls d l' cs).map fun p => (⟨l, .executed c, l'⟩ :: p.1, p.2)

/-- Calls that execute one after the other are a run. -/
theorem run_of_runCalls {cs : List Call} {trace : List Moment}
    (h : runCalls d l cs = some (trace, l')) : Run (Step d) l trace l' := by
  induction cs generalizing l trace with
  | nil =>
    obtain ⟨rfl, rfl⟩ := Prod.mk.inj (Option.some.inj h)
    exact .nil _
  | cons c cs ih =>
    unfold runCalls at h
    split at h
    next => nomatch h
    next l₁ hok =>
      obtain ⟨⟨trace', l₂⟩, hrest, hp⟩ := Option.map_eq_some_iff.mp h
      obtain ⟨rfl, rfl⟩ := Prod.mk.inj hp
      exact .cons (.executed hok) (ih hrest)

/-- The steps of such a run are the calls, in order. -/
theorem labels_runCalls {cs : List Call} {trace : List Moment}
    (h : runCalls d l cs = some (trace, l')) :
    trace.map Transition.label = cs.map Label.executed := by
  induction cs generalizing l trace with
  | nil =>
    obtain ⟨rfl, -⟩ := Prod.mk.inj (Option.some.inj h)
    rfl
  | cons c cs ih =>
    unfold runCalls at h
    split at h
    next => nomatch h
    next l₁ hok =>
      obtain ⟨⟨trace', l₂⟩, hrest, hp⟩ := Option.map_eq_some_iff.mp h
      obtain ⟨rfl, rfl⟩ := Prod.mk.inj hp
      rw [List.map_cons, List.map_cons, ih hrest]

/-! ## Layout -/

/-- Every registry sits at the PDA of the wallet in its owner field. -/
def Layout (d : Deployment) (l : Ledger) : Prop :=
  ∀ k r, registryAt d l k = some r → k = d.findRegistry r.owner

/-- A chain without registries is laid out. -/
theorem layout_genesis (h : Ledger.Genesis d.programId l) : Layout d l := by
  intro k r hr
  obtain ⟨howner, hread⟩ := registryAt_eq_some.mp hr
  exact absurd hread (AccountLayout.tryDeserialize_zeros (h k howner) ⟨201, by decide, by decide⟩)

/-- The layout is about registries only. -/
theorem SameRegistries.layout (h : SameRegistries d l l') (hl : Layout d l) : Layout d l' := by
  intro k r hr
  rw [h k] at hr
  exact hl k r hr

/-- A registry written where it belongs keeps the layout. -/
theorem Stores.layout {key : Pubkey} {r : PasskeyRegistry} (h : Stores d l l' key r)
    (hl : Layout d l) (hkey : key = d.findRegistry r.owner) : Layout d l' := by
  intro k r' hr'
  by_cases hk : k = key
  · subst hk
    rw [h.registryAt_self] at hr'
    rwa [← Option.some.inj hr']
  · rw [h.registryAt_of_ne hk] at hr'
    exact hl k r' hr'

/-- The registry at a wallet's PDA names that wallet. -/
theorem Layout.owner_eq (hl : Layout d l) {r : PasskeyRegistry} (h : registryOf d l w = some r) :
    r.owner = w :=
  (d.registry_inj (hl _ r h)).symm

/-- What other programs do cannot make, change or remove a registry. -/
theorem external_registryAt (h : Ledger.External d.programId l l') (k : Pubkey) :
    registryAt d l' k = registryAt d l k :=
  accountAt_external h ⟨201, by decide, by decide⟩ k

/-- An instruction stores a registry at its owner's address, if it stores one. -/
theorem effect_layout {env : Env} {accounts : List AccountMeta} {ix : GuardInstruction}
    (hl : Layout d l) (h : Effect d env accounts l l' ix) : Layout d l' := by
  cases h with
  | initConfig same => exact same.layout hl
  | updateConfig same => exact same.layout hl
  | registerPasskey w r names valid found empty stores => exact stores.layout hl rfl
  | recoverRegistry w r names valid found stores => exact stores.layout hl rfl
  | addPasskey w r names valid found room verified stores =>
    exact stores.layout hl (hl _ r found)
  | removePasskey w r names found several verified shorter stores =>
    exact stores.layout hl (hl _ r found)
  | recordProof same => exact same ▸ hl
  | enforceFree idle evaluable same => exact same ▸ hl
  | enforceProof w key r names fires found owner_eq verified stores =>
    exact stores.layout hl (hl _ r found)

/-- One step keeps the layout. -/
theorem layout_step (hl : Layout d l) (h : Step d l a l') : Layout d l' := by
  cases h with
  | executed h =>
    obtain ⟨ix, -, heffect⟩ := executed_effect (.executed h)
    exact effect_layout hl heffect
  | rolledBack c => exact hl
  | other h => exact SameRegistries.layout (external_registryAt h) hl

/-- Reachable from before the program's first use. -/
def Reachable (d : Deployment) (l : Ledger) : Prop :=
  ∃ l₀ trace, Ledger.Genesis d.programId l₀ ∧ Run (Step d) l₀ trace l

/-- So it holds in every reachable state. -/
theorem Reachable.layout (h : Reachable d l) : Layout d l := by
  obtain ⟨l₀, trace, hgenesis, hrun⟩ := h
  exact hrun.invariant (fun _ _ _ hl hs => layout_step hl hs) (layout_genesis hgenesis)

/-! ## The key ring of a wallet -/

/-- A registry as a key ring. -/
def PasskeyRegistry.ring (r : PasskeyRegistry) : Keyring.Ring PasskeyEntry :=
  ⟨r.nonce.toNat, r.keys⟩

/-- A verification moves the counter on by one. -/
theorem PasskeyRegistry.ring_consume {r : PasskeyRegistry} (h : r.nonce.toNat + 1 < 2 ^ 64)
    (keys : List PasskeyEntry) :
    PasskeyRegistry.ring { r.consume with keys } = ⟨r.ring.counter + 1, keys⟩ := by
  have hnonce := PasskeyRegistry.toNat_consume_nonce h
  rw [PasskeyRegistry.ring, hnonce, PasskeyRegistry.ring]

/-- The key ring a wallet's registry is. -/
def ringOf (d : Deployment) (w : Pubkey) (l : Ledger) : Option (Keyring.Ring PasskeyEntry) :=
  (registryOf d l w).map PasskeyRegistry.ring

/-- What an instruction does to the ring of the wallet it is about. -/
def GuardInstruction.op (env : Env) : GuardInstruction → Keyring.Op PasskeyEntry
  | .registerPasskey keyKind pubkeyBytes credentialId =>
    .register ⟨keyKind, pubkeyBytes, credentialId⟩
  | .recoverRegistry keyKind pubkeyBytes credentialId =>
    .recover ⟨keyKind, pubkeyBytes, credentialId⟩
  | .addPasskey keyKind pubkeyBytes credentialId => .add ⟨keyKind, pubkeyBytes, credentialId⟩
  | .removePasskey credentialId => .remove (·.credentialId != credentialId)
  | .enforce policy => if policy.fires env then .use else .idle
  | _ => .idle

/-- The wallet a call is about: its second account. -/
def Call.owner? (c : Call) : Option Pubkey := c.accounts[1]?.map AccountMeta.pubkey

/-- The wallet is the second account of the list. -/
theorem Names.second {accounts : List AccountMeta} {key : Pubkey} (h : Names accounts key w) :
    accounts[1]?.map AccountMeta.pubkey = some w := by
  obtain ⟨m, hm, -, rfl⟩ := h.owner
  rw [hm, Option.map_some]

/-- What a step does to the ring of `w`. -/
def opOf (w : Pubkey) : Label → Keyring.Op PasskeyEntry
  | .executed c =>
    if c.owner? = some w then
      match (parseInstruction c.data).result with
      | .ok ix => ix.op c.env
      | .error _ => .idle
    else .idle
  | _ => .idle

/-- A wallet's own call is the operation its instruction is. -/
theorem opOf_executed {c : Call} {ix : GuardInstruction} (hix : c.Is ix)
    (howner : c.owner? = some w) : opOf w (.executed c) = ix.op c.env := by
  unfold Call.Is Returns at hix
  rw [opOf, if_pos howner, hix]

/-- Another wallet's call is none. -/
theorem opOf_other {c : Call} (howner : c.owner? ≠ some w) : opOf w (.executed c) = .idle :=
  if_neg howner

/-- A step that stores the registry of another wallet leaves the ring alone. -/
theorem Stores.ringOf_of_ne {w' : Pubkey} {r : PasskeyRegistry}
    (h : Stores d l l' (d.findRegistry w') r) (hne : w ≠ w') : ringOf d w l' = ringOf d w l := by
  rw [ringOf, ringOf, registryOf, registryOf,
    h.registryAt_of_ne fun heq => hne (d.registry_inj heq)]

/-- A stored registry is the new ring. -/
theorem Stores.ringOf_self {r : PasskeyRegistry} (h : Stores d l l' (d.findRegistry w) r) :
    ringOf d w l' = some r.ring := by
  rw [ringOf, registryOf, h.registryAt_self, Option.map_some]

/-- The ring of a registry that is there. -/
theorem ringOf_of_found {r : PasskeyRegistry} (h : registryOf d l w = some r) :
    ringOf d w l = some r.ring := by
  rw [ringOf, h, Option.map_some]

/-- Nothing else changes it. -/
theorem SameRegistries.ringOf (h : SameRegistries d l l') : ringOf d w l' = ringOf d w l := by
  rw [Guard.ringOf, Guard.ringOf, registryOf, registryOf, h]

/-- The abstract component at the program's own bound. -/
abbrev KeyringStep := @Keyring.Step PasskeyEntry maxKeys

/-- An effect for wallet `w` is the instruction's operation on its ring. -/
theorem effect_refines {env : Env} {accounts : List AccountMeta} {ix : GuardInstruction}
    (hl : Layout d l) (howner : accounts[1]?.map AccountMeta.pubkey = some w)
    (h : Effect d env accounts l l' ix) :
    KeyringStep (ringOf d w l) (ix.op env) (ringOf d w l') := by
  -- the wallet an effect names is the one in the account list
  have hw : ∀ {key w'}, Names accounts key w' → w' = w := fun hnames =>
    Option.some.inj (hnames.second.symm.trans howner)
  cases h with
  | initConfig same =>
    rw [same.ringOf]
    exact .idle _
  | updateConfig same =>
    rw [same.ringOf]
    exact .idle _
  | registerPasskey w' r names valid found empty stores =>
    obtain rfl := hw names
    rw [stores.ringOf_self]
    rcases found with found | ⟨found, rfl⟩
    · have hring : r.ring = ⟨r.nonce.toNat, []⟩ := by rw [PasskeyRegistry.ring, empty]
      rw [ringOf_of_found found, hring]
      exact .registerEmpty _ _
    · rw [ringOf, found]
      exact .registerNew _
  | recoverRegistry w' r names valid found stores =>
    obtain rfl := hw names
    rw [stores.ringOf_self, ringOf_of_found found]
    exact .recover _ _
  | addPasskey w' r names valid found room verified stores =>
    obtain rfl := hw names
    obtain ⟨proof, pix, secpIx, hv⟩ := verified
    rw [stores.ringOf_self, ringOf_of_found found]
    rw [PasskeyRegistry.ring_consume hv.nonce_lt]
    exact .add _ _ room
  | removePasskey w' r names found several verified shorter stores =>
    obtain rfl := hw names
    obtain ⟨proof, pix, secpIx, hv⟩ := verified
    rw [stores.ringOf_self, ringOf_of_found found]
    rw [PasskeyRegistry.ring_consume hv.nonce_lt]
    exact .remove _ _ several shorter
  | recordProof same =>
    rw [same]
    exact .idle _
  | enforceFree idle evaluable same =>
    rw [same, GuardInstruction.op, idle]
    exact .idle _
  | enforceProof w' key r names fires found owner_eq verified stores =>
    obtain rfl := hw names
    obtain ⟨proof, pix, secpIx, hv⟩ := verified
    -- the passed account can only be the wallet's own registry
    have hkey : key = d.findRegistry w' := by rw [hl key r found, owner_eq]
    subst hkey
    have hring : r.consume.ring = ⟨r.ring.counter + 1, r.ring.keys⟩ :=
      PasskeyRegistry.ring_consume hv.nonce_lt r.keys
    rw [stores.ringOf_self, ringOf_of_found found, hring, GuardInstruction.op, if_pos fires]
    exact .use _

/-- An effect for another wallet leaves the ring alone. -/
theorem effect_frame {env : Env} {accounts : List AccountMeta} {ix : GuardInstruction}
    (hl : Layout d l) (howner : accounts[1]?.map AccountMeta.pubkey ≠ some w)
    (h : Effect d env accounts l l' ix) : ringOf d w l' = ringOf d w l := by
  have hw : ∀ {key w'}, Names accounts key w' → w ≠ w' := by
    intro key w' hnames heq
    obtain rfl := heq
    exact howner hnames.second
  cases h with
  | initConfig same => exact same.ringOf
  | updateConfig same => exact same.ringOf
  | registerPasskey w' r names valid found empty stores => exact stores.ringOf_of_ne (hw names)
  | recoverRegistry w' r names valid found stores => exact stores.ringOf_of_ne (hw names)
  | addPasskey w' r names valid found room verified stores =>
    exact stores.ringOf_of_ne (hw names)
  | removePasskey w' r names found several verified shorter stores =>
    exact stores.ringOf_of_ne (hw names)
  | recordProof same => rw [same]
  | enforceFree idle evaluable same => rw [same]
  | enforceProof w' key r names fires found owner_eq verified stores =>
    have hkey : key = d.findRegistry w' := by rw [hl key r found, owner_eq]
    subst hkey
    exact stores.ringOf_of_ne (hw names)

/-- Seen from one wallet, a step of the chain is a step of its key ring. -/
theorem step_refines (hl : Layout d l) (h : Step d l a l') (w : Pubkey) :
    KeyringStep (ringOf d w l) (opOf w a) (ringOf d w l') := by
  cases h with
  | @executed _ c h =>
    obtain ⟨ix, hix, heffect⟩ := executed_effect (.executed h)
    by_cases howner : c.owner? = some w
    · rw [opOf_executed hix howner]
      exact effect_refines hl howner heffect
    · rw [opOf_other howner, effect_frame hl howner heffect]
      exact .idle _
  | rolledBack c => exact .idle _
  | other h =>
    rw [SameRegistries.ringOf (external_registryAt h)]
    exact .idle _

/-- A moment of a run, seen from one wallet. -/
def ringMoment (d : Deployment) (w : Pubkey) (t : Moment) :
    Transition (Option (Keyring.Ring PasskeyEntry)) (Keyring.Op PasskeyEntry) :=
  ⟨ringOf d w t.before, opOf w t.label, ringOf d w t.after⟩

/-- Seen from one wallet, a run of the chain is a run of its key ring. -/
theorem run_refines {trace : List Moment} (hl : Layout d l) (h : Run (Step d) l trace l')
    (w : Pubkey) :
    Run KeyringStep (ringOf d w l) (trace.map (ringMoment d w)) (ringOf d w l') := by
  induction h with
  | nil => exact .nil _
  | cons step _ ih => exact .cons (step_refines hl step w) (ih (layout_step hl step))

/-! ## Verified steps -/

/-- The verification a call runs: over registry `r` of wallet `w`, for a policy
string, on the proof the transaction carries. -/
def Call.Verifies (d : Deployment) (c : Call) (r : PasskeyRegistry) (w : Pubkey) (policy : String)
    (proof : ProofData) (ix secpIx : Instruction) : Prop :=
  Verified c.env.clock c.env.ixSysvar r w d.programId c.env.ixSysvar.currentIndex policy proof ix
    secpIx

/-- The policy string an instruction demands a proof for, if it demands one. -/
def GuardInstruction.requires (env : Env) : GuardInstruction → Option String
  | .addPasskey .. => some policyRequire
  | .removePasskey _ => some policyRequire
  | .enforce policy => if policy.fires env then some policy.domain else none
  | _ => none

/-- The operations that need an authorisation are the instructions that verify a proof. -/
theorem requires_isSome_iff {env : Env} {ix : GuardInstruction} :
    (ix.op env).Authorised ↔ ∃ policy, ix.requires env = some policy := by
  cases ix with
  | enforce policy =>
    rw [GuardInstruction.op, GuardInstruction.requires]
    cases policy.fires env with
    | true => simp [Keyring.Op.Authorised]
    | false => simp [Keyring.Op.Authorised]
  | _ => simp [GuardInstruction.op, GuardInstruction.requires, Keyring.Op.Authorised]

/-- An instruction that demanded a proof was verified, over a registry that is
the signing wallet's by its address or by its owner field. -/
theorem effect_verification {env : Env} {accounts : List AccountMeta} {ix : GuardInstruction}
    {policy : String} (h : Effect d env accounts l l' ix) (hreq : ix.requires env = some policy) :
    ∃ w key r proof pix secpIx, Names accounts key w ∧ registryAt d l key = some r ∧
      (key = d.findRegistry w ∨ r.owner = w) ∧
      Verified env.clock env.ixSysvar r w d.programId env.ixSysvar.currentIndex policy proof pix
        secpIx := by
  cases h with
  | initConfig same => nomatch hreq
  | updateConfig same => nomatch hreq
  | registerPasskey w r names valid found empty stores => nomatch hreq
  | recoverRegistry w r names valid found stores => nomatch hreq
  | recordProof same => nomatch hreq
  | addPasskey w r names valid found room verified stores =>
    obtain ⟨proof, pix, secpIx, hv⟩ := verified
    obtain rfl := Option.some.inj hreq
    exact ⟨w, _, r, proof, pix, secpIx, names, found, Or.inl rfl, hv⟩
  | removePasskey w r names found several verified shorter stores =>
    obtain ⟨proof, pix, secpIx, hv⟩ := verified
    obtain rfl := Option.some.inj hreq
    exact ⟨w, _, r, proof, pix, secpIx, names, found, Or.inl rfl, hv⟩
  | enforceFree idle evaluable same =>
    rw [GuardInstruction.requires, idle] at hreq
    nomatch hreq
  | enforceProof w key r names fires found owner_eq verified stores =>
    obtain ⟨proof, pix, secpIx, hv⟩ := verified
    rw [GuardInstruction.requires, if_pos fires] at hreq
    obtain rfl := Option.some.inj hreq
    exact ⟨w, key, r, proof, pix, secpIx, names, found, Or.inr owner_eq, hv⟩

/-- With every registry in its place it is the wallet's registry. -/
theorem effect_verified {c : Call} {ix : GuardInstruction} {policy : String} (hl : Layout d l)
    (h : Effect d c.env c.accounts l l' ix) (hreq : ix.requires c.env = some policy) :
    ∃ w r proof pix secpIx, c.owner? = some w ∧ registryOf d l w = some r ∧
      c.Verifies d r w policy proof pix secpIx := by
  obtain ⟨w, key, r, proof, pix, secpIx, hnames, hfound, hkey, hv⟩ := effect_verification h hreq
  have hpda : key = d.findRegistry w := hkey.elim id fun howner => by rw [hl key r hfound, howner]
  subst hpda
  exact ⟨w, r, proof, pix, secpIx, hnames.second, hfound, hv⟩

/-- A successful verification for wallet `w`, at one moment of a run. -/
structure Acceptance (d : Deployment) (w : Pubkey) (t : Moment) where
  call : Call
  ix : GuardInstruction
  policy : String
  registry : PasskeyRegistry
  proof : ProofData
  protectedIx : Instruction
  secpIx : Instruction
  label : t.label = .executed call
  carries : call.Is ix
  requires : ix.requires call.env = some policy
  owner : call.owner? = some w
  found : registryOf d t.before w = some registry
  verifies : call.Verifies d registry w policy proof protectedIx secpIx

/-- An accepted proof authorises an operation of the wallet. -/
theorem Acceptance.authorised {t : Moment} (a : Acceptance d w t) :
    (opOf w t.label).Authorised := by
  rw [a.label, opOf_executed a.carries a.owner]
  exact requires_isSome_iff.mpr ⟨a.policy, a.requires⟩

/-- A step is an authorised one of `w` only by a verification. -/
theorem acceptance_of_authorised {t : Moment} (hl : Layout d t.before)
    (h : Step d t.before t.label t.after) (hauth : (opOf w t.label).Authorised) :
    Nonempty (Acceptance d w t) := by
  obtain ⟨l, label, l'⟩ := t
  cases h with
  | @executed _ c h =>
    obtain ⟨ix, hix, heffect⟩ := executed_effect (.executed h)
    have howner : c.owner? = some w := by
      by_contra hne
      rw [opOf_other hne] at hauth
      exact hauth
    rw [opOf_executed hix howner] at hauth
    obtain ⟨policy, hreq⟩ := requires_isSome_iff.mp hauth
    obtain ⟨w', r, proof, pix, secpIx, howner', hfound, hv⟩ := effect_verified hl heffect hreq
    obtain rfl := Option.some.inj (howner.symm.trans howner')
    exact ⟨⟨c, ix, policy, r, proof, pix, secpIx, rfl, hix, hreq, howner, hfound, hv⟩⟩
  | rolledBack c => exact hauth.elim
  | other h => exact hauth.elim

/-- The registry an acceptance found is the ring's state. -/
theorem Acceptance.counter_eq {t : Moment} (a : Acceptance d w t) :
    Keyring.counter (ringOf d w t.before) = a.registry.nonce.toNat := by
  rw [ringOf_of_found a.found]
  rfl

/-- The keys it was checked against are the ring's. -/
theorem Acceptance.keys_eq {t : Moment} (a : Acceptance d w t) :
    Keyring.keys (ringOf d w t.before) = a.registry.keys := by
  rw [ringOf_of_found a.found]
  rfl

/-! ## Recoveries and new keys -/

/-- The step is a successful `register_passkey` of `w`. -/
def Registers (w : Pubkey) (a : Label) : Prop :=
  ∃ c keyKind pubkeyBytes credentialId, a = .executed c ∧ c.owner? = some w ∧
    c.Is (.registerPasskey keyKind pubkeyBytes credentialId)

/-- The step is a successful `recover_registry` of `w`. -/
def Recovers (w : Pubkey) (a : Label) : Prop :=
  ∃ c keyKind pubkeyBytes credentialId, a = .executed c ∧ c.owner? = some w ∧
    c.Is (.recoverRegistry keyKind pubkeyBytes credentialId)

/-- The key an instruction puts into a registry. -/
def GuardInstruction.entersKey : GuardInstruction → Option Bytes
  | .registerPasskey _ pubkeyBytes _ => some pubkeyBytes
  | .recoverRegistry _ pubkeyBytes _ => some pubkeyBytes
  | .addPasskey _ pubkeyBytes _ => some pubkeyBytes
  | _ => none

/-- The step registers, adds or recovers the key `pubkeyBytes` for `w`. -/
def EntersKey (w : Pubkey) (pubkeyBytes : Bytes) (a : Label) : Prop :=
  ∃ c ix, a = .executed c ∧ c.owner? = some w ∧ c.Is ix ∧ ix.entersKey = some pubkeyBytes

/-- An operation comes from a call of the wallet. -/
theorem executed_of_opOf_ne_idle (h : opOf w a ≠ .idle) :
    ∃ c ix, a = .executed c ∧ c.owner? = some w ∧ c.Is ix ∧ opOf w a = ix.op c.env := by
  cases a with
  | executed c =>
    by_cases howner : c.owner? = some w
    · cases hix : (parseInstruction c.data).result with
      | ok ix => exact ⟨c, ix, rfl, howner, hix, opOf_executed hix howner⟩
      | error e =>
        rw [opOf, if_pos howner, hix] at h
        exact absurd rfl h
    · exact absurd (opOf_other howner) h
  | rolledBack c => exact absurd rfl h
  | other => exact absurd rfl h

/-- Only a removal removes. -/
theorem remove_of_op {env : Env} {ix : GuardInstruction} {keep : PasskeyEntry → Bool}
    (h : ix.op env = .remove keep) :
    ∃ credentialId, ix = .removePasskey credentialId ∧ keep = (·.credentialId != credentialId) := by
  cases ix with
  | removePasskey credentialId => exact ⟨credentialId, rfl, (Keyring.Op.remove.inj h).symm⟩
  | enforce policy =>
    rw [GuardInstruction.op] at h
    split at h
    next => nomatch h
    next => nomatch h
  | initConfig registerFee addKeyFee treasury => nomatch h
  | updateConfig registerFee addKeyFee treasury => nomatch h
  | registerPasskey keyKind pubkeyBytes credentialId => nomatch h
  | recoverRegistry keyKind pubkeyBytes credentialId => nomatch h
  | addPasskey keyKind pubkeyBytes credentialId => nomatch h
  | recordProof proof => nomatch h

/-- `register_passkey` enters the first key. -/
theorem opOf_registers (h : Registers w a) :
    ∃ e, opOf w a = .register e := by
  obtain ⟨c, keyKind, pubkeyBytes, credentialId, rfl, howner, hix⟩ := h
  exact ⟨_, opOf_executed hix howner⟩

/-- Only `recover_registry` starts over. -/
theorem recovers_of_isRecover (h : (opOf w a).IsRecover) : Recovers w a := by
  obtain ⟨c, ix, rfl, howner, hix, hop⟩ := executed_of_opOf_ne_idle (w := w) (a := a)
    fun hidle => by rw [hidle] at h; exact h
  rw [hop] at h
  cases ix with
  | recoverRegistry keyKind pubkeyBytes credentialId =>
    exact ⟨c, keyKind, pubkeyBytes, credentialId, rfl, howner, hix⟩
  | enforce policy =>
    rw [GuardInstruction.op] at h
    split at h
    next => exact h.elim
    next => exact h.elim
  | _ => exact h.elim

/-- The entry an instruction puts into a registry. -/
def GuardInstruction.entry : GuardInstruction → Option PasskeyEntry
  | .registerPasskey keyKind pubkeyBytes credentialId => some ⟨keyKind, pubkeyBytes, credentialId⟩
  | .recoverRegistry keyKind pubkeyBytes credentialId => some ⟨keyKind, pubkeyBytes, credentialId⟩
  | .addPasskey keyKind pubkeyBytes credentialId => some ⟨keyKind, pubkeyBytes, credentialId⟩
  | _ => none

/-- An operation enters the entry its instruction carries. -/
theorem GuardInstruction.op_enters_iff {env : Env} {ix : GuardInstruction}
    {p : PasskeyEntry → Prop} : (ix.op env).Enters p ↔ ∃ e, ix.entry = some e ∧ p e := by
  cases ix with
  | enforce policy =>
    rw [GuardInstruction.op]
    split
    next => simp [Keyring.Op.Enters, GuardInstruction.entry]
    next => simp [Keyring.Op.Enters, GuardInstruction.entry]
  | _ => simp [GuardInstruction.op, Keyring.Op.Enters, GuardInstruction.entry]

/-- A step enters an entry with property `p` into the ring of `w` when its
instruction does. -/
theorem opOf_enters_iff {p : PasskeyEntry → Prop} :
    (opOf w a).Enters p ↔ ∃ c ix e, a = .executed c ∧ c.owner? = some w ∧ c.Is ix ∧
      ix.entry = some e ∧ p e := by
  constructor
  · intro h
    obtain ⟨c, ix, rfl, howner, hix, hop⟩ := executed_of_opOf_ne_idle (w := w) (a := a)
      fun hidle => by rw [hidle] at h; exact h
    rw [hop, GuardInstruction.op_enters_iff] at h
    obtain ⟨e, he, hp⟩ := h
    exact ⟨c, ix, e, rfl, howner, hix, he, hp⟩
  · intro h
    obtain ⟨c, ix, e, rfl, howner, hix, he, hp⟩ := h
    rw [opOf_executed hix howner, GuardInstruction.op_enters_iff]
    exact ⟨e, he, hp⟩

/-- A key that enters the ring was an instruction's argument. -/
theorem entersKey_of_enters {pubkeyBytes : Bytes}
    (h : (opOf w a).Enters (·.pubkeyBytes = pubkeyBytes)) : EntersKey w pubkeyBytes a := by
  obtain ⟨c, ix, e, rfl, howner, hix, he, rfl⟩ := opOf_enters_iff.mp h
  refine ⟨c, ix, rfl, howner, hix, ?_⟩
  cases ix with
  | registerPasskey keyKind key credentialId =>
    obtain rfl := Option.some.inj he
    rfl
  | recoverRegistry keyKind key credentialId =>
    obtain rfl := Option.some.inj he
    rfl
  | addPasskey keyKind key credentialId =>
    obtain rfl := Option.some.inj he
    rfl
  | _ => cases he

end Trana.Guard
