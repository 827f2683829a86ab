import Trana.Guard.Fees
import Trana.Sdk.Transaction

/-!
# Who sets the fees, and what they bring in

The config is initialised once in the life of the program, by a party that
signed; from then on the same party alone sets fees and treasury. While it does
not, the treasury takes in the register fee for every registration and the
add-key fee for every added key, and nothing else.

* `config_governed` — the config along a run.
* `treasury_revenue` — the treasury between two changes of the config.

The run is seen through `configOps`: each step initialises the config, updates
it or leaves it, read off the call and its success. The first result is that
these form one initialisation and updates by its signer, and that the config
stored is the last of them; from a ledger before the program's first use it
needs no assumption, reserved addresses included.

Who comes first is not settled by the program: any signer may initialise the
config, and stays its authority for good, as there is no instruction to hand it
on. The treasury may be any account, also the authority's own.

For the second result the treasury must not pay itself: `Collects` excludes
calls by the treasury's wallet and a registry at its address, and asks of other
programs that they leave its lamports alone.
-/

namespace Trana.Security

open Trana.Lib Trana.Lib.Exec Trana.Solana Trana.Guard

/-! ## Governance -/

/-- What the steps of a run do to the config. -/
def configOps (trace : List Guard.Moment) : List (Owned.Op Pubkey Terms) :=
  trace.map fun t => configOp t.label

section Governance

variable {d : Guard.Deployment} {l l' : Ledger} {trace : List Guard.Moment}

theorem config_run (h : Run (Guard.Step d) l trace l') :
    Run Owned.Step (governed (configOf d l))
      (trace.map (Transition.map (fun l => governed (configOf d l)) configOp))
      (governed (configOf d l')) :=
  h.simulate (f := fun l => governed (configOf d l)) fun t ht => config_step (h.step t ht)

end Governance

/-- Along any run from before the program's first use the config is a value with
an owner. When there is one at the end, the run initialised it once, every
other change was by the same party, all of them signed, and the terms are those
of the last change. -/
theorem config_governed {d : Guard.Deployment} {l₀ l : Ledger} {trace : List Guard.Moment}
    (hgenesis : Ledger.Genesis d.programId l₀) (hrun : Run (Guard.Step d) l₀ trace l) :
    (configOf d l = none → ∀ a ∈ configOps trace, a = .idle) ∧
    (∀ cfg, configOf d l = some cfg → ∃ pre post terms,
      configOps trace = pre ++ .init cfg.authority terms :: post ∧ (∀ a ∈ pre, a = .idle) ∧
      (∀ a ∈ post, a = .idle ∨ ∃ terms', a = .update cfg.authority terms') ∧
      ((∀ a ∈ post, a = .idle) ∧ terms = cfg.terms ∨
        ∃ mid rest, post = mid ++ .update cfg.authority cfg.terms :: rest ∧
          ∀ a ∈ rest, a = .idle)) ∧
    ∀ t ∈ trace, ∀ w terms, configOp t.label = .init w terms ∨ configOp t.label = .update w terms →
      SignedBy w t.label := by
  -- seen as an owned cell, the config's run is that of `Trana.Lib.Owned`
  have hcell := config_run hrun
  rw [configOf_genesis hgenesis] at hcell
  have hops : (trace.map (Transition.map (fun l => governed (configOf d l)) configOp)).map
      Transition.label = configOps trace := by
    rw [List.map_map]
    rfl
  refine ⟨fun hnone => ?_, fun cfg hcfg => ?_, fun t ht w terms hop =>
    signed_config (hrun.step t ht) hop⟩
  · rw [hnone] at hcell
    rw [← hops]
    exact Owned.unowned_run hcell
  · rw [hcfg] at hcell
    obtain ⟨pre, post, terms, heq, hpre, hpost, hlast⟩ := Owned.history hcell
    rw [hops] at heq
    refine ⟨pre, post, terms, heq, hpre, hpost, ?_⟩
    rcases hlast with ⟨hidle, hterms⟩ | hlast
    · exact Or.inl ⟨hidle, hterms.symm⟩
    · exact Or.inr hlast

/-! ## Revenue -/

/-- The label is a successful `register_passkey`. -/
def registers : Guard.Label → Bool
  | .executed c =>
    match (parseInstruction c.data).result with
    | .ok (.registerPasskey _ _ _) => true
    | _ => false
  | .rolledBack _ => false
  | .other => false

/-- The label is a successful `add_passkey`. -/
def adds : Guard.Label → Bool
  | .executed c =>
    match (parseInstruction c.data).result with
    | .ok (.addPasskey _ _ _) => true
    | _ => false
  | .rolledBack _ => false
  | .other => false

/-- The calls neither come from the treasury's own wallet nor create a registry
at its address, and other programs leave its lamports alone. -/
structure Collects (d : Guard.Deployment) (treasury : Pubkey) (t : Guard.Moment) : Prop where
  payers : ∀ c w, t.label = .executed c → c.owner? = some w →
    w ≠ treasury ∧ d.findRegistry w ≠ treasury
  others : t.label = .other → (t.after treasury).lamports = (t.before treasury).lamports

section Revenue

variable {d : Guard.Deployment} {l l' : Ledger} {t : Guard.Moment} {cfg : TranaConfig}

theorem configOf_of_idle (h : Guard.Step d t.before t.label t.after)
    (hidle : configOp t.label = .idle) (hcfg : configOf d t.before = some cfg) :
    configOf d t.after = some cfg := by
  have hcell := config_step h
  rw [hidle, hcfg] at hcell
  rcases Owned.step_owned hcell with ⟨-, hafter⟩ | ⟨terms, hop, -⟩
  · exact governed_inj hafter
  · cases hop

theorem registers_executed {c : Guard.Call} {ix : GuardInstruction} (hix : c.Is ix) :
    registers (.executed c) = match ix with | .registerPasskey _ _ _ => true | _ => false := by
  unfold Call.Is Returns at hix
  rw [registers, hix]
  cases ix <;> rfl

theorem adds_executed {c : Guard.Call} {ix : GuardInstruction} (hix : c.Is ix) :
    adds (.executed c) = match ix with | .addPasskey _ _ _ => true | _ => false := by
  unfold Call.Is Returns at hix
  rw [adds, hix]
  cases ix <;> rfl

/-- A step brings the treasury its fee. -/
def feeOf (cfg : TranaConfig) (a : Guard.Label) : ℕ :=
  (if registers a then cfg.registerFee.toNat else 0) + (if adds a then cfg.addKeyFee.toNat else 0)

/-- What an instruction other than `init_config` pays, seen from the treasury. -/
theorem payments_treasury {env : Env} {w : Pubkey} {ix : GuardInstruction}
    (hcfg : configOf d l = some cfg) (hw : w ≠ cfg.treasury)
    (hregistry : d.findRegistry w ≠ cfg.treasury) (hset : ¬ix.SetsConfig) {c : Guard.Call}
    (hix : c.Is ix) :
    Payment.paid cfg.treasury (ix.payments d env l w) = 0 ∧
      Payment.received cfg.treasury (ix.payments d env l w) = feeOf cfg (.executed c) := by
  rw [feeOf, registers_executed hix, adds_executed hix]
  cases ix with
  | initConfig registerFee addKeyFee treasury => exact absurd trivial hset
  | registerPasskey keyKind pubkeyBytes credentialId =>
    simp [GuardInstruction.payments, feePayment_eq hcfg, hw, hregistry]
  | addPasskey keyKind pubkeyBytes credentialId =>
    simp [GuardInstruction.payments, feePayment_eq hcfg, hw]
  | _ => simp [GuardInstruction.payments]

/-- An instruction that sets the config is no idle step. -/
theorem not_setsConfig {c : Guard.Call} {ix : GuardInstruction}
    (h : (execute d c.env c.accounts ix l).Returns l') (hix : c.Is ix)
    (hidle : configOp (.executed c) = .idle) : ¬ix.SetsConfig := by
  intro hsets
  cases ix with
  | initConfig registerFee addKeyFee treasury =>
    obtain ⟨config, authority, rest, haccounts, -⟩ := initConfig_config h
    rw [configOp_executed hix (Call.owner_cons haccounts)] at hidle
    cases hidle
  | updateConfig registerFee addKeyFee treasury =>
    obtain ⟨config, authority, rest, cfg, haccounts, -⟩ := updateConfig_config h
    rw [configOp_executed hix (Call.owner_cons haccounts)] at hidle
    cases hidle
  | _ => exact hsets

theorem revenue_step (h : Guard.Step d t.before t.label t.after)
    (hidle : configOp t.label = .idle) (hcfg : configOf d t.before = some cfg)
    (hcollects : Collects d cfg.treasury t) :
    lamportsOf t.after cfg.treasury = lamportsOf t.before cfg.treasury + feeOf cfg t.label := by
  obtain ⟨l, label, l'⟩ := t
  cases h with
  | rolledBack c => rfl
  | other h => exact congrArg UInt64.toNat (hcollects.others rfl)
  | @executed _ c h =>
    obtain ⟨ix, hix, hrun⟩ := returns_bind.mp h
    have hset := not_setsConfig hrun hix hidle
    rcases execute_settles hrun with ⟨hsame, hnone⟩ | ⟨w, m, hm, -, rfl, hsettles, -⟩
    · -- nothing was paid, so no fee was due
      have hfee : feeOf cfg (.executed c) = 0 := by
        rw [feeOf, registers_executed hix, adds_executed hix]
        cases ix with
        | registerPasskey keyKind pubkeyBytes credentialId => cases hnone cfg.treasury
        | addPasskey keyKind pubkeyBytes credentialId =>
          have := hnone cfg.treasury
          rw [GuardInstruction.payments, feePayment_eq hcfg] at this
          cases this
        | _ => rfl
      rw [hfee]
      exact congrFun hsame _
    · have howner : c.owner? = some m.pubkey := by
        rw [Call.owner?, hm]
        rfl
      -- the payer is not the treasury, nor is the new registry, so the fee arrives whole
      obtain ⟨hw, hregistry⟩ := hcollects.payers c _ rfl howner
      obtain ⟨hpaid, hreceived⟩ := payments_treasury hcfg hw hregistry hset hix
      have hbook := hsettles cfg.treasury
      rwa [hpaid, hreceived] at hbook

theorem revenue_run {trace : List Guard.Moment} (hrun : Run (Guard.Step d) l trace l')
    (hcfg : configOf d l = some cfg) (hidle : ∀ t ∈ trace, configOp t.label = .idle)
    (hcollects : ∀ t ∈ trace, Collects d cfg.treasury t) :
    configOf d l' = some cfg ∧ lamportsOf l' cfg.treasury =
      lamportsOf l cfg.treasury + (trace.map fun t => feeOf cfg t.label).sum := by
  induction hrun with
  | nil l => exact ⟨hcfg, rfl⟩
  | @cons l l₁ l' a trace step rest ih =>
    obtain ⟨hidle₁, hidles⟩ := List.forall_mem_cons.mp hidle
    obtain ⟨hcollects₁, hcollectss⟩ := List.forall_mem_cons.mp hcollects
    have hone := revenue_step (t := ⟨l, a, l₁⟩) step hidle₁ hcfg hcollects₁
    have hcfg₁ := configOf_of_idle (t := ⟨l, a, l₁⟩) step hidle₁ hcfg
    obtain ⟨hkept, hrest⟩ := ih hcfg₁ hidles hcollectss
    refine ⟨hkept, ?_⟩
    rw [List.map_cons, List.sum_cons, hrest]
    dsimp only at hone ⊢
    omega

theorem sum_feeOf (cfg : TranaConfig) (trace : List Guard.Moment) :
    (trace.map fun t => feeOf cfg t.label).sum =
      cfg.registerFee.toNat * trace.countP (fun t => registers t.label) +
        cfg.addKeyFee.toNat * trace.countP (fun t => adds t.label) := by
  induction trace with
  | nil => rfl
  | cons t trace ih =>
    rw [List.map_cons, List.sum_cons, ih, feeOf, List.countP_cons, List.countP_cons, Nat.mul_add,
      Nat.mul_add]
    split <;> split <;> omega

end Revenue

/-- While nobody changes the config, the treasury takes in exactly the register
fee for each registration and the add-key fee for each added key. -/
theorem treasury_revenue {d : Guard.Deployment} {l l' : Ledger} {trace : List Guard.Moment}
    {cfg : TranaConfig} (hrun : Run (Guard.Step d) l trace l') (hcfg : configOf d l = some cfg)
    (hidle : ∀ a ∈ configOps trace, a = .idle)
    (hcollects : ∀ t ∈ trace, Collects d cfg.treasury t) :
    configOf d l' = some cfg ∧
    lamportsOf l' cfg.treasury = lamportsOf l cfg.treasury +
      (cfg.registerFee.toNat * trace.countP (fun t => registers t.label) +
        cfg.addKeyFee.toNat * trace.countP (fun t => adds t.label)) := by
  have hidle' : ∀ t ∈ trace, configOp t.label = .idle := fun t ht =>
    hidle _ (List.mem_map_of_mem ht)
  obtain ⟨hkept, hrevenue⟩ := revenue_run hrun hcfg hidle' hcollects
  exact ⟨hkept, by rw [hrevenue, sum_feeOf]⟩

section Localnet

open Sdk.Localnet

/-- The wallet sets up a config with fees. -/
def feeConfigIx : Instruction :=
  { initConfigIx with
    data := initConfigDisc ++ leBytes 8 5000000 ++ leBytes 8 3000000 ++ treasury.bytes }

def feeConfig : TranaConfig := ⟨wallet, treasury, 5000000, 3000000⟩

def feeConfigCall : Guard.Call := call [feeConfigIx] 0 feeConfigIx

def registerCall : Guard.Call := call [registerPasskeyIx] 0 registerPasskeyIx

/-- The config, then a registration. -/
theorem run_fees : ∃ l₁ l₂, Guard.Step deployment genesis (.executed feeConfigCall) l₁ ∧
    Guard.Step deployment l₁ (.executed registerCall) l₂ ∧
    configOf deployment l₁ = some feeConfig := by
  have hsome : ((process deployment feeConfigCall.env feeConfigCall.accounts feeConfigCall.data
      genesis).result.toOption.bind fun l₁ =>
      if configOf deployment l₁ = some feeConfig then
        (process deployment registerCall.env registerCall.accounts registerCall.data
          l₁).result.toOption
      else none).isSome = true := by decide +kernel
  obtain ⟨l₂, h⟩ := Option.isSome_iff_exists.mp hsome
  obtain ⟨l₁, h₁, h₂⟩ := Option.bind_eq_some_iff.mp h
  split at h₂
  next hcfg =>
    exact ⟨l₁, l₂, .executed (toOption_eq_some.mp h₁), .executed (toOption_eq_some.mp h₂), hcfg⟩
  next => cases h₂

theorem configOp_registerCall : configOp (.executed registerCall) = .idle := by decide +kernel

/-- The party that initialised the config is the one it names. -/
theorem config_governed_localnet : ∃ (trace : List Guard.Moment) (l : Ledger),
    Run (Guard.Step deployment) genesis trace l ∧ configOf deployment l = some feeConfig ∧
    ∃ pre post terms, configOps trace = pre ++ .init wallet terms :: post := by
  obtain ⟨l₁, l₂, h₁, h₂, hcfg⟩ := run_fees
  have hrun := Run.cons h₁ (Run.cons h₂ (Run.nil l₂))
  have hcfg₂ : configOf deployment l₂ = some feeConfig :=
    configOf_of_idle (t := ⟨l₁, _, l₂⟩) h₂ configOp_registerCall hcfg
  obtain ⟨-, hhistory, -⟩ := config_governed genesis_genesis hrun
  obtain ⟨pre, post, terms, heq, -⟩ := hhistory feeConfig hcfg₂
  exact ⟨_, l₂, hrun, hcfg₂, pre, post, terms, heq⟩

/-- One registration brings the treasury five million lamports. -/
theorem treasury_revenue_localnet : ∃ (trace : List Guard.Moment) (l l' : Ledger),
    Run (Guard.Step deployment) l trace l' ∧
    lamportsOf l' treasury = lamportsOf l treasury + 5000000 := by
  obtain ⟨l₁, l₂, -, h₂, hcfg⟩ := run_fees
  have hrun := Run.cons h₂ (Run.nil l₂)
  have hcollects : Collects deployment feeConfig.treasury ⟨l₁, .executed registerCall, l₂⟩ := by
    refine ⟨fun c w hc howner => ?_, fun h => by cases h⟩
    obtain rfl := Guard.Label.executed.inj hc
    obtain rfl : wallet = w := Option.some.inj howner
    rw [findRegistry_wallet]
    decide
  obtain ⟨-, hrevenue⟩ := treasury_revenue hrun hcfg
    (fun a ha => by rw [List.mem_singleton.mp ha]; exact configOp_registerCall)
    (fun t ht => by rw [List.mem_singleton.mp ht]; exact hcollects)
  refine ⟨_, l₁, l₂, hrun, hrevenue.trans ?_⟩
  have hone : registers (.executed registerCall) = true := by decide +kernel
  have hnone : adds (.executed registerCall) = false := by decide +kernel
  rw [List.countP_cons, List.countP_nil, List.countP_cons, List.countP_nil, hone, hnone]
  rfl

end Localnet

end Trana.Security
