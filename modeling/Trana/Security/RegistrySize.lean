import Trana.Guard.Calls
import Trana.Sdk.Transaction

/-!
# How many keys a registry holds

From the first `register_passkey` on a registry holds at most ten keys. It
keeps at least one as long as no `remove_passkey` names a credential id that
every entry has: the check is on the number of entries before the removal, and
one removal takes all entries with the id.

* `spares_iff`, `sized_iff` — the key ring's notions, on the registry.
* `registry_size` — the bounds hold at every later moment exactly when every
  removal spares an entry, and then there is no second `register_passkey`.
* `emptied_registry` — two entries with one id, removed by one call.

A registry is seen as a key ring (`Trana.Lib.Keyring`): a list of entries and a
counter, with the five operations of the program. The induction over a run is
the ring's; what is proved here is that a step of the program is one of its
operations or leaves the ring alone, wallet by wallet.

`add_passkey` compares no credential ids with those already there, so two entries
with one id come about by two ordinary calls. A registry without keys still
belongs to its wallet, which can recover it and cannot register again, since
the account is in use.
-/

namespace Trana.Security

open Trana.Lib Trana.Lib.Exec Trana.Solana Trana.Guard

section Size

variable (d : Guard.Deployment) (w : Pubkey)

/-- The wallet has a registry with one to ten keys. -/
def SizedRegistry (l : Ledger) : Prop :=
  ∃ r, registryOf d l w = some r ∧ 1 ≤ r.keys.length ∧ r.keys.length ≤ maxKeys

/-- If the step is a removal, some entry has another credential id. -/
def SparesKey (t : Moment) : Prop :=
  ∀ c credentialId, t.label = .executed c → c.owner? = some w → c.Is (.removePasskey credentialId) →
    ∃ r, registryOf d t.before w = some r ∧ ∃ e ∈ r.keys, e.credentialId ≠ credentialId

variable {d w} {l : Ledger} {t : Moment}

theorem sized_iff : Keyring.Sized maxKeys (ringOf d w l) ↔ SizedRegistry d w l := by
  constructor
  · intro h
    obtain ⟨ring, hring, hpos, hle⟩ := h
    obtain ⟨r, hr, rfl⟩ := Option.map_eq_some_iff.mp hring
    exact ⟨r, hr, hpos, hle⟩
  · intro hex
    obtain ⟨r, hr, hpos, hle⟩ := hex
    exact ⟨r.ring, ringOf_of_found hr, hpos, hle⟩

/-- A key in the ring is a key in the registry. -/
theorem mem_keys_ringOf {e : PasskeyEntry} (h : e ∈ Keyring.keys (ringOf d w l)) :
    ∃ r, registryOf d l w = some r ∧ e ∈ r.keys := by
  cases hr : registryOf d l w with
  | none =>
    rw [ringOf, hr] at h
    exact absurd h List.not_mem_nil
  | some r =>
    rw [ringOf_of_found hr] at h
    exact ⟨r, rfl, h⟩

theorem spares_iff :
    SparesKey d w t ↔ Keyring.Spares (ringOf d w t.before) (opOf w t.label) := by
  constructor
  · intro h
    -- of the six operations the removal alone can take the last entry
    cases hop : opOf w t.label with
    | remove keep =>
      obtain ⟨c, ix, hlabel, howner, hix, heq⟩ := executed_of_opOf_ne_idle (w := w) (a := t.label)
        (by rw [hop]; nofun)
      obtain ⟨credentialId, rfl, rfl⟩ := remove_of_op (heq.symm.trans hop)
      obtain ⟨r, hr, e, he, hne⟩ := h c credentialId hlabel howner hix
      refine ⟨e, ?_, by simpa using hne⟩
      rw [ringOf_of_found hr]
      exact he
    | register e => trivial
    | recover e => trivial
    | add e => trivial
    | use => trivial
    | idle => trivial
  · intro h c credentialId hlabel howner hix
    rw [hlabel, opOf_executed hix howner] at h
    obtain ⟨e, he, hkeep⟩ := h
    obtain ⟨r, hr, hmem⟩ := mem_keys_ringOf he
    exact ⟨r, hr, e, hmem, by simpa using hkeep⟩

end Size

/-- The size of a registry, from the first registration on. -/
theorem registry_size {d : Guard.Deployment} {w : Pubkey} {l₀ l : Ledger} {pre post : List Moment}
    {t : Moment} (hgenesis : Ledger.Genesis d.programId l₀)
    (hrun : Run (Step d) l₀ (pre ++ t :: post) l) (hreg : Registers w t.label) :
    SizedRegistry d w t.after ∧
    ((∀ v ∈ post, SparesKey d w v) ↔ ∀ v ∈ post, SizedRegistry d w v.after) ∧
    ((∀ v ∈ post, SparesKey d w v) →
      SizedRegistry d w l ∧ ∀ v ∈ post, ¬Registers w v.label) := by
  have hten : 1 ≤ maxKeys := by decide
  obtain ⟨hbefore, hstep, hafter⟩ := hrun.split
  have hl := hbefore.invariant (fun _ _ _ hl hs => layout_step hl hs) (layout_genesis hgenesis)
  have hring := run_refines (layout_step hl hstep) hafter w
  obtain ⟨e, hop⟩ := opOf_registers hreg
  -- the rest is the ring's: its run starts with one entry
  have hfirst : Keyring.Sized maxKeys (ringOf d w t.after) := by
    have hs := step_refines hl hstep w
    rw [hop] at hs
    exact Keyring.sized_register hten hs
  have hspares : (∀ v ∈ post, SparesKey d w v) →
      ∀ m ∈ post.map (ringMoment d w), Keyring.Spares m.before m.label := by
    intro h m hm
    obtain ⟨v, hv, rfl⟩ := List.mem_map.mp hm
    exact spares_iff.mp (h v hv)
  refine ⟨sized_iff.mp hfirst, ⟨fun h v hv => ?_, fun h v hv => ?_⟩, fun h => ⟨?_, ?_⟩⟩
  · have hmem : ringMoment d w v ∈ post.map (ringMoment d w) := List.mem_map_of_mem hv
    exact sized_iff.mp ((Keyring.sized_run hten hring hfirst (hspares h)).2 _ hmem).2
  · have hmem : ringMoment d w v ∈ post.map (ringMoment d w) := List.mem_map_of_mem hv
    exact spares_iff.mpr
      (Keyring.spares_of_live (hring.step _ hmem) (sized_iff.mpr (h v hv)).live)
  · exact sized_iff.mp (Keyring.sized_run hten hring hfirst (hspares h)).1
  · intro v hv hagain
    obtain ⟨e', hop'⟩ := opOf_registers hagain
    have hmem : ringMoment d w v ∈ post.map (ringMoment d w) := List.mem_map_of_mem hv
    refine Keyring.register_once hten hring hfirst (hspares h) _ hmem ?_
    rw [ringMoment, hop']
    trivial

/-! ### Two entries, one credential id -/

section Localnet

open Sdk Sdk.Localnet

/-- The instruction that adds `e`, and the one that removes credential `[1]`. -/
def addIx (e : PasskeyEntry) : Instruction := addPasskeyIx e.pubkeyBytes e.credentialId

def removeFirstIx : Instruction := removePasskeyIx [1]

/-- The passkey's approval of the removal, at nonce one. -/
def removeApproval : Assertion :=
  assertion
    [113, 152, 80, 95, 48, 42, 25, 97, 191, 230, 100, 172, 103, 148, 227, 176, 86, 195, 13,
     91, 27, 228, 175, 169, 184, 0, 159, 231, 113, 232, 249, 69, 1, 32, 133, 188, 225, 7, 191,
     193, 250, 160, 36, 164, 120, 33, 45, 234, 2, 44, 69, 9, 136, 62, 123, 192, 242, 150, 203,
     186, 176, 233, 66, 186] (by decide)

theorem removeFirst_is : (provenCall removeApproval removeFirstIx 1).Is (.removePasskey [1]) := by
  show (parseInstruction removeFirstIx.data).Returns _
  decide

/-- Add `e`, then remove credential `[1]`, each with the passkey's approval. -/
def addAndRemove (a : Assertion) (e : PasskeyEntry) (l₁ l₂ : Ledger) : List Moment :=
  [⟨registered, .executed (provenCall a (addIx e) 0), l₁⟩,
    ⟨l₁, .executed (provenCall removeApproval removeFirstIx 1), l₂⟩]

theorem addAndRemove_run {a : Assertion} {e : PasskeyEntry} (hkey : a.pubkey = passkey)
    (hvalid : ValidKeyInputs e.pubkeyBytes e.credentialId)
    (hix : (provenCall a (addIx e) 0).Is
      (.addPasskey e.keyKind e.pubkeyBytes e.credentialId)) :
    ∃ l₁ l₂, Run (Step deployment) registered (addAndRemove a e l₁ l₂) l₂ ∧
      Holds deployment l₁ wallet ⟨wallet, 1, [entry, e]⟩ ∧
      Holds deployment l₂ wallet ⟨wallet, 2, [entry, e].filter (·.credentialId != [1])⟩ := by
  have hentry : ValidKeyInputs entry.pubkeyBytes entry.credentialId := ⟨by decide, by decide⟩
  have hfirst : AllValid (registry 0).keys := by
    intro k hk
    rwa [List.mem_singleton.mp hk]
  have hboth : AllValid [entry, e] := by
    intro k hk
    rcases List.mem_cons.mp hk with rfl | hk
    · exact hentry
    · rwa [List.mem_singleton.mp hk]
  have hdata : 8 ≤ (addIx e).data.length := by
    rw [addIx, addPasskeyIx, List.length_append]
    exact Nat.le_add_right 8 _
  obtain ⟨l₁, hstep₁, hstores₁⟩ := step_addPasskey holds_registered holdsConfig_registered hfirst
    rfl hix rfl hvalid (by decide)
    (provenCall_verifies rfl (by decide) hdata ⟨entry, List.mem_singleton_self _, hkey.symm⟩)
  have hh₁ : Holds deployment l₁ wallet ⟨wallet, 1, [entry, e]⟩ :=
    hstores₁.holds holds_registered rfl
  have hlen : 8 ≤ removeFirstIx.data.length := by decide
  have hlt : (1 : UInt64).toNat + 1 < 2 ^ 64 := by decide
  have hshorter : ([entry, e].filter (·.credentialId != [1])).length < [entry, e].length := by
    have hrest := List.length_filter_le (fun k : PasskeyEntry => k.credentialId != [1]) [e]
    have hdrop : [entry, e].filter (·.credentialId != [1]) =
        [e].filter (·.credentialId != [1]) := rfl
    rw [hdrop, List.length_cons]
    omega
  -- the removal is approved by the very key that goes
  obtain ⟨l₂, hstep₂, hstores₂⟩ := step_removePasskey hh₁ hboth (by simp [maxKeys]) removeFirst_is
    rfl (by simp) hshorter
    (provenCall_verifies rfl hlt hlen ⟨entry, List.mem_cons_self .., rfl⟩)
  exact ⟨l₁, l₂, .cons hstep₁ (.cons hstep₂ (.nil _)), hh₁, hstores₂.holds hh₁ rfl⟩

/-- A second passkey that claims the first one's credential id. -/
def twinEntry : PasskeyEntry where
  keyKind := .secp256r1Passkey
  pubkeyBytes :=
    [2, 3, 100, 106, 198, 129, 29, 117, 3, 94, 26, 242, 84, 148, 82, 141, 145, 223, 9, 255, 247,
     16, 26, 185, 137, 203, 45, 106, 93, 168, 239, 92, 20]
  credentialId := [1]

def twinApproval : Assertion :=
  assertion
    [133, 207, 149, 87, 178, 230, 30, 75, 244, 7, 161, 250, 60, 133, 48, 183, 20, 115, 163,
     172, 112, 58, 228, 13, 57, 105, 15, 164, 207, 58, 38, 23, 127, 119, 228, 5, 17, 213, 16,
     107, 211, 37, 233, 96, 117, 10, 138, 164, 228, 101, 165, 43, 116, 39, 193, 122, 96, 12,
     74, 207, 191, 113, 222, 88] (by decide)

theorem addTwin_is : (provenCall twinApproval (addIx twinEntry) 0).Is
    (.addPasskey twinEntry.keyKind twinEntry.pubkeyBytes twinEntry.credentialId) := by
  show (parseInstruction (addIx twinEntry).data).Returns _
  decide

theorem registers_setup :
    Registers wallet (.executed (call [registerPasskeyIx] 0 registerPasskeyIx)) := by
  refine ⟨_, .secp256r1Passkey, passkey, [1], rfl, rfl, ?_⟩
  show (parseInstruction registerPasskeyIx.data).Returns _
  decide

/-- What the bounds come to on the run that adds the twin and removes it. -/
theorem registry_size_twin : ∃ (t₂ : Moment) (l₁ l₂ : Ledger),
    SizedRegistry deployment wallet t₂.after ∧
    ((∀ v ∈ addAndRemove twinApproval twinEntry l₁ l₂, SparesKey deployment wallet v) ↔
      ∀ v ∈ addAndRemove twinApproval twinEntry l₁ l₂,
        SizedRegistry deployment wallet v.after) ∧
    ((∀ v ∈ addAndRemove twinApproval twinEntry l₁ l₂, SparesKey deployment wallet v) →
      SizedRegistry deployment wallet l₂ ∧
        ∀ v ∈ addAndRemove twinApproval twinEntry l₁ l₂, ¬Registers wallet v.label) := by
  obtain ⟨l₁, l₂, hcalls, -⟩ :=
    addAndRemove_run (a := twinApproval) rfl ⟨by decide, by decide⟩ addTwin_is
  obtain ⟨t₁, t₂, hlabel, hrun⟩ := run_registered hcalls
  have hreg : Registers wallet t₂.label := by
    rw [hlabel]
    exact registers_setup
  have hrun' : Run (Step deployment) genesis
      ([t₁] ++ t₂ :: addAndRemove twinApproval twinEntry l₁ l₂) l₂ := hrun
  exact ⟨t₂, l₁, l₂, registry_size genesis_genesis hrun' hreg⟩

/-- One removal, approved by a registered passkey, empties the registry. -/
theorem emptied_registry : ∃ (t₁ t₂ : Moment) (l₁ l₂ : Ledger),
    Run (Step deployment) genesis
      ([t₁] ++ t₂ :: addAndRemove twinApproval twinEntry l₁ l₂) l₂ ∧
    Registers wallet t₂.label ∧
    Secp256r1.Accepted (twinApproval.curve (challenge policyRequire (addIx twinEntry) 0))
      (proven twinApproval policyRequire (addIx twinEntry) 0) ∧
    Secp256r1.Accepted (removeApproval.curve (challenge policyRequire removeFirstIx 1))
      (proven removeApproval policyRequire removeFirstIx 1) ∧
    registryOf deployment l₁ wallet = some ⟨wallet, 1, [entry, twinEntry]⟩ ∧
    registryOf deployment l₂ wallet = some ⟨wallet, 2, []⟩ ∧
    ¬SizedRegistry deployment wallet l₂ := by
  obtain ⟨l₁, l₂, hcalls, hh₁, hh₂⟩ :=
    addAndRemove_run (a := twinApproval) rfl ⟨by decide, by decide⟩ addTwin_is
  obtain ⟨t₁, t₂, hlabel, hrun⟩ := run_registered hcalls
  have hempty : registryOf deployment l₂ wallet = some ⟨wallet, 2, []⟩ := hh₂.found
  refine ⟨t₁, t₂, l₁, l₂, hrun, ?_, accepted_proven (by decide), accepted_proven (by decide),
    hh₁.found, hempty, ?_⟩
  · rw [hlabel]
    exact registers_setup
  · intro h
    obtain ⟨r, hr, hpos, -⟩ := h
    obtain rfl := Option.some.inj (hempty.symm.trans hr)
    exact absurd hpos (by decide)

end Localnet

end Trana.Security
