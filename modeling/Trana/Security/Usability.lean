import Trana.Security.RegistrySize

/-!
# Which stored passkeys can authorise anything

The guard compares a stored key with the 33 bytes it reads from the precompile
instruction, and the precompile verifies P-256. So an entry is usable exactly
when its key has 33 bytes and its kind is the passkey one. The three entry
points only bound the length from above and never look at the kind.

* `usable_iff` — what usable comes to.
* `registries_usable` — every registry holds usable keys only, and at least
  one, at every moment of a run exactly when every entered key has 33 bytes and
  the verified kind, and every removal spares an entry.
* `unusable_registered` — a first registration with an empty key.

Usable is said of the bytes and the kind, as the guard and the precompile take
them; whether 33 bytes are a point of the curve and whether somebody has the
private key is not for the program to know. The kind is stored and never read,
and the other one it can name, Ed25519, is verified nowhere.

The condition is on the calls of the run, each by itself, and on the registry a
removal finds. A wallet whose registry fails it can recover with a key that is
usable; until then guarded instructions with a policy that fires are closed.
-/

namespace Trana.Security

open Trana.Lib Trana.Lib.Exec Trana.Solana Trana.Guard

/-! ## Usable entries -/

/-- Some precompile instruction lets the known-key check succeed by this entry,
whose kind is the curve that was verified. -/
def Usable (e : PasskeyEntry) : Prop :=
  e.keyKind = .secp256r1Passkey ∧ ∃ secpIx : Instruction, secpIx.programId = Secp256r1.programId ∧
    SecpHeader secpIx.data ∧ e.pubkeyBytes = ownKey secpIx.data

/-- The guard reads 33 bytes as the key. -/
theorem length_ownKey {data : Bytes} (h : SecpHeader data) : (ownKey data).length = 33 := by
  have hkey := h.key_in
  rw [ownKey, List.length_take, List.length_drop]
  omega

theorem usable_iff {e : PasskeyEntry} :
    Usable e ↔ e.keyKind = .secp256r1Passkey ∧ e.pubkeyBytes.length = 33 := by
  constructor
  · intro h
    obtain ⟨hkind, secpIx, -, hheader, hkey⟩ := h
    exact ⟨hkind, by rw [hkey, length_ownKey hheader]⟩
  · intro h
    obtain ⟨hkind, hlen⟩ := h
    -- the message does not matter here
    have hpos : 0 < ([0] : Bytes).length := Nat.one_pos
    obtain ⟨hheader, hkey, -⟩ := Sdk.secpHeader_unsigned hlen hpos (by decide)
    exact ⟨hkind, Sdk.unsignedSecpIx e.pubkeyBytes [0], rfl, hheader, hkey.symm⟩

instance (e : PasskeyEntry) : Decidable (Usable e) := decidable_of_iff _ usable_iff.symm

/-! ## Along a run -/

section Run

variable {d : Guard.Deployment} {l l' : Ledger} {w : Pubkey} {t : Moment}

/-- Every registry holds usable keys only, and one at least. -/
def RegistriesUsable (d : Guard.Deployment) (l : Ledger) : Prop :=
  ∀ w r, registryOf d l w = some r → (∀ e ∈ r.keys, Usable e) ∧ ∃ e ∈ r.keys, Usable e

/-- The step enters keys of 33 bytes and the passkey kind only, and removes not
every entry of a registry. -/
structure KeepsUsable (d : Guard.Deployment) (t : Moment) : Prop where
  enters : ∀ c ix e, t.label = .executed c → c.Is ix → ix.entry = some e →
    e.keyKind = .secp256r1Passkey ∧ e.pubkeyBytes.length = 33
  spares : ∀ w, SparesKey d w t

/-- In terms of the wallets' rings. -/
theorem registriesUsable_iff :
    RegistriesUsable d l ↔
      ∀ w, Keyring.Avoids (¬Usable ·) (ringOf d w l) ∧ Keyring.Live (ringOf d w l) := by
  constructor
  · intro h w
    cases hr : registryOf d l w with
    -- a wallet without a registry has nothing to be usable
    | none =>
      have hring : ringOf d w l = none := by rw [ringOf, hr, Option.map_none]
      rw [hring]
      exact ⟨Keyring.avoids_none, Keyring.live_none⟩
    | some r =>
      obtain ⟨hall, e, he, -⟩ := h w r hr
      rw [ringOf_of_found hr]
      refine ⟨fun e he => not_not.mpr (hall e he), fun r' hr' => ?_⟩
      obtain rfl := Option.some.inj hr'
      exact List.ne_nil_of_mem he
  · intro h w r hr
    obtain ⟨havoids, hlive⟩ := h w
    rw [ringOf_of_found hr] at havoids hlive
    have hall : ∀ e ∈ r.keys, Usable e := fun e he => not_not.mp (havoids e he)
    obtain ⟨e, he⟩ := List.exists_mem_of_ne_nil _ (hlive _ rfl)
    exact ⟨hall, e, he, hall e he⟩

/-- An instruction that enters a key is about some wallet. -/
theorem owner_of_entry {c : Call} {ix : GuardInstruction} {e : PasskeyEntry}
    (h : Step d l (.executed c) l') (hix : c.Is ix) (he : ix.entry = some e) :
    ∃ w, c.owner? = some w := by
  obtain ⟨ix', hix', heffect⟩ := executed_effect h
  obtain rfl := hix.unique hix'
  cases heffect with
  | registerPasskey w r names valid found empty stores => exact ⟨w, names.second⟩
  | recoverRegistry w r names valid found stores => exact ⟨w, names.second⟩
  | addPasskey w r names valid found room verified stores => exact ⟨w, names.second⟩
  | initConfig same => cases he
  | updateConfig same => cases he
  | removePasskey w r names found several verified shorter stores => cases he
  | recordProof same => cases he
  | enforceFree idle evaluable same => cases he
  | enforceProof w key r names fires found owner_eq verified stores => cases he

/-- The condition on a step, in terms of the wallets' rings. -/
theorem keepsUsable_iff (h : Step d t.before t.label t.after) :
    KeepsUsable d t ↔ ∀ w, ¬(opOf w t.label).Enters (¬Usable ·) ∧
      Keyring.Spares (ringOf d w t.before) (opOf w t.label) := by
  constructor
  · intro hkeeps w
    refine ⟨fun henters => ?_, spares_iff.mp (hkeeps.spares w)⟩
    obtain ⟨c, ix, e, hlabel, -, hix, he, hnot⟩ := opOf_enters_iff.mp henters
    exact hnot (usable_iff.mpr (hkeeps.enters c ix e hlabel hix he))
  · intro hring
    refine ⟨fun c ix e hlabel hix he => ?_, fun w => spares_iff.mpr (hring w).2⟩
    rw [hlabel] at h
    obtain ⟨w, howner⟩ := owner_of_entry h hix he
    by_contra hnot
    rw [← usable_iff] at hnot
    exact (hring w).1 (opOf_enters_iff.mpr ⟨c, ix, e, hlabel, howner, hix, he, hnot⟩)

end Run

/-- Every stored passkey is usable, and every registry has one, at all moments
of a run exactly when all its steps meet the condition. -/
theorem registries_usable {d : Guard.Deployment} {l₀ l : Ledger} {trace : List Moment}
    (hgenesis : Ledger.Genesis d.programId l₀) (hrun : Run (Step d) l₀ trace l) :
    ((∀ t ∈ trace, KeepsUsable d t) ↔ ∀ t ∈ trace, RegistriesUsable d t.after) ∧
    ((∀ t ∈ trace, KeepsUsable d t) → RegistriesUsable d l) := by
  have hl := layout_genesis hgenesis
  -- before the first step no wallet has a ring
  have hnone : ∀ w, ringOf d w l₀ = none := by
    intro w
    have hreg : registryOf d l₀ w = none := registryAt_none fun howner _ =>
      AccountLayout.tryDeserialize_zeros (hgenesis _ howner) ⟨201, by decide, by decide⟩
    rw [ringOf, hreg, Option.map_none]
  have hsteps := hrun.step
  have hring := fun w => run_refines hl hrun w
  have havoids := fun w => Keyring.avoids_run_iff (p := (¬Usable ·)) (hring w) (by
    rw [hnone]
    exact Keyring.avoids_none)
  have hlive := fun w => Keyring.live_run_iff (hring w) (by
    rw [hnone]
    exact Keyring.live_none)
  simp only [List.forall_mem_map, ringMoment] at havoids hlive
  have hiff : (∀ t ∈ trace, KeepsUsable d t) ↔ ∀ t ∈ trace, RegistriesUsable d t.after := by
    constructor
    · intro hkeeps t ht
      refine registriesUsable_iff.mpr fun w => ⟨?_, ?_⟩
      · exact (havoids w).mp (fun v hv => ((keepsUsable_iff (hsteps v hv)).mp (hkeeps v hv) w).1) t
          ht
      · exact (hlive w).mp (fun v hv => ((keepsUsable_iff (hsteps v hv)).mp (hkeeps v hv) w).2) t ht
    · intro husable t ht
      refine (keepsUsable_iff (hsteps t ht)).mpr fun w => ⟨?_, ?_⟩
      · exact (havoids w).mpr (fun v hv => (registriesUsable_iff.mp (husable v hv) w).1) t ht
      · exact (hlive w).mpr (fun v hv => (registriesUsable_iff.mp (husable v hv) w).2) t ht
  refine ⟨hiff, fun hkeeps => ?_⟩
  have hfirst : RegistriesUsable d l₀ := registriesUsable_iff.mpr fun w => by
    rw [hnone]
    exact ⟨Keyring.avoids_none, Keyring.live_none⟩
  exact hrun.stays hfirst fun t ht _ => hiff.mp hkeeps t ht

section Localnet

open Sdk.Localnet

/-- The wallet's ordinary set-up: its key is usable. -/
theorem registries_usable_setup : ∃ trace, Run (Step deployment) genesis trace registered ∧
    ((∀ t ∈ trace, KeepsUsable deployment t) ↔
      ∀ t ∈ trace, RegistriesUsable deployment t.after) ∧
    ((∀ t ∈ trace, KeepsUsable deployment t) → RegistriesUsable deployment registered) := by
  obtain ⟨trace, hcalls⟩ := runCalls_setup
  exact ⟨trace, run_of_runCalls hcalls, registries_usable genesis_genesis (run_of_runCalls hcalls)⟩

/-- A first registration with no key at all. -/
def registerNothingIx : Instruction where
  programId := localnetId
  accounts := registerPasskeyIx.accounts
  data := registerPasskeyDisc ++ credentialArgs [] []

/-- The ledger after the config and that registration. -/
def unusable : Ledger :=
  ((runCalls deployment genesis [call [initConfigIx] 0 initConfigIx,
    call [registerNothingIx] 0 registerNothingIx]).map Prod.snd).getD genesis

theorem runCalls_unusable : ∃ trace, runCalls deployment genesis
    [call [initConfigIx] 0 initConfigIx, call [registerNothingIx] 0 registerNothingIx] =
      some (trace, unusable) := by
  have hsome : (runCalls deployment genesis [call [initConfigIx] 0 initConfigIx,
      call [registerNothingIx] 0 registerNothingIx]).isSome = true := by decide +kernel
  obtain ⟨⟨trace, l⟩, h⟩ := Option.isSome_iff_exists.mp hsome
  exact ⟨trace, by rw [unusable, h]; rfl⟩

theorem registryAt_unusable :
    registryAt deployment unusable registryPda =
      some ⟨wallet, 0, [⟨.secp256r1Passkey, [], []⟩]⟩ := by
  decide +kernel

/-- The wallet ends up with a registry none of whose keys can authorise anything. -/
theorem unusable_registered : ∃ trace, Ledger.Genesis deployment.programId genesis ∧
    Run (Step deployment) genesis trace unusable ∧
    ∃ r, registryOf deployment unusable wallet = some r ∧ r.keys ≠ [] ∧
      (∀ e ∈ r.keys, ¬Usable e) ∧ ¬RegistriesUsable deployment unusable := by
  obtain ⟨trace, hcalls⟩ := runCalls_unusable
  have hreg : registryOf deployment unusable wallet =
      some ⟨wallet, 0, [⟨.secp256r1Passkey, [], []⟩]⟩ := by
    rw [registryOf, findRegistry_wallet]
    exact registryAt_unusable
  have hnot : ∀ e ∈ [(⟨.secp256r1Passkey, [], []⟩ : PasskeyEntry)], ¬Usable e := by
    intro e he
    obtain rfl := List.mem_singleton.mp he
    decide
  refine ⟨trace, genesis_genesis, run_of_runCalls hcalls, _, hreg, List.cons_ne_nil _ _, hnot, ?_⟩
  intro husable
  obtain ⟨e, he, hu⟩ := (husable wallet _ hreg).2
  exact hnot e he hu

end Localnet

end Trana.Security
