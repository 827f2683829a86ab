import Trana.Guard.Completeness
import Trana.Sdk.Transaction

/-!
# One registry per wallet, at its own address

`enforce` takes its registry account unchecked and never derives an address.
It is safe because of what the other instructions can have written: an account
of the program that starts with the registry discriminator was last written by
an instruction that derived its address from the owner it stored.

* `execute_change` — a successful instruction changed nothing, an account that
  is no registry, or the registry of a wallet that signed.
* `placed_step` — so every registry account stays at the PDA of its owner.
* `registry_isolation` — the three consequences for every reachable ledger.

A registry account is told by its first eight bytes and its owner by the next
32, as they stand in the account: nothing is asked of the bytes behind them, so
this covers accounts that do not deserialise. Other programs may do anything to
a ledger except write to what the guard owns.

Nothing is asked of the derivation of addresses here: two wallets with one
registry address would be told apart by the owner stored in the account, and the
second of them to register would find it in use.
-/

namespace Trana.Security

open Trana.Lib Trana.Lib.Exec Trana.Solana Trana.Guard

section Placement

variable {d : Deployment} {env : Env} {accounts : List AccountMeta} {l l' : Ledger}

/-- What a successful instruction changed. -/
inductive Change (d : Deployment) (accounts : List AccountMeta) (l l' : Ledger) : Prop where
  | nothing (same : l' = l)
  | untagged (key : Pubkey) (write : UntaggedWrite d l l' key)
  | registry (w : Pubkey) (r : PasskeyRegistry) (names : Names accounts (d.findRegistry w) w)
      (stores : Stores d l l' (d.findRegistry w) r) (owner : r.owner = w)

theorem execute_change {ix : GuardInstruction} (hl : Layout d l)
    (h : (execute d env accounts ix l).Returns l') : Change d accounts l l' := by
  cases execute_effect h with
  | initConfig same =>
    obtain ⟨key, hwrite⟩ := initConfig_write h
    exact .untagged key hwrite
  | updateConfig same =>
    obtain ⟨key, hwrite⟩ := updateConfig_write h
    exact .untagged key hwrite
  | registerPasskey w r names valid found empty stores => exact .registry w _ names stores rfl
  | recoverRegistry w r names valid found stores => exact .registry w _ names stores rfl
  | addPasskey w r names valid found room verified stores =>
    have howner : r.owner = w := hl.owner_eq found
    exact .registry w _ names stores howner
  | removePasskey w r names found several verified shorter stores =>
    have howner : r.owner = w := hl.owner_eq found
    exact .registry w _ names stores howner
  | recordProof same => exact .nothing same
  | enforceFree idle evaluable same => exact .nothing same
  | enforceProof w key r names fires found owner_eq verified stores =>
    -- the passed account holds a registry of `w`, and there is one place for that
    have hkey : key = d.findRegistry w := by rw [hl key r found, owner_eq]
    subst hkey
    exact .registry w _ names stores owner_eq

/-- Every account with the registry discriminator holds a registry, at the PDA
of the wallet it names. -/
def Placed (d : Deployment) (l : Ledger) : Prop :=
  ∀ k, Tagged d l k → ∃ r, registryAt d l k = some r ∧ k = d.findRegistry r.owner

theorem placed_genesis (h : Ledger.Genesis d.programId l) : Placed d l := by
  intro k htag
  have hmem : (201 : UInt8) ∈ (l k).data.take 8 := by
    rw [htag.2]
    decide
  have hzero := h k htag.1 201 (List.mem_of_mem_take hmem)
  exact absurd hzero (by decide)

/-- Accounts that keep owner and data keep their placement. -/
theorem Placed.of_frame {k : Pubkey} (hp : Placed d l)
    (hsame : (l' k).owner = (l k).owner ∧ (l' k).data = (l k).data) (htag : Tagged d l' k) :
    ∃ r, registryAt d l' k = some r ∧ k = d.findRegistry r.owner := by
  obtain ⟨r, hr, hk⟩ := hp k ((tagged_congr hsame).mp htag)
  exact ⟨r, (registryAt_congr hsame).trans hr, hk⟩

theorem Change.placed (h : Change d accounts l l') (hp : Placed d l) : Placed d l' := by
  intro k htag
  -- an account that starts like a registry now did so before, or is the one written
  cases h with
  | nothing same =>
    subst same
    exact hp k htag
  | untagged key write =>
    by_cases hk : k = key
    · subst hk
      exact absurd htag write.after
    · exact hp.of_frame (write.frame k hk) htag
  | registry w r names stores owner =>
    by_cases hk : k = d.findRegistry w
    · subst hk
      exact ⟨r, stores.registryAt_self, by rw [owner]⟩
    · exact hp.of_frame (stores.frame k hk) htag

/-- What other programs do. -/
theorem External.placed (h : Ledger.External d.programId l l') (hp : Placed d l) :
    Placed d l' := by
  intro k htag
  by_cases hk : (l k).owner = d.programId
  · obtain ⟨howner, hdata⟩ := h.keeps k hk
    exact hp.of_frame ⟨howner.trans hk.symm, hdata⟩ htag
  · -- an account handed to the program meanwhile is zeroed
    have hmem : (201 : UInt8) ∈ (l' k).data.take 8 := by
      rw [htag.2]
      decide
    have hzero := h.arrives k hk htag.1 201 (List.mem_of_mem_take hmem)
    exact absurd hzero (by decide)

theorem placed_step {a : Label} (hl : Layout d l) (hp : Placed d l) (h : Step d l a l') :
    Placed d l' := by
  cases h with
  | executed h =>
    obtain ⟨ix, -, hrun⟩ := returns_bind.mp h
    exact (execute_change hl hrun).placed hp
  | rolledBack c => exact hp
  | other h => exact External.placed h hp

theorem placed_of_reachable (h : Reachable d l) : Placed d l := by
  obtain ⟨l₀, trace, hgenesis, hrun⟩ := h
  have hstep : ∀ l label l', Layout d l ∧ Placed d l → Step d l label l' →
      Layout d l' ∧ Placed d l' :=
    fun _ _ _ hs h => ⟨layout_step hs.1 h, placed_step hs.1 hs.2 h⟩
  exact (hrun.invariant hstep ⟨layout_genesis hgenesis, placed_genesis hgenesis⟩).2

end Placement

/-! ## Isolation -/

/-- The bytes of the owner field. -/
def ownerField (data : Bytes) : Bytes := (data.drop 8).take 32

theorem ownerField_of_read {r : PasskeyRegistry} {data : Bytes}
    (h : PasskeyRegistry.layout.tryDeserialize data = .ok r) : ownerField data = r.owner.bytes := by
  obtain ⟨body, rest, hbody, rfl⟩ := AccountLayout.image_of_tryDeserialize h
  obtain ⟨keys, -, rfl⟩ := registry_image hbody
  have hdrop : ∀ xs, (PasskeyRegistry.layout.discriminator ++ xs).drop 8 = xs := fun xs => by
    rw [← PasskeyRegistry.layout.length_discriminator, List.drop_left]
  rw [ownerField, hdrop, List.append_assoc, ← r.owner.length_eq, List.take_left]

/-- A registry account was created or its owner or bytes changed. -/
def Alters (d : Deployment) (l l' : Ledger) (k : Pubkey) : Prop :=
  (Tagged d l k ∨ Tagged d l' k) ∧ ¬((l' k).owner = (l k).owner ∧ (l' k).data = (l k).data)

/-- The wallet is a signer of the call. -/
def Signed (c : Call) (w : Pubkey) : Prop := ∃ m ∈ c.accounts, m.pubkey = w ∧ m.isSigner = true

theorem signed_of_names {c : Call} {key w : Pubkey} (h : Names c.accounts key w) : Signed c w := by
  obtain ⟨m, hm, hsigner, hkey⟩ := h.owner
  exact ⟨m, List.mem_of_getElem? hm, hkey, hsigner⟩

/-- What an instruction alters is the registry of one wallet that signed it. -/
theorem altered_of_change {d : Deployment} {c : Call} {l l' : Ledger}
    (h : Change d c.accounts l l') :
    ∃ w, ∀ k, Alters d l l' k → Signed c w ∧ k = d.findRegistry w := by
  cases h with
  | nothing same =>
    refine ⟨systemProgramId, fun k hk => absurd ⟨?_, ?_⟩ hk.2⟩
    · rw [same]
    · rw [same]
  -- what is not a registry before or after is no altered registry
  | untagged key write =>
    refine ⟨systemProgramId, fun k hk => ?_⟩
    by_cases hkey : k = key
    · subst hkey
      exact (hk.1.elim write.before write.after).elim
    · exact absurd (write.frame k hkey) hk.2
  | registry w r names stores owner =>
    refine ⟨w, fun k hk => ⟨signed_of_names names, ?_⟩⟩
    by_contra hne
    exact hk.2 (stores.frame k hne)

/-- On every reachable ledger: each registry account sits at the PDA of the
owner it stores; a policy that fires accepts no other registry account than
the owner's; and an instruction alters at most one registry, a signer's. -/
theorem registry_isolation {d : Deployment} {l : Ledger} (h : Reachable d l) :
    (∀ k, Tagged d l k → ∃ w : Pubkey, ownerField (l k).data = w.bytes ∧ k = d.findRegistry w) ∧
    ∀ c l', Step d l (.executed c) l' →
      (∀ policy key w, c.Is (.enforce policy) → policy.fires c.env = true →
        Names c.accounts key w → key = d.findRegistry w) ∧
      (∀ k, Alters d l l' k → ∃ w, Signed c w ∧ k = d.findRegistry w) ∧
      ∀ k k', Alters d l l' k → Alters d l l' k' → k = k' := by
  have hl := h.layout
  refine ⟨fun k htag => ?_, fun c l' hstep => ⟨?_, ?_, ?_⟩⟩
  · obtain ⟨r, hr, hk⟩ := placed_of_reachable h k htag
    exact ⟨r.owner, ownerField_of_read (registryAt_eq_some.mp hr).2, hk⟩
  · intro policy key w hix hfires hnames
    obtain ⟨ix, hix', heffect⟩ := executed_effect hstep
    obtain rfl := hix.unique hix'
    cases heffect with
    | enforceFree idle evaluable same => exact absurd hfires (by simp [idle])
    -- the registry it read is at its owner's address, and its owner is the signer
    | enforceProof w' key' r names fires found owner_eq verified stores =>
      obtain ⟨rfl, rfl⟩ := hnames.unique names
      rw [hl _ r found, owner_eq]
  · intro k hk
    cases hstep with
    | executed hrun =>
      obtain ⟨ix, -, hrun⟩ := returns_bind.mp hrun
      obtain ⟨w, hw⟩ := altered_of_change (execute_change hl hrun)
      exact ⟨w, hw k hk⟩
  · intro k k' hk hk'
    cases hstep with
    | executed hrun =>
      obtain ⟨ix, -, hrun⟩ := returns_bind.mp hrun
      obtain ⟨w, hw⟩ := altered_of_change (execute_change hl hrun)
      rw [(hw k hk).2, (hw k' hk').2]

section Localnet

open Sdk.Localnet

/-- The registry of the localnet wallet sits at the wallet's PDA. -/
theorem registry_isolation_localnet :
    ∃ w : Pubkey, ownerField (registered registryPda).data = w.bytes ∧
      registryPda = deployment.findRegistry w :=
  (registry_isolation reachable_registered).1 registryPda
    (tagged_of_registryAt registryAt_registered.1)

end Localnet

end Trana.Security
