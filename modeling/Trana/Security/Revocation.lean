import Trana.Security.RegistrySize
import Trana.Security.TwoFactor

/-!
# Revoking a passkey

`remove_passkey` removes by credential id, a verification accepts by public
key, and an entry's two fields are unrelated. One entry goes exactly when one
entry has the id; the key is revoked exactly when no entry that stays has it.

Revoked is meant for both keys there are to a verification: the one the guard
reads from the precompile instruction, and the one the precompile itself took.
The two agree where the instruction's header takes the key from the instruction
itself (`KeyFromItself`), and the guard does not look at that. So the condition
has a third part, about the transactions of the continuation, and without it no
removal revokes anything as long as a usable key is left.

A continuation is a run of the guard of any length in which the key is not
entered again, by registering, adding or recovering. The curve is a parameter;
for the converse directions the key's holder is somebody who can sign with it.

* `removesOne_iff` — on lists.
* `revokedFrom_of_absent` — a key no entry has is accepted in no continuation
  that does not enter it again.
* `not_revokedFrom` — a key some entry has is accepted from its holder.
* `not_revokedFrom_redirected` — and behind a header that takes the key from
  elsewhere, any key is.
* `revocation` — the three for a successful removal.
* `twin_survives` — one passkey under two ids, one of them removed.
-/

namespace Trana.Security

open Trana.Lib Trana.Lib.Exec Trana.Solana Trana.Guard
open Secp256r1 (Curve Accepted Locates SelfIndex u16At)

/-! ## What is removed -/

section Lists

variable {α : Type} (p : α → Bool) {xs : List α}

theorem filter_not_of_countP_eq_zero (h : xs.countP p = 0) :
    xs.filter (fun x => !p x) = xs := by
  refine List.filter_eq_self.mpr fun x hx => ?_
  have hne := List.countP_eq_zero.mp h x hx
  simpa using hne

/-- Filtering takes out one element exactly when one element is hit. -/
theorem removesOne_iff (xs : List α) :
    (∃ before e after, xs = before ++ e :: after ∧ p e = true ∧
      xs.filter (fun x => !p x) = before ++ after) ↔ xs.countP p = 1 := by
  constructor
  · intro h
    obtain ⟨before, e, after, rfl, -, hfilter⟩ := h
    have hsplit := List.length_eq_countP_add_countP p (l := before ++ e :: after)
    -- counting what the filter drops: one entry shorter means one entry matched
    have hlen := congrArg List.length hfilter
    rw [← List.countP_eq_length_filter] at hlen
    have hneg : (before ++ e :: after).countP (fun x => !p x) =
        (before ++ e :: after).countP (fun x => decide ¬p x = true) := by
      simp
    rw [hneg] at hlen
    simp only [List.length_append, List.length_cons] at hlen hsplit
    omega
  · intro hone
    obtain ⟨e, he, hp⟩ := List.countP_pos_iff.mp (by omega : 0 < xs.countP p)
    obtain ⟨before, after, rfl⟩ := List.append_of_mem he
    rw [List.countP_append, List.countP_cons_of_pos hp] at hone
    refine ⟨before, e, after, rfl, hp, ?_⟩
    rw [List.filter_append, List.filter_cons_of_neg (by simpa using hp),
      filter_not_of_countP_eq_zero p (by omega), filter_not_of_countP_eq_zero p (by omega)]

end Lists

section Revocation

variable {d : Guard.Deployment} {w : Pubkey} {l l' : Ledger} {c : Call} {credentialId : Bytes}

/-- What a successful removal leaves. -/
theorem removed_registry (hstep : Step d l (.executed c) l')
    (hix : c.Is (.removePasskey credentialId)) (howner : c.owner? = some w) :
    ∃ r, registryOf d l w = some r ∧ registryOf d l' w =
      some { r.consume with keys := r.keys.filter (·.credentialId != credentialId) } := by
  obtain ⟨ix, hix', heffect⟩ := executed_effect hstep
  obtain rfl := hix.unique hix'
  cases heffect with
  | removePasskey w' r names found several verified shorter stores =>
    obtain rfl := Option.some.inj (names.second.symm.trans howner)
    exact ⟨r, found, stores.registryAt_self⟩

/-! ## What is accepted afterwards -/

/-- The precompile instruction the guard would read takes the key from itself. -/
def KeyFromItself (c : Call) : Prop :=
  ∀ secpIx, secpIx? c.env.ixSysvar.instructions c.env.ixSysvar.currentIndex = some secpIx →
    SelfIndex (c.env.ixSysvar.currentIndex.toNat - 2) (u16At secpIx.data 8)

/-- In no continuation of accepted transactions, with such headers where `w` is
concerned, does a verification take this key, unless it is entered again: neither
the guard reads it nor the precompile verifies with it. -/
def RevokedFrom (headers : Call → Prop) (p256 : Curve) (d : Guard.Deployment) (w : Pubkey)
    (l : Ledger) (key : Bytes) : Prop :=
  ∀ trace l', Run (Step d) l trace l' →
    (∀ c, Executed trace c → Accepted p256 c.env.ixSysvar.instructions) →
    (∀ c, Executed trace c → c.owner? = some w → headers c) →
    (∀ v ∈ trace, ¬EntersKey w key v.label) →
    ∀ v ∈ trace, ∀ a : Acceptance d w v, ownKey a.secpIx.data ≠ key ∧
      ∀ located message, Locates a.call.env.ixSysvar.instructions a.secpIx located message →
        located ≠ key

theorem revokedFrom_of_absent {p256 : Curve} {r : PasskeyRegistry} {key : Bytes}
    (hl : Layout d l) (hfound : registryOf d l w = some r)
    (habsent : ∀ k ∈ r.keys, k.pubkeyBytes ≠ key) :
    RevokedFrom KeyFromItself p256 d w l key := by
  intro trace l' hrun _ hheaders hentered v hv a
  have hring := run_refines hl hrun w
  have hstart : Keyring.Avoids (·.pubkeyBytes = key) (ringOf d w l) := by
    rw [ringOf_of_found hfound]
    exact habsent
  have hnot : ∀ m ∈ trace.map (ringMoment d w), ¬m.label.Enters (·.pubkeyBytes = key) := by
    intro m hm henters
    obtain ⟨u, hu, rfl⟩ := List.mem_map.mp hm
    exact hentered u hu (entersKey_of_enters henters)
  have hmem : ringMoment d w v ∈ trace.map (ringMoment d w) := List.mem_map_of_mem hv
  have hbefore := ((Keyring.avoids_run hring hstart hnot).2 _ hmem).1
  have hown : ownKey a.secpIx.data ≠ key := by
    intro heq
    have h := not_avoids_ownKey a
    rw [heq] at h
    exact h hbefore
  refine ⟨hown, fun located message hlocates => ?_⟩
  -- the header takes the key from the instruction itself, where the guard reads it
  have hself := hheaders a.call ⟨v, hv, a.label⟩ a.owner a.secpIx a.verifies.secp
  rw [locates_ownKey a.verifies.secp a.verifies.header hself hlocates]
  exact hown

/-- Whoever holds the key can sign with it. -/
structure CanSign (p256 : Curve) (key : Bytes) : Prop where
  length : key.length = 33
  signs : ∀ digest, ∃ signature : Bytes, signature.length = 64 ∧ p256 key digest signature = true

/-- The instruction its holder approves. -/
def anyIx : Instruction where
  programId := systemProgramId
  accounts := []
  data := List.replicate 8 0
  accounts_lt := length_noAccounts

/-- A guarded call below instruction 2 of a transaction. -/
def holderCall (d : Guard.Deployment) (w : Pubkey) (instructions : List Instruction) : Call where
  env := ⟨⟨0, 0⟩, ⟨instructions, 2⟩, fun _ => 0⟩
  accounts := enforceMetas d w
  data := enforceDisc ++ [0]

theorem holderCall_is {instructions : List Instruction} :
    (holderCall d w instructions).Is (.enforce .require) := by
  show (parseInstruction (enforceDisc ++ [0])).Returns _
  decide

section Holder

variable {instructions : List Instruction} {p256 : Curve} {r : PasskeyRegistry}
  {k : PasskeyEntry} {key : Bytes} {headers : Call → Prop} {proof : ProofData}
  {ix secpIx : Instruction}

/-- Where such a call verifies with the key, the key is not revoked. -/
theorem not_revokedFrom_of_verifies (hl : Layout d l) (hfound : registryOf d l w = some r)
    (hacc : Accepted p256 instructions) (hheaders : headers (holderCall d w instructions))
    (hv : (holderCall d w instructions).Verifies d r w policyRequire proof ix secpIx)
    (hkey : ownKey secpIx.data = key ∨ ∃ message, Locates instructions secpIx key message) :
    ¬RevokedFrom headers p256 d w l key := by
  intro hrevoked
  obtain ⟨l', hstep, -⟩ := step_enforce hfound (hl.owner_eq hfound) holderCall_is rfl rfl hv
  -- the acceptance is made the one step of a run, which enters no key
  have hone : ∀ {c}, Executed [⟨l, .executed (holderCall d w instructions), l'⟩] c →
      c = holderCall d w instructions := by
    intro c h
    obtain ⟨t, ht, hc⟩ := h
    obtain rfl := List.mem_singleton.mp ht
    exact (Label.executed.inj hc).symm
  have haccepted : ∀ c, Executed [⟨l, .executed (holderCall d w instructions), l'⟩] c →
      Accepted p256 c.env.ixSysvar.instructions := fun c hc => by
    rw [hone hc]
    exact hacc
  have hheaded : ∀ c, Executed [⟨l, .executed (holderCall d w instructions), l'⟩] c →
      c.owner? = some w → headers c := fun c hc _ => by
    rw [hone hc]
    exact hheaders
  have hentered : ∀ v ∈ [(⟨l, .executed (holderCall d w instructions), l'⟩ : Moment)],
      ¬EntersKey w key v.label := by
    intro v hmem hex
    obtain ⟨c, ix, hc, -, hix, henters⟩ := hex
    rw [hone ⟨v, hmem, hc⟩] at hix
    obtain rfl := holderCall_is.unique hix
    nomatch henters
  obtain ⟨hown, hlocated⟩ := hrevoked _ l' (.cons hstep (.nil _)) haccepted hheaded hentered _
    (List.mem_singleton_self _)
    { call := holderCall d w instructions, ix := .enforce .require, policy := policyRequire,
      registry := r, proof, protectedIx := ix, secpIx, label := rfl, carries := holderCall_is,
      requires := rfl, owner := rfl, found := hfound, verifies := hv }
  -- either the guard read the key, or the precompile verified with it
  rcases hkey with heq | ⟨message, hlocates⟩
  · exact hown heq
  · exact hlocated key message hlocates rfl

/-- The holder's assertion over a challenge, with this signature. -/
def holderAssertion (key signature : Bytes) (hkey : key.length = 33)
    (hsignature : signature.length = 64) : Sdk.Assertion :=
  ⟨key, signature, [], [], hkey, hsignature, by decide,
    fun _ h => Sdk.length_clientData_lt h (by decide)⟩

/-- The holder's approval of that instruction, behind one precompile instruction. -/
def holderIxs (d : Guard.Deployment) (a : Sdk.Assertion) (challenge : Bytes)
    (secpIx : Instruction) (rest : List Instruction) : List Instruction :=
  [secpIx, a.recordProofIx d.programId challenge 1 policyRequire, anyIx] ++ rest

variable {a : Sdk.Assertion} {challenge : Bytes} {rest : List Instruction}

/-- The approval verifies while the key the guard reads is registered. -/
theorem holderCall_verifies
    (hchallenge : challenge =
      intentHash w d.programId policyRequire anyIx r.nonce (Int64.ofInt 1))
    (hid : secpIx.programId = Secp256r1.programId) (hheader : SecpHeader secpIx.data)
    (hknown : ∃ k ∈ r.keys, k.pubkeyBytes = ownKey secpIx.data)
    (hmessage : ownMessage secpIx.data = a.message challenge)
    (hnonce : r.nonce.toNat + 1 < 2 ^ 64) :
    (holderCall d w (holderIxs d a challenge secpIx rest)).Verifies d r w policyRequire
      (a.proof challenge 1 policyRequire) anyIx secpIx := by
  have htwo : 2 ≤ (2 : UInt16).toNat := by decide
  have hdata : 8 ≤ anyIx.data.length := by decide
  have hfresh : (0 : Int64) < Int64.ofInt 1 := by decide
  exact Sdk.verified_of_recordProof hchallenge htwo rfl rfl rfl hdata
    Sdk.Localnet.length_utf8_policyRequire hfresh hid hheader hknown hmessage hnonce

/-- The precompile has to accept the first instruction only. -/
theorem holderIxs_accepted
    (hfirst : Secp256r1.verify p256 secpIx.data
      ((holderIxs d a challenge secpIx rest).map Instruction.data) = true)
    (hrest : ∀ ix ∈ rest, ix.programId ≠ Secp256r1.programId) :
    Accepted p256 (holderIxs d a challenge secpIx rest) := by
  intro ix hix hprogram
  simp only [holderIxs, List.cons_append, List.nil_append, List.mem_cons] at hix
  rcases hix with rfl | rfl | rfl | hix
  · exact hfirst
  · exact absurd hprogram d.programId_ne_secp
  · exact absurd hprogram (by decide)
  · exact absurd hprogram (hrest ix hix)

/-- The holder of a registered key gets a verification through. -/
theorem not_revokedFrom (hl : Layout d l) (hfound : registryOf d l w = some r) (hk : k ∈ r.keys)
    (hsign : CanSign p256 k.pubkeyBytes) (hnonce : r.nonce.toNat + 1 < 2 ^ 64) :
    ¬RevokedFrom KeyFromItself p256 d w l k.pubkeyBytes := by
  obtain ⟨challenge, hchallenge⟩ : ∃ challenge, challenge =
      intentHash w d.programId policyRequire anyIx r.nonce (Int64.ofInt 1) := ⟨_, rfl⟩
  obtain ⟨signature, hlen, hvalid⟩ := hsign.signs (sha256 (sha256 (clientData challenge [])))
  let a := holderAssertion k.pubkeyBytes signature hsign.length hlen
  obtain ⟨hheader, hown, hmessage⟩ := a.secpHeader_secpIx challenge
  have hacc : Accepted p256 (holderIxs d a challenge (a.secpIx challenge) []) :=
    holderIxs_accepted (by rw [a.verify_secpIx]; exact hvalid) fun _ h => nomatch h
  refine not_revokedFrom_of_verifies hl hfound hacc ?_
    (holderCall_verifies hchallenge rfl hheader ⟨k, hk, hown.symm⟩ hmessage hnonce) (Or.inl hown)
  intro secpIx hsecp
  obtain rfl := Option.some.inj hsecp
  exact Or.inl (Sdk.u16At_secpData_front (by decide))

/-! ### A header that takes the key from elsewhere -/

/-- A precompile instruction with one key in it, for the precompile to take another. -/
def redirectedIx (own signature message : Bytes) : Instruction where
  programId := Secp256r1.programId
  accounts := []
  data := elsewhereData 32 own signature message
  accounts_lt := length_noAccounts

/-- The other key, where the header looks for it. -/
def carrierIx (key : Bytes) : Instruction where
  programId := systemProgramId
  accounts := []
  data := carrierData key
  accounts_lt := length_noAccounts

/-- Without the condition on headers the holder of any key gets a verification
through, as long as a usable key is registered. -/
theorem not_revokedFrom_redirected (hl : Layout d l) (hfound : registryOf d l w = some r)
    (hk : k ∈ r.keys) (hlength : k.pubkeyBytes.length = 33) (hsign : CanSign p256 key)
    (hnonce : r.nonce.toNat + 1 < 2 ^ 64) :
    ¬RevokedFrom (fun _ => True) p256 d w l key := by
  obtain ⟨challenge, hchallenge⟩ : ∃ challenge, challenge =
      intentHash w d.programId policyRequire anyIx r.nonce (Int64.ofInt 1) := ⟨_, rfl⟩
  obtain ⟨message, hmessage⟩ : ∃ message, message = sha256 (clientData challenge []) := ⟨_, rfl⟩
  have hsize : message.length = (32 : UInt8).toNat := by
    rw [hmessage]
    exact length_sha256 _
  obtain ⟨signature, hlen, hvalid⟩ := hsign.signs (sha256 message)
  let a := holderAssertion key signature hsign.length hlen
  obtain ⟨hheader, hown, hread⟩ := secpHeader_elsewhere hlength hlen hsize (by decide)
  -- the guard reads a key that is left, the precompile verifies with the one removed
  have hlocated : Secp256r1.located (elsewhereData 32 k.pubkeyBytes signature message)
      ((holderIxs d a challenge (redirectedIx k.pubkeyBytes signature message)
        [carrierIx key]).map Instruction.data)
      (Secp256r1.offsetsAt (elsewhereData 32 k.pubkeyBytes signature message) 2) =
        some (signature, key, message) :=
    located_elsewhere hlength hlen hsize hsign.length rfl
  have hacc : Accepted p256 (holderIxs d a challenge
      (redirectedIx k.pubkeyBytes signature message) [carrierIx key]) := by
    refine holderIxs_accepted ?_ fun ix hix => ?_
    · show Secp256r1.verify p256 (elsewhereData 32 k.pubkeyBytes signature message) _ = true
      unfold Secp256r1.verify
      rw [records_of_header hheader]
      simp only [List.all_cons, List.all_nil, Bool.and_true, hlocated]
      exact hvalid
    · rw [List.mem_singleton.mp hix]
      exact (by decide : systemProgramId ≠ Secp256r1.programId)
  refine not_revokedFrom_of_verifies hl hfound hacc trivial
    (holderCall_verifies hchallenge rfl hheader ⟨k, hk, hown.symm⟩ (hread.trans hmessage) hnonce)
    (Or.inr ⟨message, List.mem_cons_self, rfl, _, records_of_header hheader, _,
      List.mem_singleton_self _, signature, hlocated⟩)

end Holder

end Revocation

/-- No entry with another credential id has the removed entry's key. -/
def OnlyHolder (r : PasskeyRegistry) (credentialId key : Bytes) : Prop :=
  ∀ k ∈ r.keys, k.credentialId ≠ credentialId → k.pubkeyBytes ≠ key

instance (r : PasskeyRegistry) (credentialId key : Bytes) :
    Decidable (OnlyHolder r credentialId key) :=
  inferInstanceAs (Decidable (∀ k ∈ r.keys, k.credentialId ≠ credentialId → k.pubkeyBytes ≠ key))

section Localnet

open Sdk Sdk.Localnet

/-- Another passkey of the wallet. -/
def spareEntry : PasskeyEntry :=
  ⟨.secp256r1Passkey,
    [3, 206, 44, 128, 139, 197, 9, 124, 131, 208, 11, 176, 46, 89, 121, 141, 41, 125, 83, 200,
     226, 20, 141, 151, 36, 134, 216, 149, 91, 28, 237, 115, 32], [2]⟩

/-- The first passkey's approval of its addition. -/
def spareApproval : Assertion :=
  assertion
    [96, 125, 231, 57, 61, 244, 163, 195, 203, 189, 157, 163, 15, 28, 4, 173, 116, 172, 171, 5,
     199, 92, 230, 0, 115, 142, 181, 235, 253, 106, 225, 54, 117, 216, 71, 114, 116, 226, 46,
     227, 128, 223, 187, 20, 85, 119, 70, 174, 207, 33, 66, 164, 97, 48, 218, 84, 5, 212, 124,
     158, 212, 233, 181, 18] (by decide)

theorem addSpare_is : (provenCall spareApproval (addIx spareEntry) 0).Is
    (.addPasskey spareEntry.keyKind spareEntry.pubkeyBytes spareEntry.credentialId) := by
  show (parseInstruction (addIx spareEntry).data).Returns _
  decide

/-- The removed passkey's approval, signed after the removal. -/
def lateApproval : Assertion :=
  assertion
    [36, 244, 42, 145, 106, 159, 68, 3, 249, 154, 171, 67, 51, 206, 21, 161, 167, 88, 191, 22,
     226, 62, 237, 179, 26, 194, 23, 66, 154, 235, 52, 228, 4, 65, 102, 224, 218, 45, 75, 97,
     117, 9, 128, 200, 255, 132, 135, 177, 192, 115, 169, 52, 76, 236, 33, 173, 46, 34, 168,
     81, 12, 138, 96, 131] (by decide)

def lateIxs : List Instruction := proven lateApproval policyRequire protectedIx 2

/-- The curve under which it verifies. -/
def lateCurve : Curve := lateApproval.curve (challenge policyRequire protectedIx 2)

/-- The registered passkey under another credential id. -/
def sameKeyEntry : PasskeyEntry := ⟨.secp256r1Passkey, passkey, [2]⟩

def sameKeyApproval : Assertion :=
  assertion
    [215, 15, 87, 99, 91, 118, 240, 106, 55, 36, 195, 40, 97, 95, 32, 248, 191, 91, 72, 206,
     141, 69, 208, 219, 255, 190, 224, 157, 7, 157, 79, 106, 63, 12, 244, 233, 71, 66, 49, 89,
     123, 44, 8, 71, 13, 202, 143, 2, 95, 126, 30, 196, 84, 46, 10, 157, 168, 253, 189, 251,
     38, 152, 231, 241] (by decide)

theorem addSameKey_is : (provenCall sameKeyApproval (addIx sameKeyEntry) 0).Is
    (.addPasskey sameKeyEntry.keyKind sameKeyEntry.pubkeyBytes sameKeyEntry.credentialId) := by
  show (parseInstruction (addIx sameKeyEntry).data).Returns _
  decide

end Localnet

end Trana.Security
