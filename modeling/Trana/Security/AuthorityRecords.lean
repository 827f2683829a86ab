import Trana.Authority.Client
import Trana.Security.UpgradeAuthority
import Trana.Security.Withdrawals

/-!
# Authority records, and the way back

The upgrade authority a wallet gives to the program is held by a record. Over any
run the records come and go by their owner's registrations and reclaims alone,
and from every state the reclaim the SDK builds gets the authority back.

* `authority_history` — registrations and reclaims of an owner and a target
  alternate.
* `reclaim_succeeds_iff` — when the SDK's reclaim goes through, and what it leaves.
* `scripts_never_reclaim` — the scripts do not get it back.

The loader is not under the repository. What the second result asks of it is
`SetsAuthority`: on an account with program data, a `SetAuthority` does what
`setAuthority` says. The other two results ask nothing of it.

`ByScript` compares a call with what the three scripts send by public keys and
data, not by the flags of their metas: the compiled message merges the flags of
one key, and the owner stands in it as fee payer as well. The upgrade has the
loader where the program expects the instructions sysvar, the reclaim has nine
accounts for ten, and Anchor refuses both before the handler runs. All three
results are about instructions: the fee of the transaction around them is not
taken here.
-/

namespace Trana.Security

open Trana.Lib Trana.Lib.Exec Trana.Solana Trana.Authority

/-! ## History -/

/-- In every run the registrations of an owner and a target exceed their reclaims by
one while their record is there, and not at all while it is not. A record's address
signs a call to the loader only in between, when its owner and target are named. -/
theorem authority_history {d : Authority.Deployment} {l₀ l : Ledger}
    {trace : List Authority.Moment} (hgenesis : Ledger.Genesis d.programId l₀)
    (hrun : Run (Authority.Step d) l₀ trace l) :
    (∀ owner target, liveCount d owner target l +
        trace.countP (fun t => t.label.reclaims owner target) =
      trace.countP fun t => t.label.registers owner target) ∧
    ∀ pre t post c call mid, trace = pre ++ t :: post →
      CallsLoader d t.before t.label c call mid → ∃ owner target,
        call.signers = [(d.findRecord owner target).1] ∧
        c.accounts[1]?.map AccountMeta.pubkey = some owner ∧
        c.accounts[2]?.map AccountMeta.pubkey = some target ∧
        pre.countP (fun t => t.label.registers owner target) =
          pre.countP (fun t => t.label.reclaims owner target) + 1 := by
  have hbalance : ∀ {trace l} owner target, Run (Authority.Step d) l₀ trace l →
      liveCount d owner target l + trace.countP (fun t => t.label.reclaims owner target) =
        trace.countP fun t => t.label.registers owner target := by
    intro trace l owner target hrun
    have hderived := hrun.stays_at (Authority.derived_genesis hgenesis) fun t ht hd =>
      Authority.derived_step (hrun.step t ht) hd
    -- one sum over the run: each step adds its registration and takes its reclaim
    have hsum : liveCount d owner target l +
        trace.countP (fun t => t.label.reclaims owner target) = liveCount d owner target l₀ +
          trace.countP fun t => t.label.registers owner target :=
      hrun.balance (f := liveCount d owner target) fun t ht =>
        live_step (hderived t ht).1 (hrun.step t ht)
    -- at the start there is no record, so the count is the difference
    have hnone : recordAt d l₀ (d.findRecord owner target).1 = none :=
      accountAt_zeros (fun howner => hgenesis _ howner) ⟨177, by decide, by decide⟩
    rwa [liveCount_zero (not_live_of_none hnone), Nat.zero_add] at hsum
  refine ⟨fun owner target => hbalance owner target hrun, ?_⟩
  intro pre t post c call mid htrace hcalls
  subst htrace
  obtain ⟨hpre, -, -⟩ := hrun.split
  have hderived : Authority.Derived d t.before :=
    hpre.invariant (fun _ _ _ hd hstep => Authority.derived_step hstep hd)
      (Authority.derived_genesis hgenesis)
  obtain ⟨owner, target, hlive, hsigners, howner, htarget⟩ :=
    invoked_live hderived (invoked_iff.mp hcalls.2)
  -- before a call to the loader the record is there, so one registration is ahead
  have hcount := hbalance owner target hpre
  rw [liveCount_one hlive] at hcount
  exact ⟨owner, target, hsigners, howner, htarget, hcount.symm.trans (Nat.add_comm _ _)⟩

/-! ## The way back -/

/-- The loader's `SetAuthority`, about the data account of a program. -/
def SetsAuthority (L : Loader) : Prop :=
  ∀ call l pd current new, call.ix = setUpgradeAuthorityIx pd current new →
    loaderState (l pd) = some .programData → L.invoke call l = setAuthority call l

/-- The program data has this upgrade authority. -/
def HeldBy (l : Ledger) (pd authority : Pubkey) : Prop :=
  (l pd).owner = bpfLoaderId ∧ loaderState (l pd) = some .programData ∧
    ((l pd).data.drop 12).take 33 = 1 :: authority.bytes

section Reclaim

variable {d : Authority.Deployment} {l l' : Ledger} {env : Guard.Env}
  {w target newAuthority : Pubkey}

/-- The SDK's reclaim, with the program data that belongs to the target. -/
def sdkReclaim (d : Authority.Deployment) (w target newAuthority : Pubkey) : Instruction :=
  TranaAuthorityClient.reclaimAuthority d w target (d.loader.programData target) newAuthority

/-- Its context. -/
def sdkContext (d : Authority.Deployment) (w target newAuthority : Pubkey) : ReclaimAuthority where
  recordKey := (d.findRecord w target).1
  authorityRecord := ⟨w, target, (d.findRecord w target).2⟩
  owner := w
  target := target
  programData := d.loader.programData target
  newAuthorityInfo := newAuthority
  tranaRegistry := d.guard.findRegistry w

/-- The call to the loader it makes. -/
def sdkCall (d : Authority.Deployment) (w target newAuthority : Pubkey) : SignedCall :=
  (sdkContext d w target newAuthority).call d (sdkReclaim d w target newAuthority).accounts
    newAuthority (d.findRecord w target).1

theorem sdkReclaim_parsed (d : Authority.Deployment) (w target newAuthority : Pubkey) :
    (Authority.parseInstruction (sdkReclaim d w target newAuthority).data).Returns
      (.reclaimAuthority newAuthority) := by
  have htake : (sdkReclaim d w target newAuthority).data.take 8 = reclaimAuthorityDisc := rfl
  have hdrop : (sdkReclaim d w target newAuthority).data.drop 8 = newAuthority.bytes := rfl
  have hread : Pubkey.codec.read newAuthority.bytes = some (newAuthority, []) := by
    have hwrite : Pubkey.codec.write newAuthority = some newAuthority.bytes := rfl
    have h := Pubkey.codec.read_write hwrite []
    rwa [List.append_nil] at h
  unfold Authority.parseInstruction
  rw [htake, hdrop]
  dsimp only
  rw [if_neg (by decide), if_neg (by decide), if_pos rfl]
  simp only [returns_bind, Authority.returns_emit, returns_okOr, returns_pure, exists_const,
    true_and]
  exact ⟨newAuthority, by rw [hread]; rfl, rfl⟩

/-- The accounts the SDK lists satisfy the context when the record is there and
the wallet has a registry, and not otherwise. -/
theorem tryAccounts_sdk (hdevnet : d.network = .devnet) (hd : Authority.Derived d l)
    (hpda : (d.findRecord w target).1 ≠ w) {ctx : ReclaimAuthority} :
    (ReclaimAuthority.tryAccounts d (sdkReclaim d w target newAuthority).accounts l).Returns ctx ↔
      Live d w target l ∧ (∃ r, Guard.registryOf d.guard l w = some r) ∧
        ctx = sdkContext d w target newAuthority := by
  -- the client names the IDL's guard, which is the deployment's on devnet only
  have hguard : Guard.devnetId = d.guard.programId := by
    rw [d.guard_network, hdevnet]
    rfl
  constructor
  · intro h
    simp only [sdkReclaim, TranaAuthorityClient.reclaimAuthority, ReclaimAuthority.tryAccounts,
      returns_bind, returns_signer, returns_constraintRaw, returns_pure] at h
    obtain ⟨record, hload, _, ⟨-, rfl⟩, _, -, r, hregistry, h⟩ := h
    obtain ⟨_, -, _, -, _, -, _, howner, _, htarget, h⟩ := h
    obtain ⟨_, -, _, -, _, -, _, -, _, -, _, -, _, -, _, -, rfl⟩ := h
    have hrecord : recordAt d l (d.findRecord w target).1 = some record := accountAt_of_load hload
    -- the record says who owns it, and its address was derived from that
    have hlive := hd.live hrecord
    rw [howner, htarget] at hlive
    obtain rfl := Option.some.inj (hrecord.symm.trans hlive)
    exact ⟨hlive, ⟨r, accountAt_of_load hregistry⟩, rfl⟩
  · intro h
    obtain ⟨hlive, ⟨r, hr⟩, rfl⟩ := h
    simp only [sdkReclaim, TranaAuthorityClient.reclaimAuthority, ReclaimAuthority.tryAccounts,
      returns_bind, returns_signer, returns_programAccount, returns_constraintBump,
      returns_constraintMut, returns_constraintRaw, returns_constraintClose,
      returns_constraintAddress, returns_constraintSeeds, returns_pure, exists_const]
    exact ⟨_, load_of_accountAt d.programId_ne hlive, w, ⟨trivial, rfl⟩, hguard, r,
      load_of_accountAt d.guard.programId_ne hr, trivial, d.createRecord_find w target, trivial,
      rfl, rfl, hpda, trivial, trivial, trivial, trivial, rfl, trivial, trivial, rfl⟩

/-- The runtime has no objection to the call. -/
theorem permitted_sdk : Permitted (sdkCall d w target newAuthority) := by
  have hcaller : (⟨d.loader.programData target, false, true⟩ : AccountMeta) ∈
      (sdkCall d w target newAuthority).caller := by
    show _ ∈ (sdkReclaim d w target newAuthority).accounts
    simp [sdkReclaim, TranaAuthorityClient.reclaimAuthority]
  have hmember : ∀ {k}, k = d.loader.programData target ∨ k = (d.findRecord w target).1 ∨
      k = newAuthority → k ∈ (sdkCall d w target newAuthority).infos := by
    intro k hk
    show k ∈ [d.loader.programData target, (d.findRecord w target).1, newAuthority]
    simp [hk]
  -- the record's address signs by its seeds; the program data is writable in the caller
  intro m hm
  rcases List.mem_cons.mp hm with rfl | hm
  · exact ⟨hmember (Or.inl rfl), fun h => absurd h Bool.false_ne_true,
      fun _ => ⟨_, hcaller, rfl, rfl⟩⟩
  rcases List.mem_cons.mp hm with rfl | hm
  · exact ⟨hmember (Or.inr (Or.inl rfl)), fun _ => Or.inl (List.mem_singleton_self _),
      fun h => absurd h Bool.false_ne_true⟩
  obtain rfl := List.mem_singleton.mp hm
  exact ⟨hmember (Or.inr (Or.inr rfl)), fun h => absurd h Bool.false_ne_true,
    fun h => absurd h Bool.false_ne_true⟩

/-- The guard touches nothing of another program. -/
theorem enforceProof_frame {registry owner : Pubkey}
    (h : (enforceProof d env registry owner l).Returns l') :
    (∀ k, (l' k).lamports = (l k).lamports ∧ (l' k).owner = (l k).owner) ∧
      ∀ k, (l k).owner ≠ d.guard.programId → (l' k).data = (l k).data := by
  rw [enforceProof, returns_embed] at h
  exact Guard.invokeEnforce_frame h

/-- So the loader finds the program data as it was. -/
theorem enforceProof_programData {registry owner pd : Pubkey}
    (h : (enforceProof d env registry owner l).Returns l') (hpd : (l pd).owner = bpfLoaderId) :
    (l' pd).owner = (l pd).owner ∧ (l' pd).data = (l pd).data := by
  obtain ⟨hkept, hdata⟩ := enforceProof_frame h
  have hne : (l pd).owner ≠ d.guard.programId := fun heq =>
    d.guard_ne_loader (heq.symm.trans hpd)
  exact ⟨(hkept pd).2, hdata pd hne⟩

instance (l : Ledger) (pd authority : Pubkey) : Decidable (HeldBy l pd authority) :=
  inferInstanceAs (Decidable (_ ∧ _ ∧ _))

/-- The program data with another authority. -/
def handOver (l : Ledger) (pd authority : Pubkey) : Ledger :=
  l.set pd { l pd with
    data := (l pd).data.take 12 ++ 1 :: authority.bytes ++ (l pd).data.drop 45 }

/-- The present authority may set another, and nobody else. -/
theorem setAuthority_sdk (d : Authority.Deployment) (w target newAuthority : Pubkey) (l : Ledger) :
    setAuthority (sdkCall d w target newAuthority) l =
      if HeldBy l (d.loader.programData target) (d.findRecord w target).1 then
        some (handOver l (d.loader.programData target) newAuthority) else none := by
  refine if_congr ⟨fun h => ⟨h.2.2.2.1, h.2.2.2.2.1, h.2.2.2.2.2⟩, fun h => ?_⟩ rfl rfl
  exact ⟨rfl, permitted_sdk, rfl, h.1, h.2.1, h.2.2⟩

/-- What was held by one is then held by the other. -/
theorem heldBy_handOver {pd authority : Pubkey} (h : HeldBy l pd authority) :
    HeldBy (handOver l pd newAuthority) pd newAuthority := by
  obtain ⟨howner, hstate, hheld⟩ := h
  have hlength : ((l pd).data.take 12).length = 12 := by
    have hlen := congrArg List.length hheld
    rw [List.length_take, List.length_drop, List.length_cons, authority.length_eq] at hlen
    rw [List.length_take]
    omega
  have hself : handOver l pd newAuthority pd = _ := Ledger.set_self ..
  refine ⟨by rw [hself]; exact howner, ?_, ?_⟩
  -- the tag is in the first twelve bytes, which stay
  · have htag : (handOver l pd newAuthority pd).data.take 4 = (l pd).data.take 4 := by
      rw [hself]
      show ((l pd).data.take 12 ++ 1 :: newAuthority.bytes ++ (l pd).data.drop 45).take 4 = _
      rw [List.append_assoc, List.take_append_of_le_length (by omega), List.take_take]
      rfl
    rw [loaderState, htag]
    exact hstate
  · rw [hself]
    show (((l pd).data.take 12 ++ 1 :: newAuthority.bytes ++ (l pd).data.drop 45).drop 12).take
      33 = _
    rw [List.append_assoc, List.drop_left' hlength, List.take_left' (by
      rw [List.length_cons, newAuthority.length_eq])]

theorem handOver_lamports (pd authority k : Pubkey) :
    (handOver l pd authority k).lamports = (l k).lamports := by
  by_cases hk : k = pd
  · rw [hk, handOver, Ledger.set_self]
  · rw [handOver, Ledger.set_of_ne _ hk]

theorem heldBy_congr {pd authority : Pubkey} (h : HeldBy l pd authority)
    (hsame : (l' pd).owner = (l pd).owner ∧ (l' pd).data = (l pd).data) :
    HeldBy l' pd authority := by
  obtain ⟨howner, hstate, hheld⟩ := h
  rw [loaderState, ← hsame.2, ← loaderState] at hstate
  exact ⟨hsame.1.trans howner, hstate, by rw [hsame.2]; exact hheld⟩

/-- What the SDK's reclaim leaves. -/
theorem sdkReclaim_leaves {mid : Ledger} (hpda : (d.findRecord w target).1 ≠ w)
    (hlive : Live d w target l)
    (hheld : HeldBy l (d.loader.programData target) (d.findRecord w target).1)
    (hmid : (enforceProof d env (d.guard.findRegistry w) w l).Returns mid)
    (hclose : (closeAccount (d.findRecord w target).1 w
      (handOver mid (d.loader.programData target) newAuthority) : Authority.Result Ledger).Returns
        l') :
    HeldBy l' (d.loader.programData target) newAuthority ∧ ¬Live d w target l' ∧
      (l' w).lamports.toNat =
        (l w).lamports.toNat + (l (d.findRecord w target).1).lamports.toNat ∧
      Authority.NonceGrows d.guard l l' w := by
  obtain ⟨hkept, -⟩ := enforceProof_frame hmid
  have hheldMid := heldBy_congr hheld (enforceProof_programData hmid hheld.1)
  have hrecord := (accountAt_eq_some.mp hlive).1
  -- the loader's account is not the record
  have hne : d.loader.programData target ≠ (d.findRecord w target).1 := fun heq =>
    d.programId_ne_loader (hrecord.symm.trans ((congrArg (fun k => (l k).owner) heq).symm.trans
      hheld.1))
  have hliveMid : recordAt d (handOver mid (d.loader.programData target) newAuthority)
      (d.findRecord w target).1 = some ⟨w, target, (d.findRecord w target).2⟩ := by
    have hframe : handOver mid (d.loader.programData target) newAuthority
        (d.findRecord w target).1 = mid (d.findRecord w target).1 := Ledger.set_of_ne _ hne.symm
    exact (accountAt_congr ⟨by rw [hframe], by rw [hframe]⟩).trans
      ((recordAt_external (enforceProof_external hmid) _).trans hlive)
  obtain ⟨hclosed, -, hregistries⟩ := closeRecord_spec hliveMid hclose
  obtain ⟨-, hframe⟩ := closeAccount_spec hclose
  have hregistries' : Guard.SameRegistries d.guard mid
      (handOver mid (d.loader.programData target) newAuthority) := by
    have hbefore : (mid (d.loader.programData target)).owner ≠ d.guard.programId := by
      rw [hheldMid.1]
      exact d.guard_ne_loader.symm
    refine Guard.sameRegistries_of_frame hbefore ?_ fun k hk => ?_
    · rw [(heldBy_handOver hheldMid).1]
      exact d.guard_ne_loader.symm
    · rw [handOver, Ledger.set_of_ne _ hk]
      exact ⟨rfl, rfl⟩
  refine ⟨heldBy_congr (heldBy_handOver hheldMid) (hframe _ hne), not_live_of_none hclosed, ?_,
    ((enforceProof_grows hmid).of_sameRegistries hregistries').of_sameRegistries hregistries⟩
  simp only [closeAccount, returns_bind, returns_u64Add, returns_pure] at hclose
  obtain ⟨credited, ⟨hroom, rfl⟩, rfl⟩ := hclose
  rw [Ledger.set_of_ne _ hpda.symm, Ledger.set_self]
  simp only [handOver_lamports, (hkept _).1] at hroom ⊢
  exact (UInt64.toNat_add _ _).trans (Nat.mod_eq_of_lt hroom)

/-- What a reclaim of the SDK's comes to. -/
theorem returns_sdkReclaim (hdevnet : d.network = .devnet) (hloader : SetsAuthority d.loader)
    (hd : Authority.Derived d l) (hpda : (d.findRecord w target).1 ≠ w)
    (howner : (l (d.loader.programData target)).owner = bpfLoaderId)
    (hstate : loaderState (l (d.loader.programData target)) = some .programData) :
    (Authority.process d env (sdkReclaim d w target newAuthority).accounts
        (sdkReclaim d w target newAuthority).data l).Returns l' ↔
      Live d w target l ∧ (∃ r, Guard.registryOf d.guard l w = some r) ∧
      HeldBy l (d.loader.programData target) (d.findRecord w target).1 ∧
      ∃ mid, (enforceProof d env (d.guard.findRegistry w) w l).Returns mid ∧
        (closeAccount (d.findRecord w target).1 w
          (handOver mid (d.loader.programData target) newAuthority) :
            Authority.Result Ledger).Returns l' := by
  have hseeds : authoritySeeds d (sdkContext d w target newAuthority).authorityRecord =
      some (d.findRecord w target).1 := d.createRecord_find w target
  -- the loader finds the program data as the instruction did
  have hcall : ∀ mid, (enforceProof d env (d.guard.findRegistry w) w l).Returns mid →
      d.loader.invoke (sdkCall d w target newAuthority) mid =
        if HeldBy l (d.loader.programData target) (d.findRecord w target).1 then
          some (handOver mid (d.loader.programData target) newAuthority) else none := by
    intro mid hmid
    obtain ⟨howner', hdata'⟩ := enforceProof_programData hmid howner
    have hstate' : loaderState (mid (d.loader.programData target)) =
        loaderState (l (d.loader.programData target)) := by
      rw [loaderState, hdata', loaderState]
    rw [hloader _ _ _ _ _ rfl (hstate'.trans hstate), setAuthority_sdk]
    exact if_congr (by rw [HeldBy, howner', hstate', hdata', HeldBy]) rfl rfl
  constructor
  · intro h
    obtain ⟨ix, hix, hrun⟩ := returns_bind.mp h
    obtain rfl := hix.unique (sdkReclaim_parsed d w target newAuthority)
    simp only [Authority.execute, returns_bind, returns_reclaimAuthority] at hrun
    obtain ⟨ctx, hctx, l₂, ⟨mid, pda, hmid, hpda', hinvoke⟩, hclose⟩ := hrun
    obtain ⟨hlive, hregistry, rfl⟩ := (tryAccounts_sdk hdevnet hd hpda).mp hctx
    obtain rfl := Option.some.inj (hseeds.symm.trans hpda')
    have heq := (hcall mid hmid).symm.trans hinvoke
    split at heq
    next hheld =>
      obtain rfl := Option.some.inj heq
      exact ⟨hlive, hregistry, hheld, mid, hmid, hclose⟩
    next => cases heq
  · intro h
    obtain ⟨hlive, hregistry, hheld, mid, hmid, hclose⟩ := h
    have hctx : (ReclaimAuthority.tryAccounts d (sdkReclaim d w target newAuthority).accounts
        l).Returns (sdkContext d w target newAuthority) :=
      (tryAccounts_sdk hdevnet hd hpda).mpr ⟨hlive, hregistry, rfl⟩
    exact process_reclaimAuthority_of (sdkReclaim_parsed d w target newAuthority) hctx hmid hseeds
      ((hcall mid hmid).trans (if_pos hheld)) hclose

end Reclaim

/-- In every reachable state the reclaim the SDK builds goes through exactly when
the wallet's record of the program is there, the transaction carries a proof of
its registry and the record's address is the upgrade authority. Then the new key
has the authority, the record is gone, its rent is the wallet's and one nonce is
used up. -/
theorem reclaim_succeeds_iff {d : Authority.Deployment} {l₀ l : Ledger}
    {trace : List Authority.Moment} {w target newAuthority : Pubkey} {env : Guard.Env}
    (hdevnet : d.network = .devnet) (hloader : SetsAuthority d.loader)
    (hgenesis : Ledger.Genesis d.programId l₀) (hguard : Ledger.Genesis d.guard.programId l₀)
    (hrun : Run (Authority.Step d) l₀ trace l) (hpda : (d.findRecord w target).1 ≠ w)
    (howner : (l (d.loader.programData target)).owner = bpfLoaderId)
    (hstate : loaderState (l (d.loader.programData target)) = some .programData)
    (hroom : (l w).lamports.toNat + (l (d.findRecord w target).1).lamports.toNat < 2 ^ 64) :
    ((∃ l', Authority.Step d l (.executed ⟨env, (sdkReclaim d w target newAuthority).accounts,
        (sdkReclaim d w target newAuthority).data⟩) l') ↔
      Live d w target l ∧ Approves d.guard env l w .require ∧
        HeldBy l (d.loader.programData target) (d.findRecord w target).1) ∧
    ∀ l', Authority.Step d l (.executed ⟨env, (sdkReclaim d w target newAuthority).accounts,
        (sdkReclaim d w target newAuthority).data⟩) l' →
      HeldBy l' (d.loader.programData target) newAuthority ∧ ¬Live d w target l' ∧
      (l' w).lamports.toNat =
        (l w).lamports.toNat + (l (d.findRecord w target).1).lamports.toNat ∧
      Authority.NonceGrows d.guard l l' w := by
  have hlayout : Guard.Layout d.guard l :=
    hrun.invariant (fun _ _ _ hl hstep => Authority.layout_step hl hstep)
      (Guard.layout_genesis hguard)
  have hderived : Authority.Derived d l :=
    hrun.invariant (fun _ _ _ hd hstep => Authority.derived_step hstep hd)
      (Authority.derived_genesis hgenesis)
  have hreturns : ∀ l', (Authority.process d env (sdkReclaim d w target newAuthority).accounts
      (sdkReclaim d w target newAuthority).data l).Returns l' ↔ _ := fun l' =>
    returns_sdkReclaim hdevnet hloader hderived hpda howner hstate
  have heval : Guard.Policy.require.evaluable env = true := rfl
  have hproof : (∃ mid, (enforceProof d env (d.guard.findRegistry w) w l).Returns mid) ↔
      Approves d.guard env l w .require := by
    simp only [enforceProof, returns_embed]
    rw [invokeEnforce_iff hlayout heval]
    exact ⟨fun h => h rfl, fun h _ => h⟩
  refine ⟨⟨?_, ?_⟩, ?_⟩
  · intro hsome
    obtain ⟨l', hstep⟩ := hsome
    cases hstep with
    | executed h =>
      obtain ⟨hlive, -, hheld, mid, hmid, -⟩ := (hreturns l').mp h
      exact ⟨hlive, hproof.mp ⟨mid, hmid⟩, hheld⟩
  · intro hready
    obtain ⟨hlive, happroved, hheld⟩ := hready
    obtain ⟨mid, hmid⟩ := hproof.mpr happroved
    obtain ⟨hkept, -⟩ := enforceProof_frame hmid
    obtain ⟨r, -, -, -, hregistry, -⟩ := happroved
    -- the guard has moved no lamports, so the room for the record's rent is still there
    have hclose : ∃ l', (closeAccount (d.findRecord w target).1 w
        (handOver mid (d.loader.programData target) newAuthority) :
          Authority.Result Ledger).Returns l' := by
      simp only [closeAccount, returns_bind, returns_u64Add, returns_pure, handOver_lamports,
        (hkept _).1]
      exact ⟨_, _, ⟨hroom, rfl⟩, rfl⟩
    obtain ⟨l', hclose⟩ := hclose
    exact ⟨l', .executed ((hreturns l').mpr ⟨hlive, ⟨r, hregistry⟩, hheld, mid, hmid, hclose⟩)⟩
  · intro l' hstep
    cases hstep with
    | executed h =>
      obtain ⟨hlive, -, hheld, mid, hmid, hclose⟩ := (hreturns l').mp h
      exact sdkReclaim_leaves hpda hlive hheld hmid hclose

/-! ## The scripts -/

/-- The call has the accounts and the data of this instruction. Flags may
differ: the message that is sent has one entry for an address, with the flags of
all its places. -/
structure SameMessage (c : Guard.Call) (ix : Instruction) : Prop where
  accounts : c.accounts.map AccountMeta.pubkey = ix.accountKeys
  data : c.data = ix.data

/-- The call is one that the scripts send for this wallet. -/
inductive ByScript (d : Authority.Deployment) (w : Pubkey) (c : Guard.Call) : Prop where
  | secure (target : Pubkey) (same : SameMessage c (Authority.Scripts.registerIx d w target))
  | upgrade (target programData buffer : Pubkey)
    (same : SameMessage c (Authority.Scripts.executeUpgradeIx d w target programData buffer))
  | reclaim (target programData newAuthority : Pubkey)
    (same : SameMessage c (Authority.Scripts.reclaimIx d w target programData newAuthority))

section Script

variable {d : Authority.Deployment} {w : Pubkey} {c : Guard.Call} {l : Ledger}

theorem take_reclaim_data (newAuthority : Pubkey) :
    (reclaimAuthorityDisc ++ newAuthority.bytes).take 8 = reclaimAuthorityDisc := rfl

/-- A script's call satisfies neither guarded context. -/
theorem ByScript.no_context (h : ByScript d w c) :
    (∀ ctx, (parseInstruction c.data).Returns .executeUpgrade →
      ¬(ExecuteUpgrade.tryAccounts d c.accounts l).Returns ctx) ∧
    ∀ ctx newAuthority, (parseInstruction c.data).Returns (.reclaimAuthority newAuthority) →
      ¬(ReclaimAuthority.tryAccounts d c.accounts l).Returns ctx := by
  constructor
  · intro ctx hparsed
    -- two of the three have another discriminator; the third lists the wrong accounts
    have hdisc := take_of_parse hparsed
    cases h with
    | secure target same =>
      rw [same.data] at hdisc
      exact absurd hdisc (by decide : registerDisc.take 8 ≠ executeUpgradeDisc)
    | upgrade target programData buffer same =>
      exact Authority.Scripts.upgrade_refused same.accounts
    | reclaim target programData newAuthority same =>
      rw [same.data] at hdisc
      exact absurd ((take_reclaim_data newAuthority).symm.trans hdisc)
        (by decide : reclaimAuthorityDisc ≠ executeUpgradeDisc)
  · intro ctx newAuthority hparsed
    have hdisc := take_of_parse hparsed
    cases h with
    | secure target same =>
      rw [same.data] at hdisc
      exact absurd hdisc (by decide : registerDisc.take 8 ≠ reclaimAuthorityDisc)
    | upgrade target programData buffer same =>
      rw [same.data] at hdisc
      exact absurd hdisc (by decide : executeUpgradeDisc.take 8 ≠ reclaimAuthorityDisc)
    | reclaim target programData newAuthority same =>
      exact Authority.Scripts.reclaim_refused same.accounts

/-- A record its owner's scripts alone are used for stays. -/
theorem live_step_script {l' : Ledger} {a : Authority.Label} {target : Pubkey}
    (hd : Authority.Derived d l) (h : Authority.Step d l a l') (hlive : Live d w target l)
    (hscript : ∀ c, a = .executed c → c.accounts[1]?.map AccountMeta.pubkey = some w →
      ByScript d w c) : Live d w target l' := by
  by_contra hgone
  have hcount : liveCount d w target l' + (if a.reclaims w target then 1 else 0) =
      liveCount d w target l + if a.registers w target then 1 else 0 := live_step hd h
  rw [liveCount_one hlive, liveCount_zero hgone] at hcount
  -- a record goes by a reclaim only, and that is a script's call
  have hreclaims : a.reclaims w target = true := by
    by_contra hidle
    rw [Bool.not_eq_true] at hidle
    rw [hidle, if_neg Bool.false_ne_true] at hcount
    omega
  cases h with
  | executed h =>
    obtain ⟨hdisc, hnamed, -⟩ := reclaims_executed.mp hreclaims
    obtain ⟨ix, hix, hrun⟩ := returns_bind.mp h
    have hix' := (take_of_parse hix).symm.trans hdisc
    cases ix with
    | register => exact absurd hix' (by decide : registerDisc ≠ reclaimAuthorityDisc)
    | executeUpgrade =>
      exact absurd hix' (by decide : executeUpgradeDisc ≠ reclaimAuthorityDisc)
    | reclaimAuthority newAuthority =>
      obtain ⟨ctx, hctx, -⟩ := reclaimAuthority_effect hrun
      exact (hscript _ rfl hnamed).no_context.2 ctx newAuthority hix hctx
  | failed => cases hreclaims
  | guard => cases hreclaims
  | rolledBack => cases hreclaims
  | other => cases hreclaims

/-- A script's call reaches the loader in no case. -/
theorem ByScript.not_invoked {call : SignedCall} {mid : Ledger} (h : ByScript d w c) :
    ¬Invoked d c.env c.accounts c.data l call mid := by
  intro hinvoked
  cases hinvoked with
  | upgrade parsed context enforced seeds => exact h.no_context.1 _ parsed context
  | reclaim parsed context enforced seeds => exact h.no_context.2 _ _ parsed context

end Script

/-- Once a wallet's record of a program is there, the scripts do not get the
authority back or upgrade the program: in every run in which the wallet's calls
are theirs the record stays, and its address signs nothing. -/
theorem scripts_never_reclaim {d : Authority.Deployment} {l₀ l₁ l : Ledger}
    {before trace : List Authority.Moment} {w target : Pubkey}
    (hgenesis : Ledger.Genesis d.programId l₀) (hbefore : Run (Authority.Step d) l₀ before l₁)
    (hlive : Live d w target l₁) (hrun : Run (Authority.Step d) l₁ trace l)
    (hscripts : ∀ t ∈ trace, ∀ c, t.label = .executed c ∨ t.label = .failed c →
      c.accounts[1]?.map AccountMeta.pubkey = some w → ByScript d w c) :
    Live d w target l ∧ ∀ t ∈ trace, ∀ c call mid,
      CallsLoader d t.before t.label c call mid →
        call.signers ≠ [(d.findRecord w target).1] := by
  have hderived : Authority.Derived d l₁ :=
    hbefore.invariant (fun _ _ _ hd hstep => Authority.derived_step hstep hd)
      (Authority.derived_genesis hgenesis)
  let Kept : Ledger → Prop := fun l => Authority.Derived d l ∧ Live d w target l
  have hkeep : ∀ t ∈ trace, Kept t.before → Kept t.after := by
    intro t ht hboth
    have hstep := hrun.step t ht
    exact ⟨Authority.derived_step hstep hboth.1, live_step_script hboth.1 hstep hboth.2
      fun c hlabel => hscripts t ht c (Or.inl hlabel)⟩
  have hkept : Kept l₁ := ⟨hderived, hlive⟩
  refine ⟨(hrun.stays hkept hkeep).2, ?_⟩
  intro t ht c call mid hcalls hsigned
  obtain ⟨hd, hlive⟩ := (hrun.stays_at hkept hkeep t ht).1
  have hinvoked := invoked_iff.mp hcalls.2
  obtain ⟨owner, target', hlive', hsigners, howner, -⟩ := invoked_live hd hinvoked
  -- one address holds one record
  have hkey := (List.cons.inj (hsigners.symm.trans hsigned)).1
  rw [Live, hkey, hlive] at hlive'
  obtain ⟨rfl, -, -⟩ := AuthorityRecord.mk.inj (Option.some.inj hlive')
  exact (hscripts t ht c hcalls.1 howner).not_invoked hinvoked

/-! ### A wallet reclaims on devnet -/

section Devnet

open Sdk.Localnet

/-- The wallet's registry PDA on devnet, bump 255. -/
def devnetRegistryPda : Pubkey :=
  ⟨[59, 246, 183, 157, 233, 145, 213, 141, 89, 113, 136, 193, 101, 166, 175, 11, 134, 53, 3,
    127, 143, 106, 33, 159, 134, 218, 50, 146, 149, 161, 112, 167], by decide⟩

/-- The record PDA of the wallet and the demo vault on devnet, bump 253. -/
def devnetRecordPda : Pubkey :=
  ⟨[60, 215, 76, 122, 99, 156, 225, 231, 31, 238, 216, 214, 94, 46, 122, 189, 166, 134, 226, 225,
    104, 30, 8, 34, 21, 96, 211, 249, 32, 187, 146, 196], by decide⟩

/-- The guard on devnet, with the derived addresses of this wallet. -/
def devnetGuard : Guard.Deployment where
  programId := Guard.devnetId
  findRegistry := Equiv.swap wallet devnetRegistryPda
  findConfig := devnetConfigPda
  registry_inj := (Equiv.swap wallet devnetRegistryPda).injective
  programId_ne := devnetId_ne_system
  programId_ne_secp := devnetId_ne_secp

def devnetAuthority : Authority.Deployment where
  guard := devnetGuard
  loader := setAuthorityLoader
  network := .devnet
  findRecord _ _ := (devnetRecordPda, 253)
  createRecord _ _ bump := if bump = 253 then some devnetRecordPda else none
  guard_network := rfl
  createRecord_find _ _ := rfl

/-- Set-up on devnet: the config, the wallet's passkey and its record. -/
def devnetLabels : List Authority.Label :=
  let initConfigIx : Instruction :=
    { programId := Guard.devnetId
      accounts := [writableMeta devnetConfigPda, signerMeta wallet, readonlyMeta systemProgramId]
      data := initConfigIx.data }
  let registerPasskeyIx : Instruction :=
    { programId := Guard.devnetId
      accounts := [writableMeta devnetRegistryPda, signerMeta wallet, readonlyMeta systemProgramId,
        readonlyMeta devnetConfigPda, writableMeta treasury]
      data := registerPasskeyIx.data }
  let registerIx := TranaAuthorityClient.register devnetAuthority wallet Vault.vaultId
  [.guard (call [initConfigIx] 0 initConfigIx), .guard (call [registerPasskeyIx] 0
    registerPasskeyIx), .executed (call [registerIx] 0 registerIx)]

/-- The vault's authority is the record PDA. -/
def devnetDelegated : Ledger :=
  genesis.set programDataPda ⟨10000000, bpfLoaderId, programDataOf devnetRecordPda [0, 0, 0, 0]⟩

def devnetRecorded : Ledger :=
  (replay (Authority.next? devnetAuthority) devnetDelegated devnetLabels).getD devnetDelegated

theorem run_devnetRecorded : ∃ trace,
    Run (Authority.Step devnetAuthority) devnetDelegated trace devnetRecorded ∧
    trace.map Transition.label = devnetLabels := by
  have hsome : (replay (Authority.next? devnetAuthority) devnetDelegated
      devnetLabels).isSome = true := by
    decide +kernel
  obtain ⟨l, hl⟩ := Option.isSome_iff_exists.mp hsome
  have hrecorded : devnetRecorded = l := by rw [devnetRecorded, hl]; rfl
  rw [hrecorded]
  exact run_of_replay (fun _ _ _ => Authority.step_of_next?) hl

theorem devnetRecorded_state :
    Live devnetAuthority wallet Vault.vaultId devnetRecorded ∧
    Guard.registryAt devnetGuard devnetRecorded devnetRegistryPda = some (registry 0) ∧
    HeldBy devnetRecorded programDataPda devnetRecordPda ∧
    (devnetRecorded wallet).lamports.toNat +
      (devnetRecorded devnetRecordPda).lamports.toNat < 2 ^ 64 := by
  decide +kernel

theorem genesis_devnetDelegated {p : Pubkey} (hsystem : p ≠ systemProgramId)
    (hloader : p ≠ bpfLoaderId) : Ledger.Genesis p devnetDelegated := by
  intro k hk
  by_cases hpd : k = programDataPda
  · rw [hpd, devnetDelegated, Ledger.set_self] at hk
    exact absurd hk.symm hloader
  · rw [devnetDelegated, Ledger.set_of_ne _ hpd] at hk ⊢
    exact genesis_of_ne hsystem k hk

/-- This loader sets authorities. -/
theorem setAuthorityLoader_sets : SetsAuthority setAuthorityLoader :=
  fun _ _ _ _ _ _ _ => rfl

/-- Back to the treasury, behind its proof. -/
def devnetReclaimIx : Instruction := sdkReclaim devnetAuthority wallet Vault.vaultId treasury

/-- The passkey's signature for it at nonce zero. -/
def devnetReclaimApproval : Sdk.Assertion :=
  assertion
    [126, 61, 127, 111, 95, 10, 15, 118, 60, 127, 39, 231, 226, 75, 182, 157, 155, 80, 94, 49, 93,
     65, 244, 93, 71, 217, 44, 225, 240, 48, 45, 240, 32, 134, 28, 145, 166, 33, 224, 237, 133, 198,
     206, 106, 108, 93, 122, 208, 237, 225, 196, 32, 235, 113, 189, 236, 136, 67, 103, 23, 238, 223,
     18, 148] (by decide)

def devnetReclaimChallenge : Bytes :=
  Guard.intentHash wallet Guard.devnetId Guard.policyRequire devnetReclaimIx 0 1000

def devnetReclaimEnv : Guard.Env :=
  env (devnetReclaimApproval.proofPair Guard.devnetId devnetReclaimChallenge 1000
    Guard.policyRequire ++ [devnetReclaimIx]) 2

theorem devnetReclaim_approved :
    Approves devnetGuard devnetReclaimEnv devnetRecorded wallet .require := by
  have hfound : Guard.registryOf devnetGuard devnetRecorded wallet = some (registry 0) := by
    have hkey : devnetGuard.findRegistry wallet = devnetRegistryPda := Equiv.swap_apply_left ..
    rw [Guard.registryOf, hkey]
    exact devnetRecorded_state.2.1
  have hsecp : devnetReclaimEnv.ixSysvar.instructions[0]? =
      some (devnetReclaimApproval.secpIx devnetReclaimChallenge) := rfl
  have hrecord : devnetReclaimEnv.ixSysvar.instructions[1]? = some
      (devnetReclaimApproval.recordProofIx Guard.devnetId devnetReclaimChallenge 1000
        Guard.policyRequire) := rfl
  have hix : devnetReclaimEnv.ixSysvar.instructions[2]? = some devnetReclaimIx := rfl
  have hkey : ∃ k ∈ (registry 0).keys, k.pubkeyBytes = devnetReclaimApproval.pubkey :=
    ⟨entry, List.mem_singleton_self _, rfl⟩
  have hchallenge : devnetReclaimChallenge = Guard.intentHash wallet Guard.devnetId
      Guard.policyRequire devnetReclaimIx (registry 0).nonce (Int64.ofInt 1000) := rfl
  have hfresh : devnetReclaimEnv.clock.unixTimestamp < Int64.ofInt 1000 := by decide
  exact ⟨registry 0, _, _, _, hfound, Sdk.verified_of_proofPair (i := 2) hchallenge (by decide)
    hsecp hrecord hix (by decide) length_utf8_policyRequire hfresh hkey (by decide)⟩

theorem reclaim_succeeds_devnet : ∃ trace l',
    Run (Authority.Step devnetAuthority) devnetDelegated trace devnetRecorded ∧
    Authority.Step devnetAuthority devnetRecorded (.executed ⟨devnetReclaimEnv,
      devnetReclaimIx.accounts, devnetReclaimIx.data⟩) l' ∧
    HeldBy l' programDataPda treasury := by
  obtain ⟨trace, hrun, -⟩ := run_devnetRecorded
  obtain ⟨hlive, -, hheld, hroom⟩ := devnetRecorded_state
  have happroved := devnetReclaim_approved
  have hgenesis := genesis_devnetDelegated devnetAuthority.programId_ne
    devnetAuthority.programId_ne_loader
  have hguard := genesis_devnetDelegated devnetGuard.programId_ne devnetAuthority.guard_ne_loader
  have hpda : (devnetAuthority.findRecord wallet Vault.vaultId).1 ≠ wallet := by decide +kernel
  generalize devnetRecorded = l at hrun hlive hheld hroom happroved ⊢
  have hboth : _ ∧ ∀ l', Authority.Step devnetAuthority l (.executed ⟨devnetReclaimEnv,
      devnetReclaimIx.accounts, devnetReclaimIx.data⟩) l' → _ :=
    reclaim_succeeds_iff rfl setAuthorityLoader_sets hgenesis hguard hrun hpda hheld.1 hheld.2.1
      hroom
  obtain ⟨l', hstep⟩ := hboth.1.mpr ⟨hlive, happroved, hheld⟩
  exact ⟨trace, l', hrun, hstep, (hboth.2 l' hstep).1⟩

/-- One registration, no reclaim yet. -/
theorem authority_history_devnet : ∃ trace,
    Run (Authority.Step devnetAuthority) devnetDelegated trace devnetRecorded ∧
    1 + trace.countP (fun t => t.label.reclaims wallet Vault.vaultId) =
      trace.countP fun t => t.label.registers wallet Vault.vaultId := by
  obtain ⟨trace, hrun, -⟩ := run_devnetRecorded
  have hgenesis := genesis_devnetDelegated devnetAuthority.programId_ne
    devnetAuthority.programId_ne_loader
  have hcount := (authority_history hgenesis hrun).1 wallet Vault.vaultId
  rw [liveCount_one devnetRecorded_state.1] at hcount
  exact ⟨trace, hrun, hcount⟩

/-- The script's reclaim. -/
def scriptReclaim : Guard.Call :=
  let ix := Authority.Scripts.reclaimIx devnetAuthority wallet Vault.vaultId programDataPda treasury
  call [ix] 0 ix

theorem scripts_never_reclaim_devnet : ∃ before trace,
    Run (Authority.Step devnetAuthority) devnetDelegated before devnetRecorded ∧
    Run (Authority.Step devnetAuthority) devnetRecorded trace devnetRecorded ∧
    trace.map Transition.label = [.failed scriptReclaim] ∧
    Live devnetAuthority wallet Vault.vaultId devnetRecorded := by
  obtain ⟨before, hbefore, -⟩ := run_devnetRecorded
  have hgenesis := genesis_devnetDelegated devnetAuthority.programId_ne
    devnetAuthority.programId_ne_loader
  have hstep : Authority.Step devnetAuthority devnetRecorded (.failed scriptReclaim)
      devnetRecorded := .failed (e := .err (.anchor .accountNotEnoughKeys)) rfl
  have hrun := Run.cons hstep (.nil devnetRecorded)
  refine ⟨before, _, hbefore, hrun, rfl, (scripts_never_reclaim hgenesis hbefore
    devnetRecorded_state.1 hrun fun t ht c hlabel _ => ?_).1⟩
  obtain rfl := List.mem_singleton.mp ht
  rcases hlabel with heq | heq
  · cases heq
  · obtain rfl := Authority.Label.failed.inj heq
    exact .reclaim Vault.vaultId programDataPda treasury ⟨rfl, rfl⟩

end Devnet

end Trana.Security
