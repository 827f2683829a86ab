import Trana.Counter.App
import Trana.Security.DemoReads
import Trana.Security.Withdrawals

/-!
# A counter shows its approvals

The counter is the smallest program behind the guard. Over any run it has been
raised once for each approval: every increment was signed by the owner, carried
a proof of the owner's registry and used up its nonce, and nothing else moves,
resets or removes a counter.

* `increment_paid` — what an increment cost.
* `counter_history` — the count of a run.
* `increment_succeeds_iff` — when the increment the app builds goes through, and
  what the app then shows.

A run has the counter's calls, the guard's, and steps of other programs, which
cannot write to what the counter or the guard owns. The count is compared with
the number of increments in the run, so nothing is assumed of the state in
between; it is a `u64` whose end is checked, and an increment there fails.

Each increment consumes one nonce, and the registry serves other programs too,
so the count is at most the nonce as long as nothing sets that back: a recovery
does, and is excluded for that part alone.

The app reads the account with Anchor's coder and takes a missing account for no
counter. The instruction is all the second result speaks of: signature, blockhash
and fee of its transaction are the wallet's business.
-/

namespace Trana.Security

open Trana.Lib Trana.Lib.Exec Trana.Solana Trana.Counter

/-! ## History -/

section History

variable {d : Counter.Deployment} {l₀ l l' : Ledger} {k : Pubkey} {trace : List Counter.Moment}

/-- The guard let an increment pass for a proof, and used up its nonce. -/
theorem increment_paid {env : Guard.Env} {ctx : Increment} {called : Ledger}
    (hl : Guard.Layout d.guard l) (h : Incremented d env ctx l l' called) :
    Approves d.guard env l ctx.owner .require ∧ ConsumesOwn d.guard l l' ctx.owner := by
  have hcall := h.call
  cases hcall with
  | executed hrun =>
    obtain ⟨ix, hix, hrun⟩ := returns_bind.mp hrun
    obtain rfl := (Guard.parse_enforceData .require).unique hix
    -- the call to the guard is `enforce(Require)`, which fires always
    cases Guard.enforce_effect hrun with
    | enforceFree idle evaluable same => nomatch idle
    | enforceProof w key r names fires found owner_eq verified stores =>
      obtain ⟨rfl, rfl⟩ : key = ctx.tranaRegistry ∧ w = ctx.owner :=
        names.unique ⟨rfl, _, rfl, rfl, rfl⟩
      -- the registry checked is the owner's own, wherever the accounts came from
      have hkey : ctx.tranaRegistry = d.guard.findRegistry ctx.owner := by
        rw [hl _ r found, owner_eq]
      obtain ⟨proof, ix, secpIx, hverified⟩ := verified
      have hstored := stores.registryAt_self
      rw [hkey] at found hstored
      refine ⟨⟨r, proof, ix, secpIx, found, hverified⟩, r, found, owner_eq, ?_⟩
      rw [h.registries, hstored]

/-- The owner of a counter is its owner for good. -/
theorem counter_owner_run {c : CounterState} (h : Run (Counter.Step d) l trace l')
    (hc : counterAt l k = some c) : ∃ c', counterAt l' k = some c' ∧ c'.owner = c.owner := by
  induction h generalizing c with
  | nil => exact ⟨c, hc, rfl⟩
  | cons step _ ih =>
    obtain ⟨c₁, hc₁, howner₁, -⟩ := owner_step step hc
    obtain ⟨c', hc', howner'⟩ := ih hc₁
    exact ⟨c', hc', howner'.trans howner₁⟩

/-- What was there at some moment had the owner it has in the end. -/
theorem owner_before {c c' : CounterState} (h : Run (Counter.Step d) l trace l')
    (hc : counterAt l k = some c) (hc' : counterAt l' k = some c') : c.owner = c'.owner := by
  obtain ⟨c₁, hc₁, howner⟩ := counter_owner_run h hc
  obtain rfl := Option.some.inj (hc₁.symm.trans hc')
  exact howner.symm

/-- A step that increments is one of the owner, paid for with a nonce. -/
theorem increments_paid {t : Counter.Moment} (hl : Guard.Layout d.guard t.before)
    (h : Counter.Step d t.before t.label t.after) (hincr : t.label.increments k = true) :
    ∃ call c, t.label = .counter call ∧ counterAt t.before k = some c ∧
      (∃ m, call.accounts[1]? = some m ∧ m.pubkey = c.owner ∧ m.isSigner = true) ∧
      Approves d.guard call.env t.before c.owner .require ∧
      ConsumesOwn d.guard t.before t.after c.owner := by
  cases step_effect h with
  | quiet counters idle registries => cases hincr.symm.trans (idle k)
  | created ctx effect idle => cases hincr.symm.trans (idle k)
  | incremented call ctx called label signed names effect =>
    obtain rfl := (names k).mp hincr
    obtain ⟨happroved, hconsumed⟩ := increment_paid hl effect
    rw [← effect.owner_eq] at signed happroved hconsumed
    exact ⟨call, ctx.counter, label, effect.found, signed, happroved, hconsumed⟩

end History

/-- In every run of the chain a counter sits at the address of its owner and
shows the number of its increments; each of them was signed by the owner and
took a proof and a nonce of the owner's registry. As long as the owner does not
recover the registry, the count is at most its nonce. -/
theorem counter_history {d : Counter.Deployment} {l₀ l : Ledger} {trace : List Counter.Moment}
    {k : Pubkey} {c : CounterState} (hcounter : Ledger.Genesis counterId l₀)
    (hguard : Ledger.Genesis d.guard.programId l₀) (hrun : Run (Counter.Step d) l₀ trace l)
    (hc : counterAt l k = some c) :
    d.findCounter c.owner = (k, c.bump) ∧
    c.count.toNat = trace.countP (fun t => t.label.increments k) ∧
    (∀ t ∈ trace, t.label.increments k = true → ∃ call, t.label = .counter call ∧
      (∃ m, call.accounts[1]? = some m ∧ m.pubkey = c.owner ∧ m.isSigner = true) ∧
      Approves d.guard call.env t.before c.owner .require ∧
      ConsumesOwn d.guard t.before t.after c.owner) ∧
    ((∀ t ∈ trace, ¬Counter.Recovers c.owner t.label) →
      c.count.toNat ≤ Keyring.counter (Guard.ringOf d.guard c.owner l)) := by
  have hlayout : ∀ t ∈ trace, Guard.Layout d.guard t.before := fun t ht =>
    (hrun.stays_at (Guard.layout_genesis hguard)
      (fun t ht hl => Counter.layout_step hl (hrun.step t ht)) t ht).1
  have hderived : Derived d l :=
    hrun.invariant (fun _ _ _ hd hstep => derived_step hstep hd) (derived_genesis hcounter)
  have hempty : counterAt l₀ k = none :=
    accountAt_zeros (fun howner => hcounter k howner) ⟨255, by decide, by decide⟩
  have hcount : c.count.toNat = trace.countP (fun t => t.label.increments k) := by
    have htally := hrun.tally (E := fun t => t.label.increments k) (f := countAt k)
      fun t ht => count_step (hrun.step t ht)
    rwa [countAt_some hc, countAt_none hempty, Nat.zero_add] at htally
  -- whoever owned the counter at a moment of the run owns it in the end
  have howner : ∀ t ∈ trace, ∀ c', counterAt t.before k = some c' → c'.owner = c.owner := by
    intro t ht c' hc'
    obtain ⟨pre, post, rfl⟩ := List.append_of_mem ht
    obtain ⟨-, hstep, hpost⟩ := hrun.split
    exact owner_before (.cons hstep hpost) hc' hc
  refine ⟨hderived k c hc, hcount, fun t ht hincr => ?_, fun hno => ?_⟩
  · obtain ⟨call, c', hlabel, hfound, hsigned, happroved, hconsumed⟩ :=
      increments_paid (hlayout t ht) (hrun.step t ht) hincr
    rw [howner t ht c' hfound] at hsigned happroved hconsumed
    exact ⟨call, hlabel, hsigned, happroved, hconsumed⟩
  · rw [hcount]
    refine Nat.le_trans (Nat.le_add_left _ _) (hrun.tally_le
      (f := fun l => Keyring.counter (Guard.ringOf d.guard c.owner l)) fun t ht => ?_)
    refine counter_mono (c := (counterAt t.before k).getD c) (hlayout t ht) (hrun.step t ht)
      (hno t ht) ?_
    cases hbefore : counterAt t.before k with
    | none => exact Or.inl rfl
    | some c' => exact Or.inr ⟨rfl, howner t ht c' hbefore⟩

/-! ## The app -/

section App

variable {d : Counter.Deployment} {l l' : Ledger} {env : Guard.Env} {w : Pubkey} {c : CounterState}

theorem incrementIx_parsed (d : Counter.Deployment) (w : Pubkey) :
    (parseInstruction (incrementIx d w).data).Returns .increment := by
  show (parseInstruction (disc "global:increment")).Returns .increment
  rw [disc_increment]
  rfl

/-- A counter is its three fields, in a row. -/
theorem write_counter (c : CounterState) : CounterState.codec.write c =
    some (leBytes 8 c.count.toNat ++ (c.owner.bytes ++ leBytes 1 c.bump.toNat)) := by
  simp [CounterState.codec, Codec.map, Codec.pair, Pubkey.codec, Codec.bytesN, Codec.u64,
    Codec.ofWord, Codec.u8]

/-- The context of the app's increment. -/
def appContext (d : Counter.Deployment) (w : Pubkey) (c : CounterState) : Increment where
  counterKey := counterPda d w
  counter := c
  owner := w
  tranaRegistry := registryPda d w

/-- The accounts the app lists satisfy it for the owner of a counter, and for
nobody else. -/
theorem tryAccounts_app (hguard : d.guard.programId = tranaGuardId) (hderived : Derived d l)
    {ctx : Increment} : (Increment.tryAccounts d (incrementIx d w).accounts l).Returns ctx ↔
      ∃ c, counterAt l (counterPda d w) = some c ∧ c.owner = w ∧ ctx = appContext d w c := by
  constructor
  · intro h
    simp only [incrementIx, Increment.tryAccounts, returns_bind, returns_signer,
      returns_constraintHasOne, returns_pure] at h
    obtain ⟨c, hload, _, ⟨-, rfl⟩, _, -, _, -, _, -, _, howner, _, -, _, -, rfl⟩ := h
    exact ⟨c, accountAt_of_load hload, howner, rfl⟩
  · intro h
    obtain ⟨c, hc, rfl, rfl⟩ := h
    have hpda := hderived _ c hc
    -- the bump stored in the counter is the one its address was found with
    have hbump : d.createCounter c.owner c.bump = some (counterPda d c.owner) := by
      have hfind := d.createCounter_find c.owner
      rwa [hpda] at hfind
    simp only [incrementIx, Increment.tryAccounts, returns_bind, returns_signer,
      returns_programAccount, returns_constraintBump, returns_constraintMut,
      returns_constraintHasOne, returns_constraintAddress, returns_pure, exists_const]
    exact ⟨c, load_of_accountAt counterId_ne_system hc, c.owner, ⟨trivial, rfl⟩, hguard.symm,
      hbump, trivial, rfl, trivial, trivial, rfl⟩

/-- What suffices for an increment to succeed. -/
theorem execute_increment_of {accounts : List AccountMeta} {ctx : Increment} {called : Ledger}
    (hctx : (Increment.tryAccounts d accounts l).Returns ctx)
    (hcall : (cpiEnforce d env ctx .require l).Returns called)
    (hroom : ctx.counter.count.toNat + 1 < 2 ^ 64) :
    ∃ l', (execute d env accounts .increment l).Returns l' := by
  obtain ⟨hfound, -, -, -⟩ := increment_tryAccounts hctx
  obtain ⟨hkept, hdata⟩ := Guard.invokeEnforce_frame (returns_embed.mp hcall)
  have hprogram := (accountAt_eq_some.mp hfound).1
  have hne : (l ctx.counterKey).owner ≠ d.guard.programId := fun heq =>
    d.guard_ne (heq.symm.trans hprogram)
  -- the guard writes to nothing the counter program owns
  have hfound' : counterAt called ctx.counterKey = some ctx.counter := by
    rw [counterAt_congr ⟨(hkept _).2, hdata _ hne⟩, hfound]
  obtain ⟨l', hexit⟩ := exitAccount_replaces hfound'
    (write_counter { ctx.counter with count := ctx.counter.count + 1 }) fun body hbody => by
      obtain rfl := Option.some.inj ((write_counter ctx.counter).symm.trans hbody)
      simp only [List.length_append, length_leBytes]
  refine ⟨l', ?_⟩
  simp only [execute, increment, returns_bind, returns_u64Add, returns_pure]
  exact ⟨ctx, hctx, _, ⟨called, hcall, _, ⟨hroom, rfl⟩, rfl⟩, hexit⟩

/-- The app shows a counter as it is. -/
theorem fetchCounter_eq {getAccountInfo : Pubkey → Option Landing.AccountInfo}
    (h : Answers getAccountInfo l) (hc : counterAt l (counterPda d w) = some c) :
    fetchCounter d getAccountInfo w = .ok (some ⟨c.count.toNat, c.owner⟩) := by
  obtain ⟨info, hinfo, -, hbytes⟩ := h.info (data_ne_nil hc)
  obtain ⟨-, hread⟩ := accountAt_eq_some.mp hc
  obtain ⟨body, rest, hbody, hdata⟩ := AccountLayout.image_of_tryDeserialize hread
  obtain rfl := Option.some.inj ((write_counter c).symm.trans hbody)
  have himage := at_prefix (CounterState.layout.discriminator ++ (leBytes 8 c.count.toNat ++
    (c.owner.bytes ++ leBytes 1 c.bump.toNat))) rest
  rw [List.append_assoc, ← hdata, ← hbytes] at himage
  simp only [at_append, CounterState.layout.length_discriminator, length_leBytes] at himage
  -- behind the discriminator: the count, then the owner, then the bump
  obtain ⟨-, hcount, howner, -⟩ := himage
  unfold fetchCounter
  rw [hinfo]
  show (getUint 8 info.data.bytes 8 >>= _) = _
  rw [getUint_at hcount (by decide) c.count.toNat_lt]
  show Except.ok (some (CounterAccount.mk _ (Landing.publicKey _ _))) = _
  rw [publicKey_at howner]

/-- With a counter, room and a proof the app's increment goes through. -/
theorem step_increment_of (hid : d.guard.programId = tranaGuardId)
    (hl : Guard.Layout d.guard l) (hderived : Derived d l)
    (hc : counterAt l (counterPda d w) = some c) (howner : c.owner = w)
    (hroom : c.count.toNat + 1 < 2 ^ 64) (happroved : Approves d.guard env l w .require) :
    ∃ l', Counter.Step d l
      (.counter ⟨env, (incrementIx d w).accounts, (incrementIx d w).data⟩) l' := by
  have hctx := (tryAccounts_app hid hderived).mpr ⟨c, hc, howner, rfl⟩
  have heval : Guard.Policy.require.evaluable env = true := rfl
  obtain ⟨called, hcalled⟩ := (invokeEnforce_iff hl heval).mpr fun _ => happroved
  obtain ⟨l', hl'⟩ := execute_increment_of hctx (returns_embed.mpr hcalled) hroom
  exact ⟨l', .counter (returns_bind.mpr ⟨_, incrementIx_parsed d w, hl'⟩)⟩

end App

/-- In every reachable state the increment the app builds for a wallet goes through
exactly when the wallet has a counter that is not at its end and the transaction
carries a proof of the wallet's registry. The app then shows one more. -/
theorem increment_succeeds_iff {d : Counter.Deployment} {l₀ l : Ledger}
    {trace : List Counter.Moment} {w : Pubkey} {env : Guard.Env}
    (hid : d.guard.programId = tranaGuardId) (hcounter : Ledger.Genesis counterId l₀)
    (hguard : Ledger.Genesis d.guard.programId l₀) (hrun : Run (Counter.Step d) l₀ trace l) :
    ((∃ l', Counter.Step d l
        (.counter ⟨env, (incrementIx d w).accounts, (incrementIx d w).data⟩) l') ↔
      ∃ c, counterAt l (counterPda d w) = some c ∧ c.owner = w ∧ c.count.toNat + 1 < 2 ^ 64 ∧
        Approves d.guard env l w .require) ∧
    ∀ l', Counter.Step d l
        (.counter ⟨env, (incrementIx d w).accounts, (incrementIx d w).data⟩) l' →
      ∀ before after, Answers before l → Answers after l' → ∃ n,
        fetchCounter d before w = .ok (some ⟨n, w⟩) ∧
        fetchCounter d after w = .ok (some ⟨n + 1, w⟩) := by
  have hlayout : Guard.Layout d.guard l :=
    hrun.invariant (fun _ _ _ hl hstep => Counter.layout_step hl hstep)
      (Guard.layout_genesis hguard)
  have hderived : Derived d l :=
    hrun.invariant (fun _ _ _ hd hstep => derived_step hstep hd) (derived_genesis hcounter)
  have hparsed := incrementIx_parsed d w
  -- what a successful increment found and left
  have heffect : ∀ l', Counter.Step d l
      (.counter ⟨env, (incrementIx d w).accounts, (incrementIx d w).data⟩) l' →
      ∃ c called, c.owner = w ∧ Incremented d env (appContext d w c) l l' called := by
    intro l' hstep
    cases hstep with
    | counter h =>
      obtain ⟨ix, hix, hexec⟩ := returns_bind.mp h
      obtain rfl := hix.unique hparsed
      obtain ⟨ctx, called, hctx, heffect⟩ := increment_effect hexec
      obtain ⟨c, -, howner, rfl⟩ := (tryAccounts_app hid hderived).mp hctx
      exact ⟨c, called, howner, heffect⟩
  refine ⟨⟨?_, ?_⟩, ?_⟩
  · intro hsome
    obtain ⟨l', hstep⟩ := hsome
    obtain ⟨c, called, howner, heffect⟩ := heffect l' hstep
    exact ⟨c, heffect.found, howner, heffect.room, (increment_paid hlayout heffect).1⟩
  · intro hsome
    obtain ⟨c, hc, howner, hroom, happroved⟩ := hsome
    exact step_increment_of hid hlayout hderived hc howner hroom happroved
  · intro l' hstep before after hbefore hafter
    obtain ⟨c, called, rfl, heffect⟩ := heffect l' hstep
    have hshown := fetchCounter_eq hafter heffect.stored
    have hcount : (c.count + 1).toNat = c.count.toNat + 1 := by
      rw [UInt64.toNat_add]
      exact Nat.mod_eq_of_lt heffect.room
    refine ⟨c.count.toNat, fetchCounter_eq hbefore heffect.found, ?_⟩
    rw [← hcount]
    exact hshown

section Localnet

open Sdk.Localnet

/-- The wallet's counter, bump 255. -/
def walletCounter : Pubkey :=
  ⟨[244, 95, 246, 247, 176, 49, 234, 196, 110, 245, 241, 43, 159, 66, 170, 91, 89, 35, 5, 247, 95,
    49, 141, 9, 147, 97, 248, 187, 31, 197, 9, 186], by decide⟩

/-- The counter next to the localnet guard, with this wallet's counter. -/
def counterDeployment : Counter.Deployment where
  guard := deployment
  findCounter _ := (walletCounter, 255)
  createCounter _ bump := if bump = 255 then some walletCounter else none
  guard_ne := by decide
  createCounter_find _ := rfl

/-- The set-up, and a counter for the wallet. -/
def counterLabels : List Counter.Label :=
  setup.map .guard ++
    [.counter (call [initializeIx counterDeployment wallet] 0
      (initializeIx counterDeployment wallet))]

def counting : Ledger := (runLabels counterDeployment genesis counterLabels).getD genesis

theorem run_counting : ∃ trace, Run (Counter.Step counterDeployment) genesis trace counting ∧
    trace.map Transition.label = counterLabels := by
  have hsome : (runLabels counterDeployment genesis counterLabels).isSome = true := by
    decide +kernel
  obtain ⟨l, hl⟩ := Option.isSome_iff_exists.mp hsome
  have hcounting : counting = l := by rw [counting, hl]; rfl
  rw [hcounting]
  exact run_of_runLabels hl

theorem counting_accounts : counterAt counting walletCounter = some ⟨0, wallet, 255⟩ ∧
    Guard.registryAt deployment counting registryPda = some (registry 0) := by
  decide +kernel

/-- The passkey's approval of the app's increment. -/
def incrementApproval : Sdk.Assertion :=
  assertion
    [166, 112, 122, 52, 39, 21, 122, 219, 143, 88, 107, 149, 180, 44, 34, 5, 135, 158, 10, 79,
     55, 104, 162, 180, 190, 241, 6, 63, 199, 245, 33, 84, 125, 40, 215, 196, 168, 45, 191, 193,
     169, 235, 227, 145, 128, 98, 46, 20, 15, 50, 226, 205, 79, 113, 141, 10, 14, 81, 205, 133,
     135, 12, 224, 151] (by decide)

/-- The app's increment, behind its proof. -/
def incrementCall : Guard.Call :=
  provenCall incrementApproval (incrementIx counterDeployment wallet) 0

theorem increment_approved :
    Approves deployment incrementCall.env counting wallet .require := by
  have hdata : 8 ≤ (incrementIx counterDeployment wallet).data.length := by decide +kernel
  have hfound : Guard.registryOf deployment counting wallet = some (registry 0) := by
    rw [Guard.registryOf, findRegistry_wallet]
    exact counting_accounts.2
  exact ⟨registry 0, _, _, _, hfound, provenCall_verifies rfl (by decide) hdata
    ⟨entry, List.mem_singleton_self _, rfl⟩⟩

/-- One approval, one increment. -/
theorem counter_history_localnet : ∃ trace l c,
    Run (Counter.Step counterDeployment) genesis trace l ∧
    counterAt l walletCounter = some c ∧ c.count.toNat = 1 ∧
    c.count.toNat = trace.countP (fun t => t.label.increments walletCounter) := by
  obtain ⟨trace, hrun, hlabels⟩ := run_counting
  have hlayout : Guard.Layout deployment counting :=
    hrun.invariant (fun _ _ _ hl hstep => Counter.layout_step hl hstep)
      (Guard.layout_genesis genesis_genesis)
  have hderived : Derived counterDeployment counting :=
    hrun.invariant (fun _ _ _ hd hstep => derived_step hstep hd)
      (derived_genesis (genesis_of_ne counterId_ne_system))
  obtain ⟨l, hstep⟩ := step_increment_of (d := counterDeployment) (w := wallet) rfl hlayout
    hderived counting_accounts.1 rfl (by decide) increment_approved
  obtain ⟨c, hc, -⟩ := owner_step hstep counting_accounts.1
  have hwhole := hrun.append (.cons hstep (.nil l))
  obtain ⟨-, hcount, -⟩ := counter_history (genesis_of_ne counterId_ne_system) genesis_genesis
    hwhole hc
  refine ⟨_, l, c, hwhole, hc, ?_, hcount⟩
  have hone : countAt walletCounter l = countAt walletCounter counting + 1 := by
    have hincr := count_step (k := walletCounter) hstep
    rwa [if_pos (by decide +kernel)] at hincr
  rw [countAt_some hc, countAt_some counting_accounts.1] at hone
  exact hone

theorem increment_succeeds_localnet : ∃ trace l',
    Run (Counter.Step counterDeployment) genesis trace counting ∧
    Counter.Step counterDeployment counting (.counter incrementCall) l' ∧
    fetchCounter counterDeployment (answer l') wallet = .ok (some ⟨1, wallet⟩) := by
  obtain ⟨trace, hrun, -⟩ := run_counting
  have hready : ∃ c, counterAt counting (counterPda counterDeployment wallet) = some c ∧
      c.owner = wallet ∧ c.count.toNat + 1 < 2 ^ 64 ∧
      Approves deployment incrementCall.env counting wallet .require :=
    ⟨_, counting_accounts.1, rfl, by decide, increment_approved⟩
  obtain ⟨hiff, hshows⟩ := increment_succeeds_iff (d := counterDeployment) (w := wallet) rfl
    (genesis_of_ne counterId_ne_system) genesis_genesis hrun
  obtain ⟨l', hstep⟩ := hiff.mpr hready
  obtain ⟨n, hbefore, hafter⟩ := hshows l' hstep _ _ (answers_answer counting) (answers_answer l')
  have hzero := fetchCounter_eq (answers_answer counting)
    (show counterAt counting (counterPda counterDeployment wallet) = _ from counting_accounts.1)
  obtain ⟨rfl, -⟩ :=
    CounterAccount.mk.inj (Option.some.inj (Except.ok.inj (hbefore.symm.trans hzero)))
  exact ⟨trace, l', hrun, hstep, hafter⟩

end Localnet

end Trana.Security
