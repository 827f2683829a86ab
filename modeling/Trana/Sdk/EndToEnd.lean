import Trana.Sdk.Client

/-!
# A transaction from the SDK through the guard

The runtime executes a transaction built by the SDK: precompile, record_proof
and the protected instruction's one call to `enforce` for each guarded item,
whatever else the programs do in between.

* `Others` — what programs do to the ledger besides the calls to the guard:
  arbitrary functions, of which `Others.Keep` asks that the wallet's registry
  stays.
* `Guarded.Valid` — what a guarded item needs.
* `process_recordProofIx` — the data carrier executes.
* `guarded_step` — one guarded item: its call returns and consumes one nonce.
* `run_items` — all of them, by induction on the items; the nonces the SDK
  counted up are the ones the registry has when it gets there.
* `end_to_end` — build, precompile and run; and the client, which looks the key
  up in the registry, builds the same transaction.
* `recovered_on_the_way` — another instruction that recovers the registry
  breaks the rest: the key the later items are signed with is gone.

The bounds in `end_to_end` are those of the wire: an index of an instruction is a
`u16`, a nonce a `u64`, and an expiry a JS number.
-/

namespace Trana.Sdk

open Trana.Lib Trana.Lib.Exec Trana.Solana Trana.Guard

section Runtime

variable (d : Guard.Deployment) (w : Pubkey) (clock : Clock) (minimumBalance : Nat → UInt64)
  (tx : List Instruction)

/-- The environment of the instruction at index `i`. -/
def envAt (i : Nat) : Env := ⟨clock, ⟨tx, UInt16.ofNat i⟩, minimumBalance⟩

/-- What programs do to the ledger besides the calls to the guard: a whole other
instruction, and the protected one at an index before and after its call. -/
structure Others where
  whole : Nat → Ledger → Ledger
  before : Nat → Ledger → Ledger
  after : Nat → Ledger → Ledger

/-- None of it changes the registry of `w`. -/
structure Others.Keep (o : Others) : Prop where
  whole : ∀ i l, registryOf d (o.whole i l) w = registryOf d l w
  before : ∀ i l, registryOf d (o.before i l) w = registryOf d l w
  after : ∀ i l, registryOf d (o.after i l) w = registryOf d l w

/-- Execute the items, the first one at index `i`. -/
def runItems (o : Others) : List Item → Nat → Nat → Ledger → Result Ledger
  | [], _, _, l => pure l
  | .other _ :: items, i, nonce, l => runItems o items (i + 1) nonce (o.whole i l)
  | .guarded g :: items, i, nonce, l => do
    let record := g.recordProofIx d.programId w nonce
    let l ← process d (envAt clock minimumBalance tx (i + 1)) record.accounts record.data l
    -- the program at the top calls `enforce` once, with the accounts it passes
    let l ← process d (envAt clock minimumBalance tx (i + 2)) g.metas (enforceData g.policy)
      (o.before (i + 2) l)
    runItems o items (i + 3) (nonce + 1) (o.after (i + 2) l)

/-- What a guarded item needs: a discriminator, a program of its own, a
registered key, an expiry in the future and exact as a number, the wallet's
registry among the accounts of the call, and a policy whose condition fires. -/
structure Guarded.Valid (r : PasskeyRegistry) (g : Guarded) : Prop where
  data : 8 ≤ g.ix.data.length
  program : g.ix.programId ≠ Secp256r1.programId
  key : ∃ k ∈ r.keys, k.pubkeyBytes = g.assertion.pubkey
  fresh : clock.unixTimestamp.toInt < g.expiryUnix
  exact : g.expiryUnix < 2 ^ 53
  metas : (Enforce.tryAccounts g.metas).Returns ⟨d.findRegistry w, w⟩
  fires : g.policy.fires ⟨clock, ⟨[g.ix], 0⟩, minimumBalance⟩ = true

end Runtime

section Steps

variable {d : Guard.Deployment} {w : Pubkey} {clock : Clock} {minimumBalance : Nat → UInt64}
  {tx : List Instruction} {l : Ledger} {r : PasskeyRegistry} {g : Guarded}

/-- The condition looks at the slot and the protected instruction only. -/
theorem fires_congr {policy : Policy} {env env' : Env} (hclock : env.clock = env'.clock)
    (hix : env.ixSysvar.instructions[env.ixSysvar.currentIndex.toNat]? =
      env'.ixSysvar.instructions[env'.ixSysvar.currentIndex.toNat]?) :
    policy.fires env = policy.fires env' := by
  cases policy with
  | require => rfl
  | notBefore slot => rw [Policy.fires, Policy.fires, hclock]
  | notAfter slot => rw [Policy.fires, Policy.fires, hclock]
  | limit paramOffset bound =>
    rw [Policy.fires, Policy.fires, protectedU64, protectedU64, hix]

/-- An expiry below 2^53 is compared as the number it is. -/
theorem lt_ofInt {now : Int64} {expiry : Int} (hfresh : now.toInt < expiry)
    (hexact : expiry < 2 ^ 53) : now < Int64.ofInt expiry := by
  have hlow := now.le_toInt
  rw [Int64.lt_iff_toInt_lt, Int64.toInt_ofInt_of_le (by omega) (by omega)]
  exact hfresh

/-- The data carrier executes and changes nothing. -/
theorem process_recordProofIx {env : Env} {nonce : Nat} :
    (process d env (g.recordProofIx d.programId w nonce).accounts
      (g.recordProofIx d.programId w nonce).data l).Returns l := by
  have hlen : (g.challenge d.programId w nonce).length = 32 := length_intentHash
  have hpolicy := g.policy.length_domain
  obtain ⟨payload, hdata, hwrite⟩ := g.assertion.recordProofIx_data d.programId g.expiryUnix hlen
    (show (Codec.utf8 g.policy.domain).length < 2 ^ 32 by omega)
  have hread := ProofData.codec.read_write hwrite []
  rw [List.append_nil] at hread
  have hix : (parseInstruction (recordProofDisc ++ payload)).Returns
      (.recordProof (g.assertion.proof (g.challenge d.programId w nonce) g.expiryUnix
        g.policy.domain)) := by
    have hdisc : (recordProofDisc ++ payload).take 8 = recordProofDisc := rfl
    have hargs : (recordProofDisc ++ payload).drop 8 = payload := rfl
    rw [parseInstruction]
    simp only [hdisc, hargs]
    rw [if_neg (by decide), if_neg (by decide), if_neg (by decide), if_neg (by decide),
      if_neg (by decide), if_neg (by decide), if_pos trivial]
    simp only [returns_bind, returns_msg, readArgs, returns_okOr, hread, Option.map_some,
      returns_pure, exists_const, true_and]
    exact ⟨_, rfl, rfl⟩
  have hsame : (g.recordProofIx d.programId w nonce).data = recordProofDisc ++ payload := hdata
  rw [hsame]
  refine returns_bind.mpr ⟨_, hix, ?_⟩
  simp only [execute, returns_bind, returns_pure, recordProof, returns_require]
  exact ⟨(), rfl, (), rfl, trivial⟩

/-- One guarded item behind its pair: the call returns and consumes a nonce. -/
theorem guarded_step {i nonce : Nat} (hvalid : g.Valid d w clock minimumBalance r)
    (hfound : registryOf d l w = some r) (howner : r.owner = w) (hnonce : r.nonce.toNat = nonce)
    (hlt : nonce + 1 < 2 ^ 64) (hi : i + 2 < 65536)
    (hsecp : tx[i]? = some (g.secpIx d.programId w nonce))
    (hrecord : tx[i + 1]? = some (g.recordProofIx d.programId w nonce))
    (hix : tx[i + 2]? = some g.ix) :
    ∃ l', (process d (envAt clock minimumBalance tx (i + 2)) g.metas (enforceData g.policy)
      l).Returns l' ∧ registryOf d l' w = some r.consume := by
  have hidx : (UInt16.ofNat (i + 2)).toNat = i + 2 := UInt16.toNat_ofNat_of_lt' hi
  have hpolicy := g.policy.length_domain
  have hword : UInt64.ofNat nonce = r.nonce := by rw [← hnonce, UInt64.ofNat_toNat]
  have hchallenge : g.challenge d.programId w nonce = intentHash w d.programId g.policy.domain g.ix
      r.nonce (Int64.ofInt g.expiryUnix) := by rw [Guarded.challenge, hword]
  have hv : Verified clock ⟨tx, UInt16.ofNat (i + 2)⟩ r w d.programId (UInt16.ofNat (i + 2))
      g.policy.domain (g.assertion.proof (g.challenge d.programId w nonce) g.expiryUnix
        g.policy.domain) g.ix (g.secpIx d.programId w nonce) :=
    verified_of_proofPair hchallenge (by rw [hidx]; omega)
    (by rw [hidx]; exact hsecp) (by rw [hidx]; exact hrecord) (by rw [hidx]; exact hix) hvalid.data
    (by omega) (lt_ofInt hvalid.fresh hvalid.exact) hvalid.key (by omega)
  have hfires : g.policy.fires (envAt clock minimumBalance tx (i + 2)) = true := by
    rw [← hvalid.fires]
    refine fires_congr rfl ?_
    show tx[(UInt16.ofNat (i + 2)).toNat]? = some g.ix
    rw [hidx]
    exact hix
  obtain ⟨l', hrun, hstores⟩ := execute_enforce_of (envAt clock minimumBalance tx (i + 2)) g.policy
    hvalid.metas hfires hfound howner hv
  exact ⟨l', returns_bind.mpr ⟨_, parse_enforceData g.policy, hrun⟩, hstores.registryAt_self⟩

/-- Without its key in the registry the call fails. -/
theorem guarded_fails {i nonce : Nat} (hfound : registryOf d l w = some r)
    (hmetas : (Enforce.tryAccounts g.metas).Returns ⟨d.findRegistry w, w⟩)
    (hfires : g.policy.fires (envAt clock minimumBalance tx (i + 2)) = true)
    (hi : i + 2 < 65536) (hsecp : tx[i]? = some (g.secpIx d.programId w nonce))
    (hkeys : ∀ k ∈ r.keys, k.pubkeyBytes ≠ g.assertion.pubkey) (l' : Ledger) :
    ¬(process d (envAt clock minimumBalance tx (i + 2)) g.metas (enforceData g.policy)
      l).Returns l' := by
  intro h
  obtain ⟨ix, hix, hrun⟩ := returns_bind.mp h
  obtain rfl := (parse_enforceData g.policy).unique hix
  obtain ⟨w', key, r', _, _, secpIx, hnames, hfound', -, hv⟩ :=
    effect_verification (execute_effect hrun) (if_pos hfires)
  -- the registry is the wallet's, the precompile instruction the item's
  obtain ⟨rfl, rfl⟩ := hnames.unique (enforce_tryAccounts hmetas)
  obtain rfl := Option.some.inj (hfound'.symm.trans hfound)
  have hidx : (UInt16.ofNat (i + 2)).toNat = i + 2 := UInt16.toNat_ofNat_of_lt' hi
  have hsame : tx[(UInt16.ofNat (i + 2)).toNat - 2]? = some secpIx := hv.secp
  rw [hidx, Nat.add_sub_cancel, hsecp] at hsame
  obtain rfl := Option.some.inj hsame
  obtain ⟨k, hk, heq⟩ := hv.known
  exact hkeys k hk (heq.trans (g.assertion.secpHeader_secpIx _).2.1)

/-- The registry after `k` verifications. -/
def consumed (r : PasskeyRegistry) (k : Nat) : PasskeyRegistry :=
  { r with nonce := UInt64.ofNat (r.nonce.toNat + k) }

/-- None yet. -/
theorem consumed_zero : consumed r 0 = r := by
  rw [consumed, Nat.add_zero, UInt64.ofNat_toNat]

/-- One now, and the rest later. -/
theorem consumed_succ {k : Nat} (hlt : r.nonce.toNat + 1 < 2 ^ 64) :
    consumed r.consume k = consumed r (k + 1) := by
  rw [consumed, consumed, PasskeyRegistry.toNat_consume_nonce hlt, Nat.add_assoc, Nat.add_comm 1 k]
  rfl

/-- Every guarded item goes through, the first at nonce `r.nonce`. -/
theorem run_items {o : Others} (hkeep : o.Keep d w) {items : List Item} {pre : List Instruction}
    {nonce : Nat} (htx : tx = pre ++ transactionOf d.programId w items nonce)
    (hlen : tx.length ≤ 65536) (hfound : registryOf d l w = some r) (howner : r.owner = w)
    (hnonce : r.nonce.toNat = nonce) (hfit : nonce + guardedCount items < 2 ^ 64)
    (hvalid : ∀ g, Item.guarded g ∈ items → g.Valid d w clock minimumBalance r) :
    ∃ l', (runItems d w clock minimumBalance tx o items pre.length nonce l).Returns l' ∧
      registryOf d l' w = some (consumed r (guardedCount items)) := by
  -- the induction is on the items; index, nonce and registry move with it
  induction items generalizing l r pre nonce with
  | nil => exact ⟨l, returns_pure.mpr rfl, by rw [hfound, guardedCount, consumed_zero]⟩
  | cons item items ih =>
    have hrest : ∀ g, Item.guarded g ∈ items → g.Valid d w clock minimumBalance r := fun g hg =>
      hvalid g (List.mem_cons_of_mem _ hg)
    cases item with
    | other ix =>
      have htx' : tx = (pre ++ [ix]) ++ transactionOf d.programId w items nonce := by
        rw [htx, transactionOf, List.append_assoc]
        rfl
      have h := ih htx' ((hkeep.whole pre.length l).trans hfound) howner hnonce hfit hrest
      rwa [List.length_append] at h
    | guarded g =>
      rw [guardedCount] at hfit ⊢
      have hg := hvalid g (List.mem_cons_self ..)
      rw [transactionOf] at htx
      have hsecp : tx[pre.length]? = some (g.secpIx d.programId w nonce) := by
        rw [htx, List.getElem?_append_right (Nat.le_refl _), Nat.sub_self]
        rfl
      have hrecord : tx[pre.length + 1]? = some (g.recordProofIx d.programId w nonce) := by
        rw [htx, List.getElem?_append_right (by omega), Nat.add_sub_cancel_left]
        rfl
      have hix : tx[pre.length + 2]? = some g.ix := by
        rw [htx, List.getElem?_append_right (by omega), Nat.add_sub_cancel_left]
        rfl
      have hi : pre.length + 2 < tx.length := (List.getElem?_eq_some_iff.mp hix).1
      -- the call to the guard
      obtain ⟨l₁, hrun₁, hfound₁⟩ := guarded_step hg
        ((hkeep.before (pre.length + 2) l).trans hfound) howner hnonce (by omega) (by omega) hsecp
        hrecord hix
      -- the rest, from the next nonce on
      have hnonce₁ : r.consume.nonce.toNat = nonce + 1 := by
        rw [PasskeyRegistry.toNat_consume_nonce (by omega), hnonce]
      have htx' : tx = (pre ++ [g.secpIx d.programId w nonce, g.recordProofIx d.programId w nonce,
          g.ix]) ++ transactionOf d.programId w items (nonce + 1) := by
        rw [htx, List.append_assoc]
        rfl
      have hvalid₁ : ∀ g, Item.guarded g ∈ items → g.Valid d w clock minimumBalance r.consume :=
        fun g hg => ⟨(hrest g hg).data, (hrest g hg).program, (hrest g hg).key, (hrest g hg).fresh,
          (hrest g hg).exact, (hrest g hg).metas, (hrest g hg).fires⟩
      obtain ⟨l₂, hrun₂, hfound₂⟩ := ih htx' ((hkeep.after (pre.length + 2) l₁).trans hfound₁)
        howner hnonce₁ (by omega) hvalid₁
      rw [consumed_succ (by omega)] at hfound₂
      rw [List.length_append] at hrun₂
      refine ⟨l₂, ?_, hfound₂⟩
      rw [runItems]
      exact returns_bind.mpr ⟨l, process_recordProofIx, returns_bind.mpr ⟨l₁, hrun₁, hrun₂⟩⟩

end Steps

/-- What the SDK builds passes the precompile and the guard, item after item,
and moves the nonce on by their number. The client builds the same transaction,
when the registry lists every key that signed under the credential id it is
asked for. -/
theorem end_to_end {d : Guard.Deployment} {w : Pubkey} {clock : Clock}
    {minimumBalance : Nat → UInt64} {alloc : AllocUnsafe} {p256 : Secp256r1.Curve} {o : Others}
    {items : List Item} {l : Ledger} {r : PasskeyRegistry} (hfound : registryOf d l w = some r)
    (howner : r.owner = w) (hfit : r.nonce.toNat + guardedCount items < 2 ^ 64)
    (hvalid : ∀ g, Item.guarded g ∈ items → g.Valid d w clock minimumBalance r)
    (hsigned : Signed p256 d.programId w items r.nonce.toNat) (hkeep : o.Keep d w) :
    ∃ tx, buildTransaction alloc d.programId w items r.nonce.toNat = some tx ∧
      ((∀ ix, Item.other ix ∈ items → ix.programId = Secp256r1.programId →
          Secp256r1.verify p256 ix.data (tx.map Instruction.data) = true) →
        Secp256r1.Accepted p256 tx) ∧
      (tx.length ≤ 65536 →
        ∃ l', (runItems d w clock minimumBalance tx o items 0 r.nonce.toNat l).Returns l' ∧
          registryOf d l' w =
            some { r with nonce := UInt64.ofNat (r.nonce.toNat + guardedCount items) }) ∧
      ∀ credentialIdOf : Guarded → Bytes,
        (∀ g, Item.guarded g ∈ items → g.ListedAs r (credentialIdOf g)) →
          clientTransaction alloc d.programId w r credentialIdOf items r.nonce.toNat = some tx := by
  have hbuild : buildTransaction alloc d.programId w items r.nonce.toNat =
      some (transactionOf d.programId w items r.nonce.toNat) :=
    buildTransaction_eq (fun g hg => (hvalid g hg).data) (Nat.le_of_lt hfit)
  refine ⟨_, hbuild, fun hother => ?_, fun hlen => ?_, fun credentialIdOf hlisted => ?_⟩
  · exact accepted_transactionOf d.programId_ne_secp hsigned hother
      fun g hg => (hvalid g hg).program
  · have htx : transactionOf d.programId w items r.nonce.toNat =
        [] ++ transactionOf d.programId w items r.nonce.toNat := rfl
    exact run_items hkeep htx hlen hfound howner rfl hfit hvalid
  · rw [clientTransaction_eq hlisted, hbuild]

/-! ### Two approvals on localnet -/

section Localnet

open Localnet

/-- The protected instruction, approved by this assertion. -/
def guardedIx (a : Assertion) : Guarded where
  ix := protectedIx
  policy := .require
  assertion := a
  expiryTtlSec := 120
  dateNow := 880000
  metas := enforceMetas deployment wallet

/-- The passkey's signature for the protected instruction at nonce one. -/
def secondApproval : Assertion :=
  assertion
    [8, 109, 141, 143, 215, 144, 197, 72, 26, 148, 47, 175, 180, 105, 29, 106, 206, 182, 174, 147,
     27, 251, 194, 84, 47, 77, 1, 184, 118, 63, 22, 56, 74, 195, 69, 111, 88, 11, 9, 207, 170,
     230, 107, 232, 9, 185, 249, 58, 146, 71, 49, 242, 255, 246, 246, 80, 200, 105, 59, 11, 122,
     7, 15, 0] (by decide)

/-- What is signed for such an instruction. -/
def guardedChallenge (a : Assertion) (nonce : Nat) : Bytes :=
  (guardedIx a).challenge deployment.programId wallet nonce

/-- The curve on the passkey's two signatures. -/
def approvalCurve : Secp256r1.Curve := fun key digest signature =>
  approval.curve (guardedChallenge approval 0) key digest signature ||
    secondApproval.curve (guardedChallenge secondApproval 1) key digest signature

/-- Good until second 1000. -/
theorem guardedIx_expiry (a : Assertion) : (guardedIx a).expiryUnix = 1000 := by
  simp [guardedIx, Guarded.expiryUnix]

/-- The instruction is valid when the registered key signs. -/
theorem guardedIx_valid {a : Assertion} (h : a.pubkey = passkey) :
    (guardedIx a).Valid deployment wallet ⟨5, 500⟩ minimumBalance (registry 0) where
  data := by show 8 ≤ protectedIx.data.length; decide
  program := by show protectedIx.programId ≠ Secp256r1.programId; decide
  key := ⟨entry, List.mem_singleton_self _, h.symm⟩
  fresh := by rw [guardedIx_expiry]; decide
  exact := by rw [guardedIx_expiry]; decide
  metas := enforceMetas_context
  fires := rfl

/-- A buffer of zeros, as good as any. -/
def zeroed : AllocUnsafe := ⟨fun n => List.replicate n 0, fun _ => List.length_replicate⟩

/-- The wallet pays the treasury one lamport. -/
def payIx : Instruction where
  programId := systemProgramId
  accounts := [signerMeta wallet, writableMeta treasury]
  data := leBytes 4 2 ++ leBytes 8 1

/-- The payments are all that happens besides. -/
def payments : Others where
  whole _ l := (l.transfer wallet treasury 1).getD l
  before _ l := l
  after _ l := l

/-- Payments between wallets leave the registry. -/
theorem payments_keep : payments.Keep deployment wallet := by
  refine ⟨fun i l => ?_, fun _ _ => rfl, fun _ _ => rfl⟩
  show registryOf deployment ((l.transfer wallet treasury 1).getD l) wallet = _
  cases h : l.transfer wallet treasury 1 with
  | none => rfl
  | some l' => exact SameRegistries.of_sameState (Ledger.transfer_frame h) _

/-- A payment, an approved instruction, a payment, another approved one. -/
def twoApprovals : List Item :=
  [.other payIx, .guarded (guardedIx approval), .other payIx, .guarded (guardedIx secondApproval)]

/-- Both are signed at their own nonce. -/
theorem twoApprovals_signed :
    Signed approvalCurve deployment.programId wallet twoApprovals 0 := by
  refine ⟨?_, ?_, trivial⟩
  · simp [approvalCurve, Assertion.curve, guardedIx, guardedChallenge]
  · simp [approvalCurve, Assertion.curve, guardedIx, guardedChallenge]

/-- Both are the protected instruction, approved with the passkey. -/
theorem mem_twoApprovals {g : Guarded} (h : Item.guarded g ∈ twoApprovals) :
    ∃ a, g = guardedIx a ∧ a.pubkey = passkey := by
  simp only [twoApprovals, List.mem_cons, Item.guarded.injEq, reduceCtorEq, List.not_mem_nil,
    false_or, or_false] at h
  rcases h with rfl | rfl
  · exact ⟨approval, rfl, rfl⟩
  · exact ⟨secondApproval, rfl, rfl⟩

/-- Both are valid. -/
theorem twoApprovals_valid {g : Guarded} (h : Item.guarded g ∈ twoApprovals) :
    g.Valid deployment wallet ⟨5, 500⟩ minimumBalance (registry 0) := by
  obtain ⟨a, rfl, hkey⟩ := mem_twoApprovals h
  exact guardedIx_valid hkey

/-- Both are found under their credential id. -/
theorem twoApprovals_listed {g : Guarded} (h : Item.guarded g ∈ twoApprovals) :
    g.ListedAs (registry 0) entry.credentialId := by
  obtain ⟨a, rfl, hkey⟩ := mem_twoApprovals h
  exact ⟨entry, rfl, hkey.symm⟩

/-- Two approvals in one transaction between payments: both go through. -/
theorem end_to_end_twice : ∃ tx,
    buildTransaction zeroed localnetId wallet twoApprovals 0 = some tx ∧
      clientTransaction zeroed localnetId wallet (registry 0) (fun _ => entry.credentialId)
        twoApprovals 0 = some tx ∧
      Secp256r1.Accepted approvalCurve tx ∧
      ∃ l', (runItems deployment wallet ⟨5, 500⟩ minimumBalance tx payments twoApprovals 0 0
          registered).Returns l' ∧ registryOf deployment l' wallet = some (registry 2) := by
  obtain ⟨tx, hbuild, hacc, hrun, hclient⟩ := @end_to_end deployment wallet ⟨5, 500⟩ minimumBalance
    zeroed approvalCurve payments twoApprovals registered (registry 0) holds_registered.found rfl
    (by decide) (fun g => twoApprovals_valid) twoApprovals_signed payments_keep
  have hlen : tx.length = 8 := by
    have hdata : ∀ g, Item.guarded g ∈ twoApprovals → 8 ≤ g.ix.data.length := fun g hg =>
      (twoApprovals_valid hg).data
    rw [buildTransaction_eq hdata (by decide)] at hbuild
    rw [← Option.some.inj hbuild]
    rfl
  refine ⟨tx, hbuild, hclient _ fun g => twoApprovals_listed, hacc fun ix hix hid => ?_,
    hrun (by omega)⟩
  simp only [twoApprovals, List.mem_cons, Item.other.injEq, reduceCtorEq, List.not_mem_nil,
    false_or, or_false, or_self] at hix
  rw [hix] at hid
  exact absurd hid (by decide)

/-! ### A recovery on the way -/

/-- The key a recovery puts in place of the others. -/
def recoveredKey : Bytes := 2 :: List.replicate 32 1

/-- The wallet recovers its registry, then comes an instruction approved by
the key it had. -/
def recoveryFirst : List Item :=
  [.other (recoverRegistryIx recoveredKey [2]), .guarded (guardedIx approval)]

/-- The approval is as good as before. -/
theorem recoveryFirst_signed :
    Signed approvalCurve deployment.programId wallet recoveryFirst 0 :=
  twoApprovals_signed.imp_right fun _ => trivial

/-- And as valid, on the registry before. -/
theorem mem_recoveryFirst {g : Guarded} (h : Item.guarded g ∈ recoveryFirst) :
    g.Valid deployment wallet ⟨5, 500⟩ minimumBalance (registry 0) := by
  simp only [recoveryFirst, List.mem_cons, Item.guarded.injEq, reduceCtorEq, List.not_mem_nil,
    false_or, or_false] at h
  rw [h]
  exact guardedIx_valid rfl

/-- The guard reads the recovery as one. -/
theorem recoverRegistryIx_is : (parseInstruction (recoverRegistryIx recoveredKey [2]).data).Returns
    (.recoverRegistry .secp256r1Passkey recoveredKey [2]) := by
  decide

/-- Behind a recovery with another key the approved instruction fails. -/
theorem recovered_on_the_way : ∃ tx o,
    buildTransaction zeroed localnetId wallet recoveryFirst 0 = some tx ∧
      Secp256r1.Accepted approvalCurve tx ∧
      registryOf deployment registered wallet = some (registry 0) ∧
      (∀ g, Item.guarded g ∈ recoveryFirst →
        g.Valid deployment wallet ⟨5, 500⟩ minimumBalance (registry 0)) ∧
      Signed approvalCurve localnetId wallet recoveryFirst 0 ∧
      (process deployment (envAt ⟨5, 500⟩ minimumBalance tx 0)
        (recoverRegistryIx recoveredKey [2]).accounts (recoverRegistryIx recoveredKey [2]).data
        registered).Returns (o.whole 0 registered) ∧
      ∀ l', ¬(runItems deployment wallet ⟨5, 500⟩ minimumBalance tx o recoveryFirst 0 0
        registered).Returns l' := by
  obtain ⟨tx, htx⟩ : ∃ tx, tx = transactionOf localnetId wallet recoveryFirst 0 := ⟨_, rfl⟩
  have hbuild : buildTransaction zeroed localnetId wallet recoveryFirst 0 = some tx := by
    rw [htx]
    exact buildTransaction_eq (fun g hg => (mem_recoveryFirst hg).data) (by decide)
  have hsecp : tx[1]? = some ((guardedIx approval).secpIx deployment.programId wallet 0) := by
    rw [htx]
    rfl
  -- the recovery, with the other key
  obtain ⟨l₁, hstep, hstores⟩ := step_recoverRegistry
    (c := ⟨envAt ⟨5, 500⟩ minimumBalance tx 0, recoverMetas deployment wallet,
      (recoverRegistryIx recoveredKey [2]).data⟩)
    (e := ⟨.secp256r1Passkey, recoveredKey, [2]⟩) holds_registered recoverRegistryIx_is rfl
    ⟨by decide, by decide⟩
  have hfound := (hstores.holds holds_registered rfl).found
  refine ⟨tx, ⟨fun _ _ => l₁, fun _ l => l, fun _ l => l⟩, hbuild, ?_, holds_registered.found,
    fun g => mem_recoveryFirst, recoveryFirst_signed, ?_, fun l' hrun => ?_⟩
  · subst htx
    refine accepted_transactionOf deployment.programId_ne_secp recoveryFirst_signed ?_ fun g hg =>
      (mem_recoveryFirst hg).program
    intro ix hix hid
    simp only [recoveryFirst, List.mem_cons, Item.other.injEq, reduceCtorEq, List.not_mem_nil,
      or_false] at hix
    rw [hix] at hid
    exact absurd hid deployment.programId_ne_secp
  · cases hstep with
    | executed h => exact h
  · -- the approved instruction behind it
    simp only [recoveryFirst, runItems, returns_bind, returns_pure] at hrun
    obtain ⟨l₂, hrecord, l₃, hguarded, -⟩ := hrun
    obtain rfl := hrecord.unique process_recordProofIx
    refine guarded_fails (w := wallet) (g := guardedIx approval) (i := 1) hfound
      enforceMetas_context rfl (by decide) hsecp (fun k hk => ?_) l₃ hguarded
    rw [List.mem_singleton.mp hk]
    decide

end Localnet

end Trana.Sdk
