import Trana.Security.Drain
import Trana.Vault.Completeness

/-!
# The cooldown of a time-locked pool

A record remembers the slot of its user's last withdrawal, zero before the
first, and the guard asks for a proof below that slot plus 150. Zero is a slot
like any other there: a first withdrawal in the first 150 slots of a chain needs
a proof as well. And the sum saturates, at a slot that is not below itself.

* `consumes_iff` — which withdrawals consume a nonce.
* `cooldown_at` — one withdrawal is in line with the cooldown exactly when it
  keeps away from both ends of the slot count.
* `cooldown_exact` — the same for the withdrawals of a run.
* `first_not_free` — a first withdrawal in slot 5, with a proof.

The cooldown is about what the user did, so it is stated over the moments of a
run before a withdrawal: `WithinCooldown` looks for an earlier withdrawal of the
same user from the same pool, not into the record. Of several earlier ones the
last counts, and its slot is in the record: guard calls and other programs in
between leave that alone, because the vault owns it.

The slot clock of a chain does not go back, and a pool does not sit at the
address of the system program, which marks a blank record. The first is asked of
the run, the second of the derivation of addresses. A chain's first slots are
long past on the live clusters and recur on every fresh local validator.
-/

namespace Trana.Security

open Trana.Lib Trana.Lib.Exec Trana.Solana Trana.Vault

/-- The slot in which a call of the two programs runs. -/
def slot? : Vault.Label → Option UInt64
  | .vault c => some c.env.clock.slot
  | .guard c => some c.env.clock.slot
  | .rolledBack => none
  | .other => none

/-- The slot clock does not go back. -/
def SlotsMonotone (trace : List Vault.Moment) : Prop :=
  trace.Pairwise fun t u => ∀ s ∈ slot? t.label, ∀ s' ∈ slot? u.label, s ≤ s'

section Run

variable {d : Vault.Deployment} {l l' l₀ : Ledger} {a : Vault.Label} {pool user : Pubkey}
  {pre post : List Vault.Moment} {t t₀ : Vault.Moment}

/-- The user withdrew from the pool, in this slot. -/
def WithdrawsAt (d : Vault.Deployment) (pool user : Pubkey) (t : Vault.Moment) (s : UInt64) :
    Prop :=
  ∃ c ctx amount, Withdraws d t.before t.label c ctx amount ∧ ctx.poolKey = pool ∧
    ctx.owner = user ∧ c.env.clock.slot = s

theorem WithdrawsAt.withdrawsOf {s : UInt64} (h : WithdrawsAt d pool user t s) :
    WithdrawsOf d pool user t.before t.label := by
  obtain ⟨c, ctx, amount, hwith, hpool, huser, -⟩ := h
  exact ⟨c, ctx, amount, hwith, hpool, huser⟩

theorem WithdrawsAt.slot? {s : UInt64} (h : WithdrawsAt d pool user t s) :
    slot? t.label = some s := by
  obtain ⟨c, ctx, amount, hwith, -, -, rfl⟩ := h
  rw [hwith.label]
  rfl

/-- Among the moments `pre` the user withdrew from the pool, fewer than 150
slots before this one. -/
def WithinCooldown (d : Vault.Deployment) (pool user : Pubkey) (pre : List Vault.Moment)
    (s : UInt64) : Prop :=
  ∃ t₀ ∈ pre, ∃ s₀, WithdrawsAt d pool user t₀ s₀ ∧ s.toNat < s₀.toNat + cooldownSlots.toNat

/-- The cooldown at one moment, after the moments in `pre`: a withdrawal from a
time-locked pool consumes a nonce of its owner's registry exactly when the same
owner withdrew from the pool fewer than 150 slots before. -/
def CooldownExact (d : Vault.Deployment) (pre : List Vault.Moment) (t : Vault.Moment) : Prop :=
  ∀ c ctx amount, Withdraws d t.before t.label c ctx amount → ctx.pool.kind = .timeLocked →
    (ConsumesOwn d.guard t.before t.after ctx.owner ↔
      WithinCooldown d ctx.poolKey ctx.owner pre c.env.clock.slot)

/-- A user's first withdrawal from a time-locked pool comes in slot 150 at the
earliest, and none during the cooldown in the last slot there is. -/
def AwayFromEnds (d : Vault.Deployment) (pre : List Vault.Moment) (t : Vault.Moment) : Prop :=
  ∀ c ctx amount, Withdraws d t.before t.label c ctx amount → ctx.pool.kind = .timeLocked →
    ((∀ t₀ ∈ pre, ¬WithdrawsOf d ctx.poolKey ctx.owner t₀.before t₀.label) →
      cooldownSlots ≤ c.env.clock.slot) ∧
    (WithinCooldown d ctx.poolKey ctx.owner pre c.env.clock.slot →
      c.env.clock.slot.toNat + 1 < 2 ^ 64)

theorem AwayFromEnds.first {c : Guard.Call} {ctx : Withdraw} {amount : UInt64}
    (h : AwayFromEnds d pre ⟨l, a, l'⟩) (hwith : Withdraws d l a c ctx amount)
    (hkind : ctx.pool.kind = .timeLocked)
    (hnone : ∀ t₀ ∈ pre, ¬WithdrawsOf d ctx.poolKey ctx.owner t₀.before t₀.label) :
    cooldownSlots ≤ c.env.clock.slot :=
  (h c ctx amount hwith hkind).1 hnone

/-! ## One withdrawal -/

theorem lastWithdrawSlot_credited : KeptByDeposits UserDeposit.lastWithdrawSlot :=
  keptByDeposits_of_fields fun _ _ _ _ _ => rfl

/-- What decides is the slot in the record. -/
theorem consumes_iff {c : Guard.Call} {ctx : Withdraw} {amount : UInt64} {policy : Guard.Policy}
    {proofUsed : Bool} {called : Ledger} (hl : Guard.Layout d.guard l)
    (hkind : ctx.pool.kind = .timeLocked)
    (h : WithdrawSteps d c.env ctx amount l l' policy proofUsed called) :
    ConsumesOwn d.guard l l' ctx.owner ↔
      c.env.clock.slot.toNat < ctx.userDeposit.lastWithdrawSlot.toNat + cooldownSlots.toNat ∧
        c.env.clock.slot.toNat + 1 < 2 ^ 64 := by
  have hchosen := h.chosen
  rw [hkind] at hchosen
  obtain ⟨rfl, -⟩ := choosePolicy_timeLocked hchosen
  rw [consumesOwn_iff hl h, Guard.Policy.fires_notBefore]
  exact lt_saturatingAdd_iff

/-- Of several earlier withdrawals the last one counts. -/
theorem within_iff_last {s s₀ : UInt64} (hslots : SlotsMonotone pre)
    (hprev : Previous d pool user pre t₀) (hat : WithdrawsAt d pool user t₀ s₀) :
    WithinCooldown d pool user pre s ↔ s.toNat < s₀.toNat + cooldownSlots.toNat := by
  obtain ⟨pre₁, mid, rfl, -, hno⟩ := hprev
  constructor
  · rintro ⟨t₁, ht₁, s₁, hat₁, hlt⟩
    rcases List.mem_append.mp ht₁ with hmem | hmem
    -- slots only grow, so an earlier withdrawal is further away than the last
    · have hle : s₁ ≤ s₀ := (List.pairwise_append.mp hslots).2.2 t₁ hmem t₀
        (List.mem_cons_self ..) s₁ hat₁.slot? s₀ hat.slot?
      rw [UInt64.le_iff_toNat_le] at hle
      omega
    · rcases List.mem_cons.mp hmem with rfl | hmem
      · obtain rfl := Option.some.inj (hat₁.slot?.symm.trans hat.slot?)
        exact hlt
      · exact absurd hat₁.withdrawsOf (hno t₁ hmem)
  · intro hlt
    exact ⟨t₀, List.mem_append_right _ (List.mem_cons_self ..), s₀, hat, hlt⟩

/-- The record has the slot of the user's last withdrawal, or zero. -/
theorem lastWithdrawSlot_eq {c : Guard.Call} {ctx : Withdraw} {amount : UInt64}
    {policy : Guard.Policy} {proofUsed : Bool} {called : Ledger} {ud : UserDeposit}
    (hpools : PoolsApart d) (hs : Sound d l₀) (hvault : Ledger.Genesis vaultId l₀)
    (hrun : Run (Vault.Step d) l₀ pre l)
    (h : Withdrawn d c.env ctx amount l l' policy proofUsed called ud) :
    ((∀ t₀ ∈ pre, ¬WithdrawsOf d ctx.poolKey ctx.owner t₀.before t₀.label) ∧
      ctx.userDeposit.lastWithdrawSlot = 0) ∨
    ∃ t₀, Previous d ctx.poolKey ctx.owner pre t₀ ∧
      WithdrawsAt d ctx.poolKey ctx.owner t₀ ctx.userDeposit.lastWithdrawSlot := by
  have hsound : Sound d l := hrun.invariant (fun _ _ _ hs hstep => sound_step hpools hstep hs) hs
  have hfound : remembered UserDeposit.lastWithdrawSlot d ctx.poolKey ctx.owner l =
      ctx.userDeposit.lastWithdrawSlot := by
    have hrecord := remembered_of_record (f := UserDeposit.lastWithdrawSlot) hsound.named h.record
    rwa [h.pool_eq, h.user_eq] at hrecord
  rcases remembered_last ctx.poolKey ctx.owner lastWithdrawSlot_credited hpools hs hrun with
    ⟨hnone, hlast⟩ | ⟨t₀, hprev, hlast⟩
  -- the user has withdrawn nothing so far: the record says what a blank one says
  · left
    rw [← hfound, hlast, remembered_genesis hvault]
    exact ⟨hnone, rfl⟩
  -- the last withdrawal wrote its slot, and nobody has written since
  · right
    obtain ⟨pre₁, mid, rfl, ⟨c₀, ctx₀, amount₀, hwith₀, hpool₀, huser₀⟩, hno⟩ := id hprev
    obtain ⟨hpre₁, hstep₀, -⟩ := hrun.split
    have hsound₀ : Sound d t₀.before :=
      hpre₁.invariant (fun _ _ _ hs hstep => sound_step hpools hstep hs) hs
    obtain ⟨policy₀, proofUsed₀, called₀, ud₀, heffect₀⟩ := withdrawn_of_step hstep₀ hwith₀
    have hleft := remembered_withdrawn (f := UserDeposit.lastWithdrawSlot)
      (sound_step hpools hstep₀ hsound₀).named heffect₀
    rw [recordWithdrawal_slot heffect₀.updated, hpool₀, huser₀, ← hlast, hfound] at hleft
    exact ⟨t₀, hprev, c₀, ctx₀, amount₀, hwith₀, hpool₀, huser₀, hleft.symm⟩

/-! ## Along a run -/

theorem cooldown_at (hpools : PoolsApart d) (hs : Sound d l₀)
    (hvault : Ledger.Genesis vaultId l₀) (hrun : Run (Vault.Step d) l₀ (pre ++ t :: post) l)
    (hslots : SlotsMonotone (pre ++ t :: post)) : AwayFromEnds d pre t ↔ CooldownExact d pre t := by
  obtain ⟨hpre, hstep, -⟩ := hrun.split
  have hsound : Sound d t.before :=
    hpre.invariant (fun _ _ _ hs hstep => sound_step hpools hstep hs) hs
  have hslots' : SlotsMonotone pre := (List.pairwise_append.mp hslots).1
  refine forall_congr' fun c => forall_congr' fun ctx => forall_congr' fun amount =>
    forall_congr' fun hwith => forall_congr' fun hkind => ?_
  obtain ⟨policy, proofUsed, called, ud, heffect⟩ := withdrawn_of_step hstep hwith
  rw [consumes_iff hsound.layout hkind heffect.toWithdrawSteps]
  have hwidth : cooldownSlots.toNat = 150 := rfl
  rcases lastWithdrawSlot_eq hpools hs hvault hpre heffect with ⟨hnone, hzero⟩ | ⟨t₀, hprev, hat⟩
  · -- nothing is within a cooldown, and the record counts from slot zero
    have hfree : ¬WithinCooldown d ctx.poolKey ctx.owner pre c.env.clock.slot := by
      rintro ⟨t₀, ht₀, s₀, hat, -⟩
      exact hnone t₀ ht₀ hat.withdrawsOf
    have hzero' : ctx.userDeposit.lastWithdrawSlot.toNat = 0 := by rw [hzero]; rfl
    constructor
    · rintro ⟨hfirst, -⟩
      have hle := UInt64.le_iff_toNat_le.mp (hfirst hnone)
      exact iff_of_false (fun hlt => by omega) hfree
    · intro hiff
      refine ⟨fun _ => ?_, fun hin => absurd hin hfree⟩
      rw [UInt64.le_iff_toNat_le]
      by_contra hlt
      exact hfree (hiff.mp ⟨by omega, by omega⟩)
  -- there was a withdrawal, so the first end does not matter any more
  · obtain ⟨pre₁, mid, heq, hwithOf, -⟩ := id hprev
    have hmem : t₀ ∈ pre := heq ▸ List.mem_append_right _ (List.mem_cons_self ..)
    rw [within_iff_last hslots' hprev hat]
    constructor
    · rintro ⟨-, hlast⟩
      exact ⟨fun h => h.1, fun h => ⟨h, hlast h⟩⟩
    · intro hiff
      exact ⟨fun hnone => absurd hwithOf (hnone t₀ hmem), fun h => (hiff.mpr h).2⟩

end Run

/-- In every run of the pool's users, with guard calls and other programs' steps
in between: the withdrawals all keep to the cooldown exactly when they keep away
from both ends of the slot count. -/
theorem cooldown_exact {d : Vault.Deployment} {l₀ l : Ledger} {trace : List Vault.Moment}
    (hpools : PoolsApart d) (hvault : Ledger.Genesis vaultId l₀)
    (hguard : Ledger.Genesis d.guard.programId l₀) (hrun : Run (Vault.Step d) l₀ trace l)
    (hslots : SlotsMonotone trace) :
    (∀ pre t post, trace = pre ++ t :: post → AwayFromEnds d pre t) ↔
      ∀ pre t post, trace = pre ++ t :: post → CooldownExact d pre t := by
  have hs : Sound d l₀ := ⟨named_genesis hvault, Guard.layout_genesis hguard⟩
  refine forall_congr' fun pre => forall_congr' fun t => forall_congr' fun post =>
    forall_congr' fun heq => ?_
  subst heq
  exact cooldown_at hpools hs hvault hrun hslots

/-! ### A first withdrawal that is not free -/

section Localnet

open Sdk Sdk.Localnet

/-- The wallet's pool as a time-locked one. -/
def initializeLockedIx : Instruction where
  programId := vaultId
  accounts := initializePoolIx.accounts
  data := initializePoolDisc ++ [1] ++ lenPrefixed 4 []

/-- The registered wallet puts three SOL into its time-locked pool. -/
def lockedLabels : List Vault.Label :=
  setup.map .guard ++ [.vault (vaultCall ⟨5, 500⟩ initializeLockedIx),
    .vault (vaultCall ⟨5, 500⟩ depositIx)]

def locked : Ledger := (runLabels vaultDeployment genesis lockedLabels).getD genesis

theorem run_locked : ∃ trace, Run (Vault.Step vaultDeployment) genesis trace locked ∧
    trace.map Transition.label = lockedLabels := by
  have hsome : (runLabels vaultDeployment genesis lockedLabels).isSome = true := by decide +kernel
  obtain ⟨l, hl⟩ := Option.isSome_iff_exists.mp hsome
  have hlocked : locked = l := by rw [locked, hl]; rfl
  rw [hlocked]
  exact run_of_runLabels hl

/-- The context of its first withdrawal, half a SOL. -/
def lockedWithdrawal : Withdraw where
  poolKey := poolPda
  pool := ⟨wallet, .timeLocked, "", 251⟩
  userDepositKey := depositPda
  userDeposit := ⟨poolPda, wallet, 3000000000, 0, 0, 0, 255⟩
  owner := wallet
  destination := treasury
  tranaRegistry := registryPda

theorem locked_context : (Withdraw.tryAccounts vaultDeployment smallWithdrawIx.accounts
      locked).Returns lockedWithdrawal ∧
    Guard.registryAt deployment locked registryPda = some (registry 0) := by
  decide +kernel

theorem locked_canMove : CanMove locked poolPda treasury 500000000 := by
  unfold CanMove
  decide +kernel

/-- The passkey's approval of that withdrawal. -/
def lockedApproval : Assertion :=
  assertion
    [132, 170, 162, 45, 117, 165, 111, 85, 95, 249, 168, 132, 142, 12, 108, 41, 203, 140, 159,
     164, 120, 243, 242, 182, 223, 94, 142, 137, 178, 139, 99, 61, 69, 83, 163, 82, 15, 135,
     29, 229, 255, 195, 210, 15, 135, 20, 109, 245, 240, 15, 109, 205, 214, 29, 82, 155, 52,
     19, 239, 197, 83, 40, 205, 72] (by decide)

def approvedWithdrawal : List Instruction :=
  proven lockedApproval Guard.policyNotBefore smallWithdrawIx 0

/-- It runs in slot 5, behind its proof. -/
def firstCall : Guard.Call := call approvedWithdrawal 2 smallWithdrawIx

theorem withdraw_is : (parseInstruction smallWithdrawIx.data).Returns (.withdraw 500000000) := by
  decide +kernel

/-- The guard is asked for a proof, and has one. -/
theorem first_enforced : ∃ called, (cpiEnforce vaultDeployment firstCall.env lockedWithdrawal
    (.notBefore 150) locked).Returns called := by
  have hpolicy : (Codec.utf8 Guard.policyNotBefore).length < 2 ^ 32 :=
    Nat.lt_trans (Guard.Policy.notBefore 150).length_domain (by decide)
  have hdata : 8 ≤ smallWithdrawIx.data.length := by decide
  obtain ⟨called, hcalled, -⟩ := Guard.execute_enforce_of firstCall.env (.notBefore 150)
    (show (Guard.Enforce.tryAccounts lockedWithdrawal.cpiContext.toAccountMetas).Returns
      ⟨registryPda, wallet⟩ from rfl) rfl locked_context.2 rfl
    (verified_proven lockedApproval smallWithdrawIx (registry 0) rfl (by decide) hdata hpolicy
      ⟨entry, List.mem_singleton_self _, rfl⟩)
  exact ⟨called, returns_embed.mpr (returns_bind.mpr ⟨_, Guard.parse_enforceData _, hcalled⟩)⟩

theorem first_succeeds : ∃ l', Vault.Step vaultDeployment locked (.vault firstCall) l' := by
  obtain ⟨called, hcalled⟩ := first_enforced
  obtain ⟨l', hl'⟩ := execute_withdraw_of locked_context.1 (by decide) (by decide)
    (show (choosePolicy .timeLocked lockedWithdrawal.userDeposit firstCall.env.clock
      500000000).Returns (.notBefore 150, false) by decide) hcalled locked_canMove
    (show (recordWithdrawal .timeLocked lockedWithdrawal.userDeposit firstCall.env.clock
      500000000 false).Returns ⟨poolPda, wallet, 2500000000, 5, 0, 0, 255⟩ by decide)
  exact ⟨l', .vault (returns_bind.mpr ⟨_, withdraw_is, hl'⟩)⟩

theorem first_withdraws :
    Withdraws vaultDeployment locked (.vault firstCall) firstCall lockedWithdrawal 500000000 where
  label := rfl
  parsed := withdraw_is
  context := locked_context.1

/-- The set-up has no withdrawal. -/
theorem lockedLabels_no_withdrawal {t : Vault.Moment} {pool user : Pubkey}
    (h : t.label ∈ lockedLabels) :
    ¬WithdrawsOf vaultDeployment pool user t.before t.label := by
  rintro ⟨c, ctx, amount, hwith, -, -⟩
  have hinit : (parseInstruction initializeLockedIx.data).Returns
      (.initializePool .timeLocked "") := by decide +kernel
  have hdeposit : (parseInstruction depositIx.data).Returns (.deposit 3000000000) := by
    decide +kernel
  rw [hwith.label] at h
  simp only [lockedLabels, setup, List.map_cons, List.map_nil, List.cons_append, List.nil_append,
    List.mem_cons, reduceCtorEq, Vault.Label.vault.injEq, List.not_mem_nil, or_false,
    false_or] at h
  rcases h with rfl | rfl
  · cases hinit.unique hwith.parsed
  · cases hdeposit.unique hwith.parsed

/-- Slots are a matter of labels. -/
theorem slotsMonotone_iff {trace : List Vault.Moment} : SlotsMonotone trace ↔
    (trace.map Transition.label).Pairwise fun a b =>
      ∀ s ∈ slot? a, ∀ s' ∈ slot? b, s ≤ s' := by
  rw [List.pairwise_map]
  rfl

/-- The set-up runs in slot 5. -/
theorem slot?_locked : ∀ b ∈ lockedLabels, slot? b = some 5 := by
  intro b hb
  simp only [lockedLabels, setup, List.map_cons, List.map_nil, List.cons_append, List.nil_append,
    List.mem_cons, List.not_mem_nil, or_false] at hb
  rcases hb with rfl | rfl | rfl | rfl <;> rfl

theorem slotsMonotone_locked {trace : List Vault.Moment} {a : Vault.Label} {s : UInt64}
    (hlabels : trace.map Transition.label = lockedLabels ++ [a]) (ha : slot? a = some s)
    (hs : 5 ≤ s) : SlotsMonotone trace := by
  rw [slotsMonotone_iff, hlabels]
  refine List.pairwise_append.mpr
    ⟨List.pairwise_of_forall_mem_list ?_, List.pairwise_singleton .., ?_⟩
  · intro b hb b' hb' s₁ hs₁ s₂ hs₂
    rw [slot?_locked b hb] at hs₁
    rw [slot?_locked b' hb'] at hs₂
    obtain rfl := Option.some.inj hs₁
    obtain rfl := Option.some.inj hs₂
    exact UInt64.le_refl _
  · intro b hb b' hb' s₁ hs₁ s₂ hs₂
    obtain rfl := List.mem_singleton.mp hb'
    rw [slot?_locked b hb] at hs₁
    rw [ha] at hs₂
    obtain rfl := Option.some.inj hs₁
    obtain rfl := Option.some.inj hs₂
    exact hs

/-- A first withdrawal in slot 200, which is free. -/
def lateCall : Guard.Call := vaultCall ⟨200, 580⟩ smallWithdrawIx

theorem cooldown_exact_late : ∃ (l : Ledger) (trace : List Vault.Moment),
    Run (Vault.Step vaultDeployment) genesis trace l ∧
    trace.map Transition.label = lockedLabels ++ [.vault lateCall] ∧
    ((∀ pre t post, trace = pre ++ t :: post → AwayFromEnds vaultDeployment pre t) ↔
      ∀ pre t post, trace = pre ++ t :: post → CooldownExact vaultDeployment pre t) := by
  have hsome : (runLabels vaultDeployment genesis (lockedLabels ++ [.vault lateCall])).isSome =
      true := by
    decide +kernel
  obtain ⟨l, hl⟩ := Option.isSome_iff_exists.mp hsome
  obtain ⟨trace, hrun, hlabels⟩ := run_of_runLabels hl
  exact ⟨l, trace, hrun, hlabels, cooldown_exact poolsApart_vault
    (genesis_of_ne vaultId_ne_system) (genesis_of_ne deployment.programId_ne) hrun
    (slotsMonotone_locked hlabels rfl (by decide))⟩

/-- The wallet's first withdrawal from its time-locked pool asks for a proof and
consumes a nonce. -/
theorem first_not_free : ∃ (pre : List Vault.Moment) (t : Vault.Moment),
    Run (Vault.Step vaultDeployment) genesis (pre ++ [t]) t.after ∧
    pre.map Transition.label = lockedLabels ∧ t.label = .vault firstCall ∧
    SlotsMonotone (pre ++ [t]) ∧
    Secp256r1.Accepted
      (lockedApproval.curve (challenge Guard.policyNotBefore smallWithdrawIx 0))
      approvedWithdrawal ∧
    ¬CooldownExact vaultDeployment pre t := by
  obtain ⟨pre, hrun, hlabels⟩ := run_locked
  obtain ⟨l', hstep⟩ := first_succeeds
  have hrun' : Run (Vault.Step vaultDeployment) genesis
      (pre ++ [⟨locked, .vault firstCall, l'⟩]) l' := hrun.append (.cons hstep (.nil l'))
  have hslots : SlotsMonotone (pre ++ [⟨locked, .vault firstCall, l'⟩]) :=
    slotsMonotone_locked (a := .vault firstCall) (by rw [List.map_append, hlabels]; rfl) rfl
      (UInt64.le_refl _)
  refine ⟨pre, ⟨locked, .vault firstCall, l'⟩, hrun', hlabels, rfl, hslots,
    accepted_proven (by decide), fun hexact => ?_⟩
  have hs : Sound vaultDeployment genesis :=
    ⟨named_genesis (genesis_of_ne vaultId_ne_system),
      Guard.layout_genesis (genesis_of_ne deployment.programId_ne)⟩
  have haway := (cooldown_at poolsApart_vault hs (genesis_of_ne vaultId_ne_system) hrun'
    hslots).mpr hexact
  have hearly := haway.first first_withdraws rfl fun u hu =>
    lockedLabels_no_withdrawal (hlabels ▸ List.mem_map_of_mem hu)
  exact absurd hearly (by decide)

end Localnet

end Trana.Security
