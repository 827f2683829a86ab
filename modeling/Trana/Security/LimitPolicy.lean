import Trana.Sdk.Transaction
import Trana.Solana.CallTree
import Trana.Vault.ProgramSpec

/-!
# The limit policy at any call depth

`enforce` compares the amount in the current top-level instruction; the
program that called it acts on the amount in its own instruction data. The
two are the same bytes for a direct call only.

* `enforce_limit` — a limit is passed without a nonce exactly when the
  top-level amount is below it.
* `limit_policy` — the caller's amount is checked exactly when it cannot be
  above the limit while the top-level one is below.
* `withdraw_dodges` — a wrapper that withdraws two SOL without a proof.

A transaction is a list of top-level instructions, each with the tree of calls it
makes. `CallsAt` relates a call to its caller anywhere in such a tree; nothing
is asked of the programs in between, nor of how deep they are. The condition
`AmountsAgree` compares eight bytes at an offset in two pieces of instruction
data, and a piece that is too short has no amount.

The result has three parts: any program that asks for a limit, the vault as the
one in the repository, and that the condition holds of itself when the caller
is the top-level instruction. In the example privileges are granted down the tree
as the runtime has it, so the wrapper is one that could be deployed.
-/

namespace Trana.Security

open Trana.Lib Trana.Lib.Exec Trana.Solana Trana.Guard

/-- The `u64` a limit is compared with is there, and below the bound. -/
def BelowLimit (data : Bytes) (paramOffset : UInt8) (bound : UInt64) : Prop :=
  ∃ v, u64At data (8 + paramOffset.toNat) = some v ∧ v < bound

/-- A nonce of the registry of `w` at `key` was consumed. -/
def ConsumesNonce (d : Guard.Deployment) (l l' : Ledger) (key w : Pubkey) : Prop :=
  ∃ r, registryAt d l key = some r ∧ r.owner = w ∧ registryAt d l' key = some r.consume

/-- The call `callee` to the guard consumed a nonce, or the amount in the
caller's instruction data is below the limit. -/
def NotDodged (d : Guard.Deployment) (l l' : Ledger) (caller callee : Instruction)
    (paramOffset : UInt8) (bound : UInt64) : Prop :=
  ∀ key w, Names callee.accounts key w → ¬ConsumesNonce d l l' key w →
    BelowLimit caller.data paramOffset bound

/-- If the amount in the top-level instruction is below the limit, then so is
the one in these instruction data. -/
def AmountsAgree (ixSysvar : InstructionsSysvar) (data : Bytes) (paramOffset : UInt8)
    (bound : UInt64) : Prop :=
  (∃ top, ixSysvar.instructions[ixSysvar.currentIndex.toNat]? = some top ∧
    BelowLimit top.data paramOffset bound) → BelowLimit data paramOffset bound

section Limit

variable {d : Guard.Deployment} {env : Env} {accounts : List AccountMeta} {l l' : Ledger}
  {paramOffset : UInt8} {bound : UInt64}

theorem protectedU64_eq_some {ixSysvar : InstructionsSysvar} {v : UInt64} :
    protectedU64 ixSysvar paramOffset = some v ↔
      ∃ top, ixSysvar.instructions[ixSysvar.currentIndex.toNat]? = some top ∧
        u64At top.data (8 + paramOffset.toNat) = some v :=
  Option.bind_eq_some_iff

/-- A consumed nonce is a change of the registry. -/
theorem not_consumesNonce {key w : Pubkey} (h : registryAt d l' key = registryAt d l key) :
    ¬ConsumesNonce d l l' key w := by
  intro hex
  obtain ⟨r, hr, -, hr'⟩ := hex
  rw [h] at hr'
  have hnonce : r.nonce = r.nonce + 1 :=
    congrArg PasskeyRegistry.nonce (Option.some.inj (hr.symm.trans hr'))
  have hnat : r.nonce.toNat = (r.nonce.toNat + 1) % 2 ^ 64 := by
    conv_lhs => rw [hnonce, UInt64.toNat_add]
    rfl
  have hlt := r.nonce.toNat_lt
  omega

/-- A limit lets a call pass without a nonce exactly when the top-level amount
is below it. -/
theorem enforce_limit
    (h : (execute d env accounts (.enforce (.limit paramOffset bound)) l).Returns l') :
    ∃ key w, Names accounts key w ∧
      (ConsumesNonce d l l' key w ↔
        ¬∃ top, env.ixSysvar.instructions[env.ixSysvar.currentIndex.toNat]? = some top ∧
          BelowLimit top.data paramOffset bound) := by
  have hnames : ∃ key w, Names accounts key w := by
    simp only [execute, returns_bind] at h
    obtain ⟨ctx, hctx, -⟩ := h
    exact ⟨_, _, enforce_tryAccounts hctx⟩
  cases enforce_effect h with
  | enforceFree idle evaluable same =>
    subst same
    obtain ⟨key, w, hnames⟩ := hnames
    refine ⟨key, w, hnames, iff_of_false (not_consumesNonce rfl) (not_not.mpr ?_)⟩
    -- no nonce: the policy did not fire, so an amount was read and was below
    obtain ⟨amount, hamount⟩ := Option.isSome_iff_exists.mp evaluable
    obtain ⟨top, htop, hv⟩ := protectedU64_eq_some.mp hamount
    refine ⟨top, htop, amount, hv, UInt64.not_le.mp fun hle => ?_⟩
    exact absurd (Policy.fires_limit.mpr ⟨amount, hamount, hle⟩) (by simp [idle])
  | enforceProof w key r names fires found owner_eq verified stores =>
    refine ⟨key, w, names, iff_of_true ⟨r, found, owner_eq, stores.registryAt_self⟩ ?_⟩
    intro hex
    obtain ⟨top, htop, v, hv, hlt⟩ := hex
    -- a nonce: it fired, so the amount it read was not below
    obtain ⟨amount, hamount, hle⟩ := Policy.fires_limit.mp fires
    have hv' := protectedU64_eq_some.mpr ⟨top, htop, hv⟩
    obtain rfl := Option.some.inj (hamount.symm.trans hv')
    exact absurd hle (UInt64.not_le.mpr hlt)

/-- For the top-level instruction's own program the amounts agree. -/
theorem amountsAgree_top {ixSysvar : InstructionsSysvar} {ix : Instruction}
    (h : ixSysvar.instructions[ixSysvar.currentIndex.toNat]? = some ix) :
    AmountsAgree ixSysvar ix.data paramOffset bound := by
  intro hex
  obtain ⟨top, htop, hbelow⟩ := hex
  obtain rfl := Option.some.inj (h.symm.trans htop)
  exact hbelow

theorem notDodged_iff {caller callee : Instruction}
    (hix : (Guard.parseInstruction callee.data).Returns (.enforce (.limit paramOffset bound)))
    (h : (Guard.process d env callee.accounts callee.data l).Returns l') :
    NotDodged d l l' caller callee paramOffset bound ↔
      AmountsAgree env.ixSysvar caller.data paramOffset bound := by
  obtain ⟨ix, hix', hrun⟩ := returns_bind.mp h
  obtain rfl := hix.unique hix'
  obtain ⟨key, w, hnames, hiff⟩ := enforce_limit hrun
  constructor
  · intro hno hbelow
    exact hno key w hnames fun hconsumes => hiff.mp hconsumes hbelow
  · intro hagree key' w' hnames' hconsumes
    obtain ⟨rfl, rfl⟩ := hnames.unique hnames'
    exact hagree (not_not.mp fun hnot => hconsumes (hiff.mpr hnot))

/-! ## The vault -/

section Vault

variable {v : Vault.Deployment} {ctx : Vault.Withdraw} {amount : UInt64} {proofUsed : Bool}

/-- A decoded `u64` is the one at its offset. -/
theorem u64At_of_read {data rest : Bytes} {i : Nat} {a : UInt64}
    (h : Codec.u64.read (data.drop i) = some (a, rest)) : u64At data i = some a := by
  obtain ⟨pre, hwrite, hdata⟩ := Codec.u64.write_read h
  obtain rfl := Option.some.inj hwrite
  have hlen := congrArg List.length hdata
  rw [List.length_drop, List.length_append, length_leBytes] at hlen
  have hlt : a.toNat < 256 ^ 8 := a.toNat_lt
  rw [u64At, if_pos (by omega), hdata, List.take_append_of_le_length (by simp),
    List.take_of_length_le (by simp), leNat_leBytes_of_lt hlt, UInt64.ofNat_toNat]

/-- The argument of `withdraw` is the `u64` behind the discriminator. -/
theorem u64At_withdraw {data : Bytes}
    (h : (Vault.parseInstruction data).Returns (.withdraw amount)) :
    u64At data 8 = some amount := by
  unfold Vault.parseInstruction at h
  dsimp only at h
  split at h
  next =>
    simp only [returns_bind, returns_pure] at h
    obtain ⟨-, -, a, -, ha⟩ := h
    cases ha
  next =>
    split at h
    next =>
      simp only [returns_bind, returns_pure] at h
      obtain ⟨-, -, a, -, ha⟩ := h
      cases ha
    next =>
      split at h
      next =>
        -- the third discriminator is the withdrawal's; eight bytes behind it are the amount
        simp only [returns_bind, Vault.readArgs, returns_okOr, returns_pure] at h
        obtain ⟨-, -, a, hargs, ha⟩ := h
        obtain rfl := Vault.VaultInstruction.withdraw.inj ha
        obtain ⟨⟨a, rest⟩, hread, rfl⟩ := Option.map_eq_some_iff.mp hargs
        exact u64At_of_read hread
      next => simp at h

theorem withdraw_consumes_iff (env : Env) {ix : Instruction}
    (hix : (Vault.parseInstruction ix.data).Returns (.withdraw amount))
    (hctx : (Vault.Withdraw.tryAccounts v ix.accounts l).Returns ctx)
    (hpolicy : (Vault.choosePolicy ctx.pool.kind ctx.userDeposit env.clock amount).Returns
      (.limit 0 Vault.withdrawLimit, proofUsed))
    (h : (Vault.process v env ix.accounts ix.data l).Returns l') :
    (Vault.withdrawLimit ≤ amount → ConsumesNonce v.guard l l' ctx.tranaRegistry ctx.owner) ↔
      AmountsAgree env.ixSysvar ix.data 0 Vault.withdrawLimit := by
  obtain ⟨ix', hix', hrun⟩ := returns_bind.mp h
  obtain rfl := hix.unique hix'
  obtain ⟨ctx', policy, flag, called, hctx', hsteps⟩ := Vault.withdraw_spec hrun
  obtain rfl := hctx.unique hctx'
  obtain ⟨rfl, -⟩ := Prod.mk.inj (hpolicy.unique hsteps.chosen)
  have hcall := hsteps.call
  rw [Vault.cpiEnforce, returns_embed] at hcall
  obtain ⟨gix, hgix, henforce⟩ := returns_bind.mp hcall
  obtain rfl := (parse_enforceData _).unique hgix
  obtain ⟨key, w, hnames, hiff⟩ := enforce_limit henforce
  -- the call names the registry and the owner of the withdrawal
  have hctxNames : Names (ctx.cpiContext.toAccountMetas) ctx.tranaRegistry ctx.owner :=
    ⟨rfl, _, rfl, rfl, rfl⟩
  obtain ⟨rfl, rfl⟩ := hnames.unique hctxNames
  have hbelow : BelowLimit ix.data 0 Vault.withdrawLimit ↔ ¬Vault.withdrawLimit ≤ amount := by
    unfold BelowLimit
    rw [show 8 + (0 : UInt8).toNat = 8 from rfl, u64At_withdraw hix]
    simp
  have hsame : ConsumesNonce v.guard l l' ctx.tranaRegistry ctx.owner ↔
      ConsumesNonce v.guard l called ctx.tranaRegistry ctx.owner := by
    unfold ConsumesNonce
    rw [hsteps.registries]
  rw [hsame, hiff, AmountsAgree, hbelow]
  constructor
  · intro hno htop hle
    exact hno hle htop
  · intro hagree hle htop
    exact hagree htop hle

end Vault

end Limit

/-- When a limit holds for the program that asked for it, at any depth. -/
theorem limit_policy (v : Vault.Deployment) (tx : Transaction) (i : UInt16) (clock : Clock)
    (minimumBalance : Nat → UInt64) :
    (∀ caller callee paramOffset bound l l', tx.CallsAt i caller callee →
      callee.programId = v.guard.programId →
      (Guard.parseInstruction callee.data).Returns (.enforce (.limit paramOffset bound)) →
      (Guard.process v.guard ⟨clock, tx.sysvar i, minimumBalance⟩ callee.accounts callee.data
        l).Returns l' →
      (NotDodged v.guard l l' caller callee paramOffset bound ↔
        AmountsAgree (tx.sysvar i) caller.data paramOffset bound)) ∧
    (∀ ix amount ctx proofUsed l l', tx.Runs i ix → ix.programId = Vault.vaultId →
      (Vault.parseInstruction ix.data).Returns (.withdraw amount) →
      (Vault.Withdraw.tryAccounts v ix.accounts l).Returns ctx → ctx.pool.kind = .limit →
      (Vault.choosePolicy ctx.pool.kind ctx.userDeposit clock amount).Returns
        (.limit 0 Vault.withdrawLimit, proofUsed) →
      (Vault.process v ⟨clock, tx.sysvar i, minimumBalance⟩ ix.accounts ix.data l).Returns l' →
      ((Vault.withdrawLimit ≤ amount → ConsumesNonce v.guard l l' ctx.tranaRegistry ctx.owner) ↔
        AmountsAgree (tx.sysvar i) ix.data 0 Vault.withdrawLimit)) ∧
    ∀ ix paramOffset bound, tx.instructions[i.toNat]? = some ix →
      AmountsAgree (tx.sysvar i) ix.data paramOffset bound := by
  refine ⟨?_, ?_, ?_⟩
  · intro caller callee paramOffset bound l l' _ _ hix h
    exact notDodged_iff hix h
  · intro ix amount ctx proofUsed l l' _ _ hix hctx _ hpolicy h
    exact withdraw_consumes_iff ⟨clock, tx.sysvar i, minimumBalance⟩ hix hctx hpolicy h
  · intro ix paramOffset bound htop
    exact amountsAgree_top htop

/-! ### A wrapped withdrawal -/

section Localnet

open Sdk.Localnet

/-- The pool PDA of the wallet as authority, bump 251. -/
def poolPda : Pubkey :=
  ⟨[113, 245, 13, 21, 205, 118, 94, 255, 229, 174, 7, 198, 82, 123, 83, 160, 53, 233, 121, 206, 86,
    180, 195, 228, 76, 119, 179, 63, 50, 83, 97, 177], by decide⟩

/-- The wallet's deposit PDA in it, bump 255. -/
def depositPda : Pubkey :=
  ⟨[1, 144, 207, 80, 140, 248, 50, 231, 44, 172, 100, 137, 18, 132, 228, 133, 173, 202, 155, 44,
    108, 244, 152, 223, 225, 32, 229, 127, 79, 142, 114, 159], by decide⟩

/-- The vault next to the localnet guard, with the addresses of this wallet. -/
def vaultDeployment : Vault.Deployment where
  guard := deployment
  findPool _ := (poolPda, 251)
  findDeposit _ _ := (depositPda, 255)
  createPool _ bump := if bump = 251 then some poolPda else none
  createDeposit _ _ bump := if bump = 255 then some depositPda else none
  guard_ne := by decide
  createPool_find _ := rfl
  createDeposit_find _ _ := rfl

def initializePoolIx : Instruction where
  programId := Vault.vaultId
  accounts := [writableMeta poolPda, signerMeta wallet, readonlyMeta systemProgramId]
  data := Vault.initializePoolDisc ++ [0] ++ lenPrefixed 4 []

def depositIx : Instruction where
  programId := Vault.vaultId
  accounts := [writableMeta poolPda, writableMeta depositPda, signerMeta wallet,
    readonlyMeta systemProgramId]
  data := Vault.depositDisc ++ leBytes 8 3000000000

/-- Two SOL, of which one would be free. -/
def withdrawIx : Instruction where
  programId := Vault.vaultId
  accounts := [writableMeta poolPda, writableMeta depositPda, signerMeta wallet,
    writableMeta treasury, readonlyMeta localnetId, writableMeta registryPda,
    readonlyMeta instructionsId]
  data := Vault.withdrawDisc ++ leBytes 8 2000000000

/-- Another program's instruction that passes the withdrawal on. -/
def wrapperIx : Instruction where
  programId := callerId
  accounts := withdrawIx.accounts ++ [readonlyMeta Vault.vaultId]
  data := List.replicate 16 0
  accounts_lt := by decide

/-- The call the vault makes for it. -/
def limitCall : Instruction where
  programId := localnetId
  accounts := [writableMeta registryPda, ⟨wallet, true, false⟩, readonlyMeta instructionsId]
  data := enforceData (.limit 0 Vault.withdrawLimit)

def wrapped : Transaction :=
  ⟨[.invoke wrapperIx [.invoke withdrawIx [.invoke limitCall []]]]⟩

/-- Run vault instructions one after the other, each in its own transaction. -/
def runVault (l : Ledger) : List Instruction → Option Ledger
  | [] => some l
  | ix :: ixs =>
    match (Vault.process vaultDeployment (env [ix] 0) ix.accounts ix.data l).result with
    | .error _ => none
    | .ok l' => runVault l' ixs

/-- The wallet is registered and has three SOL in its pool. -/
def funded : Ledger := (runVault registered [initializePoolIx, depositIx]).getD registered

/-- The context of the withdrawal. -/
def withdrawal : Vault.Withdraw where
  poolKey := poolPda
  pool := ⟨wallet, .limit, "", 251⟩
  userDepositKey := depositPda
  userDeposit := ⟨poolPda, wallet, 3000000000, 0, 0, 0, 255⟩
  owner := wallet
  destination := treasury
  tranaRegistry := registryPda

def wrappedEnv : Env := ⟨⟨5, 500⟩, wrapped.sysvar 0, minimumBalance⟩

theorem withdrawal_context :
    (Vault.Withdraw.tryAccounts vaultDeployment withdrawIx.accounts funded).Returns withdrawal := by
  decide +kernel

/-- The wrapped withdrawal succeeds, and the registry stays at nonce zero. -/
theorem wrapped_withdraws : ∃ l',
    (Vault.process vaultDeployment wrappedEnv withdrawIx.accounts withdrawIx.data funded).Returns
      l' ∧ registryAt deployment l' registryPda = registryAt deployment funded registryPda ∧
    (l' treasury).lamports = 2000000000 := by
  have hrun : (Vault.process vaultDeployment wrappedEnv withdrawIx.accounts withdrawIx.data
      funded).result.toOption.map (fun l => (registryAt deployment l registryPda,
        (l treasury).lamports)) =
      some (registryAt deployment funded registryPda, 2000000000) := by
    decide +kernel
  obtain ⟨l', hl', heq⟩ := Option.map_eq_some_iff.mp hrun
  obtain ⟨hregistry, hlamports⟩ := Prod.mk.inj heq
  exact ⟨l', toOption_eq_some.mp hl', hregistry, hlamports⟩

/-- So does the vault's call to the guard. -/
theorem wrapped_calls : ∃ l',
    (Guard.process deployment wrappedEnv limitCall.accounts limitCall.data funded).Returns l' ∧
      registryAt deployment l' registryPda = registryAt deployment funded registryPda := by
  have hrun : (Guard.process deployment wrappedEnv limitCall.accounts limitCall.data
      funded).result.toOption.map (fun l => registryAt deployment l registryPda) =
      some (registryAt deployment funded registryPda) := by
    decide +kernel
  obtain ⟨l', hl', heq⟩ := Option.map_eq_some_iff.mp hrun
  exact ⟨l', toOption_eq_some.mp hl', heq⟩

theorem wrapped_runs : wrapped.Runs 0 withdrawIx :=
  ⟨_, _, rfl, .call (List.mem_singleton_self _) (.root _), rfl⟩

theorem wrapped_callsAt : wrapped.CallsAt 0 withdrawIx limitCall :=
  ⟨_, rfl, _, _, .call (List.mem_singleton_self _) (.root _), rfl, List.mem_singleton_self _, rfl⟩

/-- The wrapped withdrawal, judged by its amounts. -/
theorem limit_policy_wrapped : ∃ l',
    (Vault.process vaultDeployment wrappedEnv withdrawIx.accounts withdrawIx.data funded).Returns
      l' ∧
    ((Vault.withdrawLimit ≤ 2000000000 →
        ConsumesNonce deployment funded l' registryPda wallet) ↔
      AmountsAgree (wrapped.sysvar 0) withdrawIx.data 0 Vault.withdrawLimit) := by
  obtain ⟨l', hrun, -⟩ := wrapped_withdraws
  have hix : (Vault.parseInstruction withdrawIx.data).Returns (.withdraw 2000000000) := by
    decide +kernel
  have hpolicy : (Vault.choosePolicy withdrawal.pool.kind withdrawal.userDeposit ⟨5, 500⟩
      2000000000).Returns (.limit 0 Vault.withdrawLimit, true) := by
    decide
  exact ⟨l', hrun, (limit_policy vaultDeployment wrapped 0 ⟨5, 500⟩ minimumBalance).2.1 withdrawIx
    2000000000 withdrawal true funded l' wrapped_runs rfl hix withdrawal_context rfl hpolicy hrun⟩

/-- Two SOL leave the pool through a wrapper without a proof: its own data
spell zero where the vault's spell the amount. -/
theorem withdraw_dodges :
    Granted wrapperIx withdrawIx ∧ Granted withdrawIx limitCall ∧
    wrapped.Runs 0 withdrawIx ∧ wrapped.CallsAt 0 withdrawIx limitCall ∧
    (∃ l', (Guard.process deployment wrappedEnv limitCall.accounts limitCall.data funded).Returns
        l' ∧ ¬NotDodged deployment funded l' withdrawIx limitCall 0 Vault.withdrawLimit) ∧
    ∃ l', (Vault.process vaultDeployment wrappedEnv withdrawIx.accounts withdrawIx.data
        funded).Returns l' ∧ (l' treasury).lamports = 2000000000 ∧
      ¬(Vault.withdrawLimit ≤ 2000000000 →
        ConsumesNonce deployment funded l' registryPda wallet) := by
  refine ⟨by decide, by decide, wrapped_runs, wrapped_callsAt, ?_, ?_⟩
  · obtain ⟨l', hrun, hsame⟩ := wrapped_calls
    refine ⟨l', hrun, fun hno => ?_⟩
    have hnames : Names limitCall.accounts registryPda wallet := ⟨rfl, _, rfl, rfl, rfl⟩
    obtain ⟨v, hv, hlt⟩ := hno _ _ hnames (not_consumesNonce hsame)
    have hv' : u64At withdrawIx.data (8 + (0 : UInt8).toNat) = some 2000000000 := by decide +kernel
    obtain rfl := Option.some.inj (hv'.symm.trans hv)
    exact absurd hlt (by decide)
  · obtain ⟨l', hrun, hsame, hlamports⟩ := wrapped_withdraws
    exact ⟨l', hrun, hlamports, fun h => not_consumesNonce hsame (h (by decide))⟩

end Localnet

end Trana.Security
