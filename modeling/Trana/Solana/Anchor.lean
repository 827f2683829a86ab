import Trana.Lib.Exec
import Trana.Solana.Ledger

/-!
# Anchor accounts and account checks

An Anchor account is an eight-byte discriminator followed by the Borsh form of
its type, possibly followed by stale bytes: a shorter value written over a
longer one leaves the old tail in place. `AccountLayout` bundles discriminator
and codec.

The checks a `#[derive(Accounts)]` makes are one small function each, with the
error code Anchor returns, and an account context is their sequence in the order
of its fields. `returns_signer` and its siblings say what a check that passed has
shown; they are simp lemmas, so that a context taken apart with `returns_bind`
leaves the conditions and nothing of the framework.

Anchor also finds the bump of a derived address by itself, or takes the one an
account stores; both are an address here, which the deployment supplies. The
framework is Anchor 0.32.1 with `init_if_needed`; whether a handler may write over
an account it found there is the handler's business.

* `tryDeserialize_trySerialize` — what was stored is what is read back.
* `trySerialize_length` — storing never changes the account's size.
* `image_of_tryDeserialize`, `trySerialize_image` — what was read can be
  written over by an image of the same length, and the tail stays.
* `accountAt`, `accountAt_external` — what a program keeps at an address, which
  other programs cannot change.
* `exitAccount_spec`, `initIfNeeded_spec`, `closeAccount_spec` — the three writes.
-/

namespace Trana.Solana

open Trana.Lib Trana.Lib.Exec

/-- The framework's own errors, under its names. -/
inductive AnchorError where
  | instructionFallbackNotFound
  | instructionDidNotDeserialize
  | constraintMut
  | constraintRaw
  | constraintOwner
  | constraintRentExempt
  | constraintSeeds
  | constraintAddress
  | constraintSpace
  | constraintClose
  | accountDiscriminatorNotFound
  | accountDiscriminatorMismatch
  | accountDidNotDeserialize
  | accountDidNotSerialize
  | accountNotEnoughKeys
  | accountOwnedByWrongProgram
  | invalidProgramId
  | accountNotSigner
  | accountNotInitialized
  | accountSysvarMismatch
  deriving DecidableEq, Repr

/-- What a handler can return: its own error, one of the framework's, or one a
system-program call came back with. -/
inductive ProgramError (ε : Type) where
  | custom (e : ε)
  | anchor (e : AnchorError)
  | system
  deriving DecidableEq, Repr

instance {ε : Type} : Coe ε (ProgramError ε) := ⟨.custom⟩

/-- A handler's run. -/
abbrev ProgramExec (ε ℓ : Type) := Exec (ProgramError ε) ℓ

/-- An account type: `#[account]` with its `INIT_SPACE`. -/
structure AccountLayout (α : Type) where
  discriminator : Bytes
  initSpace : Nat
  codec : Codec α
  length_discriminator : discriminator.length = 8 := by decide

namespace AccountLayout

variable {α β : Type} (t : AccountLayout α)

/-- The size an account of this type is created with. -/
def space : Nat := t.discriminator.length + t.initSpace

/-- Trailing bytes are accepted. -/
def tryDeserializeUnchecked (data : Bytes) : Except AnchorError α :=
  match t.codec.read (data.drop t.discriminator.length) with
  -- what stands behind the value is not looked at
  | some (a, _) => .ok a
  | none => .error .accountDidNotDeserialize

/-- `try_deserialize`: the discriminator first, then the value. -/
def tryDeserialize (data : Bytes) : Except AnchorError α :=
  if data.length < t.discriminator.length then .error .accountDiscriminatorNotFound
  else if data.take t.discriminator.length ≠ t.discriminator then
    .error .accountDiscriminatorMismatch
  else t.tryDeserializeUnchecked data

/-- Writes over the front of the data and fails when it is too short. -/
def trySerialize (a : α) (data : Bytes) : Option Bytes :=
  (t.codec.write a).bind fun body =>
    let image := t.discriminator ++ body
    -- the old bytes behind a shorter image stay
    if image.length ≤ data.length then some (image ++ data.drop image.length) else none

/-- What was stored: discriminator, image, and the old bytes behind them. -/
theorem trySerialize_eq_some {t : AccountLayout α} {a : α} {data data' : Bytes}
    (h : t.trySerialize a data = some data') :
    ∃ body, t.codec.write a = some body ∧
      (t.discriminator ++ body).length ≤ data.length ∧
      data' = t.discriminator ++ body ++ data.drop (t.discriminator ++ body).length := by
  obtain ⟨body, hbody, h⟩ := Option.bind_eq_some_iff.mp h
  dsimp only at h
  split at h
  next hle => exact ⟨body, hbody, hle, (Option.some.inj h).symm⟩
  next => nomatch h

/-- Data is read as `a` when it starts with the discriminator and the codec
reads `a` behind it. -/
theorem tryDeserialize_eq_ok {t : AccountLayout α} {a : α} {data : Bytes} :
    t.tryDeserialize data = .ok a ↔ data.take t.discriminator.length = t.discriminator ∧
      ∃ rest, t.codec.read (data.drop t.discriminator.length) = some (a, rest) := by
  unfold tryDeserialize tryDeserializeUnchecked
  constructor
  · intro h
    split at h
    next => cases h
    next =>
      split at h
      next => cases h
      next hdisc =>
        split at h
        next b rest hread =>
          obtain rfl := Except.ok.inj h
          exact ⟨not_not.mp hdisc, rest, hread⟩
        next => cases h
  · intro h
    obtain ⟨hdisc, rest, hread⟩ := h
    -- a prefix of that length is only there when the data is long enough
    have hlen : ¬data.length < t.discriminator.length := by
      have := congrArg List.length hdisc
      rw [List.length_take] at this
      omega
    rw [if_neg hlen, if_neg (not_not.mpr hdisc), hread]

/-- Data read as `a` are the discriminator, the image of `a` and a tail. -/
theorem image_of_tryDeserialize {t : AccountLayout α} {a : α} {data : Bytes}
    (h : t.tryDeserialize data = .ok a) :
    ∃ body rest, t.codec.write a = some body ∧ data = t.discriminator ++ (body ++ rest) := by
  obtain ⟨hdisc, rest, hread⟩ := tryDeserialize_eq_ok.mp h
  obtain ⟨body, hwrite, hdata⟩ := t.codec.write_read hread
  refine ⟨body, rest, hwrite, ?_⟩
  rw [← hdata]
  conv_lhs => rw [← List.take_append_drop t.discriminator.length data, hdisc]

/-- An image of the same length replaces the old one and leaves the tail. -/
theorem trySerialize_image {t : AccountLayout α} {a : α} {body body' rest : Bytes}
    (hwrite : t.codec.write a = some body') (hlen : body'.length = body.length) :
    t.trySerialize a (t.discriminator ++ (body ++ rest)) =
      some (t.discriminator ++ (body' ++ rest)) := by
  have hfit : (t.discriminator ++ body').length ≤ (t.discriminator ++ (body ++ rest)).length := by
    simp only [List.length_append]
    omega
  have htail : (t.discriminator ++ (body ++ rest)).drop (t.discriminator ++ body').length =
      rest := by
    rw [List.length_append, hlen, ← List.append_assoc, ← List.length_append, List.drop_left]
  unfold trySerialize
  rw [hwrite, Option.bind_some]
  dsimp only
  rw [if_pos hfit, htail, List.append_assoc]

/-- What was stored is what is read back. -/
theorem tryDeserialize_trySerialize {t : AccountLayout α} {a : α} {data data' : Bytes}
    (h : t.trySerialize a data = some data') : t.tryDeserialize data' = .ok a := by
  obtain ⟨body, hbody, -, rfl⟩ := trySerialize_eq_some h
  rw [List.append_assoc]
  refine tryDeserialize_eq_ok.mpr ⟨List.take_left, ?_⟩
  rw [List.drop_left]
  exact ⟨_, t.codec.read_write hbody _⟩

/-- Storing never changes the account's size. -/
theorem trySerialize_length {t : AccountLayout α} {a : α} {data data' : Bytes}
    (h : t.trySerialize a data = some data') : data'.length = data.length := by
  obtain ⟨body, -, hle, rfl⟩ := trySerialize_eq_some h
  rw [List.length_append, List.length_drop]
  omega

/-- A value read under a discriminator sits behind that discriminator. -/
theorem discriminator_of_tryDeserialize {t : AccountLayout α} {a : α} {data : Bytes}
    (h : t.tryDeserialize data = .ok a) :
    data.take t.discriminator.length = t.discriminator :=
  (tryDeserialize_eq_ok.mp h).1

/-- Zeroed data carries no discriminator but the zero one. -/
theorem tryDeserialize_zeros {t : AccountLayout α} {a : α} {data : Bytes}
    (hz : ∀ b ∈ data, b = 0) (hdisc : ∃ b ∈ t.discriminator, b ≠ 0) :
    t.tryDeserialize data ≠ .ok a := by
  intro h
  obtain ⟨b, hb, hne⟩ := hdisc
  rw [← discriminator_of_tryDeserialize h] at hb
  exact hne (hz b (List.mem_of_mem_take hb))

end AccountLayout

/-! ## Accounts of a type -/

theorem toOption_eq_some {ε α : Type} {x : Except ε α} {a : α} :
    x.toOption = some a ↔ x = .ok a := by
  cases x with
  | ok b => simp [Except.toOption]
  | error e => simp [Except.toOption]

section AccountAt

variable {α : Type} {t : AccountLayout α} {p : Pubkey} {l l' : Ledger} {key : Pubkey}

/-- What program `p` keeps of this type at an address. -/
def accountAt (t : AccountLayout α) (p : Pubkey) (l : Ledger) (key : Pubkey) : Option α :=
  if (l key).owner = p then (t.tryDeserialize (l key).data).toOption else none

/-- An account of the type: the program owns it, and it reads as the value. -/
theorem accountAt_eq_some {a : α} :
    accountAt t p l key = some a ↔ (l key).owner = p ∧ t.tryDeserialize (l key).data = .ok a := by
  unfold accountAt
  split
  next h => simp [h, toOption_eq_some]
  next h => simp [h]

/-- Owner and data decide what is there. -/
theorem accountAt_congr (h : (l' key).owner = (l key).owner ∧ (l' key).data = (l key).data) :
    accountAt t p l' key = accountAt t p l key := by
  rw [accountAt, accountAt, h.1, h.2]

/-- An account of zeros holds no value of a type with a nonzero discriminator. -/
theorem accountAt_zeros (hz : (l key).owner = p → ∀ b ∈ (l key).data, b = 0)
    (hdisc : ∃ b ∈ t.discriminator, b ≠ 0) : accountAt t p l key = none := by
  cases h : accountAt t p l key with
  | none => rfl
  | some a =>
    obtain ⟨howner, hread⟩ := accountAt_eq_some.mp h
    exact absurd hread (AccountLayout.tryDeserialize_zeros (hz howner) hdisc)

/-- Other programs neither make nor change nor remove one. -/
theorem accountAt_external (h : Ledger.External p l l') (hdisc : ∃ b ∈ t.discriminator, b ≠ 0)
    (key : Pubkey) : accountAt t p l' key = accountAt t p l key := by
  by_cases howner : (l key).owner = p
  · obtain ⟨howner', hdata⟩ := h.keeps key howner
    exact accountAt_congr ⟨howner'.trans howner.symm, hdata⟩
  · rw [accountAt_zeros (h.arrives key howner) hdisc, accountAt, if_neg howner]

end AccountAt

/-! ## Account checks -/

section Checks

variable {α ε ℓ : Type}

/-- A framework result inside a handler. -/
def liftAnchor (r : Except AnchorError α) : ProgramExec ε ℓ α :=
  match r with
  | .ok a => pure a
  | .error e => fail (.anchor e)

@[simp] theorem returns_liftAnchor {r : Except AnchorError α} {a : α} :
    (liftAnchor r : ProgramExec ε ℓ α).Returns a ↔ r = .ok a := by
  unfold liftAnchor
  split <;> simp

/-- `Signer` -/
def signer (m : AccountMeta) : ProgramExec ε ℓ Pubkey := do
  require m.isSigner (.anchor .accountNotSigner)
  pure m.pubkey

@[simp] theorem returns_signer {m : AccountMeta} {k : Pubkey} :
    (signer m : ProgramExec ε ℓ Pubkey).Returns k ↔ m.isSigner = true ∧ m.pubkey = k := by
  simp [signer]

/-- `#[account(mut)]` -/
def constraintMut (m : AccountMeta) : ProgramExec ε ℓ Unit :=
  require m.isWritable (.anchor .constraintMut)

@[simp] theorem returns_constraintMut {m : AccountMeta} {u : Unit} :
    (constraintMut m : ProgramExec ε ℓ Unit).Returns u ↔ m.isWritable = true := by
  simp [constraintMut]

/-- `#[account(address = ..)]` -/
def constraintAddress (m : AccountMeta) (key : Pubkey) : ProgramExec ε ℓ Unit :=
  require (m.pubkey = key) (.anchor .constraintAddress)

@[simp] theorem returns_constraintAddress {m : AccountMeta} {key : Pubkey} {u : Unit} :
    (constraintAddress m key : ProgramExec ε ℓ Unit).Returns u ↔ m.pubkey = key := by
  simp [constraintAddress]

/-- `#[account(seeds = .., bump)]`, against the derived address. -/
def constraintSeeds (m : AccountMeta) (pda : Pubkey) : ProgramExec ε ℓ Unit :=
  require (m.pubkey = pda) (.anchor .constraintSeeds)

@[simp] theorem returns_constraintSeeds {m : AccountMeta} {pda : Pubkey} {u : Unit} :
    (constraintSeeds m pda : ProgramExec ε ℓ Unit).Returns u ↔ m.pubkey = pda := by
  simp [constraintSeeds]

/-- `seeds = .., bump = b`: the address derived with the stored bump. -/
def constraintBump (m : AccountMeta) (created : Option Pubkey) : ProgramExec ε ℓ Unit :=
  require (created = some m.pubkey) (.anchor .constraintSeeds)

@[simp] theorem returns_constraintBump {m : AccountMeta} {created : Option Pubkey} {u : Unit} :
    (constraintBump m created : ProgramExec ε ℓ Unit).Returns u ↔ created = some m.pubkey := by
  simp [constraintBump]

/-- `constraint = ..` without an error of its own. -/
def constraintRaw (p : Prop) [Decidable p] : ProgramExec ε ℓ Unit :=
  require p (.anchor .constraintRaw)

@[simp] theorem returns_constraintRaw {p : Prop} [Decidable p] {u : Unit} :
    (constraintRaw p : ProgramExec ε ℓ Unit).Returns u ↔ p := by
  simp [constraintRaw]

/-- `close = ..`, before the handler: the destination is another account. -/
def constraintClose (m dest : AccountMeta) : ProgramExec ε ℓ Unit :=
  require (m.pubkey ≠ dest.pubkey) (.anchor .constraintClose)

@[simp] theorem returns_constraintClose {m dest : AccountMeta} {u : Unit} :
    (constraintClose m dest : ProgramExec ε ℓ Unit).Returns u ↔ m.pubkey ≠ dest.pubkey := by
  simp [constraintClose]

/-- `Sysvar<'info, T>` -/
def sysvarAccount (m : AccountMeta) (id : Pubkey) : ProgramExec ε ℓ Unit :=
  require (m.pubkey = id) (.anchor .accountSysvarMismatch)

@[simp] theorem returns_sysvarAccount {m : AccountMeta} {id : Pubkey} {u : Unit} :
    (sysvarAccount m id : ProgramExec ε ℓ Unit).Returns u ↔ m.pubkey = id := by
  simp [sysvarAccount]

/-- `Program<'info, T>` -/
def programAccount (m : AccountMeta) (id : Pubkey) : ProgramExec ε ℓ Unit :=
  require (m.pubkey = id) (.anchor .invalidProgramId)

@[simp] theorem returns_programAccount {m : AccountMeta} {id : Pubkey} {u : Unit} :
    (programAccount m id : ProgramExec ε ℓ Unit).Returns u ↔ m.pubkey = id := by
  simp [programAccount]

/-- `Account<'info, T>`: initialised, owned by the program, and a `T`. -/
def loadAccount (t : AccountLayout α) (programId : Pubkey) (a : Account) :
    ProgramExec ε ℓ α := do
  require (¬(a.owner = systemProgramId ∧ a.lamports = 0)) (.anchor .accountNotInitialized)
  require (a.owner = programId) (.anchor .accountOwnedByWrongProgram)
  liftAnchor (t.tryDeserialize a.data)

/-- What a loaded account is known to be. -/
theorem returns_loadAccount {t : AccountLayout α} {programId : Pubkey} {a : Account} {x : α}
    (h : (loadAccount t programId a : ProgramExec ε ℓ α).Returns x) :
    a.owner = programId ∧ t.tryDeserialize a.data = .ok x := by
  simp only [loadAccount, returns_bind, returns_require, returns_liftAnchor, exists_const] at h
  exact h.2

/-- `Account::exit`: the program's own account is written back. -/
def exitAccount (t : AccountLayout α) (programId key : Pubkey) (x : α) (l : Ledger) :
    ProgramExec ε ℓ Ledger :=
  if (l key).owner = programId then do
    let data ← okOr (t.trySerialize x (l key).data) (.anchor .accountDidNotSerialize)
    pure (l.set key { l key with data })
  -- an account of another program is left alone, silently
  else pure l

/-- `init_if_needed`: create the account when the system program still owns its
address, else load it and check its size and balance. -/
def initIfNeeded (t : AccountLayout α) (programId : Pubkey) (minimumBalance : Nat → UInt64)
    (payer key : Pubkey) (l : Ledger) : ProgramExec ε ℓ (α × Ledger) :=
  if (l key).owner = systemProgramId then do
    -- whoever sent lamports to the address first has not taken it
    let l' ← okOr (l.initAccount minimumBalance payer key programId t.space) .system
    -- the zeros of a new account are read without looking for a discriminator
    let x ← liftAnchor (t.tryDeserializeUnchecked (l' key).data)
    pure (x, l')
  else do
    let x ← loadAccount t programId (l key)
    require ((l key).data.length = t.space) (.anchor .constraintSpace)
    require (minimumBalance t.space ≤ (l key).lamports) (.anchor .constraintRentExempt)
    pure (x, l)

/-- The checks on a program's own account leave what it keeps there. -/
theorem accountAt_of_load {t : AccountLayout α} {programId key : Pubkey} {l : Ledger} {x : α}
    (h : (loadAccount t programId (l key) : ProgramExec ε ℓ α).Returns x) :
    accountAt t programId l key = some x :=
  accountAt_eq_some.mpr (returns_loadAccount h)

/-- And what it keeps there passes them. -/
theorem load_of_accountAt {t : AccountLayout α} {programId key : Pubkey} {l : Ledger} {x : α}
    (hne : programId ≠ systemProgramId) (h : accountAt t programId l key = some x) :
    (loadAccount t programId (l key) : ProgramExec ε ℓ α).Returns x := by
  obtain ⟨howner, hread⟩ := accountAt_eq_some.mp h
  simp only [loadAccount, returns_bind, returns_require, returns_liftAnchor, exists_const]
  exact ⟨fun hsys => hne (howner.symm.trans hsys.1), howner, hread⟩

section Exit

variable {t : AccountLayout α} {programId key p : Pubkey} {x : α} {l l' : Ledger}

/-- Writing back succeeds when the image fits. -/
theorem returns_exitAccount (howner : (l key).owner = programId) :
    (exitAccount t programId key x l : ProgramExec ε ℓ Ledger).Returns l' ↔
      ∃ data, t.trySerialize x (l key).data = some data ∧ l' = l.set key { l key with data } := by
  unfold exitAccount
  rw [if_pos howner]
  simp only [returns_bind, returns_okOr, returns_pure]
  constructor
  · intro h
    obtain ⟨data, hdata, rfl⟩ := h
    exact ⟨data, hdata, rfl⟩
  · intro h
    obtain ⟨data, hdata, rfl⟩ := h
    exact ⟨data, hdata, rfl⟩

/-- A value of the same size replaces the one that was read. -/
theorem exitAccount_replaces {y : α} {body' : Bytes} (hx : accountAt t programId l key = some x)
    (hwrite : t.codec.write y = some body')
    (hlen : ∀ body, t.codec.write x = some body → body'.length = body.length) :
    ∃ l', (exitAccount t programId key y l : ProgramExec ε ℓ Ledger).Returns l' := by
  obtain ⟨howner, hread⟩ := accountAt_eq_some.mp hx
  obtain ⟨body, rest, hbody, hdata⟩ := AccountLayout.image_of_tryDeserialize hread
  have himage : t.trySerialize y (t.discriminator ++ (body ++ rest)) =
      some (t.discriminator ++ (body' ++ rest)) :=
    AccountLayout.trySerialize_image hwrite (hlen body hbody)
  rw [← hdata] at himage
  exact ⟨_, (returns_exitAccount howner).mpr ⟨_, himage, rfl⟩⟩

/-- What was written back, and nothing else but that account's data. -/
theorem exitAccount_spec (howner : (l key).owner = programId)
    (h : (exitAccount t programId key x l : ProgramExec ε ℓ Ledger).Returns l') :
    accountAt t programId l' key = some x ∧
      (∀ k, (l' k).lamports = (l k).lamports ∧ (l' k).owner = (l k).owner) ∧
      ∀ k, k ≠ key → l' k = l k := by
  obtain ⟨data, hdata, rfl⟩ := (returns_exitAccount howner).mp h
  refine ⟨accountAt_eq_some.mpr ?_, fun k => ?_, fun k hk => Ledger.set_of_ne _ hk⟩
  · rw [Ledger.set_self]
    exact ⟨howner, AccountLayout.tryDeserialize_trySerialize hdata⟩
  · by_cases hk : k = key
    · rw [hk, Ledger.set_self]
      exact ⟨rfl, rfl⟩
    · rw [Ledger.set_of_ne _ hk]
      exact ⟨rfl, rfl⟩

/-- An account that was not modified is written back as it was. -/
theorem exitAccount_unchanged (hx : accountAt t programId l key = some x)
    (h : (exitAccount t programId key x l : ProgramExec ε ℓ Ledger).Returns l') : l' = l := by
  obtain ⟨howner, hread⟩ := accountAt_eq_some.mp hx
  obtain ⟨data, hdata, rfl⟩ := (returns_exitAccount howner).mp h
  obtain ⟨body, rest, hbody, himage⟩ := AccountLayout.image_of_tryDeserialize hread
  have hsame : t.trySerialize x (t.discriminator ++ (body ++ rest)) =
      some (t.discriminator ++ (body ++ rest)) := AccountLayout.trySerialize_image hbody rfl
  rw [← himage] at hsame
  obtain rfl := Option.some.inj (hsame.symm.trans hdata)
  exact Function.update_eq_self key l

/-- Writing back touches no other program's account. -/
theorem exitAccount_respects (hne : programId ≠ p)
    (h : (exitAccount t programId key x l : ProgramExec ε ℓ Ledger).Returns l') :
    Ledger.Respects p l l' := by
  by_cases howner : (l key).owner = programId
  · obtain ⟨data, -, rfl⟩ := (returns_exitAccount howner).mp h
    have hother : (l key).owner ≠ p := fun heq => hne (howner.symm.trans heq)
    exact .set hother hother
  · rw [exitAccount, if_neg howner] at h
    obtain rfl := returns_pure.mp h
    exact .refl p l

/-- `init_if_needed` found an account of the type, or left zeros in a new one. -/
theorem initIfNeeded_spec {minimumBalance : Nat → UInt64} {payer : Pubkey}
    (h : (initIfNeeded t programId minimumBalance payer key l : ProgramExec ε ℓ _).Returns
      (x, l')) :
    (accountAt t programId l key = some x ∧ l' = l) ∨
    ((l key).owner = systemProgramId ∧
      l.initAccount minimumBalance payer key programId t.space = some l' ∧
      t.tryDeserializeUnchecked (List.replicate t.space 0) = .ok x) := by
  unfold initIfNeeded at h
  rw [returns_ite] at h
  rcases h with ⟨hsys, h⟩ | ⟨-, h⟩
  · right
    simp only [returns_bind, returns_okOr, returns_liftAnchor, returns_pure] at h
    obtain ⟨l₁, hinit, x', hx, hp⟩ := h
    obtain ⟨rfl, rfl⟩ := Prod.mk.inj hp
    obtain ⟨-, hframe⟩ := Ledger.initAccount_frame hinit
    have hdata := (hframe key).2
    rw [Ledger.set_self] at hdata
    rw [hdata] at hx
    exact ⟨hsys, hinit, hx⟩
  · left
    simp only [returns_bind, returns_require, returns_pure, exists_const] at h
    obtain ⟨x', hx, -, -, hp⟩ := h
    obtain ⟨rfl, rfl⟩ := Prod.mk.inj hp
    exact ⟨accountAt_of_load hx, rfl⟩

/-- Neither does creating one. -/
theorem initIfNeeded_respects {minimumBalance : Nat → UInt64} {payer : Pubkey}
    (hp : p ≠ systemProgramId) (hne : programId ≠ p)
    (h : (initIfNeeded t programId minimumBalance payer key l : ProgramExec ε ℓ _).Returns
      (x, l')) :
    Ledger.Respects p l l' := by
  rcases initIfNeeded_spec h with ⟨-, rfl⟩ | ⟨-, hinit, -⟩
  · exact .refl p l'
  · exact Ledger.initAccount_respects hp hne hinit

end Exit

/-! ### Checks log nothing -/

section Silent

variable {m m' : AccountMeta} {key : Pubkey}

@[simp] theorem logs_liftAnchor {r : Except AnchorError α} :
    (liftAnchor r : ProgramExec ε ℓ α).logs = [] := by
  unfold liftAnchor
  split <;> rfl

@[simp] theorem logs_signer : (signer m : ProgramExec ε ℓ Pubkey).logs = [] := by
  simp [signer]

@[simp] theorem logs_constraintMut : (constraintMut m : ProgramExec ε ℓ Unit).logs = [] := by
  simp [constraintMut]

@[simp] theorem logs_constraintAddress :
    (constraintAddress m key : ProgramExec ε ℓ Unit).logs = [] := by
  simp [constraintAddress]

@[simp] theorem logs_constraintSeeds :
    (constraintSeeds m key : ProgramExec ε ℓ Unit).logs = [] := by
  simp [constraintSeeds]

@[simp] theorem logs_constraintBump {created : Option Pubkey} :
    (constraintBump m created : ProgramExec ε ℓ Unit).logs = [] := by
  simp [constraintBump]

@[simp] theorem logs_constraintRaw {p : Prop} [Decidable p] :
    (constraintRaw p : ProgramExec ε ℓ Unit).logs = [] := by
  simp [constraintRaw]

@[simp] theorem logs_constraintClose : (constraintClose m m' : ProgramExec ε ℓ Unit).logs = [] := by
  simp [constraintClose]

@[simp] theorem logs_sysvarAccount : (sysvarAccount m key : ProgramExec ε ℓ Unit).logs = [] := by
  simp [sysvarAccount]

@[simp] theorem logs_programAccount : (programAccount m key : ProgramExec ε ℓ Unit).logs = [] := by
  simp [programAccount]

@[simp] theorem logs_loadAccount {t : AccountLayout α} {a : Account} :
    (loadAccount t key a : ProgramExec ε ℓ α).logs = [] := by
  simp [loadAccount]

@[simp] theorem logs_exitAccount {t : AccountLayout α} {programId : Pubkey} {x : α} {l : Ledger} :
    (exitAccount t programId key x l : ProgramExec ε ℓ Ledger).logs = [] := by
  unfold exitAccount
  split <;> simp

end Silent

/-! ### Closing -/

/-- `close = dest`, after the handler: the lamports go to `dest`, the address
back to the system program. -/
def closeAccount (key dest : Pubkey) (l : Ledger) : ProgramExec ε ℓ Ledger := do
  let credited ← u64Add (l dest).lamports (l key).lamports
  let l := l.set dest { l dest with lamports := credited }
  pure (l.set key ⟨0, systemProgramId, []⟩)

/-- A closed account is empty and the system program's; of the others only lamports moved. -/
theorem closeAccount_spec {key dest : Pubkey} {l l' : Ledger}
    (h : (closeAccount key dest l : ProgramExec ε ℓ Ledger).Returns l') :
    l' key = ⟨0, systemProgramId, []⟩ ∧
      ∀ k, k ≠ key → (l' k).owner = (l k).owner ∧ (l' k).data = (l k).data := by
  simp only [closeAccount, returns_bind, returns_pure] at h
  obtain ⟨credited, -, rfl⟩ := h
  refine ⟨Ledger.set_self .., fun k hk => ?_⟩
  rw [Ledger.set_of_ne _ hk]
  exact Ledger.SameState.set_lamports l dest credited k

/-- Closing is silent. -/
theorem logs_closeAccount {key dest : Pubkey} {l : Ledger} :
    (closeAccount key dest l : ProgramExec ε ℓ Ledger).logs = [] := by
  simp [closeAccount]

/-- `system_program::transfer` through a CPI. -/
def invokeTransfer (l : Ledger) (payer dst : Pubkey) (lamports : UInt64) :
    ProgramExec ε ℓ Ledger :=
  okOr (l.transfer payer dst lamports) .system

end Checks

end Trana.Solana
