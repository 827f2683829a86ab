import Trana.Guard.Completeness
import Trana.Sdk.Transaction

/-!
# What `enforce` does to account bytes

A registry account is discriminator, owner, nonce, keys, and whatever an
earlier, longer key list left behind. Deserialising, verifying and serialising
again rewrites the nonce in place.

* `consume_image` — reading a registry and writing it back consumed moves the
  number at bytes 40..48 on by one and keeps every other byte, the stale tail
  included.
* `enforce_bytes` — the effect of `enforce` on the persisted ledger: none when
  it fails, none when the policy does not fire, and otherwise just that.

The ledger a transaction leaves is `persisted`: the handler's own on success and
the one before on any error, whatever the handler had written until then. This
is the runtime's doing and not the program's.

An unfired policy is passed before the registry account is looked at, so in that
case the second part says more: the same call succeeds on every ledger, with the
registry missing, foreign or unreadable. Where the policy fires, the account
stays in place with its size, so the serialisation cannot run out of room; and a
nonce at its end is an error and not a wrap.
-/

namespace Trana.Security

open Trana.Lib Trana.Lib.Exec Trana.Solana Trana.Guard

/-! ## The nonce field -/

/-- The number stored at bytes 40..48. -/
def storedNonce (data : Bytes) : Nat := leNat ((data.drop 40).take 8)

/-- The bytes differ at 40..48 at most, where the number grew by one. -/
structure NonceGrows (data data' : Bytes) : Prop where
  length_ge : 48 ≤ data.length
  length_eq : data'.length = data.length
  front : data'.take 40 = data.take 40
  back : data'.drop 48 = data.drop 48
  nonce : storedNonce data' = storedNonce data + 1

instance (data data' : Bytes) : Decidable (NonceGrows data data') :=
  decidable_of_iff (48 ≤ data.length ∧ data'.length = data.length ∧
      data'.take 40 = data.take 40 ∧ data'.drop 48 = data.drop 48 ∧
      storedNonce data' = storedNonce data + 1)
    ⟨fun ⟨h₁, h₂, h₃, h₄, h₅⟩ => ⟨h₁, h₂, h₃, h₄, h₅⟩,
      fun h => ⟨h.length_ge, h.length_eq, h.front, h.back, h.nonce⟩⟩

/-- Byte by byte: outside 40..48 nothing changes. -/
theorem NonceGrows.getElem?_eq {data data' : Bytes} (h : NonceGrows data data') {i : Nat}
    (hi : i < 40 ∨ 48 ≤ i) : data'[i]? = data[i]? := by
  rcases hi with hi | hi
  · rw [← List.getElem?_take_of_lt hi, h.front, List.getElem?_take_of_lt hi]
  · obtain ⟨j, rfl⟩ := Nat.exists_eq_add_of_le hi
    rw [← List.getElem?_drop, h.back, List.getElem?_drop]

/-- Eight bytes behind a front of forty, followed by anything. -/
theorem nonceGrows_of_front {front back : Bytes} {n : Nat} (hfront : front.length = 40)
    (hn : n + 1 < 2 ^ 64) :
    NonceGrows (front ++ (leBytes 8 n ++ back)) (front ++ (leBytes 8 (n + 1) ++ back)) := by
  -- 8 of discriminator and 32 of owner in front, the keys and what is stale behind
  have hdrop : ∀ m, (front ++ (leBytes 8 m ++ back)).drop 40 = leBytes 8 m ++ back := by
    intro m
    rw [← hfront, List.drop_left]
  have htake : ∀ m, (leBytes 8 m ++ back).take 8 = leBytes 8 m := by
    intro m
    rw [List.take_append_of_le_length (by simp), List.take_of_length_le (by simp)]
  have hlt : ∀ m, m < 2 ^ 64 → leNat (leBytes 8 m) = m := by
    intro m hm
    exact leNat_leBytes_of_lt hm
  refine ⟨?_, ?_, ?_, ?_, ?_⟩
  · simp only [List.length_append, length_leBytes]
    omega
  · simp only [List.length_append, length_leBytes]
  · rw [← hfront, List.take_left, List.take_left]
  · rw [← List.drop_drop (i := 8) (j := 40), ← List.drop_drop (i := 8) (j := 40), hdrop, hdrop]
    have hback : ∀ m, (leBytes 8 m ++ back).drop 8 = back := by
      intro m
      have hleft : (leBytes 8 m ++ back).drop (leBytes 8 m).length = back := List.drop_left
      rwa [length_leBytes] at hleft
    rw [hback, hback]
  · rw [storedNonce, storedNonce, hdrop, hdrop, htake, htake, hlt _ hn, hlt _ (by omega)]

/-- The decode and re-encode cycle of one verification. -/
theorem consume_image {r : PasskeyRegistry} {data : Bytes}
    (hread : PasskeyRegistry.layout.tryDeserialize data = .ok r)
    (hnonce : r.nonce.toNat + 1 < 2 ^ 64) :
    ∃ data', PasskeyRegistry.layout.trySerialize r.consume data = some data' ∧
      NonceGrows data data' := by
  obtain ⟨body, rest, hbody, rfl⟩ := AccountLayout.image_of_tryDeserialize hread
  obtain ⟨keys, hkeys, rfl⟩ := registry_image hbody
  have hwrite : PasskeyRegistry.codec.write r.consume =
      some (r.owner.bytes ++ (leBytes 8 (r.nonce.toNat + 1) ++ keys)) := by
    rw [write_registry, PasskeyRegistry.consume_keys, hkeys,
      PasskeyRegistry.toNat_consume_nonce hnonce]
    rfl
  refine ⟨_, AccountLayout.trySerialize_image hwrite (by simp), ?_⟩
  -- discriminator and owner are the forty bytes in front
  have hfront : (PasskeyRegistry.layout.discriminator ++ r.owner.bytes).length = 40 := by
    rw [List.length_append, PasskeyRegistry.layout.length_discriminator, r.owner.length_eq]
  simpa only [List.append_assoc] using nonceGrows_of_front hfront hnonce

/-! ## The persisted ledger -/

/-- The ledger after an invocation: the old one unless it returned. -/
def persisted (l : Ledger) (x : Result Ledger) : Ledger :=
  match x.result with
  | .ok l' => l'
  | .error _ => l

theorem persisted_of_returns {l l' : Ledger} {x : Result Ledger} (h : x.Returns l') :
    persisted l x = l' := by
  rw [persisted, show x.result = .ok l' from h]

/-- The invocation failed, with an error or a panic. -/
def Fails (x : Result Ledger) : Prop := ∀ l', ¬x.Returns l'

theorem persisted_of_fails {l : Ledger} {x : Result Ledger} (h : Fails x) :
    persisted l x = l := by
  unfold persisted
  split
  next l' hok => exact absurd hok (h l')
  next => rfl

/-- One account's data changed, as one consumed nonce changes it; every other
account and the rest of this one are as before. -/
def ConsumesAt (l l' : Ledger) (key : Pubkey) : Prop :=
  ∃ data, NonceGrows (l key).data data ∧ l' = l.set key { l key with data }

/-- A firing policy, once verified, rewrites the nonce of the passed account. -/
theorem guarded_consumesAt {d : Deployment} {env : Env} {ctx : Enforce} {policy : Policy}
    {l l' : Ledger} (h : (guarded d env ctx policy l).Returns l') :
    ConsumesAt l l' ctx.registry := by
  rw [guarded, returns_withRegistry] at h
  obtain ⟨r, r', hfound, -, hverify, data, hdata, rfl⟩ := h
  obtain ⟨rfl, proof, ix, secpIx, hv⟩ := returns_verifyWithPolicy.mp hverify
  obtain ⟨-, hread⟩ := registryAt_eq_some.mp hfound
  obtain ⟨data', hdata', hgrows⟩ := consume_image hread hv.nonce_lt
  obtain rfl := Option.some.inj (hdata'.symm.trans hdata)
  exact ⟨_, hgrows, rfl⟩

/-- The exact effect of `enforce`, for each of its three outcomes. -/
theorem enforce_bytes (d : Deployment) (c : Call) (policy : Policy) (l : Ledger)
    (hc : c.Is (.enforce policy)) :
    (Fails (process d c.env c.accounts c.data l) →
      persisted l (process d c.env c.accounts c.data l) = l) ∧
    ((∃ l', (process d c.env c.accounts c.data l).Returns l') → policy.fires c.env = false →
      persisted l (process d c.env c.accounts c.data l) = l ∧
      ∀ l₂, (process d c.env c.accounts c.data l₂).Returns l₂) ∧
    ((∃ l', (process d c.env c.accounts c.data l).Returns l') → policy.fires c.env = true →
      ∃ key w, Names c.accounts key w ∧
        ConsumesAt l (persisted l (process d c.env c.accounts c.data l)) key) := by
  have hrun : ∀ l l', (process d c.env c.accounts c.data l).Returns l' ↔
      (execute d c.env c.accounts (.enforce policy) l).Returns l' := by
    intro l l'
    rw [process, returns_bind]
    constructor
    · intro hex
      obtain ⟨ix, hix, h⟩ := hex
      rwa [← hc.unique hix] at h
    · exact fun h => ⟨_, hc, h⟩
  refine ⟨persisted_of_fails, ?_, ?_⟩
  · intro hok hidle
    obtain ⟨l', hl'⟩ := hok
    rw [persisted_of_returns hl']
    rw [hrun] at hl'
    simp only [execute, returns_bind, returns_enforce] at hl'
    obtain ⟨ctx, hctx, ⟨-, heval, rfl⟩ | ⟨hfires, -⟩⟩ := hl'
    · refine ⟨rfl, fun l₂ => ?_⟩
      rw [hrun]
      -- a policy that does not fire is passed before the registry is read
      exact execute_enforce_idle hctx hidle heval
    · exact absurd hfires (by simp [hidle])
  · intro hok hfires
    obtain ⟨l', hl'⟩ := hok
    rw [persisted_of_returns hl']
    rw [hrun] at hl'
    simp only [execute, returns_bind, returns_enforce] at hl'
    obtain ⟨ctx, hctx, ⟨hidle, -, -⟩ | ⟨-, h⟩⟩ := hl'
    · exact absurd hfires (by simp [hidle])
    · exact ⟨ctx.registry, ctx.owner, enforce_tryAccounts hctx, guarded_consumesAt h⟩

section Localnet

open Sdk.Localnet

/-- The localnet wallet's approved call: its registry's nonce moves on. -/
theorem enforce_bytes_approved :
    ∃ key w, Names (enforceCall (proven approval policyRequire protectedIx 0)).accounts key w ∧
      ConsumesAt registered (persisted registered
        (process deployment (enforceCall (proven approval policyRequire protectedIx 0)).env
          (enforceCall (proven approval policyRequire protectedIx 0)).accounts
          (enforceCall (proven approval policyRequire protectedIx 0)).data registered)) key := by
  have hv := verified_approval (r := registry 0) ⟨entry, List.mem_singleton_self _, rfl⟩ rfl
  obtain ⟨l', hstep, -⟩ := step_enforce (c := enforceCall _) holds_registered.found
    holds_registered.owner (enforceCall_is _) rfl rfl hv
  cases hstep with
  | executed hrun =>
    exact (enforce_bytes deployment (enforceCall (proven approval policyRequire protectedIx 0))
      .require registered (enforceCall_is _)).2.2 ⟨l', hrun⟩ rfl

end Localnet

end Trana.Security
