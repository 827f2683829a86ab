import Mathlib.Algebra.Group.Int.Defs
import Mathlib.Algebra.Group.Nat.Defs
import Mathlib.Data.Set.Function

/-!
# Bytes, little-endian numbers and self-delimiting encodings

Support for byte formats in general; nothing here knows the program. A byte
string is a list: programs take it apart from the front, and every proof about a
format is an induction on what is left.

* `leBytes w n` / `leNat` — the `w` low little-endian bytes of a number and
  the number a byte string spells. `leNat_leBytes` is the round trip with the
  truncation a fixed-width store performs, `leBytes_leNat` the other one.
* `SelfDelimiting s enc` — after `enc a` for an `a` in `s`, whatever follows,
  both `a` and the rest can be read back, so a concatenated record is decoded
  by peeling one field after the other. Fixed-width encodings
  (`SelfDelimiting.of_length`) and length-prefixed strings
  (`selfDelimiting_lenPrefixed`) are.
* `flatMap_inj_of_length` — a list of equally long records is determined by
  its concatenation.

`SelfDelimiting` is relative to a set because a length prefix of `w` bytes tells
strings apart only below `256 ^ w`; a longer one has its length truncated, and
the format is no longer one to one.
-/

namespace Trana.Lib

/-- A byte string. -/
abbrev Bytes := List UInt8

/-! ## Little-endian numbers -/

/-- The `w` low bytes of `n`, least significant first. -/
def leBytes : Nat → Nat → Bytes
  | 0, _ => []
  | w + 1, n => UInt8.ofNat n :: leBytes w (n / 256)

/-- The number a little-endian byte string spells. -/
def leNat : Bytes → Nat
  | [] => 0
  | b :: bs => b.toNat + 256 * leNat bs

@[simp] theorem length_leBytes (w n : Nat) : (leBytes w n).length = w := by
  induction w generalizing n with
  | zero => rfl
  | succ w ih => simp [leBytes, ih]

/-- A byte string spells a number of its own width. -/
theorem leNat_lt (bs : Bytes) : leNat bs < 256 ^ bs.length := by
  induction bs with
  | nil => simp [leNat]
  | cons b bs ih =>
    have hb : b.toNat < 256 := b.toNat_lt
    simp only [leNat, List.length_cons, Nat.pow_succ]
    omega

/-- Storing keeps the low `w` bytes. -/
theorem leNat_leBytes (w n : Nat) : leNat (leBytes w n) = n % 256 ^ w := by
  induction w generalizing n with
  | zero => simp [leBytes, leNat, Nat.mod_one]
  | succ w ih =>
    have hpow : 256 ^ (w + 1) = 256 * 256 ^ w := by rw [Nat.pow_succ, Nat.mul_comm]
    have hlow : (UInt8.ofNat n).toNat = n % 256 := UInt8.toNat_ofNat'
    rw [leBytes, leNat, ih, hlow, hpow, Nat.mod_mul]

/-- A number that fits its width reads back unchanged. -/
theorem leNat_leBytes_of_lt {w n : Nat} (h : n < 256 ^ w) : leNat (leBytes w n) = n := by
  rw [leNat_leBytes, Nat.mod_eq_of_lt h]

/-- The bytes of the number a byte string spells are that byte string. -/
theorem leBytes_leNat (bs : Bytes) : leBytes bs.length (leNat bs) = bs := by
  induction bs with
  | nil => rfl
  | cons b bs ih =>
    have hb : b.toNat < 256 := b.toNat_lt
    have hdiv : (b.toNat + 256 * leNat bs) / 256 = leNat bs := by omega
    have hmod : UInt8.ofNat (b.toNat + 256 * leNat bs) = b := by
      apply UInt8.toNat_inj.mp
      rw [UInt8.toNat_ofNat']
      omega
    simp only [List.length_cons, leBytes, leNat, hdiv, hmod, ih]

/-- Two stores of one width agree exactly when the low bytes do. -/
theorem leBytes_inj {w m n : Nat} (h : leBytes w m = leBytes w n) :
    m % 256 ^ w = n % 256 ^ w := by
  rw [← leNat_leBytes, ← leNat_leBytes, h]

/-- Numbers that fit are told apart by their bytes. -/
theorem leBytes_inj_of_lt {w m n : Nat} (hm : m < 256 ^ w) (hn : n < 256 ^ w)
    (h : leBytes w m = leBytes w n) : m = n := by
  have := leBytes_inj h
  rwa [Nat.mod_eq_of_lt hm, Nat.mod_eq_of_lt hn] at this

/-! ## Self-delimiting encodings -/

section SelfDelimiting

variable {α γ β : Type} {s : Set α} {t : Set γ}

/-- From `enc a` followed by anything, `a ∈ s` and what follows are both determined. -/
def SelfDelimiting (s : Set α) (enc : α → List β) : Prop :=
  ∀ ⦃a⦄, a ∈ s → ∀ ⦃a'⦄, a' ∈ s → ∀ ⦃r r' : List β⦄,
    enc a ++ r = enc a' ++ r' → a = a' ∧ r = r'

/-- An injective encoding of one fixed length is self-delimiting. -/
theorem SelfDelimiting.of_length {enc : α → List β} (n : Nat)
    (hlen : ∀ a ∈ s, (enc a).length = n) (hinj : Set.InjOn enc s) :
    SelfDelimiting s enc := by
  intro a ha a' ha' r r' h
  obtain ⟨henc, hr⟩ := List.append_inj h (by rw [hlen a ha, hlen a' ha'])
  exact ⟨hinj ha ha' henc, hr⟩

/-- A self-delimiting encoding is one to one. -/
theorem SelfDelimiting.injOn {enc : α → List β} (h : SelfDelimiting s enc) :
    Set.InjOn enc s := by
  intro a ha a' ha' heq
  have hpad : enc a ++ [] = enc a' ++ [] := by rw [heq]
  exact (h ha ha' hpad).1

/-- Reading a field through an injective view of it. -/
theorem SelfDelimiting.comp {enc : γ → List β} (h : SelfDelimiting t enc) {f : α → γ}
    (hf : Set.MapsTo f s t) (hinj : Set.InjOn f s) :
    SelfDelimiting s fun a => enc (f a) := by
  intro a ha a' ha' r r' heq
  obtain ⟨hfa, hr⟩ := h (hf ha) (hf ha') heq
  exact ⟨hinj ha ha' hfa, hr⟩

end SelfDelimiting

/-- A byte string behind its length in `w` bytes. -/
def lenPrefixed (w : Nat) (bs : Bytes) : Bytes := leBytes w bs.length ++ bs

@[simp] theorem length_lenPrefixed (w : Nat) (bs : Bytes) :
    (lenPrefixed w bs).length = w + bs.length := by
  simp [lenPrefixed]

/-- Strings short enough for their length field are self-delimiting. -/
theorem selfDelimiting_lenPrefixed (w : Nat) :
    SelfDelimiting {bs : Bytes | bs.length < 256 ^ w} (lenPrefixed w) := by
  intro a ha a' ha' r r' heq
  simp only [lenPrefixed, List.append_assoc] at heq
  obtain ⟨hlen, hrest⟩ := List.append_inj heq (by simp)
  exact List.append_inj hrest (leBytes_inj_of_lt ha ha' hlen)

/-- Equal concatenations of equally long, injectively encoded records come
from equal lists. -/
theorem flatMap_inj_of_length {α β : Type} {enc : α → List β} {n : Nat} (hn : 0 < n)
    (hlen : ∀ a, (enc a).length = n) (hinj : Function.Injective enc) :
    ∀ {xs ys : List α}, xs.flatMap enc = ys.flatMap enc → xs = ys
  | [], [], _ => rfl
  | [], y :: ys, h => by
    have := congrArg List.length h
    simp only [List.flatMap_nil, List.length_nil, List.flatMap_cons, List.length_append,
      hlen] at this
    omega
  | x :: xs, [], h => by
    have := congrArg List.length h
    simp only [List.flatMap_nil, List.length_nil, List.flatMap_cons, List.length_append,
      hlen] at this
    omega
  | x :: xs, y :: ys, h => by
    simp only [List.flatMap_cons] at h
    obtain ⟨hxy, hrest⟩ := List.append_inj h (by rw [hlen, hlen])
    rw [hinj hxy, flatMap_inj_of_length hn hlen hinj hrest]

end Trana.Lib
