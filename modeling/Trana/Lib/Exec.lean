import Trana.Lib.ByteCodec

/-!
# Program runs: logging, errors and panics

A run of a Rust function on chain leaves the lines it logged and either a
value, an error it returned, or a panic. `Exec ε ℓ` is that, as a monad over
an error type `ε` and a log type `ℓ`; the arithmetic and slicing primitives
panic where Rust's do (overflow checks are on in the release profile).

An error and a panic both abort the transaction, and the difference is not
visible in a ledger. It is kept because a program that panics where it means to
return an error is wrong in a way its callers see: they get no error code. The
lines logged before the end of a run stay, whatever the end is; on chain they
are part of the transaction's log even when it is rolled back.

Lengths and offsets are `Nat` with the bound of a `usize` written where Rust
checks it, so an intermediate sum is exact and the check is a comparison with
`2 ^ 64`; the fixed-width types stand where the source has them in its data.

Proofs about results go through `Returns`: one lemma per primitive says when
it returns a value and which, and `returns_bind` takes a run apart at each
`?`, so no function has to be unfolded past its own text. Proofs about logs go
through `mem_logs_bind` in the same way. Both families are simp lemmas.

* `returns_bind` — a sequence returns exactly when both parts do.
* `mem_logs_bind`, `logs_bind_eq_nil` — what a sequence logs.
* `bind_of_returns` — a part that returns silently can be left out.
-/

namespace Trana.Lib

/-- How a run can fail: an error value, or a panic. -/
inductive Fault (ε : Type) where
  | err (e : ε)
  | panic
  deriving DecidableEq, Repr

/-- What a run leaves behind. -/
structure Exec (ε ℓ α : Type) where
  logs : List ℓ
  result : Except (Fault ε) α

namespace Exec

variable {ε ℓ α β : Type}

/-- Logs accumulate up to the point of failure. -/
instance : Monad (Exec ε ℓ) where
  pure a := ⟨[], .ok a⟩
  bind x f :=
    match x.result with
    | .ok a => ⟨x.logs ++ (f a).logs, (f a).result⟩
    | .error e => ⟨x.logs, .error e⟩

/-- Return an error, silently. -/
def fail (e : ε) : Exec ε ℓ α := ⟨[], .error (.err e)⟩

/-- Stop without a value and without an error. -/
def panic : Exec ε ℓ α := ⟨[], .error .panic⟩

/-- Log one line. -/
def log (l : ℓ) : Exec ε ℓ Unit := ⟨[l], .ok ()⟩

/-- `require!(p, e)`. -/
def require (p : Prop) [Decidable p] (e : ε) : Exec ε ℓ Unit := if p then pure () else fail e

/-- `.ok_or(e)?` -/
def okOr (o : Option α) (e : ε) : Exec ε ℓ α :=
  match o with
  | some a => pure a
  | none => fail e

/-! ## Rust primitives that can panic -/

/-- `a + b` on `usize`. -/
def usizeAdd (a b : Nat) : Exec ε ℓ Nat := if a + b < 2 ^ 64 then pure (a + b) else panic

/-- `a * b` on `usize`. -/
def usizeMul (a b : Nat) : Exec ε ℓ Nat := if a * b < 2 ^ 64 then pure (a * b) else panic

/-- `a - b` on an unsigned integer. -/
def unsignedSub (a b : Nat) : Exec ε ℓ Nat := if b ≤ a then pure (a - b) else panic

/-- `xs[i]` -/
def index (xs : List α) (i : Nat) : Exec ε ℓ α :=
  match xs[i]? with
  | some x => pure x
  | none => panic

/-- `xs[i..j]` -/
def slice (xs : List α) (i j : Nat) : Exec ε ℓ (List α) :=
  if i ≤ j ∧ j ≤ xs.length then pure ((xs.take j).drop i) else panic

/-- `xs[i..]` -/
def sliceFrom (xs : List α) (i : Nat) : Exec ε ℓ (List α) :=
  if i ≤ xs.length then pure (xs.drop i) else panic

/-- `Vec::with_capacity(n)`: more than `isize::MAX` bytes is a capacity
overflow. An exact sum stands for Rust's, whose overflow panics as well. -/
def withCapacity (n : Nat) : Exec ε ℓ Unit := if n < 2 ^ 63 then pure () else panic

/-- `a + b` on `u32`. -/
def u32Add (a b : UInt32) : Exec ε ℓ UInt32 :=
  if a.toNat + b.toNat < 2 ^ 32 then pure (a + b) else panic

/-- `a - b` on `u32`. -/
def u32Sub (a b : UInt32) : Exec ε ℓ UInt32 := if b ≤ a then pure (a - b) else panic

/-- `a << n` on `u32`. -/
def u32Shl (a n : UInt32) : Exec ε ℓ UInt32 := if n < 32 then pure (a <<< n) else panic

/-- `a >> n` on `u32`. -/
def u32Shr (a n : UInt32) : Exec ε ℓ UInt32 := if n < 32 then pure (a >>> n) else panic

/-- `a - b` on `i64`. -/
def i64Sub (a b : Int64) : Exec ε ℓ Int64 :=
  if -2 ^ 63 ≤ a.toInt - b.toInt ∧ a.toInt - b.toInt < 2 ^ 63 then pure (a - b) else panic

/-- `a - b` on `u64`. -/
def u64Sub (a b : UInt64) : Exec ε ℓ UInt64 := if b ≤ a then pure (a - b) else panic

/-- `a + b` on `u64`. -/
def u64Add (a b : UInt64) : Exec ε ℓ UInt64 :=
  if a.toNat + b.toNat < 2 ^ 64 then pure (a + b) else panic

/-- Run code of another program: its errors and logs under these names. -/
def embed {ε' ℓ' : Type} (f : ε → ε') (g : ℓ → ℓ') (x : Exec ε ℓ α) : Exec ε' ℓ' α where
  logs := x.logs.map g
  result :=
    match x.result with
    | .ok a => .ok a
    | .error (.err e) => .error (.err (f e))
    | .error .panic => .error .panic

/-- `.expect(..)` -/
def expect (o : Option α) : Exec ε ℓ α :=
  match o with
  | some a => pure a
  | none => panic

/-! ## Results -/

/-- The run returns `a`. -/
def Returns (x : Exec ε ℓ α) (a : α) : Prop := x.result = .ok a

instance [DecidableEq α] (x : Exec ε ℓ α) (a : α) : Decidable (x.Returns a) :=
  match h : x.result with
  | .ok b => decidable_of_iff (b = a) (by simp [Returns, h])
  | .error _ => .isFalse (by simp [Returns, h])

/-- A run returns at most one value. -/
theorem Returns.unique {x : Exec ε ℓ α} {a b : α} (ha : x.Returns a) (hb : x.Returns b) :
    a = b := by
  unfold Returns at ha hb
  rw [ha] at hb
  exact Except.ok.inj hb

@[simp] theorem returns_pure {a b : α} : (pure a : Exec ε ℓ α).Returns b ↔ a = b := by
  simp [Returns, pure]

/-- Behind a first part that returns, the second decides the result. -/
theorem result_bind_ok {x : Exec ε ℓ α} {f : α → Exec ε ℓ β} {a : α} (h : x.Returns a) :
    (x >>= f).result = (f a).result := by
  unfold Returns at h
  show (match x.result with
    | .ok a => (⟨x.logs ++ (f a).logs, (f a).result⟩ : Exec ε ℓ β)
    | .error e => ⟨x.logs, .error e⟩).result = _
  rw [h]

/-- A failing first part is the whole run. -/
theorem result_bind_error {x : Exec ε ℓ α} {f : α → Exec ε ℓ β} {e : Fault ε}
    (h : x.result = .error e) : (x >>= f).result = .error e := by
  show (match x.result with
    | .ok a => (⟨x.logs ++ (f a).logs, (f a).result⟩ : Exec ε ℓ β)
    | .error e => ⟨x.logs, .error e⟩).result = _
  rw [h]

/-- A sequence returns exactly when both parts do. -/
@[simp] theorem returns_bind {x : Exec ε ℓ α} {f : α → Exec ε ℓ β} {b : β} :
    (x >>= f).Returns b ↔ ∃ a, x.Returns a ∧ (f a).Returns b := by
  cases h : x.result with
  | ok a =>
    have hx : x.Returns a := h
    unfold Returns
    rw [result_bind_ok hx]
    constructor
    · exact fun hb => ⟨a, h, hb⟩
    · intro hex
      obtain ⟨a', ha', hb⟩ := hex
      rw [h] at ha'
      rw [Except.ok.inj ha']
      exact hb
  | error e =>
    unfold Returns
    rw [result_bind_error h]
    simp [h]

@[simp] theorem returns_fail {e : ε} {a : α} : (fail e : Exec ε ℓ α).Returns a ↔ False := by
  simp [Returns, fail]

@[simp] theorem returns_panic {a : α} : (panic : Exec ε ℓ α).Returns a ↔ False := by
  simp [Returns, panic]

@[simp] theorem returns_log {l : ℓ} {u : Unit} : (log l : Exec ε ℓ Unit).Returns u ↔ True := by
  simp [Returns, log]

/-- `require!` goes on exactly when its condition holds. -/
@[simp] theorem returns_require {p : Prop} [Decidable p] {e : ε} {u : Unit} :
    (require p e : Exec ε ℓ Unit).Returns u ↔ p := by
  unfold require
  split <;> simp [*]

/-- `.ok_or(e)?` goes on with the value, if there is one. -/
@[simp] theorem returns_okOr {o : Option α} {e : ε} {a : α} :
    (okOr o e : Exec ε ℓ α).Returns a ↔ o = some a := by
  unfold okOr
  split <;> simp

/-- The exact sum, below the width of a `usize`. -/
@[simp] theorem returns_usizeAdd {a b c : Nat} :
    (usizeAdd a b : Exec ε ℓ Nat).Returns c ↔ a + b = c ∧ c < 2 ^ 64 := by
  unfold usizeAdd
  split <;> simp <;> omega

/-- The exact product, below the width of a `usize`. -/
@[simp] theorem returns_usizeMul {a b c : Nat} :
    (usizeMul a b : Exec ε ℓ Nat).Returns c ↔ a * b = c ∧ c < 2 ^ 64 := by
  unfold usizeMul
  split
  next h => simp; intro hc; omega
  next h => simp; intro hc; omega

/-- The exact difference, which must not be negative. -/
@[simp] theorem returns_unsignedSub {a b c : Nat} :
    (unsignedSub a b : Exec ε ℓ Nat).Returns c ↔ b ≤ a ∧ a - b = c := by
  unfold unsignedSub
  split <;> simp <;> omega

@[simp] theorem returns_withCapacity {n : Nat} {u : Unit} :
    (withCapacity n : Exec ε ℓ Unit).Returns u ↔ n < 2 ^ 63 := by
  unfold withCapacity
  split
  next h => rw [returns_pure]; exact iff_of_true rfl h
  next h => rw [returns_panic]; exact (iff_of_false id h)

/-- The bound is on the sum of the two numbers; below it the machine sum is exact. -/
@[simp] theorem returns_u32Add {a b c : UInt32} :
    (u32Add a b : Exec ε ℓ UInt32).Returns c ↔ a.toNat + b.toNat < 2 ^ 32 ∧ a + b = c := by
  unfold u32Add
  split
  next h => rw [returns_pure]; exact (and_iff_right h).symm
  next h => rw [returns_panic]; exact (iff_of_false id fun hc => h hc.1)

@[simp] theorem returns_u32Sub {a b c : UInt32} :
    (u32Sub a b : Exec ε ℓ UInt32).Returns c ↔ b ≤ a ∧ a - b = c := by
  unfold u32Sub
  split <;> simp [*]

@[simp] theorem returns_u32Shl {a n c : UInt32} :
    (u32Shl a n : Exec ε ℓ UInt32).Returns c ↔ n < 32 ∧ a <<< n = c := by
  unfold u32Shl
  split <;> simp [*]

@[simp] theorem returns_u32Shr {a n c : UInt32} :
    (u32Shr a n : Exec ε ℓ UInt32).Returns c ↔ n < 32 ∧ a >>> n = c := by
  unfold u32Shr
  split <;> simp [*]

/-- The bound is on the integer difference, on both sides. -/
@[simp] theorem returns_i64Sub {a b c : Int64} :
    (i64Sub a b : Exec ε ℓ Int64).Returns c ↔
      (-2 ^ 63 ≤ a.toInt - b.toInt ∧ a.toInt - b.toInt < 2 ^ 63) ∧ a - b = c := by
  unfold i64Sub
  split
  next h => rw [returns_pure]; exact (and_iff_right h).symm
  next h => rw [returns_panic]; exact (iff_of_false id fun hc => h hc.1)

/-- No borrow. -/
@[simp] theorem returns_u64Sub {a b c : UInt64} :
    (u64Sub a b : Exec ε ℓ UInt64).Returns c ↔ b ≤ a ∧ a - b = c := by
  unfold u64Sub
  split <;> simp [*]

/-- No carry. -/
@[simp] theorem returns_u64Add {a b c : UInt64} :
    (u64Add a b : Exec ε ℓ UInt64).Returns c ↔ a.toNat + b.toNat < 2 ^ 64 ∧ a + b = c := by
  unfold u64Add
  split
  next h => rw [returns_pure]; exact (and_iff_right h).symm
  next h => rw [returns_panic]; exact (iff_of_false id fun hc => h hc.1)

/-- Renaming errors and logs leaves the values alone. -/
@[simp] theorem returns_embed {ε' ℓ' : Type} {f : ε → ε'} {g : ℓ → ℓ'} {x : Exec ε ℓ α} {a : α} :
    (embed f g x).Returns a ↔ x.Returns a := by
  unfold Returns embed
  cases x.result with
  | ok b => simp
  | error e =>
    cases e with
    | err e => simp
    | panic => simp

@[simp] theorem returns_expect {o : Option α} {a : α} :
    (expect o : Exec ε ℓ α).Returns a ↔ o = some a := by
  unfold expect
  split <;> simp

/-- `xs[i]` returns the element at `i`, which must be there. -/
@[simp] theorem returns_index {xs : List α} {i : Nat} {x : α} :
    (index xs i : Exec ε ℓ α).Returns x ↔ xs[i]? = some x := by
  unfold index
  split
  next y hy => simp [hy]
  next hn => simp [hn]

/-- `xs[i..j]` returns when the bounds are in order and inside. -/
@[simp] theorem returns_slice {xs ys : List α} {i j : Nat} :
    (slice xs i j : Exec ε ℓ (List α)).Returns ys ↔
      i ≤ j ∧ j ≤ xs.length ∧ (xs.take j).drop i = ys := by
  unfold slice
  split
  next h => simp [h.1, h.2]
  next h => simp only [returns_panic, false_iff]; exact fun hc => h ⟨hc.1, hc.2.1⟩

@[simp] theorem returns_sliceFrom {xs ys : List α} {i : Nat} :
    (sliceFrom xs i : Exec ε ℓ (List α)).Returns ys ↔ i ≤ xs.length ∧ xs.drop i = ys := by
  unfold sliceFrom
  split <;> simp [*]

/-! ## Logs -/

/-- Behind a first part that returns, the lines of both parts. -/
theorem logs_bind_ok {x : Exec ε ℓ α} {f : α → Exec ε ℓ β} {a : α} (h : x.Returns a) :
    (x >>= f).logs = x.logs ++ (f a).logs := by
  unfold Returns at h
  show (match x.result with
    | .ok a => (⟨x.logs ++ (f a).logs, (f a).result⟩ : Exec ε ℓ β)
    | .error e => ⟨x.logs, .error e⟩).logs = _
  rw [h]

/-- A failing first part leaves its own lines only. -/
theorem logs_bind_error {x : Exec ε ℓ α} {f : α → Exec ε ℓ β} {e : Fault ε}
    (h : x.result = .error e) : (x >>= f).logs = x.logs := by
  show (match x.result with
    | .ok a => (⟨x.logs ++ (f a).logs, (f a).result⟩ : Exec ε ℓ β)
    | .error e => ⟨x.logs, .error e⟩).logs = _
  rw [h]

/-- A silent first part can be left out. -/
theorem bind_of_returns {x : Exec ε ℓ α} {f : α → Exec ε ℓ β} {a : α} (h : x.Returns a)
    (hlogs : x.logs = []) : x >>= f = f a := by
  obtain ⟨logs, result⟩ := x
  obtain rfl : logs = [] := hlogs
  obtain rfl : result = .ok a := h
  rfl

/-- A line of a sequence is one of its first part, or of the second part when
that is reached. -/
theorem mem_logs_bind {x : Exec ε ℓ α} {f : α → Exec ε ℓ β} {line : ℓ} :
    line ∈ (x >>= f).logs ↔ line ∈ x.logs ∨ ∃ a, x.Returns a ∧ line ∈ (f a).logs := by
  cases h : x.result with
  | ok a =>
    have hx : x.Returns a := h
    rw [logs_bind_ok hx, List.mem_append]
    refine or_congr_right ⟨fun hline => ⟨a, hx, hline⟩, fun hex => ?_⟩
    obtain ⟨a', ha', hline⟩ := hex
    exact hx.unique ha' ▸ hline
  | error e =>
    rw [logs_bind_error h]
    refine (or_iff_left fun hex => ?_).symm
    obtain ⟨a, ha, -⟩ := hex
    cases h.symm.trans ha

/-- A sequence is silent when both parts are, the second as far as it is reached. -/
@[simp] theorem logs_bind_eq_nil {x : Exec ε ℓ α} {f : α → Exec ε ℓ β} :
    (x >>= f).logs = [] ↔ x.logs = [] ∧ ∀ a, x.Returns a → (f a).logs = [] := by
  simp only [List.eq_nil_iff_forall_not_mem, mem_logs_bind, not_or, not_exists, not_and]
  constructor
  · exact fun h => ⟨fun line => (h line).1, fun a ha line => (h line).2 a ha⟩
  · exact fun h line => ⟨h.1 line, fun a ha => h.2 a ha line⟩

@[simp] theorem logs_pure {a : α} : (pure a : Exec ε ℓ α).logs = [] := rfl

@[simp] theorem logs_fail {e : ε} : (fail e : Exec ε ℓ α).logs = [] := rfl

@[simp] theorem logs_panic : (panic : Exec ε ℓ α).logs = [] := rfl

@[simp] theorem logs_log {l : ℓ} : (log l : Exec ε ℓ Unit).logs = [l] := rfl

@[simp] theorem logs_require {p : Prop} [Decidable p] {e : ε} :
    (require p e : Exec ε ℓ Unit).logs = [] := by
  unfold require
  split <;> rfl

@[simp] theorem logs_okOr {o : Option α} {e : ε} : (okOr o e : Exec ε ℓ α).logs = [] := by
  unfold okOr
  split <;> rfl

/-- Rust's primitives panic silently. -/
theorem logs_ite_panic {p : Prop} [Decidable p] {a : α} :
    (if p then pure a else panic : Exec ε ℓ α).logs = [] := by
  split <;> rfl

@[simp] theorem logs_usizeAdd {a b : Nat} : (usizeAdd a b : Exec ε ℓ Nat).logs = [] :=
  logs_ite_panic

@[simp] theorem logs_usizeMul {a b : Nat} : (usizeMul a b : Exec ε ℓ Nat).logs = [] :=
  logs_ite_panic

@[simp] theorem logs_unsignedSub {a b : Nat} : (unsignedSub a b : Exec ε ℓ Nat).logs = [] :=
  logs_ite_panic

@[simp] theorem logs_withCapacity {n : Nat} : (withCapacity n : Exec ε ℓ Unit).logs = [] :=
  logs_ite_panic

@[simp] theorem logs_slice {xs : List α} {i j : Nat} :
    (slice xs i j : Exec ε ℓ (List α)).logs = [] :=
  logs_ite_panic

@[simp] theorem logs_sliceFrom {xs : List α} {i : Nat} :
    (sliceFrom xs i : Exec ε ℓ (List α)).logs = [] :=
  logs_ite_panic

@[simp] theorem logs_u32Add {a b : UInt32} : (u32Add a b : Exec ε ℓ UInt32).logs = [] :=
  logs_ite_panic

@[simp] theorem logs_u32Sub {a b : UInt32} : (u32Sub a b : Exec ε ℓ UInt32).logs = [] :=
  logs_ite_panic

@[simp] theorem logs_u32Shl {a n : UInt32} : (u32Shl a n : Exec ε ℓ UInt32).logs = [] :=
  logs_ite_panic

@[simp] theorem logs_u32Shr {a n : UInt32} : (u32Shr a n : Exec ε ℓ UInt32).logs = [] :=
  logs_ite_panic

@[simp] theorem logs_u64Add {a b : UInt64} : (u64Add a b : Exec ε ℓ UInt64).logs = [] :=
  logs_ite_panic

@[simp] theorem logs_index {xs : List α} {i : Nat} : (index xs i : Exec ε ℓ α).logs = [] := by
  unfold index
  split <;> rfl

@[simp] theorem logs_expect {o : Option α} : (expect o : Exec ε ℓ α).logs = [] := by
  unfold expect
  split <;> rfl

/-- A conditional step logs what its taken branch logs. -/
theorem logs_ite {p : Prop} [Decidable p] {x y : Exec ε ℓ α} :
    (if p then x else y).logs = if p then x.logs else y.logs := by
  split <;> rfl

@[simp] theorem logs_embed {ε' ℓ' : Type} {f : ε → ε'} {g : ℓ → ℓ'} {x : Exec ε ℓ α} :
    (embed f g x).logs = x.logs.map g := rfl

/-- A conditional step returns what its taken branch returns. -/
theorem returns_ite {p : Prop} [Decidable p] {x y : Exec ε ℓ α} {a : α} :
    (if p then x else y).Returns a ↔ p ∧ x.Returns a ∨ ¬p ∧ y.Returns a := by
  split <;> simp [*]

end Exec

end Trana.Lib
