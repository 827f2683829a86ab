import Trana.Lib.BigEndian
import Trana.Lib.DataView
import Trana.Lib.Loops
import Trana.Sdk.ProofIx

/-!
# SDK: byte arrays and what they throw

JavaScript's typed arrays where a function walks through one by computed
indices, or writes to one it also holds under another name.

* `Thrown`, `JsResult` — a call returns, or throws an error of the language or
  an object with a code and a message, whose texts are the source's.
* `Index` — an index may be `NaN`, and an element out of range is `undefined`;
  arithmetic on `undefined` makes `NaN`, and `slice` counts `NaN` as zero.
* `set`, `fill` — `set` throws a `RangeError` when the source does not fit, while
  an assignment past the end is ignored.
* `HeapM` — arrays by reference. `Buffer.from(array)` is a new array: a write to
  it leaves the old one as it is (`bufferFrom_copy`), which is what decides about
  the SDK's test helper for low signatures.

Indices are naturals or `NaN`; the functions modelled with them compute no
negative and no fractional ones.
-/

namespace Trana.Sdk.Js

open Trana.Lib

/-- What a call throws: an error of the language, or an object of some class
with its code and message. -/
inductive Thrown where
  | rangeError
  | syntaxError
  | error (name code message : String)
  deriving DecidableEq, Repr

/-- A call that returns or throws. -/
abbrev JsResult (α : Type) := Except Thrown α

/-- `throw new Error(message)` -/
def jsError (message : String) : Thrown := .error "Error" "" message

/-- `if (!p) throw e` -/
def orThrow (p : Prop) [Decidable p] (e : Thrown) : JsResult Unit := if p then .ok () else .error e

/-- What returned goes on. -/
theorem ok_bind {α β : Type} (a : α) (f : α → JsResult β) :
    ((.ok a : JsResult α) >>= f) = f a := rfl

/-- A check, and what follows. -/
@[simp] theorem orThrow_bind {α : Type} {p : Prop} [Decidable p] {e : Thrown}
    {f : Unit → JsResult α} : (orThrow p e >>= f) = if p then f () else .error e := by
  unfold orThrow
  split <;> rfl

/-! ## Elements and indices -/

/-- A number that is used as an index; `none` is `NaN`. -/
abbrev Index := Option Nat

/-- `bytes[i]`; `none` is `undefined`. -/
def elem (bytes : Bytes) (i : Index) : Option UInt8 := i.bind fun n => bytes[n]?

/-- An element in arithmetic. -/
def asNumber (element : Option UInt8) : Index := element.map UInt8.toNat

/-- `i + n` -/
def plus (i n : Index) : Index := i.bind fun a => n.map fun b => a + b

/-- `bytes.slice(start, stop)`; `NaN` counts as zero. -/
def slice (bytes : Bytes) (start stop : Index) : Bytes :=
  sliceBytes bytes (start.getD 0) (stop.getD 0)

/-- At `NaN` there is `undefined`. -/
@[simp] theorem elem_none (bytes : Bytes) : elem bytes none = none := rfl

/-- At a number there is the element, if it is in range. -/
@[simp] theorem elem_some (bytes : Bytes) (n : Nat) : elem bytes (some n) = bytes[n]? := rfl

/-- Numbers add. -/
@[simp] theorem plus_some (a b : Nat) : plus (some a) (some b) = some (a + b) := rfl

/-- A byte is a number. -/
@[simp] theorem asNumber_some (b : UInt8) : asNumber (some b) = some b.toNat := rfl

/-! ## Fresh arrays -/

/-- `new Uint8Array(n)` -/
def zeros (n : Nat) : Bytes := List.replicate n 0

/-- As long as asked for. -/
@[simp] theorem length_zeros (n : Nat) : (zeros n).length = n := List.length_replicate

/-- Zeros behind zeros. -/
theorem zeros_add (m n : Nat) : zeros (m + n) = zeros m ++ zeros n :=
  (List.replicate_append_replicate).symm

/-- `array.set(src, offset)` -/
def set (array src : Bytes) (offset : Nat) : JsResult Bytes :=
  match setBytes array src offset with
  | some array => .ok array
  | none => .error .rangeError

variable {a b src : Bytes} {k : Nat}

/-- Bytes in the middle of an array are replaced. -/
theorem set_middle (front : Bytes) {old : Bytes} (back : Bytes) (hlen : old.length = src.length) :
    set (front ++ old ++ back) src front.length = .ok (front ++ src ++ back) := by
  have hfit : front.length + src.length ≤ (front ++ old ++ back).length := by
    simp only [List.length_append]
    omega
  have hdrop : (front ++ old ++ back).drop (front.length + src.length) = back := by
    rw [← hlen, ← List.length_append, List.drop_left]
  rw [set, setBytes, if_pos hfit, hdrop, List.append_assoc front old back, List.take_left]

/-- Bytes at the end of an array of zeros, which stay in front of them. -/
theorem set_right (front back : Bytes) (hlen : src.length ≤ k) :
    set (front ++ zeros k ++ back) src (front.length + (k - src.length)) =
      .ok (front ++ (zeros (k - src.length) ++ src) ++ back) := by
  have hzeros : zeros k = zeros (k - src.length) ++ zeros src.length := by
    rw [← zeros_add, Nat.sub_add_cancel hlen]
  have hsplit : front ++ zeros k ++ back =
      (front ++ zeros (k - src.length)) ++ zeros src.length ++ back := by
    rw [hzeros]
    simp only [List.append_assoc]
  have hpos : front.length + (k - src.length) = (front ++ zeros (k - src.length)).length := by
    rw [List.length_append, length_zeros]
  rw [hsplit, hpos, set_middle _ back (length_zeros _)]
  simp only [List.append_assoc]

/-- `for (i = 0; i < n; i++) array[offset + i] = f(i)` -/
def fill (array : Bytes) (offset n : Nat) (f : Nat → UInt8) : Bytes :=
  (List.range n).foldl (fun array i => array.set (offset + i) (f i)) array

/-- The loop overwrites what is behind `front`, element by element. -/
theorem fill_eq (front old : Bytes) (f : Nat → UInt8) :
    fill (front ++ old) front.length old.length f =
      front ++ (List.range old.length).map f := by
  have hloop := foldl_set_range front old [] f
  rw [List.append_nil, List.append_nil] at hloop
  exact hloop

/-! ## Arrays by reference -/

/-- The place of an array among those there are. -/
abbrev Ref := Nat

/-- Code that reads and writes arrays by reference, and may throw. -/
abbrev HeapM := StateT (List Bytes) JsResult

namespace HeapM

/-- The bytes an array has at this moment. -/
def read (r : Ref) : HeapM Bytes := fun h => .ok (h.getD r [], h)

/-- The array has these bytes from now on. -/
def write (r : Ref) (bytes : Bytes) : HeapM Unit := fun h => .ok ((), h.set r bytes)

/-- A new array, behind those there are. -/
def alloc (bytes : Bytes) : HeapM Ref := fun h => .ok (h.length, h ++ [bytes])

/-- `new Uint8Array(n)` -/
def newUint8Array (n : Nat) : HeapM Ref := alloc (zeros n)

/-- `Buffer.from(array)`: the bytes of the array, in a new one. -/
def bufferFrom (r : Ref) : HeapM Ref := do
  let bytes ← read r
  alloc bytes

/-- `r.set(src, offset)` -/
def setAt (r : Ref) (src : Bytes) (offset : Nat) : HeapM Unit := do
  let bytes ← read r
  let bytes ← set bytes src offset
  write r bytes

/-- `src.copy(target, targetStart)`: as many bytes as there is room for. -/
def copy (src target : Ref) (targetStart : Nat) : HeapM Unit := do
  let bytes ← read src
  let old ← read target
  write target (old.take targetStart ++ bytes.take (old.length - targetStart) ++
    old.drop (targetStart + bytes.length))

/-- Run a function of an array on these bytes, and read what it returns. -/
def onBytes (f : Ref → HeapM Ref) (bytes : Bytes) : JsResult Bytes :=
  f 0 [bytes] >>= fun rh => .ok (rh.2.getD rh.1 [])

section Steps

variable {α β : Type} {h h' : List Bytes} {r : Ref} {k : Nat}

/-- A step that does not throw, and what follows. -/
theorem bind_ok {x : HeapM α} {f : α → HeapM β} {a : α} (hx : x h = .ok (a, h')) :
    (x >>= f) h = f a h' := by
  show (x h >>= fun ah => f ah.1 ah.2) = f a h'
  rw [hx]
  rfl

/-- A call without a heap leaves it. -/
theorem lift_ok {x : JsResult α} {a : α} (hx : x = .ok a) : (liftM x : HeapM α) h = .ok (a, h) := by
  rw [hx]
  rfl

/-- A `set` in range. -/
theorem setAt_ok {bytes bytes' : Bytes} (hset : set (h.getD r []) bytes k = .ok bytes') :
    setAt r bytes k h = .ok ((), h.set r bytes') :=
  (bind_ok rfl).trans (bind_ok (lift_ok hset))

/-- What is copied to `Buffer.from(array)` does not get to the array. -/
theorem bufferFrom_copy (src : Ref) (k : Nat) (hr : r < h.length) :
    ∃ h', (∀ f : Unit → HeapM α,
        (bufferFrom r >>= fun target => copy src target k >>= f) h = f () h') ∧
      h'.getD r [] = h.getD r [] := by
  refine ⟨_, fun f => (bind_ok rfl).trans (bind_ok rfl), ?_⟩
  have hne : h.length ≠ r := Nat.ne_of_gt hr
  rw [List.getD_eq_getElem?_getD, List.getElem?_set_ne hne, List.getElem?_append_left hr,
    ← List.getD_eq_getElem?_getD]

end Steps

end HeapM

end Trana.Sdk.Js
