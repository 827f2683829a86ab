import Trana.Sdk.Webauthn

/-!
# SDK: low-S signatures of the software signer

`ensureLowS` of `testing/index.ts`, and its copy in `testing.ts`. It holds its
result under two names, `out` and the `Buffer.from(out)` it copies the new `s`
to, so it is modelled with arrays by reference (`Trana.Sdk.Buffers`): a `Buffer`
made from a typed array has its own memory.

* `Testing.ensureLowS` — the function, statement by statement.
* `Testing.ensureLowS_eq` — the `s` of its result is zero wherever it computes
  one.

`BigInt("0x" + hex)` throws for no digits at all, which a signature of 64 bytes
does not have; `toString(16)` of a negative number has a sign, which matters for
an `s` above the order only. What this means for signatures of the curve is in
`Trana.Security.LowS`.
-/

namespace Trana.Sdk

open Trana.Lib Trana.Sdk.Js

/-- Low-S normalize a compact (r‖s) signature if needed. -/
def Testing.ensureLowS (compactSig : Ref) : HeapM Ref := do
  let bytes ← HeapM.read compactSig
  let s ← bigInt (hexEncode (bytes.drop 32))
  if s ≤ P256.halfN then pure compactSig
  else do
    let sLow : Int := P256.N - s
    let out ← HeapM.newUint8Array 64
    HeapM.setAt out (bytes.take 32) 0
    let hex ← HeapM.alloc (hexDecode (padStart 64 (toHexInt sLow)))
    -- `Buffer.from(out)`: a copy
    let target ← HeapM.bufferFrom out
    HeapM.copy hex target 32
    pure out

/-- The copy in `testing.ts`, the same line by line. -/
def TestingTs.ensureLowS : Ref → HeapM Ref := Testing.ensureLowS

variable {compact : Bytes}

/-- The low `s` is computed and copied to a buffer nobody reads. -/
theorem Testing.ensureLowS_eq (hlen : compact.length = 64) :
    HeapM.onBytes Testing.ensureLowS compact =
      .ok (if beNat (compact.drop 32) ≤ P256.halfN then compact
        else compact.take 32 ++ zeros 32) := by
  have htake : (compact.take 32).length = 32 := by
    rw [List.length_take, hlen]
    rfl
  have hread : HeapM.read 0 [compact] = .ok (compact, [compact]) := rfl
  rw [HeapM.onBytes, Testing.ensureLowS, HeapM.bind_ok hread,
    HeapM.bind_ok (HeapM.lift_ok (bigInt_s hlen))]
  split
  next => rfl
  next =>
    have hnew : HeapM.newUint8Array 64 [compact] = .ok (1, [compact, zeros 64]) := rfl
    have hset : HeapM.setAt 1 (compact.take 32) 0 [compact, zeros 64] =
        .ok ((), [compact, compact.take 32 ++ zeros 32]) :=
      HeapM.setAt_ok (set_left htake)
    obtain ⟨h', hrun, hout⟩ := HeapM.bufferFrom_copy (α := Ref) (r := 1) 2 32
      (h := [compact, compact.take 32 ++ zeros 32] ++ [hexDecode (padStart 64 (toHexInt
        (P256.N - beNat (compact.drop 32))))]) (by simp)
    rw [HeapM.bind_ok hnew, HeapM.bind_ok hset, HeapM.bind_ok rfl]
    refine (congrArg (· >>= _) (hrun fun _ => pure 1)).trans ?_
    exact congrArg Except.ok hout

end Trana.Sdk
