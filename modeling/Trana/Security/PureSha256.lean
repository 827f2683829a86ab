import Trana.Sdk.Sha256

/-!
# The SDK's SHA-256

Everywhere else the SDK's hash is taken to be SHA-256. Here is why it may be:
both copies of the implementation return the digest of every message that is
short enough for its padded length to stay a positive signed number.

* `pureSha256_exact` — the digest.
* `pureSha256_throws` — the bound on the length is the implementation's.

The two copies do the same in two places. They work on numbers that are doubles,
with the bit operators taking them through signed 32-bit integers; the sums of a
round stay far below 2^53 and are cut to 32 bits by the next operator, so every
word is exact. The operators are in `Trana.Lib.JsNumber`, the loops in
`Trana.Sdk.Sha256`, and the specification of the hash, over words and blocks, in
`Trana.Lib.Sha256`.

The padded length is computed with `& ~63`, a signed operator: from 2^31 on it
comes out negative and the allocation throws. A message of that length cannot be
part of a transaction.
-/

namespace Trana.Security

open Trana.Lib Trana.Sdk

variable {msg : Bytes}

/-- Both copies return the SHA-256 digest. -/
theorem pureSha256_exact (h : msg.length + 72 < 2 ^ 31) :
    Core.pureSha256 msg = .ok (sha256 msg) ∧ Utils.pureSha256 msg = .ok (sha256 msg) :=
  ⟨Core.pureSha256_eq h, Core.pureSha256_eq h⟩

theorem pureSha256_exact_abc :
    ([97, 98, 99] : Bytes).length + 72 < 2 ^ 31 ∧
      Core.pureSha256 [97, 98, 99] = .ok (sha256 [97, 98, 99]) ∧
      Utils.pureSha256 [97, 98, 99] = .ok (sha256 [97, 98, 99]) :=
  ⟨by decide, pureSha256_exact (by decide)⟩

/-- Above the bound the array for the padded message would get a negative length. -/
theorem pureSha256_throws (hlarge : 2 ^ 31 ≤ msg.length + 72) (h : msg.length + 72 < 2 ^ 32) :
    Core.pureSha256 msg = .error .rangeError ∧ Utils.pureSha256 msg = .error .rangeError :=
  ⟨Core.pureSha256_long hlarge h, Core.pureSha256_long hlarge h⟩

end Trana.Security
