import Trana.Lib.Base58
import Trana.Lib.Borsh

/-!
# Addresses, instructions and the sysvars

The part of the runtime's data a program sees. An `Instruction` carries the
bound on its account list that the Instructions sysvar's `u16` count imposes,
so capacity arithmetic on that list never needs a side condition.

The Instructions sysvar is an account on chain, whose bytes the runtime writes
and the `solana_program` helpers parse again. The model has the list itself and
the index, and the helpers as access to it; what they check beyond that, the
sysvar's address, is a constraint of every account context that uses them. A
program cannot tell from the sysvar how deep it runs: below a cross-program call
the index is still that of the top-level instruction.

* `Pubkey`, an address with its length, and its text form.
* `SameAction` — program, data and addresses of an instruction, without the
  flags; the most that a hash over these can bind.
* `loadCurrentIndexChecked`, `loadInstructionAtChecked` — the two reads.
-/

namespace Trana.Solana

open Trana.Lib

/-- A 32-byte address. -/
structure Pubkey where
  bytes : Bytes
  length_eq : bytes.length = 32
  deriving DecidableEq

namespace Pubkey

/-- Addresses are told apart by their bytes. -/
theorem bytes_inj : Function.Injective Pubkey.bytes := by
  rintro ⟨a, ha⟩ ⟨b, hb⟩ h
  cases h
  rfl

/-- `Pubkey` in Borsh: its 32 bytes. -/
def codec : Codec Pubkey :=
  (Codec.bytesN 32).map (fun a => ⟨a.1, a.2⟩) (fun p => ⟨p.bytes, p.length_eq⟩)
    (fun _ => rfl) (fun _ => rfl)

/-- The text form, which is also what `{}` prints. -/
def toBase58 (p : Pubkey) : String := Base58.encode p.bytes

/-- `new PublicKey(text)`. -/
def ofBase58? (s : String) : Option Pubkey :=
  (Base58.decode s).bind fun bs => if h : bs.length = 32 then some ⟨bs, h⟩ else none

/-- The printed form of an address reads back as the address. -/
theorem ofBase58?_toBase58 (p : Pubkey) : ofBase58? p.toBase58 = some p := by
  simp [ofBase58?, toBase58, Base58.decode_encode, p.length_eq]

end Pubkey

/-- One entry of an instruction's account list. -/
structure AccountMeta where
  pubkey : Pubkey
  isSigner : Bool
  isWritable : Bool
  deriving DecidableEq

/-- An instruction, as the runtime hands it to a program. -/
structure Instruction where
  programId : Pubkey
  accounts : List AccountMeta
  data : Bytes
  accounts_lt : accounts.length < 65536 := by decide
  deriving DecidableEq

theorem length_noAccounts : ([] : List AccountMeta).length < 65536 := by decide

namespace Instruction

/-- The account addresses, in order. -/
def accountKeys (ix : Instruction) : List Pubkey := ix.accounts.map AccountMeta.pubkey

/-- What a proof can name of an instruction: program, data and addresses. The
signer and writable flags are not part of it. -/
def SameAction (a b : Instruction) : Prop :=
  a.programId = b.programId ∧ a.data = b.data ∧ a.accountKeys = b.accountKeys

instance (a b : Instruction) : Decidable (SameAction a b) :=
  inferInstanceAs (Decidable (_ ∧ _ ∧ _))

/-- An instruction is its own action. -/
theorem SameAction.refl (a : Instruction) : SameAction a a := ⟨rfl, rfl, rfl⟩

end Instruction

/-- The Instructions sysvar: every top-level instruction of the transaction,
and the index of the one being executed. During a cross-program invocation the
index stays that of the enclosing top-level instruction. -/
structure InstructionsSysvar where
  instructions : List Instruction
  currentIndex : UInt16

/-- `load_current_index_checked`. The account contexts pin the sysvar's
address, which is the only thing it checks. -/
def loadCurrentIndexChecked (ixSysvar : InstructionsSysvar) : UInt16 := ixSysvar.currentIndex

/-- `load_instruction_at_checked`: no instruction, no value. -/
def loadInstructionAtChecked (index : Nat) (ixSysvar : InstructionsSysvar) : Option Instruction :=
  ixSysvar.instructions[index]?

/-- The Clock sysvar. -/
structure Clock where
  slot : UInt64
  unixTimestamp : Int64

/-- `11111111111111111111111111111111` -/
def systemProgramId : Pubkey := ⟨List.replicate 32 0, by decide⟩

/-- `Sysvar1nstructions1111111111111111111111111` -/
def instructionsId : Pubkey :=
  ⟨[6, 167, 213, 23, 24, 123, 209, 102, 53, 218, 212, 4, 85, 253, 194, 192,
    193, 36, 198, 143, 33, 86, 117, 165, 219, 186, 203, 95, 8, 0, 0, 0], by decide⟩

example : instructionsId.toBase58 = "Sysvar1nstructions1111111111111111111111111" := by
  decide +kernel

end Trana.Solana
