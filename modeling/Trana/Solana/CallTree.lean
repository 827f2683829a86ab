import Trana.Solana.Types

/-!
# Cross-program invocations

A top-level instruction unfolds into a tree: an invocation, and the
invocations its program makes in turn. Every program in the tree sees the same
Instructions sysvar, with the index of the root.

The tree is what happened, not what the programs would do: which calls a program
makes is its own affair, and a statement about any tree is a statement about any
program. What the runtime does enforce of a call is `Granted`, that it passes on
accounts the caller was given, with no more privilege.

* `Within` — one invocation was made below another, at any depth.
* `Calls`, `CallsAt` — somewhere below an instruction a program made a call.
* `Runs` — an instruction runs below a top-level one, or is it.
-/

namespace Trana.Solana

/-- An instruction, and the invocations its program made, in order. -/
inductive Invocation where
  | invoke (ix : Instruction) (calls : List Invocation)

namespace Invocation

/-- The instruction at the root. -/
def ix : Invocation → Instruction
  | .invoke ix _ => ix

/-- The calls its program makes, in order. -/
def calls : Invocation → List Invocation
  | .invoke _ calls => calls

/-- The second invocation is the first one or was made below it. -/
inductive Within : Invocation → Invocation → Prop where
  | root (t : Invocation) : Within t t
  | call {ix : Instruction} {calls : List Invocation} {inner s : Invocation}
      (made : inner ∈ calls) (within : Within inner s) : Within (.invoke ix calls) s

/-- Somewhere in the tree the program of `caller` made the call `callee`. -/
def Calls (tree : Invocation) (caller callee : Instruction) : Prop :=
  ∃ s c, Within tree s ∧ s.ix = caller ∧ c ∈ s.calls ∧ c.ix = callee

end Invocation

/-- Every account of the call is one of the caller's, with no privilege the
caller does not have. -/
def Granted (caller callee : Instruction) : Prop :=
  ∀ m ∈ callee.accounts, ∃ m' ∈ caller.accounts, m'.pubkey = m.pubkey ∧
    (m.isSigner = true → m'.isSigner = true) ∧ (m.isWritable = true → m'.isWritable = true)

instance (caller callee : Instruction) : Decidable (Granted caller callee) :=
  inferInstanceAs (Decidable (∀ m ∈ callee.accounts, ∃ m' ∈ caller.accounts, _ ∧ _ ∧ _))

/-- A transaction: one tree for each top-level instruction. -/
structure Transaction where
  trees : List Invocation

namespace Transaction

variable (tx : Transaction)

/-- The top-level instructions, which the sysvar lists. -/
def instructions : List Instruction := tx.trees.map Invocation.ix

/-- What every program sees below top-level instruction `i`. -/
def sysvar (i : UInt16) : InstructionsSysvar := ⟨tx.instructions, i⟩

/-- `ix` runs below top-level instruction `i`, or is it. -/
def Runs (i : UInt16) (ix : Instruction) : Prop :=
  ∃ tree s, tx.trees[i.toNat]? = some tree ∧ tree.Within s ∧ s.ix = ix

/-- Below top-level instruction `i` the program of `caller` made the call `callee`. -/
def CallsAt (i : UInt16) (caller callee : Instruction) : Prop :=
  ∃ tree, tx.trees[i.toNat]? = some tree ∧ tree.Calls caller callee

end Transaction

end Trana.Solana
