import Trana.Sdk.Intent

/-!
# SDK: the proof instructions

`core/secp256r1.ts`: the secp256r1 instruction is written field by field into
a buffer whose initial bytes are unspecified (`Buffer.allocUnsafe`), the
record_proof instruction is concatenated. A call that would throw is `none`.

* `AllocUnsafe` — a fresh buffer: its length is what was asked for, its bytes are
  anything.
* `setBytes`, `setUint16` — the writes; one that does not fit throws.
* `buildSecp256r1Ix_eq` — every byte of the buffer is overwritten, and the
  result is header, key, signature and message, for a key of 33 bytes and a
  signature of 64.
* `secpHeader_built`, `verify_built` — what the guard and the precompile make
  of it.
* `buildWebAuthnMessage_eq` — the signed message: authenticator data and the hash
  of the client data.
* `buildRecordProofIx_eq` — the payload is the Borsh form of the proof data.

Lengths are written as `u16` and `u32` and wrap as `setUint16` and `setUint32`
do; the lemmas ask for lengths that fit.
-/

namespace Trana.Sdk

open Trana.Lib Trana.Solana Trana.Guard

/-! ## Buffers -/

/-- `Buffer.allocUnsafe`: so many bytes, of no particular value. -/
def AllocUnsafe := { alloc : Nat → Bytes // ∀ n, (alloc n).length = n }

/-- `buffer.set(src, offset)`, which throws when the source does not fit. -/
def setBytes (buffer src : Bytes) (offset : Nat) : Option Bytes :=
  if offset + src.length ≤ buffer.length then
    some (buffer.take offset ++ src ++ buffer.drop (offset + src.length))
  else none

/-- `view.setUint16(offset, n, true)` -/
def setUint16 (buffer : Bytes) (offset n : Nat) : Option Bytes :=
  setBytes buffer (leBytes 2 n) offset

/-- Writing right behind what is already written, over the next junk bytes. -/
theorem setBytes_next {done src junk : Bytes} {n : Nat} (hn : done.length = n)
    (hfit : n + src.length ≤ junk.length) :
    setBytes (done ++ junk.drop n) src n
      = some (done ++ src ++ junk.drop (n + src.length)) := by
  subst hn
  have hlen : done.length + src.length ≤ (done ++ junk.drop done.length).length := by
    rw [List.length_append, List.length_drop]
    omega
  unfold setBytes
  rw [if_pos hlen, List.take_left, List.drop_append, List.drop_eq_nil_of_le (by omega),
    List.nil_append, List.drop_drop, Nat.add_sub_cancel_left]

/-- Contiguous writes from an offset on. -/
def setSeq (buffer : Bytes) (offset : Nat) : List Bytes → Option Bytes
  | [] => some buffer
  | src :: srcs => (setBytes buffer src offset).bind fun b => setSeq b (offset + src.length) srcs

/-- Writes that follow one another append. -/
theorem setSeq_next {done junk : Bytes} {n : Nat} {srcs : List Bytes} (hn : done.length = n)
    (hfit : n + srcs.flatten.length ≤ junk.length) :
    setSeq (done ++ junk.drop n) n srcs
      = some (done ++ srcs.flatten ++ junk.drop (n + srcs.flatten.length)) := by
  induction srcs generalizing done n with
  | nil => simp [setSeq]
  | cons src srcs ih =>
    rw [List.flatten_cons, List.length_append] at hfit
    rw [setSeq, setBytes_next hn (by omega), Option.bind_some,
      ih (by rw [List.length_append, hn]) (by omega), List.flatten_cons, List.length_append,
      Nat.add_assoc]
    simp only [List.append_assoc]

/-- Contiguous writes that fill the buffer leave nothing of it. -/
theorem setSeq_fill {junk : Bytes} {srcs : List Bytes} (h : srcs.flatten.length = junk.length) :
    setSeq junk 0 srcs = some srcs.flatten := by
  have hnext : setSeq ([] ++ junk.drop 0) 0 srcs =
      some ([] ++ srcs.flatten ++ junk.drop (0 + srcs.flatten.length)) :=
    setSeq_next rfl (by omega)
  rw [Nat.zero_add, h, List.drop_length, List.append_nil] at hnext
  exact hnext

/-! ## The secp256r1 instruction -/

/-- Behind the header. -/
def pubkeyOff : Nat := 16
/-- Behind the key. -/
def sigOff : Nat := 49
/-- Behind the signature. -/
def msgOff : Nat := 113

/-- Build a secp256r1 verify instruction for a single P-256 signature. -/
def buildSecp256r1Ix (alloc : AllocUnsafe) (pubkey sig message : Bytes) : Option Instruction := do
  let data := alloc.1 (msgOff + message.length)
  let data ← setBytes data [1] 0 -- count = 1 signature
  let data ← setBytes data [0] 1 -- padding
  let data ← setUint16 data 2 sigOff
  -- the three indices are 0xffff, which is this instruction
  let data ← setUint16 data 4 0xffff
  let data ← setUint16 data 6 pubkeyOff
  let data ← setUint16 data 8 0xffff
  let data ← setUint16 data 10 msgOff
  let data ← setUint16 data 12 message.length
  let data ← setUint16 data 14 0xffff
  let data ← setBytes data pubkey pubkeyOff
  let data ← setBytes data sig sigOff
  let data ← setBytes data message msgOff
  some { programId := Secp256r1.programId, accounts := [], data, accounts_lt := length_noAccounts }

/-- The sixteen header bytes for a message of this length. -/
def secpHeaderBytes (messageLength : Nat) : Bytes :=
  [1] ++ [0] ++ leBytes 2 sigOff ++ leBytes 2 0xffff ++ leBytes 2 pubkeyOff ++ leBytes 2 0xffff
    ++ leBytes 2 msgOff ++ leBytes 2 messageLength ++ leBytes 2 0xffff

/-- The finished instruction data. -/
def secpData (pubkey sig message : Bytes) : Bytes :=
  secpHeaderBytes message.length ++ pubkey ++ sig ++ message

/-- The header has sixteen bytes, -/
theorem length_secpHeaderBytes (n : Nat) : (secpHeaderBytes n).length = 16 := by
  simp [secpHeaderBytes]

/-- and the instruction 113 more than its message. -/
theorem length_secpData {pubkey sig message : Bytes} (hkey : pubkey.length = 33)
    (hsig : sig.length = 64) : (secpData pubkey sig message).length = 113 + message.length := by
  simp only [secpData, List.length_append, length_secpHeaderBytes]
  omega

/-- The writes, in order. -/
def secpWrites (pubkey sig message : Bytes) : List Bytes :=
  [[1], [0], leBytes 2 sigOff, leBytes 2 0xffff, leBytes 2 pubkeyOff, leBytes 2 0xffff,
    leBytes 2 msgOff, leBytes 2 message.length, leBytes 2 0xffff, pubkey, sig, message]

/-- Put together, they are the data. -/
theorem flatten_secpWrites (pubkey sig message : Bytes) :
    (secpWrites pubkey sig message).flatten = secpData pubkey sig message := by
  simp [secpWrites, secpData, secpHeaderBytes]

/-- The writes are contiguous, so no junk byte survives. -/
theorem buildSecp256r1Ix_eq {alloc : AllocUnsafe} {pubkey sig message : Bytes}
    (hkey : pubkey.length = 33) (hsig : sig.length = 64) :
    buildSecp256r1Ix alloc pubkey sig message = some
      { programId := Secp256r1.programId, accounts := [],
        data := secpData pubkey sig message } := by
  have hwrites : buildSecp256r1Ix alloc pubkey sig message =
      (setSeq (alloc.1 (msgOff + message.length)) 0 (secpWrites pubkey sig message)).bind
        fun data => some { programId := Secp256r1.programId, accounts := [], data } := by
    simp [buildSecp256r1Ix, setSeq, secpWrites, setUint16, hkey, hsig, pubkeyOff, sigOff, msgOff,
      Option.bind_assoc]
  rw [hwrites, setSeq_fill, flatten_secpWrites, Option.bind_some]
  rw [flatten_secpWrites, length_secpData hkey hsig]
  exact (alloc.2 _).symm

/-! ## What the guard and the precompile read -/

section Read

open Secp256r1

variable {pubkey sig message : Bytes}

/-- A field in front is read in front. -/
theorem u16At_append {a b : Bytes} {i : Nat} (h : i + 2 ≤ a.length) :
    u16At (a ++ b) i = u16At a i := by
  unfold u16At
  rw [List.drop_append_of_le_length (by omega),
    List.take_append_of_le_length (by rw [List.length_drop]; omega)]

/-- A record inside a header is read there. -/
theorem offsetsAt_append {a b : Bytes} {start : Nat} (h : start + 14 ≤ a.length) :
    offsetsAt (a ++ b) start = offsetsAt a start := by
  unfold offsetsAt
  rw [u16At_append (by omega), u16At_append (by omega), u16At_append (by omega),
    u16At_append (by omega), u16At_append (by omega), u16At_append (by omega),
    u16At_append (by omega)]

/-- A header field is read from the header. -/
theorem u16At_secpData {i : Nat} (h : i + 2 ≤ 16) :
    u16At (secpData pubkey sig message) i = u16At (secpHeaderBytes message.length) i := by
  unfold secpData
  rw [List.append_assoc, List.append_assoc, u16At_append (by rw [length_secpHeaderBytes]; exact h)]

/-- The header spelled out. -/
theorem secpHeaderBytes_eq (n : Nat) : secpHeaderBytes n =
    [1, 0, 49, 0, 255, 255, 16, 0, 255, 255, 113, 0] ++ (leBytes 2 n ++ [255, 255]) := by
  have hffff : leBytes 2 0xffff = [255, 255] := by decide
  have hsig : leBytes 2 sigOff = [49, 0] := by decide
  have hkey : leBytes 2 pubkeyOff = [16, 0] := by decide
  have hmsg : leBytes 2 msgOff = [113, 0] := by decide
  rw [secpHeaderBytes, hffff, hsig, hkey, hmsg]
  simp only [List.append_assoc]
  rfl

/-- A field in front of the message size. -/
theorem u16At_secpData_front {i : Nat} (h : i + 2 ≤ 12) :
    u16At (secpData pubkey sig message) i =
      u16At [1, 0, 49, 0, 255, 255, 16, 0, 255, 255, 113, 0] i := by
  rw [u16At_secpData (by omega), secpHeaderBytes_eq, u16At_append h]

/-- The key's offset, -/
theorem u16At_secpData_key : u16At (secpData pubkey sig message) 6 = 16 := by
  rw [u16At_secpData_front (by omega)]
  decide

/-- the message's, -/
theorem u16At_secpData_message : u16At (secpData pubkey sig message) 10 = 113 := by
  rw [u16At_secpData_front (by omega)]
  decide

/-- its size, -/
theorem u16At_secpData_size (hmsg : message.length < 65536) :
    u16At (secpData pubkey sig message) 12 = message.length := by
  have hfit : message.length < 256 ^ 2 := hmsg
  rw [u16At_secpData (by omega), secpHeaderBytes_eq, u16At]
  show leNat ((leBytes 2 message.length ++ [255, 255]).take 2) = message.length
  rw [List.take_append_of_le_length (by simp), List.take_of_length_le (by simp),
    leNat_leBytes_of_lt hfit]

/-- and the index that stands for this instruction. -/
theorem u16At_secpData_last : u16At (secpData pubkey sig message) 14 = 0xFFFF := by
  have hlen : 14 = (([1, 0, 49, 0, 255, 255, 16, 0, 255, 255, 113, 0] : Bytes)
      ++ leBytes 2 message.length).length := by simp
  rw [u16At_secpData (by omega), secpHeaderBytes_eq, ← List.append_assoc, u16At, hlen,
    List.drop_left]
  decide

/-- The one offset record of the built instruction. -/
theorem offsetsAt_secpData (hmsg : message.length < 65536) :
    offsetsAt (secpData pubkey sig message) 2 =
      ⟨49, 0xFFFF, 16, 0xFFFF, 113, message.length, 0xFFFF⟩ := by
  have h2 : u16At (secpData pubkey sig message) 2 = 49 := by
    rw [u16At_secpData_front (by omega)]
    decide
  have h4 : u16At (secpData pubkey sig message) 4 = 0xFFFF := by
    rw [u16At_secpData_front (by omega)]
    decide
  have h8 : u16At (secpData pubkey sig message) 8 = 0xFFFF := by
    rw [u16At_secpData_front (by omega)]
    decide
  rw [offsetsAt, h2, h4, u16At_secpData_key, h8, u16At_secpData_message,
    u16At_secpData_size hmsg, u16At_secpData_last]

/-- A field behind `n` bytes, read back. -/
theorem take_drop_field {pre field post : Bytes} {n size : Nat} (hn : pre.length = n)
    (hsize : field.length = size) : ((pre ++ field ++ post).drop n).take size = field := by
  rw [← hn, ← hsize, List.append_assoc, List.drop_left, List.take_left]

/-- The key is where its offset says, -/
theorem field_key (hkey : pubkey.length = 33) :
    ((secpData pubkey sig message).drop 16).take 33 = pubkey := by
  unfold secpData
  rw [List.append_assoc (_ ++ pubkey)]
  exact take_drop_field (length_secpHeaderBytes _) hkey

/-- and the signature, -/
theorem field_sig (hkey : pubkey.length = 33) (hsig : sig.length = 64) :
    ((secpData pubkey sig message).drop 49).take 64 = sig := by
  unfold secpData
  exact take_drop_field (by rw [List.length_append, length_secpHeaderBytes, hkey]) hsig

/-- and the message. -/
theorem field_message (hkey : pubkey.length = 33) (hsig : sig.length = 64) :
    ((secpData pubkey sig message).drop 113).take message.length = message := by
  unfold secpData
  rw [← List.append_nil (_ ++ message)]
  exact take_drop_field
    (by simp only [List.length_append, length_secpHeaderBytes, hkey, hsig]) rfl

/-- The guard accepts the header, and reads key and message back. -/
theorem secpHeader_built (hkey : pubkey.length = 33) (hsig : sig.length = 64)
    (hpos : 0 < message.length) (hmsg : message.length < 65536) :
    SecpHeader (secpData pubkey sig message) ∧ ownKey (secpData pubkey sig message) = pubkey ∧
      ownMessage (secpData pubkey sig message) = message := by
  have hlen : (secpData pubkey sig message).length = 113 + message.length :=
    length_secpData hkey hsig
  refine ⟨⟨by omega, rfl, ?_, ?_, ?_⟩, ?_, ?_⟩
  · rw [u16At_secpData_key]
    omega
  · rw [u16At_secpData_message, u16At_secpData_size hmsg]
    omega
  · rw [u16At_secpData_size hmsg]
    exact hpos
  · rw [ownKey, u16At_secpData_key, field_key hkey]
  · rw [ownMessage, u16At_secpData_message, u16At_secpData_size hmsg, field_message hkey hsig]

/-- Such an instruction, whatever the signature. -/
def unsignedSecpIx (pubkey message : Bytes) : Instruction where
  programId := programId
  accounts := []
  data := secpData pubkey (List.replicate 64 0) message
  accounts_lt := length_noAccounts

/-- The guard does not look at the signature. -/
theorem secpHeader_unsigned (hkey : pubkey.length = 33) (hpos : 0 < message.length)
    (hmsg : message.length < 65536) :
    SecpHeader (unsignedSecpIx pubkey message).data ∧
      ownKey (unsignedSecpIx pubkey message).data = pubkey ∧
      ownMessage (unsignedSecpIx pubkey message).data = message :=
  secpHeader_built hkey List.length_replicate hpos hmsg

/-- The precompile verifies exactly the given signature. -/
theorem verify_built {p256 : Curve} {datas : List Bytes} (hkey : pubkey.length = 33)
    (hsig : sig.length = 64) (hmsg : message.length < 65536) :
    verify p256 (secpData pubkey sig message) datas = p256 pubkey (sha256 message) sig := by
  have hlen : (secpData pubkey sig message).length = 113 + message.length :=
    length_secpData hkey hsig
  -- the record's count is one, and its fields lie one behind the other
  have hcount : ((secpData pubkey sig message).headD 0).toNat = 1 := rfl
  have hrecords : records (secpData pubkey sig message) =
      some [⟨49, 0xFFFF, 16, 0xFFFF, 113, message.length, 0xFFFF⟩] := by
    unfold records
    rw [hcount, if_neg (by omega), List.range_one, List.map_singleton, Nat.mul_zero,
      offsetsAt_secpData hmsg]
  have hlocated : located (secpData pubkey sig message) datas
      ⟨49, 0xFFFF, 16, 0xFFFF, 113, message.length, 0xFFFF⟩ = some (sig, pubkey, message) := by
    simp only [located, dataSlice, source, if_true, Option.bind_some, Option.bind_eq_bind,
      field_key hkey, field_sig hkey hsig, field_message hkey hsig]
    rw [if_pos (by omega), if_pos (by omega), if_pos (by omega)]
    rfl
  unfold verify
  rw [hrecords]
  simp only [List.all_cons, List.all_nil, Bool.and_true, hlocated]

end Read

/-! ## WebAuthn message construction -/

/-- `new Uint8Array(n)` filled with the authenticator data and the hash of the
client data. -/
def buildWebAuthnMessage (authenticatorData clientDataJSON : Bytes) : Option Bytes := do
  let clientDataHash := sha256 clientDataJSON
  let combined := List.replicate (authenticatorData.length + 32) 0
  let combined ← setBytes combined authenticatorData 0
  setBytes combined clientDataHash authenticatorData.length

/-- Both parts fit the array that was made for them. -/
theorem buildWebAuthnMessage_eq (authenticatorData clientDataJSON : Bytes) :
    buildWebAuthnMessage authenticatorData clientDataJSON
      = some (authenticatorData ++ sha256 clientDataJSON) := by
  have hseq : buildWebAuthnMessage authenticatorData clientDataJSON =
      setSeq (List.replicate (authenticatorData.length + 32) 0) 0
        [authenticatorData, sha256 clientDataJSON] := by
    simp [buildWebAuthnMessage, setSeq]
  rw [hseq, setSeq_fill]
  · simp
  · simp

/-! ## record_proof instruction builder -/

/-- A Borsh string or byte vector. -/
def borshBytes (b : Bytes) : Bytes := lenPrefixed 4 b

/-- Build the `record_proof` data-carrier instruction. -/
def buildRecordProofIx (tranaGuardProgramId : Pubkey) (authenticatorData clientDataJSON : Bytes)
    (expiryUnix : Int) (policy : String) : Instruction where
  programId := tranaGuardProgramId
  accounts := [⟨instructionsId, false, false⟩]
  data := (sha256 (Codec.utf8 "global:record_proof")).take 8
    ++ [1]
    ++ i64le expiryUnix
    ++ borshBytes (Codec.utf8 policy)
    ++ borshBytes authenticatorData
    ++ borshBytes clientDataJSON

/-- The payload behind the discriminator is the Borsh form of the proof. -/
theorem buildRecordProofIx_eq {guardId : Pubkey} {auth client : Bytes} {expiry : Int}
    {policy : String} (hauth : auth.length < 2 ^ 32) (hclient : client.length < 2 ^ 32)
    (hpolicy : (Codec.utf8 policy).length < 2 ^ 32) :
    ∃ payload, (buildRecordProofIx guardId auth client expiry policy).data
        = recordProofDisc ++ payload ∧
      ProofData.codec.write ⟨1, Int64.ofInt expiry, policy, auth, client⟩ = some payload := by
  refine ⟨[1] ++ leBytes 8 (Int64.ofInt expiry).toUInt64.toNat
    ++ borshBytes (Codec.utf8 policy) ++ borshBytes auth ++ borshBytes client, ?_, ?_⟩
  · have hdisc : (sha256 (Codec.utf8 "global:record_proof")).take 8 = recordProofDisc := by
      decide +kernel
    rw [buildRecordProofIx, hdisc, i64le_expiry]
    simp only [List.append_assoc]
  · simp only [ProofData.codec, Codec.map, Codec.pair, Codec.u8, Codec.i64, Codec.ofWord,
      Codec.string, Codec.vecU8_write _ hauth, Codec.vecU8_write _ hclient,
      Codec.vecU8_write _ hpolicy, Option.bind_eq_bind, Option.bind_some, borshBytes]
    simp [leBytes]

end Trana.Sdk
