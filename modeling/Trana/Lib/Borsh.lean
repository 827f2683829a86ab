import Trana.Lib.ByteCodec

/-!
# Borsh

The binary format of the programs' instruction arguments and accounts, as
lawful codecs. A `Codec α` carries its writer, its reader and the two laws
every use of the format relies on:

* `read_write` — a written value reads back from the front of any input that
  starts with it, and what follows is left alone;
* `write_read` — conversely, whatever a reader consumed is what the writer
  produces for the value, so decode-then-encode is the identity on the
  consumed prefix.

Writers are partial because a length travels as a `u32`. Readers accept
trailing bytes, as `deserialize` does; `Codec.fromSlice` is `try_from_slice`,
which refuses them.

The laws make the format canonical: no two byte strings decode to one value, so
a program that accepts some bytes accepts the encoding of what it read. They are
fields of the structure, hence proved once for each combinator (`pair`, `vec`,
`map`, `enum`, `tagged`) and never again for a type built from them; a record of
the source is a `map` of nested pairs in the order of its fields.

A reader here does not bound what it allocates. Borsh reads a vector item by
item and fails at the end of the input, so a length that is a lie is an error
there as it is here.
-/

namespace Trana.Lib

/-- A Borsh type: writer, reader and their agreement. -/
structure Codec (α : Type) where
  write : α → Option Bytes
  read : Bytes → Option (α × Bytes)
  read_write : ∀ {a bs}, write a = some bs → ∀ r, read (bs ++ r) = some (a, r)
  write_read : ∀ {bs a r}, read bs = some (a, r) → ∃ pre, write a = some pre ∧ bs = pre ++ r

namespace Codec

variable {α β : Type}

/-- `try_from_slice`: the whole input is one value. -/
def fromSlice (c : Codec α) (bs : Bytes) : Option α :=
  match c.read bs with
  | some (a, []) => some a
  | _ => none

/-- `try_from_slice` accepts a value's encoding and nothing else. -/
theorem fromSlice_eq_some_iff (c : Codec α) {bs : Bytes} {a : α} :
    c.fromSlice bs = some a ↔ c.write a = some bs := by
  unfold fromSlice
  constructor
  · intro h
    split at h
    next a' hread =>
      obtain ⟨pre, hpre, rfl⟩ := c.write_read hread
      rw [← Option.some.inj h, hpre, List.append_nil]
    next => nomatch h
  · intro h
    have hread := c.read_write h []
    rw [List.append_nil] at hread
    rw [hread]

/-- Split off the first `n` bytes, when there are that many. -/
def take? (n : Nat) (bs : Bytes) : Option (Bytes × Bytes) :=
  if n ≤ bs.length then some (bs.take n, bs.drop n) else none

/-- A prefix is taken off in front of any rest. -/
theorem take?_append (pre r : Bytes) : take? pre.length (pre ++ r) = some (pre, r) := by
  simp [take?]

/-- What was taken off stood there. -/
theorem take?_eq_some {n : Nat} {bs pre r : Bytes} (h : take? n bs = some (pre, r)) :
    pre.length = n ∧ bs = pre ++ r := by
  unfold take? at h
  split at h
  next hle =>
    simp only [Option.some.injEq, Prod.mk.injEq] at h
    obtain ⟨rfl, rfl⟩ := h
    exact ⟨by simp [hle], (List.take_append_drop n bs).symm⟩
  next => nomatch h

/-- A `w`-byte little-endian word, seen as a number through `toNat`/`ofNat`. -/
def ofWord (w : Nat) (toNat : α → Nat) (ofNat : Nat → α) (hlt : ∀ a, toNat a < 256 ^ w)
    (hof : ∀ a, ofNat (toNat a) = a) (hto : ∀ n, n < 256 ^ w → toNat (ofNat n) = n) :
    Codec α where
  write a := some (leBytes w (toNat a))
  read bs := (take? w bs).map fun p => (ofNat (leNat p.1), p.2)
  read_write {a bs} h r := by
    obtain rfl := Option.some.inj h
    have := take?_append (leBytes w (toNat a)) r
    rw [length_leBytes] at this
    rw [this, Option.map_some, leNat_leBytes_of_lt (hlt a), hof]
  write_read {bs a r} h := by
    obtain ⟨⟨pre, rest⟩, htake, heq⟩ := Option.map_eq_some_iff.mp h
    obtain ⟨hlen, rfl⟩ := take?_eq_some htake
    simp only [Prod.mk.injEq] at heq
    obtain ⟨rfl, rfl⟩ := heq
    refine ⟨pre, ?_, rfl⟩
    have hfit : leNat pre < 256 ^ w := hlen ▸ leNat_lt pre
    rw [hto _ hfit, ← hlen, leBytes_leNat]

/-- One byte. -/
def u8 : Codec UInt8 :=
  ofWord 1 UInt8.toNat UInt8.ofNat (fun a => a.toNat_lt) (fun _ => UInt8.ofNat_toNat)
    (fun _ h => UInt8.toNat_ofNat_of_lt' h)

/-- Eight bytes, little-endian. -/
def u64 : Codec UInt64 :=
  ofWord 8 UInt64.toNat UInt64.ofNat (fun a => a.toNat_lt) (fun _ => UInt64.ofNat_toNat)
    (fun _ h => UInt64.toNat_ofNat_of_lt' h)

/-- Two's complement, as `i64::to_le_bytes` stores it. -/
def i64 : Codec Int64 :=
  ofWord 8 (fun a => a.toUInt64.toNat) (fun n => (UInt64.ofNat n).toInt64)
    (fun a => a.toUInt64.toNat_lt) (fun a => by simp)
    (fun _ h => by simpa using UInt64.toNat_ofNat_of_lt' h)

/-- The same bytes for a type in one-to-one correspondence. -/
def map (c : Codec α) (f : α → β) (g : β → α) (hfg : ∀ b, f (g b) = b)
    (hgf : ∀ a, g (f a) = a) : Codec β where
  write b := c.write (g b)
  read bs := (c.read bs).map fun p => (f p.1, p.2)
  read_write {b bs} h r := by rw [c.read_write h r, Option.map_some, hfg]
  write_read {bs b r} h := by
    obtain ⟨⟨a, rest⟩, hread, heq⟩ := Option.map_eq_some_iff.mp h
    simp only [Prod.mk.injEq] at heq
    obtain ⟨rfl, rfl⟩ := heq
    obtain ⟨pre, hpre, hbs⟩ := c.write_read hread
    exact ⟨pre, by rw [hgf]; exact hpre, hbs⟩

/-- One field after another. -/
def pair (c : Codec α) (d : Codec β) : Codec (α × β) where
  write p := do
    let x ← c.write p.1
    let y ← d.write p.2
    some (x ++ y)
  read bs := do
    let (a, rest) ← c.read bs
    let (b, rest) ← d.read rest
    some ((a, b), rest)
  read_write {p bs} h r := by
    obtain ⟨x, hx, h⟩ := Option.bind_eq_some_iff.mp h
    obtain ⟨y, hy, h⟩ := Option.bind_eq_some_iff.mp h
    obtain rfl := Option.some.inj h
    simp [List.append_assoc, c.read_write hx, d.read_write hy]
  write_read {bs p r} h := by
    obtain ⟨⟨a, rest⟩, ha, h⟩ := Option.bind_eq_some_iff.mp h
    obtain ⟨⟨b, rest'⟩, hb, h⟩ := Option.bind_eq_some_iff.mp h
    simp only [Option.some.injEq, Prod.mk.injEq] at h
    obtain ⟨rfl, rfl⟩ := h
    obtain ⟨x, hx, rfl⟩ := c.write_read ha
    obtain ⟨y, hy, rfl⟩ := d.write_read hb
    exact ⟨x ++ y, by simp [hx, hy], by rw [List.append_assoc]⟩

/-- A pair is written when both parts are, one behind the other. -/
theorem pair_write_eq_some {c : Codec α} {d : Codec β} {p : α × β} {bs : Bytes} :
    (c.pair d).write p = some bs ↔
      ∃ x y, c.write p.1 = some x ∧ d.write p.2 = some y ∧ bs = x ++ y := by
  constructor
  · intro h
    obtain ⟨x, hx, h⟩ := Option.bind_eq_some_iff.mp h
    obtain ⟨y, hy, h⟩ := Option.bind_eq_some_iff.mp h
    exact ⟨x, y, hx, hy, (Option.some.inj h).symm⟩
  · intro hex
    obtain ⟨x, y, hx, hy, rfl⟩ := hex
    exact Option.bind_eq_some_iff.mpr ⟨x, hx, Option.bind_eq_some_iff.mpr ⟨y, hy, rfl⟩⟩

/-- A reader accepts what the writer produces, and whatever follows it. -/
theorem read_eq_some_iff (c : Codec α) {bs r : Bytes} {a : α} :
    c.read bs = some (a, r) ↔ ∃ front, c.write a = some front ∧ bs = front ++ r := by
  constructor
  · exact fun h => c.write_read h
  · rintro ⟨front, hwrite, rfl⟩
    exact c.read_write hwrite r

/-- A fixed tag in front of a value. -/
def tagged (tag : Bytes) (c : Codec α) : Codec α where
  write a := (c.write a).map (tag ++ ·)
  read bs := if bs.take tag.length = tag then c.read (bs.drop tag.length) else none
  read_write {a bs} h r := by
    obtain ⟨body, hbody, rfl⟩ := Option.map_eq_some_iff.mp h
    rw [List.append_assoc, List.take_left, List.drop_left, if_pos rfl]
    exact c.read_write hbody r
  write_read {bs a r} h := by
    split at h
    next htag =>
      obtain ⟨body, hbody, hrest⟩ := c.write_read h
      refine ⟨tag ++ body, by rw [hbody, Option.map_some], ?_⟩
      rw [List.append_assoc, ← hrest]
      have hsplit := List.take_append_drop tag.length bs
      rw [htag] at hsplit
      exact hsplit.symm
    next => nomatch h

/-- A field-less enum: one tag byte. -/
def enum (toTag : α → UInt8) (ofTag : UInt8 → Option α) (hof : ∀ a, ofTag (toTag a) = some a)
    (hto : ∀ t a, ofTag t = some a → toTag a = t) : Codec α where
  write a := some [toTag a]
  read
    | [] => none
    | t :: rest => (ofTag t).map fun a => (a, rest)
  read_write {a bs} h r := by
    obtain rfl := Option.some.inj h
    simp [hof]
  write_read {bs a r} h := by
    cases bs with
    | nil => nomatch h
    | cons t rest =>
      obtain ⟨a', ha', heq⟩ := Option.map_eq_some_iff.mp h
      simp only [Prod.mk.injEq] at heq
      obtain ⟨rfl, rfl⟩ := heq
      exact ⟨[t], by rw [hto t a' ha'], rfl⟩

/-- A fixed-size byte array. -/
def bytesN (n : Nat) : Codec { bs : Bytes // bs.length = n } where
  write a := some a.1
  read bs := if h : n ≤ bs.length then some (⟨bs.take n, by simp [h]⟩, bs.drop n) else none
  read_write {a bs} h r := by
    obtain rfl := Option.some.inj h
    obtain ⟨bs, rfl⟩ := a
    simp
  write_read {bs a r} h := by
    split at h
    next =>
      simp only [Option.some.injEq, Prod.mk.injEq] at h
      obtain ⟨rfl, rfl⟩ := h
      exact ⟨_, rfl, (List.take_append_drop n bs).symm⟩
    next => nomatch h

/-- The `u32` length in front of a vector or string. -/
def writeLen (n : Nat) : Option Bytes := if n < 256 ^ 4 then some (leBytes 4 n) else none

/-- A length, in front of what it counts. -/
def readLen (bs : Bytes) : Option (Nat × Bytes) :=
  (take? 4 bs).map fun p => (leNat p.1, p.2)

theorem writeLen_of_lt {n : Nat} (h : n < 256 ^ 4) : writeLen n = some (leBytes 4 n) := if_pos h

/-- A written length reads back. -/
theorem readLen_writeLen {n : Nat} {bs : Bytes} (h : writeLen n = some bs) (r : Bytes) :
    readLen (bs ++ r) = some (n, r) := by
  unfold writeLen at h
  split at h
  next hlt =>
    obtain rfl := Option.some.inj h
    have := take?_append (leBytes 4 n) r
    rw [length_leBytes] at this
    rw [readLen, this, Option.map_some, leNat_leBytes_of_lt hlt]
  next => nomatch h

/-- What was read as a length is what writing it produces. -/
theorem writeLen_readLen {n : Nat} {bs r : Bytes} (h : readLen bs = some (n, r)) :
    ∃ pre, writeLen n = some pre ∧ bs = pre ++ r := by
  obtain ⟨⟨pre, rest⟩, htake, heq⟩ := Option.map_eq_some_iff.mp h
  obtain ⟨hlen, rfl⟩ := take?_eq_some htake
  simp only [Prod.mk.injEq] at heq
  obtain ⟨rfl, rfl⟩ := heq
  refine ⟨pre, ?_, rfl⟩
  have hfit : leNat pre < 256 ^ 4 := hlen ▸ leNat_lt pre
  rw [writeLen_of_lt hfit, ← hlen, leBytes_leNat]

/-- `Vec<u8>`. -/
def vecU8 : Codec Bytes where
  write a := (writeLen a.length).map (· ++ a)
  read bs := do
    let (n, rest) ← readLen bs
    take? n rest
  read_write {a bs} h r := by
    obtain ⟨len, hlen, rfl⟩ := Option.map_eq_some_iff.mp h
    simp [List.append_assoc, readLen_writeLen hlen, take?_append]
  write_read {bs a r} h := by
    obtain ⟨⟨n, rest⟩, hlen, h⟩ := Option.bind_eq_some_iff.mp h
    obtain ⟨hn, rfl⟩ := take?_eq_some h
    obtain ⟨pre, hpre, rfl⟩ := writeLen_readLen hlen
    exact ⟨pre ++ a, by rw [hn, hpre, Option.map_some], by rw [List.append_assoc]⟩

theorem vecU8_write (a : Bytes) (h : a.length < 256 ^ 4) :
    vecU8.write a = some (lenPrefixed 4 a) := by
  simp [vecU8, writeLen_of_lt h, lenPrefixed]

/-- The bytes of a `Vec<u8>` are its length and its contents. -/
theorem vecU8_write_eq_some {a bs : Bytes} :
    vecU8.write a = some bs ↔ a.length < 256 ^ 4 ∧ bs = lenPrefixed 4 a := by
  by_cases hlt : a.length < 256 ^ 4
  · rw [vecU8_write a hlt, Option.some.injEq]
    exact ⟨fun h => ⟨hlt, h.symm⟩, fun h => h.2.symm⟩
  · have hnone : vecU8.write a = none := by
      unfold vecU8 writeLen
      dsimp only
      rw [if_neg hlt, Option.map_none]
    rw [hnone]
    exact ⟨fun h => (Option.some_ne_none _ h.symm).elim, fun h => absurd h.1 hlt⟩

/-- `count` values back to back. -/
def readMany (c : Codec α) : Nat → Bytes → Option (List α × Bytes)
  | 0, bs => some ([], bs)
  | n + 1, bs => do
    let (a, rest) ← c.read bs
    let (as, rest) ← readMany c n rest
    some (a :: as, rest)

/-- The items behind each other, when every one of them can be written. -/
def writeMany (c : Codec α) : List α → Option Bytes
  | [] => some []
  | a :: as => do
    let x ← c.write a
    let y ← writeMany c as
    some (x ++ y)

/-- As many items as were written read back, by induction on the items. -/
theorem readMany_writeMany (c : Codec α) {as : List α} {bs : Bytes}
    (h : writeMany c as = some bs) (r : Bytes) :
    readMany c as.length (bs ++ r) = some (as, r) := by
  induction as generalizing bs with
  | nil =>
    obtain rfl := Option.some.inj h
    rfl
  | cons a as ih =>
    obtain ⟨x, hx, h⟩ := Option.bind_eq_some_iff.mp h
    obtain ⟨y, hy, h⟩ := Option.bind_eq_some_iff.mp h
    obtain rfl := Option.some.inj h
    simp [readMany, List.append_assoc, c.read_write hx, ih hy]

/-- And what was read is written the same way, by induction on their number. -/
theorem writeMany_readMany (c : Codec α) {n : Nat} {bs r : Bytes} {as : List α}
    (h : readMany c n bs = some (as, r)) :
    as.length = n ∧ ∃ pre, writeMany c as = some pre ∧ bs = pre ++ r := by
  induction n generalizing bs as with
  | zero =>
    simp only [readMany, Option.some.injEq, Prod.mk.injEq] at h
    obtain ⟨rfl, rfl⟩ := h
    exact ⟨rfl, [], rfl, rfl⟩
  | succ n ih =>
    obtain ⟨⟨a, rest⟩, ha, h⟩ := Option.bind_eq_some_iff.mp h
    obtain ⟨⟨as', rest'⟩, has, h⟩ := Option.bind_eq_some_iff.mp h
    simp only [Option.some.injEq, Prod.mk.injEq] at h
    obtain ⟨rfl, rfl⟩ := h
    obtain ⟨x, hx, rfl⟩ := c.write_read ha
    obtain ⟨hlen, y, hy, rfl⟩ := ih has
    exact ⟨by simp [hlen], x ++ y, by simp [writeMany, hx, hy], by rw [List.append_assoc]⟩

/-- `Vec<T>`. -/
def vec (c : Codec α) : Codec (List α) where
  write as := do
    let len ← writeLen as.length
    let body ← writeMany c as
    some (len ++ body)
  read bs := do
    let (n, rest) ← readLen bs
    readMany c n rest
  read_write {as bs} h r := by
    obtain ⟨len, hlen, h⟩ := Option.bind_eq_some_iff.mp h
    obtain ⟨body, hbody, h⟩ := Option.bind_eq_some_iff.mp h
    obtain rfl := Option.some.inj h
    simp [List.append_assoc, readLen_writeLen hlen, readMany_writeMany c hbody]
  write_read {bs as r} h := by
    obtain ⟨⟨n, rest⟩, hlen, h⟩ := Option.bind_eq_some_iff.mp h
    obtain ⟨hn, body, hbody, rfl⟩ := writeMany_readMany c h
    obtain ⟨pre, hpre, rfl⟩ := writeLen_readLen hlen
    exact ⟨pre ++ body, by simp [hn, hpre, hbody], by rw [List.append_assoc]⟩

/-- Each value is written, and what they are written as stands back to back. -/
theorem writeMany_eq_some {c : Codec α} {enc : α → Bytes} {p : α → Prop}
    (hc : ∀ {a x}, c.write a = some x → p a ∧ x = enc a) {as : List α} {bs : Bytes}
    (h : writeMany c as = some bs) : (∀ a ∈ as, p a) ∧ bs = as.flatMap enc := by
  induction as generalizing bs with
  | nil =>
    obtain rfl := Option.some.inj h
    exact ⟨fun a ha => absurd ha List.not_mem_nil, rfl⟩
  | cons a as ih =>
    obtain ⟨x, hx, h⟩ := Option.bind_eq_some_iff.mp h
    obtain ⟨y, hy, h⟩ := Option.bind_eq_some_iff.mp h
    obtain rfl := Option.some.inj h
    obtain ⟨ha, rfl⟩ := hc hx
    obtain ⟨has, rfl⟩ := ih hy
    exact ⟨List.forall_mem_cons.mpr ⟨ha, has⟩, rfl⟩

/-- The bytes of a `Vec` are its length and its items. -/
theorem vec_write_eq_some {c : Codec α} {as : List α} {bs : Bytes}
    (h : (vec c).write as = some bs) :
    as.length < 256 ^ 4 ∧
      ∃ body, writeMany c as = some body ∧ bs = leBytes 4 as.length ++ body := by
  obtain ⟨len, hlen, h⟩ := Option.bind_eq_some_iff.mp h
  obtain ⟨body, hbody, h⟩ := Option.bind_eq_some_iff.mp h
  obtain rfl := Option.some.inj h
  unfold writeLen at hlen
  split at hlen
  next hlt =>
    obtain rfl := Option.some.inj hlen
    exact ⟨hlt, body, hbody, rfl⟩
  next => nomatch hlen

/-- Values of at most `n` bytes each: at most `n` times their number. -/
theorem writeMany_length_le (c : Codec α) {n : Nat} {as : List α}
    (h : ∀ a ∈ as, ∃ x, c.write a = some x ∧ x.length ≤ n) :
    ∃ bs, writeMany c as = some bs ∧ bs.length ≤ n * as.length := by
  induction as with
  | nil => exact ⟨[], rfl, Nat.zero_le _⟩
  | cons a as ih =>
    obtain ⟨x, hx, hxle⟩ := h a (List.mem_cons_self ..)
    obtain ⟨y, hy, hyle⟩ := ih fun b hb => h b (List.mem_cons_of_mem _ hb)
    refine ⟨x ++ y, by simp [writeMany, hx, hy], ?_⟩
    rw [List.length_append, List.length_cons, Nat.mul_succ]
    omega

/-- A bound on the size of a vector, from one on the size of its items. -/
theorem vec_length_le (c : Codec α) {n : Nat} {as : List α} (hlen : as.length < 256 ^ 4)
    (h : ∀ a ∈ as, ∃ x, c.write a = some x ∧ x.length ≤ n) :
    ∃ bs, (vec c).write as = some bs ∧ bs.length ≤ 4 + n * as.length := by
  obtain ⟨body, hbody, hle⟩ := writeMany_length_le c h
  refine ⟨leBytes 4 as.length ++ body, by simp [vec, writeLen_of_lt hlen, hbody], ?_⟩
  rw [List.length_append, length_leBytes]
  omega

/-- The UTF-8 bytes of a string. -/
def utf8 (s : String) : Bytes := s.toByteArray.data.toList

/-- Two strings with the same bytes are the same string. -/
theorem utf8_inj {s t : String} (h : utf8 s = utf8 t) : s = t := by
  apply String.toByteArray_inj.mp
  apply ByteArray.ext
  exact Array.toList_inj.mp h

/-- The string a UTF-8 byte string spells. -/
def ofUtf8? (bs : Bytes) : Option String := String.fromUTF8? ⟨bs.toArray⟩

/-- A string's bytes are valid UTF-8 and spell it. -/
theorem ofUtf8?_utf8 (s : String) : ofUtf8? (utf8 s) = some s := by
  have harr : ByteArray.mk (utf8 s).toArray = s.toByteArray := by
    apply ByteArray.ext
    exact Array.toArray_toList
  rw [ofUtf8?, harr, String.fromUTF8?, dif_pos s.isValidUTF8]
  rfl

/-- Valid UTF-8 spells one string. -/
theorem utf8_ofUtf8? {bs : Bytes} {s : String} (h : ofUtf8? bs = some s) : utf8 s = bs := by
  unfold ofUtf8? String.fromUTF8? at h
  split at h
  next =>
    obtain rfl := Option.some.inj h
    simp [utf8, String.fromUTF8]
  next => nomatch h

/-- `String`: its UTF-8 bytes behind their length. -/
def string : Codec String where
  write s := vecU8.write (utf8 s)
  read bs := do
    let (b, rest) ← vecU8.read bs
    (ofUtf8? b).map fun s => (s, rest)
  read_write {s bs} h r := by
    simp [vecU8.read_write h r, ofUtf8?_utf8]
  write_read {bs s r} h := by
    obtain ⟨⟨b, rest⟩, hread, h⟩ := Option.bind_eq_some_iff.mp h
    obtain ⟨s', hs', heq⟩ := Option.map_eq_some_iff.mp h
    simp only [Prod.mk.injEq] at heq
    obtain ⟨rfl, rfl⟩ := heq
    rw [utf8_ofUtf8? hs']
    exact vecU8.write_read hread

end Codec

end Trana.Lib
