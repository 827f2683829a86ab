import Trana.Lib.ByteCodec

/-!
# Reading bytes by offset

JavaScript's buffers, for a reader that walks through them: an `ArrayBuffer`, a
window of one (`Buffer`, `Uint8Array`), a `DataView` of either. A read out of
range throws, a slice out of range is cut off.

A window matters where a reader goes by the buffer behind it: node's small
buffers share one pool, so a `DataView` made from `data.buffer` without the
window's own offset reads somewhere else altogether. The model keeps the pool,
and a reader that forgets the offset reads the wrong bytes here too.

* `At` — these bytes stand at this offset: what a format says about its image.
  Claims about a reader are reduced to it, so that the layout is described once
  (`at_append`) and every field read from there.
* `byteAt` — the one byte at an offset; `at_of_byteAt` puts bytes together again.
* `getUint_at`, `sliceBytes_at` — what a read finds there.
* `Window.at_buffer` — what stands in a window stands in its buffer, further on.

Offsets are natural numbers. JavaScript converts any number to an index first;
the readers modelled here only use sums of lengths.
-/

namespace Trana.Lib

/-- What a read out of range throws. -/
inductive RangeError where
  | outOfBounds
  deriving DecidableEq, Repr

/-- A reader that may run out of range. -/
abbrev Throws (α : Type) := Except RangeError α

/-- Nothing was thrown along a sequence. -/
theorem bind_eq_ok {ε α β : Type} {x : Except ε α} {f : α → Except ε β} {b : β} :
    (x >>= f) = .ok b ↔ ∃ a, x = .ok a ∧ f a = .ok b := by
  cases x with
  | ok a => exact ⟨fun h => ⟨a, rfl, h⟩, fun ⟨_, ha, hb⟩ => by cases ha; exact hb⟩
  | error e => exact ⟨fun h => (nomatch h), fun ⟨_, ha, _⟩ => (nomatch ha)⟩

/-! ## What stands at an offset -/

/-- At offset `off` of `bs` stand the bytes `sub`. -/
def At (bs : Bytes) (off : Nat) (sub : Bytes) : Prop := (bs.drop off).take sub.length = sub

instance (bs : Bytes) (off : Nat) (sub : Bytes) : Decidable (At bs off sub) :=
  inferInstanceAs (Decidable (_ = _))

section At

variable {bs sub a b : Bytes} {off : Nat}

/-- Bytes behind each other stand at offsets behind each other. -/
theorem at_append : At bs off (a ++ b) ↔ At bs off a ∧ At bs (off + a.length) b := by
  have hsplit : (bs.drop off).take (a ++ b).length =
      (bs.drop off).take a.length ++ (bs.drop (off + a.length)).take b.length := by
    rw [List.length_append, List.take_add, List.drop_drop]
  unfold At
  rw [hsplit]
  constructor
  · intro h
    have hlen : ((bs.drop off).take a.length).length = a.length := by
      have hboth := congrArg List.length h
      simp only [List.length_append, List.length_take] at hboth ⊢
      omega
    exact List.append_inj h hlen
  · rintro ⟨ha, hb⟩
    rw [ha, hb]

/-- What an image starts with stands at its offset zero. -/
theorem at_prefix (front rest : Bytes) : At (front ++ rest) 0 front := List.take_left

/-- What stands somewhere is in range. -/
theorem At.le_length (h : At bs off sub) (hpos : 0 < sub.length) :
    off + sub.length ≤ bs.length := by
  have hlen := congrArg List.length h
  rw [List.length_take, List.length_drop] at hlen
  omega

/-- Of one length only one byte string stands at an offset. -/
theorem At.unique (h : At bs off a) (h' : At bs off b) (hlen : a.length = b.length) : a = b := by
  unfold At at h h'
  rw [← h, ← h', hlen]

/-- The bytes of what stands there, one by one. -/
theorem At.getElem? {i : Nat} (h : At bs off sub) (hi : i < sub.length) :
    bs[off + i]? = sub[i]? := by
  have hread : ((bs.drop off).take sub.length)[i]? = sub[i]? := by rw [h]
  rwa [List.getElem?_take_of_lt hi, List.getElem?_drop] at hread

/-- The byte at an offset, zero behind the end. -/
def byteAt (bs : Bytes) (i : Nat) : Nat := (bs[i]?.getD 0).toNat

/-- The same, as a reader of single bytes sees it. -/
theorem At.byteAt {i : Nat} (h : At bs off sub) (hi : i < sub.length) :
    byteAt bs (off + i) = byteAt sub i := by
  unfold Lib.byteAt
  rw [h.getElem? hi]

/-- Bytes that agree one by one stand there together. -/
theorem at_of_byteAt (hle : off + sub.length ≤ bs.length)
    (h : ∀ i < sub.length, byteAt bs (off + i) = byteAt sub i) : At bs off sub := by
  unfold At
  refine List.ext_getElem (by rw [List.length_take, List.length_drop]; omega) fun i hi hi' => ?_
  have hbyte := h i hi'
  unfold byteAt at hbyte
  rw [List.getElem?_eq_getElem (by omega), List.getElem?_eq_getElem hi', Option.getD_some,
    Option.getD_some] at hbyte
  rw [List.getElem_take, List.getElem_drop]
  exact UInt8.toNat_inj.mp hbyte

/-- A little-endian number byte by byte. -/
theorem byteAt_leBytes {w n i : Nat} (hi : i < w) :
    byteAt (leBytes w n) i = n / 256 ^ i % 256 := by
  induction w generalizing n i with
  | zero => omega
  | succ w ih =>
    cases i with
    | zero =>
      show (UInt8.ofNat n).toNat = _
      rw [UInt8.toNat_ofNat', Nat.pow_zero, Nat.div_one]
    | succ i =>
      show byteAt (leBytes w (n / 256)) i = _
      rw [ih (by omega), Nat.div_div_eq_div_mul, ← Nat.pow_succ']

/-- A number below 256 is its first byte, and zeros. -/
theorem byteAt_leBytes_of_lt {w n i : Nat} (hn : n < 256) (hi : i + 1 < w) :
    byteAt (leBytes w n) 0 = n ∧ byteAt (leBytes w n) (i + 1) = 0 := by
  rw [byteAt_leBytes (by omega), byteAt_leBytes hi]
  constructor
  · rw [Nat.pow_zero, Nat.div_one, Nat.mod_eq_of_lt hn]
  · have hpow : 256 ≤ 256 ^ (i + 1) := Nat.le_self_pow (by omega) 256
    rw [Nat.div_eq_of_lt (by omega)]

end At

/-! ## Reads -/

/-- `view.getUintN(offset, true)`, little endian. -/
def getUint (w : Nat) (view : Bytes) (offset : Nat) : Throws Nat :=
  if offset + w ≤ view.length then .ok (leNat ((view.drop offset).take w))
  else .error .outOfBounds

/-- `view.getUint32(offset, true)` -/
def getUint32 : Bytes → Nat → Throws Nat := getUint 4

/-- `view.getBigUint64(offset, true)` -/
def getBigUint64 : Bytes → Nat → Throws Nat := getUint 8

/-- `data.slice(start, stop)` -/
def sliceBytes (data : Bytes) (start stop : Nat) : Bytes := (data.take stop).drop start

section Reads

variable {view : Bytes} {w n offset : Nat}

/-- A read succeeds exactly in range, and returns the number that is spelt there. -/
theorem getUint_eq_ok : getUint w view offset = .ok n ↔
    offset + w ≤ view.length ∧ leNat ((view.drop offset).take w) = n := by
  unfold getUint
  split
  next hle => simp [hle]
  next hgt => simp [hgt]

/-- A number that stands there is read. -/
theorem getUint_at (h : At view offset (leBytes w n)) (hw : 0 < w) (hn : n < 256 ^ w) :
    getUint w view offset = .ok n := by
  have hlen : (leBytes w n).length = w := length_leBytes w n
  have hle := h.le_length (hlen.symm ▸ hw)
  unfold At at h
  rw [hlen] at h hle
  rw [getUint_eq_ok, h]
  exact ⟨hle, leNat_leBytes_of_lt hn⟩

/-- What was read stands there. -/
theorem at_of_getUint (h : getUint w view offset = .ok n) :
    At view offset (leBytes w n) ∧ n < 256 ^ w := by
  obtain ⟨hle, rfl⟩ := getUint_eq_ok.mp h
  have hlen : ((view.drop offset).take w).length = w := by
    rw [List.length_take, List.length_drop]
    omega
  have hbytes := leBytes_leNat ((view.drop offset).take w)
  have hlt := leNat_lt ((view.drop offset).take w)
  rw [hlen] at hbytes hlt
  refine ⟨?_, hlt⟩
  rw [hbytes]
  unfold At
  rw [hlen]

/-- Bytes that stand there are cut out. -/
theorem sliceBytes_at {sub : Bytes} (h : At view offset sub) :
    sliceBytes view offset (offset + sub.length) = sub := by
  unfold sliceBytes
  rw [List.drop_take, Nat.add_sub_cancel_left]
  exact h

/-- A slice in range is not cut off. -/
theorem at_sliceBytes (h : offset + n ≤ view.length) :
    At view offset (sliceBytes view offset (offset + n)) ∧
      (sliceBytes view offset (offset + n)).length = n := by
  have heq : sliceBytes view offset (offset + n) = (view.drop offset).take n := by
    unfold sliceBytes
    rw [List.drop_take, Nat.add_sub_cancel_left]
  have hlen : ((view.drop offset).take n).length = n := by
    rw [List.length_take, List.length_drop]
    omega
  rw [heq]
  refine ⟨?_, hlen⟩
  unfold At
  rw [hlen]

end Reads

/-! ## Windows -/

/-- A `Buffer`: `length` bytes of an `ArrayBuffer`, from `byteOffset` on. -/
structure Window where
  buffer : Bytes
  byteOffset : Nat
  length : Nat
  fits : byteOffset + length ≤ buffer.length

namespace Window

variable {b : Window} {off : Nat} {sub : Bytes}

/-- The bytes a window shows. -/
def bytes (b : Window) : Bytes := (b.buffer.drop b.byteOffset).take b.length

@[simp] theorem length_bytes : b.bytes.length = b.length := by
  rw [bytes, List.length_take, List.length_drop, Nat.min_eq_left]
  have hfits := b.fits
  omega

/-- A buffer that is all of its `ArrayBuffer`. -/
def whole (data : Bytes) : Window := ⟨data, 0, data.length, by rw [Nat.zero_add]⟩

@[simp] theorem bytes_whole (data : Bytes) : (whole data).bytes = data := List.take_length

/-- What stands in the window stands in the buffer behind it, further on by the
window's own offset. -/
theorem at_buffer (h : At b.bytes off sub) (hpos : 0 < sub.length) :
    At b.buffer (b.byteOffset + off) sub := by
  have hle := h.le_length hpos
  rw [length_bytes] at hle
  unfold At bytes at h
  rwa [List.drop_take, List.take_take, Nat.min_eq_left (by omega), List.drop_drop] at h

end Window

/-- `new DataView(buffer, byteOffset, byteLength)` -/
def dataView (buffer : Bytes) (byteOffset byteLength : Nat) : Throws Bytes :=
  if byteOffset + byteLength ≤ buffer.length then
    .ok ((buffer.drop byteOffset).take byteLength)
  else .error .outOfBounds

/-- A view of just the bytes to read reads them off the buffer. -/
theorem dataView_getUint {buffer : Bytes} {byteOffset w : Nat} :
    (dataView buffer byteOffset w >>= fun view => getUint w view 0) =
      getUint w buffer byteOffset := by
  unfold dataView
  by_cases hle : byteOffset + w ≤ buffer.length
  · have hlen : ((buffer.drop byteOffset).take w).length = w := by
      rw [List.length_take, List.length_drop]
      omega
    rw [if_pos hle]
    show getUint w ((buffer.drop byteOffset).take w) 0 = _
    unfold getUint
    rw [if_pos (by omega), if_pos hle, List.drop_zero, List.take_take, Nat.min_self]
  · rw [if_neg hle, getUint, if_neg hle]
    rfl

/-- `new DataView(buffer, byteOffset)`, up to the end of the buffer. -/
def dataViewFrom (buffer : Bytes) (byteOffset : Nat) : Throws Bytes :=
  if byteOffset ≤ buffer.length then .ok (buffer.drop byteOffset) else .error .outOfBounds

/-- Such a view has a window's bytes at their offsets in the window. -/
theorem Window.at_view {b : Window} {off : Nat} {sub : Bytes} (h : At b.bytes off sub)
    (hpos : 0 < sub.length) :
    ∃ view, dataViewFrom b.buffer b.byteOffset = .ok view ∧ At view off sub := by
  have hfits := b.fits
  refine ⟨b.buffer.drop b.byteOffset, if_pos (by omega), ?_⟩
  have hbuffer := Window.at_buffer h hpos
  unfold At at hbuffer ⊢
  rwa [List.drop_drop]

end Trana.Lib
