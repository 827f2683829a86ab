import Trana.Lib.BigEndian
import Trana.Lib.Loops
import Trana.Lib.Sha256

/-!
# SHA-256 by index

The definition's lists as an implementation with arrays has them: the words of a
block and the blocks of a message by their offsets, the schedule word by word
from the one before, the padded message as five parts.

An implementation keeps the schedule in an array of 64 words and counts up; the
definition has it newest word first. The lemmas here are about the definition
alone, so that a proof about an implementation compares loop with loop and meets
no reversed list.

* `words_eq`, `blocks_eq` — by offset.
* `extend_succ` — one more schedule word.
* `compress_eq` — the rounds, numbered.
* `pad_eq`, `length_pad` — what is behind the message.
-/

namespace Trana.Lib.Sha256

/-- Four bytes at an offset. -/
def wordAt (bs : Bytes) (off : Nat) : Word := BitVec.ofNat 32 (beNat ((bs.drop off).take 4))

/-- A block's words, by offset. -/
theorem words_eq {n : Nat} {bs : Bytes} (h : 4 * n ≤ bs.length) :
    words n bs = (List.range n).map fun i => wordAt bs (4 * i) := by
  induction n generalizing bs with
  | zero => rfl
  | succ n ih =>
    match bs, h with
    | a :: b :: c :: d :: rest, h =>
      have hhead : wordAt (a :: b :: c :: d :: rest) 0 =
          BitVec.ofNat 32 (((a.toNat * 256 + b.toNat) * 256 + c.toNat) * 256 + d.toNat) := by
        have hspell : beNat [a, b, c, d] =
            ((a.toNat * 256 + b.toNat) * 256 + c.toNat) * 256 + d.toNat := by
          show d.toNat + 256 * (c.toNat + 256 * (b.toNat + 256 * (a.toNat + 256 * 0))) = _
          omega
        rw [← hspell]
        rfl
      have hbehind : ∀ i, wordAt (a :: b :: c :: d :: rest) (4 * (i + 1)) = wordAt rest (4 * i) :=
        fun i => rfl
      simp only [List.length_cons] at h
      rw [words, ih (by omega), List.range_succ_eq_map, List.map_cons, List.map_map, hhead]
      exact congrArg _ (List.map_congr_left fun i _ => (hbehind i).symm)

/-- A message's blocks, by offset. -/
theorem blocks_eq (n : Nat) (bs : Bytes) :
    blocks n bs = (List.range n).map fun k => (bs.drop (64 * k)).take 64 := by
  induction n generalizing bs with
  | zero => rfl
  | succ n ih =>
    rw [blocks, ih, List.range_succ_eq_map, List.map_cons, List.map_map]
    refine congrArg _ (List.map_congr_left fun k _ => ?_)
    show ((bs.drop 64).drop (64 * k)).take 64 = (bs.drop (64 * (k + 1))).take 64
    rw [List.drop_drop, Nat.mul_succ, Nat.add_comm]

/-! ## The schedule -/

/-- The next schedule word. -/
def next (w : List Word) : Word :=
  smallSigma1 (w.getD 1 0) + w.getD 6 0 + smallSigma0 (w.getD 14 0) + w.getD 15 0

/-- One more word of the schedule, from the sixteen before it. -/
theorem extend_succ (n : Nat) (w : List Word) :
    extend (n + 1) w = next (extend n w) :: extend n w := by
  induction n generalizing w with
  | zero => rfl
  | succ n ih => rw [extend, ih, extend]

/-- The schedule has a word more for each step. -/
@[simp] theorem length_extend (n : Nat) (w : List Word) : (extend n w).length = n + w.length := by
  induction n with
  | zero => exact (Nat.zero_add _).symm
  | succ n ih =>
    rw [extend_succ, List.length_cons, ih]
    omega

/-- As many words as were asked for. -/
theorem length_words {n : Nat} {bs : Bytes} (h : 4 * n ≤ bs.length) : (words n bs).length = n := by
  rw [words_eq h, List.length_map, List.length_range]

/-- A block has a schedule of 64 words. -/
theorem length_schedule {block : Bytes} (h : block.length = 64) : (schedule block).length = 64 := by
  rw [schedule, List.length_reverse, length_extend, List.length_reverse, length_words (by omega)]

/-- Counted from the oldest instead of from the newest. -/
theorem getD_reverse {w : List Word} {i j : Nat} (h : i + j + 1 = w.length) :
    w.reverse.getD i 0 = w.getD j 0 := by
  have hj : w.length - 1 - i = j := by omega
  rw [List.getD_eq_getElem?_getD, List.getD_eq_getElem?_getD, List.getElem?_reverse (by omega), hj]

/-! ## Compression -/

/-- The rounds of a block, numbered as a loop has them. -/
theorem compress_eq {s : State} {block : Bytes} (h : block.length = 64) :
    compress s block =
      let r := (List.range 64).foldl
        (fun s i => round s (roundConstants.getD i 0, (schedule block).getD i 0)) s
      ⟨s.a + r.a, s.b + r.b, s.c + r.c, s.d + r.d, s.e + r.e, s.f + r.f, s.g + r.g, s.h + r.h⟩ := by
  rw [compress, zip_eq_map_range (n := 64) 0 0 rfl (length_schedule h), List.foldl_map]

/-! ## Padding -/

/-- How many zeros. -/
def padding (m : Bytes) : Nat := (119 - m.length % 64) % 64

/-- The padding fills the last block. -/
theorem length_padding (m : Bytes) :
    m.length + 1 + padding m + 8 = (m.length + 72) / 64 * 64 := by
  unfold padding
  omega

/-- Eight bytes are two times four. -/
theorem beBytes_split (n : Nat) :
    beBytes 8 n = beBytes 4 (n / 2 ^ 32) ++ beBytes 4 (n % 2 ^ 32) := by
  have hlow : leBytes 4 (n % 2 ^ 32) = leBytes 4 n := by
    have hround := leBytes_leNat (leBytes 4 n)
    rw [leNat_leBytes, length_leBytes] at hround
    exact hround
  have hsplit : leBytes 8 n = leBytes 4 n ++ leBytes 4 (n / 2 ^ 32) := by
    simp only [leBytes, Nat.div_div_eq_div_mul, List.cons_append, List.nil_append]
    rfl
  rw [beBytes, hsplit, List.reverse_append, ← hlow]
  rfl

/-- The padded message in five parts: the message, the bit `1`, zeros, and the two
halves of its length in bits. -/
theorem pad_eq (m : Bytes) : pad m =
    m ++ [0x80] ++ List.replicate (padding m) 0 ++ beBytes 4 (m.length * 8 / 2 ^ 32) ++
      beBytes 4 (m.length * 8 % 2 ^ 32) := by
  rw [List.append_assoc _ (beBytes 4 _), ← beBytes_split, pad]
  simp only [List.append_assoc, List.singleton_append]
  rfl

/-- It has whole blocks. -/
theorem length_pad (m : Bytes) : (pad m).length = (m.length + 72) / 64 * 64 := by
  rw [← length_padding, pad_eq]
  simp only [List.length_append, List.length_replicate, length_beBytes, List.length_cons,
    List.length_nil]

end Trana.Lib.Sha256
