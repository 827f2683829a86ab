import Trana.Lib.JsNumber
import Trana.Lib.Sha256Indexed
import Trana.Sdk.Buffers

/-!
# SDK: SHA-256

`core/sha256.ts`, and the same code in `utils.ts`: the compression loop on
numbers, with signed results of the bitwise operators, and two arrays of 32-bit
words that are reused from block to block.

* `rotr`, `extendWord`, `round`, `block`, `pureSha256` — the source, line by line,
  over `Trana.Lib.JsNumber`: `+` is rounded to 53 bits, `|`, `^`, `&` and `<<`
  give signed 32-bit results, `>>>` an unsigned one.
* `word_sigma0`, `word_ch`, … — each expression, in words of 32 bits.
* `extendWord_eq`, `round_eq` — one step of either loop, in words.
* `block_eq`, `blocks_run` — a block is one compression, whatever is left of the
  one before.
* `setLength_eq` — the message and what is written behind it.
* `pureSha256_eq` — the digest; `pureSha256_long` — and a length it throws at.

The padded length is computed with `& ~63`, whose result is a signed 32-bit
number; from a certain length on it is negative, and allocating the array
throws. The sums stay below 2^53 because a `Uint32Array` takes each of them back
to 32 bits.
-/

namespace Trana.Sdk

open Trana.Lib Trana.Lib.JsNumber Trana.Sdk.Js

namespace Core

/-- The round constants, as the source lists them. -/
def K : List Word := [
  0x428a2f98, 0x71374491, 0xb5c0fbcf, 0xe9b5dba5,
  0x3956c25b, 0x59f111f1, 0x923f82a4, 0xab1c5ed5,
  0xd807aa98, 0x12835b01, 0x243185be, 0x550c7dc3,
  0x72be5d74, 0x80deb1fe, 0x9bdc06a7, 0xc19bf174,
  0xe49b69c1, 0xefbe4786, 0x0fc19dc6, 0x240ca1cc,
  0x2de92c6f, 0x4a7484aa, 0x5cb0a9dc, 0x76f988da,
  0x983e5152, 0xa831c66d, 0xb00327c8, 0xbf597fc7,
  0xc6e00bf3, 0xd5a79147, 0x06ca6351, 0x14292967,
  0x27b70a85, 0x2e1b2138, 0x4d2c6dfc, 0x53380d13,
  0x650a7354, 0x766a0abb, 0x81c2c92e, 0x92722c85,
  0xa2bfe8a1, 0xa81a664b, 0xc24b8b70, 0xc76c51a3,
  0xd192e819, 0xd6990624, 0xf40e3585, 0x106aa070,
  0x19a4c116, 0x1e376c08, 0x2748774c, 0x34b0bcb5,
  0x391c0cb3, 0x4ed8aa4a, 0x5b9cca4f, 0x682e6ff3,
  0x748f82ee, 0x78a5636f, 0x84c87814, 0x8cc70208,
  0x90befffa, 0xa4506ceb, 0xbef9a3f7, 0xc67178f2]

/-- `(x >>> n) | (x << (32 - n))` -/
def rotr (x n : Int) : Int := bitOr (ushr x n) (shl x (sub 32 n))

/-- An element of a `Uint32Array`. -/
def entry (words : List Word) (i : Nat) : Int := num (words.getD i 0)

/-- `view.getUint32(offset, false)` -/
def getUint32BE (view : Bytes) (offset : Nat) : JsResult Int :=
  if offset + 4 ≤ view.length then .ok (num (Sha256.wordAt view offset)) else .error .rangeError

/-- `view.setUint32(offset, value, false)` -/
def setUint32BE (view : Bytes) (offset value : Int) : JsResult Bytes :=
  if offset < 0 then .error .rangeError
  else set view (beBytes 4 (word value).toNat) offset.toNat

/-- `W[i] = view.getUint32(offset + i * 4, false)` -/
def loadWord (view : Bytes) (offset : Nat) (W : List Word) (i : Nat) : JsResult (List Word) := do
  let x ← getUint32BE view (offset + i * 4)
  .ok (W.set i (word x))

/-- The body of the schedule's loop. -/
def extendWord (W : List Word) (i : Nat) : List Word :=
  let s0 := bitXor (bitXor (rotr (entry W (i - 15)) 7) (rotr (entry W (i - 15)) 18))
    (ushr (entry W (i - 15)) 3)
  let s1 := bitXor (bitXor (rotr (entry W (i - 2)) 17) (rotr (entry W (i - 2)) 19))
    (ushr (entry W (i - 2)) 10)
  W.set i (word (ushr (add (add (add (entry W (i - 16)) s0) (entry W (i - 7))) s1) 0))

/-- `a` to `h`. -/
structure Vars where
  (a b c d e f g h : Int)

/-- The body of the compression's loop. -/
def round (W : List Word) (v : Vars) (i : Nat) : Vars :=
  let S1 := bitXor (bitXor (rotr v.e 6) (rotr v.e 11)) (rotr v.e 25)
  let ch := bitXor (bitAnd v.e v.f) (bitAnd (bitNot v.e) v.g)
  let temp1 := ushr (add (add (add (add v.h S1) ch) (entry K i)) (entry W i)) 0
  let S0 := bitXor (bitXor (rotr v.a 2) (rotr v.a 13)) (rotr v.a 22)
  let maj := bitXor (bitXor (bitAnd v.a v.b) (bitAnd v.a v.c)) (bitAnd v.b v.c)
  let temp2 := ushr (add S0 maj) 0
  { h := v.g, g := v.f, f := v.e, e := ushr (add v.d temp1) 0
    d := v.c, c := v.b, b := v.a, a := ushr (add temp1 temp2) 0 }

/-- `H[i] = (H[i] + x) >>> 0` -/
def addTo (H : List Word) (i : Nat) (x : Int) : List Word :=
  H.set i (word (ushr (add (entry H i) x) 0))

/-- The two arrays. -/
structure Tables where
  H : List Word
  W : List Word

/-- The body of the loop over the blocks. -/
def block (view : Bytes) (t : Tables) (offset : Nat) : JsResult Tables := do
  let W ← (List.range 16).foldlM (loadWord view offset) t.W
  let W := (List.range' 16 48).foldl extendWord W
  let H := t.H
  let v := (List.range 64).foldl (round W)
    ⟨entry H 0, entry H 1, entry H 2, entry H 3, entry H 4, entry H 5, entry H 6, entry H 7⟩
  let H := addTo (addTo H 0 v.a) 1 v.b
  let H := addTo (addTo H 2 v.c) 3 v.d
  let H := addTo (addTo H 4 v.e) 5 v.f
  let H := addTo (addTo H 6 v.g) 7 v.h
  .ok ⟨H, W⟩

/-- `for (offset = 0; offset < length; offset += 64)` -/
def offsets (length : Nat) : List Nat := (List.range ((length + 63) / 64)).map (64 * ·)

/-- The function. -/
def pureSha256 (msg : Bytes) : JsResult Bytes := do
  let H : List Word := [
    0x6a09e667, 0xbb67ae85, 0x3c6ef372, 0xa54ff53a,
    0x510e527f, 0x9b05688c, 0x1f83d9ab, 0x5be0cd19]
  let length : Int := msg.length
  let bitLength := mul length 8
  let padLength := bitAnd (add (add length 9) 63) (bitNot 63)
  -- `new Uint8Array(padLength)` throws for a negative length
  orThrow (0 ≤ padLength) .rangeError
  let padded := zeros padLength.toNat
  let padded ← set padded msg 0
  let padded := padded.set msg.length 0x80
  let view ← setUint32BE padded (sub padLength 4) (ushr bitLength 0)
  -- the high word: a length in bits has more than 32 from half a gigabyte on
  let view ← setUint32BE view (sub padLength 8) (floorDiv bitLength 32)
  let W := List.replicate 64 0
  let t ← (offsets padLength.toNat).foldlM (block view) ⟨H, W⟩
  let result := zeros 32
  (List.range 8).foldlM (fun result i => setUint32BE result ((i * 4 : Nat) : Int) (entry t.H i))
    result

end Core

/-- The copy in `utils.ts`, the same line by line. -/
def Utils.pureSha256 : Bytes → JsResult Bytes := Core.pureSha256

open Sha256 (State smallSigma0 smallSigma1 bigSigma0 bigSigma1)

namespace Core

/-! ## Words -/

variable {w : Word} {W : List Word}

/-- An element is a 32-bit number, -/
theorem within_entry (W : List Word) (i : Nat) : Within 1 (entry W i) := within_num _

/-- and its word the element. -/
theorem word_entry (W : List Word) (i : Nat) : word (entry W i) = W.getD i 0 := word_num _

/-- A shift count below 32 is itself. -/
theorem word_count {n : Nat} (h : n < 32) : (word (n : Int)).toNat % 32 = n := by
  rw [word, BitVec.ofInt_natCast, BitVec.toNat_ofNat]
  omega

/-- The source's rotation rotates. -/
theorem word_rotr {n : Nat} (hpos : 0 < n) (h : n < 32) :
    word (rotr (num w) n) = w.rotateRight n := by
  have hsub : sub 32 n = ((32 - n : Nat) : Int) := sub_natCast (n := 32) (by omega) (by omega)
  rw [rotr, word_bitOr, word_ushr, word_num, hsub, word_shl, word_num, word_count h,
    word_count (by omega), BitVec.rotateRight_def, Nat.mod_eq_of_lt h]

/-- And `>>>` shifts. -/
theorem word_shift {n : Nat} (h : n < 32) : word (ushr (num w) n) = w >>> n := by
  rw [word_ushr, word_num, word_count h]

/-- Two rotations of a word and a third term, as in every sigma. -/
theorem word_rotations {m n : Nat} (hm : 0 < m ∧ m < 32) (hn : 0 < n ∧ n < 32) (w : Word)
    (z : Int) : word (bitXor (bitXor (rotr (num w) m) (rotr (num w) n)) z) =
      w.rotateRight m ^^^ w.rotateRight n ^^^ word z := by
  rw [word_bitXor, word_bitXor, word_rotr hm.1 hm.2, word_rotr hn.1 hn.2]

/-- The schedule's first sum, -/
theorem word_sigma0 (w : Word) :
    word (bitXor (bitXor (rotr (num w) 7) (rotr (num w) 18)) (ushr (num w) 3)) =
      smallSigma0 w := by
  have hterms := word_rotations (m := 7) (n := 18) (by omega) (by omega) w (ushr (num w) (3 : Nat))
  rw [word_shift (by omega)] at hterms
  exact hterms

/-- its second, -/
theorem word_sigma1 (w : Word) :
    word (bitXor (bitXor (rotr (num w) 17) (rotr (num w) 19)) (ushr (num w) 10)) =
      smallSigma1 w := by
  have hterms := word_rotations (m := 17) (n := 19) (by omega) (by omega) w
    (ushr (num w) (10 : Nat))
  rw [word_shift (by omega)] at hterms
  exact hterms

/-- and the two of a round. -/
theorem word_bigSigma1 (w : Word) :
    word (bitXor (bitXor (rotr (num w) 6) (rotr (num w) 11)) (rotr (num w) 25)) =
      bigSigma1 w := by
  have hterms := word_rotations (m := 6) (n := 11) (by omega) (by omega) w
    (rotr (num w) (25 : Nat))
  rw [word_rotr (by omega) (by omega)] at hterms
  exact hterms

/-- The second of these. -/
theorem word_bigSigma0 (w : Word) :
    word (bitXor (bitXor (rotr (num w) 2) (rotr (num w) 13)) (rotr (num w) 22)) =
      bigSigma0 w := by
  have hterms := word_rotations (m := 2) (n := 13) (by omega) (by omega) w
    (rotr (num w) (22 : Nat))
  rw [word_rotr (by omega) (by omega)] at hterms
  exact hterms

/-- What a bitwise operator gives is small. -/
theorem within_bitXor (x y : Int) : Within 1 (bitXor x y) := within_toInt _

/-! ## The schedule -/

/-- A word of the schedule. -/
theorem extendWord_eq (W : List Word) (i : Nat) : extendWord W i =
    W.set i (smallSigma1 (W.getD (i - 2) 0) + W.getD (i - 7) 0 + smallSigma0 (W.getD (i - 15) 0) +
      W.getD (i - 16) 0) := by
  have hs0 := within_bitXor (bitXor (rotr (entry W (i - 15)) 7) (rotr (entry W (i - 15)) 18))
    (ushr (entry W (i - 15)) 3)
  have hs1 := within_bitXor (bitXor (rotr (entry W (i - 2)) 17) (rotr (entry W (i - 2)) 19))
    (ushr (entry W (i - 2)) 10)
  -- four summands of 32 bits at most, so no sum is rounded
  have h16 := within_entry W (i - 16)
  have h7 := within_entry W (i - 7)
  have htwo := h16.add hs0 (by omega)
  have hthree := htwo.add h7 (by omega)
  unfold extendWord
  dsimp only
  rw [ushr_zero, word_num, word_add hthree hs1 (by omega), word_add htwo h7 (by omega),
    word_add h16 hs0 (by omega), word_entry, word_entry, entry, entry, word_sigma0, word_sigma1]
  congr 1
  ac_rfl

/-- The schedule grows by the definition's next word. -/
theorem extend_eq {ws rest : List Word} (hws : ws.length = 16) (hrest : rest.length = 48) :
    (List.range' 16 48).foldl extendWord (ws ++ rest) = (Sha256.extend 48 ws.reverse).reverse := by
  have hpart : ∀ n, n ≤ 48 → (List.range' 16 n).foldl extendWord (ws ++ rest) =
      (Sha256.extend n ws.reverse).reverse ++ rest.drop n := fun n hn => by
    induction n with
    | zero =>
      show ws ++ rest = ws.reverse.reverse ++ rest
      rw [List.reverse_reverse]
    | succ n ih =>
      have hlen : (Sha256.extend n ws.reverse).length = n + 16 := by
        rw [Sha256.length_extend, List.length_reverse, hws]
      have hread : ∀ i j, i + j + 1 = n + 16 →
          ((Sha256.extend n ws.reverse).reverse ++ rest.drop n).getD i 0 =
            (Sha256.extend n ws.reverse).getD j 0 := fun i j hij => by
        rw [List.getD_append _ _ _ _ (by rw [List.length_reverse, hlen]; omega),
          Sha256.getD_reverse (hij.trans hlen.symm)]
      have hdrop : rest.drop n = rest[n] :: rest.drop (n + 1) :=
        List.drop_eq_getElem_cons (by omega)
      -- the definition counts back from the newest word: W[t-2] is its entry 1
      rw [List.range'_concat, List.foldl_append, ih (by omega), List.foldl_cons, List.foldl_nil,
        extendWord_eq, hread _ 1 (by omega), hread _ 6 (by omega), hread _ 14 (by omega),
        hread _ 15 (by omega), ← Sha256.next, Sha256.extend_succ, List.reverse_cons, hdrop,
        List.set_append_right (h := by rw [List.length_reverse, hlen]; omega), List.length_reverse,
        hlen, show 16 + 1 * n - (n + 16) = 0 by omega, List.set_cons_zero, List.append_assoc]
      rfl
  have hall := hpart 48 (Nat.le_refl _)
  rwa [List.drop_eq_nil_of_le (by omega), List.append_nil] at hall

/-! ## The rounds -/

/-- The working variables as numbers. -/
def varsOf (s : State) : Vars :=
  ⟨num s.a, num s.b, num s.c, num s.d, num s.e, num s.f, num s.g, num s.h⟩

/-- Choice, -/
theorem word_ch (x y z : Word) :
    word (bitXor (bitAnd (num x) (num y)) (bitAnd (bitNot (num x)) (num z))) =
      Sha256.ch x y z := by
  rw [word_bitXor, word_bitAnd, word_bitAnd, word_bitNot, word_num, word_num, word_num, Sha256.ch]

/-- and majority. -/
theorem word_maj (x y z : Word) :
    word (bitXor (bitXor (bitAnd (num x) (num y)) (bitAnd (num x) (num z)))
      (bitAnd (num y) (num z))) = Sha256.maj x y z := by
  rw [word_bitXor, word_bitXor, word_bitAnd, word_bitAnd, word_bitAnd, word_num, word_num,
    word_num, Sha256.maj]

/-- The constants are the definition's. -/
theorem K_eq : K = Sha256.roundConstants := rfl

/-- `(x + y) >>> 0` of two words. -/
theorem ushr_add_num (x y : Word) : ushr (add (num x) (num y)) 0 = num (x + y) := by
  rw [ushr_zero, word_add (within_num x) (within_num y) (by omega), word_num, word_num]

/-- A round. -/
theorem round_eq (W : List Word) (s : State) (i : Nat) :
    round W (varsOf s) i =
      varsOf (Sha256.round s (Sha256.roundConstants.getD i 0, W.getD i 0)) := by
  have hS1 := within_bitXor (bitXor (rotr (num s.e) 6) (rotr (num s.e) 11)) (rotr (num s.e) 25)
  have hch := within_bitXor (bitAnd (num s.e) (num s.f)) (bitAnd (bitNot (num s.e)) (num s.g))
  have hS0 := within_bitXor (bitXor (rotr (num s.a) 2) (rotr (num s.a) 13)) (rotr (num s.a) 22)
  have hmaj := within_bitXor (bitXor (bitAnd (num s.a) (num s.b)) (bitAnd (num s.a) (num s.c)))
    (bitAnd (num s.b) (num s.c))
  have hK := within_entry K i
  have hW := within_entry W i
  have htwo := (within_num s.h).add hS1 (by omega)
  have hthree := htwo.add hch (by omega)
  have hfour := hthree.add hK (by omega)
  -- the two sums, before they are added to the variables
  have htemp1 : ushr (add (add (add (add (num s.h) (bitXor (bitXor (rotr (num s.e) 6)
      (rotr (num s.e) 11)) (rotr (num s.e) 25))) (bitXor (bitAnd (num s.e) (num s.f))
      (bitAnd (bitNot (num s.e)) (num s.g)))) (entry K i)) (entry W i)) 0 =
      num (s.h + bigSigma1 s.e + Sha256.ch s.e s.f s.g + Sha256.roundConstants.getD i 0 +
        W.getD i 0) := by
    rw [ushr_zero, word_add hfour hW (by omega), word_add hthree hK (by omega),
      word_add htwo hch (by omega), word_add (within_num s.h) hS1 (by omega), word_num,
      word_bigSigma1, word_ch, word_entry, word_entry, K_eq]
  have htemp2 : ushr (add (bitXor (bitXor (rotr (num s.a) 2) (rotr (num s.a) 13))
      (rotr (num s.a) 22)) (bitXor (bitXor (bitAnd (num s.a) (num s.b))
      (bitAnd (num s.a) (num s.c))) (bitAnd (num s.b) (num s.c)))) 0 =
      num (bigSigma0 s.a + Sha256.maj s.a s.b s.c) := by
    rw [ushr_zero, word_add hS0 hmaj (by omega), word_bigSigma0, word_maj]
  unfold round varsOf
  dsimp only
  rw [htemp1, htemp2, ushr_add_num, ushr_add_num]
  rfl

/-! ## Blocks -/

/-- The hash value as an array. -/
def hashWords (s : State) : List Word := [s.a, s.b, s.c, s.d, s.e, s.f, s.g, s.h]

/-- The eight additions behind the rounds. -/
theorem addTo_hashWords (s r : State) :
    addTo (addTo (addTo (addTo (addTo (addTo (addTo (addTo (hashWords s) 0 (varsOf r).a)
      1 (varsOf r).b) 2 (varsOf r).c) 3 (varsOf r).d) 4 (varsOf r).e) 5 (varsOf r).f)
      6 (varsOf r).g) 7 (varsOf r).h =
      [s.a + r.a, s.b + r.b, s.c + r.c, s.d + r.d, s.e + r.e, s.f + r.f, s.g + r.g, s.h + r.h] := by
  have hsum : ∀ x y : Word, word (ushr (add (num x) (num y)) 0) = x + y := fun x y => by
    rw [ushr_add_num, word_num]
  show [word (ushr (add (num s.a) (num r.a)) 0), word (ushr (add (num s.b) (num r.b)) 0),
    word (ushr (add (num s.c) (num r.c)) 0), word (ushr (add (num s.d) (num r.d)) 0),
    word (ushr (add (num s.e) (num r.e)) 0), word (ushr (add (num s.f) (num r.f)) 0),
    word (ushr (add (num s.g) (num r.g)) 0), word (ushr (add (num s.h) (num r.h)) 0)] = _
  simp only [hsum]

/-- The block at an offset. -/
def blockAt (view : Bytes) (offset : Nat) : Bytes := (view.drop offset).take 64

variable {view : Bytes} {offset : Nat}

/-- A block has 64 bytes. -/
theorem length_blockAt (h : offset + 64 ≤ view.length) : (blockAt view offset).length = 64 := by
  rw [blockAt, List.length_take, List.length_drop]
  omega

/-- The first sixteen words are the block's. -/
theorem loadWords_eq (h : offset + 64 ≤ view.length) (hW : W.length = 64) :
    (List.range 16).foldlM (loadWord view offset) W =
      .ok (Sha256.words 16 (blockAt view offset) ++ W.drop 16) := by
  have hstep : ∀ W : List Word, ∀ i ∈ List.range 16, loadWord view offset W i =
      .ok (W.set i (Sha256.wordAt view (offset + i * 4))) := fun W i hi => by
    rw [List.mem_range] at hi
    rw [loadWord, getUint32BE, if_pos (by omega), ok_bind, word_num]
  have hwords : Sha256.words 16 (blockAt view offset) =
      (List.range 16).map fun i => Sha256.wordAt view (offset + i * 4) := by
    rw [Sha256.words_eq (by rw [length_blockAt h])]
    refine List.map_congr_left fun i hi => ?_
    rw [List.mem_range] at hi
    rw [Sha256.wordAt, Sha256.wordAt, blockAt, List.drop_take, List.take_take, List.drop_drop,
      Nat.min_eq_left (by omega), Nat.mul_comm]
  have hloop := foldl_set_range [] (W.take 16) (W.drop 16)
    fun i => Sha256.wordAt view (offset + i * 4)
  have htake : (W.take 16).length = 16 := by
    rw [List.length_take, hW]
    rfl
  simp only [List.nil_append, List.length_nil, Nat.zero_add, htake, List.take_append_drop] at hloop
  rw [foldlM_ok hstep, hloop, hwords]

/-- One block: the old schedule is overwritten before it is read. -/
theorem block_eq {s : State} (h : offset + 64 ≤ view.length) (hW : W.length = 64) :
    block view ⟨hashWords s, W⟩ offset =
      .ok ⟨hashWords (Sha256.compress s (blockAt view offset)),
        Sha256.schedule (blockAt view offset)⟩ := by
  have hblock := length_blockAt h
  have hrest : (W.drop 16).length = 48 := by rw [List.length_drop, hW]
  have hrounds : (List.range 64).foldl (round (Sha256.schedule (blockAt view offset))) (varsOf s) =
      varsOf ((List.range 64).foldl (fun s i => Sha256.round s (Sha256.roundConstants.getD i 0,
        (Sha256.schedule (blockAt view offset)).getD i 0)) s) :=
    List.foldl_hom varsOf fun s i => round_eq _ s i
  rw [block, loadWords_eq h hW, ok_bind,
    extend_eq (Sha256.length_words (by omega)) hrest, ← Sha256.schedule]
  dsimp only
  rw [show (⟨entry (hashWords s) 0, entry (hashWords s) 1, entry (hashWords s) 2,
    entry (hashWords s) 3, entry (hashWords s) 4, entry (hashWords s) 5, entry (hashWords s) 6,
    entry (hashWords s) 7⟩ : Vars) = varsOf s from rfl, hrounds, addTo_hashWords,
    Sha256.compress_eq hblock]
  rfl

/-- All blocks, one after the other. -/
theorem blocks_run {s : State} {l : List Nat} (hl : ∀ offset ∈ l, offset + 64 ≤ view.length)
    (hW : W.length = 64) :
    ∃ W', l.foldlM (block view) ⟨hashWords s, W⟩ =
      .ok ⟨hashWords ((l.map (blockAt view)).foldl Sha256.compress s), W'⟩ := by
  induction l generalizing s W with
  | nil => exact ⟨W, rfl⟩
  | cons offset l ih =>
    obtain ⟨hoffset, hl⟩ := List.forall_mem_cons.mp hl
    obtain ⟨W', hrun⟩ := ih (s := Sha256.compress s (blockAt view offset)) hl
      (Sha256.length_schedule (length_blockAt hoffset))
    exact ⟨W', by rw [List.foldlM_cons, block_eq hoffset hW, ok_bind, hrun]; rfl⟩

/-! ## The digest -/

/-- A word is written over four zeros. -/
theorem setUint32BE_middle (front back : Bytes) (value : Int) :
    setUint32BE (front ++ zeros 4 ++ back) front.length value =
      .ok (front ++ beBytes 4 (word value).toNat ++ back) := by
  rw [setUint32BE, if_neg (by omega), Int.toNat_natCast,
    set_middle _ _ (by rw [length_zeros, length_beBytes])]

/-- Four bytes for a word. -/
theorem length_flatMap_wordBytes (ws : List Word) :
    (ws.flatMap Sha256.wordBytes).length = ws.length * 4 := by
  induction ws with
  | nil => rfl
  | cons w ws ih =>
    have hword : (Sha256.wordBytes w).length = 4 := length_beBytes 4 w.toNat
    rw [List.flatMap_cons, List.length_append, ih, hword, List.length_cons]
    omega

/-- The eight words, as bytes. -/
theorem digest_eq (ws : List Word) :
    (List.range ws.length).foldlM
      (fun result i => setUint32BE result ((i * 4 : Nat) : Int) (entry ws i))
      (zeros (4 * ws.length)) = .ok (ws.flatMap Sha256.wordBytes) := by
  have hpart : ∀ m, m ≤ ws.length → (List.range m).foldlM
      (fun result i => setUint32BE result ((i * 4 : Nat) : Int) (entry ws i))
      (zeros (4 * ws.length)) =
        .ok ((ws.take m).flatMap Sha256.wordBytes ++ zeros (4 * (ws.length - m))) := fun m hm => by
    induction m with
    | zero => rfl
    | succ m ih =>
      have hfront : ((ws.take m).flatMap Sha256.wordBytes).length = m * 4 := by
        rw [length_flatMap_wordBytes, List.length_take, Nat.min_eq_left (by omega)]
      have hzeros : zeros (4 * (ws.length - m)) = zeros 4 ++ zeros (4 * (ws.length - (m + 1))) := by
        rw [← zeros_add, show 4 * (ws.length - m) = 4 + 4 * (ws.length - (m + 1)) by omega]
      have hentry : word (entry ws m) = ws[m] := by
        rw [word_entry, List.getD_eq_getElem _ _ (by omega)]
      have htake : (ws.take (m + 1)).flatMap Sha256.wordBytes =
          (ws.take m).flatMap Sha256.wordBytes ++ beBytes 4 (ws[m]).toNat := by
        rw [← List.take_concat_get' _ _ (by omega), List.flatMap_append, List.flatMap_singleton]
        rfl
      rw [List.range_succ, List.foldlM_append, ih (by omega), ok_bind, List.foldlM_cons,
        ← hfront, hzeros, ← List.append_assoc, setUint32BE_middle, hentry, htake]
      rfl
  have hall := hpart ws.length (Nat.le_refl _)
  rwa [List.take_length, Nat.sub_self, Nat.mul_zero, show zeros 0 = [] from rfl,
    List.append_nil] at hall

/-! ## The message -/

variable {msg : Bytes}

/-- The sums in front of the mask are exact. -/
theorem add_nine {n : Nat} (h : n + 72 < 2 ^ 53) :
    add (add n 9) 63 = ((n + 72 : Nat) : Int) := by
  have hnine : add n 9 = ((n + 9 : Nat) : Int) := toDouble_of_lt (by omega)
  rw [hnine]
  exact toDouble_of_lt (by omega)

/-- The padded length is the definition's. -/
theorem padLength_eq (h : msg.length + 72 < 2 ^ 31) :
    bitAnd (add (add msg.length 9) 63) (bitNot 63) =
      ((msg.length + 1 + Sha256.padding msg + 8 : Nat) : Int) := by
  rw [add_nine (by omega), bitAnd_bitNot h, Sha256.length_padding]

/-- The message comes first, -/
theorem set_msg (msg : Bytes) (k : Nat) : set (zeros (msg.length + k)) msg 0 =
    .ok (msg ++ zeros k) := by
  have hset := set_middle [] (zeros k) (length_zeros msg.length)
  rw [List.nil_append, List.nil_append, ← zeros_add] at hset
  exact hset

/-- and a one behind it. -/
theorem set_one (msg : Bytes) (k : Nat) :
    (msg ++ zeros (1 + k)).set msg.length 0x80 = msg ++ [0x80] ++ zeros k := by
  rw [zeros_add, List.set_append_right (h := Nat.le_refl _), Nat.sub_self, List.append_assoc]
  rfl

/-- As many offsets as blocks. -/
theorem offsets_eq (n : Nat) : offsets (n * 64) = (List.range n).map (64 * ·) := by
  rw [offsets, show (n * 64 + 63) / 64 = n by omega]

/-- The blocks that start at the offsets are those of the definition. -/
theorem map_blockAt_offsets {n : Nat} : (offsets (n * 64)).map (blockAt view) =
    Sha256.blocks n view := by
  rw [offsets_eq, List.map_map, Sha256.blocks_eq]
  rfl

/-- The two words of the bit length. -/
theorem word_bitLength {n : Nat} (h : n + 72 < 2 ^ 31) :
    (word (ushr (mul n 8) 0)).toNat = n * 8 % 2 ^ 32 ∧
      (word (floorDiv (mul n 8) 32)).toNat = n * 8 / 2 ^ 32 := by
  have hbits : mul n 8 = ((n * 8 : Nat) : Int) := toDouble_of_lt (by omega)
  have hdiv : floorDiv ((n * 8 : Nat) : Int) 32 = ((n * 8 / 2 ^ 32 : Nat) : Int) := by
    rw [floorDiv]
    omega
  constructor
  · rw [hbits, ushr_zero, word_num, word, BitVec.ofInt_natCast, BitVec.toNat_ofNat]
  · rw [hbits, hdiv, toNat_word (by omega)]

/-- Behind the message there is room for the bit length, and then it is padded. -/
theorem setLength_eq (h : msg.length + 72 < 2 ^ 31) :
    (setUint32BE (msg ++ [0x80] ++ zeros (Sha256.padding msg + 8))
        (sub ((msg.length + 1 + Sha256.padding msg + 8 : Nat) : Int) 4)
        (ushr (mul msg.length 8) 0) >>= fun view =>
      setUint32BE view (sub ((msg.length + 1 + Sha256.padding msg + 8 : Nat) : Int) 8)
        (floorDiv (mul msg.length 8) 32)) = .ok (Sha256.pad msg) := by
  have hpadding : Sha256.padding msg < 64 := Nat.mod_lt _ (by omega)
  obtain ⟨hlow, hhigh⟩ := word_bitLength h
  have hfirst : sub ((msg.length + 1 + Sha256.padding msg + 8 : Nat) : Int) 8 =
      ((msg ++ [0x80] ++ zeros (Sha256.padding msg)).length : Nat) := by
    refine sub_natCast (b := 8) ?_ (by omega)
    simp only [List.length_append, List.length_singleton, length_zeros]
  have hlast : sub ((msg.length + 1 + Sha256.padding msg + 8 : Nat) : Int) 4 =
      ((msg ++ [0x80] ++ zeros (Sha256.padding msg) ++ zeros 4).length : Nat) := by
    refine sub_natCast (b := 4) ?_ (by omega)
    simp only [List.length_append, List.length_singleton, length_zeros]
  have hzeros : msg ++ [0x80] ++ zeros (Sha256.padding msg + 8) =
      msg ++ [0x80] ++ zeros (Sha256.padding msg) ++ zeros 4 ++ zeros 4 ++ [] := by
    rw [List.append_nil, List.append_assoc (_ ++ zeros (Sha256.padding msg)), ← zeros_add,
      List.append_assoc _ (zeros (Sha256.padding msg)), ← zeros_add]
  rw [hzeros, hlast, setUint32BE_middle, ok_bind, hfirst, List.append_nil, hlow,
    setUint32BE_middle, hhigh, Sha256.pad_eq]
  rfl

/-- The digest is SHA-256 of the message. -/
theorem pureSha256_eq (h : msg.length + 72 < 2 ^ 31) : pureSha256 msg = .ok (sha256 msg) := by
  have hset := set_msg msg (1 + (Sha256.padding msg + 8))
  rw [show msg.length + (1 + (Sha256.padding msg + 8)) = msg.length + 1 + Sha256.padding msg + 8
    by omega] at hset
  have hlength := Sha256.length_pad msg
  -- every block is whole
  have hoffsets : ∀ offset ∈ offsets ((msg.length + 72) / 64 * 64),
      offset + 64 ≤ (Sha256.pad msg).length := fun offset hoffset => by
    rw [offsets_eq, List.mem_map] at hoffset
    obtain ⟨k, hk, rfl⟩ := hoffset
    rw [List.mem_range] at hk
    omega
  have hinitial : ([
      0x6a09e667, 0xbb67ae85, 0x3c6ef372, 0xa54ff53a,
      0x510e527f, 0x9b05688c, 0x1f83d9ab, 0x5be0cd19] : List Word) = hashWords Sha256.initial := rfl
  have hW : (List.replicate 64 (0 : Word)).length = 64 := List.length_replicate
  obtain ⟨W', hrun⟩ := blocks_run (s := Sha256.initial) hoffsets hW
  rw [map_blockAt_offsets] at hrun
  have hsha : sha256 msg = (hashWords ((Sha256.blocks ((msg.length + 72) / 64)
      (Sha256.pad msg)).foldl Sha256.compress Sha256.initial)).flatMap Sha256.wordBytes := by
    unfold sha256
    rw [hlength, Nat.mul_div_cancel _ (by omega)]
    rfl
  unfold pureSha256
  dsimp only
  rw [padLength_eq h, orThrow_bind, if_pos (by omega), Int.toNat_natCast, hset, ok_bind, set_one,
    ← bind_assoc, setLength_eq h, ok_bind, Sha256.length_padding, hinitial, hrun, ok_bind, hsha]
  exact digest_eq _

/-- A length whose padding takes it to the sign bit. -/
theorem pureSha256_long (hlarge : 2 ^ 31 ≤ msg.length + 72) (h : msg.length + 72 < 2 ^ 32) :
    pureSha256 msg = .error .rangeError := by
  have hneg := bitAnd_bitNot_neg hlarge h
  unfold pureSha256
  dsimp only
  rw [add_nine (by omega), orThrow_bind, if_neg (by omega)]

end Core

end Trana.Sdk
