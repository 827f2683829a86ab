import Mathlib.Data.List.DropRight
import Trana.Lib.Text
import Trana.Lib.Bits

/-!
# Base64url texts

RFC 4648 §5 from the reader's side: the six-bit values of a text, and which
texts are encodings.

A decoder may be more liberal than the format: it may skip what is no character
of the alphabet, stop at padding or go on behind it, and drop bits that do not
fill a byte. `textBits` is defined on every text for that reason, and
`Canonical` singles out the texts an encoder writes. What a decoder does with
the others is then a statement about the bits, not about the alphabet.

* `textBits` — the bits a text spells; characters outside the alphabet, padding
  among them, spell nothing.
* `Canonical`, `canonical_iff` — the encodings are the texts of a possible
  length, in the alphabet, whose left-over bits are zero.
* `leftover` — the bits of the last characters that fill no byte.
* `unpadded` — a text without the padding behind it.
-/

namespace Trana.Lib

/-- The six-bit value of a character. -/
def sextet? (c : UInt8) : Option Nat := (base64urlAlphabet.map Char.toUInt8).idxOf? c

/-- The six bits of a character of the alphabet. -/
theorem sextet?_char {v : Nat} (h : v < 64) : sextet? (base64urlChar v) = some v := by
  have hall : ∀ v < 64, sextet? (base64urlChar v) = some v := by decide +kernel
  exact hall v h

/-- A character spells six bits exactly when it is the one they are written as. -/
theorem sextet?_eq_some {c : UInt8} {v : Nat} :
    sextet? c = some v ↔ v < 64 ∧ c = base64urlChar v := by
  constructor
  · intro h
    obtain ⟨hlt, hget, -⟩ := List.idxOf?_eq_some_iff.mp h
    have hv : v < base64urlAlphabet.length := by rwa [List.length_map] at hlt
    rw [List.getElem_map] at hget
    exact ⟨length_base64urlAlphabet ▸ hv, by
      rw [base64urlChar, List.getD_eq_getElem _ _ hv, hget]⟩
  · rintro ⟨hv, rfl⟩
    exact sextet?_char hv

/-- Padding spells nothing. -/
theorem sextet?_padding : sextet? '='.toUInt8 = none := by decide +kernel

/-! ## What a text spells -/

/-- The six-bit values of a text, what does not spell one left out. -/
def sextets (t : Bytes) : List Nat := t.filterMap sextet?

/-- All bits of a text. -/
def textBits (t : Bytes) : List Bool := (sextets t).flatMap (bits 6)

/-- The values of two texts behind each other. -/
theorem sextets_append (a b : Bytes) : sextets (a ++ b) = sextets a ++ sextets b :=
  List.filterMap_append

/-- Their bits. -/
theorem textBits_append (a b : Bytes) : textBits (a ++ b) = textBits a ++ textBits b := by
  rw [textBits, sextets_append, List.flatMap_append]
  rfl

/-- Six bits for each value. -/
theorem length_textBits (t : Bytes) : (textBits t).length = 6 * (sextets t).length :=
  length_flatMap_bits 6 (sextets t)

/-- In the alphabet throughout. -/
def InAlphabet (t : Bytes) : Prop := ∀ c ∈ t, ∃ v, sextet? c = some v

/-- Values written down read back. -/
theorem sextets_map {vs : List Nat} (h : ∀ v ∈ vs, v < 64) :
    sextets (vs.map base64urlChar) = vs := by
  induction vs with
  | nil => rfl
  | cons v vs ih =>
    obtain ⟨hv, hvs⟩ := List.forall_mem_cons.mp h
    rw [List.map_cons, sextets, List.filterMap_cons_some (sextet?_char hv), ← sextets, ih hvs]

/-- And are written in the alphabet. -/
theorem inAlphabet_map {vs : List Nat} (h : ∀ v ∈ vs, v < 64) :
    InAlphabet (vs.map base64urlChar) := by
  intro c hc
  obtain ⟨v, hv, rfl⟩ := List.mem_map.mp hc
  exact ⟨v, sextet?_char (h v hv)⟩

/-- Such a text is one of characters of six-bit values. -/
theorem InAlphabet.exists_map {t : Bytes} (h : InAlphabet t) :
    ∃ vs : List Nat, (∀ v ∈ vs, v < 64) ∧ t = vs.map base64urlChar := by
  induction t with
  | nil => exact ⟨[], fun v hv => absurd hv List.not_mem_nil, rfl⟩
  | cons c t ih =>
    obtain ⟨⟨v, hv⟩, ht⟩ := List.forall_mem_cons.mp h
    obtain ⟨hlt, rfl⟩ := sextet?_eq_some.mp hv
    obtain ⟨vs, hvs, rfl⟩ := ih ht
    exact ⟨v :: vs, List.forall_mem_cons.mpr ⟨hlt, hvs⟩, rfl⟩

/-! ## Encodings -/

/-- The bits left over behind the last whole byte: the low bits of the last of
these values. -/
def leftover (vs : List Nat) : Nat :=
  match vs.getLast? with
  | some v => v % 2 ^ (6 * vs.length % 8)
  | none => 0

/-- A text in the alphabet, of a length that bytes can have, with nothing left over. -/
structure Canonical (t : Bytes) : Prop where
  alphabet : InAlphabet t
  length_ne : t.length % 4 ≠ 1
  leftover_eq : leftover (sextets t) = 0

/-- Four characters are three bytes: what is left over comes behind them. -/
theorem leftover_group (v₁ v₂ v₃ v₄ : Nat) (vs : List Nat) :
    leftover (v₁ :: v₂ :: v₃ :: v₄ :: vs) = leftover vs := by
  unfold leftover
  cases vs with
  | nil => simp [Nat.mod_one]
  | cons v vs =>
    have hlen : 6 * (vs.length + 1 + 1 + 1 + 1 + 1) % 8 = 6 * (vs.length + 1) % 8 := by omega
    simp only [List.getLast?_cons_cons, List.length_cons, hlen]

section Group

variable {v₁ v₂ v₃ v₄ : Nat}

theorem leftover_two : leftover [v₁, v₂] = v₂ % 16 := by simp [leftover]

theorem leftover_three : leftover [v₁, v₂, v₃] = v₃ % 4 := by simp [leftover]

/-- Two characters with four zero bits at the end are one byte. -/
theorem chars_two (h₁ : v₁ < 64) (h₂ : v₂ < 64) (hzero : v₂ % 16 = 0) :
    [base64urlChar v₁, base64urlChar v₂] = base64urlEncode [UInt8.ofNat (v₁ * 4 + v₂ / 16)] := by
  have ha : (UInt8.ofNat (v₁ * 4 + v₂ / 16)).toNat = v₁ * 4 + v₂ / 16 :=
    UInt8.toNat_ofNat_of_lt' (show _ < 256 by omega)
  have h₁ : (v₁ * 4 + v₂ / 16) / 4 = v₁ := by omega
  have h₂ : (v₁ * 4 + v₂ / 16) % 4 * 16 = v₂ := by omega
  rw [base64urlEncode, ha, h₁, h₂]

/-- Three with two zero bits are two bytes. -/
theorem chars_three (h₁ : v₁ < 64) (h₂ : v₂ < 64) (h₃ : v₃ < 64) (hzero : v₃ % 4 = 0) :
    [base64urlChar v₁, base64urlChar v₂, base64urlChar v₃] =
      base64urlEncode [UInt8.ofNat (v₁ * 4 + v₂ / 16), UInt8.ofNat (v₂ % 16 * 16 + v₃ / 4)] := by
  have ha : (UInt8.ofNat (v₁ * 4 + v₂ / 16)).toNat = v₁ * 4 + v₂ / 16 :=
    UInt8.toNat_ofNat_of_lt' (show _ < 256 by omega)
  have hb : (UInt8.ofNat (v₂ % 16 * 16 + v₃ / 4)).toNat = v₂ % 16 * 16 + v₃ / 4 :=
    UInt8.toNat_ofNat_of_lt' (show _ < 256 by omega)
  have h₁ : (v₁ * 4 + v₂ / 16) / 4 = v₁ := by omega
  have h₂ : (v₁ * 4 + v₂ / 16) % 4 * 16 + (v₂ % 16 * 16 + v₃ / 4) / 16 = v₂ := by omega
  have h₃ : (v₂ % 16 * 16 + v₃ / 4) % 16 * 4 = v₃ := by omega
  rw [base64urlEncode, ha, hb, h₁, h₂, h₃]

/-- Four in front of an encoding are three more bytes. -/
theorem chars_group (h₁ : v₁ < 64) (h₂ : v₂ < 64) (h₃ : v₃ < 64) (h₄ : v₄ < 64) (bs : Bytes) :
    base64urlChar v₁ :: base64urlChar v₂ :: base64urlChar v₃ :: base64urlChar v₄ ::
        base64urlEncode bs =
      base64urlEncode (UInt8.ofNat (v₁ * 4 + v₂ / 16) :: UInt8.ofNat (v₂ % 16 * 16 + v₃ / 4) ::
        UInt8.ofNat (v₃ % 4 * 64 + v₄) :: bs) := by
  have ha : (UInt8.ofNat (v₁ * 4 + v₂ / 16)).toNat = v₁ * 4 + v₂ / 16 :=
    UInt8.toNat_ofNat_of_lt' (show _ < 256 by omega)
  have hb : (UInt8.ofNat (v₂ % 16 * 16 + v₃ / 4)).toNat = v₂ % 16 * 16 + v₃ / 4 :=
    UInt8.toNat_ofNat_of_lt' (show _ < 256 by omega)
  have hc : (UInt8.ofNat (v₃ % 4 * 64 + v₄)).toNat = v₃ % 4 * 64 + v₄ :=
    UInt8.toNat_ofNat_of_lt' (show _ < 256 by omega)
  have h₁ : (v₁ * 4 + v₂ / 16) / 4 = v₁ := by omega
  have h₂ : (v₁ * 4 + v₂ / 16) % 4 * 16 + (v₂ % 16 * 16 + v₃ / 4) / 16 = v₂ := by omega
  have h₃ : (v₂ % 16 * 16 + v₃ / 4) % 16 * 4 + (v₃ % 4 * 64 + v₄) / 64 = v₃ := by omega
  have h₄ : (v₃ % 4 * 64 + v₄) % 64 = v₄ := by omega
  rw [base64urlEncode, ha, hb, hc, h₁, h₂, h₃, h₄]

end Group

/-- Values in four's, with nothing left over, are an encoding. -/
theorem exists_encode : ∀ vs : List Nat, (∀ v ∈ vs, v < 64) → vs.length % 4 ≠ 1 →
    leftover vs = 0 → ∃ bs, vs.map base64urlChar = base64urlEncode bs
  | [], _, _, _ => ⟨[], rfl⟩
  | [_], _, hlen, _ => absurd rfl hlen
  | [v₁, v₂], hlt, _, hleft => by
    simp only [List.forall_mem_cons] at hlt
    exact ⟨_, chars_two hlt.1 hlt.2.1 (leftover_two ▸ hleft)⟩
  | [v₁, v₂, v₃], hlt, _, hleft => by
    simp only [List.forall_mem_cons] at hlt
    exact ⟨_, chars_three hlt.1 hlt.2.1 hlt.2.2.1 (leftover_three ▸ hleft)⟩
  | v₁ :: v₂ :: v₃ :: v₄ :: vs, hlt, hlen, hleft => by
    simp only [List.forall_mem_cons] at hlt
    simp only [List.length_cons] at hlen
    rw [leftover_group] at hleft
    obtain ⟨bs, hbs⟩ := exists_encode vs hlt.2.2.2.2 (by omega) hleft
    simp only [List.map_cons, hbs]
    exact ⟨_, chars_group hlt.1 hlt.2.1 hlt.2.2.1 hlt.2.2.2.1 bs⟩

/-- The values of an encoding. -/
theorem encode_values (bs : Bytes) : ∃ vs : List Nat, (∀ v ∈ vs, v < 64) ∧ vs.length % 4 ≠ 1 ∧
    leftover vs = 0 ∧ base64urlEncode bs = vs.map base64urlChar := by
  induction bs using base64urlEncode.induct with
  | case1 => exact ⟨[], fun v hv => absurd hv List.not_mem_nil, by decide, rfl, rfl⟩
  | case2 a =>
    have ha : a.toNat < 256 := a.toNat_lt
    refine ⟨[a.toNat / 4, a.toNat % 4 * 16], ?_, (by decide : 2 % 4 ≠ 1), ?_, rfl⟩
    · simp only [List.forall_mem_cons]
      exact ⟨by omega, by omega, fun v hv => absurd hv List.not_mem_nil⟩
    · rw [leftover_two]
      omega
  | case3 a b =>
    have ha : a.toNat < 256 := a.toNat_lt
    have hb : b.toNat < 256 := b.toNat_lt
    refine ⟨[a.toNat / 4, a.toNat % 4 * 16 + b.toNat / 16, b.toNat % 16 * 4], ?_,
      (by decide : 3 % 4 ≠ 1), ?_, rfl⟩
    · simp only [List.forall_mem_cons]
      exact ⟨by omega, by omega, by omega, fun v hv => absurd hv List.not_mem_nil⟩
    · rw [leftover_three]
      omega
  | case4 a b c rest ih =>
    have ha : a.toNat < 256 := a.toNat_lt
    have hb : b.toNat < 256 := b.toNat_lt
    have hc : c.toNat < 256 := c.toNat_lt
    obtain ⟨vs, hlt, hlen, hleft, hvs⟩ := ih
    refine ⟨a.toNat / 4 :: (a.toNat % 4 * 16 + b.toNat / 16) ::
      (b.toNat % 16 * 4 + c.toNat / 64) :: c.toNat % 64 :: vs, ?_, ?_, ?_, ?_⟩
    · simp only [List.forall_mem_cons]
      exact ⟨by omega, by omega, by omega, by omega, hlt⟩
    · simp only [List.length_cons]
      omega
    · rw [leftover_group, hleft]
    · rw [base64urlEncode, hvs]
      rfl

/-- The encodings are the canonical texts. -/
theorem canonical_iff {t : Bytes} : Canonical t ↔ ∃ bs, t = base64urlEncode bs := by
  constructor
  · rintro ⟨halphabet, hlen, hleft⟩
    obtain ⟨vs, hvs, rfl⟩ := halphabet.exists_map
    rw [sextets_map hvs] at hleft
    rw [List.length_map] at hlen
    exact exists_encode vs hvs hlen hleft
  · rintro ⟨bs, rfl⟩
    obtain ⟨vs, hvs, hlen, hleft, heq⟩ := encode_values bs
    rw [heq]
    refine ⟨inAlphabet_map hvs, ?_, ?_⟩
    · rwa [List.length_map]
    · rwa [sextets_map hvs]

/-! ## Padding -/

/-- A text without the `=` behind it. -/
def unpadded (t : Bytes) : Bytes := t.rdropWhile (· == '='.toUInt8)

/-- A text is its unpadded form with padding behind it. -/
theorem append_padding (t : Bytes) :
    ∃ n, t = unpadded t ++ List.replicate n '='.toUInt8 := by
  have hall : ∀ c ∈ t.rtakeWhile (· == '='.toUInt8), c = '='.toUInt8 := fun c hc =>
    eq_of_beq (List.mem_rtakeWhile_imp (p := (· == '='.toUInt8)) hc)
  refine ⟨(t.rtakeWhile (· == '='.toUInt8)).length, ?_⟩
  rw [← List.eq_replicate_of_mem hall]
  exact List.rdropWhile_append_rtakeWhile.symm

end Trana.Lib
