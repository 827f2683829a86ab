import Mathlib.Data.List.Infix
import Trana.Lib.Base58

/-!
# Searching text

`indexOf`, `includes` and `trim` as JavaScript's strings have them, on lists of
characters. The strings searched here are ASCII or compared as a whole, so that
characters and UTF-16 code units make no difference.

A log line is a text in which a tag is looked for and what follows cut out. The
two lemmas are the two directions of that: what was written behind a prefix is
found there and nowhere earlier, and a text in which some character does not
occur often enough has the tag nowhere.

* `indexOf?_behind` — what stands behind a text without its first character is
  found right there.
* `not_includes_of_count` — nothing is found in a text with too few of one of
  its characters.
* `trim_of_none` — a text without white space is not trimmed.
-/

namespace Trana.Lib

section IndexOf

variable {α : Type} [DecidableEq α]

/-- `text.indexOf(needle)`, without its `-1`. -/
def indexOf? (needle : List α) : List α → Option Nat
  | [] => if needle = [] then some 0 else none
  | c :: text =>
    if needle.isPrefixOf (c :: text) then some 0 else (indexOf? needle text).map (· + 1)

/-- `text.includes(needle)` -/
def includes (needle text : List α) : Bool := (indexOf? needle text).isSome

/-- The first occurrence: nothing in front of it can start one, for want of the
needle's first character. -/
theorem indexOf?_behind {c : α} {needle pre rest : List α} (hc : c ∉ pre) :
    indexOf? (c :: needle) (pre ++ (c :: needle ++ rest)) = some pre.length := by
  induction pre with
  | nil =>
    have hprefix : (c :: needle).isPrefixOf (c :: needle ++ rest) = true :=
      List.isPrefixOf_iff_prefix.mpr (List.prefix_append ..)
    rw [List.nil_append, List.cons_append, indexOf?, ← List.cons_append, if_pos hprefix]
    rfl
  | cons x pre ih =>
    obtain ⟨hx, hpre⟩ := not_or.mp (mt List.mem_cons.mpr hc)
    have hno : (c :: needle).isPrefixOf (x :: (pre ++ (c :: needle ++ rest))) ≠ true := by
      intro h
      obtain ⟨tail, htail⟩ := List.isPrefixOf_iff_prefix.mp h
      exact hx (List.cons.inj htail).1
    rw [List.cons_append, indexOf?, if_neg hno, ih hpre]
    rfl

/-- What is found is there. -/
theorem isInfix_of_includes {needle text : List α} (h : includes needle text = true) :
    needle <:+: text := by
  induction text with
  | nil =>
    rw [includes, indexOf?] at h
    split at h
    next hnil => rw [hnil]
    next => cases h
  | cons c text ih =>
    rw [includes, indexOf?] at h
    split at h
    next hprefix => exact (List.isPrefixOf_iff_prefix.mp hprefix).isInfix
    next =>
      rw [Option.isSome_map] at h
      exact List.infix_cons (ih h)

/-- A text that has the needle in it has at least as many of every character. -/
theorem not_includes_of_count {needle text : List α} (c : α)
    (h : text.count c < needle.count c) : includes needle text = false := by
  rw [Bool.eq_false_iff]
  intro hincludes
  have hle := (isInfix_of_includes hincludes).count_le c
  omega

end IndexOf

/-! ## Trimming -/

/-- White space and line terminators. -/
def isJsSpace (c : Char) : Bool :=
  [0x9, 0xA, 0xB, 0xC, 0xD, 0x20, 0xA0, 0x1680, 0x2028, 0x2029, 0x202F, 0x205F, 0x3000,
    0xFEFF].contains c.toNat || (0x2000 ≤ c.toNat && c.toNat ≤ 0x200A)

/-- `text.trim()` -/
def trim (text : List Char) : List Char :=
  ((text.dropWhile isJsSpace).reverse.dropWhile isJsSpace).reverse

/-- Without white space nothing is dropped. -/
theorem dropWhile_of_none {text : List Char} (h : ∀ c ∈ text, isJsSpace c = false) :
    text.dropWhile isJsSpace = text := by
  cases text with
  | nil => rfl
  | cons c text =>
    rw [List.dropWhile_cons_of_neg]
    rw [h c (List.mem_cons_self ..)]
    exact Bool.false_ne_true

/-- And nothing is trimmed. -/
theorem trim_of_none {text : List Char} (h : ∀ c ∈ text, isJsSpace c = false) :
    trim text = text := by
  have hrev : ∀ c ∈ text.reverse, isJsSpace c = false := fun c hc => h c (List.mem_reverse.mp hc)
  rw [trim, dropWhile_of_none h, dropWhile_of_none hrev, List.reverse_reverse]

/-! ## Numbers and addresses -/

/-- The text of a number is digits. -/
theorem not_mem_toString {c : Char} (hc : c.isDigit = false) (n : Nat) :
    c ∉ (toString n).toList := by
  intro h
  have hdigits : c ∈ Nat.toDigits 10 n := by rwa [← Nat.toList_repr]
  rw [Nat.isDigit_of_mem_toDigits (by decide) (by decide) hdigits] at hc
  cases hc

/-- The text of an address is of its alphabet. -/
theorem not_mem_encode {c : Char} (hc : c ∉ Base58.alphabet) (bs : Bytes) :
    c ∉ (Base58.encode bs).toList := by
  have hone : '1' ∈ Base58.alphabet := by decide
  intro h
  rw [Base58.encode, String.toList_ofList] at h
  rcases List.mem_append.mp h with h | h
  · exact hc ((List.eq_of_mem_replicate h) ▸ hone)
  · obtain ⟨digit, -, rfl⟩ := List.mem_map.mp h
    refine hc ?_
    rw [Base58.digitChar, List.getD_eq_getElem?_getD]
    cases hd : Base58.alphabet[digit]? with
    | none => exact hone
    | some c => exact List.mem_of_getElem? hd

end Trana.Lib
