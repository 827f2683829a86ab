import Mathlib.Data.List.GetD

/-!
# Loops over arrays

`for` loops that write one array element each, as folds over their range.

An array is a list and a write `l.set i x`, which does nothing out of range, as
an assignment to a typed array does. The first lemma says what a whole loop has
written when it walks over a part of an array; the loop's own body never has to
be unrolled after it. The second one takes the exceptions out of a loop that
turns out to throw none.

* `foldl_set_range` — the elements a loop has written, the ones in front of them
  and behind them left alone; by induction on how far the loop has come.
* `foldlM_ok` — a loop whose steps do not throw.
* `map_range_getD`, `zip_eq_map_range` — lists by index.
-/

namespace Trana.Lib

variable {α β ε σ : Type}

/-- A loop that writes `f 0`, `f 1`, … over `old`. -/
theorem foldl_set_range (front old back : List α) (f : Nat → α) :
    (List.range old.length).foldl (fun l i => l.set (front.length + i) (f i))
        (front ++ (old ++ back)) =
      front ++ ((List.range old.length).map f ++ back) := by
  have hpart : ∀ m, m ≤ old.length →
      (List.range m).foldl (fun l i => l.set (front.length + i) (f i)) (front ++ (old ++ back)) =
        front ++ ((List.range m).map f ++ (old.drop m ++ back)) := fun m hm => by
    induction m with
    | zero => rfl
    | succ m ih =>
      have hdrop : old.drop m = old[m] :: old.drop (m + 1) := List.drop_eq_getElem_cons (by omega)
      have hlen : ((List.range m).map f).length = m := by rw [List.length_map, List.length_range]
      rw [List.range_succ, List.foldl_append, ih (by omega), List.foldl_cons, List.foldl_nil,
        List.set_append_right (h := by omega), Nat.add_sub_cancel_left,
        List.set_append_right (h := by omega), hlen, Nat.sub_self, hdrop, List.cons_append,
        List.set_cons_zero, List.map_append, List.append_assoc]
      rfl
  rw [hpart _ (Nat.le_refl _), List.drop_length, List.nil_append]

/-- A loop whose steps return is the loop of what they return. -/
theorem foldlM_ok {f : σ → β → Except ε σ} {g : σ → β → σ} {l : List β}
    (hf : ∀ s, ∀ b ∈ l, f s b = .ok (g s b)) (s : σ) : l.foldlM f s = .ok (l.foldl g s) := by
  induction l generalizing s with
  | nil => rfl
  | cons b l ih =>
    rw [List.foldlM_cons, List.foldl_cons, hf s b (List.mem_cons_self ..)]
    exact ih (fun s b hb => hf s b (List.mem_cons_of_mem _ hb)) (g s b)

/-- A list is its elements in order. -/
theorem map_range_getD (l : List α) (d : α) : (List.range l.length).map (l.getD · d) = l := by
  refine List.ext_getElem (by rw [List.length_map, List.length_range]) fun i hi hi' => ?_
  rw [List.getElem_map, List.getElem_range, List.getD_eq_getElem _ _ hi']

/-- Two lists side by side, by index. -/
theorem zip_eq_map_range {as : List α} {bs : List β} {n : Nat} (a : α) (b : β)
    (has : as.length = n) (hbs : bs.length = n) :
    as.zip bs = (List.range n).map fun i => (as.getD i a, bs.getD i b) := by
  have ha := map_range_getD as a
  have hb := map_range_getD bs b
  rw [has] at ha
  rw [hbs] at hb
  calc as.zip bs = ((List.range n).map (as.getD · a)).zip ((List.range n).map (bs.getD · b)) := by
        rw [ha, hb]
    _ = (List.range n).map fun i => (as.getD i a, bs.getD i b) := List.zip_map'

end Trana.Lib
