import Mathlib.Data.List.Basic
import Mathlib.Order.Lattice

/-! # The first smallest element

    A loop over a list keeps the smallest value seen so far and the index it
    was seen at, and replaces them by a value that is smaller. What it ends
    with is the first of the smallest elements, or what it started with. -/

namespace FmSdrTuner

variable {α δ : Type*} [LinearOrder δ]

/-- The loop, over elements that are numbered from `k` on. -/
def firstMin (value : α → δ) (best : δ × Nat) (k : Nat) (xs : List α) : δ × Nat :=
  (xs.zipIdx k).foldl (fun best x => if value x.1 < best.1 then (value x.1, x.2) else best) best

/-- The element at `i` is smallest, and smaller than those before it. -/
structure FirstMinAt (value : α → δ) (xs : List α) (i : Nat) (x : α) : Prop where
  at_index : xs[i]? = some x
  le_all : ∀ y ∈ xs, value x ≤ value y
  lt_before : ∀ j y, j < i → xs[j]? = some y → value x < value y

theorem FirstMinAt.cons {value : α → δ} {xs : List α} {i : Nat} {x y : α}
    (h : FirstMinAt value xs i x) (hlt : value x < value y) :
    FirstMinAt value (y :: xs) (i + 1) x where
  at_index := h.at_index
  le_all := by
    intro z hz
    rcases List.mem_cons.mp hz with rfl | hz
    · exact hlt.le
    · exact h.le_all z hz
  lt_before := by
    intro j z hj hz
    cases j with
    | zero =>
      obtain rfl := Option.some.inj hz
      exact hlt
    | succ j => exact h.lt_before j z (by omega) hz

theorem firstMin_spec (value : α → δ) (best : δ × Nat) (k : Nat) (xs : List α) :
    (firstMin value best k xs = best ∧ ∀ x ∈ xs, best.1 ≤ value x) ∨
    ∃ i x, firstMin value best k xs = (value x, k + i) ∧ value x < best.1 ∧
      FirstMinAt value xs i x := by
  induction xs generalizing best k with
  | nil => exact Or.inl ⟨rfl, fun x hx => absurd hx List.not_mem_nil⟩
  | cons y ys ih =>
    have hstep : firstMin value best k (y :: ys) =
        firstMin value (if value y < best.1 then (value y, k) else best) (k + 1) ys := rfl
    rw [hstep]
    by_cases hy : value y < best.1
    · rw [if_pos hy]
      right
      rcases ih (value y, k) (k + 1) with ⟨hkept, hall⟩ | ⟨i, x, hfound, hlt, hmin⟩
      · refine ⟨0, y, hkept, hy, rfl, ?_, fun j _ hj => absurd hj (Nat.not_lt_zero j)⟩
        intro z hz
        rcases List.mem_cons.mp hz with rfl | hz
        · exact le_refl _
        · exact hall z hz
      · refine ⟨i + 1, x, ?_, hlt.trans hy, hmin.cons hlt⟩
        rw [hfound, Nat.add_assoc, Nat.add_comm 1 i]
    · rw [if_neg hy]
      rcases ih best (k + 1) with ⟨hkept, hall⟩ | ⟨i, x, hfound, hlt, hmin⟩
      · refine Or.inl ⟨hkept, ?_⟩
        intro z hz
        rcases List.mem_cons.mp hz with rfl | hz
        · exact not_lt.mp hy
        · exact hall z hz
      · refine Or.inr ⟨i + 1, x, ?_, hlt, hmin.cons (hlt.trans_le (not_lt.mp hy))⟩
        rw [hfound, Nat.add_assoc, Nat.add_comm 1 i]

end FmSdrTuner
