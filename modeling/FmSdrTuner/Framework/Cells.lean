import Mathlib.Data.List.Basic
import Mathlib.Logic.Function.Basic

/-! # Cells of an array

    An array that a program writes to is a function from indices to
    values; what is read back from its start is the list of its first
    cells. A caller's buffer, of which a function fills a prefix, and the
    slots of a ring, read from its read position, are both used this way. -/

namespace FmSdrTuner

variable {α : Type*}

/-- The first `n` cells. -/
def cells (a : Nat → α) (n : Nat) : List α := (List.range n).map a

/-- The array with `xs` written from index `pos` on. -/
def writeCells (a : Nat → α) (pos : Nat) (xs : List α) : Nat → α :=
  fun i => if i < pos then a i else (xs[i - pos]?).getD (a i)

@[simp] theorem length_cells (a : Nat → α) (n : Nat) : (cells a n).length = n := by
  simp [cells]

@[simp] theorem cells_zero (a : Nat → α) : cells a 0 = [] := rfl

theorem cells_succ (a : Nat → α) (n : Nat) : cells a (n + 1) = cells a n ++ [a n] := by
  simp [cells, List.range_succ]

theorem cells_add (a : Nat → α) (n m : Nat) :
    cells a (n + m) = cells a n ++ cells (fun i => a (n + i)) m := by
  simp [cells, List.range_add, Function.comp_def]

/-- Only the cells that are read matter. -/
theorem cells_congr {a b : Nat → α} {n : Nat} (h : ∀ i < n, a i = b i) :
    cells a n = cells b n := by
  unfold cells
  exact List.map_congr_left fun i hi => h i (List.mem_range.mp hi)

theorem take_cells (a : Nat → α) (n m : Nat) : (cells a n).take m = cells a (min m n) := by
  rw [cells, ← List.map_take, List.take_range]
  rfl

theorem drop_cells (a : Nat → α) {n m : Nat} (h : m ≤ n) :
    (cells a n).drop m = cells (fun i => a (m + i)) (n - m) := by
  have hsplit := cells_add a m (n - m)
  rw [Nat.add_sub_of_le h] at hsplit
  rw [hsplit]
  exact List.drop_left' (length_cells a m)

/-! ### Writing -/

@[simp] theorem writeCells_nil (a : Nat → α) (pos : Nat) : writeCells a pos [] = a := by
  funext i
  unfold writeCells
  split <;> rfl

theorem writeCells_before {a : Nat → α} {pos i : Nat} (xs : List α) (h : i < pos) :
    writeCells a pos xs i = a i := if_pos h

theorem writeCells_after {a : Nat → α} {pos i : Nat} {xs : List α} (h : pos + xs.length ≤ i) :
    writeCells a pos xs i = a i := by
  have hpast : xs.length ≤ i - pos := by omega
  unfold writeCells
  rw [if_neg (by omega), List.getElem?_eq_none hpast]
  rfl

theorem writeCells_at {a : Nat → α} {pos j : Nat} {xs : List α} (h : j < xs.length) :
    writeCells a pos xs (pos + j) = xs[j] := by
  unfold writeCells
  rw [if_neg (by omega), Nat.add_sub_cancel_left, List.getElem?_eq_getElem h]
  rfl

theorem writeCells_cons (a : Nat → α) (pos : Nat) (x : α) (xs : List α) :
    writeCells a pos (x :: xs) = writeCells (Function.update a pos x) (pos + 1) xs := by
  funext i
  rcases Nat.lt_trichotomy i pos with hlt | heq | hgt
  · rw [writeCells_before _ hlt, writeCells_before _ (by omega),
      Function.update_of_ne (by omega)]
  · subst heq
    rw [writeCells_before _ (Nat.lt_succ_self i), Function.update_self]
    exact writeCells_at (show 0 < (x :: xs).length by simp)
  · unfold writeCells
    rw [if_neg (by omega), if_neg (by omega), Function.update_of_ne (by omega),
      show i - pos = (i - (pos + 1)) + 1 by omega, List.getElem?_cons_succ]

theorem writeCells_append (a : Nat → α) (pos : Nat) (xs ys : List α) :
    writeCells (writeCells a pos xs) (pos + xs.length) ys = writeCells a pos (xs ++ ys) := by
  induction xs generalizing a pos with
  | nil =>
    rw [List.length_nil, Nat.add_zero, List.nil_append, writeCells_nil]
  | cons x xs ih =>
    rw [List.cons_append, writeCells_cons, writeCells_cons, List.length_cons,
      show pos + (xs.length + 1) = pos + 1 + xs.length by omega]
    exact ih (Function.update a pos x) (pos + 1)

/-- What is written behind the first cells is read back behind them. -/
theorem cells_writeCells (a : Nat → α) (n : Nat) (xs : List α) :
    cells (writeCells a n xs) (n + xs.length) = cells a n ++ xs := by
  rw [cells_add]
  have hfront : cells (writeCells a n xs) n = cells a n :=
    cells_congr fun i hi => writeCells_before xs hi
  have hback : cells (fun i => writeCells a n xs (n + i)) xs.length = xs := by
    refine List.ext_getElem (length_cells _ _) ?_
    intro i _ hi
    simp only [cells, List.getElem_map, List.getElem_range]
    exact writeCells_at hi
  rw [hfront, hback]

end FmSdrTuner
