import Mathlib.Data.List.Sort

/-! # Order statistics

    The entry of a given rank of a list, found by sorting, and the same
    entry by counting: it is at most `x` exactly if more entries than its
    rank are. Bounds on percentiles become bounds on counts that way, and
    the order of the list stops to matter. -/

namespace FmSdrTuner

variable {α : Type*} [LinearOrder α]

/-- The entry of rank `i`, counted from zero. -/
def orderStatistic (l : List α) (i : Nat) : Option α := (l.insertionSort (· ≤ ·))[i]?

theorem orderStatistic_isSome_iff {l : List α} {i : Nat} :
    (orderStatistic l i).isSome = true ↔ i < l.length := by
  simp [orderStatistic]

theorem orderStatistic_mem {l : List α} {i : Nat} {a : α} (ha : orderStatistic l i = some a) :
    a ∈ l :=
  (List.perm_insertionSort _ l).mem_iff.mp (List.mem_of_getElem? ha)

/-- In a sorted list the entries up to `x` come first. -/
theorem sorted_getElem_le_iff {l : List α} (hsorted : l.Pairwise (· ≤ ·)) {i : Nat}
    (hi : i < l.length) (x : α) : l[i] ≤ x ↔ i < l.countP (· ≤ x) := by
  induction l generalizing i with
  | nil => exact absurd hi (Nat.not_lt_zero _)
  | cons a l ih =>
    obtain ⟨hfirst, hrest⟩ := List.pairwise_cons.mp hsorted
    by_cases ha : a ≤ x
    · rw [List.countP_cons_of_pos (by simpa using ha)]
      cases i with
      | zero => simpa using ha
      | succ i =>
        rw [List.getElem_cons_succ, ih hrest (Nat.lt_of_succ_lt_succ hi)]
        omega
    · -- then no entry is
      have hnone : l.countP (· ≤ x) = 0 := by
        rw [List.countP_eq_zero]
        intro b hb
        simpa using (not_le.mp ha).trans_le (hfirst b hb)
      rw [List.countP_cons_of_neg (by simpa using ha), hnone]
      have hlarge : ¬ (a :: l)[i] ≤ x := by
        cases i with
        | zero => simpa using ha
        | succ i =>
          have hmem := List.getElem_mem (Nat.lt_of_succ_lt_succ hi)
          exact fun hle => ha ((hfirst _ hmem).trans hle)
      exact ⟨fun hle => absurd hle hlarge, fun hlt => absurd hlt (Nat.not_lt_zero _)⟩

theorem orderStatistic_le_iff {l : List α} {i : Nat} {a : α} (ha : orderStatistic l i = some a)
    (x : α) : a ≤ x ↔ i < l.countP (· ≤ x) := by
  obtain ⟨hi, hget⟩ := List.getElem?_eq_some_iff.mp ha
  rw [← hget, sorted_getElem_le_iff (List.pairwise_insertionSort _ l) hi x,
    (List.perm_insertionSort _ l).countP_eq]

end FmSdrTuner
