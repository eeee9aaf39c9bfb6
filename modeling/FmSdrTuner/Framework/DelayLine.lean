import Mathlib.Data.List.GetD
import Mathlib.Tactic.Common

/-! # Delay lines

    A ring of `N` cells that is written one cell after the other, and read
    going back from the cell that was written last.

    * `Remembers.read`: what a reader finds `k` cells back, once a value is
      written;
    * `Remembers.write`: the ring after that;
    * `Remembers.oldest`: the cell that is written next. -/

namespace FmSdrTuner

namespace DelayLine
variable {T : Type*} {N : Nat}

/-- What was given, going back, with one more value. -/
def shiftIn (x : T) (past : Nat → T) : Nat → T
  | 0 => x
  | k + 1 => past k

/-- What was given `k` values before the last one; `z` before the first. -/
def pastOf (z : T) (given : List T) (k : Nat) : T := given.reverse.getD k z

@[simp] theorem pastOf_nil (z : T) (k : Nat) : pastOf z [] k = z := by simp [pastOf]

theorem shiftIn_pastOf (z : T) (given : List T) (x : T) :
    shiftIn x (pastOf z given) = pastOf z (given ++ [x]) := by
  funext k
  cases k <;> simp [shiftIn, pastOf]

/-- The values `d` before those of a block, which follows those in `given`. -/
def delayed (z : T) (d : Nat) (given : List T) : List T → List T
  | [] => []
  | x :: xs => pastOf z (given ++ [x]) d :: delayed z d (given ++ [x]) xs

theorem pastOf_map {S : Type*} (f : T → S) (z : T) (given : List T) (k : Nat) :
    pastOf (f z) (given.map f) k = f (pastOf z given k) := by
  rw [pastOf, pastOf, ← List.map_reverse, List.getD_map]

/-- Before the value that comes next, the oldest of `N` is `N` values back. -/
theorem pastOf_append_of_pos (z : T) (given : List T) (x : T) {d : Nat} (hd : 0 < d) :
    pastOf z (given ++ [x]) d = pastOf z given (d - 1) := by
  obtain ⟨k, rfl⟩ : ∃ k, d = k + 1 := ⟨d - 1, by omega⟩
  rw [← shiftIn_pastOf]
  rfl

/-- It is one of the values, or there was none. -/
theorem pastOf_mem (z : T) (given : List T) (k : Nat) :
    pastOf z given k ∈ given ∨ pastOf z given k = z := by
  by_cases hk : k < given.reverse.length
  · left
    rw [pastOf, List.getD_eq_getElem _ _ hk]
    exact List.mem_reverse.mp (List.getElem_mem hk)
  · right
    exact List.getD_eq_default _ _ (by omega)

/-- The cells hold the last `N` values, and `next` is written next. -/
structure Remembers (cells : Vector T N) (next : Nat) (past : Nat → T) : Prop where
  next_lt : next < N
  back : ∀ k < N, cells[(next + N - 1 - k) % N]? = some (past k)

/-- The place `k` cells back from one. -/
theorem back_eq {next k : Nat} (hnext : next < N) (hk : k < N) :
    (next + N - k) % N = if k ≤ next then next - k else next + N - k := by
  split
  · rw [show next + N - k = next - k + N by omega, Nat.add_mod_right, Nat.mod_eq_of_lt (by omega)]
  · exact Nat.mod_eq_of_lt (by omega)

theorem Remembers.initial (z : T) (hN : 0 < N) :
    Remembers (Vector.replicate N z) 0 (pastOf z []) where
  next_lt := hN
  back k hk := by
    rw [Vector.getElem?_replicate, if_pos (Nat.mod_lt _ hN), pastOf_nil]

namespace Remembers
variable {cells : Vector T N} {next : Nat} {past : Nat → T}

/-- The value just written is found no cell back, those before it further
    back. -/
theorem read (h : Remembers cells next past) (x : T) {k : Nat} (hk : k < N) :
    (cells.set next x h.next_lt)[(next + N - k) % N]? = some (shiftIn x past k) := by
  have hnext := h.next_lt
  rw [Vector.getElem?_set]
  cases k with
  | zero =>
    rw [back_eq hnext hk, if_pos (Nat.zero_le _), Nat.sub_zero, if_pos rfl]
    rfl
  | succ k =>
    have hother : next ≠ (next + N - (k + 1)) % N := by
      rw [back_eq hnext hk]
      split <;> omega
    rw [if_neg hother, show next + N - (k + 1) = next + N - 1 - k by omega]
    exact h.back k (by omega)

theorem write (h : Remembers cells next past) (x : T) :
    Remembers (cells.set next x h.next_lt) ((next + 1) % N) (shiftIn x past) := by
  have hnext := h.next_lt
  have hpos : 0 < N := by omega
  refine ⟨Nat.mod_lt _ hpos, fun k hk => ?_⟩
  have hplace : ((next + 1) % N + N - 1 - k) % N = (next + N - k) % N := by
    by_cases hlast : next + 1 = N
    · rw [hlast, Nat.mod_self, back_eq hnext hk, if_pos (by omega),
        Nat.mod_eq_of_lt (by omega)]
      omega
    · rw [Nat.mod_eq_of_lt (show next + 1 < N by omega)]
      congr 1
      omega
  rw [hplace]
  exact h.read x hk

/-- The cell that is written next holds the oldest value. -/
theorem oldest (h : Remembers cells next past) : cells[next]? = some (past (N - 1)) := by
  have hnext := h.next_lt
  have hback := h.back (N - 1) (by omega)
  rwa [show next + N - 1 - (N - 1) = next by omega, Nat.mod_eq_of_lt hnext] at hback

end Remembers

end DelayLine

end FmSdrTuner
