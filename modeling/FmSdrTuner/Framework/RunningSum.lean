import FmSdrTuner.Framework.SlidingWindow
import Mathlib.Algebra.BigOperators.Group.List.Basic
import Mathlib.Algebra.GroupWithZero.Nat

/-! # Running sums

    A ring of `N` numbers, all zero at first, and the sum of what it holds.
    Clearing it does not move the place that is written next.

    * `RunningSum.recent`: the numbers in the order they were pushed;
    * `RunningSum.Since.getSum`: since it was last cleared, the sum is that of
      the last `N` numbers. -/

namespace FmSdrTuner

/-- A window that moves on by one. -/
theorem tail_rtake_append {α : Type*} {l : List α} {N : Nat} (hpos : 0 < N) (hlen : N ≤ l.length)
    (x : α) : (l.rtake N).tail ++ [x] = (l ++ [x]).rtake N := by
  simp only [List.rtake, List.tail_drop, List.length_append, List.length_singleton]
  rw [List.drop_append_of_le_length (by omega)]
  congr 2
  omega

/-- The numbers and the place that is written next. -/
structure RunningSum (T : Type*) (N : Nat) where
  history : Vector T N
  pointer : Fin N
  deriving DecidableEq, Repr

namespace RunningSum
variable {T : Type*} {N : Nat}

def getSum [Add T] [Zero T] (s : RunningSum T N) : T := s.history.toList.sum

def push [NeZero N] (s : RunningSum T N) (number : T) : RunningSum T N :=
  { history := s.history.set s.pointer number, pointer := s.pointer + 1 }

def clear [Zero T] (s : RunningSum T N) : RunningSum T N :=
  { s with history := Vector.replicate N 0 }

/-- Nothing pushed yet. -/
def initial [NeZero N] [Zero T] : RunningSum T N := ⟨Vector.replicate N 0, 0⟩

/-- The numbers it holds, the oldest first. -/
def recent (s : RunningSum T N) : List T := s.history.toList.rotate s.pointer

@[simp] theorem length_recent (s : RunningSum T N) : s.recent.length = N := by
  simp [recent]

theorem recent_push [NeZero N] (s : RunningSum T N) (x : T) :
    (s.push x).recent = s.recent.tail ++ [x] := by
  have hnext : ((s.pointer + 1 : Fin N) : Nat) = (s.pointer + 1) % s.history.toList.length := by
    rw [Fin.val_add, Vector.length_toList]
    exact Nat.add_mod_mod _ _ _
  have hlt : (s.pointer : Nat) < s.history.toList.length := by simp
  show (s.history.set s.pointer x).toList.rotate (s.pointer + 1 : Fin N) = _
  rw [hnext, Vector.toList_set, Ring.rotate_set_next hlt, recent]

theorem getSum_eq_recent [AddCommMonoid T] (s : RunningSum T N) : s.getSum = s.recent.sum :=
  ((List.rotate_perm _ _).sum_eq).symm

/-! ### What was pushed -/

/-- The numbers `since` were pushed since the ring held zeros only. -/
def Since [Zero T] (s : RunningSum T N) (since : List T) : Prop :=
  s.recent = (List.replicate N 0 ++ since).rtake N

namespace Since
variable {s : RunningSum T N} {since : List T}

theorem clear [Zero T] (s : RunningSum T N) : s.clear.Since [] := by
  simp [Since, RunningSum.clear, recent, List.rotate_replicate, List.rtake]

theorem initial [NeZero N] [Zero T] : (RunningSum.initial : RunningSum T N).Since [] := by
  simp [Since, RunningSum.initial, recent, List.rtake]

theorem push [NeZero N] [Zero T] (h : s.Since since) (x : T) : (s.push x).Since (since ++ [x]) := by
  have hpos : 0 < N := Nat.pos_of_ne_zero (NeZero.ne N)
  show (s.push x).recent = _
  rw [recent_push, h, ← List.append_assoc]
  exact tail_rtake_append hpos (by simp) x

/-- The sum is that of the last `N` numbers. -/
theorem getSum [AddCommMonoid T] (h : s.Since since) : s.getSum = (since.rtake N).sum := by
  rw [getSum_eq_recent, h, List.rtake, List.rtake, List.drop_append, List.sum_append,
    List.drop_replicate, List.sum_replicate, nsmul_zero, zero_add]
  congr 2
  simp only [List.length_append, List.length_replicate]
  omega

end Since

end RunningSum

end FmSdrTuner
