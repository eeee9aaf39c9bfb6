import Mathlib.Algebra.Order.Field.Rat
import Mathlib.Algebra.Order.Group.Unbundled.Int
import Mathlib.Algebra.BigOperators.Group.List.Basic

/-! # Controllers with a dead band

    A controller walks along a ladder of rungs. On each rung the controlled
    quantity has a level; above `high` the controller may go one rung
    down, below `low` one rung up. Whether and when it does is left open
    (timers, saturation), so a walk is a list of moves each of which its
    rung allows.

    If one move never carries the level across the whole band, the walk
    goes one way only, and on a ladder with finitely many rungs it makes
    finitely many moves. -/

namespace FmSdrTuner

variable {F : Type*} [LinearOrder F]

/-- The band from `low` to `high` is wider than what one move changes. -/
structure DeadBand (level : ℤ → F) (low high : F) : Prop where
  le : low ≤ high
  after_down : ∀ k, high < level k → low ≤ level (k + 1)
  after_up : ∀ k, level k < low → level (k - 1) ≤ high

/-- The moves of a controller from a rung on: `0` stays, `1` is a step
    down, `-1` a step up. -/
inductive LadderWalk (level : ℤ → F) (low high : F) : ℤ → List ℤ → Prop where
  | nil (k : ℤ) : LadderWalk level low high k []
  | stay {k : ℤ} {moves : List ℤ} :
      LadderWalk level low high k moves → LadderWalk level low high k (0 :: moves)
  | down {k : ℤ} {moves : List ℤ} : high < level k →
      LadderWalk level low high (k + 1) moves → LadderWalk level low high k (1 :: moves)
  | up {k : ℤ} {moves : List ℤ} : level k < low →
      LadderWalk level low high (k - 1) moves → LadderWalk level low high k (-1 :: moves)

namespace LadderWalk
variable {level : ℤ → F} {low high : F} {k : ℤ} {moves : List ℤ}

/-- From a rung that is not too low there is no step up, then or later. -/
theorem never_up (hband : DeadBand level low high) (hwalk : LadderWalk level low high k moves)
    (hk : low ≤ level k) : ∀ m ∈ moves, 0 ≤ m := by
  induction hwalk with
  | nil k => intro m hm; cases hm
  | stay _ ih =>
    intro m hm
    rcases List.mem_cons.mp hm with rfl | hm
    · exact le_refl 0
    · exact ih hk m hm
  | down hhigh _ ih =>
    intro m hm
    rcases List.mem_cons.mp hm with rfl | hm
    · decide
    · exact ih (hband.after_down _ hhigh) m hm
  | up hlow _ _ => exact absurd hk (not_le.mpr hlow)

/-- From a rung that is not too high there is no step down. -/
theorem never_down (hband : DeadBand level low high)
    (hwalk : LadderWalk level low high k moves) (hk : level k ≤ high) : ∀ m ∈ moves, m ≤ 0 := by
  induction hwalk with
  | nil k => intro m hm; cases hm
  | stay _ ih =>
    intro m hm
    rcases List.mem_cons.mp hm with rfl | hm
    · exact le_refl 0
    · exact ih hk m hm
  | down hhigh _ _ => exact absurd hk (not_le.mpr hhigh)
  | up hlow _ ih =>
    intro m hm
    rcases List.mem_cons.mp hm with rfl | hm
    · decide
    · exact ih (hband.after_up _ hlow) m hm

/-- No move is undone by a later one. -/
theorem pairwise (hband : DeadBand level low high)
    (hwalk : LadderWalk level low high k moves) :
    moves.Pairwise fun m m' => (0 < m → 0 ≤ m') ∧ (m < 0 → m' ≤ 0) := by
  induction hwalk with
  | nil k => exact List.Pairwise.nil
  | stay _ ih => exact ih.cons fun _ _ => ⟨by omega, by omega⟩
  | down hhigh hrest ih =>
    have hlater := hrest.never_up hband (hband.after_down _ hhigh)
    exact ih.cons fun m hm => ⟨fun _ => hlater m hm, by omega⟩
  | up hlow hrest ih =>
    have hlater := hrest.never_down hband (hband.after_up _ hlow)
    exact ih.cons fun m hm => ⟨by omega, fun _ => hlater m hm⟩

/-- The walk goes one way. -/
theorem one_way (hband : DeadBand level low high)
    (hwalk : LadderWalk level low high k moves) :
    (∀ m ∈ moves, 0 ≤ m) ∨ ∀ m ∈ moves, m ≤ 0 := by
  rcases le_or_gt low (level k) with hk | hk
  · exact Or.inl (hwalk.never_up hband hk)
  · exact Or.inr (hwalk.never_down hband (hk.le.trans hband.le))

/-- Going down only, a walk makes as many moves as it gets lower. -/
theorem count_of_nonneg (hwalk : LadderWalk level low high k moves) (hway : ∀ m ∈ moves, 0 ≤ m) :
    (moves.countP (· ≠ 0) : ℤ) = moves.sum := by
  induction hwalk with
  | nil k => rfl
  | stay _ ih => simpa using ih fun m hm => hway m (List.mem_cons_of_mem _ hm)
  | down _ _ ih =>
    have hrest := ih fun m hm => hway m (List.mem_cons_of_mem _ hm)
    rw [List.countP_cons_of_pos (by decide), List.sum_cons]
    push_cast
    omega
  | up _ _ _ => exact absurd (hway (-1) List.mem_cons_self) (by decide)

/-- Going up only, as many as it gets higher. -/
theorem count_of_nonpos (hwalk : LadderWalk level low high k moves) (hway : ∀ m ∈ moves, m ≤ 0) :
    (moves.countP (· ≠ 0) : ℤ) = -moves.sum := by
  induction hwalk with
  | nil k => rfl
  | stay _ ih => simpa using ih fun m hm => hway m (List.mem_cons_of_mem _ hm)
  | down _ _ _ => exact absurd (hway 1 List.mem_cons_self) (by decide)
  | up _ _ ih =>
    have hrest := ih fun m hm => hway m (List.mem_cons_of_mem _ hm)
    rw [List.countP_cons_of_pos (by decide), List.sum_cons]
    push_cast
    omega

/-- A walk that starts and ends on a ladder makes no more moves than the
    ladder has steps. -/
theorem count_le {lo hi : ℤ} (hband : DeadBand level low high)
    (hwalk : LadderWalk level low high k moves) (hstart : lo ≤ k ∧ k ≤ hi)
    (hend : lo ≤ k + moves.sum ∧ k + moves.sum ≤ hi) :
    (moves.countP (· ≠ 0) : ℤ) ≤ hi - lo := by
  rcases hwalk.one_way hband with hway | hway
  · rw [hwalk.count_of_nonneg hway]
    omega
  · rw [hwalk.count_of_nonpos hway]
    omega

end LadderWalk

end FmSdrTuner
